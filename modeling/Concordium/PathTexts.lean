/-
  What the rows for a derivation path say.

  A path is shown as numbers with a slash between them.  Such a text determines
  its numbers, and the buffers have room for it.
-/
import Concordium.Header
import Concordium.Trust

namespace Concordium

open Buffer Wp

/-! ## Words between slashes -/

/-- Words with a slash between them. -/
def slashed (words : List Bytes) : Bytes := List.intercalate (ascii "/") words

/-- No word has a slash or a NUL of its own. -/
def PlainWords (words : List Bytes) : Prop := ∀ word ∈ words, ∀ b ∈ word, b ≠ 47 ∧ b ≠ 0

theorem slashed_singleton (word : Bytes) : slashed [word] = word := by simp [slashed]

theorem slashed_cons (word : Bytes) {words : List Bytes} (h : words ≠ []) :
    slashed (word :: words) = word ++ ascii "/" ++ slashed words := by
  cases words with
  | nil => exact absurd rfl h
  | cons next rest => simp [slashed, List.intercalate]

theorem slashed_concat {words : List Bytes} (h : words ≠ []) (word : Bytes) :
    slashed (words ++ [word]) = slashed words ++ ascii "/" ++ word := by
  induction words with
  | nil => exact absurd rfl h
  | cons first rest ih =>
    by_cases hrest : rest = []
    · rw [hrest, slashed_singleton, List.singleton_append, slashed_cons _ (List.cons_ne_nil _ _),
        slashed_singleton]
    · rw [List.cons_append, slashed_cons _ (List.append_ne_nil_of_left_ne_nil hrest _), ih hrest,
        slashed_cons _ hrest]
      simp only [List.append_assoc]

theorem slashed_eq_nil {words : List Bytes} (h : ∀ word ∈ words, word ≠ []) :
    slashed words = [] ↔ words = [] := by
  constructor
  · intro hs
    cases words with
    | nil => rfl
    | cons word rest =>
      have hword : word ≠ [] := h word List.mem_cons_self
      by_cases hrest : rest = []
      · rw [hrest, slashed_singleton] at hs
        exact absurd hs hword
      · rw [slashed_cons _ hrest, List.append_assoc] at hs
        exact absurd (List.append_eq_nil_iff.mp hs).1 hword
  · rintro rfl
    rfl

theorem slashed_injective {words words' : List Bytes} (hp : PlainWords words)
    (hp' : PlainWords words') (hne : words ≠ []) (hne' : words' ≠ [])
    (h : slashed words = slashed words') : words = words' := by
  have hsplit {words : List Bytes} (hp : PlainWords words) (hne : words ≠ []) :
      (slashed words).splitOn 47 = words :=
    List.splitOn_intercalate 47 (fun word hmem hslash => (hp word hmem 47 hslash).1 rfl) hne
  rw [← hsplit hp hne, h, hsplit hp' hne']

theorem zero_not_mem_slashed {words : List Bytes} (hp : PlainWords words) : 0 ∉ slashed words := by
  induction words with
  | nil => exact List.not_mem_nil
  | cons word rest ih =>
    obtain ⟨hword, hrest⟩ := List.forall_mem_cons.mp hp
    by_cases hnil : rest = []
    · rw [hnil, slashed_singleton]
      exact fun h => (hword 0 h).2 rfl
    · rw [slashed_cons _ hnil]
      intro h
      rcases List.mem_append.mp h with h | h
      · rcases List.mem_append.mp h with h | h
        · exact (hword 0 h).2 rfl
        · exact absurd h (by decide)
      · exact ih hrest h

theorem plain_decimal (n : ℕ) : ∀ b ∈ decimal n, b ≠ 47 ∧ b ≠ 0 := by
  intro b hb
  obtain ⟨hlow, -⟩ := isDigit_of_mem_decimal hb
  constructor <;> rintro rfl <;> exact absurd hlow (by decide)

theorem decimal_ne_nil (n : ℕ) : decimal n ≠ [] := by
  intro h
  have hzero : n = ofDecimal [] := by rw [← h, ofDecimal_decimal]
  subst hzero
  exact absurd h (by decide)

theorem decimal_word_length (x : UInt32) : (decimal x.toNat).length ≤ 10 :=
  decimal_length (by decide) (lt_of_lt_of_le x.toNat_lt (by decide))

/-! ## Numbers of a path -/

/-- The numbers a compact path is shown by. -/
def numberWords (numbers : List UInt32) : List Bytes := numbers.map fun x => decimal x.toNat

theorem plain_numberWords (numbers : List UInt32) : PlainWords (numberWords numbers) := by
  intro word hmem
  obtain ⟨x, -, rfl⟩ := List.mem_map.mp hmem
  exact plain_decimal _

theorem numberWords_injective {xs ys : List UInt32} (h : numberWords xs = numberWords ys) :
    xs = ys :=
  map_injOn (fun _ _ _ _ h => UInt32.toNat_inj.mp (decimal_injective h)) h

/-- How `path_display_full` shows a node: hardened. -/
def nodeWord (node : UInt32) : Bytes := decimal (node &&& ~~~hardenedBit).toNat ++ ascii "'"

theorem plain_nodeWord (node : UInt32) : ∀ b ∈ nodeWord node, b ≠ 47 ∧ b ≠ 0 := by
  intro b hb
  rcases List.mem_append.mp hb with hb | hb
  · exact plain_decimal _ b hb
  · obtain rfl : b = 39 := List.mem_singleton.mp hb
    decide

theorem nodeWord_ne_nil (node : UInt32) : nodeWord node ≠ [] :=
  List.append_ne_nil_of_left_ne_nil (decimal_ne_nil _) _

theorem nodeWord_length (node : UInt32) : (nodeWord node).length ≤ 11 := by
  have := decimal_word_length (node &&& ~~~hardenedBit)
  simp only [nodeWord, List.length_append]
  exact Nat.add_le_add_right this 1

theorem nodeWord_injective {x y : UInt32} (h : nodeWord x = nodeWord y) :
    x &&& ~~~hardenedBit = y &&& ~~~hardenedBit :=
  UInt32.toNat_inj.mp (decimal_injective (List.append_cancel_right h))

/-- Nodes that are shown alike are hardened alike. -/
theorem nodeWords_harden {nodes nodes' : List UInt32}
    (h : nodes.map nodeWord = nodes'.map nodeWord) :
    nodes.map (· ||| hardenedBit) = nodes'.map (· ||| hardenedBit) := by
  induction nodes generalizing nodes' with
  | nil => rw [List.map_eq_nil_iff.mp h.symm]
  | cons node rest ih =>
    cases nodes' with
    | nil => cases h
    | cons node' rest' =>
      obtain ⟨hword, hrest⟩ := List.cons.inj h
      have hnode : node ||| hardenedBit = node' ||| hardenedBit :=
        (or_hardened (nodeWord_injective hword)).trans (or_hardened rfl).symm
      rw [List.map_cons, List.map_cons, ih hrest, hnode]

/-! ## The routines -/

section Routines
variable {s : World} {E : Exception → World → Prop}

theorem wp_pathDisplayLegacy {size : ℕ} {identity account : UInt32} {Q : Bytes → World → Prop}
    (hsize : 22 ≤ size) (h : Q (slashed (numberWords [identity, account]) ++ [0]) s) :
    wp (pathDisplayLegacy size identity account) Q E s := by
  have hi := decimal_word_length identity
  have ha := decimal_word_length account
  unfold pathDisplayLegacy
  rw [wp_bind]
  refine wp_numberToText_fits (by omega) ?_
  simp only [wp_bind, wp_throwIf]
  refine ⟨fun hno => by omega, fun _ => wp_binToDec_fits (by omega) ?_⟩
  rw [wp_pure]
  simpa [slashed, numberWords, List.intercalate] using h

theorem wp_pathDisplayNew {size : ℕ} {identityProvider identity account : UInt32}
    {Q : Bytes → World → Prop} (hsize : 33 ≤ size)
    (h : Q (slashed (numberWords [identityProvider, identity, account]) ++ [0]) s) :
    wp (pathDisplayNew size identityProvider identity account) Q E s := by
  have hp := decimal_word_length identityProvider
  have hi := decimal_word_length identity
  have ha := decimal_word_length account
  unfold pathDisplayNew
  rw [wp_bind]
  refine wp_numberToText_fits (by omega) ?_
  simp only [wp_bind, wp_throwIf]
  refine ⟨fun hno => by omega, fun _ => wp_numberToText_fits (by omega) ?_⟩
  rw [wp_bind, wp_throwIf]
  refine ⟨fun hno => by omega, fun _ => ?_⟩
  rw [wp_bind]
  refine wp_binToDec_fits (by omega) ?_
  rw [wp_pure]
  simpa [slashed, numberWords, List.intercalate] using h

/-- The loop has shown `done`. -/
theorem wp_pathDisplayFullFrom {size : ℕ} {nodes : List UInt32} {done : List Bytes}
    {Q : Bytes → World → Prop} (hdone : ∀ word ∈ done, word ≠ [])
    (hroom : (slashed done).length + 12 * nodes.length < size)
    (h : Q (slashed (done ++ nodes.map nodeWord)) s) :
    wp (pathDisplayFullFrom size nodes (slashed done)) Q E s := by
  induction nodes generalizing done with
  | nil => simpa [pathDisplayFullFrom] using h
  | cons node rest ih =>
    have hword := decimal_word_length (node &&& ~~~hardenedBit)
    rw [List.length_cons] at hroom
    have hnil : slashed done = [] ↔ done = [] := slashed_eq_nil hdone
    -- The separator stands in front of every word but the first.
    obtain ⟨front, hfront, hlen, hnext⟩ : ∃ front, (if slashed done = [] then slashed done
        else slashed done ++ ascii "/") = front ∧ front.length ≤ (slashed done).length + 1 ∧
        front ++ nodeWord node = slashed (done ++ [nodeWord node]) := by
      refine ⟨_, rfl, ?_⟩
      by_cases hd : done = []
      · subst hd
        exact ⟨Nat.le_succ _, (slashed_singleton _).symm⟩
      · rw [if_neg (mt hnil.mp hd), slashed_concat hd]
        exact ⟨by rw [List.length_append]; rfl, rfl⟩
    unfold pathDisplayFullFrom
    refine wp_if (fun hno => absurd hno.2 (by omega)) fun _ => ?_
    simp only [hfront]
    rw [wp_bind]
    refine wp_numberToText_fits (by omega) ?_
    refine wp_if (fun hno => ?_) fun _ => ?_
    · rw [List.length_append] at hno
      omega
    rw [List.append_assoc]
    show wp (pathDisplayFullFrom size rest (front ++ nodeWord node)) Q E s
    have hle := nodeWord_length node
    rw [hnext]
    refine ih (fun word hmem => ?_) ?_ ?_
    · rcases List.mem_append.mp hmem with hmem | hmem
      · exact hdone word hmem
      · exact List.mem_singleton.mp hmem ▸ nodeWord_ne_nil node
    · rw [← hnext, List.length_append]
      omega
    · simpa using h

theorem slashed_length_le {words : List Bytes} {k : ℕ} (h : ∀ word ∈ words, word.length ≤ k) :
    (slashed words).length ≤ (k + 1) * words.length := by
  induction words with
  | nil => exact Nat.zero_le _
  | cons word rest ih =>
    obtain ⟨hword, hrest⟩ := List.forall_mem_cons.mp h
    have := ih hrest
    by_cases hnil : rest = []
    · rw [hnil, slashed_singleton]
      simp
      omega
    · rw [slashed_cons _ hnil]
      simp only [List.length_append, List.length_cons, Nat.mul_succ]
      have : (ascii "/").length = 1 := rfl
      omega

theorem plain_nodeWords (nodes : List UInt32) : PlainWords (nodes.map nodeWord) := by
  intro word hmem
  obtain ⟨node, -, rfl⟩ := List.mem_map.mp hmem
  exact plain_nodeWord node

theorem wp_pathDisplayFull {n : ℕ} {dst : Buf n} {dp : DerivationPath} {Q : Buf n → World → Prop}
    (hn : 96 < n) (h : ∀ b : Buf n, b.text = slashed (dp.nodes.map nodeWord) → Q b s) :
    wp (pathDisplayFull dst dp) Q E s := by
  have hroom : 12 * dp.nodes.length < n := lt_of_le_of_lt (Nat.mul_le_mul_left 12 dp.len_le) hn
  unfold pathDisplayFull
  refine wp_if (fun hno => by omega) fun _ => ?_
  rw [wp_bind]
  have hempty : (slashed []).length + 12 * dp.nodes.length < n := by
    rw [show slashed [] = [] from rfl, List.length_nil, Nat.zero_add]
    exact hroom
  refine wp_pathDisplayFullFrom (fun _ h => absurd h List.not_mem_nil) hempty ?_
  rw [wp_memmove]
  have hlen : (slashed (dp.nodes.map nodeWord)).length ≤ 12 * dp.nodes.length := by
    rw [← List.length_map (f := nodeWord)]
    refine slashed_length_le fun word hmem => ?_
    obtain ⟨node, -, rfl⟩ := List.mem_map.mp hmem
    exact nodeWord_length node
  refine ⟨fun hw => h _ ?_, fun hno => absurd (by simpa using hlen.trans hroom.le) hno⟩
  exact text_write_zero _ (zero_not_mem_slashed (plain_nodeWords _))

end Routines

end Concordium
