/-
  A path shown in a buffer of any size.

  `path_display_full` cuts a text that is too long, and cuts it well unless the
  last byte of the buffer falls on a digit: there the digits overwrite the
  terminator or do not fit at all.
-/
import Concordium.PathTexts

namespace Concordium

open Buffer Wp

/-- The whole text of a path. -/
def fullPath (dp : DerivationPath) : Bytes := slashed (dp.nodes.map nodeWord)

/-- The routine returns, and leaves a terminated string that is the path's text
    as far as it goes. -/
def TruncatesSafely {n : ℕ} (dp : DerivationPath) (dst : Buf n) (s : World) : Prop :=
  ∃ b : Buf n, pathDisplayFull dst dp s = .ok b s ∧ 0 ∈ b.bytes ∧ b.text <+: fullPath dp

/-- The `k`-th byte of a text is a digit. -/
def DigitAt (text : Bytes) (k : ℕ) : Prop := ∃ b, text[k]? = some b ∧ IsDigit b

theorem ascii_slash : ascii "/" = [47] := by decide

theorem ascii_mark : ascii "'" = [39] := by decide

theorem slashed_prefix (words more : List Bytes) : slashed words <+: slashed (words ++ more) := by
  induction more using List.reverseRecOn with
  | nil => exact (List.append_nil words).symm ▸ List.prefix_rfl
  | append_singleton more word ih =>
    rw [← List.append_assoc]
    by_cases hnil : words ++ more = []
    · obtain ⟨rfl, rfl⟩ := List.append_eq_nil_iff.mp hnil
      exact List.nil_prefix
    · rw [slashed_concat hnil, List.append_assoc]
      exact ih.trans (List.prefix_append _ _)

section Places
variable {front digits behind : Bytes} {n : ℕ}

theorem digitAt_within (hdigits : ∀ b ∈ digits, IsDigit b) (hlow : front.length < n)
    (hhigh : n ≤ front.length + digits.length) :
    DigitAt (front ++ (digits ++ behind)) (n - 1) := by
  have hlt : n - 1 - front.length < digits.length := by omega
  refine ⟨digits[n - 1 - front.length], ?_, hdigits _ (List.getElem_mem _)⟩
  rw [List.getElem?_append_right (by omega), List.getElem?_append_left hlt,
    List.getElem?_eq_getElem hlt]

theorem not_digitAt_past {text : Bytes} (h : text.length < n) : ¬ DigitAt text (n - 1) := by
  rintro ⟨b, hb, -⟩
  rw [List.getElem?_eq_none (by omega)] at hb
  cases hb

theorem not_digitAt_mark {mark : UInt8} (hmark : ¬ IsDigit mark) (hn : n = front.length + 1) :
    ¬ DigitAt (front ++ (mark :: behind)) (n - 1) := by
  rintro ⟨b, hb, hdigit⟩
  rw [hn, Nat.add_sub_cancel, List.getElem?_append_right le_rfl, Nat.sub_self] at hb
  cases hb
  exact hmark hdigit

end Places

/-- How the loop leaves a text in a buffer of `n` bytes. -/
structure Cut (n : ℕ) (full text : Bytes) : Prop where
  shown : text <+: full
  fits : text.length ≤ n
  ends : text.length < n ↔ ¬ DigitAt full (n - 1)

section Loop
variable {n : ℕ} {nodes : List UInt32} {done : List Bytes} {full : Bytes} {s : World}

theorem slash_not_digit : ¬ IsDigit 47 := fun h => absurd h.1 (by decide)

theorem mark_not_digit : ¬ IsDigit 39 := fun h => absurd h.1 (by decide)

/-- The loop has shown `done` of the text `full`. -/
theorem wp_pathDisplayFullFrom_cut (hdone : ∀ word ∈ done, word ≠ [])
    (hfull : full = slashed (done ++ nodes.map nodeWord)) (hroom : (slashed done).length < n) :
    wp (pathDisplayFullFrom n nodes (slashed done)) (fun text t => Cut n full text ∧ t = s)
      (fun _ _ => DigitAt full (n - 1)) s := by
  induction nodes generalizing done with
  | nil =>
    rw [List.map_nil, List.append_nil] at hfull
    subst hfull
    exact ⟨⟨List.prefix_rfl, hroom.le, fun _ => not_digitAt_past hroom, fun _ => hroom⟩, rfl⟩
  | cons node rest ih =>
    have hnil : slashed done = [] ↔ done = [] := slashed_eq_nil hdone
    have hdigits : ∀ b ∈ decimal (node &&& ~~~hardenedBit).toNat, IsDigit b :=
      fun b hb => isDigit_of_mem_decimal hb
    have hpos : 0 < (decimal (node &&& ~~~hardenedBit).toNat).length :=
      List.length_pos_iff.mpr (decimal_ne_nil _)
    obtain ⟨behind, hbehind⟩ : slashed (done ++ [nodeWord node]) <+: full := by
      have hsplit : done ++ (node :: rest).map nodeWord =
          done ++ [nodeWord node] ++ rest.map nodeWord := by simp
      rw [hfull, hsplit]
      exact slashed_prefix _ _
    unfold pathDisplayFullFrom
    refine wp_if (fun hcut => ?_) fun hgoes => ?_
    · -- Only the separator is missing.
      have hne : done ≠ [] := fun h => hcut.1 (hnil.mpr h)
      have hn : n = (slashed done).length + 1 := by omega
      have hslash : full = slashed done ++ 47 :: (nodeWord node ++ behind) := by
        rw [← hbehind, slashed_concat hne]
        simp [ascii_slash]
      refine ⟨⟨⟨_, hslash.symm⟩, hroom.le, fun _ => ?_, fun _ => hroom⟩, rfl⟩
      rw [hslash]
      exact not_digitAt_mark slash_not_digit hn
    · obtain ⟨front, hfront, hlt, hnext⟩ : ∃ front, (if slashed done = [] then slashed done
          else slashed done ++ ascii "/") = front ∧ front.length < n ∧
          front ++ nodeWord node = slashed (done ++ [nodeWord node]) := by
        refine ⟨_, rfl, ?_⟩
        by_cases hd : done = []
        · subst hd
          exact ⟨hroom, (slashed_singleton _).symm⟩
        · have hne : slashed done ≠ [] := mt hnil.mp hd
          rw [if_neg hne, slashed_concat hd]
          refine ⟨?_, rfl⟩
          have : ¬ n ≤ (slashed done).length + 1 := fun h => hgoes ⟨hne, h⟩
          rw [List.length_append, ascii_slash, List.length_singleton]
          omega
      have hword : full = front ++ (decimal (node &&& ~~~hardenedBit).toNat ++ 39 :: behind) := by
        rw [← hbehind, ← hnext, nodeWord]
        simp [ascii_mark]
      simp only [hfront]
      rw [wp_bind]
      refine wp_numberToText (fun hfits => ?_) fun hno => ?_
      swap
      · rw [hword]
        exact digitAt_within hdigits hlt (by omega)
      refine wp_if (fun hcut => ?_) fun hgoes => ?_
      · rw [List.length_append] at hcut
        have hle : (front ++ decimal (node &&& ~~~hardenedBit).toNat).length ≤ n := by
          rw [List.length_append]
          omega
        refine ⟨⟨⟨39 :: behind, by rw [hword, List.append_assoc]⟩, hle, fun hends => ?_,
          fun hno => ?_⟩, rfl⟩
        · rw [List.length_append] at hends
          rw [hword, ← List.append_assoc]
          exact not_digitAt_mark mark_not_digit (by rw [List.length_append]; omega)
        · by_contra hlong
          refine hno ?_
          rw [hword]
          rw [List.length_append] at hle hlong
          exact digitAt_within hdigits hlt (by omega)
      · rw [List.append_assoc]
        show wp (pathDisplayFullFrom n rest (front ++ nodeWord node)) _ _ s
        rw [hnext]
        refine ih (fun word hmem => ?_) ?_ ?_
        · rcases List.mem_append.mp hmem with hmem | hmem
          · exact hdone word hmem
          · exact List.mem_singleton.mp hmem ▸ nodeWord_ne_nil node
        · rw [hfull, List.map_cons, List.append_cons]
        · rw [← hnext, nodeWord, ← List.append_assoc, List.length_append, ascii_mark]
          exact Nat.lt_of_not_le hgoes

end Loop

section Buffers
variable {n : ℕ} {text : Bytes}

/-- A text in a cleared buffer is terminated exactly when it is shorter. -/
theorem zero_mem_write (h0 : 0 ∉ text) (hw : 0 + text.length ≤ n) :
    0 ∈ ((Buf.zero n).write 0 text hw).bytes ↔ text.length < n := by
  rw [Buf.write_bytes]
  simp only [Buf.zero, List.take_zero, List.nil_append, List.mem_append, h0, false_or,
    List.drop_replicate, Nat.zero_add, List.mem_replicate, and_true]
  omega

end Buffers

section Paths
variable {n : ℕ} {dp : DerivationPath} {dst : Buf n} {s : World}

theorem zero_not_mem_fullPath : 0 ∉ fullPath dp := zero_not_mem_slashed (plain_nodeWords dp.nodes)

theorem wp_pathDisplayFull_cut (hn : 0 < n) :
    wp (pathDisplayFull dst dp) (fun b t => t = s ∧ ∃ text hw,
      b = (Buf.zero n).write 0 text hw ∧ Cut n (fullPath dp) text)
      (fun _ _ => DigitAt (fullPath dp) (n - 1)) s := by
  have hdone : ∀ word ∈ ([] : List Bytes), word ≠ [] := fun _ h => absurd h List.not_mem_nil
  unfold pathDisplayFull
  rw [if_neg hn.ne', wp_bind]
  refine wp_mono (fun text t ht => ?_) (fun _ _ h => h)
    (wp_pathDisplayFullFrom_cut hdone rfl hn)
  obtain ⟨hc, rfl⟩ := ht
  rw [wp_memmove]
  exact ⟨fun hw => ⟨rfl, text, hw, rfl, hc⟩, fun hno => absurd hc.fits (by omega)⟩

theorem TruncatesSafely.not_digitAt (hn : 0 < n) (h : TruncatesSafely dp dst s) :
    ¬ DigitAt (fullPath dp) (n - 1) := by
  obtain ⟨b, hb, hzero, -⟩ := h
  obtain ⟨-, text, hw, rfl, hc⟩ := wp_ok (wp_pathDisplayFull_cut hn) hb
  have h0 : 0 ∉ text := fun h => zero_not_mem_fullPath (hc.shown.subset h)
  exact hc.ends.mp ((zero_mem_write h0 hw).mp hzero)

end Paths

/-- The path is cut well exactly when the last byte of the buffer does not fall
    on a digit of its text. -/
theorem path_display_full_iff {n : ℕ} (hn : 0 < n) (dp : DerivationPath) (dst : Buf n)
    (s : World) : TruncatesSafely dp dst s ↔ ¬ DigitAt (fullPath dp) (n - 1) := by
  constructor
  · exact fun h => h.not_digitAt hn
  · intro hno
    cases hx : pathDisplayFull dst dp s with
    | error e t => exact absurd (wp_error (wp_pathDisplayFull_cut hn) hx) hno
    | ok b t =>
      obtain ⟨rfl, text, hw, rfl, hc⟩ := wp_ok (wp_pathDisplayFull_cut hn) hx
      have h0 : 0 ∉ text := fun h => zero_not_mem_fullPath (hc.shown.subset h)
      refine ⟨_, hx, (zero_mem_write h0 hw).mpr (hc.ends.mpr hno), ?_⟩
      rw [text_write_zero hw h0]
      exact hc.shown

/-- A path with long and short nodes. -/
def samplePath : DerivationPath := .ofNodes [44, 919, 403, 404, 8, 9, 10, 11] .full

/-- Eight bytes hold two nodes and a terminator. -/
theorem path_display_full_eight : TruncatesSafely samplePath (Buf.zero 8) {} := by
  refine (path_display_full_iff (by decide) _ _ _).mpr ?_
  rintro ⟨b, hb, hdigit⟩
  have hmark : (fullPath samplePath)[8 - 1]? = some 39 := by decide
  rw [hmark] at hb
  cases hb
  exact mark_not_digit hdigit

/-- The first node fills two bytes, and one byte does not hold it. -/
theorem path_display_full_two :
    ¬ TruncatesSafely samplePath (Buf.zero 2) {} ∧
      ¬ TruncatesSafely samplePath (Buf.zero 1) {} := by
  have hdigits : (fullPath samplePath)[1]? = some 52 ∧ (fullPath samplePath)[0]? = some 52 := by
    decide
  have hdigit : IsDigit 52 := by unfold IsDigit; decide
  exact ⟨fun h => h.not_digitAt (by decide) ⟨52, hdigits.1, hdigit⟩,
    fun h => h.not_digitAt (by decide) ⟨52, hdigits.2, hdigit⟩⟩

end Concordium
