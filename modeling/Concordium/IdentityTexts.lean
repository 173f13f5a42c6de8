/-
  Whether the indices of an identity fit on screen.

  The reviews of INS 0x37 and of GET_PUBLIC_KEY put decimal indices into buffers
  of 22 and 21 bytes.  Long indices do not fit, and the request is refused.
-/
import Concordium.PublicKeys

namespace Concordium

open Buffer Wp

set_option synthInstance.maxSize 1000000
set_option synthInstance.maxHeartbeats 100000

/-- How many digits some indices take. -/
def indexDigits (xs : List UInt32) : ℕ := (xs.map fun x => (decimal x.toNat).length).sum

/-! ## Appending to a buffer -/

section Append
variable {n : ℕ} {buf : Buf n} {off : ℕ} {front : Bytes} {s : World}
  {E : Exception → World → Prop}

theorem text_of_take {k : ℕ} {t : Bytes} (h : buf.bytes.take k = t ++ [0]) (h0 : 0 ∉ t) :
    buf.text = t := by
  have hne : ∀ x ∈ t, (x != 0) = true := fun x hx => bne_iff_ne.mpr fun hx0 => h0 (hx0 ▸ hx)
  rw [Buf.text, ← List.take_append_drop k buf.bytes, h, List.append_assoc,
    List.takeWhile_append_of_pos hne]
  simp

theorem take_of_terminated {k : ℕ} {t : Bytes} (h : buf.bytes.take (k + 1) = t ++ [0])
    (ht : t.length = k) : buf.bytes.take k = t := by
  have hk : (buf.bytes.take (k + 1)).take k = buf.bytes.take k := by
    rw [List.take_take, Nat.min_eq_left (Nat.le_succ k)]
  rw [← hk, h, List.take_left' ht]

theorem wp_memmove_append {bs : Bytes} {Q : Buf n → World → Prop}
    (htake : buf.bytes.take off = front) (hfits : off + bs.length ≤ n)
    (h : ∀ buf' : Buf n, buf'.bytes.take (off + bs.length) = front ++ bs → Q buf' s) :
    wp (memmove buf off bs) Q E s := by
  rw [wp_memmove]
  refine ⟨fun hw => h _ ?_, fun hno => absurd hfits hno⟩
  rw [Buf.take_write buf hw rfl, htake]

theorem wp_appendDec {number : ℕ} {more : Bool} {Q : Buf n × ℕ → World → Prop}
    (htake : buf.bytes.take off = front) (hoff : off ≤ n)
    (h : off + (decimal number).length + 1 ≤ n → ∀ buf' : Buf n,
      buf'.bytes.take (off + (decimal number).length + 1) = front ++ decimal number ++ [0] →
      Q (buf', off + (decimal number).length + (if more then 0 else 1)) s)
    (hno : n < off + (decimal number).length + 1 → E (.statusWord errorBufferOverflow) s) :
    wp (appendDec buf off number more) Q E s := by
  unfold appendDec binToDec
  rw [wp_bind, wp_bind]
  refine wp_numberToText (fun hle => ?_) fun hlt => hno (by omega)
  simp only [wp_bind, wp_throwIf, wp_pure]
  refine ⟨fun hlt => hno (by omega), fun hroom => ?_⟩
  have hlen : (decimal number ++ [0]).length = (decimal number).length + 1 := by simp
  refine wp_memmove_append htake (by omega) fun buf' hbuf => ?_
  have hend : off + (decimal number ++ [0]).length - (if more then 1 else 0) =
      off + (decimal number).length + (if more then 0 else 1) := by
    rw [hlen]
    cases more
    · simp only [Bool.false_eq_true, if_false]
      omega
    · simp only [if_true]
      omega
  rw [hend]
  refine h (by omega) buf' ?_
  rw [Nat.add_assoc, ← hlen, hbuf, List.append_assoc]

end Append

/-! ## The export review -/

section Export
variable [Platform] {cmd : Command} {s : World}

/-- The `k`-th index of an export command. -/
def exportIndex (cmd : Command) (k : ℕ) : UInt32 :=
  UInt32.ofNat (beNat ((cmd.data.drop (4 * k)).take 4))

/-- The purposes that name an account. -/
def needsAccount (cmd : Command) : Bool :=
  cmd.p1 == p1AccountCreation || cmd.p1 == p1CreationOfZkProof

/-- The indices of an export command. -/
def exportIndices (cmd : Command) : List UInt32 :=
  if needsAccount cmd then [exportIndex cmd 0, exportIndex cmd 1, exportIndex cmd 2]
  else [exportIndex cmd 0, exportIndex cmd 1]

/-- A purpose, a network and indices with bit 31 clear. -/
structure ExportRequest (cmd : Command) : Prop where
  purpose : (keysToExport cmd.p1).isSome
  network : cmd.p2 = p2Mainnet ∨ cmd.p2 = p2Testnet
  data : 4 * (exportIndices cmd).length ≤ cmd.data.length
  admissible : ∀ x ∈ exportIndices cmd, x &&& hardenedBit = 0

/-- The complete indices of the review. -/
def exportText (cmd : Command) : Bytes :=
  ascii "IDP#" ++ decimal (exportIndex cmd 0).toNat ++ (ascii " ID#" ++
    decimal (exportIndex cmd 1).toNat) ++
    if needsAccount cmd then ascii " ACCOUNT#" ++ decimal (exportIndex cmd 2).toNat else []

/-- The digits leave room for the labels and the terminator. -/
def ExportFits (cmd : Command) : Prop :=
  indexDigits (exportIndices cmd) ≤ if needsAccount cmd then 4 else 13

/-- The review is drawn and shows the indices. -/
def ExportShown (cmd : Command) (s : World) : Prop :=
  ∃ t, handleExportPrivateKeyNewPath cmd s = .ok () t ∧
    row "Credentials ID" (exportText cmd) ∈ t.screen.rows

/-- The texts around the indices. -/
structure ExportTexts (ctx : ExportPrivateKeyContext) : Prop where
  title : ctx.displayCredidTitle.text = ascii "Credentials ID"
  operation : ctx.displayReviewOperation.text.length = 19
  sign : ctx.displaySign.text.length = 14
  reviewVerb : ctx.displayReviewVerb.text.length ≤ 23
  signVerb : ctx.displaySignVerb.text.length ≤ 24

omit [Platform] in
theorem wp_setExportTexts {ctx : ExportPrivateKeyContext} {detailTitle detail verb keyTypes : Bytes}
    {Q : ExportPrivateKeyContext → World → Prop} {E : Exception → World → Prop}
    (htitle : detailTitle.length < 16) (hdetail : detail.length < 24) (hverb : verb.length < 24)
    (hkeys : keyTypes.length < 40) (hplain : 0 ∉ verb)
    (h : ∀ ctx', ExportTexts ctx' → Q ctx' s) :
    wp (setExportTexts ctx detailTitle detail verb keyTypes) Q E s := by
  have fits {n : ℕ} {buf : Buf n} {bs : Bytes} {f : Buf n → App ExportPrivateKeyContext}
      (hlen : bs.length < n) (hp : ∀ buf' : Buf n, (0 ∉ bs → buf'.text = bs) → wp (f buf') Q E s) :
      wp (memmove buf 0 (bs ++ [0]) >>= f) Q E s := by
    rw [wp_bind, wp_memmove]
    have hroom : 0 + (bs ++ [0]).length ≤ n := by
      rw [List.length_append, List.length_singleton]
      omega
    exact ⟨fun hw => hp _ fun h0 => Buf.text_write hw h0, fun hno => absurd hroom hno⟩
  have hverb' : (verb ++ ascii "?").length < 26 := by
    rw [List.length_append]
    have : (ascii "?").length = 1 := rfl
    omega
  unfold setExportTexts
  refine fits (by decide) fun title ht => fits (by decide) fun operation ho => ?_
  refine fits (by decide) fun sign hs => fits htitle fun _ _ => fits hdetail fun _ _ => ?_
  refine fits hverb fun reviewVerb hr => fits hverb' fun signVerb hv => fits hkeys fun _ _ => ?_
  have hsignVerb : signVerb.text = verb ++ ascii "?" := hv fun hmem =>
    (List.mem_append.mp hmem).elim hplain (by decide)
  refine h _ ⟨ht (by decide), ?_, ?_, ?_, ?_⟩
  · exact congrArg List.length (ho (by decide))
  · exact congrArg List.length (hs (by decide))
  · rw [show reviewVerb.text = verb from hr hplain]
    omega
  · have hone : (ascii "?").length = 1 := rfl
    rw [show signVerb.text = verb ++ ascii "?" from hsignVerb, List.length_append]
    omega

/-- The review shows the indices that the buffer holds. -/
theorem wp_uiExportPrivateKeysNewPath {ctx : ExportPrivateKeyContext} {Q : Unit → World → Prop}
    {E : Exception → World → Prop} (hctx : s.global.view ExportPrivateKeyContext = ctx)
    (htexts : ExportTexts ctx)
    (h : ∀ t : World, row "Credentials ID" ctx.displayCredid.text ∈ t.screen.rows → Q () t) :
    wp uiExportPrivateKeysNewPath Q E s := by
  have hpair : row "Credentials ID" ctx.displayCredid.text =
      ⟨ctx.displayCredidTitle.text, ctx.displayCredid.text⟩ := by
    rw [htexts.title]
    rfl
  unfold uiExportPrivateKeysNewPath uiExportReview
  cases (Platform.backend : Backend) with
  | bagl =>
    simp only [wp_bind, wp_getCtx, hctx, wp_showScreen]
    refine h _ ?_
    rw [hpair]
    simp [World.screenOf, exportPairs]
  | nbgl =>
    have hop := htexts.operation
    have hsign := htexts.sign
    have hverb := htexts.reviewVerb
    have hsverb := htexts.signVerb
    have hone : (ascii " ").length = 1 := rfl
    have hnewline : (ascii "\n").length = 1 := rfl
    unfold composeExportPrivateKeyTitles nbglReview
    simp only [wp_bind, wp_getCtx, hctx, wp_throwIf, wp_memmove, wp_setCtx,
      InstructionContext.view_inject, wp_showScreen, List.length_append, List.length_singleton]
    refine ⟨fun hno => by omega, fun _ => ⟨fun _ => ⟨fun hno => by omega, fun _ =>
      ⟨fun _ => h _ ?_, fun hno => by omega⟩⟩, fun hno => by omega⟩⟩
    rw [hpair]
    simp [World.screenOf, exportPairs]

omit [Platform] in
theorem newPathPurposeText_fits (p1 : UInt8) : (newPathPurposeText p1).1.length < 24 ∧
    (newPathPurposeText p1).2.length < 40 ∧ 0 ∉ (newPathPurposeText p1).1 := by
  unfold newPathPurposeText
  split_ifs <;> decide

omit [Platform] in
theorem ExportRequest.purposes (h : ExportRequest cmd) :
    ¬ (cmd.p1 ≠ p1IdentityCredentialCreation ∧ cmd.p1 ≠ p1AccountCreation ∧
      cmd.p1 ≠ p1IdRecovery ∧ cmd.p1 ≠ p1AccountCredentialDiscovery ∧
      cmd.p1 ≠ p1CreationOfZkProof) := by
  rintro ⟨h0, h1, h2, h3, h4⟩
  have hpurpose := h.purpose
  unfold keysToExport at hpurpose
  rw [if_neg h0, if_neg h1, if_neg h2, if_neg h3, if_neg h4] at hpurpose
  cases hpurpose

omit [Platform] in
/-- The account stands behind the identity, where the purpose names one. -/
theorem wp_accountSuffix {b : Buf 22} {off : ℕ} {front : Bytes} {account : UInt32} {needs : Bool}
    {Q : Buf 22 → World → Prop} {E : Exception → World → Prop}
    (hb : b.bytes.take (off + 1) = front ++ [0]) (hoff : front.length = off) (hroom : off + 1 ≤ 22)
    (h0 : 0 ∉ front)
    (hno : needs = true → 22 < off + 9 + (decimal account.toNat).length + 1 →
      E (.statusWord errorBufferOverflow) s)
    (h : ∀ credid : Buf 22,
      credid.text = front ++ (if needs then ascii " ACCOUNT#" ++ decimal account.toNat else []) →
      (needs = true → off + 9 + (decimal account.toNat).length + 1 ≤ 22) → Q credid s) :
    wp (if needs then do
        throwIf (22 < off + (if needs then 0 else 1) + 9) errorBufferOverflow
        let credid ← memmove b (off + (if needs then 0 else 1)) (ascii " ACCOUNT#")
        return (← appendDec credid (off + (if needs then 0 else 1) + 9) account.toNat false).1
      else return b) Q E s := by
  cases needs with
  | false =>
    refine h b ?_ fun hneeds => absurd hneeds Bool.false_ne_true
    rw [if_neg Bool.false_ne_true, List.append_nil]
    exact text_of_take hb h0
  | true =>
    have hlabel : (ascii " ACCOUNT#").length = 9 := by decide
    simp only [↓reduceIte, Nat.add_zero]
    rw [wp_bind, wp_throwIf]
    refine ⟨fun hlong => hno rfl (by simp only [if_true] at hlong; omega), fun _ => ?_⟩
    rw [wp_bind]
    refine wp_memmove_append (take_of_terminated hb hoff) (by omega) fun b' hb' => ?_
    rw [hlabel] at hb'
    rw [wp_bind]
    refine wp_appendDec hb' (by omega) (fun hfits b'' hb'' => ?_) fun hlong => hno rfl hlong
    rw [wp_pure]
    refine h b'' ?_ fun _ => hfits
    rw [if_pos rfl, ← List.append_assoc]
    refine text_of_take hb'' ?_
    simp only [List.mem_append, not_or]
    exact ⟨⟨h0, by decide⟩, zero_not_mem_decimal _⟩

omit [Platform] in
theorem exportFits_iff : ExportFits cmd ↔ (decimal (exportIndex cmd 0).toNat).length +
    (decimal (exportIndex cmd 1).toNat).length +
    (if needsAccount cmd then (decimal (exportIndex cmd 2).toNat).length else 0) ≤
      if needsAccount cmd then 4 else 13 := by
  unfold ExportFits exportIndices indexDigits
  split_ifs <;> simp [Nat.add_assoc]

omit [Platform] in
theorem mem_exportIndices : exportIndex cmd 0 ∈ exportIndices cmd ∧
    exportIndex cmd 1 ∈ exportIndices cmd := by
  unfold exportIndices
  split_ifs <;> simp

omit [Platform] in
theorem ExportRequest.length_le (h : ExportRequest cmd) : 8 ≤ cmd.data.length := by
  refine le_trans ?_ h.data
  unfold exportIndices
  split_ifs <;> simp

omit [Platform] in
theorem wp_readIndex {α : Type} (k : ℕ) {c : Prop} [Decidable c] {f : ℕ → App α}
    {Q : α → World → Prop} {E : Exception → World → Prop} (h : ExportRequest cmd)
    (hlength : 4 * k + 4 ≤ cmd.data.length) (hc : ¬ c)
    (hmem : exportIndex cmd k ∈ exportIndices cmd)
    (hf : ∀ word, UInt32.ofNat word = exportIndex cmd k → wp (f word) Q E s) :
    wp (do
      throwIf c errorInvalidPath
      let word ← u4be cmd.data (4 * k)
      throwIf (UInt32.ofNat word &&& hardenedBit ≠ 0) errorInvalidPath
      f word) Q E s := by
  rw [wp_bind, wp_throwIf]
  refine ⟨fun hno => absurd hno hc, fun _ => ?_⟩
  rw [wp_bind, wp_u4be]
  refine ⟨fun _ => ?_, fun hno => absurd hlength hno⟩
  rw [wp_bind, wp_throwIf]
  exact ⟨fun hno => absurd (h.admissible _ hmem) hno, fun _ => hf _ rfl⟩

omit [Platform] in
theorem wp_readAccount (h : ExportRequest cmd) :
    wp (if needsAccount cmd then do
        throwIf (cmd.data.length - 8 < 4) errorInvalidPath
        let account := UInt32.ofNat (← u4be cmd.data 8)
        throwIf (account &&& hardenedBit ≠ 0) errorInvalidPath
        return account
      else return 0xFFFFFFFF : App UInt32)
      (fun account t => t = s ∧ (needsAccount cmd = true → account = exportIndex cmd 2))
      (fun _ _ => False) s := by
  refine wp_if (fun hneeds => ?_) fun hno => ⟨rfl, fun hneeds => absurd hneeds hno⟩
  have hlength : 12 ≤ cmd.data.length := by
    have hdata := h.data
    rw [exportIndices, if_pos hneeds] at hdata
    exact hdata
  have hmem : exportIndex cmd 2 ∈ exportIndices cmd := by
    rw [exportIndices, if_pos hneeds]
    simp
  exact wp_readIndex 2 h hlength (by omega : ¬ cmd.data.length - 8 < 4) hmem
    fun _ haccount => ⟨rfl, fun _ => haccount⟩

/-- The handler draws the review when the indices fit, and refuses the request
    when they do not. -/
theorem wp_handleExportPrivateKeyNewPath (h : ExportRequest cmd) :
    wp (handleExportPrivateKeyNewPath cmd)
      (fun _ t => ExportFits cmd ∧ row "Credentials ID" (exportText cmd) ∈ t.screen.rows)
      (fun _ _ => ¬ ExportFits cmd) s := by
  have hplain (k : ℕ) : 0 ∉ decimal (exportIndex cmd k).toNat := zero_not_mem_decimal _
  have hlabels : (ascii "IDP#").length = 4 ∧ (ascii " ID#").length = 4 ∧
      (ascii " ACCOUNT#").length = 9 := by decide
  obtain ⟨hidp, hid, hacc⟩ := hlabels
  have hd0 : (decimal (exportIndex cmd 0).toNat).length ≤ 10 := decimal_word_length _
  have hd1 : (decimal (exportIndex cmd 1).toNat).length ≤ 10 := decimal_word_length _
  have hlength := h.length_le
  unfold handleExportPrivateKeyNewPath
  rw [wp_bind, wp_throwIf]
  refine ⟨fun hno => absurd hno h.purposes, fun _ => ?_⟩
  rw [wp_bind, wp_throwIf]
  refine ⟨fun hno => h.network.elim (fun h => absurd h hno.1) fun h => absurd h hno.2, fun _ => ?_⟩
  dsimp only
  refine wp_readIndex 0 h (by omega) (by omega : ¬ cmd.data.length < 4) mem_exportIndices.1
    fun _ hprovider => ?_
  refine wp_readIndex 1 h (by omega) (by omega : ¬ cmd.data.length - 4 < 4) mem_exportIndices.2
    fun _ hidentity => ?_
  rw [hprovider, hidentity, wp_bind]
  refine wp_mono (fun account t ht => ?_) (fun _ _ hno => hno.elim) (wp_readAccount h)
  obtain ⟨rfl, haccount⟩ := ht
  rw [wp_bind, wp_getCtx, wp_bind]
  have hempty (buf : Buf 22) : buf.bytes.take 0 = [] := List.take_zero
  refine wp_memmove_append (hempty _) (by decide) fun b₁ hb₁ => ?_
  rw [wp_bind]
  refine wp_appendDec hb₁ (by decide) (fun _ b₂ hb₂ => ?_) fun hno => by omega
  rw [List.nil_append] at hb₂
  have hfront₂ := take_of_terminated hb₂ (by rw [List.length_append, hidp])
  dsimp only
  rw [if_pos rfl, Nat.add_zero, wp_bind]
  refine wp_memmove_append hfront₂ (by rw [hid]; omega) fun b₃ hb₃ => ?_
  rw [wp_bind]
  refine wp_appendDec hb₃ (by omega) (fun hroom b₄ hb₄ => ?_) fun hno => ?_
  swap
  · rw [exportFits_iff]
    split_ifs <;> omega
  dsimp only
  rw [wp_bind]
  obtain ⟨hverb, hkeys, hplainVerb⟩ := newPathPurposeText_fits cmd.p1
  refine wp_setExportTexts (by decide) (by split_ifs <;> decide) hverb hkeys hplainVerb
    fun ctx htexts => ?_
  rw [wp_bind]
  have hfront : (ascii "IDP#" ++ decimal (exportIndex cmd 0).toNat ++ ascii " ID#" ++
      decimal (exportIndex cmd 1).toNat).length = 4 + (decimal (exportIndex cmd 0).toNat).length +
        4 + (decimal (exportIndex cmd 1).toNat).length := by
    simp only [List.length_append, hidp, hid]
  have hzero : 0 ∉ ascii "IDP#" ++ decimal (exportIndex cmd 0).toNat ++ ascii " ID#" ++
      decimal (exportIndex cmd 1).toNat := by
    simp only [List.mem_append, not_or]
    exact ⟨⟨⟨by decide, hplain 0⟩, by decide⟩, hplain 1⟩
  refine wp_accountSuffix hb₄ hfront hroom hzero (fun hneeds hlong => ?_)
    fun credid htext hfitted => ?_
  · have hneeds' : needsAccount cmd = true := hneeds
    rw [exportFits_iff, if_pos hneeds', if_pos hneeds']
    rw [haccount hneeds'] at hlong
    omega
  have hfit : ExportFits cmd := by
    rw [exportFits_iff]
    split_ifs with hneeds
    · have := hfitted hneeds
      rw [haccount hneeds] at this
      omega
    · omega
  have hcomplete : credid.text = exportText cmd := by
    have hsuffix : (if needsAccount cmd then ascii " ACCOUNT#" ++ decimal account.toNat else []) =
        if needsAccount cmd then ascii " ACCOUNT#" ++ decimal (exportIndex cmd 2).toNat
        else [] := by
      split_ifs with hneeds
      · rw [haccount hneeds]
      · rfl
    refine htext.trans ?_
    unfold exportText
    rw [← hsuffix]
    simp only [List.append_assoc]
    rfl
  rw [wp_bind, wp_setCtx]
  refine wp_uiExportPrivateKeysNewPath (InstructionContext.view_inject _)
    ⟨htexts.title, htexts.operation, htexts.sign, htexts.reviewVerb, htexts.signVerb⟩
    fun v hv => ⟨hfit, ?_⟩
  rw [← hcomplete]
  exact hv

end Export

/-! ## The review of a public key -/

section Routines
variable {size : ℕ} {a b c : UInt32} {s : World}

theorem wp_pathDisplayLegacy_size :
    wp (pathDisplayLegacy size a b)
      (fun text _ => text = slashed (numberWords [a, b]) ++ [0] ∧ indexDigits [a, b] + 2 ≤ size)
      (fun _ _ => size < indexDigits [a, b] + 2) s := by
  have hsum : indexDigits [a, b] = (decimal a.toNat).length + (decimal b.toNat).length := by
    simp [indexDigits]
  rw [hsum]
  unfold pathDisplayLegacy binToDec
  rw [wp_bind]
  refine wp_numberToText (fun ha => ?_) fun hno => by omega
  simp only [wp_bind, wp_throwIf]
  refine ⟨fun hno => by omega, fun _ => wp_numberToText (fun hb => ?_) fun hno => by omega⟩
  simp only [wp_bind, wp_throwIf, wp_pure]
  refine ⟨fun hno => by omega, fun hroom => ⟨?_, by omega⟩⟩
  simp [slashed, numberWords, List.intercalate]

theorem wp_pathDisplayNew_size :
    wp (pathDisplayNew size a b c)
      (fun text _ => text = slashed (numberWords [a, b, c]) ++ [0] ∧
        indexDigits [a, b, c] + 3 ≤ size)
      (fun _ _ => size < indexDigits [a, b, c] + 3) s := by
  have hsum : indexDigits [a, b, c] =
      (decimal a.toNat).length + (decimal b.toNat).length + (decimal c.toNat).length := by
    simp [indexDigits, Nat.add_assoc]
  rw [hsum]
  unfold pathDisplayNew binToDec
  rw [wp_bind]
  refine wp_numberToText (fun ha => ?_) fun hno => by omega
  simp only [wp_bind, wp_throwIf]
  refine ⟨fun hno => by omega, fun _ => wp_numberToText (fun hb => ?_) fun hno => by omega⟩
  rw [wp_bind, wp_throwIf]
  refine ⟨fun hno => by omega, fun _ => ?_⟩
  rw [wp_bind, wp_bind]
  refine wp_numberToText (fun hc => ?_) fun hno => by omega
  simp only [wp_bind, wp_throwIf, wp_pure]
  refine ⟨fun hno => by omega, fun hroom => ⟨?_, by omega⟩⟩
  simp [slashed, numberWords, List.intercalate]

end Routines

section Identity
variable {dp : DerivationPath} {s : World}

/-- The path of a governance key, on unhardened nodes. -/
def IsGovernance (dp : DerivationPath) : Prop := dp.len = 5 ∧ dp.node 0 = legacyPurpose

instance : Decidable (IsGovernance dp) := inferInstanceAs (Decidable (_ ∧ _))

/-- The indices that the review of a key shows. -/
def identityIndices (dp : DerivationPath) : List UInt32 :=
  if IsGovernance dp then []
  else if dp.variant = .new then [dp.node 2, dp.node 3, dp.node 4]
  else [dp.node 4, dp.node 6]

/-- The complete identity of a key. -/
def identityText (dp : DerivationPath) : Bytes :=
  if IsGovernance dp then
    if dp.node 3 = 0 then ascii "Gov. root"
    else if dp.node 3 = 1 then ascii "Gov. level 1" else ascii "Gov. level 2"
  else slashed (numberWords (identityIndices dp))

/-- The digits leave room for the slashes and the terminator. -/
def KeyFits (dp : DerivationPath) : Prop :=
  indexDigits (identityIndices dp) ≤ if dp.variant = .new then 18 else 19

/-- Of a governance path, one of the levels there are. -/
def Governed (dp : DerivationPath) : Prop :=
  IsGovernance dp → dp.node 2 = 1 ∧ (dp.node 3 = 0 ∨ dp.node 3 = 1 ∨ dp.node 3 = 2)

/-- The identity is written when its indices fit, and refused when they do not. -/
theorem wp_publicKeyDisplay_fits (h : Governed dp) :
    wp (publicKeyDisplay dp) (fun text _ => text = identityText dp ++ [0] ∧ KeyFits dp)
      (fun _ _ => ¬ KeyFits dp) s := by
  unfold publicKeyDisplay
  by_cases hgov : IsGovernance dp
  · obtain ⟨hnode, hlevel⟩ := h hgov
    have hfits : KeyFits dp := by
      rw [KeyFits, identityIndices, if_pos hgov]
      exact Nat.zero_le _
    rw [wp_bind, wp_throwIf]
    refine ⟨fun hno => absurd hnode hno.2.2, fun _ => ?_⟩
    rw [if_pos ⟨hgov.1, hgov.2, hnode⟩, identityText, if_pos hgov]
    unfold governanceLabel
    rcases hlevel with hlevel | hlevel | hlevel <;> rw [hlevel] <;> exact ⟨rfl, hfits⟩
  · rw [wp_bind, wp_throwIf]
    refine ⟨fun hno => absurd ⟨hno.1, hno.2.1⟩ hgov, fun _ => ?_⟩
    rw [if_neg fun hno => hgov ⟨hno.1, hno.2.1⟩, identityText, if_neg hgov]
    unfold KeyFits identityIndices
    rw [if_neg hgov]
    refine wp_if (fun hnew => ?_) fun hold => ?_
    · rw [if_pos hnew, if_pos hnew]
      refine wp_mono (fun text t ht => ⟨ht.1, by omega⟩) (fun _ _ hno => ?_) wp_pathDisplayNew_size
      exact not_le.mpr (by omega)
    · rw [if_neg hold, if_neg hold]
      refine wp_mono (fun text t ht => ⟨ht.1, by omega⟩) (fun _ _ hno => ?_)
        wp_pathDisplayLegacy_size
      exact not_le.mpr (by omega)

theorem identityText_length (h : KeyFits dp) : 0 + (identityText dp ++ [0]).length ≤ 21 := by
  rw [List.length_append, List.length_singleton]
  unfold KeyFits identityIndices at h
  unfold identityText identityIndices
  by_cases hgov : IsGovernance dp
  · rw [if_pos hgov]
    split_ifs <;> decide
  · rw [if_neg hgov] at h ⊢
    rw [if_neg hgov]
    have hslash : (ascii "/").length = 1 := rfl
    split_ifs at h ⊢ <;>
      simp [indexDigits, slashed, numberWords, List.intercalate, hslash] at h ⊢ <;> omega

end Identity

section Keys
variable [Platform] {cmd : Command} {s : World} {publicKey : Bytes}

/-- The path of a command, as the review reads it. -/
def reviewedNodes (cmd : Command) : DerivationPath := (keyPath (sentNodes cmd.data)).unharden

/-- A command for a review, with a path that the instruction accepts and the SDK
    derives a key at. -/
structure KeyTextRequest (cmd : Command) (s : World) (publicKey : Bytes) : Prop where
  idle : s.publicKeyReviewPending = false
  display : cmd.p1 ≠ p1SkipDisplay
  sent : WellSent cmd.data
  governed : Governed (reviewedNodes cmd)
  key : PublicKeyAt (keyPath (sentNodes cmd.data)) publicKey

/-- The review is drawn and shows the indices. -/
def KeyShown (cmd : Command) (s : World) : Prop :=
  ∃ t, handleGetPublicKey cmd s = .ok () t ∧
    row "Identity" (identityText (reviewedNodes cmd)) ∈ t.screen.rows

theorem KeyTextRequest.reviewable (h : KeyTextRequest cmd s publicKey)
    (hfits : KeyFits (reviewedNodes cmd)) :
    Reviewable (keyPath (sentNodes cmd.data)) (identityText (reviewedNodes cmd)) publicKey := by
  have hdisplayed (u : World) : publicKeyDisplay (reviewedNodes cmd) u =
      .ok (identityText (reviewedNodes cmd) ++ [0]) u := by
    have hrun := wp_and (wp_publicKeyDisplay_fits (s := u) h.governed)
      (Frames.frames (R := Eq) (x := publicKeyDisplay (reviewedNodes cmd)) u)
    cases hx : publicKeyDisplay (reviewedNodes cmd) u with
    | ok text t =>
      obtain ⟨⟨rfl, -⟩, rfl⟩ := wp_ok hrun hx
      rfl
    | error e t => exact absurd hfits (wp_error hrun hx).1
  refine ⟨hdisplayed, ?_, identityText_length hfits, h.key.returns⟩
  obtain ⟨t, ht, hplain⟩ := wp_ok (wp_publicKeyDisplay (s := s)) (hdisplayed s)
  rwa [List.append_cancel_right ht]

theorem KeyTextRequest.shown (h : KeyTextRequest cmd s publicKey)
    (hfits : KeyFits (reviewedNodes cmd)) : KeyShown cmd s := by
  have hrun := handleGetPublicKey_reviews ⟨h.idle, h.display, h.sent, h.reviewable hfits⟩
  cases hx : handleGetPublicKey cmd s with
  | error e t => exact (wp_error hrun hx).elim
  | ok _ t =>
    refine ⟨t, hx, ?_⟩
    rw [(wp_ok hrun hx).1.rows]
    unfold keyReviewRows
    cases (Platform.backend : Backend) <;> simp

theorem KeyTextRequest.fits (h : KeyTextRequest cmd s publicKey) (hshown : KeyShown cmd s) :
    KeyFits (reviewedNodes cmd) := by
  by_contra hlong
  have hno : ∀ text publicKey, ¬ Reviewable (keyPath (sentNodes cmd.data)) text publicKey := by
    intro text publicKey hr
    exact hlong (wp_ok (wp_publicKeyDisplay_fits (s := s) h.governed) (hr.displayed s)).2
  have hrun : wp (handleGetPublicKey cmd) (fun _ _ => False) (fun _ _ => True) s := by
    unfold handleGetPublicKey
    rw [wp_bind, wp_get, if_neg (by simp [h.idle]), wp_bind]
    refine wp_parseDerivationPath_sent (fun _ n _ _ => ?_) fun _ _ _ => trivial
    rw [wp_bind, wp_modify, wp_bind, wp_modifyCtx, if_neg h.display]
    exact wp_reviewPublicKey rfl rfl (fun text publicKey hr _ _ _ => hno text publicKey hr)
      fun _ _ _ => trivial
  obtain ⟨t, ht, -⟩ := hshown
  exact wp_ok hrun ht

end Keys

/-- The reviews show complete indices exactly when their digits fit the
    buffers. -/
theorem identity_texts_iff [Platform] :
    (∀ cmd s, ExportRequest cmd → (ExportShown cmd s ↔ ExportFits cmd)) ∧
      ∀ cmd s publicKey, KeyTextRequest cmd s publicKey →
        (KeyShown cmd s ↔ KeyFits (reviewedNodes cmd)) := by
  refine ⟨fun cmd s h => ⟨?_, fun hfits => ?_⟩, fun cmd s publicKey h => ⟨h.fits, h.shown⟩⟩
  · rintro ⟨t, ht, -⟩
    exact (wp_ok (wp_handleExportPrivateKeyNewPath h) ht).1
  · have hrun := wp_handleExportPrivateKeyNewPath (s := s) h
    cases hx : handleExportPrivateKeyNewPath cmd s with
    | error e t => exact absurd hfits (wp_error hrun hx)
    | ok _ t => exact ⟨t, hx, (wp_ok hrun hx).2⟩

/-! ## Long and short indices -/

/-- Asks for the keys to create an account of identity 1 at provider 0. -/
def accountExport (account : UInt32) : Command where
  ins := insExportPrivateKeyNew
  p1 := p1AccountCreation
  p2 := p2Mainnet
  data := [0, 1, account].flatMap fun index : UInt32 => toBe 4 index.toNat
  lc_le := by simp

/-- Asks for the key of an account at provider, identity and account `index`. -/
def indexKeyCommand (index : UInt32) : Command where
  ins := insGetPublicKey
  p1 := 0
  p2 := 0
  data := wirePath [newPurpose, newMainnetCoinType, index, index, index]
  lc_le := by
    rw [wirePath_length]
    simp

theorem exportRequest_accountExport {account : UInt32} (h : account &&& hardenedBit = 0)
    (hindices : exportIndices (accountExport account) = [0, 1, account]) :
    ExportRequest (accountExport account) := by
  refine ⟨rfl, .inl rfl, ?_, ?_⟩
  · rw [hindices]
    simp [accountExport]
  · rw [hindices]
    simp only [List.forall_mem_cons, List.not_mem_nil, false_imp_iff, implies_true, and_true]
    exact ⟨rfl, rfl, h⟩

theorem keyTextRequest_indexKeyCommand (index : UInt32) (backend : Backend)
    (hsigning : isExportableSigningPath (keyPath (sentNodes (indexKeyCommand index).data)) = false)
    (hgov : ¬ IsGovernance (reviewedNodes (indexKeyCommand index))) :
    letI : Platform := keyedDevice backend
    ∃ publicKey, KeyTextRequest (indexKeyCommand index) {} publicKey := by
  let : Platform := keyedDevice backend
  have hsent : sentNodes (indexKeyCommand index).data =
      [newPurpose, newMainnetCoinType, index, index, index] :=
    sentNodes_wirePath (Nat.le_of_ble_eq_true rfl)
  have hpermitted : Permitted (keyPath (sentNodes (indexKeyCommand index).data)).nodes := by
    rw [hsent, keyPath_nodes (Nat.le_of_ble_eq_true rfl)]
    exact ⟨(newPurpose, newMainnetCoinType), by decide, _, rfl⟩
  obtain ⟨publicKey, hkey⟩ := keysPermitted_keyedDevice.hasKey
    (keyPath (sentNodes (indexKeyCommand index).data)) (harden_harden _) hpermitted
  have hlength : (indexKeyCommand index).data.length = 21 := wirePath_length _
  have hdepth : ((indexKeyCommand index).data.getD 0 0).toNat = 5 := rfl
  have hdisplay : (indexKeyCommand index).p1 ≠ p1SkipDisplay := show (0 : UInt8) ≠ 1 by decide
  refine ⟨publicKey, rfl, hdisplay, ⟨?_, ?_, ?_, hsigning⟩, fun h => absurd h hgov, hkey⟩
  · rw [hlength]
    decide
  · rw [hdepth]
    decide
  · rw [hlength, hdepth]
    decide

/-- Account 42 of a short identity, and a key at short indices. -/
theorem identity_texts_short :
    letI : Platform := keyedDevice .nbgl
    ExportShown (accountExport 42) {} ∧ KeyShown (indexKeyCommand 123456) {} := by
  let : Platform := keyedDevice .nbgl
  obtain ⟨publicKey, hkey⟩ :=
    keyTextRequest_indexKeyCommand 123456 .nbgl (by decide) (by decide)
  refine ⟨(identity_texts_iff.1 _ {} (exportRequest_accountExport rfl (by decide))).mpr ?_,
    (identity_texts_iff.2 _ {} publicKey hkey).mpr ?_⟩
  · unfold ExportFits
    decide
  · unfold KeyFits
    decide

/-- Account 100 cannot be created, and a key at long indices cannot be shown. -/
theorem identity_texts_long :
    letI : Platform := keyedDevice .nbgl
    (ExportRequest (accountExport 100) ∧ ¬ ExportShown (accountExport 100) {}) ∧
      (∃ publicKey, KeyTextRequest (indexKeyCommand 1234567) {} publicKey) ∧
        ¬ KeyShown (indexKeyCommand 1234567) {} := by
  let : Platform := keyedDevice .nbgl
  have hexport : ExportRequest (accountExport 100) := exportRequest_accountExport rfl (by decide)
  obtain ⟨publicKey, hkey⟩ :=
    keyTextRequest_indexKeyCommand 1234567 .nbgl (by decide) (by decide)
  refine ⟨⟨hexport, ?_⟩, ⟨publicKey, hkey⟩, fun hshown => ?_⟩
  · rintro ⟨t, ht, -⟩
    have hfits := (wp_ok (wp_handleExportPrivateKeyNewPath hexport) ht).1
    unfold ExportFits at hfits
    exact absurd hfits (by decide)
  · have hfits := hkey.fits hshown
    unfold KeyFits at hfits
    exact absurd hfits (by decide)

end Concordium
