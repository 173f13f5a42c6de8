/-
  What the contract reviews determine.

  A contract call carries a name and parameters, each behind a length of two
  bytes.  The review shows the name, unless it is too long, and a digest of the
  name followed by the parameters.  The digest covers the bytes of both but not
  where one ends and the other starts.
-/
import Concordium.ContractCalls

namespace Concordium

open Buffer Union Wp Runs

/-! ## What is hashed -/

/-- The payload of a contract call: `size` bytes up to the name, then the name
    and the parameters, each behind its length. -/
structure ContractPayload (size : ℕ) (payload name params : Bytes) : Prop where
  split : ∃ base len len', base.length = size ∧ len.length = 2 ∧ beNat len = name.length ∧
    len'.length = 2 ∧ beNat len' = params.length ∧
    payload = base ++ (len ++ (name ++ (len' ++ params)))

/-- The name length a payload declares. -/
def declaredNameLength (size : ℕ) (payload : Bytes) : ℕ := beNat ((payload.drop size).take 2)

/-- The name in a payload. -/
def hashedName (size : ℕ) (payload : Bytes) : Bytes :=
  (payload.drop (size + 2)).take (declaredNameLength size payload)

/-- The parameters in a payload, behind their length. -/
def hashedParams (size : ℕ) (payload : Bytes) : Bytes :=
  payload.drop (size + 2 + declaredNameLength size payload + 2)

section Payload
variable {size : ℕ} {payload name params : Bytes}

theorem ContractPayload.fields (h : ContractPayload size payload name params) :
    declaredNameLength size payload = name.length ∧ hashedName size payload = name ∧
      hashedParams size payload = params := by
  obtain ⟨base, len, len', hbase, hlen, hname, hlen', -, rfl⟩ := h
  have hdeclared : declaredNameLength size (base ++ (len ++ (name ++ (len' ++ params)))) =
      name.length := by
    rw [declaredNameLength, List.drop_left' hbase, List.take_left' hlen, hname]
  have hdrop : (base ++ (len ++ (name ++ (len' ++ params)))).drop (size + 2) =
      name ++ (len' ++ params) := by
    rw [← List.drop_drop, List.drop_left' hbase, List.drop_left' hlen]
  refine ⟨hdeclared, ?_, ?_⟩
  · rw [hashedName, hdeclared, hdrop, List.take_left]
  · rw [hashedParams, hdeclared, ← List.drop_drop, ← List.drop_drop, hdrop, List.drop_left,
      List.drop_left' hlen']

end Payload

/-! ## Reviews that look alike -/

/-- The bytes that the digest on screen covers. -/
def digestedBytes (size : ℕ) (payload : Bytes) : Bytes :=
  hashedName size payload ++ hashedParams size payload

section Alike
variable [Platform] {ins : UInt8} {w w' : World}

/-- A run of the app in which reviews are answered once leads to the review of
    a contract call. -/
structure ContractReviewed (ins : UInt8) (inputs : List Input) (w : World) : Prop where
  gate : Along Concordium.step Answers World.start inputs
  run : runInputs World.start inputs = some w
  latch : w.latch = some ins
  pending : w.replyPending = true

/-- What is hashed and shown of a call under review. -/
theorem ContractFlow.Reviewing.payload {F : ContractFlow} {name params : Bytes}
    (h : F.Reviewing name params w) (hvalid : (ContractPhase.complete name params).Valid) :
    ContractPayload F.size w.txState.hash name params := by
  obtain ⟨base, hbase, hhash⟩ := h.stands.hashed ContractPhase.noConfusion
  refine ⟨base, toBe 2 name.length, toBe 2 params.length, hbase, toBe_length _ _, ?_,
    toBe_length _ _, ?_, ?_⟩
  · rw [beNat_toBe, Nat.mod_eq_of_lt hvalid.1]
  · rw [beNat_toBe, Nat.mod_eq_of_lt hvalid.2.2]
  · rw [hhash]
    simp only [ContractPhase.bytes, List.append_assoc]

/-- What two contract reviews with the same rows have in common. -/
theorem contract_reviews_alike (hins : ins ∈ contractInstructions) {inputs inputs' : List Input}
    (h : ContractReviewed ins inputs w) (h' : ContractReviewed ins inputs' w')
    (hrows : w.screen.rows = w'.screen.rows) :
    ∃ name params name' params',
      ContractPayload (contractSize ins) w.txState.hash name params ∧
      ContractPayload (contractSize ins) w'.txState.hash name' params' ∧
      shownName name = shownName name' ∧
      Platform.sha256 (name ++ params) = Platform.sha256 (name' ++ params') := by
  have conclude (F : ContractFlow) (h : ContractReviewed F.ins inputs w)
      (h' : ContractReviewed F.ins inputs' w')
      (hrows : ∀ {v v' : World}, F.rows v = F.rows v' →
        (F.streamAt v).nameDisplay.text = (F.streamAt v').nameDisplay.text ∧
        (F.streamAt v).paramsHashDisplay.text = (F.streamAt v').paramsHashDisplay.text)
      (hsame : w.screen.rows = w'.screen.rows) :
      ∃ name params name' params', ContractPayload F.size w.txState.hash name params ∧
        ContractPayload F.size w'.txState.hash name' params' ∧ shownName name = shownName name' ∧
        Platform.sha256 (name ++ params) = Platform.sha256 (name' ++ params') := by
    obtain ⟨name, params, hreached, hr⟩ := (F.rules.run h.gate h.run).review h.latch h.pending
    obtain ⟨name', params', hreached', hr'⟩ :=
      (F.rules.run h'.gate h'.run).review h'.latch h'.pending
    obtain ⟨hname, hdigest⟩ := hrows (hr.rows.symm.trans (hsame.trans hr'.rows))
    refine ⟨name, params, name', params', hr.payload (ContractPhase.valid_reached hreached),
      hr'.payload (ContractPhase.valid_reached hreached'), ?_, Buf.ext (hexUpper_injective ?_)⟩
    · exact hr.stands.streams.shown.symm.trans (hname.trans hr'.stands.streams.shown)
    · exact hr.digest.symm.trans (hdigest.trans hr'.digest)
  rcases List.mem_pair.mp hins with rfl | rfl
  · refine conclude initContractFlow h h' (fun hrows => ?_) hrows
    obtain ⟨-, hbody⟩ := accountReview_injective hrows
    simp only [initContractRows, row, List.cons.injEq, Row.mk.injEq, true_and, and_true] at hbody
    exact ⟨hbody.2.2.1, hbody.2.2.2⟩
  · refine conclude updateContractFlow h h' (fun hrows => ?_) hrows
    obtain ⟨-, hbody⟩ := accountReview_injective hrows
    simp only [updateContractRows, row, List.cons.injEq, Row.mk.injEq, true_and, and_true] at hbody
    exact ⟨hbody.2.2.2.1, hbody.2.2.2.2⟩

/-- Two contract calls under review with the same rows, whose digests do not
    collide, have the same name and parameters if and only if both names are
    short enough to be shown or the names are of the same length. -/
theorem contract_rows_determine_iff (hins : ins ∈ contractInstructions)
    {inputs inputs' : List Input} (h : ContractReviewed ins inputs w)
    (h' : ContractReviewed ins inputs' w') (hrows : w.screen.rows = w'.screen.rows)
    (hcollision : Platform.sha256 (digestedBytes (contractSize ins) w.txState.hash) =
      Platform.sha256 (digestedBytes (contractSize ins) w'.txState.hash) →
      digestedBytes (contractSize ins) w.txState.hash =
        digestedBytes (contractSize ins) w'.txState.hash) :
    (hashedName (contractSize ins) w.txState.hash = hashedName (contractSize ins) w'.txState.hash ∧
      hashedParams (contractSize ins) w.txState.hash =
        hashedParams (contractSize ins) w'.txState.hash) ↔
      (declaredNameLength (contractSize ins) w.txState.hash < 256 ∧
        declaredNameLength (contractSize ins) w'.txState.hash < 256) ∨
      declaredNameLength (contractSize ins) w.txState.hash =
        declaredNameLength (contractSize ins) w'.txState.hash := by
  obtain ⟨name, params, name', params', hp, hp', hshown, hsha⟩ :=
    contract_reviews_alike hins h h' hrows
  obtain ⟨hlen, hname, hparams⟩ := hp.fields
  obtain ⟨hlen', hname', hparams'⟩ := hp'.fields
  unfold digestedBytes at hcollision
  rw [hname, hname', hparams, hparams'] at hcollision ⊢
  rw [hlen, hlen']
  have hbytes : name ++ params = name' ++ params' := hcollision hsha
  constructor
  · rintro ⟨rfl, -⟩
    exact .inr rfl
  · intro hwhen
    have hlength : name.length = name'.length := by
      rcases hwhen with ⟨hshort, hshort'⟩ | heq
      · unfold shownName at hshown
        rw [if_pos hshort, if_pos hshort'] at hshown
        rw [hshown]
      · exact heq
    exact List.append_inj hbytes hlength

end Alike

/-- A call whose name has 256 characters and whose parameters have one byte. -/
def longNameInputs : List Input :=
  [.apdu (initContractPacket 1),
    .apdu (initContractChunk 1 (toBe 2 256 ++ List.replicate 253 97)),
    .apdu (initContractChunk 1 (List.replicate 3 97)),
    .apdu (initContractChunk 2 (toBe 2 1 ++ [97]))]

/-- The same call with the byte of the parameters at the end of the name. -/
def longerNameInputs : List Input :=
  [.apdu (initContractPacket 1),
    .apdu (initContractChunk 1 (toBe 2 257 ++ List.replicate 253 97)),
    .apdu (initContractChunk 1 (List.replicate 4 97)),
    .apdu (initContractChunk 2 (toBe 2 0))]

/-- The end of a long name can be moved into the parameters without a change on
    screen. -/
theorem name_boundary_moves :
    letI : Platform := sdkDevice .nbgl
    ¬ ∀ ins inputs inputs' w w', ins ∈ contractInstructions → ContractReviewed ins inputs w →
      ContractReviewed ins inputs' w' → w.screen.rows = w'.screen.rows →
      (Platform.sha256 (digestedBytes (contractSize ins) w.txState.hash) =
        Platform.sha256 (digestedBytes (contractSize ins) w'.txState.hash) →
        digestedBytes (contractSize ins) w.txState.hash =
          digestedBytes (contractSize ins) w'.txState.hash) →
      hashedName (contractSize ins) w.txState.hash =
          hashedName (contractSize ins) w'.txState.hash ∧
        hashedParams (contractSize ins) w.txState.hash =
          hashedParams (contractSize ins) w'.txState.hash := by
  let : Platform := sdkDevice .nbgl
  intro h
  have hrun : (runInputs World.start longNameInputs).any (fun w =>
      (runInputs World.start longerNameInputs).any fun w' =>
        decide (w.latch = some insInitContract ∧ w.replyPending = true ∧
          w'.latch = some insInitContract ∧ w'.replyPending = true ∧
          w.screen.rows = w'.screen.rows ∧
          digestedBytes (contractSize insInitContract) w.txState.hash =
            digestedBytes (contractSize insInitContract) w'.txState.hash ∧
          hashedName (contractSize insInitContract) w.txState.hash ≠
            hashedName (contractSize insInitContract) w'.txState.hash)) = true := by
    decide +kernel
  obtain ⟨w, hw, hrun⟩ := (Option.any_eq_true _ _).mp hrun
  obtain ⟨w', hw', hrun⟩ := (Option.any_eq_true _ _).mp hrun
  obtain ⟨hl, hp, hl', hp', hrows, hdigested, hname⟩ := of_decide_eq_true hrun
  have hgate : Along Concordium.step Answers World.start longNameInputs := by decide +kernel
  have hgate' : Along Concordium.step Answers World.start longerNameInputs := by decide +kernel
  exact hname (h insInitContract _ _ w w' (by decide) ⟨hgate, hw, hl, hp⟩ ⟨hgate', hw', hl', hp'⟩
    hrows fun _ => hdigested).1

/-- Two calls with a short name that differ in their nonce. -/
theorem short_names_determined :
    letI : Platform := sdkDevice .nbgl
    ∃ w w', runInputs World.start (shortNameInputs 1) = some w ∧
      runInputs World.start (shortNameInputs 2) = some w' ∧
      hashedName initContractSize w.txState.hash = hashedName initContractSize w'.txState.hash ∧
      hashedParams initContractSize w.txState.hash =
        hashedParams initContractSize w'.txState.hash := by
  let : Platform := sdkDevice .nbgl
  have hrun : (runInputs World.start (shortNameInputs 1)).any (fun w =>
      (runInputs World.start (shortNameInputs 2)).any fun w' =>
        decide (w.latch = some insInitContract ∧ w.replyPending = true ∧
          w'.latch = some insInitContract ∧ w'.replyPending = true ∧
          w.screen.rows = w'.screen.rows ∧
          digestedBytes (contractSize insInitContract) w.txState.hash =
            digestedBytes (contractSize insInitContract) w'.txState.hash ∧
          declaredNameLength (contractSize insInitContract) w.txState.hash < 256 ∧
          declaredNameLength (contractSize insInitContract) w'.txState.hash < 256)) = true := by
    decide +kernel
  obtain ⟨w, hw, hrun⟩ := (Option.any_eq_true _ _).mp hrun
  obtain ⟨w', hw', hrun⟩ := (Option.any_eq_true _ _).mp hrun
  obtain ⟨hl, hp, hl', hp', hrows, hdigested, hshort, hshort'⟩ := of_decide_eq_true hrun
  have hgate (nonce : ℕ) (h : nonce = 1 ∨ nonce = 2) :
      Along Concordium.step Answers World.start (shortNameInputs nonce) := by
    rcases h with rfl | rfl <;> decide +kernel
  have hboth := (contract_rows_determine_iff (by decide) ⟨hgate 1 (.inl rfl), hw, hl, hp⟩
    ⟨hgate 2 (.inr rfl), hw', hl', hp'⟩ hrows fun _ => hdigested).mpr (.inl ⟨hshort, hshort'⟩)
  exact ⟨w, w', hw, hw', hboth⟩

end Concordium
