/-
  How the proofs of a transfer to public are streamed.

  The first packet carries the header, the second the amounts and the size of
  the proofs, and the others bring the proofs.  Empty packets change nothing.
-/
import Concordium.ModuleStreaming

namespace Concordium

open Buffer Union Wp Runs

/-- The size of the proofs that the second packet declares. -/
def declaredProofs (amounts : Command) : ℕ := beNat ((amounts.data.drop 240).take 2)

section Proofs
variable [Platform] {cmd amounts : Command} {s t w : World}

/-- The proofs have arrived as far as `got`. -/
structure ProofStream (amounts : Command) (base got : Bytes) (w : World) : Prop where
  base_length : base.length = 301
  carries : base.drop 61 = amounts.data.take 240
  state : (w.global.view SignTransferToPublic).state = .proof
  fits : got.length ≤ declaredProofs amounts
  hashed : w.txState.hash = base ++ got

/-- The TRANSFER_TO_PUBLIC review. -/
def transferToPublicReview (w : World) : List Row :=
  let ctx := w.global.view SignTransferToPublic
  let rows := [row "Unshield amount" ctx.amount.text, row "Recipient" ctx.recipientAddress.text]
  match Platform.backend with
  | .nbgl => line "Review Transaction" "" ::
      (accountHeaderPairs w.accountSender "Sender" ++ rows) ++
      [⟨ascii "Sign transaction", []⟩]
  | .bagl => line "Review transaction to" "unshield CCD" ::
      accountHeaderPairs w.accountSender "From" ++ rows

theorem wp_uiSignTransferToPublicDisplay {Q : Unit → World → Prop}
    {E : Exception → World → Prop} :
    wp uiSignTransferToPublicDisplay Q E s = Q () (s.reviewed (transferToPublicReview s)) := by
  unfold uiSignTransferToPublicDisplay
  simp only [wp_bind, wp_getCtx, wp_get]
  cases hb : (Platform.backend : Backend) with
  | nbgl =>
    simp only [nbglSignReview, nbglReview, wp_showScreen, transferToPublicReview, hb]
    rfl
  | bagl =>
    simp only [wp_showScreen, transferToPublicReview, hb]
    rfl

/-! ## Packets -/

theorem dispatch_transferToPublic {isInitialCall : Bool} (hins : cmd.ins = insTransferToPublic) :
    dispatchInstruction cmd isInitialCall =
      withData cmd (handleSignTransferToPublic cmd isInitialCall) := by
  unfold dispatchInstruction
  rw [hins]
  rfl

/-- The packet of the amounts declares the size of the proofs. -/
theorem wp_transferToPublicRemainingAmount (hhash : s.txState.hash.length = 61) :
    wp (transferToPublicRemainingAmount cmd) (fun _ t => t.replyPending = false ∧
      t.latch = s.latch ∧ ∃ base, ProofStream cmd base [] t ∧
        (t.global.view SignTransferToPublic).proofSize = declaredProofs cmd)
      (fun _ _ => True) s := by
  unfold transferToPublicRemainingAmount
  simp only [wp_bind, wp_getCtx, wp_throwIf, wp_slice, wp_updateHash, wp_advance, wp_u8be,
    List.drop_zero, implies_true, true_and, and_true]
  intro hlen _ _ hlen' _
  refine wp_reads _ (fun text _ => ?_) fun _ _ => trivial
  simp only [wp_bind, wp_memmove, wp_throwIf, wp_slice, wp_updateHash, wp_advance, List.drop_zero,
    implies_true, true_and, and_true]
  intro _ _ _ hlen'' _
  refine wp_reads _ (fun address _ => ?_) fun _ _ => trivial
  cases address with
  | none => trivial
  | some address =>
    simp only [wp_bind, wp_memmove, wp_throwIf, wp_slice, wp_updateHash, wp_advance, wp_u2be,
      wp_setCtx, List.drop_drop, implies_true, true_and, and_true]
    intro _ _ _ hindex _ _ hsize _
    have hpieces : cmd.data.take 240 = cmd.data.take 192 ++ ((cmd.data.drop 192).take 8 ++
        ((cmd.data.drop 200).take 32 ++ (cmd.data.drop 232).take 8)) := by
      rw [show 240 = 192 + (8 + (32 + 8)) from rfl, List.take_add, List.take_add, List.take_add,
        List.drop_drop, List.drop_drop]
    refine ⟨rfl, rfl, s.txState.hash ++ cmd.data.take 240,
      ⟨?_, List.drop_left' hhash, ?_, Nat.zero_le _, ?_⟩, ?_⟩
    · simp only [List.length_drop] at hindex
      simp only [List.length_append, List.length_take, hhash]
      omega
    · exact congrArg SignTransferToPublic.state (InstructionContext.view_inject _)
    · rw [List.append_nil, hpieces]
      simp only [List.append_assoc]
    · exact congrArg SignTransferToPublic.proofSize (InstructionContext.view_inject _)

theorem wp_transferToPublicInitial :
    wp (transferToPublicInitial cmd) (fun _ t => t.replyPending = false ∧ t.latch = s.latch ∧
      (t.global.view SignTransferToPublic).state = .remainingAmount ∧ t.txState.hash.length = 61)
      (fun _ _ => True) s := by
  unfold transferToPublicInitial openTransaction
  simp only [bind_assoc]
  rw [wp_bind]
  refine wp_parseDerivationPath (fun _ _ => trivial) fun dp log _ => ?_
  simp only [wp_bind, wp_throwIf, wp_advance, wp_sha256Init, implies_true, true_and, and_true]
  intro _ _
  refine wp_hashAccountTransactionHeaderAndKind (fun _ _ => trivial) (fun _ _ => trivial)
    fun account log _ hheader _ _ => ?_
  simp only [wp_bind, wp_throwIf, wp_advance, wp_modifyCtx, implies_true, true_and, and_true]
  intro _ _
  refine ⟨rfl, rfl, ?_, ?_⟩
  · exact congrArg SignTransferToPublic.state (InstructionContext.view_inject _)
  · simp only [List.nil_append, List.length_append, List.length_singleton, hheader.length]

/-- A packet of proofs that the declared size has room for. -/
def ProofFits (amounts : Command) (got : Bytes) (cmd : Command) : Prop :=
  cmd.p1 = SignTransferToPublic.p1Proof ∧ got.length + cmd.data.length ≤ declaredProofs amounts

/-- The review of complete proofs is on screen.  The counter still stands at the
    length of the packet that completed them. -/
structure ProofReviewing (amounts last : Command) (base got : Bytes) (w : World) : Prop where
  stream : ProofStream amounts base got w
  complete : got.length = declaredProofs amounts
  counter : (w.global.view SignTransferToPublic).proofSize = last.data.length
  actions : w.screen.actions = signFlowShared
  rows : w.screen.rows = transferToPublicReview w

/-- A packet of the flow in a state that its handler keeps. -/
theorem wp_transferToPublicNext {Q : Unit → World → Prop} {E : Exception → World → Prop}
    (hins : cmd.ins = insTransferToPublic) (hc : cmd.data ≠ [])
    (hinitial : (s.global.view SignTransferToPublic).state ≠ .initial)
    (hamounts : cmd.p1 = SignTransferToPublic.p1RemainingAmount →
      (s.global.view SignTransferToPublic).state = .remainingAmount →
      wp (transferToPublicRemainingAmount cmd) Q E s)
    (hproof : cmd.p1 = SignTransferToPublic.p1Proof →
      (s.global.view SignTransferToPublic).state = .proof → wp (transferToPublicProof cmd) Q E s)
    (hthrow : ¬ (cmd.p1 = SignTransferToPublic.p1RemainingAmount ∧
        (s.global.view SignTransferToPublic).state = .remainingAmount) →
      ¬ (cmd.p1 = SignTransferToPublic.p1Proof ∧
        (s.global.view SignTransferToPublic).state = .proof) →
      ∀ sw, sw ≠ swoSuccess → E (.statusWord sw) s) :
    wp (dispatchInstruction cmd false) Q E s := by
  rw [dispatch_transferToPublic hins]
  unfold withData handleSignTransferToPublic
  refine wp_if (fun hlc => absurd (List.length_eq_zero_iff.mp hlc) hc) fun _ => ?_
  rw [if_neg Bool.false_ne_true]
  change wp (getCtx SignTransferToPublic >>= _) _ _ _
  rw [wp_bind, wp_getCtx]
  refine wp_if (fun h => absurd h.2 hinitial) fun _ => ?_
  refine wp_if (fun h => hamounts h.1 h.2) fun hno => ?_
  exact wp_if (fun h => hproof h.1 h.2) fun hno' => hthrow hno hno' _ (by decide)

/-- A packet of proofs: it is acknowledged, completes the proofs, or brings too
    many. -/
theorem wp_transferToPublicProof {base got : Bytes} {Q : Unit → World → Prop}
    {E : Exception → World → Prop} (h : ProofStream amounts base got s)
    (hleft : (s.global.view SignTransferToPublic).proofSize =
      declaredProofs amounts - got.length)
    (hmore : ∀ g, got.length + cmd.data.length < declaredProofs amounts →
      ProofStream amounts base (got ++ cmd.data) (s.streamedOn cmd.data g) →
      (g.view SignTransferToPublic).proofSize =
        declaredProofs amounts - (got ++ cmd.data).length → Q () (s.streamedOn cmd.data g))
    (hreview : ∀ t, got.length + cmd.data.length = declaredProofs amounts →
      t.latch = s.latch → t.replyPending = s.replyPending →
      ProofReviewing amounts cmd base (got ++ cmd.data) t → Q () t)
    (hthrow : declaredProofs amounts < got.length + cmd.data.length →
      ∀ sw t, sw ≠ swoSuccess → E (.statusWord sw) t) :
    wp (transferToPublicProof cmd) Q E s := by
  have hfits := h.fits
  have hlength : (got ++ cmd.data).length = got.length + cmd.data.length := List.length_append
  unfold transferToPublicProof
  rw [wp_bind, wp_getCtx, wp_bind, wp_updateHash]
  refine wp_if (fun hdone => ?_) fun hdone => wp_if (fun hover => ?_) fun hover => ?_
  · rw [wp_uiSignTransferToPublicDisplay]
    have hdone' : got.length + cmd.data.length = declaredProofs amounts := by omega
    refine hreview _ hdone' rfl rfl ⟨⟨h.base_length, h.carries, h.state, ?_, ?_⟩, ?_, ?_, rfl, rfl⟩
    · omega
    · exact (congrArg (· ++ _) h.hashed).trans (List.append_assoc _ _ _)
    · omega
    · exact hdone
  · exact hthrow (by omega) _ _ (by decide)
  · rw [wp_bind, wp_setCtx]
    refine hmore _ (by omega) ⟨h.base_length, h.carries, ?_, ?_, ?_⟩ ?_
    · exact (congrArg SignTransferToPublic.state (InstructionContext.view_inject _)).trans h.state
    · omega
    · exact (congrArg (· ++ _) h.hashed).trans (List.append_assoc _ _ _)
    · refine (congrArg SignTransferToPublic.proofSize (InstructionContext.view_inject _)).trans ?_
      change (s.global.view SignTransferToPublic).proofSize - _ = _
      omega

/-! ## The flow -/

/-- Where the flow stands between packets, by the packets that carried data. -/
inductive ProofStage (w : World) : List Command → Prop where
  | unopened (hs : (w.global.view SignTransferToPublic).state = .unset) : ProofStage w []
  | opened {first : Command}
    (hs : (w.global.view SignTransferToPublic).state = .remainingAmount)
    (hhash : w.txState.hash.length = 61) : ProofStage w [first]
  | streaming {first amounts : Command} {proofs : List Command} {base : Bytes}
    (h : ProofStream amounts base (proofs.flatMap Command.data) w)
    (counter : (w.global.view SignTransferToPublic).proofSize =
      declaredProofs amounts - (proofs.flatMap Command.data).length)
    (missing : (proofs.flatMap Command.data).length = declaredProofs amounts → proofs = []) :
    ProofStage w (first :: amounts :: proofs)

/-- The flow waits for a packet. -/
def ProofBetween (ps : List Command) (w : World) : Prop := ProofStage w (carried ps)

/-- The amounts are under review, and the whole proof has been received. -/
def ProofUnderReview (ps : List Command) (w : World) : Prop :=
  ∃ first amounts proofs last base, carried ps = first :: amounts :: (proofs ++ [last]) ∧
    ProofReviewing amounts last base ((proofs ++ [last]).flatMap Command.data) w

theorem ProofStage.still {ps : List Command} (h : ProofStage s ps) (hst : Still s t) :
    ProofStage t ps := by
  rw [hst]
  cases h with
  | unopened hs => exact .unopened hs
  | opened hs hhash => exact .opened hs hhash
  | streaming h counter missing =>
    exact .streaming ⟨h.base_length, h.carries, h.state, h.fits, h.hashed⟩ counter missing

theorem ProofStage.not_initial {ps : List Command} (h : ProofStage s ps) :
    (s.global.view SignTransferToPublic).state ≠ .initial := by
  cases h with
  | unopened hs => rw [hs]; exact TransferToPublicState.noConfusion
  | opened hs => rw [hs]; exact TransferToPublicState.noConfusion
  | streaming h => rw [h.state]; exact TransferToPublicState.noConfusion

/-- A packet behind the first one. -/
theorem ProofStage.flowing {ps : List Command} (h : ProofStage s (carried ps))
    (hins : cmd.ins = insTransferToPublic) (hc : cmd.data ≠ []) (hp : s.replyPending = true) :
    wp (dispatchInstruction cmd false)
      (fun _ t => Flowing insTransferToPublic (ProofBetween (ps ++ [cmd]))
        (ProofUnderReview (ps ++ [cmd])) t) (fun _ _ => True) s := by
  have hcarried : carried (ps ++ [cmd]) = carried ps ++ [cmd] := carried_snoc hc
  refine wp_transferToPublicNext hins hc h.not_initial (fun _ hstate => ?_) (fun _ hstate => ?_)
    fun _ _ _ _ => trivial
  · generalize carried ps = qs at h hcarried
    cases h with
    | unopened hs => cases hs.symm.trans hstate
    | streaming h => cases h.state.symm.trans hstate
    | opened _ hhash =>
      refine wp_mono (fun _ t ht => ?_) (fun _ _ h => h) (wp_transferToPublicRemainingAmount hhash)
      obtain ⟨hp', -, base, hs, hsize⟩ := ht
      refine .of_between hp' ?_
      unfold ProofBetween
      rw [hcarried]
      exact .streaming hs hsize fun _ => rfl
  · generalize carried ps = qs at h hcarried
    cases h with
    | unopened hs => cases hs.symm.trans hstate
    | opened hs => cases hs.symm.trans hstate
    | @streaming first amounts proofs base h counter missing =>
      have hsnoc : (proofs ++ [cmd]).flatMap Command.data = proofs.flatMap Command.data ++
          cmd.data := by
        rw [List.flatMap_append, List.flatMap_singleton]
      refine wp_transferToPublicProof h counter (fun g hlt hs hsize => ?_)
        (fun t hdone _ htp ht => ?_) fun _ _ _ _ => trivial
      · refine .of_between rfl ?_
        unfold ProofBetween
        rw [hcarried]
        show ProofStage _ (first :: amounts :: (proofs ++ [cmd]))
        refine .streaming (hsnoc ▸ hs) ?_ fun heq => ?_
        · rw [hsnoc]
          exact hsize
        · rw [hsnoc, List.length_append] at heq
          omega
      · refine .of_review (htp.trans hp) ⟨first, amounts, proofs, cmd, base, hcarried, ?_⟩
        rw [hsnoc]
        exact ht

theorem proofRules : FlowRules insTransferToPublic ProofBetween ProofUnderReview where
  still ps s t hst _ _ hI := hI.still hst
  first cmd s hins hl hp hz _ _ _ := by
    have hfresh : (s.global.view SignTransferToPublic).state = .unset := by
      rw [hz, InstructionContext.view_zeroed]
      rfl
    rw [dispatch_transferToPublic hins]
    by_cases hc : cmd.data = []
    · refine wp_withData (fun _ => .of_between rfl ?_) fun h => absurd hc h
      unfold ProofBetween
      rw [← List.nil_append [cmd], carried_empty hc]
      exact .unopened hfresh
    · refine wp_withData (fun h => absurd h hc) fun _ => ?_
      unfold handleSignTransferToPublic
      rw [if_pos rfl, wp_bind, wp_modifyCtx]
      refine wp_if (fun _ => ?_) fun _ => wp_if (fun h => ?_) fun _ => wp_if (fun h => ?_)
        fun _ => trivial
      · refine wp_mono (fun _ t ht => ?_) (fun _ _ h => h) wp_transferToPublicInitial
        obtain ⟨hp', -, hs, hhash⟩ := ht
        refine .of_between hp' ?_
        unfold ProofBetween
        rw [← List.nil_append [cmd], carried_snoc hc]
        exact .opened hs hhash
      · have hstate := h.2
        rw [InstructionContext.view_inject] at hstate
        cases hstate
      · have hstate := h.2
        rw [InstructionContext.view_inject] at hstate
        cases hstate
  next ps cmd s hins hl hp hI := by
    by_cases hc : cmd.data = []
    · rw [dispatch_transferToPublic hins]
      refine wp_withData (fun _ => .of_between rfl ?_) fun h => absurd hc h
      unfold ProofBetween
      rw [carried_empty hc]
      exact hI.still rfl
    · exact hI.flowing hins hc hp
  answer ps c s hc hl hp hr := by
    obtain ⟨_, _, _, _, _, -, hr⟩ := hr
    exact wp_mono (fun _ _ ht => .of_free ht) (fun _ _ hE => hE)
      (wp_signFlowShared (hr.actions ▸ hc))

/-! ## Every run -/

/-- A packet of proofs in front of the amounts is refused. -/
theorem ProofStage.closes_early {ps : List Command} (h : ProofStage w ps) (hps : ps.length < 2)
    (hl : w.latch = some insTransferToPublic) (hins : cmd.ins = insTransferToPublic)
    (hc : cmd.data ≠ []) (hp1 : cmd.p1 = SignTransferToPublic.p1Proof) : Closes w cmd := by
  have hs : ProofStage (w.delivered.arrived cmd.ins) ps := h.still rfl
  have hproof : ((w.delivered.arrived cmd.ins).global.view SignTransferToPublic).state ≠
      .proof := by
    cases hs with
    | unopened hs => rw [hs]; exact TransferToPublicState.noConfusion
    | opened hs => rw [hs]; exact TransferToPublicState.noConfusion
    | streaming =>
      rw [List.length_cons, List.length_cons] at hps
      omega
  refine closes_packet (hins ▸ hl) (wp_transferToPublicNext hins hc hs.not_initial
    (fun hp1' => ?_) (fun _ hstate => absurd hstate hproof) fun _ _ sw hsw => ⟨sw, hsw, rfl⟩)
  exact absurd (hp1.symm.trans hp1') (by decide)

/-- What becomes of a packet behind the amounts: proofs that fit are taken, and
    any other packet that carries data ends the flow. -/
theorem ProofStream.next {base got : Bytes} (h : ProofStream amounts base got w)
    (hleft : (w.global.view SignTransferToPublic).proofSize = declaredProofs amounts - got.length)
    (hl : w.latch = some insTransferToPublic) (hp : w.replyPending = false)
    (hins : cmd.ins = insTransferToPublic) (hc : cmd.data ≠ []) :
    (¬ ProofFits amounts got cmd → Closes w cmd) ∧ (ProofFits amounts got cmd →
      ∃ w', step w (.apdu cmd) = some w' ∧ w'.latch = some insTransferToPublic ∧
        (w'.replyPending = true ↔ got.length + cmd.data.length = declaredProofs amounts)) := by
  have hs : ProofStream amounts base got (w.delivered.arrived cmd.ins) :=
    ⟨h.base_length, h.carries, h.state, h.fits, h.hashed⟩
  have hinitial : ((w.delivered.arrived cmd.ins).global.view SignTransferToPublic).state ≠
      .initial := by
    rw [hs.state]
    exact TransferToPublicState.noConfusion
  have hnext {Q : Unit → World → Prop} {E : Exception → World → Prop}
      (hproof : cmd.p1 = SignTransferToPublic.p1Proof →
        wp (transferToPublicProof cmd) Q E (w.delivered.arrived cmd.ins))
      (hthrow : cmd.p1 ≠ SignTransferToPublic.p1Proof → ∀ sw, sw ≠ swoSuccess →
        E (.statusWord sw) (w.delivered.arrived cmd.ins)) :
      wp (dispatchInstruction cmd false) Q E (w.delivered.arrived cmd.ins) := by
    refine wp_transferToPublicNext hins hc hinitial (fun _ hstate => ?_) (fun hp1 _ => hproof hp1)
      fun _ hno => hthrow fun hp1 => hno ⟨hp1, hs.state⟩
    cases hs.state.symm.trans hstate
  constructor
  · intro hno
    refine closes_packet (hins ▸ hl) (hnext (fun hp1 => ?_) fun _ sw hsw => ⟨sw, hsw, rfl⟩)
    refine wp_transferToPublicProof hs hleft (fun g hlt => absurd ⟨hp1, hlt.le⟩ hno)
      (fun t hdone => absurd ⟨hp1, hdone.le⟩ hno) fun _ sw _ hsw => ⟨sw, hsw, rfl⟩
  · rintro ⟨hp1, hle⟩
    refine step_next (hins ▸ hl) hp (hnext (fun _ => ?_) fun hno => absurd hp1 hno)
    refine wp_transferToPublicProof hs hleft (fun g hlt _ _ => ⟨hl, ?_⟩)
      (fun t hdone htl htp _ => ⟨htl.trans hl, fun _ => hdone, fun _ => htp⟩)
      fun hover => absurd hle (Nat.not_le.mpr hover)
    exact ⟨fun h => absurd h Bool.false_ne_true, fun h => absurd h hlt.ne⟩

/-- How TRANSFER_TO_PUBLIC stands after its packets, and what becomes of the next
    one. -/
structure ProofProgress (packets : List Command) (w : World) : Prop where
  between : w.replyPending = false → ProofStage w (carried packets)
  review : w.replyPending = true → ProofUnderReview packets w
  early : w.replyPending = false → (carried packets).length < 2 → ∀ cmd,
    cmd.ins = insTransferToPublic → cmd.data ≠ [] → cmd.p1 = SignTransferToPublic.p1Proof →
    Closes w cmd
  next : w.replyPending = false → ∀ first amounts proofs,
    carried packets = first :: amounts :: proofs → ∀ cmd, cmd.ins = insTransferToPublic →
    cmd.data ≠ [] →
    (¬ ProofFits amounts (proofs.flatMap Command.data) cmd → Closes w cmd) ∧
    (ProofFits amounts (proofs.flatMap Command.data) cmd →
      ∃ w', step w (.apdu cmd) = some w' ∧ w'.latch = some insTransferToPublic ∧
        (w'.replyPending = true ↔ (proofs.flatMap Command.data).length + cmd.data.length =
          declaredProofs amounts))

theorem proof_streaming {inputs : List Input}
    (hgate : Along Concordium.step Answers World.start inputs)
    (hrun : runInputs World.start inputs = some w) (hl : w.latch = some insTransferToPublic) :
    ProofProgress (openPackets inputs) w := by
  have hflow := proofRules.run hgate hrun
  refine ⟨hflow.between hl, hflow.review hl, fun hp hps cmd hins hc hp1 =>
    (hflow.between hl hp).closes_early hps hl hins hc hp1,
    fun hp first amounts proofs hps cmd hins hc => ?_⟩
  have hstage : ProofStage w (carried (openPackets inputs)) := hflow.between hl hp
  rw [hps] at hstage
  cases hstage with
  | streaming h counter => exact h.next counter hl hp hins hc

end Proofs

end Concordium
