/-
  The deployment of a credential.

  The first packet carries the key path; the packets behind it are hashed at
  their places.  What is hashed depends on the data of the packets, and on `P2`
  only where the length of the proofs arrives.
-/
import Concordium.CredentialSteps

namespace Concordium

open Buffer Union Wp Runs

set_option synthInstance.maxSize 1000000
set_option synthInstance.maxHeartbeats 100000

section Deployment
variable [Platform] {p q : CredentialPlace} {cmd : Command} {s t w w' : World}

/-! ## Stages -/

/-- The context is not that of an update. -/
structure Standalone (w : World) : Prop where
  stage : (w.global.view SignCredentialDeploymentContext).updateCredentialState = .initial
  count : (w.global.view SignCredentialDeploymentContext).credentialDeploymentCount = 0

/-- What has been read, by the packets that carried data. -/
inductive DeploymentStage (hash : Bytes) (p : CredentialPlace) : List Command → Prop where
  | unopened (hs : p.state = .unset) : DeploymentStage hash p []
  | reading {first : Command} {rest : List Command}
    (hfirst : first.p1 = SignCredentialDeploymentContext.p1InitialPacket)
    (taken : AllTaken {} rest) (hashed : hash = partsOf {} rest)
    (hp : p = placeAfter {} rest ∨ p.state = .awaitingVerificationKeyConfirm) :
    DeploymentStage hash p (first :: rest)

/-- A deployment waits for a packet. -/
def DeploymentBetween (ps : List Command) (w : World) : Prop :=
  ∃ p, CredentialAt p (w.global.view SignCredentialDeploymentContext) ∧ Standalone w ∧
    DeploymentStage w.txState.hash p (carried ps)

/-- A review is on screen that leads back to the place behind the packets. -/
def DeploymentUnderReview (ps : List Command) (w : World) : Prop :=
  ∃ first rest q, carried ps = first :: rest ∧
    CredentialAt q (w.global.view SignCredentialDeploymentContext) ∧ Standalone w ∧
    DeploymentStage w.txState.hash (placeAfter {} rest) (first :: rest) ∧
    CredentialReview q (placeAfter {} rest) w

theorem dispatch_credentialDeployment {isInitialCall : Bool}
    (hins : cmd.ins = insCredentialDeployment) : dispatchInstruction cmd isInitialCall =
      withData cmd (handleSignCredentialDeployment cmd isInitialCall) := by
  unfold dispatchInstruction
  rw [hins]
  rfl

theorem Standalone.moved {bs : Bytes} (h : Standalone s) (ht : CredentialMoved p bs s t) :
    Standalone t := ⟨ht.stage.trans h.stage, ht.count.trans h.count⟩

omit [Platform] in
theorem DeploymentStage.not_initial {hash : Bytes} {ps : List Command}
    (h : DeploymentStage hash p ps) : p.state ≠ .initial := by
  cases h with
  | unopened hs => rw [hs]; exact ProtocolState.noConfusion
  | reading _ _ _ hp =>
    rcases hp with rfl | hp
    · exact placeAfter_initial ProtocolState.noConfusion
    · rw [hp]; exact ProtocolState.noConfusion

omit [Platform] in
theorem DeploymentStage.taken {hash : Bytes} {ps : List Command}
    (h : DeploymentStage hash p ps) (ht : p.Takes cmd) :
    DeploymentStage (hash ++ p.part cmd) (p.next cmd.data) (ps ++ [cmd]) ∧
      ∃ first rest, ps ++ [cmd] = first :: rest ∧ placeAfter {} rest = p.next cmd.data := by
  obtain ⟨hunset, -, hawaiting⟩ := CredentialPlace.takes_selector ht
  cases h with
  | unopened hs => exact absurd hs hunset
  | @reading first rest hfirst taken hashed hp =>
    obtain rfl : p = placeAfter {} rest := hp.resolve_right hawaiting
    rw [List.cons_append]
    refine ⟨.reading hfirst (allTaken_snoc.mpr ⟨taken, ht⟩) ?_ (.inl placeAfter_snoc.symm),
      first, rest ++ [cmd], rfl, placeAfter_snoc⟩
    rw [hashed, partsOf_snoc]

theorem deploymentRules :
    FlowRules insCredentialDeployment DeploymentBetween DeploymentUnderReview where
  still ps s t hst _ _ hI := by
    rw [hst]
    obtain ⟨p, hat, hs, hstage⟩ := hI
    exact ⟨p, hat, ⟨hs.stage, hs.count⟩, hstage⟩
  first cmd s hins hl hp hz _ _ _ := by
    have hview : s.global.view SignCredentialDeploymentContext = default := by
      rw [hz, InstructionContext.view_zeroed]
    have hdefault : CredentialAt { state := .unset } default :=
      ⟨rfl, rfl, rfl, rfl, rfl, rfl, rfl, rfl, fun h => absurd rfl h, fun h => absurd rfl h,
        fun h => absurd rfl h⟩
    rw [dispatch_credentialDeployment hins]
    by_cases hc : cmd.data = []
    · refine wp_withData (fun _ => .of_between rfl ?_) fun h => absurd hc h
      refine ⟨{ state := .unset }, ?_, ⟨?_, ?_⟩, ?_⟩
      · exact hview ▸ hdefault
      · exact congrArg SignCredentialDeploymentContext.updateCredentialState hview
      · exact congrArg SignCredentialDeploymentContext.credentialDeploymentCount hview
      · rw [← List.nil_append [cmd], carried_empty hc]
        exact .unopened rfl
    · refine wp_withData (fun h => absurd h hc) fun _ => ?_
      refine wp_handleSignCredentialDeployment_first ?_
      have hnone (cmd' : Command) : ¬ ({ state := .initial } : CredentialPlace).Takes cmd' :=
        fun h => (CredentialPlace.takes_selector h).2.1 rfl
      refine wp_handleSignCredentialDeployment (p := { state := .initial })
        ⟨fun _ h => absurd h (hnone cmd), fun _ _ h => absurd h (hnone cmd), fun _ _ _ => trivial,
          fun _ _ _ => trivial⟩ ?_ fun _ hp1 => ?_
      · rw [InstructionContext.view_inject, hview]
        exact { hdefault with state := rfl }
      · unfold credentialInitial
        rw [wp_bind]
        refine wp_parseDerivationPath (fun _ _ => trivial) fun dp log _ => ?_
        rw [wp_bind, wp_sha256Init, wp_bind, wp_modifyCtx]
        refine .of_between rfl ⟨{}, ?_, ⟨?_, ?_⟩, ?_⟩
        · rw [InstructionContext.view_inject, InstructionContext.view_inject, hview]
          exact { hdefault with state := rfl }
        · rw [InstructionContext.view_inject, InstructionContext.view_inject, hview]
          rfl
        · rw [InstructionContext.view_inject, InstructionContext.view_inject, hview]
          rfl
        · rw [← List.nil_append [cmd], carried_snoc hc]
          exact .reading hp1 trivial rfl (.inl rfl)
  next ps cmd s hins hl hp hI := by
    rw [dispatch_credentialDeployment hins]
    obtain ⟨p, hat, hs, hstage⟩ := hI
    by_cases hc : cmd.data = []
    · refine wp_withData (fun _ => .of_between rfl ?_) fun h => absurd hc h
      refine ⟨p, hat, ⟨hs.stage, hs.count⟩, ?_⟩
      rw [carried_empty hc]
      exact hstage
    · refine wp_withData (fun h => absurd h hc) fun _ => ?_
      refine wp_handleSignCredentialDeployment ⟨?_, ?_, fun _ _ _ => trivial, fun _ _ _ => trivial⟩
        hat fun hno _ => absurd hno hstage.not_initial
      · intro t htakes hreply hmoved
        obtain ⟨hnext, -⟩ := hstage.taken htakes
        refine .of_between hreply ⟨_, hmoved.place, hs.moved hmoved, ?_⟩
        rw [carried_snoc hc, hmoved.hash]
        exact hnext
      · intro q t htakes hreply hmoved hreview
        obtain ⟨hnext, first, rest, hrest, hplace⟩ := hstage.taken htakes
        refine .of_review (hreply.trans hp)
          ⟨first, rest, q, ?_, hmoved.place, hs.moved hmoved, ?_, ?_⟩
        · rw [carried_snoc hc, hrest]
        · rw [hmoved.hash, hplace, ← hrest]
          exact hnext
        · rw [hplace]
          exact hreview
  answer ps c s hc hl hp hr := by
    obtain ⟨first, rest, q, hps, hat, hs, hstage, hreview⟩ := hr
    by_cases hadded : c = .confirmAddedCredential
    · subst hadded
      cases hreview with
      | key _ _ _ actions => rcases actions _ hc with h | h | h <;> cases h
      | value _ _ actions => rcases actions _ hc with h | h <;> cases h
      | added _ _ _ count => exact absurd hs.count count.ne'
      | final _ _ actions =>
        rcases actions _ hc with h | h
        · cases h
        · exact absurd h (by decide)
    · refine wp_mono (fun _ t ht => ?_) (fun _ _ hE => hE) (hreview.answered hat hc hadded)
      rcases ht with hfree | ⟨hreply, p, hp, hmoved⟩
      · exact .of_free hfree
      · refine .of_between hreply ⟨p, hmoved.place, hs.moved hmoved, ?_⟩
        rw [hps, hmoved.hash, List.append_nil]
        cases hstage with
        | reading hfirst taken hashed =>
          refine .reading hfirst taken hashed (hp.imp_right fun hq => ?_)
          rw [hq.1]
          exact hq.2.1

/-! ## Every run -/

/-- What has been hashed where the deployment can be signed. -/
theorem DeploymentUnderReview.hashed {ps : List Command} (h : DeploymentUnderReview ps w) :
    ∃ first rest, carried ps = first :: rest ∧
      first.p1 = SignCredentialDeploymentContext.p1InitialPacket ∧ AllTaken {} rest ∧
      w.txState.hash = partsOf {} rest := by
  obtain ⟨first, rest, q, hps, -, -, hstage, -⟩ := h
  cases hstage with
  | reading hfirst taken hashed => exact ⟨first, rest, hps, hfirst, taken, hashed⟩

omit [Platform] in
theorem proofLengthHashed_first {first : Command} {rest : List Command}
    (h : first.p1 = SignCredentialDeploymentContext.p1InitialPacket) :
    proofLengthHashed (first :: rest) = proofLengthHashed rest := by
  unfold proofLengthHashed
  rw [List.any_cons, h]
  rfl

/-- Two runs whose deployments carry the same data have hashed the same exactly
    if the length of the proofs came with the same form: it is hashed as part of
    a credential that is embedded in an update.  `P2` of the other packets is of
    no account. -/
theorem deployment_hash {inputs inputs' : List Input}
    (hgate : Along Concordium.step Answers World.start inputs)
    (hrun : runInputs World.start inputs = some w)
    (hl : w.latch = some insCredentialDeployment) (ho : OffersSigning w)
    (hgate' : Along Concordium.step Answers World.start inputs')
    (hrun' : runInputs World.start inputs' = some w')
    (hl' : w'.latch = some insCredentialDeployment) (ho' : OffersSigning w')
    (hdata : (carried (openPackets inputs)).map Command.data =
      (carried (openPackets inputs')).map Command.data) :
    w.txState.hash = w'.txState.hash ↔ proofLengthHashed (carried (openPackets inputs)) =
      proofLengthHashed (carried (openPackets inputs')) := by
  obtain ⟨first, rest, hps, hfirst, taken, hhash⟩ :=
    ((deploymentRules.run hgate hrun).review hl ho.1).hashed
  obtain ⟨first', rest', hps', hfirst', taken', hhash'⟩ :=
    ((deploymentRules.run hgate' hrun').review hl' ho'.1).hashed
  rw [hps, hps'] at hdata ⊢
  rw [hhash, hhash', proofLengthHashed_first hfirst, proofLengthHashed_first hfirst']
  exact parts_eq_iff taken taken' (List.cons.inj hdata).2

end Deployment

/-! ## Two runs -/

/-- A packet of a deployment. -/
def deploymentPacket (p1 p2 : UInt8) (data : Bytes) : Input :=
  .apdu ⟨insCredentialDeployment, p1, p2, data.take 255, take_data_le data⟩

open SignCredentialDeploymentContext in
/-- A deployment with one key, one revoker, no attributes and one byte of
    proofs; `p2` goes with the length of the proofs. -/
def deploymentInputs (p2 : UInt8) (identityProvider : ℕ) : List Input :=
  [deploymentPacket p1InitialPacket 0
      [5, 0, 0, 0, 44, 0, 0, 3, 151, 0, 0, 0, 0, 0, 0, 0, 0, 0, 0, 0, 0],
    deploymentPacket p1VerificationKeyLength 0 [1],
    deploymentPacket p1VerificationKey 0 (List.replicate 34 7),
    deploymentPacket p1SignatureThreshold 0
      (1 :: (List.replicate 48 9 ++ toBe 4 identityProvider ++ [1, 0, 1])),
    deploymentPacket p1ArIdentity 0 (List.replicate 100 3),
    deploymentPacket p1CredentialDates 0 [7, 231, 1, 7, 232, 1, 0, 0],
    deploymentPacket p1LengthOfProofs p2 [0, 0, 0, 1],
    deploymentPacket p1Proofs 0 [8],
    deploymentPacket p1NewOrExisting 0 (0 :: List.replicate 8 0)]

section Runs

/-- Both runs come to a review that can be signed, over different hashes. -/
theorem deploymentInputs_offered :
    letI : Platform := sdkDevice .nbgl
    ∃ w w', runInputs World.start (deploymentInputs 0 5) = some w ∧
      runInputs World.start (deploymentInputs 2 5) = some w' ∧
      (w.latch = some insCredentialDeployment ∧ w'.latch = some insCredentialDeployment) ∧
      OffersSigning w ∧ OffersSigning w' ∧ w.txState.hash ≠ w'.txState.hash := by
  let : Platform := sdkDevice .nbgl
  have hrun : ((runInputs World.start (deploymentInputs 0 5)).bind fun w =>
      (runInputs World.start (deploymentInputs 2 5)).map fun w' => (w, w')).any (fun ws =>
      decide ((ws.1.latch = some insCredentialDeployment ∧
        ws.2.latch = some insCredentialDeployment) ∧
        (ws.1.replyPending = true ∧ .buildAndSignTransactionHash ∈ ws.1.screen.actions) ∧
        (ws.2.replyPending = true ∧ .buildAndSignTransactionHash ∈ ws.2.screen.actions) ∧
        ws.1.txState.hash ≠ ws.2.txState.hash)) = true := by
    decide +kernel
  obtain ⟨⟨w, w'⟩, hws, hrun⟩ := (Option.any_eq_true _ _).mp hrun
  obtain ⟨v, hv, hws⟩ := Option.bind_eq_some_iff.mp hws
  obtain ⟨v', hv', hpair⟩ := Option.map_eq_some_iff.mp hws
  cases hpair
  obtain ⟨hl, ho, ho', hne⟩ := of_decide_eq_true hrun
  exact ⟨w, w', hv, hv', hl, ho, ho', hne⟩

theorem deploymentInputs_answered (p2 : UInt8) (hp2 : p2 = 0 ∨ p2 = 2) :
    letI : Platform := sdkDevice .nbgl
    Along Concordium.step Answers World.start (deploymentInputs p2 5) := by
  let : Platform := sdkDevice .nbgl
  rcases hp2 with rfl | rfl <;> decide +kernel

theorem deploymentInputs_data :
    letI : Platform := sdkDevice .nbgl
    (carried (openPackets (deploymentInputs 0 5))).map Command.data =
      (carried (openPackets (deploymentInputs 2 5))).map Command.data := by
  let : Platform := sdkDevice .nbgl
  decide +kernel

/-- The same data is hashed differently if `P2` of one packet differs. -/
theorem deployment_hash_differs :
    letI : Platform := sdkDevice .nbgl
    ∃ w w', runInputs World.start (deploymentInputs 0 5) = some w ∧
      runInputs World.start (deploymentInputs 2 5) = some w' ∧
      Along Concordium.step Answers World.start (deploymentInputs 0 5) ∧
      Along Concordium.step Answers World.start (deploymentInputs 2 5) ∧
      w.latch = some insCredentialDeployment ∧ w'.latch = some insCredentialDeployment ∧
      OffersSigning w ∧ OffersSigning w' ∧
      (carried (openPackets (deploymentInputs 0 5))).map Command.data =
        (carried (openPackets (deploymentInputs 2 5))).map Command.data ∧
      w.txState.hash ≠ w'.txState.hash := by
  obtain ⟨w, w', hrun, hrun', ⟨hl, hl'⟩, ho, ho', hne⟩ := deploymentInputs_offered
  exact ⟨w, w', hrun, hrun', deploymentInputs_answered 0 (.inl rfl),
    deploymentInputs_answered 2 (.inr rfl), hl, hl', ho, ho', deploymentInputs_data, hne⟩

/-- The two runs differ only in `P2` of the length of the proofs. -/
theorem deployment_hash_runs :
    letI : Platform := sdkDevice .nbgl
    ∃ w w', runInputs World.start (deploymentInputs 0 5) = some w ∧
      runInputs World.start (deploymentInputs 2 5) = some w' ∧
      (w.txState.hash = w'.txState.hash ↔
        proofLengthHashed (carried (openPackets (deploymentInputs 0 5))) =
          proofLengthHashed (carried (openPackets (deploymentInputs 2 5)))) := by
  let : Platform := sdkDevice .nbgl
  obtain ⟨w, w', hrun, hrun', ⟨hl, hl'⟩, ho, ho', -⟩ := deploymentInputs_offered
  exact ⟨w, w', hrun, hrun', deployment_hash (deploymentInputs_answered 0 (.inl rfl)) hrun hl ho
    (deploymentInputs_answered 2 (.inr rfl)) hrun' hl' ho' deploymentInputs_data⟩

end Runs

end Concordium
