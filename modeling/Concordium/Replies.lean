/-
  One reply for each request.

  A step of a flow that replies and leaves the flow on the screen breaks the
  turn-taking of requests and replies: whatever is activated next answers a
  second time.  Only the step-through flows of `display_bagl.c` have such
  steps, and in a run that activates none of them everything is in order.
-/
import Concordium.Safety

namespace Concordium

open Buffer Wp Runs

set_option synthInstance.maxSize 1000000
set_option synthInstance.maxHeartbeats 100000

variable [Platform]

/-! ## Steps that acknowledge -/

/-- The callbacks that reply and start no screen, given the state they find. -/
def Callback.acknowledges (w : World) : Callback → Prop
  | .sendSuccessNoIdle | .confirmConfigureBakerStage | .processNextVerificationKey
  | .confirmInitialScheduledTransfer => True
  | .confirmAttribute => (w.global.view SignCredentialDeploymentContext).attributeListLength ≠ 0
  | .confirmAddedCredential =>
    (w.global.view SignCredentialDeploymentContext).credentialDeploymentCount ≠ 0
  | .registerDataOnDataConfirm => 0 < (w.global.view (WithDataBlob SignRegisterData)).tx.dataLength
  | .processNextScheduledAmountContinue =>
    (w.global.view (WithDataBlob
      SignTransferWithScheduleContext)).tx.scheduledAmountsInCurrentPacket = 0
  | _ => False

/-- A step that replies and leaves its flow on the screen is activated. -/
def Acknowledges (w : World) : Input → Prop
  | .activate c => (Platform.backend : Backend) = .bagl ∧ c.acknowledges w
  | _ => False

instance {w : World} {c : Callback} : Decidable (c.acknowledges w) := by
  cases c <;> unfold Callback.acknowledges <;> infer_instance

instance {w : World} : (i : Input) → Decidable (Acknowledges w i)
  | .activate c => inferInstanceAs (Decidable (_ = _ ∧ c.acknowledges w))
  | .badLength | .badClass | .apdu _ => .isFalse id

omit [Platform] in
/-- Nothing is owed and no step of a review is left, or an answer is owed. -/
def Settled (w : World) : Prop := w.replyPending = false → ∀ c ∈ w.screen.actions, c.isIdle

/-- A program that ends on the idle screen, or in a review. -/
class EndsIdle (x : App Unit) : Prop where
  ends : ∀ s, s.replyPending = true → wp x (fun _ t => Settled t) (fun _ _ => True) s

section EndsIdle
variable {s : World}

instance {α : Type} {x : App α} {f : α → App Unit} [Frames Quiet x] [hf : ∀ v, EndsIdle (f v)] :
    EndsIdle (x >>= f) where
  ends s hp := by
    rw [wp_bind]
    exact wp_frames (R := Quiet) x (fun v t hst => (hf v).ends t (hst.replyPending.trans hp))
      fun _ _ _ => trivial

instance {c : Prop} [Decidable c] {x y : App Unit} [EndsIdle x] [EndsIdle y] :
    EndsIdle (if c then x else y) := by
  split_ifs <;> infer_instance

instance {rows : List Row} {actions : List Callback} : EndsIdle (showScreen rows actions) where
  ends s hp := by
    rw [wp_showScreen]
    exact fun hp' => absurd (hp.symm.trans hp') (by decide)

instance {data : Bytes} : EndsIdle (sendSuccess data) where
  ends s _ := by rw [wp_sendSuccess]; exact fun _ _ => isIdle_of_menuActions

instance : EndsIdle sendUserRejection where
  ends s _ := by rw [wp_sendUserRejection]; exact fun _ _ => isIdle_of_menuActions

instance : EndsIdle exportPrivateKey := by
  unfold exportPrivateKey exportPrivateKeySeed exportPrivateKeyBls; infer_instance

instance : EndsIdle rejectPrivateKeysNewPath := by unfold rejectPrivateKeysNewPath; infer_instance

instance : EndsIdle uiSignFlowSharedDisplay := by unfold uiSignFlowSharedDisplay; infer_instance

instance : EndsIdle uiSignScheduledTransferPairFlowSignDisplay := by
  unfold uiSignScheduledTransferPairFlowSignDisplay nbglSignReview nbglReview
  cases (Platform.backend : Backend) <;> infer_instance

instance : EndsIdle uiSignScheduledTransferPairFlowDisplay := by
  unfold uiSignScheduledTransferPairFlowDisplay nbglReview
  cases (Platform.backend : Backend) <;> infer_instance

omit [Platform] in
theorem settled_of_released {x : App Unit} {E : Exception → World → Prop}
    (h : wp x (fun _ t => Released s t) E s) : wp x (fun _ t => Settled t) (fun _ _ => True) s :=
  wp_mono (fun _ _ ht _ => ht.idle) (fun _ _ _ => trivial) h

theorem settled_uxRunGuarded {x : App Unit}
    (h : wp x (fun _ t => Settled t) (fun _ _ => True) s) :
    wp (uxRunGuarded x) (fun _ t => Settled t) (fun _ _ => True) s := by
  unfold uxRunGuarded
  rw [wp_catching]
  refine wp_mono (fun _ _ ht => ht) (fun e t _ => ⟨fun sw _ => ?_, fun _ => trivial⟩) h
  rw [wp_bind, wp_endFlow, wp_uiMenuMain]
  exact fun _ _ => isIdle_of_menuActions

end EndsIdle

/-- A callback that does not acknowledge ends on the idle screen, or in a
    review. -/
theorem runCallback_settled {s : World} {c : Callback} {ins : UInt8} (hc : c.isIdle = false)
    (hl : s.latch = some ins) (hp : s.replyPending = true) (ho : Owned ins s)
    (hlive : Live ins s ∨ Reviews.harmless.allows ins c) (hack : ¬ c.acknowledges s) :
    wp (runCallback c) (fun _ t => Settled t) (fun _ _ => True) s := by
  have live (hn : Reviews.harmless.allows ins c = false) : Live ins s :=
    hlive.resolve_right (by simp [hn])
  have ends (x : App Unit) [hx : EndsIdle x] := hx.ends s hp
  cases c with
  | uiMenuMain | uiMenuAbout | osSchedExit | reviewStatus => cases hc
  | sendSuccessNoIdle | confirmConfigureBakerStage | processNextVerificationKey
  | confirmInitialScheduledTransfer => exact absurd trivial hack
  | sendSuccess => exact ends (sendSuccess [])
  | sendUserRejection => exact ends sendUserRejection
  | rejectStagedReview =>
    exact settled_of_released (rejectStagedReview_released (E := fun _ _ => True))
  | buildAndSignTransactionHash =>
    exact settled_uxRunGuarded
      (settled_of_released (buildAndSignTransactionHash_released (live rfl)))
  | sendPublicKeyConfirm =>
    exact settled_uxRunGuarded (settled_of_released sendPublicKey_released)
  | exportPrivateKey => exact settled_uxRunGuarded (ends _)
  | sendPrivateKeysNewPath =>
    exact settled_uxRunGuarded (settled_of_released sendPrivateKeysNewPath_released)
  | rejectPrivateKeysNewPath => exact settled_uxRunGuarded (ends _)
  | confirmAttribute =>
    refine settled_uxRunGuarded ?_
    have hzero := of_not_not hack
    simp [confirmAttribute, hzero]
  | confirmAddedCredential =>
    refine settled_uxRunGuarded ?_
    have hzero := of_not_not hack
    simp [confirmAddedCredential, hzero]
  | registerDataOnDataConfirm =>
    change wp registerDataOnDataConfirm _ _ s
    unfold registerDataOnDataConfirm
    rw [wp_bind, wp_getCtx]
    exact wp_if (fun h => absurd h hack) fun _ => ends _
  | processNextScheduledAmountContinue =>
    refine settled_uxRunGuarded ?_
    unfold processNextScheduledAmount
    rw [wp_bind, wp_getCtx]
    exact wp_if (fun h => absurd h hack) fun _ => ends _
  | verifyAddressConfirm | verifyAddressReject =>
    exact settled_of_released (reviewStatus_released (E := fun _ _ => True) hl ho)

/-! ## Runs -/

section Runs
variable {w w' : World} {i : Input}

theorem Settled.answers (h : Settled w) (hs : step w i = some w') : Answers w i := by
  obtain ⟨he, -⟩ := step_eq_some.mp hs
  cases i with
  | activate c =>
    rcases Bool.eq_false_or_eq_true w.replyPending with hp | hp
    · exact .inr hp
    · exact .inl (h hp c (by simpa [enabled] using he))
  | _ => trivial

/-- A step that acknowledges nothing leaves the app settled. -/
theorem Settled.step (h : Settled w) (hw : Sound w) (hack : ¬ Acknowledges w i)
    (hs : Concordium.step w i = some w') : Settled w' := by
  obtain ⟨he, -⟩ := step_eq_some.mp hs
  have hans := h.answers hs
  refine of_step hs ?_
  cases i with
  | badLength | badClass =>
    simp only [runInput, deliver, ioSendSw, wp_bind, wp_modify, wp_record, wp_ioSendResponse]
    exact fun _ => h (by simpa [enabled] using he)
  | apdu cmd =>
    have hp : w.replyPending = false := by simpa [enabled] using he
    simp only [runInput, deliver, wp_bind, wp_modify, wp_record]
    refine wp_mono (fun _ t ht hp' => ?_) (fun _ _ _ => trivial)
      (runCommand_after rfl fun ins hl hi =>
      ((hw.owned ins hl).flow hi).imp_left fun hf => hf.append rfl rfl rfl rfl rfl rfl)
    rcases ht.screen hp' with hsame | hidle
    · rw [hsame]; exact h hp
    · exact hidle
  | activate c =>
    have hmem : c ∈ w.screen.actions := by simpa [enabled] using he
    change wp (activate c) _ _ w
    rw [wp_activate]
    rcases Bool.eq_false_or_eq_true w.replyPending with hp | hp
    · obtain ⟨hc, ins, hl, ho, hlive⟩ := hw.activated hp hmem
      have hglobal : c.acknowledges (w.activated c) ↔ c.acknowledges w := by cases c <;> rfl
      by_cases hb : (Platform.backend : Backend) = .bagl
      · exact runCallback_settled hc hl hp ho hlive fun ha => hack ⟨hb, hglobal.mp ha⟩
      · -- The page has been answered: its steps are gone.
        refine wp_mono (fun _ t ht hp' => ?_) (fun _ _ _ => trivial)
          (runCallback_after hc hl hp ho hlive)
        rcases ht.screen hp' with hsame | hidle
        · rw [hsame]
          simp only [World.activated, activatedScreen]
          cases hb' : (Platform.backend : Backend) <;> simp_all
        · exact hidle
    · have hc : c.isIdle := h hp c hmem
      have hshow (rows : List Row) :
          wp (showScreen rows [.uiMenuMain]) (fun _ t => Settled t) (fun _ _ => True)
            (w.activated c) := by
        rw [wp_showScreen]
        simp [Settled, World.screenOf, Callback.isIdle]
      cases c with
      | uiMenuMain =>
        change wp uiMenuMain _ _ _
        rw [wp_uiMenuMain]
        exact fun _ _ => isIdle_of_menuActions
      | uiMenuAbout => exact hshow []
      | reviewStatus => exact hshow []
      | osSchedExit => trivial
      | _ => cases hc

omit [Platform] in
/-- Requests and replies take turns, no step of a review is left when its
    request has been answered, and a sign step stands for the flow that is on
    the screen and open. -/
structure Orderly (w : World) : Prop where
  answered : exchange false w.log = some w.replyPending
  settled : Settled w
  signs : .buildAndSignTransactionHash ∈ w.screen.actions → ∃ ins, w.latch = some ins ∧
    w.screen.drawnBy = some ins ∧ w.screen.preimage = w.txState.hash ∧
    SigningFlow w.log ins w.derivationPath w.txState.hash

omit [Platform] in
theorem Sound.orderly (h : Sound w) (hs : Settled w) : Orderly w where
  answered := h.answered
  settled := hs
  signs hmem := by
    have hp : w.replyPending = true := by
      by_contra hp
      exact absurd (hs (by simpa using hp) _ hmem) (by decide)
    obtain ⟨ins, hrev⟩ := h.review hp
    rcases (h.owned ins hrev.latch).review hp with hf | hharm
    · exact ⟨ins, hrev.latch, hrev.drawnBy, hrev.preimage, hf.2⟩
    · exact absurd (hharm _ hmem) Bool.false_ne_true

theorem runCallback_acknowledges {s : World} {c : Callback} (hack : c.acknowledges s) :
    wp (runCallback c) (fun _ t => t.replyPending = false ∧ t.screen = s.screen)
      (fun _ _ => True) s := by
  cases c with
  | sendSuccessNoIdle => exact ⟨rfl, rfl⟩
  | confirmConfigureBakerStage =>
    simp [runCallback, uxRunGuarded, wp_catching, confirmConfigureBakerStage, sendSuccessNoIdle,
      sendSuccessResultNoIdle]
  | processNextVerificationKey =>
    simp [runCallback, uxRunGuarded, wp_catching, processNextVerificationKey, sendSuccessNoIdle,
      sendSuccessResultNoIdle]
  | confirmInitialScheduledTransfer =>
    simp [runCallback, uxRunGuarded, wp_catching, confirmInitialScheduledTransfer,
      sendSuccessNoIdle, sendSuccessResultNoIdle]
  | confirmAttribute =>
    have hne : (s.global.view SignCredentialDeploymentContext).attributeListLength ≠ 0 := hack
    simp [runCallback, uxRunGuarded, wp_catching, confirmAttribute, sendSuccessNoIdle,
      sendSuccessResultNoIdle, hne]
  | confirmAddedCredential =>
    have hne : (s.global.view SignCredentialDeploymentContext).credentialDeploymentCount ≠ 0 :=
      hack
    simp [runCallback, uxRunGuarded, wp_catching, confirmAddedCredential, sendSuccessNoIdle,
      sendSuccessResultNoIdle, hne]
    split_ifs <;> simp
  | registerDataOnDataConfirm =>
    have hne : 0 < (s.global.view (WithDataBlob SignRegisterData)).tx.dataLength := hack
    simp [runCallback, registerDataOnDataConfirm, sendSuccessNoIdle, sendSuccessResultNoIdle, hne]
  | processNextScheduledAmountContinue =>
    have hzero : (s.global.view (WithDataBlob
      SignTransferWithScheduleContext)).tx.scheduledAmountsInCurrentPacket = 0 := hack
    simp [runCallback, uxRunGuarded, wp_catching, processNextScheduledAmount, sendSuccessNoIdle,
      sendSuccessResultNoIdle, hzero]
  | _ => cases hack

/-- An acknowledging step has replied, and its flow is still there. -/
theorem not_settled_of_acknowledges (hack : Acknowledges w i)
    (hs : Concordium.step w i = some w') : ¬ Settled w' := by
  obtain ⟨he, -⟩ := step_eq_some.mp hs
  cases i with
  | activate c =>
    obtain ⟨hb, hc⟩ := hack
    have hmem : c ∈ w.screen.actions := by simpa [enabled] using he
    have hidle : c.isIdle = false := by cases c <;> first | rfl | cases hc
    have hscreen : (w.activated c).screen = w.screen := by
      simp [World.activated, activatedScreen, hb]
    have hglobal : c.acknowledges (w.activated c) := by cases c <;> exact hc
    refine of_step (P := fun t => ¬ Settled t) hs ?_
    change wp (activate c) _ _ w
    rw [wp_activate]
    refine wp_mono (fun _ t ht hset => ?_) (fun _ _ _ => trivial)
      (runCallback_acknowledges hglobal)
    have := hset ht.1 c (by rw [ht.2, hscreen]; exact hmem)
    rw [hidle] at this
    cases this
  | _ => cases hack

theorem settled_start : Settled World.start := fun _ _ => isIdle_of_menuActions

/-- A run is orderly throughout exactly when it activates no step that
    acknowledges. -/
theorem orderly_iff {inputs : List Input} (hrun : runInputs World.start inputs = some w) :
    (∀ is js u, inputs = is ++ js → runInputs World.start is = some u → Orderly u) ↔
      Along Concordium.step (fun w i => ¬ Acknowledges w i) World.start inputs := by
  constructor
  · intro h
    refine along_iff.mpr fun js i ks u heq hu hack => ?_
    have hsplit : runInputs World.start (js ++ i :: ks) = some w := heq ▸ hrun
    rw [runInputs, run_append] at hsplit
    obtain ⟨v, hv, hrest⟩ := Option.bind_eq_some_iff.mp hsplit
    obtain rfl := Option.some.inj (hu.symm.trans hv)
    obtain ⟨x, hx, -⟩ := Option.bind_eq_some_iff.mp hrest
    refine not_settled_of_acknowledges hack hx (h (js ++ [i]) ks x (by simp [heq]) ?_).settled
    exact run_snoc.mpr ⟨u, hu, hx⟩
  · rintro h is js u rfl hu
    have hstep : ∀ v i x, Sound v ∧ Settled v → ¬ Acknowledges v i →
        Concordium.step v i = some x → Sound x ∧ Settled x := fun v i x ⟨hv, hset⟩ hack hx =>
      ⟨hv.step (hset.answers hx) hx, hset.step hv hack hx⟩
    have hinv := run_invariant hstep ⟨Sound.start, settled_start⟩ (along_append.mp h).1 hu
    exact hinv.1.orderly hinv.2

end Runs

/-! ## A sign step that outlives its flow -/

/-- An identity of one key on the navigable screen: the review is acknowledged,
    and the host starts a transfer with memo while it is still drawn. -/
def staleSignInputs : List Input :=
  [.apdu ⟨insPublicInfoForIp, 0, 0, [1, 0, 0, 4, 0x51] ++ List.replicate 96 7 ++ [1], by decide⟩,
    .apdu ⟨insPublicInfoForIp, 1, 0, [0, 0] ++ List.replicate 32 9, by decide⟩,
    .apdu ⟨insPublicInfoForIp, 2, 0, [1], by decide⟩,
    .activate .sendSuccessNoIdle,
    .apdu ⟨insSignTransferWithMemo, 0, 0, [], no_data_le⟩,
    .apdu memoTransferStart]

omit [Platform] in
/-- The sign step of the identity review is still there, and signs what the
    host has sent of the transfer. -/
theorem orderly_fails_stale_sign :
    letI : Platform := device .bagl
    ¬ ∀ inputs w, runInputs World.start inputs = some w → Orderly w := by
  let : Platform := device .bagl
  have hrun : (runInputs World.start staleSignInputs).any (fun w =>
      decide (w.latch = some insSignTransferWithMemo ∧
        w.screen.drawnBy = some insPublicInfoForIp ∧
        .buildAndSignTransactionHash ∈ w.screen.actions) &&
      (step w (.activate .buildAndSignTransactionHash)).any fun u =>
        u.log.any Event.isSigned && exchange false u.log == none) = true := by decide +kernel
  intro h
  obtain ⟨w, hw, hcheck⟩ := (Option.any_eq_true _ _).mp hrun
  simp only [Bool.and_eq_true, decide_eq_true_eq] at hcheck
  obtain ⟨⟨hlatch, hdrawn, hmem⟩, -⟩ := hcheck
  obtain ⟨ins, hl, hd, -⟩ := (h _ w hw).signs hmem
  have hsame : insSignTransferWithMemo = insPublicInfoForIp :=
    Option.some.inj (hlatch.symm.trans (hl.trans (hd.symm.trans hdrawn)))
  exact absurd hsame (by decide)

/-- The same identity of one key, approved without acknowledging it first. -/
def identityInputs : List Input :=
  [.apdu ⟨insPublicInfoForIp, 0, 0, [1, 0, 0, 4, 0x51] ++ List.replicate 96 7 ++ [1], by decide⟩,
    .apdu ⟨insPublicInfoForIp, 1, 0, [0, 0] ++ List.replicate 32 9, by decide⟩,
    .apdu ⟨insPublicInfoForIp, 2, 0, [1], by decide⟩,
    .activate .buildAndSignTransactionHash]

omit [Platform] in
theorem identity_acknowledges_nothing :
    letI : Platform := device .bagl
    Along step (fun w i => ¬ Acknowledges w i) World.start identityInputs := by
  decide +kernel

omit [Platform] in
theorem orderly_identity :
    letI : Platform := device .bagl
    ∃ w, runInputs World.start identityInputs = some w ∧ w.log.any Event.isSigned = true ∧
      ∀ is js u, identityInputs = is ++ js → runInputs World.start is = some u → Orderly u := by
  let : Platform := device .bagl
  have hrun : (runInputs World.start identityInputs).any (fun w => w.log.any Event.isSigned) =
    true := by decide +kernel
  obtain ⟨w, hw, hsigned⟩ := (Option.any_eq_true _ _).mp hrun
  exact ⟨w, hw, hsigned, (orderly_iff hw).mpr identity_acknowledges_nothing⟩

end Concordium
