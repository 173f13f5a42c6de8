/-
  The signing instructions keep to their flow.

  Whatever packet arrives, a signing instruction answers once or shows one
  review, and it keeps the latch only while its flow is open.  The packets are
  walked through by instance search; what is left by hand is that a flow whose
  context is still zeroed accepts no packet but the one that opens it.
-/
import Concordium.Outcome

namespace Concordium

open Buffer Wp

set_option synthInstance.maxSize 1000000
set_option synthInstance.maxHeartbeats 100000

variable [Platform] {a : Stage}

/-! ## Reviews -/

instance [Open a] {rows : List Row} {first more : Bool} :
    Handles .staged a (bakerReview rows first more) := by
  unfold bakerReview signFlowShared
  cases more <;> cases (Platform.backend : Backend) <;> infer_instance

instance [Open a] : Handles .staged a startConfigureBakerDisplay := by
  unfold startConfigureBakerDisplay; infer_instance

instance [Open a] {last : Bool} : Handles .staged a (startConfigureBakerUrlDisplay last) := by
  unfold startConfigureBakerUrlDisplay; infer_instance

instance [Open a] : Handles .staged a startConfigureBakerCommissionDisplay := by
  unfold startConfigureBakerCommissionDisplay; infer_instance

instance [Open a] : Handles .staged a startConfigureBakerSuspendedDisplay := by
  unfold startConfigureBakerSuspendedDisplay; infer_instance

instance [Open a] : Handles .signing a startConfigureDelegationDisplay := by
  unfold startConfigureDelegationDisplay signFlowShared
  cases (Platform.backend : Backend) <;> infer_instance


instance [Open a] {displayMemo : Bool} : Handles .signing a (startTransferDisplay displayMemo) := by
  unfold startTransferDisplay signFlowShared
  cases (Platform.backend : Backend) <;> infer_instance

instance [Open a] : Handles .signing a uiSignTransferToPublicDisplay := by
  unfold uiSignTransferToPublicDisplay signFlowShared
  cases (Platform.backend : Backend) <;> infer_instance

instance [Open a] : Handles .signing a uiDeployModuleDisplay := by
  unfold uiDeployModuleDisplay signFlowShared
  cases (Platform.backend : Backend) <;> infer_instance

instance [Open a] : Handles .signing a uiInitContractDisplay := by
  unfold uiInitContractDisplay signFlowShared
  cases (Platform.backend : Backend) <;> infer_instance

instance [Open a] : Handles .signing a uiUpdateContractDisplay := by
  unfold uiUpdateContractDisplay signFlowShared
  cases (Platform.backend : Backend) <;> infer_instance

instance [Open a] : Handles .signing a startPltDisplay := by
  unfold startPltDisplay signFlowShared
  cases (Platform.backend : Backend) <;> infer_instance

instance [Open a] : Handles .signing a uiSignFlowSharedDisplay := by
  unfold uiSignFlowSharedDisplay signFlowShared; infer_instance

instance [Open a] : Handles .signing a uiRegisterDataInitialDisplay := by
  unfold uiRegisterDataInitialDisplay
  cases (Platform.backend : Backend) <;> infer_instance

instance [Open a] : Handles .signing a uiRegisterDataPayloadDisplay := by
  unfold uiRegisterDataPayloadDisplay
  cases (Platform.backend : Backend) <;> infer_instance

instance [Open a] {displayMemo : Bool} :
    Handles .staged a (startInitialScheduledTransferDisplay displayMemo) := by
  unfold startInitialScheduledTransferDisplay
  cases (Platform.backend : Backend) <;> infer_instance

instance [Open a] : Handles .staged a uiSignScheduledTransferPairFlowDisplay := by
  unfold uiSignScheduledTransferPairFlowDisplay
  cases (Platform.backend : Backend) <;> infer_instance

instance [Open a] : Handles .staged a uiSignScheduledTransferPairFlowSignDisplay := by
  unfold uiSignScheduledTransferPairFlowSignDisplay signFlowShared
  cases (Platform.backend : Backend) <;> infer_instance

instance [Open a] : Handles .staged a uiSignUpdateCredentialInitialDisplay := by
  unfold uiSignUpdateCredentialInitialDisplay
  cases (Platform.backend : Backend) <;> infer_instance

instance [Open a] : Handles .staged a uiSignUpdateCredentialIdDisplay := by
  unfold uiSignUpdateCredentialIdDisplay
  cases (Platform.backend : Backend) <;> infer_instance

instance [Open a] : Handles .staged a uiSignUpdateCredentialThresholdDisplay := by
  unfold uiSignUpdateCredentialThresholdDisplay signFlowShared
  cases (Platform.backend : Backend) <;> infer_instance

instance [Open a] : Handles .staged a uiSignUpdateCredentialAddedCredentialDisplay := by
  unfold uiSignUpdateCredentialAddedCredentialDisplay
  cases (Platform.backend : Backend) <;> infer_instance

instance [Open a] : Handles .staged a uiSignCredentialDeploymentAttributeDisplay := by
  unfold uiSignCredentialDeploymentAttributeDisplay
  cases (Platform.backend : Backend) <;> infer_instance

instance [Open a] {intro : Bool} : Handles .staged a (uiVerificationKeyDisplay intro) := by
  unfold uiVerificationKeyDisplay
  cases (Platform.backend : Backend) <;> infer_instance

instance [Open a] {existing intro : Bool} :
    Handles .staged a (uiCredentialDeploymentFinal existing intro) := by
  unfold uiCredentialDeploymentFinal signFlowShared
  cases intro <;> cases (Platform.backend : Backend) <;> infer_instance

instance [Open a] {complete : Bool} : Handles .signing a (uiPublicInformationSign complete) := by
  unfold uiPublicInformationSign signFlowShared
  cases (Platform.backend : Backend) <;> infer_instance

instance [Open a] {intro : Bool} : Handles .signing a (uiPublicInformationContinue intro) := by
  unfold uiPublicInformationContinue
  cases (Platform.backend : Backend) <;> infer_instance

/-! ## Packets of the baker and delegation flows -/

instance {cmd : Command} : Handles .staged .ready (bakerInitial cmd) := by
  unfold bakerInitial; infer_instance

instance {cmd : Command} : Handles .staged .entry (bakerInitial cmd) := by
  unfold bakerInitial; infer_instance

instance {cmd : Command} : Handles .staged .entry (bakerFirst cmd) := by
  unfold bakerFirst; infer_instance

instance {cmd : Command} : Handles .staged .entry (bakerAggregationKey cmd) := by
  unfold bakerAggregationKey; infer_instance

instance {cmd : Command} : Handles .staged .entry (bakerUrlLength cmd) := by
  unfold bakerUrlLength; infer_instance

instance {cmd : Command} : Handles .staged .entry (bakerUrl cmd) := by
  unfold bakerUrl; infer_instance

instance {cdata : Bytes} : Handles .staged .entry (handleCommissionRates cdata) := by
  unfold handleCommissionRates; infer_instance

instance {cmd : Command} : Handles .staged .entry (bakerSuspended cmd) := by
  unfold bakerSuspended; infer_instance

instance {cmd : Command} {isInitialCall : Bool} :
    Handles .staged .entry (handleSignConfigureBaker cmd isInitialCall) := by
  unfold handleSignConfigureBaker
  cases isInitialCall <;> infer_instance

instance {cmd : Command} {isInitialCall : Bool} :
    Handles .signing .ready (handleSignConfigureDelegation cmd isInitialCall) := by
  unfold handleSignConfigureDelegation; infer_instance

instance {cmd : Command} {isInitialCall : Bool} :
    Handles .signing .entry (handleSignConfigureDelegation cmd isInitialCall) := by
  unfold handleSignConfigureDelegation; infer_instance

/-! ## Packets of the transfer flows -/

instance {cmd : Command} : Handles .signing .ready (handleSignTransfer cmd) := by
  unfold handleSignTransfer; infer_instance

instance {cmd : Command} : Handles .signing .entry (handleSignTransfer cmd) := by
  unfold handleSignTransfer; infer_instance

instance [Open a] : Handles .signing a finishTransferMemo := by
  unfold finishTransferMemo; infer_instance

instance {cmd : Command} : Handles .signing .ready (transferMemoInitial cmd) := by
  unfold transferMemoInitial; infer_instance

instance {cmd : Command} : Handles .signing .entry (transferMemoInitial cmd) := by
  unfold transferMemoInitial; infer_instance

instance {cmd : Command} {readCbor : CborContext → Bytes → App (UInt16 × CborContext)}
    [∀ ctx cdata, Frames Eq (readCbor ctx cdata)] :
    Handles .signing .entry (transferMemoPacket cmd readCbor) := by
  unfold transferMemoPacket; infer_instance

instance {cmd : Command} : Handles .signing .entry (transferMemoAmount cmd) := by
  unfold transferMemoAmount; infer_instance

instance {cmd : Command} {isInitialCall : Bool} :
    Handles .signing .entry (handleSignTransferWithMemo cmd isInitialCall) := by
  unfold handleSignTransferWithMemo
  cases isInitialCall <;> infer_instance

instance {cmd : Command} : Handles .signing .ready (transferToPublicInitial cmd) := by
  unfold transferToPublicInitial; infer_instance

instance {cmd : Command} : Handles .signing .entry (transferToPublicInitial cmd) := by
  unfold transferToPublicInitial; infer_instance

instance {cmd : Command} : Handles .signing .entry (transferToPublicRemainingAmount cmd) := by
  unfold transferToPublicRemainingAmount
  -- The text of the recipient is matched on in the middle of the packet.
  iterate 13 refine @handles_bind _ .entry .entry _ _ _ inferInstance fun _ => ?_
  infer_instance

instance {cmd : Command} : Handles .signing .entry (transferToPublicProof cmd) := by
  unfold transferToPublicProof; infer_instance

instance {cmd : Command} {isInitialCall : Bool} :
    Handles .signing .entry (handleSignTransferToPublic cmd isInitialCall) := by
  unfold handleSignTransferToPublic
  cases isInitialCall <;> infer_instance

instance {cmd : Command} : Handles .signing .ready (registerDataInitial cmd) := by
  unfold registerDataInitial; infer_instance

instance {cmd : Command} : Handles .signing .entry (registerDataInitial cmd) := by
  unfold registerDataInitial; infer_instance

instance {cmd : Command} : Handles .signing .entry (registerDataData cmd) := by
  unfold registerDataData; infer_instance

instance {cmd : Command} {isInitialCall : Bool} :
    Handles .signing .entry (handleSignRegisterData cmd isInitialCall) := by
  unfold handleSignRegisterData
  cases isInitialCall <;> infer_instance

/-! ## Packets of the schedule flows -/

instance [Open a] : Handles .staged a processNextScheduledAmount := by
  unfold processNextScheduledAmount; infer_instance

instance [Open a] {cdata : Bytes} : Handles .staged a (handleTransferPairs cdata) := by
  unfold handleTransferPairs; infer_instance

instance {cmd : Command} : Handles .staged .entry (schedulePairsPacket cmd) := by
  unfold schedulePairsPacket; infer_instance

instance {cmd : Command} : Handles .staged .ready (scheduleInitial cmd) := by
  unfold scheduleInitial; infer_instance

instance {cmd : Command} : Handles .staged .entry (scheduleInitial cmd) := by
  unfold scheduleInitial; infer_instance

instance {cmd : Command} {isInitialCall : Bool} :
    Handles .staged .entry (handleSignTransferWithSchedule cmd isInitialCall) := by
  unfold handleSignTransferWithSchedule; infer_instance

instance {cmd : Command} : Handles .staged .ready (scheduleMemoInitial cmd) := by
  unfold scheduleMemoInitial; infer_instance

instance {cmd : Command} : Handles .staged .entry (scheduleMemoInitial cmd) := by
  unfold scheduleMemoInitial; infer_instance

instance [Open a] : Handles .staged a finishMemoScheduled := by
  unfold finishMemoScheduled; infer_instance

instance {cmd : Command} {readCbor : CborContext → Bytes → App (UInt16 × CborContext)}
    [∀ ctx cdata, Frames Eq (readCbor ctx cdata)] :
    Handles .staged .entry (scheduleMemoPacket cmd readCbor) := by
  unfold scheduleMemoPacket; infer_instance

instance {cmd : Command} {isInitialCall : Bool} :
    Handles .staged .entry (handleSignTransferWithScheduleAndMemo cmd isInitialCall) := by
  unfold handleSignTransferWithScheduleAndMemo; infer_instance

/-! ## Packets of the module and contract flows -/

instance {cmd : Command} : Handles .signing .ready (deployModuleInitial cmd) := by
  unfold deployModuleInitial; infer_instance

instance {cmd : Command} : Handles .signing .entry (deployModuleInitial cmd) := by
  unfold deployModuleInitial; infer_instance

instance {cmd : Command} : Handles .signing .entry (deployModuleSource cmd) := by
  unfold deployModuleSource; infer_instance

instance {cmd : Command} {isInitialCall : Bool} :
    Handles .signing .entry (handleDeployModule cmd isInitialCall) := by
  unfold handleDeployModule; infer_instance

instance {stream : ContractStream} {setStream : ContractStream → App Unit} {cdata : Bytes}
    [∀ stream, Frames Calm (setStream stream)] :
    Handles .signing .entry (contractNamePacket stream setStream cdata) := by
  unfold contractNamePacket; infer_instance

instance {stream : ContractStream} {setStream : ContractStream → App Unit} {display : App Unit}
    {cdata : Bytes} [∀ stream, Frames Calm (setStream stream)] [Handles .signing .entry display] :
    Handles .signing .entry (contractParamsPacket stream setStream display cdata) := by
  unfold contractParamsPacket; infer_instance

instance {cmd : Command} : Handles .signing .ready (initContractInitial cmd) := by
  unfold initContractInitial; infer_instance

instance {cmd : Command} : Handles .signing .entry (initContractInitial cmd) := by
  unfold initContractInitial; infer_instance

instance {cmd : Command} {isInitialCall : Bool} :
    Handles .signing .entry (handleInitContract cmd isInitialCall) := by
  unfold handleInitContract; infer_instance

instance {cmd : Command} : Handles .signing .ready (updateContractInitial cmd) := by
  unfold updateContractInitial; infer_instance

instance {cmd : Command} : Handles .signing .entry (updateContractInitial cmd) := by
  unfold updateContractInitial; infer_instance

instance {cmd : Command} {isInitialCall : Bool} :
    Handles .signing .entry (handleUpdateContract cmd isInitialCall) := by
  unfold handleUpdateContract; infer_instance

/-! ## Packets of the identity and credential flows -/

instance {cmd : Command} : Handles .signing .ready (publicInfoInitial cmd) := by
  unfold publicInfoInitial; infer_instance

instance {cmd : Command} : Handles .signing .entry (publicInfoInitial cmd) := by
  unfold publicInfoInitial; infer_instance

instance {cmd : Command} : Handles .signing .entry (publicInfoVerificationKey cmd) := by
  unfold publicInfoVerificationKey uiReviewPublicInformationForIpDisplay
    uiSignPublicInformationForIpPublicKeyDisplay
  infer_instance

instance {cmd : Command} : Handles .signing .entry (publicInfoThreshold cmd) := by
  unfold publicInfoThreshold uiSignPublicInformationForIpCompleteDisplay
    uiSignPublicInformationForIpFinalDisplay
  infer_instance

instance {cmd : Command} {isInitialCall : Bool} :
    Handles .signing .entry (handleSignPublicInformationForIp cmd isInitialCall) := by
  unfold handleSignPublicInformationForIp
  cases isInitialCall <;> infer_instance

instance {cmd : Command} : Handles .staged .ready (credentialInitial cmd) := by
  unfold credentialInitial; infer_instance

instance {cmd : Command} : Handles .staged .entry (credentialInitial cmd) := by
  unfold credentialInitial; infer_instance

instance {cmd : Command} : Handles .staged .entry (credentialVerificationKeyLength cmd) := by
  unfold credentialVerificationKeyLength; infer_instance

instance {cmd : Command} : Handles .staged .entry (credentialVerificationKey cmd) := by
  unfold credentialVerificationKey uiSignCredentialDeploymentVerificationKeyDisplay
    uiSignCredentialDeploymentVerificationKeyFlowDisplay
  infer_instance

instance {cmd : Command} : Handles .staged .entry (credentialSignatureThreshold cmd) := by
  unfold credentialSignatureThreshold; infer_instance

instance {cmd : Command} : Handles .staged .entry (credentialArIdentity cmd) := by
  unfold credentialArIdentity; infer_instance

instance {cmd : Command} : Handles .staged .entry (credentialDates cmd) := by
  unfold credentialDates; infer_instance

instance {cmd : Command} : Handles .staged .entry (credentialAttributeTag cmd) := by
  unfold credentialAttributeTag; infer_instance

instance {cmd : Command} : Handles .staged .entry (credentialAttributeValue cmd) := by
  unfold credentialAttributeValue; infer_instance

instance {cmd : Command} : Handles .staged .entry (credentialLengthOfProofs cmd) := by
  unfold credentialLengthOfProofs; infer_instance

instance {cmd : Command} : Handles .staged .entry (credentialProofs cmd) := by
  unfold credentialProofs; infer_instance

instance {cmd : Command} : Handles .staged .entry (credentialNewOrExisting cmd) := by
  unfold credentialNewOrExisting uiSignCredentialDeploymentNewIntroDisplay
    uiSignCredentialDeploymentNewDisplay uiSignCredentialDeploymentExistingIntroDisplay
    uiSignCredentialDeploymentExistingDisplay
  infer_instance

instance {cmd : Command} {isInitialCall : Bool} :
    Handles .staged .entry (handleSignCredentialDeployment cmd isInitialCall) := by
  unfold handleSignCredentialDeployment
  cases isInitialCall <;> infer_instance

instance {cmd : Command} : Handles .staged .ready (updateCredentialInitial cmd) := by
  unfold updateCredentialInitial; infer_instance

instance {cmd : Command} : Handles .staged .entry (updateCredentialInitial cmd) := by
  unfold updateCredentialInitial; infer_instance

instance {cmd : Command} : Handles .staged .entry (updateCredentialIndex cmd) := by
  unfold updateCredentialIndex; infer_instance

instance {cmd : Command} : Handles .staged .entry (updateCredentialIdCount cmd) := by
  unfold updateCredentialIdCount; infer_instance

instance {cmd : Command} : Handles .staged .entry (updateCredentialId cmd) := by
  unfold updateCredentialId; infer_instance

instance {cmd : Command} : Handles .staged .entry (updateCredentialThreshold cmd) := by
  unfold updateCredentialThreshold; infer_instance

instance {cmd : Command} {isInitialCall : Bool} :
    Handles .staged .entry (handleSignUpdateCredential cmd isInitialCall) := by
  unfold handleSignUpdateCredential
  cases isInitialCall <;> infer_instance

/-! ## Packets of the PLT flow -/

instance {sw : UInt16} : Handles .signing a (pltRefuse sw) := by
  unfold pltRefuse; infer_instance

instance [Open a] {cmd : Command} {cdata : Bytes} : Handles .signing a (pltInitBody cmd cdata) := by
  unfold pltInitBody; infer_instance

instance {cmd : Command} : Handles .signing .ready (pltInit cmd) := by
  unfold pltInit; infer_instance

instance {cmd : Command} : Handles .signing .entry (pltInit cmd) := by
  unfold pltInit; infer_instance

instance [Open a] {ctx : SignPltContext} : Handles .signing a (pltReview ctx) := by
  unfold pltReview; split <;> infer_instance

instance {cmd : Command} : Handles .signing .entry (pltCont cmd) := by
  unfold pltCont; infer_instance

instance {cmd : Command} {isInitialCall : Bool} :
    Handles .signing .entry (handleSignPlt cmd isInitialCall) := by
  unfold handleSignPlt
  cases isInitialCall <;> infer_instance

/-! ## Confirmations -/

instance [Open a] : Handles .staged a confirmConfigureBakerStage := by
  unfold confirmConfigureBakerStage; infer_instance

instance [Open a] : Handles .staged a processNextVerificationKey := by
  unfold processNextVerificationKey; infer_instance

instance [Open a] : Handles .staged a confirmAttribute := by
  unfold confirmAttribute; infer_instance

instance [Open a] : Handles .staged a confirmAddedCredential := by
  unfold confirmAddedCredential; infer_instance

instance [Open a] : Handles .staged a confirmInitialScheduledTransfer := by
  unfold confirmInitialScheduledTransfer; infer_instance

instance [Open a] : Handles .signing a registerDataOnDataConfirm := by
  unfold registerDataOnDataConfirm; infer_instance

/-! ## Packets on a zeroed context -/

/-- A flow whose context is zeroed is opened by the packet, or ends. -/
def Opens (k : Reviews) (x : App Unit) : Prop :=
  ∀ ins s, Stage.ready.Holds ins s → s.global = .zeroed → s.replyPending = true →
    wp x (fun _ t => Outcome k (Live ins) ins s t) (Thrown s) s

section Opens
variable {cmd : Command}

omit [Platform] in
theorem Handles.after {k : Reviews} {x : App Unit} [hx : Handles k a x] {ins : UInt8}
    {s t : World} (h : a.Holds ins s) (hp : s.replyPending = true) (hst : Calm s t) :
    wp x (fun _ u => Outcome k (Live ins) ins s u) (Thrown s) t := by
  refine wp_mono (fun _ u hu => hu.of_quiet hst.inner.quiet)
    (fun _ _ hu => hu.of_quiet hst.inner.quiet) (hx.handles ins t (h.calm hst) ?_)
  rw [hst.replyPending, hp]

omit [Platform] in
theorem Calm.thrown {s t : World} (h : Calm s t) {e : Exception} : Thrown s e t :=
  fun _ _ => h.inner.quiet

omit [Platform] in
theorem calm_global {s : World} {g : InstructionContext} : Calm s { s with global := g } :=
  ⟨{}, rfl, [], by simp⟩

omit [Platform] in
theorem Handles.opens {k : Reviews} {x : App Unit} [hx : Handles k .ready x] : Opens k x :=
  fun ins s h _ hp => hx.handles ins s h hp

/-! A zeroed context is in no state that continues a flow. -/

omit [Platform] in
@[simp] theorem default_transfer_state :
    (default : WithDataBlob SignTransferContext).tx.state = .unset := rfl

omit [Platform] in
@[simp] theorem default_schedule_state :
    (default : WithDataBlob SignTransferWithScheduleContext).tx.state = .unset := rfl

omit [Platform] in
@[simp] theorem default_registerData_dataLength :
    (default : WithDataBlob SignRegisterData).tx.dataLength = 0 := rfl

omit [Platform] in
@[simp] theorem default_registerData_state :
    (default : WithDataBlob SignRegisterData).tx.state = .unset := rfl

omit [Platform] in
@[simp] theorem default_transferToPublic_state :
    (default : SignTransferToPublic).state = .unset := rfl

omit [Platform] in
@[simp] theorem default_publicInfo_state :
    (default : SignPublicInformationForIp).state = .unset := rfl

omit [Platform] in
@[simp] theorem default_baker_state : (default : SignConfigureBaker).state = .unset := rfl

omit [Platform] in
@[simp] theorem default_credential_state :
    (default : SignCredentialDeploymentContext).state = .unset := rfl

omit [Platform] in
@[simp] theorem default_credential_updateState :
    (default : SignCredentialDeploymentContext).updateCredentialState = .initial := rfl

omit [Platform] in
@[simp] theorem default_credential_keys :
    (default : SignCredentialDeploymentContext).numberOfVerificationKeys = 0 := rfl

omit [Platform] in
@[simp] theorem default_deployModule_remaining :
    (default : DeployModule).remainingSourceLength = 0 := rfl

omit [Platform] in
@[simp] theorem default_plt_state : (default : SignPltContext).state = .unset := rfl

theorem opens_signTransfer : Opens .signing (handleSignTransfer cmd) := Handles.opens

theorem opens_signConfigureDelegation (isInitialCall : Bool) :
    Opens .signing (handleSignConfigureDelegation cmd isInitialCall) := Handles.opens

theorem opens_signTransferWithMemo (isInitialCall : Bool) :
    Opens .signing (handleSignTransferWithMemo cmd isInitialCall) := by
  intro ins s h hg hp
  unfold handleSignTransferWithMemo
  cases isInitialCall
  · simpa [hg] using (refl_of Calm s).thrown
  · simp [hg, wp_ite]
    exact ⟨fun _ => Handles.after h hp calm_global, fun _ => calm_global.thrown⟩

theorem opens_signTransferToPublic (isInitialCall : Bool) :
    Opens .signing (handleSignTransferToPublic cmd isInitialCall) := by
  intro ins s h hg hp
  unfold handleSignTransferToPublic
  cases isInitialCall
  · simpa [hg] using (refl_of Calm s).thrown
  · simp [hg, wp_ite]
    exact ⟨fun _ => Handles.after h hp calm_global, fun _ => calm_global.thrown⟩

theorem opens_signTransferWithSchedule (isInitialCall : Bool) :
    Opens .staged (handleSignTransferWithSchedule cmd isInitialCall) := by
  intro ins s h hg hp
  unfold handleSignTransferWithSchedule scheduleStart
  cases isInitialCall
  · simpa [hg] using (refl_of Calm s).thrown
  · simp [hg, wp_ite]
    exact ⟨fun _ => Handles.after h hp calm_global, fun _ => calm_global.thrown⟩

theorem opens_signTransferWithScheduleAndMemo (isInitialCall : Bool) :
    Opens .staged (handleSignTransferWithScheduleAndMemo cmd isInitialCall) := by
  intro ins s h hg hp
  unfold handleSignTransferWithScheduleAndMemo scheduleStart
  cases isInitialCall
  · simpa [hg] using (refl_of Calm s).thrown
  · simp [hg, wp_ite]
    exact ⟨fun _ => Handles.after h hp calm_global, fun _ => calm_global.thrown⟩

theorem opens_signConfigureBaker (isInitialCall : Bool) :
    Opens .staged (handleSignConfigureBaker cmd isInitialCall) := by
  intro ins s h hg hp
  unfold handleSignConfigureBaker
  cases isInitialCall
  · simpa [hg] using (refl_of Calm s).thrown
  · simp [hg, wp_ite]
    exact ⟨fun _ => Handles.after h hp calm_global, fun _ => calm_global.thrown⟩

theorem opens_signPublicInformationForIp (isInitialCall : Bool) :
    Opens .signing (handleSignPublicInformationForIp cmd isInitialCall) := by
  intro ins s h hg hp
  unfold handleSignPublicInformationForIp
  cases isInitialCall
  · simpa [hg] using (refl_of Calm s).thrown
  · simp [hg, wp_ite]
    exact ⟨fun _ => Handles.after h hp calm_global, fun _ => calm_global.thrown⟩

theorem opens_signRegisterData (isInitialCall : Bool) (hlc : 0 < cmd.data.length) :
    Opens .signing (handleSignRegisterData cmd isInitialCall) := by
  intro ins s h hg hp
  unfold handleSignRegisterData registerDataData
  cases isInitialCall
  · simp [hg, wp_ite, hlc]
    exact ⟨fun _ => (refl_of Calm s).thrown, fun _ => (refl_of Calm s).thrown⟩
  · simp [hg, wp_ite, hlc]
    exact ⟨fun _ => Handles.after h hp calm_global, fun _ =>
      ⟨fun _ => calm_global.thrown, fun _ => calm_global.thrown⟩⟩

theorem opens_signCredentialDeployment (isInitialCall : Bool) :
    Opens .staged (handleSignCredentialDeployment cmd isInitialCall) := by
  intro ins s h hg hp
  unfold handleSignCredentialDeployment credentialVerificationKey
  cases isInitialCall
  · simp [hg, wp_ite]
    exact (refl_of Calm s).thrown
  · simp [hg, wp_ite]
    exact ⟨fun _ => Handles.after h hp calm_global, fun _ => calm_global.thrown⟩

theorem opens_signUpdateCredential (isInitialCall : Bool) :
    Opens .staged (handleSignUpdateCredential cmd isInitialCall) := by
  intro ins s h hg hp
  unfold handleSignUpdateCredential
  cases isInitialCall
  · simp [hg, wp_ite]
    exact ⟨fun _ => Handles.after h hp (refl_of Calm s), fun _ => (refl_of Calm s).thrown⟩
  · simp [hg, wp_ite]
    exact ⟨fun _ => Handles.after h hp calm_global, fun _ => calm_global.thrown⟩

theorem opens_deployModule (isInitialCall : Bool) :
    Opens .signing (handleDeployModule cmd isInitialCall) := by
  intro ins s h hg hp
  unfold handleDeployModule
  simp [hg, wp_ite]
  exact ⟨fun _ _ => Handles.after h hp (refl_of Calm s), fun _ => (refl_of Calm s).thrown⟩

omit [Platform] in
theorem wp_contractNamePacket_unset {setStream : ContractStream → App Unit} {cdata : Bytes}
    {Q : Unit → World → Prop} {E : Exception → World → Prop} {s : World}
    (hlc : 0 < cdata.length) (hE : ∀ sw, E (.statusWord sw) s) :
    wp (contractNamePacket default setStream cdata) Q E s := by
  have hs : (default : ContractStream).state = .unset := rfl
  have hr : (default : ContractStream).remainingNameLength = 0 := rfl
  simp [contractNamePacket, nameHeader, hs, hr, hlc, hE]

theorem wp_contractParamsPacket_unset {setStream : ContractStream → App Unit}
    {display : App Unit} {cdata : Bytes} {Q : Unit → World → Prop}
    {E : Exception → World → Prop} {s : World} (hlc : 0 < cdata.length)
    (hE : ∀ sw, E (.statusWord sw) s) :
    wp (contractParamsPacket default setStream display cdata) Q E s := by
  have hs : (default : ContractStream).state = .unset := rfl
  have hr : (default : ContractStream).remainingParamsLength = 0 := rfl
  simp [contractParamsPacket, paramsHeader, hs, hr, hlc, hE]

theorem opens_initContract (isInitialCall : Bool) (hlc : 0 < cmd.data.length) :
    Opens .signing (handleInitContract cmd isInitialCall) := by
  intro ins s h hg hp
  have hthrown : ∀ sw, Thrown s (.statusWord sw) s := fun _ => (refl_of Calm s).thrown
  unfold handleInitContract
  simp only [wp_ite, wp_bind, wp_getCtx, hg, InstructionContext.view_zeroed]
  exact ⟨fun _ => Handles.after h hp (refl_of Calm s), fun _ =>
    ⟨fun _ => wp_contractNamePacket_unset hlc hthrown, fun _ =>
      ⟨fun _ => wp_contractParamsPacket_unset hlc hthrown, fun _ => hthrown _⟩⟩⟩

theorem opens_updateContract (isInitialCall : Bool) (hlc : 0 < cmd.data.length) :
    Opens .signing (handleUpdateContract cmd isInitialCall) := by
  intro ins s h hg hp
  have hthrown : ∀ sw, Thrown s (.statusWord sw) s := fun _ => (refl_of Calm s).thrown
  unfold handleUpdateContract
  simp only [wp_ite, wp_bind, wp_getCtx, hg, InstructionContext.view_zeroed]
  exact ⟨fun _ => Handles.after h hp (refl_of Calm s), fun _ =>
    ⟨fun _ => wp_contractNamePacket_unset hlc hthrown, fun _ =>
      ⟨fun _ => wp_contractParamsPacket_unset hlc hthrown, fun _ => hthrown _⟩⟩⟩

theorem opens_signPlt (isInitialCall : Bool) :
    Opens .signing (handleSignPlt cmd isInitialCall) := by
  intro ins s h hg hp
  unfold handleSignPlt pltCont
  cases isInitialCall
  · simp [hg, wp_ite]
    exact ⟨fun _ => Handles.after h hp (refl_of Calm s), fun _ =>
      ⟨fun _ => Handles.after h hp (refl_of Calm s), fun _ =>
        Handles.after h hp (refl_of Calm s)⟩⟩
  · simp [hg, wp_ite]
    exact ⟨fun _ => Handles.after h hp calm_global, fun _ =>
      ⟨fun _ => Handles.after h hp calm_global, fun _ => Handles.after h hp calm_global⟩⟩

end Opens

end Concordium
