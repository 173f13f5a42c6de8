/-
  What handlers and callbacks are built from.

  Each display, handler and callback is an instance of `Built`, found from its
  text.  The least power that has it says how it ends: with a reply that frees
  the latch, with an acknowledgement that keeps it, or with some other reply.
-/
import Concordium.Frame

namespace Concordium

open Buffer Wp

set_option synthInstance.maxSize 1000000
set_option synthInstance.maxHeartbeats 100000

variable [Platform]

/-! ## Replies and screens -/

section Primitives

instance : Built .frees releaseInstruction := .primitive .releaseInstruction

instance {rows : List Row} {actions : List Callback} : Built .frees (showScreen rows actions) :=
  .primitive (.showScreen rows actions)

instance {sw : UInt16} : Built .frees (sendRejection sw) := .primitive (.sendRejection sw)

instance {sw : UInt16} : Built .frees (endFlow sw) := .primitive (.endFlow sw)

instance {h : Buf 32} : Built .frees
    (modify fun w => { w with txState := { w.txState with transactionHash := h } } : App PUnit) :=
  .primitive (.transactionHash h)

instance {ins : Option UInt8} {path : DerivationPath} {preimage : Bytes} :
    Built .frees (record (.signed ins path preimage)) := .primitive (.signed ins path preimage)

instance {data : Bytes} : Built .acknowledges (ioSendResponse data swoSuccess) :=
  .primitive (.acknowledge data)

instance : Built .acknowledges sendSuccessNoIdle := by
  unfold sendSuccessNoIdle sendSuccessResultNoIdle; infer_instance

instance {data : Bytes} {sw : UInt16} : Built .replies (ioSendResponse data sw) :=
  .primitive (.ioSendResponse data sw)

instance {sw : UInt16} : Built .replies (ioSendSw sw) := by unfold ioSendSw; infer_instance

instance {b : Bool} :
    Built .replies (modify fun w => { w with publicKeyReviewPending := b } : App PUnit) :=
  .primitive (.publicKeyReviewPending b)

instance : Built .replies
    (modify fun w => { w with reviewedPath := w.derivationPath } : App PUnit) :=
  .primitive .reviewedPath

instance {title : Row} {pairs : List Row} {finish : Bytes} {confirm reject : Callback} :
    Built .frees (nbglReview title pairs finish confirm reject) := by
  unfold nbglReview; infer_instance

end Primitives

instance : Built .frees uiMenuMain := .primitive .uiMenuMain

instance : Built .frees sendUserRejection := .primitive .sendUserRejection

instance {data : Bytes} : Built .frees (sendSuccess data) := .primitive (.sendSuccess data)

instance : Built .frees uiMenuAbout := by unfold uiMenuAbout; infer_instance

instance : Built .frees uiComparePubkey := by
  unfold uiComparePubkey
  refine .ask (fun _ _ _ => rfl) fun _ => ?_
  cases (Platform.backend : Backend) <;> infer_instance

instance : Built .frees uiGeneratePubkey := by
  unfold uiGeneratePubkey
  cases (Platform.backend : Backend) <;> infer_instance

instance {approve reject : Callback} : Built .frees (uiExportReview approve reject) := by
  unfold uiExportReview
  cases (Platform.backend : Backend) <;> infer_instance

instance {rows : List Row} {first more : Bool} : Built .frees (bakerReview rows first more) := by
  unfold bakerReview nbglStagedReview nbglSignReview
  refine .ask (fun _ _ _ => rfl) fun _ => ?_
  cases more <;> cases (Platform.backend : Backend) <;> infer_instance

instance : Built .frees startConfigureBakerDisplay := by
  unfold startConfigureBakerDisplay; infer_instance

instance {last : Bool} : Built .frees (startConfigureBakerUrlDisplay last) := by
  unfold startConfigureBakerUrlDisplay; infer_instance

instance : Built .frees startConfigureBakerCommissionDisplay := by
  unfold startConfigureBakerCommissionDisplay; infer_instance

instance : Built .frees startConfigureBakerSuspendedDisplay := by
  unfold startConfigureBakerSuspendedDisplay; infer_instance

instance : Built .frees startConfigureDelegationDisplay := by
  unfold startConfigureDelegationDisplay nbglSignReview
  refine .bind inferInstance fun _ => .ask (fun _ _ _ => rfl) fun _ => ?_
  cases (Platform.backend : Backend) <;> infer_instance

instance : Built .frees uiSignUpdateCredentialInitialDisplay := by
  unfold uiSignUpdateCredentialInitialDisplay nbglStagedReview
  refine .ask (fun _ _ _ => rfl) fun _ => ?_
  cases (Platform.backend : Backend) <;> infer_instance

instance : Built .frees uiSignUpdateCredentialIdDisplay := by
  unfold uiSignUpdateCredentialIdDisplay nbglStagedReview
  cases (Platform.backend : Backend) <;> infer_instance

instance : Built .frees uiSignUpdateCredentialThresholdDisplay := by
  unfold uiSignUpdateCredentialThresholdDisplay nbglSignReview
  cases (Platform.backend : Backend) <;> infer_instance

instance : Built .frees uiSignUpdateCredentialAddedCredentialDisplay := by
  unfold uiSignUpdateCredentialAddedCredentialDisplay
  cases (Platform.backend : Backend) <;> infer_instance

instance : Built .frees uiSignCredentialDeploymentAttributeDisplay := by
  unfold uiSignCredentialDeploymentAttributeDisplay
  cases (Platform.backend : Backend) <;> infer_instance

instance {intro : Bool} : Built .frees (uiVerificationKeyDisplay intro) := by
  unfold uiVerificationKeyDisplay nbglStagedReview
  cases (Platform.backend : Backend) <;> infer_instance

instance {existing intro : Bool} : Built .frees (uiCredentialDeploymentFinal existing intro) := by
  unfold uiCredentialDeploymentFinal nbglSignReview
  cases (Platform.backend : Backend) <;> infer_instance

instance {complete : Bool} : Built .frees (uiPublicInformationSign complete) := by
  unfold uiPublicInformationSign nbglSignReview
  cases (Platform.backend : Backend) <;> infer_instance

instance {intro : Bool} : Built .frees (uiPublicInformationContinue intro) := by
  unfold uiPublicInformationContinue nbglStagedReview
  cases (Platform.backend : Backend) <;> infer_instance

instance : Built .frees uiSignFlowSharedDisplay := by
  unfold uiSignFlowSharedDisplay; infer_instance

instance : Built .frees uiRegisterDataInitialDisplay := by
  unfold uiRegisterDataInitialDisplay nbglStagedReview
  refine .ask (fun _ _ _ => rfl) fun _ => ?_
  cases (Platform.backend : Backend) <;> infer_instance

instance : Built .frees uiRegisterDataPayloadDisplay := by
  unfold uiRegisterDataPayloadDisplay nbglStagedReview nbglSignReview
  cases (Platform.backend : Backend) <;> infer_instance

instance {displayMemo : Bool} : Built .frees (startTransferDisplay displayMemo) := by
  unfold startTransferDisplay nbglSignReview
  refine .bind inferInstance fun _ => .ask (fun _ _ _ => rfl) fun _ => ?_
  cases (Platform.backend : Backend) <;> infer_instance

instance : Built .frees uiSignTransferToPublicDisplay := by
  unfold uiSignTransferToPublicDisplay nbglSignReview
  refine .bind inferInstance fun _ => .ask (fun _ _ _ => rfl) fun _ => ?_
  cases (Platform.backend : Backend) <;> infer_instance

instance {displayMemo : Bool} :
    Built .frees (startInitialScheduledTransferDisplay displayMemo) := by
  unfold startInitialScheduledTransferDisplay
  refine .bind inferInstance fun _ => .ask (fun _ _ _ => rfl) fun _ => ?_
  cases (Platform.backend : Backend) <;> infer_instance

instance : Built .frees uiSignScheduledTransferPairFlowDisplay := by
  unfold uiSignScheduledTransferPairFlowDisplay
  cases (Platform.backend : Backend) <;> infer_instance

instance : Built .frees uiSignScheduledTransferPairFlowSignDisplay := by
  unfold uiSignScheduledTransferPairFlowSignDisplay nbglSignReview
  cases (Platform.backend : Backend) <;> infer_instance

instance : Built .frees uiDeployModuleDisplay := by
  unfold uiDeployModuleDisplay nbglSignReview
  refine .bind inferInstance fun _ => .ask (fun _ _ _ => rfl) fun _ => ?_
  cases (Platform.backend : Backend) <;> infer_instance

instance : Built .frees uiInitContractDisplay := by
  unfold uiInitContractDisplay nbglSignReview
  refine .bind inferInstance fun _ => .ask (fun _ _ _ => rfl) fun _ => ?_
  cases (Platform.backend : Backend) <;> infer_instance

instance : Built .frees uiUpdateContractDisplay := by
  unfold uiUpdateContractDisplay nbglSignReview
  refine .bind inferInstance fun _ => .ask (fun _ _ _ => rfl) fun _ => ?_
  cases (Platform.backend : Backend) <;> infer_instance

instance : Built .frees startPltDisplay := by
  unfold startPltDisplay nbglSignReview
  refine .bind inferInstance fun _ => .ask (fun _ _ _ => rfl) fun _ => ?_
  cases (Platform.backend : Backend) <;> infer_instance

/-! ## Handlers -/

instance {cdata : Bytes} {kind : UInt8} {dst : Buf 57} :
    Built .acknowledges (handleHeaderAndToAddress cdata kind dst) := by
  unfold handleHeaderAndToAddress; infer_instance

instance {cmd : Command} {kind : UInt8} : Built .acknowledges (openTransaction cmd kind) := by
  unfold openTransaction; infer_instance

instance {cmd : Command} : Built .acknowledges (bakerInitial cmd) := by
  unfold bakerInitial; infer_instance

instance {cmd : Command} : Built .acknowledges (bakerFirst cmd) := by
  unfold bakerFirst; infer_instance

instance {cmd : Command} : Built .acknowledges (bakerAggregationKey cmd) := by
  unfold bakerAggregationKey; infer_instance

instance {cmd : Command} : Built .acknowledges (bakerUrlLength cmd) := by
  unfold bakerUrlLength; infer_instance

instance {cmd : Command} : Built .acknowledges (bakerUrl cmd) := by unfold bakerUrl; infer_instance

instance {cdata : Bytes} : Built .acknowledges (handleCommissionRates cdata) := by
  unfold handleCommissionRates; infer_instance

instance {cmd : Command} : Built .acknowledges (bakerSuspended cmd) := by
  unfold bakerSuspended; infer_instance

instance {cmd : Command} {isInitialCall : Bool} :
    Built .acknowledges (handleSignConfigureBaker cmd isInitialCall) := by
  unfold handleSignConfigureBaker
  cases isInitialCall <;> infer_instance

instance {cmd : Command} {isInitialCall : Bool} :
    Built .acknowledges (handleSignConfigureDelegation cmd isInitialCall) := by
  unfold handleSignConfigureDelegation; infer_instance

instance {cmd : Command} : Built .acknowledges (handleSignTransfer cmd) := by
  unfold handleSignTransfer; infer_instance

instance : Built .acknowledges finishTransferMemo := by unfold finishTransferMemo; infer_instance

instance {cmd : Command} : Built .acknowledges (transferMemoInitial cmd) := by
  unfold transferMemoInitial; infer_instance

instance {cmd : Command} {readCbor : CborContext → Bytes → App (UInt16 × CborContext)}
    [∀ ctx cdata, Built .reads (readCbor ctx cdata)] :
    Built .acknowledges (transferMemoPacket cmd readCbor) := by
  unfold transferMemoPacket; infer_instance

instance {cmd : Command} : Built .acknowledges (transferMemoAmount cmd) := by
  unfold transferMemoAmount; infer_instance

instance {cmd : Command} {isInitialCall : Bool} :
    Built .acknowledges (handleSignTransferWithMemo cmd isInitialCall) := by
  unfold handleSignTransferWithMemo
  cases isInitialCall <;> infer_instance

instance {cmd : Command} : Built .acknowledges (transferToPublicInitial cmd) := by
  unfold transferToPublicInitial; infer_instance

instance {cmd : Command} : Built .acknowledges (transferToPublicRemainingAmount cmd) := by
  unfold transferToPublicRemainingAmount
  -- The text of the recipient is matched on in the middle of the packet.
  iterate 13 refine @Built.bind _ _ _ _ _ _ inferInstance fun _ => ?_
  exact @Built.bind _ _ _ _ _ _ inferInstance fun _ => inferInstance

instance {cmd : Command} : Built .acknowledges (transferToPublicProof cmd) := by
  unfold transferToPublicProof; infer_instance

instance {cmd : Command} {isInitialCall : Bool} :
    Built .acknowledges (handleSignTransferToPublic cmd isInitialCall) := by
  unfold handleSignTransferToPublic
  cases isInitialCall <;> infer_instance

instance {cmd : Command} : Built .acknowledges (registerDataInitial cmd) := by
  unfold registerDataInitial; infer_instance

instance {cmd : Command} : Built .acknowledges (registerDataData cmd) := by
  unfold registerDataData; infer_instance

instance {cmd : Command} {isInitialCall : Bool} :
    Built .acknowledges (handleSignRegisterData cmd isInitialCall) := by
  unfold handleSignRegisterData
  cases isInitialCall <;> infer_instance

instance : Built .acknowledges processNextScheduledAmount := by
  unfold processNextScheduledAmount; infer_instance

instance {cdata : Bytes} : Built .acknowledges (handleTransferPairs cdata) := by
  unfold handleTransferPairs; infer_instance

instance {cmd : Command} : Built .acknowledges (schedulePairsPacket cmd) := by
  unfold schedulePairsPacket; infer_instance

instance {cmd : Command} : Built .acknowledges (scheduleInitial cmd) := by
  unfold scheduleInitial; infer_instance

instance {cmd : Command} {isInitialCall : Bool} :
    Built .acknowledges (handleSignTransferWithSchedule cmd isInitialCall) := by
  unfold handleSignTransferWithSchedule; infer_instance

instance {cmd : Command} : Built .acknowledges (scheduleMemoInitial cmd) := by
  unfold scheduleMemoInitial; infer_instance

instance : Built .acknowledges finishMemoScheduled := by unfold finishMemoScheduled; infer_instance

instance {cmd : Command} {readCbor : CborContext → Bytes → App (UInt16 × CborContext)}
    [∀ ctx cdata, Built .reads (readCbor ctx cdata)] :
    Built .acknowledges (scheduleMemoPacket cmd readCbor) := by
  unfold scheduleMemoPacket; infer_instance

instance {cmd : Command} {isInitialCall : Bool} :
    Built .acknowledges (handleSignTransferWithScheduleAndMemo cmd isInitialCall) := by
  unfold handleSignTransferWithScheduleAndMemo; infer_instance

instance {cmd : Command} : Built .acknowledges (deployModuleInitial cmd) := by
  unfold deployModuleInitial openContract; infer_instance

instance {cmd : Command} : Built .acknowledges (deployModuleSource cmd) := by
  unfold deployModuleSource; infer_instance

instance {cmd : Command} {isInitialCall : Bool} :
    Built .acknowledges (handleDeployModule cmd isInitialCall) := by
  unfold handleDeployModule; infer_instance

instance {stream : ContractStream} {setStream : ContractStream → App Unit} {cdata : Bytes}
    [∀ stream, Built .calm (setStream stream)] :
    Built .acknowledges (contractNamePacket stream setStream cdata) := by
  unfold contractNamePacket; infer_instance

instance {stream : ContractStream} {setStream : ContractStream → App Unit} {display : App Unit}
    {cdata : Bytes} [∀ stream, Built .calm (setStream stream)] [Built .acknowledges display] :
    Built .acknowledges (contractParamsPacket stream setStream display cdata) := by
  unfold contractParamsPacket; infer_instance

instance {cmd : Command} : Built .acknowledges (initContractInitial cmd) := by
  unfold initContractInitial openContract; infer_instance

instance {cmd : Command} {isInitialCall : Bool} :
    Built .acknowledges (handleInitContract cmd isInitialCall) := by
  unfold handleInitContract; infer_instance

instance {cmd : Command} : Built .acknowledges (updateContractInitial cmd) := by
  unfold updateContractInitial openContract; infer_instance

instance {cmd : Command} {isInitialCall : Bool} :
    Built .acknowledges (handleUpdateContract cmd isInitialCall) := by
  unfold handleUpdateContract; infer_instance

instance {cmd : Command} : Built .acknowledges (publicInfoInitial cmd) := by
  unfold publicInfoInitial; infer_instance

instance {cmd : Command} : Built .acknowledges (publicInfoVerificationKey cmd) := by
  unfold publicInfoVerificationKey uiReviewPublicInformationForIpDisplay
    uiSignPublicInformationForIpPublicKeyDisplay; infer_instance

instance {cmd : Command} : Built .acknowledges (publicInfoThreshold cmd) := by
  unfold publicInfoThreshold uiSignPublicInformationForIpCompleteDisplay
    uiSignPublicInformationForIpFinalDisplay; infer_instance

instance {cmd : Command} {isInitialCall : Bool} :
    Built .acknowledges (handleSignPublicInformationForIp cmd isInitialCall) := by
  unfold handleSignPublicInformationForIp
  cases isInitialCall <;> infer_instance

instance {cmd : Command} : Built .acknowledges (credentialInitial cmd) := by
  unfold credentialInitial; infer_instance

instance {cmd : Command} : Built .acknowledges (credentialVerificationKeyLength cmd) := by
  unfold credentialVerificationKeyLength; infer_instance

instance {cmd : Command} : Built .acknowledges (credentialVerificationKey cmd) := by
  unfold credentialVerificationKey uiSignCredentialDeploymentVerificationKeyDisplay
    uiSignCredentialDeploymentVerificationKeyFlowDisplay; infer_instance

instance {cmd : Command} : Built .acknowledges (credentialSignatureThreshold cmd) := by
  unfold credentialSignatureThreshold; infer_instance

instance {cmd : Command} : Built .acknowledges (credentialArIdentity cmd) := by
  unfold credentialArIdentity; infer_instance

instance {cmd : Command} : Built .acknowledges (credentialDates cmd) := by
  unfold credentialDates; infer_instance

instance {cmd : Command} : Built .acknowledges (credentialAttributeTag cmd) := by
  unfold credentialAttributeTag; infer_instance

instance {cmd : Command} : Built .acknowledges (credentialAttributeValue cmd) := by
  unfold credentialAttributeValue; infer_instance

instance {cmd : Command} : Built .acknowledges (credentialLengthOfProofs cmd) := by
  unfold credentialLengthOfProofs; infer_instance

instance {cmd : Command} : Built .acknowledges (credentialProofs cmd) := by
  unfold credentialProofs; infer_instance

instance {cmd : Command} : Built .acknowledges (credentialNewOrExisting cmd) := by
  unfold credentialNewOrExisting uiSignCredentialDeploymentNewIntroDisplay
    uiSignCredentialDeploymentNewDisplay uiSignCredentialDeploymentExistingIntroDisplay
    uiSignCredentialDeploymentExistingDisplay; infer_instance

instance {cmd : Command} {isInitialCall : Bool} :
    Built .acknowledges (handleSignCredentialDeployment cmd isInitialCall) := by
  unfold handleSignCredentialDeployment
  cases isInitialCall <;> infer_instance

instance {cmd : Command} : Built .acknowledges (updateCredentialInitial cmd) := by
  unfold updateCredentialInitial; infer_instance

instance {cmd : Command} : Built .acknowledges (updateCredentialIndex cmd) := by
  unfold updateCredentialIndex; infer_instance

instance {cmd : Command} : Built .acknowledges (updateCredentialIdCount cmd) := by
  unfold updateCredentialIdCount; infer_instance

instance {cmd : Command} : Built .acknowledges (updateCredentialId cmd) := by
  unfold updateCredentialId; infer_instance

instance {cmd : Command} : Built .acknowledges (updateCredentialThreshold cmd) := by
  unfold updateCredentialThreshold; infer_instance

instance {cmd : Command} {isInitialCall : Bool} :
    Built .acknowledges (handleSignUpdateCredential cmd isInitialCall) := by
  unfold handleSignUpdateCredential
  cases isInitialCall <;> infer_instance

instance {sw : UInt16} : Built .acknowledges (pltRefuse sw) := by unfold pltRefuse; infer_instance

instance {cmd : Command} {cdata : Bytes} : Built .acknowledges (pltInitBody cmd cdata) := by
  unfold pltInitBody; infer_instance

instance {cmd : Command} : Built .acknowledges (pltInit cmd) := by unfold pltInit; infer_instance

instance {ctx : SignPltContext} : Built .acknowledges (pltReview ctx) := by
  unfold pltReview; split <;> infer_instance

instance {cmd : Command} : Built .acknowledges (pltCont cmd) := by unfold pltCont; infer_instance

instance {cmd : Command} {isInitialCall : Bool} :
    Built .acknowledges (handleSignPlt cmd isInitialCall) := by
  unfold handleSignPlt
  cases isInitialCall <;> infer_instance

instance {cmd : Command} : Built .frees (handleExportPrivateKeyLegacyPath cmd) := by
  unfold handleExportPrivateKeyLegacyPath uiExportPrivateKey
  cases legacyPurposeText cmd.p1 <;> infer_instance

instance {cmd : Command} : Built .frees (handleExportPrivateKeyNewPath cmd) := by
  unfold handleExportPrivateKeyNewPath uiExportPrivateKeysNewPath; infer_instance

instance : Built .frees exportPrivateKey := by
  unfold exportPrivateKey exportPrivateKeySeed exportPrivateKeyBls; infer_instance

instance {purpose network : UInt8} {idp identity account : UInt32} {n : ℕ} :
    Built .frees (exportNewPathPrivateKeysForPurpose purpose network idp identity account n) := by
  unfold exportNewPathPrivateKeysForPurpose; split <;> infer_instance

instance : Built .frees sendPrivateKeysNewPath := by
  unfold sendPrivateKeysNewPath; infer_instance

instance : Built .frees rejectPrivateKeysNewPath := by
  unfold rejectPrivateKeysNewPath; infer_instance

instance {compare : Bool} : Built .replies (sendPublicKey compare) := by
  unfold sendPublicKey sendSuccessResultNoIdle
  refine .bind inferInstance fun _ => .ask (fun _ _ _ => rfl) fun _ => ?_
  iterate 3 refine .bind inferInstance fun _ => ?_
  refine @Built.ite _ _ _ _ _ _ _ ?_ inferInstance
  exact .bind inferInstance fun _ => .ask (fun _ _ _ => rfl) fun _ => inferInstance

instance {cmd : Command} : Built .replies (handleGetPublicKey cmd) := by
  unfold handleGetPublicKey
  refine .ask (fun _ _ _ => rfl) fun _ => @Built.ite _ _ _ _ _ _ _ inferInstance ?_
  iterate 3 refine .bind inferInstance fun _ => ?_
  refine @Built.ite _ _ _ _ _ _ _ inferInstance ?_
  iterate 4 refine .ask (fun _ _ _ => rfl) fun _ => .bind inferInstance fun _ => ?_
  infer_instance

instance : Built .acknowledges handleGetAppName := by unfold handleGetAppName; infer_instance

instance : Built .acknowledges handleGetAppVersion := by
  unfold handleGetAppVersion; infer_instance

/-! ## Callbacks -/

instance : Built .frees buildAndSignTransactionHash := by
  unfold buildAndSignTransactionHash
  refine .ask (fun _ _ _ => rfl) fun w => ?_
  dsimp only
  infer_instance

instance {p : Power} {x : App Unit} [Built p x] [Built p uiMenuMain] [∀ sw, Built p (endFlow sw)] :
    Built p (uxRunGuarded x) := by
  unfold uxRunGuarded; infer_instance

/-- The least power of a callback. -/
def Callback.power : Callback → Power
  | .sendSuccessNoIdle | .confirmConfigureBakerStage
  | .processNextVerificationKey | .confirmAttribute | .confirmAddedCredential
  | .confirmInitialScheduledTransfer | .processNextScheduledAmountContinue
  | .registerDataOnDataConfirm | .verifyAddressConfirm => .acknowledges
  | .sendPublicKeyConfirm | .verifyAddressReject => .replies
  | _ => .frees

instance {c : Callback} : Built c.power (runCallback c) := by
  cases c <;> unfold runCallback Callback.power
  case confirmConfigureBakerStage => unfold confirmConfigureBakerStage; infer_instance
  case processNextVerificationKey => unfold processNextVerificationKey; infer_instance
  case confirmAttribute => unfold confirmAttribute; infer_instance
  case confirmAddedCredential => unfold confirmAddedCredential; infer_instance
  case confirmInitialScheduledTransfer =>
    unfold confirmInitialScheduledTransfer; infer_instance
  case registerDataOnDataConfirm => unfold registerDataOnDataConfirm; infer_instance
  case rejectStagedReview => unfold rejectStagedReview; infer_instance
  case verifyAddressConfirm =>
    unfold sendSuccessResultNoIdle reviewStatus; infer_instance
  case verifyAddressReject =>
    unfold sendUserRejectionNoIdle reviewStatus; infer_instance
  case reviewStatus => unfold reviewStatus; infer_instance
  all_goals infer_instance

theorem built_replies {p : Power} {α : Type} {x : App α} (h : Built p x) : Built .replies x := by
  cases p <;> infer_instance

/-! ## The trusted name -/

/-- What the handlers of the trusted name are built from keeps to `R`. -/
structure TrustFramed (R : World → World → Prop) : Prop where
  frees : ∀ {α : Type} (x : App α), Built .frees x → Frames R x
  trusted : ∀ f : World → TrustedName,
    Frames R (modify fun w => { w with trusted := f w } : App PUnit)
  set : ∀ tlv, Frames R (record (.trustedNameSet tlv))
  erase : Frames R eraseStoredChallenge
  refuse : ∀ sw, Frames R (trustedNameSendSetError sw)
  challenge : Frames R handleGetChallenge

namespace TrustFramed
variable {R : World → World → Prop} [IsPreorder World R]

theorem setTrustedName (h : TrustFramed R) {cmd : Command} :
    Frames R (handleSetTrustedName cmd) := by
  have hbuilt {α : Type} {x : App α} [hx : Built .frees x] : Frames R x := h.frees x hx
  have htrusted := h.trusted
  have hset := h.set
  have herase := h.erase
  have hrefuse := h.refuse
  have hfail : Frames R refuseTrustedName := by unfold refuseTrustedName; infer_instance
  have hstore (tlv : TrustedNameTlvExtracted) : Frames R (storeTrustedName tlv) := by
    unfold storeTrustedName; infer_instance
  unfold handleSetTrustedName
  cases ccdParseTlv cmd.data <;> infer_instance

theorem verifyAddress (h : TrustFramed R) {cmd : Command} :
    Frames R (handleVerifyAddress cmd) := by
  have hbuilt {α : Type} {x : App α} [hx : Built .frees x] : Frames R x := h.frees x hx
  have hclear : Frames R clearTrustedNameBinding := h.trusted _
  have hrefuse (sw : UInt16) : Frames R (refuseAddress sw) := by
    unfold refuseAddress; infer_instance
  have hui : Frames R uiVerifyAddress := by
    unfold uiVerifyAddress
    cases (Platform.backend : Backend) <;> infer_instance
  have hbound (ctx : VerifyAddressContext) (address : Option (Buf 65)) :
      Frames R (reviewBoundAddress ctx address) := by
    cases address <;> unfold reviewBoundAddress <;> infer_instance
  have hreview (dp : DerivationPath) (network : DerivationPathNetwork) (credCounter : UInt32) :
      Frames R (reviewAddress dp network credCounter) := by
    unfold reviewAddress
    refine @frames_bind _ _ _ _ _ _ _ _ inferInstance fun w => ?_
    dsimp only
    infer_instance
  unfold handleVerifyAddress
  iterate 2 refine @frames_bind _ _ _ _ _ _ _ _ inferInstance fun _ => ?_
  refine @frames_bind _ _ _ _ _ _ _ _ inferInstance fun r => ?_
  rcases r with sw | ⟨dp, credCounter⟩ <;> infer_instance

end TrustFramed

/-! ## Dispatch -/

instance {cmd : Command} {x : App Unit} [Built .replies x] : Built .replies (withData cmd x) := by
  unfold withData; infer_instance

instance {cmd : Command} {x : App Unit} [Built .replies x] :
    Built .replies (withoutData cmd x) := by
  unfold withoutData; infer_instance

/-- The instructions that read or write the challenge or the descriptor. -/
def trustInstructions : List UInt8 := [insVerifyAddress, insSetTrustedName, insGetChallenge]

theorem built_dispatchInstruction {cmd : Command} {isInitialCall : Bool}
    (hins : cmd.ins ∉ trustInstructions) :
    Built .replies (dispatchInstruction cmd isInitialCall) := by
  simp only [trustInstructions, List.mem_cons, List.not_mem_nil, or_false, not_or] at hins
  obtain ⟨hverify, hset, hchallenge⟩ := hins
  unfold dispatchInstruction
  simp only [if_neg hverify, if_neg hset, if_neg hchallenge]
  infer_instance

end Concordium
