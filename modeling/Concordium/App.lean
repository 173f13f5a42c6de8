/-
  The main loop (`app_main.c`), the dispatcher (`dispatcher.c`), and the
  callbacks of the screens (`ux_guard.c`, `display_nbgl.c`, `display_bagl.c`).

  `step` is one step of the app: the host delivers an APDU, or the user
  activates a step of the screen.  A program that faults has no successor.
-/
import Concordium.Library.Runs
import Concordium.Contract
import Concordium.Credential
import Concordium.Keys
import Concordium.Plt
import Concordium.Schedule
import Concordium.Staking
import Concordium.VerifyAddress

namespace Concordium

open Buffer

variable [Platform]

/-! ## Dispatch -/

omit [Platform] in
/-- An instruction that needs data. -/
def withData (cmd : Command) (handler : App Unit) : App Unit :=
  if cmd.lc = 0 then ioSendSw swoWrongDataLength else handler

omit [Platform] in
/-- An instruction that takes neither data nor parameters. -/
def withoutData (cmd : Command) (handler : App Unit) : App Unit :=
  if cmd.lc ≠ 0 then ioSendSw swoWrongDataLength
  else if cmd.p1 ≠ 0 ∨ cmd.p2 ≠ 0 then ioSendSw swoIncorrectP1P2
  else handler

/-- The handler of an instruction, with its check on the data. -/
def dispatchInstruction (cmd : Command) (isInitialCall : Bool) : App Unit :=
  if cmd.ins = insGetPublicKey then withData cmd (handleGetPublicKey cmd)
  else if cmd.ins = insVerifyAddress then withData cmd (handleVerifyAddress cmd)
  else if cmd.ins = insSignTransfer then withData cmd (handleSignTransfer cmd)
  else if cmd.ins = insSignTransferWithMemo then
    withData cmd (handleSignTransferWithMemo cmd isInitialCall)
  else if cmd.ins = insSignTransferWithSchedule then
    withData cmd (handleSignTransferWithSchedule cmd isInitialCall)
  else if cmd.ins = insSignTransferWithScheduleAndMemo then
    withData cmd (handleSignTransferWithScheduleAndMemo cmd isInitialCall)
  else if cmd.ins = insCredentialDeployment then
    withData cmd (handleSignCredentialDeployment cmd isInitialCall)
  else if cmd.ins = insExportPrivateKeyLegacy then
    withData cmd (handleExportPrivateKeyLegacyPath cmd)
  else if cmd.ins = insExportPrivateKeyNew then withData cmd (handleExportPrivateKeyNewPath cmd)
  else if cmd.ins = insTransferToPublic then
    withData cmd (handleSignTransferToPublic cmd isInitialCall)
  else if cmd.ins = insRegisterData then withData cmd (handleSignRegisterData cmd isInitialCall)
  else if cmd.ins = insPublicInfoForIp then
    withData cmd (handleSignPublicInformationForIp cmd isInitialCall)
  else if cmd.ins = insConfigureBaker then
    withData cmd (handleSignConfigureBaker cmd isInitialCall)
  else if cmd.ins = insConfigureDelegation then
    withData cmd (handleSignConfigureDelegation cmd isInitialCall)
  else if cmd.ins = insSignUpdateCredential then
    withData cmd (handleSignUpdateCredential cmd isInitialCall)
  else if cmd.ins = insGetAppName then
    withoutData cmd (do handleGetAppName; releaseInstruction)
  else if cmd.ins = insSetTrustedName then handleSetTrustedName cmd
  else if cmd.ins = insGetChallenge then withoutData cmd handleGetChallenge
  else if cmd.ins = insDeployModule then withData cmd (handleDeployModule cmd isInitialCall)
  else if cmd.ins = insInitContract then withData cmd (handleInitContract cmd isInitialCall)
  else if cmd.ins = insUpdateContract then withData cmd (handleUpdateContract cmd isInitialCall)
  else if cmd.ins = insSignPlt then
    if cmd.lc = 0 ∧ cmd.p1 ≠ 0x01 then ioSendSw swoWrongDataLength
    else handleSignPlt cmd isInitialCall
  else if cmd.ins = insAppVersion then
    withoutData cmd (do handleGetAppVersion; releaseInstruction)
  else sendRejection swoInvalidIns

/-- `apdu_dispatcher`: the guard against switching instructions, then the
    handler. -/
def apduDispatcher (cmd : Command) (isInitialCall : Bool) : App Unit := do
  let currentInstruction := (← get).txState.currentInstruction
  if currentInstruction ≠ none ∧ currentInstruction ≠ some cmd.ins then
    releaseInstruction
    ioSendSw errorInvalidState
  else
    record (.packet cmd.ins)
    dispatchInstruction cmd isInitialCall

omit [Platform] in
/-- What both guards do with a status word: end the flow and reply. -/
def endFlow (sw : UInt16) : App Unit := do
  zeroGlobal
  releaseInstruction
  ioSendSw sw

/-- `dispatch_guarded`. -/
def dispatchGuarded (cmd : Command) (isInitialCall : Bool) : App Unit :=
  catching (apduDispatcher cmd isInitialCall) endFlow

omit [Platform] in
/-- Claim the latch for a first packet, on a zeroed context. -/
def claimInstruction (ins : UInt8) : App Unit := do
  zeroGlobal
  modify fun w => { w with txState := { w.txState with currentInstruction := some ins } }
  record (.claimed ins)

/-- The body of the loop in `app_main` on a parsed command of class `CLA`. -/
def runCommand (cmd : Command) : App Unit := do
  if (← get).txState.currentInstruction = none then
    claimInstruction cmd.ins
    dispatchGuarded cmd true
  else
    dispatchGuarded cmd false

/-! ## Callbacks -/

/-- `ux_run_guarded`. -/
def uxRunGuarded (continuation : App Unit) : App Unit :=
  catching continuation fun sw => do
    endFlow sw
    uiMenuMain

/-- The status page of `nbgl_useCaseReviewStatus`, which ends at the idle
    screen. -/
def reviewStatus : App Unit := showScreen [] [.uiMenuMain]

/-- `rejectStagedReview`. -/
def rejectStagedReview : App Unit := do
  releaseInstruction
  sendUserRejection

/-- `register_data_on_data_confirm`. -/
def registerDataOnDataConfirm : App Unit := do
  let ctx ← getCtx (WithDataBlob SignRegisterData)
  if 0 < ctx.tx.dataLength then sendSuccessNoIdle else uiSignFlowSharedDisplay

/-- What activating a step runs. -/
def runCallback : Callback → App Unit
  | .uiMenuMain => uiMenuMain
  | .uiMenuAbout => uiMenuAbout
  -- `os_sched_exit` does not return.
  | .osSchedExit => throw .fault
  | .sendSuccess => sendSuccess []
  | .sendSuccessNoIdle => sendSuccessNoIdle
  | .sendUserRejection => sendUserRejection
  | .rejectStagedReview => rejectStagedReview
  | .buildAndSignTransactionHash => uxRunGuarded buildAndSignTransactionHash
  | .sendPublicKeyConfirm => uxRunGuarded (sendPublicKey true)
  | .exportPrivateKey => uxRunGuarded exportPrivateKey
  | .sendPrivateKeysNewPath => uxRunGuarded sendPrivateKeysNewPath
  | .rejectPrivateKeysNewPath => uxRunGuarded rejectPrivateKeysNewPath
  | .confirmConfigureBakerStage => uxRunGuarded confirmConfigureBakerStage
  | .processNextVerificationKey => uxRunGuarded processNextVerificationKey
  | .confirmAttribute => uxRunGuarded confirmAttribute
  | .confirmAddedCredential => uxRunGuarded confirmAddedCredential
  | .confirmInitialScheduledTransfer => uxRunGuarded confirmInitialScheduledTransfer
  | .processNextScheduledAmountContinue => uxRunGuarded processNextScheduledAmount
  | .registerDataOnDataConfirm => registerDataOnDataConfirm
  | .verifyAddressConfirm => do
    sendSuccessResultNoIdle []
    reviewStatus
  | .verifyAddressReject => do
    sendUserRejectionNoIdle
    reviewStatus
  | .reviewStatus => reviewStatus

/-! ## Steps -/

/-- What can happen to the app between two steps. -/
inductive Input where
  /-- An APDU that `apdu_parser` refuses. -/
  | badLength
  /-- An APDU of another class. -/
  | badClass
  | apdu (cmd : Command)
  | activate (c : Callback)
deriving DecidableEq, Repr

omit [Platform] in
/-- An APDU arrives. -/
def deliver : App Unit := do
  modify fun w => { w with replyPending := true }
  record .delivered

/-- The user activates a step of the screen.  An NBGL page is answered once; a
    BAGL flow stays until another one is started. -/
def activate (c : Callback) : App Unit := do
  record (.activated c)
  match Platform.backend with
  | .nbgl => modify fun w => { w with screen := { w.screen with actions := [] } }
  | .bagl => pure ()
  runCallback c

/-- One pass of the event loop. -/
def runInput : Input → App Unit
  | .badLength => do
    deliver
    ioSendSw swoWrongDataLength
  | .badClass => do
    deliver
    ioSendSw swoInvalidCla
  | .apdu cmd => do
    deliver
    runCommand cmd
  | .activate c => activate c

omit [Platform] in
/-- The SDK delivers an APDU only when no reply is outstanding, and only a step
    of the screen can be activated. -/
def enabled (w : World) : Input → Bool
  | .activate c => w.screen.actions.contains c
  | _ => !w.replyPending

/-- One step of the app. -/
def step (w : World) (i : Input) : Option World :=
  if enabled w i then
    match runInput i w with
    | .ok _ w' => some w'
    | .error _ _ => none
  else none

/-- The app when `app_main` enters its loop. -/
def World.start : World :=
  match uiMenuMain {} with
  | .ok _ w => w
  | .error _ w => w

/-- A run of inputs. -/
def runInputs (w : World) (inputs : List Input) : Option World := Runs.run step w inputs

end Concordium
