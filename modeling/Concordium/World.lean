/-
  The state of the app and the programs that act on it.

  `World` holds the globals of the source, the screen, and whether an APDU is
  waiting for its reply.  `log` is ghost state: it records what the host, the
  user and the signing key get to see, and nothing reads it back.
-/
import Concordium.Library.Union
import Concordium.Library.Wp
import Concordium.Platform

namespace Concordium

open Buffer Union Wp

/-! ## The instruction union -/

/-- `instructionContext`: the member written last. -/
inductive InstructionContext where
  | zeroed
  | exportPrivateKeyContext (c : ExportPrivateKeyContext)
  | exportPublicKeyContext (c : ExportPublicKeyContext)
  | verifyAddressContext (c : VerifyAddressContext)
  | signPublicInformationForIp (c : SignPublicInformationForIp)
  | signCredentialDeploymentContext (c : SignCredentialDeploymentContext)
  | signTransferToPublic (c : SignTransferToPublic)
  | signConfigureBaker (c : SignConfigureBaker)
  | signConfigureDelegation (c : SignConfigureDelegationContext)
  | deployModule (c : DeployModule)
  | initContract (c : InitContract)
  | updateContract (c : UpdateContract)
  | signTransferContext (c : WithDataBlob SignTransferContext)
  | signTransferWithScheduleContext (c : WithDataBlob SignTransferWithScheduleContext)
  | signRegisterData (c : WithDataBlob SignRegisterData)
  | trustedNamePki (c : TrustedNamePkiContext)
  | signPlt (c : SignPltContext)
deriving DecidableEq, Repr

namespace InstructionContext

instance : Zeroed InstructionContext where
  zeroed := .zeroed
  isZeroed | .zeroed => true | _ => false
  isZeroed_zeroed := rfl

instance : Member InstructionContext ExportPrivateKeyContext :=
  ⟨.exportPrivateKeyContext, fun | .exportPrivateKeyContext c => some c | _ => none,
    fun _ => rfl, fun _ => rfl⟩

instance : Member InstructionContext ExportPublicKeyContext :=
  ⟨.exportPublicKeyContext, fun | .exportPublicKeyContext c => some c | _ => none,
    fun _ => rfl, fun _ => rfl⟩

instance : Member InstructionContext VerifyAddressContext :=
  ⟨.verifyAddressContext, fun | .verifyAddressContext c => some c | _ => none,
    fun _ => rfl, fun _ => rfl⟩

instance : Member InstructionContext SignPublicInformationForIp :=
  ⟨.signPublicInformationForIp, fun | .signPublicInformationForIp c => some c | _ => none,
    fun _ => rfl, fun _ => rfl⟩

instance : Member InstructionContext SignCredentialDeploymentContext :=
  ⟨.signCredentialDeploymentContext,
    fun | .signCredentialDeploymentContext c => some c | _ => none,
    fun _ => rfl, fun _ => rfl⟩

instance : Member InstructionContext SignTransferToPublic :=
  ⟨.signTransferToPublic, fun | .signTransferToPublic c => some c | _ => none,
    fun _ => rfl, fun _ => rfl⟩

instance : Member InstructionContext SignConfigureBaker :=
  ⟨.signConfigureBaker, fun | .signConfigureBaker c => some c | _ => none,
    fun _ => rfl, fun _ => rfl⟩

instance : Member InstructionContext SignConfigureDelegationContext :=
  ⟨.signConfigureDelegation, fun | .signConfigureDelegation c => some c | _ => none,
    fun _ => rfl, fun _ => rfl⟩

instance : Member InstructionContext DeployModule :=
  ⟨.deployModule, fun | .deployModule c => some c | _ => none,
    fun _ => rfl, fun _ => rfl⟩

instance : Member InstructionContext InitContract :=
  ⟨.initContract, fun | .initContract c => some c | _ => none,
    fun _ => rfl, fun _ => rfl⟩

instance : Member InstructionContext UpdateContract :=
  ⟨.updateContract, fun | .updateContract c => some c | _ => none,
    fun _ => rfl, fun _ => rfl⟩

instance : Member InstructionContext (WithDataBlob SignTransferContext) :=
  ⟨.signTransferContext, fun | .signTransferContext c => some c | _ => none,
    fun _ => rfl, fun _ => rfl⟩

instance : Member InstructionContext (WithDataBlob SignTransferWithScheduleContext) :=
  ⟨.signTransferWithScheduleContext,
    fun | .signTransferWithScheduleContext c => some c | _ => none,
    fun _ => rfl, fun _ => rfl⟩

instance : Member InstructionContext (WithDataBlob SignRegisterData) :=
  ⟨.signRegisterData, fun | .signRegisterData c => some c | _ => none,
    fun _ => rfl, fun _ => rfl⟩

instance : Member InstructionContext TrustedNamePkiContext :=
  ⟨.trustedNamePki, fun | .trustedNamePki c => some c | _ => none,
    fun _ => rfl, fun _ => rfl⟩

instance : Member InstructionContext SignPltContext :=
  ⟨.signPlt, fun | .signPlt c => some c | _ => none,
    fun _ => rfl, fun _ => rfl⟩

section View
variable [Platform] {α : Type} [Member InstructionContext α]

/-- The member `α` as the code reads it. -/
def view (α : Type) [Member InstructionContext α] (g : InstructionContext) : α :=
  read (fun u => Platform.residue u α) g

@[simp] theorem view_zeroed : view α .zeroed = default :=
  read_zeroed (U := InstructionContext) _

@[simp] theorem view_inject (c : α) : view α (Member.inject c) = c := read_inject _ c

end View

end InstructionContext

/-! ## Screens -/

/-- A function a step of a screen runs. -/
inductive Callback where
  | uiMenuMain
  | uiMenuAbout
  | osSchedExit
  | sendSuccess
  | sendSuccessNoIdle
  | sendUserRejection
  | rejectStagedReview
  | buildAndSignTransactionHash
  | sendPublicKeyConfirm
  | exportPrivateKey
  | sendPrivateKeysNewPath
  | rejectPrivateKeysNewPath
  | confirmConfigureBakerStage
  | processNextVerificationKey
  | confirmAttribute
  | confirmAddedCredential
  | confirmInitialScheduledTransfer
  | processNextScheduledAmountContinue
  | registerDataOnDataConfirm
  | verifyAddressConfirm
  | verifyAddressReject
  | reviewStatus
deriving DecidableEq, Repr

/-- A line of text: its title and what is written below it. -/
structure Row where
  item : Bytes
  value : Bytes
deriving DecidableEq, Repr

/-- A screen: its text as it reads when the screen is drawn and the callbacks
    of its steps.  `drawnBy` and `preimage` are ghost state: the instruction
    open at that time, and what had been fed to the transaction hash. -/
structure Screen where
  rows : List Row := []
  actions : List Callback := []
  drawnBy : Option UInt8 := none
  preimage : Bytes := []
deriving DecidableEq, Repr

/-! ## Ghost events -/

/-- What the log records. -/
inductive Event where
  /-- The host delivers an APDU. -/
  | delivered
  /-- The latch is claimed for an instruction. -/
  | claimed (ins : UInt8)
  /-- The latch is released. -/
  | released
  /-- A packet of the open instruction reaches its handler. -/
  | packet (ins : UInt8)
  /-- `global_derivation_path` is overwritten. -/
  | path (p : DerivationPath)
  /-- `parse_derivation_path` accepted a path of the current packet. -/
  | parsed (p : DerivationPath)
  | hashInit
  | hashUpdate (bs : Bytes)
  /-- `buildAndSignTransactionHash` signs: open instruction, path, preimage. -/
  | signed (ins : Option UInt8) (path : DerivationPath) (preimage : Bytes)
  | reply (data : Bytes) (sw : UInt16)
  | challengeIssued (challenge : ℕ)
  /-- SET_TRUSTED_NAME stores a descriptor. -/
  | trustedNameSet (tlv : TrustedNameTlvExtracted)
  | trustedNameRefused
  | drawn (screen : Screen)
  | activated (c : Callback)
deriving DecidableEq, Repr

/-! ## State -/

/-- `tx_state_t`: the hash context is the bytes fed since `cx_sha256_init`;
    `currentInstruction` is `none` for `INSTRUCTION_NONE`. -/
structure TxState where
  hash : Bytes := []
  transactionHash : Buf 32 := default
  currentInstruction : Option UInt8 := none
deriving DecidableEq, Repr

/-- `accountSender_t`: the account rows of a transaction. -/
structure AccountSender where
  sender : Buf 57 := default
  energyDisplay : Buf 21 := default
  network : Buf 24 := default
deriving DecidableEq, Repr

/-- `comparePublicKey_t`: the identity and the key of the comparison page. -/
structure ComparePublicKey where
  display : Buf 21 := default
  publicKey : Buf 68 := default
deriving DecidableEq, Repr

/-- The stored descriptor, outside the instruction union. -/
structure TrustedName where
  name : Buf 65 := default
  address : Buf 64 := default
  addressLen : ℕ := 0
  chainId : ℕ := 0
  valid : Bool := false
deriving DecidableEq, Repr

/-- The globals, the screen, the outstanding APDU and the log. -/
structure World where
  global : InstructionContext := .zeroed
  txState : TxState := {}
  derivationPath : DerivationPath := .init
  accountSender : AccountSender := {}
  comparePublicKey : ComparePublicKey := {}
  reviewedPath : DerivationPath := .init
  publicKeyReviewPending : Bool := false
  trusted : TrustedName := {}
  storedChallenge : ℕ := 0
  rngCalls : ℕ := 0
  screen : Screen := {}
  /-- An APDU has been delivered and not answered yet. -/
  replyPending : Bool := false
  log : List Event := []
deriving DecidableEq, Repr

/-! ## Programs -/

/-- What stops a program: a status word thrown by the source, or an access the
    C code must not make (out of bounds, or a counter below zero). -/
inductive Exception where
  | statusWord (sw : UInt16)
  | fault
deriving DecidableEq, Repr

/-- A program of the app. -/
abbrev App := EStateM Exception World

/-- `if (c) THROW(sw);` -/
def throwIf (c : Prop) [Decidable c] (sw : UInt16) : App Unit :=
  if c then throw (.statusWord sw) else pure ()

/-- An access that must be in bounds. -/
def assertInBounds (c : Prop) [Decidable c] : App Unit :=
  if c then pure () else throw .fault

/-- `TRY { x } CATCH_OTHER(e) { recover(e) }`: a status word is recovered from. -/
def catching {α : Type} (x : App α) (recover : UInt16 → App α) : App α := fun w =>
  match x w with
  | .ok a w' => .ok a w'
  | .error (.statusWord sw) w' => recover sw w'
  | .error .fault w' => .error .fault w'

/-- Append to the ghost log. -/
def record (e : Event) : App Unit := modify fun w => { w with log := w.log ++ [e] }

section Context
variable [Platform]

/-- Read a member of `global`. -/
def getCtx (α : Type) [Member InstructionContext α] : App α := do
  return (← get).global.view α

/-- Write a member of `global`. -/
def setCtx {α : Type} [Member InstructionContext α] (c : α) : App Unit :=
  modify fun w => { w with global := Member.inject c }

/-- Change the member `α`, read as the code reads it. -/
def modifyCtx {α : Type} [Member InstructionContext α] (f : α → α) : App Unit := do
  setCtx (f (← getCtx α))

end Context

/-- `explicit_bzero(&global, sizeof(global))`. -/
def zeroGlobal : App Unit := modify fun w => { w with global := .zeroed }

/-! ## Bounded access -/

/-- `memmove(dst + off, bs, ...)`. -/
def memmove {n : ℕ} (dst : Buf n) (off : ℕ) (bs : Bytes) : App (Buf n) :=
  if h : off + bs.length ≤ n then pure (dst.write off bs h) else throw .fault

/-- The bytes `[off, off + k)` of packet data. -/
def slice (bs : Bytes) (off k : ℕ) : App Bytes := do
  assertInBounds (off + k ≤ bs.length)
  return (bs.drop off).take k

/-- A byte of a command. -/
def u8 (bs : Bytes) (off : ℕ) : App UInt8 := do
  assertInBounds (off < bs.length)
  return bs.getD off 0

/-- `U2BE`. -/
def u2be (bs : Bytes) (off : ℕ) : App ℕ := return beNat (← slice bs off 2)

/-- `U4BE`. -/
def u4be (bs : Bytes) (off : ℕ) : App ℕ := return beNat (← slice bs off 4)

/-- `U8BE`. -/
def u8be (bs : Bytes) (off : ℕ) : App ℕ := return beNat (← slice bs off 8)

/-- `cdata += k` together with the remaining length. -/
def advance (bs : Bytes) (k : ℕ) : App Bytes := do
  assertInBounds (k ≤ bs.length)
  return bs.drop k

/-- `a - b` on an unsigned counter. -/
def checkedSub (a b : ℕ) : App ℕ := do
  assertInBounds (b ≤ a)
  return a - b

/-! ## Replies -/

/-- `io_send_response_pointer`. -/
def ioSendResponse (data : Bytes) (sw : UInt16) : App Unit := do
  modify fun w => { w with replyPending := false }
  record (.reply data sw)

/-- `io_send_sw`. -/
def ioSendSw (sw : UInt16) : App Unit := ioSendResponse [] sw

/-- Write the latch. -/
def releaseInstruction : App Unit := do
  modify fun w => { w with txState := { w.txState with currentInstruction := none } }
  record .released

/-- Start a screen. -/
def showScreen (rows : List Row) (actions : List Callback) : App Unit := do
  let txState := (← get).txState
  let screen : Screen := ⟨rows, actions, txState.currentInstruction, txState.hash⟩
  modify fun w => { w with screen := screen }
  record (.drawn screen)

section Menu
variable [Platform]

/-- The steps of the idle screen: `Quit`, and on BAGL the about submenu. -/
def menuActions : List Callback :=
  match Platform.backend with
  | .nbgl => [.osSchedExit]
  | .bagl => [.uiMenuAbout, .osSchedExit]

/-- `ui_menu_main`: back to the idle screen. -/
def uiMenuMain : App Unit := do
  releaseInstruction
  modify fun w => { w with publicKeyReviewPending := false }
  showScreen [] menuActions

/-- `ui_menu_about`. -/
def uiMenuAbout : App Unit := showScreen [] [.uiMenuMain]

/-- `send_user_rejection_no_idle`. -/
def sendUserRejectionNoIdle : App Unit := ioSendSw swoConditionsNotSatisfied

/-- `send_user_rejection`. -/
def sendUserRejection : App Unit := do
  sendUserRejectionNoIdle
  uiMenuMain

/-- `send_success`: reply with the bytes of the APDU buffer, then idle. -/
def sendSuccess (data : Bytes) : App Unit := do
  ioSendResponse data swoSuccess
  uiMenuMain

end Menu

/-- `send_success_result_no_idle`. -/
def sendSuccessResultNoIdle (data : Bytes) : App Unit := ioSendResponse data swoSuccess

/-- `send_success_no_idle`: reply and keep the flow open. -/
def sendSuccessNoIdle : App Unit := sendSuccessResultNoIdle []

/-- `send_rejection`: end the flow and reply. -/
def sendRejection (sw : UInt16) : App Unit := do
  releaseInstruction
  ioSendSw sw

end Concordium
