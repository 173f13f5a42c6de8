/-
  Deploying a module and calling a contract (`deploy_module.c`,
  `init_contract.c`, `update_contract.c`).

  The two contract handlers stream a name and parameters in the same way; they
  share the packets that do.
-/
import Concordium.Ui

namespace Concordium

open Buffer

namespace Contract

/-- The opening packet. -/
def p1Initial : UInt8 := 0x00
/-- A packet of module source. -/
def p1Source : UInt8 := 0x01
/-- A packet of the name. -/
def p1Name : UInt8 := 0x01
/-- A packet of the parameters. -/
def p1Params : UInt8 := 0x02

end Contract

variable [Platform]

/-- The opening of the flows that start the hash before the path: the bytes
    behind path, header and kind. -/
def openContract (cmd : Command) (kind : UInt8) : App Bytes := do
  sha256Init
  let offset ← parseDerivationPath cmd.data
  throwIf (cmd.data.length < offset) swoIncorrectData
  let cdata ← advance cmd.data offset
  let offset ← hashAccountTransactionHeaderAndKind cdata kind
  throwIf (cdata.length < offset) swoIncorrectData
  advance cdata offset

/-! ## Deploy module -/

/-- The opening packet: version and source length are hashed, and the source digest
    starts anew. -/
def deployModuleInitial (cmd : Command) : App Unit := do
  let cdata ← openContract cmd kindDeployModule
  throwIf (cdata.length < 8) swoIncorrectData
  updateHash (← slice cdata 0 8)
  let version ← u4be cdata 0
  let sourceLength ← u4be cdata 4
  let ctx ← getCtx DeployModule
  let versionDisplay ← memmove ctx.versionDisplay 0 (← numberToText 11 version)
  setCtx { ctx with
    version := version
    sourceLength := sourceLength
    remainingSourceLength := sourceLength
    sourceHashCtx := []
    sourceHashDisplay := Buf.zero 65
    versionDisplay := versionDisplay }
  sendSuccessNoIdle

/-- A packet of module source; the last one starts the review of its digest. -/
def deployModuleSource (cmd : Command) : App Unit := do
  let ctx ← getCtx DeployModule
  throwIf (ctx.remainingSourceLength < cmd.data.length) errorInvalidSourceLength
  updateHash cmd.data
  let remaining := ctx.remainingSourceLength - cmd.data.length
  let sourceHashCtx := ctx.sourceHashCtx ++ cmd.data
  if 0 < remaining then
    setCtx { ctx with sourceHashCtx := sourceHashCtx, remainingSourceLength := remaining }
    sendSuccessNoIdle
  else
    let sourceHash := Platform.sha256 sourceHashCtx
    let sourceHashDisplay ← formatHexInto sourceHash.bytes ctx.sourceHashDisplay
      errorBufferOverflow
    setCtx { ctx with
      sourceHashCtx := sourceHashCtx
      remainingSourceLength := remaining
      sourceHash := sourceHash
      sourceHashDisplay := sourceHashDisplay }
    uiDeployModuleDisplay

open Contract in
/-- `handleDeployModule`. -/
def handleDeployModule (cmd : Command) (isInitialCall : Bool) : App Unit := do
  if cmd.p1 = p1Initial ∧ isInitialCall then deployModuleInitial cmd
  else
    let ctx ← getCtx DeployModule
    if cmd.p1 = p1Source ∧ 0 < ctx.remainingSourceLength then deployModuleSource cmd
    else throw (.statusWord errorInvalidState)

/-! ## Names and parameters -/

/-- Bytes of the length prefix of a name and of parameters. -/
def lengthSize : ℕ := 2

omit [Platform] in
/-- The length prefix of a name packet: the stream behind it and the bytes of
    the packet that are not part of the name. -/
def nameHeader (stream : ContractStream) (cdata : Bytes) : App (ContractStream × ℕ) := do
  if stream.state = .nameFirst then
    throwIf (cdata.length < 2) swoIncorrectData
    let nameLength ← u2be cdata 0
    throwIf (nameLength + lengthSize < cdata.length) errorInvalidNameLength
    return ({ stream with
      nameLength := nameLength
      remainingNameLength := nameLength + lengthSize
      state := .nameNext }, lengthSize)
  else
    throwIf (stream.remainingNameLength < cdata.length) errorInvalidNameLength
    return (stream, 0)

omit [Platform] in
/-- Digest a chunk of the name and keep its text when the whole name fits. -/
def retainName (stream : ContractStream) (name : Bytes) : App ContractStream := do
  if name = [] then
    return stream
  else
    let stream := { stream with paramsHashCtx := stream.paramsHashCtx ++ name }
    if stream.nameLength < 256 then
      return { stream with
        nameDisplay := ← memmove stream.nameDisplay stream.nameDisplayUsed (name ++ [0])
        nameDisplayUsed := stream.nameDisplayUsed + name.length }
    else
      return stream

/-- What stands for a name that does not fit its buffer. -/
def tooLongText : Bytes := ascii "(too long to display - see hash)"

omit [Platform] in
/-- A packet of the name. -/
def contractNamePacket (stream : ContractStream) (setStream : ContractStream → App Unit)
    (cdata : Bytes) : App Unit := do
  let (stream, nameOffset) ← nameHeader stream cdata
  let name := cdata.drop nameOffset
  if !isDisplayableText name then
    setStream stream
    sendRejection errorInvalidTransaction
  else
    updateHash cdata
    let stream ← retainName stream name
    let stream := { stream with
      remainingNameLength := stream.remainingNameLength - cdata.length }
    if 0 < stream.remainingNameLength then
      setStream stream
      sendSuccessNoIdle
    else
      let nameDisplay ← (do
        if 256 ≤ stream.nameLength then return ← memmove stream.nameDisplay 0 (tooLongText ++ [0])
        else return stream.nameDisplay)
      setStream { stream with nameDisplay := nameDisplay, state := .paramsFirst }
      sendSuccessNoIdle

omit [Platform] in
/-- The length prefix of a parameter packet. -/
def paramsHeader (stream : ContractStream) (cdata : Bytes) : App (ContractStream × ℕ) := do
  if stream.state = .paramsFirst then
    throwIf (cdata.length < 2) swoIncorrectData
    let paramsLength ← u2be cdata 0
    throwIf (paramsLength + lengthSize < cdata.length) errorInvalidParamsLength
    return ({ stream with
      paramsLength := paramsLength
      remainingParamsLength := paramsLength + lengthSize
      state := .paramsNext }, lengthSize)
  else
    throwIf (stream.remainingParamsLength < cdata.length) errorInvalidParamsLength
    return (stream, 0)

/-- A packet of the parameters; the last one starts the review. -/
def contractParamsPacket (stream : ContractStream) (setStream : ContractStream → App Unit)
    (display : App Unit) (cdata : Bytes) : App Unit := do
  let (stream, paramsOffset) ← paramsHeader stream cdata
  updateHash cdata
  let stream := { stream with
    paramsHashCtx := stream.paramsHashCtx ++ cdata.drop paramsOffset
    remainingParamsLength := stream.remainingParamsLength - cdata.length }
  if 0 < stream.remainingParamsLength then
    setStream stream
    sendSuccessNoIdle
  else
    let paramsHashDisplay ← formatHexInto (Platform.sha256 stream.paramsHashCtx).bytes
      stream.paramsHashDisplay errorBufferOverflow
    setStream { stream with paramsHashDisplay := paramsHashDisplay }
    display

omit [Platform] in
/-- The stream as both handlers start it. -/
def ContractStream.start (stream : ContractStream) : ContractStream :=
  { stream with
    state := .nameFirst
    nameDisplay := Buf.zero 256
    paramsHashDisplay := Buf.zero 65
    paramsHashCtx := [] }

/-! ## Init contract -/

/-- The opening packet: amount and module reference. -/
def initContractInitial (cmd : Command) : App Unit := do
  let cdata ← openContract cmd kindInitContract
  let ctx ← getCtx InitContract
  throwIf (cdata.length < 8) swoIncorrectData
  updateHash (← slice cdata 0 8)
  let amount ← u8be cdata 0
  let amountDisplay ← memmove ctx.amountDisplay 0 (← amountToCcdDisplay 30 amount)
  let cdata ← advance cdata 8
  throwIf (cdata.length < 32) swoIncorrectData
  let moduleRefBytes ← slice cdata 0 32
  updateHash moduleRefBytes
  let moduleRef ← memmove ctx.moduleRef 0 moduleRefBytes
  let moduleRefDisplay ← formatHexInto moduleRef.bytes ctx.moduleRefDisplay errorInvalidModuleRef
  setCtx (⟨amount, moduleRef, amountDisplay, moduleRefDisplay, ctx.stream.start⟩ : InitContract)
  sendSuccessNoIdle

open Contract in
/-- `handleInitContract`. -/
def handleInitContract (cmd : Command) (isInitialCall : Bool) : App Unit := do
  if cmd.p1 = p1Initial ∧ isInitialCall then initContractInitial cmd
  else
    let ctx ← getCtx InitContract
    let setStream (stream : ContractStream) : App Unit := setCtx { ctx with stream := stream }
    if cmd.p1 = p1Name then contractNamePacket ctx.stream setStream cmd.data
    else if cmd.p1 = p1Params then
      contractParamsPacket ctx.stream setStream uiInitContractDisplay cmd.data
    else throw (.statusWord errorInvalidState)

/-! ## Update contract -/

/-- The opening packet: amount, contract index and subindex. -/
def updateContractInitial (cmd : Command) : App Unit := do
  let cdata ← openContract cmd kindUpdateContract
  let ctx ← getCtx UpdateContract
  throwIf (cdata.length < 8) swoIncorrectData
  updateHash (← slice cdata 0 8)
  let amount ← u8be cdata 0
  let amountDisplay ← memmove ctx.amountDisplay 0 (← amountToCcdDisplay 30 amount)
  let cdata ← advance cdata 8
  throwIf (cdata.length < 8) swoIncorrectData
  updateHash (← slice cdata 0 8)
  let indexDisplay ← memmove ctx.indexDisplay 0 (← numberToText 30 (← u8be cdata 0))
  let cdata ← advance cdata 8
  throwIf (cdata.length < 8) swoIncorrectData
  updateHash (← slice cdata 0 8)
  let subIndexDisplay ← memmove ctx.subIndexDisplay 0 (← numberToText 30 (← u8be cdata 0))
  setCtx (⟨amount, amountDisplay, indexDisplay, subIndexDisplay, ctx.stream.start⟩ :
    UpdateContract)
  sendSuccessNoIdle

open Contract in
/-- `handleUpdateContract`. -/
def handleUpdateContract (cmd : Command) (isInitialCall : Bool) : App Unit := do
  if cmd.p1 = p1Initial ∧ isInitialCall then updateContractInitial cmd
  else
    let ctx ← getCtx UpdateContract
    let setStream (stream : ContractStream) : App Unit := setCtx { ctx with stream := stream }
    if cmd.p1 = p1Name then contractNamePacket ctx.stream setStream cmd.data
    else if cmd.p1 = p1Params then
      contractParamsPacket ctx.stream setStream uiUpdateContractDisplay cmd.data
    else throw (.statusWord errorInvalidState)

end Concordium
