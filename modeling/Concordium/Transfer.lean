/-
  CBOR data blobs, data registration and plain transfers
  (`cbor_data_blob.c`, `sign_register_data.c`, `sign_transfer.c`,
  `sign_transfer_with_memo.c`, `sign_transfer_to_public.c`).
-/
import Concordium.Ui

namespace Concordium

open Buffer

/-! ## Data blobs -/

/-- `cbor_set_type_label`; every label fits. -/
def cborSetTypeLabel (ctx : CborContext) (label : Bytes) : App CborContext := do
  return { ctx with typeLabel := ← memmove (Buf.zero 20) 0 label }

/-- `cbor_argument_is_canonical`: the argument does not fit a shorter width. -/
def cborArgumentIsCanonical (cborBuf : Bytes) (argument : ℕ) : Bool :=
  let shortCount := (cborBuf.getD 0 0) &&& 0x1F
  if shortCount = 24 then decide (23 < argument)
  else if shortCount = 25 then decide (0xFF < argument)
  else if shortCount = 26 then decide (0xFFFF < argument)
  else if shortCount = 27 then decide (0xFFFFFFFF < argument)
  else true

/-- `UINT64_MAX`. -/
def uint64Max : ℕ := 2 ^ 64 - 1

/-- The text of `-1 - n`. -/
def negativeText (n : ℕ) : App Bytes := do
  if n = uint64Max then
    return ascii "-" ++ decimal n ++ ascii " - 1" ++ [0]
  else
    return ascii "-" ++ (← binToDec 255 (n + 1))

section
variable [Platform]

/-- An integer item `value` with argument `n`, alone in the buffer. -/
def cborIntegerStands (ctx : CborContext) (value : Platform.cbor.Value) (n : ℕ) : Bool :=
  match Platform.cbor.advanceFixed value with
  | none => false
  | some next =>
    Platform.cbor.getNextByte next == ctx.cborBuf.length && cborArgumentIsCanonical ctx.cborBuf n

/-- The text item `value` of `parse_complete_cbor`. -/
def parseCompleteText (ctx : CborContext) (value : Platform.cbor.Value) :
    App (UInt16 × CborContext) := do
  if !Platform.cbor.isLengthKnown value then
    return (errorUnsupportedCbor, ctx)
  else
    match Platform.cbor.firstChunk value with
    | none => return (errorInvalidTransaction, ctx)
    | some (_, text, next) =>
      if Platform.cbor.getNextByte next ≠ ctx.cborBuf.length ∨
          !cborArgumentIsCanonical ctx.cborBuf text.length ∨ maxCborStringSize < text.length ∨
          !isDisplayableText text then
        return (errorInvalidTransaction, ctx)
      else
        let ctx ← cborSetTypeLabel ctx (ascii "Text")
        let display ← memmove ctx.display 0 (text ++ [0])
        return (swoSuccess, { ctx with display := display, displayLen := text.length })

/-- `parse_complete_cbor`. -/
def parseCompleteCbor (ctx : CborContext) : App (UInt16 × CborContext) := do
  match Platform.cbor.parserInit ctx.cborBuf with
  | none => return (errorInvalidTransaction, ctx)
  | some value =>
    let ctx := { ctx with displayLen := 0 }
    match Platform.cbor.getType value with
    | .unsignedInteger =>
      let n := Platform.cbor.getUint64 value
      if !cborIntegerStands ctx value n then
        return (errorInvalidTransaction, ctx)
      else
        let ctx ← cborSetTypeLabel ctx (ascii "Unsigned integer")
        let display ← memmove ctx.display 0 (← binToDec 256 n)
        return (swoSuccess, { ctx with display := display })
    | .negativeInteger =>
      let n := Platform.cbor.getRawInteger value
      if !cborIntegerStands ctx value n then
        return (errorInvalidTransaction, ctx)
      else
        let ctx ← cborSetTypeLabel ctx (ascii "Negative integer")
        let display ← memmove ctx.display 0 (← negativeText n)
        return (swoSuccess, { ctx with display := display })
    | .textString => parseCompleteText ctx value
    | _ => return (errorUnsupportedCbor, ctx)

/-- The end of both readers: parse when the blob is complete. -/
def finishCbor (ctx : CborContext) : App (UInt16 × CborContext) := do
  if ctx.cborLength = 0 then parseCompleteCbor ctx else return (swoSuccess, ctx)

/-- `readCborInitial`. -/
def readCborInitial (ctx : CborContext) (cdata : Bytes) : App (UInt16 × CborContext) := do
  throwIf (cdata.length < 1 ∨ ctx.cborLength < 1) swoIncorrectData
  throwIf (ctx.cborLength < cdata.length) swoIncorrectData
  finishCbor { ctx with cborBuf := cdata, cborLength := ctx.cborLength - cdata.length }

/-- `readCborContent`. -/
def readCborContent (ctx : CborContext) (cdata : Bytes) : App (UInt16 × CborContext) := do
  throwIf (ctx.cborLength < cdata.length) swoIncorrectData
  throwIf (maxCborBlobSize < ctx.cborBuf.length + cdata.length) swoIncorrectData
  finishCbor { ctx with
    cborBuf := ctx.cborBuf ++ cdata
    cborLength := ctx.cborLength - cdata.length }

end

/-! ## Register data -/

namespace SignRegisterData

/-- The opening packet. -/
def p1Initial : UInt8 := 0x00
/-- A packet of data. -/
def p1Data : UInt8 := 0x01

end SignRegisterData

/-- The most data a transaction registers. -/
def maxDataSize : ℕ := maxCborBlobSize
/-- A packet without a fee suffix. -/
def p2SignTxDefault : UInt8 := 0x00
/-- A packet with a fee suffix. -/
def p2SignTxFeeDisplay : UInt8 := 0x01
/-- Bytes of the fee suffix. -/
def feeDisplayU64Size : ℕ := 8

variable [Platform]

/-- The path, the header and the kind that open a flow: the bytes behind them.
    The hash starts between the path and the header. -/
def openTransaction (cmd : Command) (kind : UInt8) : App Bytes := do
  let offset ← parseDerivationPath cmd.data
  throwIf (cmd.data.length < offset) swoIncorrectData
  let cdata ← advance cmd.data offset
  sha256Init
  let offset ← hashAccountTransactionHeaderAndKind cdata kind
  throwIf (cmd.data.length < offset) swoIncorrectData
  advance cdata offset

/-- The opening packet: the length of the data. -/
def registerDataInitial (cmd : Command) : App Unit := do
  let cdata ← openTransaction cmd kindRegisterData
  throwIf (cdata.length < 2) swoIncorrectData
  let dataLength ← u2be cdata 0
  throwIf (maxDataSize < dataLength) errorInvalidParam
  updateHash (← slice cdata 0 2)
  modifyCtx fun ctx : WithDataBlob SignRegisterData =>
    ⟨⟨dataLength, .payloadStart⟩, { ctx.cborContext with cborLength := dataLength }⟩
  uiRegisterDataInitialDisplay

/-- The reader of a data packet, by state. -/
def readRegisterData (state : RegisterDataState) (dataLeft : ℕ) (cbor : CborContext)
    (cdata : Bytes) : App (UInt16 × CborContext) := do
  match state with
  | .payloadStart => readCborInitial cbor cdata
  | .payload =>
    throwIf (dataLeft ≠ 0) errorInvalidState
    readCborContent cbor cdata
  | _ => throw (.statusWord errorInvalidState)

/-- A packet of data; the last one starts the review. -/
def registerDataData (cmd : Command) : App Unit := do
  let ctx ← getCtx (WithDataBlob SignRegisterData)
  throwIf (ctx.tx.dataLength < cmd.data.length) errorInvalidTransaction
  let dataLength := ctx.tx.dataLength - cmd.data.length
  updateHash cmd.data
  let (sw, cbor) ← readRegisterData ctx.tx.state dataLength ctx.cborContext cmd.data
  setCtx (⟨⟨dataLength, .payload⟩, cbor⟩ : WithDataBlob SignRegisterData)
  if sw ≠ swoSuccess then sendRejection sw
  else if dataLength = 0 then uiRegisterDataPayloadDisplay
  else sendSuccessNoIdle

/-- `handleSignRegisterData`. -/
def handleSignRegisterData (cmd : Command) (isInitialCall : Bool) : App Unit := do
  if isInitialCall then
    modifyCtx fun ctx : WithDataBlob SignRegisterData =>
      { ctx with tx := { ctx.tx with state := .initial } }
  let ctx ← getCtx (WithDataBlob SignRegisterData)
  if cmd.p1 = SignRegisterData.p1Initial ∧ ctx.tx.state = .initial then registerDataInitial cmd
  else if cmd.p1 = SignRegisterData.p1Data then registerDataData cmd
  else throw (.statusWord errorInvalidState)

/-! ## Transfer -/

/-- The bytes of the fee suffix that `p2` announces. -/
def feeSuffix (p2 : UInt8) : ℕ := if p2 = p2SignTxFeeDisplay then feeDisplayU64Size else 0

/-- The fee text of a packet whose fee suffix starts at `off`. -/
def readFee (p2 : UInt8) (cdata : Bytes) (off : ℕ) : App (Buf 30 × Bool) := do
  if feeSuffix p2 ≠ 0 then
    feeDisplayApplyU64 (← slice cdata off feeDisplayU64Size)
  else
    return (Buf.zero 30, false)

/-- `handleSignTransfer`: the whole transaction in one packet. -/
def handleSignTransfer (cmd : Command) : App Unit := do
  throwIf (cmd.p1 ≠ 0x00 ∨ p2SignTxFeeDisplay < cmd.p2) swoWrongP1P2
  let ctx ← getCtx (WithDataBlob SignTransferContext)
  let (offset, displayStr) ← handleHeaderAndToAddress cmd.data kindTransfer ctx.tx.displayStr
  let cdata ← advance cmd.data offset
  throwIf (cdata.length ≠ 8 + feeSuffix cmd.p2) swoIncorrectData
  let amount ← u8be cdata 0
  let displayAmount ← memmove ctx.tx.displayAmount 0 (← amountToCcdDisplay 30 amount)
  updateHash (← slice cdata 0 8)
  let (feeDisplayStr, hasFeeDisplay) ← readFee cmd.p2 cdata 8
  setCtx { ctx with tx := { ctx.tx with
    displayStr := displayStr
    displayAmount := displayAmount
    feeDisplayStr := feeDisplayStr
    hasFeeDisplay := hasFeeDisplay } }
  startTransferDisplay false

/-! ## Transfer with memo -/

namespace SignTransferContext

/-- The opening packet. -/
def p1InitialWithMemo : UInt8 := 0x01
/-- A packet of the memo. -/
def p1Memo : UInt8 := 0x02
/-- The amount. -/
def p1Amount : UInt8 := 0x03

end SignTransferContext

/-- `finish_transfer_memo`. -/
def finishTransferMemo : App Unit := do
  modifyCtx fun ctx : WithDataBlob SignTransferContext =>
    { ctx with tx := { ctx.tx with state := .amount } }
  sendSuccessNoIdle

/-- The opening packet: recipient, fee and length of the memo. -/
def transferMemoInitial (cmd : Command) : App Unit := do
  throwIf (p2SignTxFeeDisplay < cmd.p2) swoWrongP1P2
  let ctx ← getCtx (WithDataBlob SignTransferContext)
  let (offset, displayStr) ←
    handleHeaderAndToAddress cmd.data kindTransferWithMemo ctx.tx.displayStr
  let cdata ← advance cmd.data offset
  throwIf (cdata.length ≠ 2 + feeSuffix cmd.p2) swoIncorrectData
  let cborLength ← u2be cdata 0
  throwIf (maxCborBlobSize < cborLength) errorInvalidParam
  updateHash (← slice cdata 0 2)
  let (feeDisplayStr, hasFeeDisplay) ← readFee cmd.p2 cdata 2
  setCtx (⟨{ ctx.tx with
    displayStr := displayStr
    feeDisplayStr := feeDisplayStr
    hasFeeDisplay := hasFeeDisplay
    state := .memoInitial }, { ctx.cborContext with cborLength := cborLength }⟩ :
      WithDataBlob SignTransferContext)
  sendSuccessNoIdle

/-- A memo packet, with the reader of its state. -/
def transferMemoPacket (cmd : Command)
    (readCbor : CborContext → Bytes → App (UInt16 × CborContext)) : App Unit := do
  throwIf (cmd.p2 ≠ p2SignTxDefault) swoWrongP1P2
  updateHash cmd.data
  let ctx ← getCtx (WithDataBlob SignTransferContext)
  let (sw, cbor) ← readCbor ctx.cborContext cmd.data
  setCtx { ctx with cborContext := cbor }
  if sw ≠ swoSuccess then sendRejection sw
  else if cbor.cborLength = 0 then finishTransferMemo
  else
    setCtx (⟨{ ctx.tx with state := .memo }, cbor⟩ : WithDataBlob SignTransferContext)
    sendSuccessNoIdle

/-- The amount, which starts the review. -/
def transferMemoAmount (cmd : Command) : App Unit := do
  throwIf (cmd.p2 ≠ p2SignTxDefault) swoWrongP1P2
  throwIf (cmd.data.length < 8) swoIncorrectData
  let amount ← u8be cmd.data 0
  let ctx ← getCtx (WithDataBlob SignTransferContext)
  let displayAmount ← memmove ctx.tx.displayAmount 0 (← amountToCcdDisplay 30 amount)
  updateHash (← slice cmd.data 0 8)
  setCtx { ctx with tx := { ctx.tx with displayAmount := displayAmount } }
  startTransferDisplay true

open SignTransferContext in
/-- `handleSignTransferWithMemo`. -/
def handleSignTransferWithMemo (cmd : Command) (isInitialCall : Bool) : App Unit := do
  if isInitialCall then
    modifyCtx fun ctx : WithDataBlob SignTransferContext =>
      { ctx with tx := { ctx.tx with state := .initial } }
  let state := (← getCtx (WithDataBlob SignTransferContext)).tx.state
  if cmd.p1 = p1InitialWithMemo ∧ state = .initial then transferMemoInitial cmd
  else if cmd.p1 = p1Memo ∧ state = .memoInitial then transferMemoPacket cmd readCborInitial
  else if cmd.p1 = p1Memo ∧ state = .memo then transferMemoPacket cmd readCborContent
  else if cmd.p1 = p1Amount ∧ state = .amount then transferMemoAmount cmd
  else throw (.statusWord errorInvalidState)

/-! ## Transfer to public -/

namespace SignTransferToPublic

/-- The opening packet. -/
def p1Initial : UInt8 := 0x00
/-- The encrypted remainder, the amount and the recipient. -/
def p1RemainingAmount : UInt8 := 0x01
/-- A packet of the proof. -/
def p1Proof : UInt8 := 0x02

end SignTransferToPublic

/-- The opening packet. -/
def transferToPublicInitial (cmd : Command) : App Unit := do
  let _ ← openTransaction cmd kindTransferToPublic
  modifyCtx fun ctx : SignTransferToPublic => { ctx with state := .remainingAmount }
  sendSuccessNoIdle

/-- The encrypted remainder, the amount, the recipient, the index and the length of
    the proof. -/
def transferToPublicRemainingAmount (cmd : Command) : App Unit := do
  let ctx ← getCtx SignTransferToPublic
  throwIf (cmd.data.length < 192) swoIncorrectData
  updateHash (← slice cmd.data 0 192)
  let cdata ← advance cmd.data 192
  throwIf (cdata.length < 8) swoIncorrectData
  let amount ← memmove ctx.amount 0 (← amountToCcdDisplay 30 (← u8be cdata 0))
  updateHash (← slice cdata 0 8)
  let cdata ← advance cdata 8
  throwIf (cdata.length < 32) swoIncorrectData
  let recipient ← slice cdata 0 32
  let recipientAddress ← (do
    match ← base58checkEncode recipient 57 with
    | none => throw (.statusWord swoIncorrectData)
    | some text => memmove (← memmove ctx.recipientAddress 0 text) 55 [0])
  updateHash recipient
  let cdata ← advance cdata 32
  throwIf (cdata.length < 8) swoIncorrectData
  updateHash (← slice cdata 0 8)
  let cdata ← advance cdata 8
  throwIf (cdata.length < 2) swoIncorrectData
  let proofSize ← u2be cdata 0
  setCtx (⟨amount, recipientAddress, proofSize, .proof⟩ : SignTransferToPublic)
  sendSuccessNoIdle

/-- A packet of the proof; the one that completes it starts the review. -/
def transferToPublicProof (cmd : Command) : App Unit := do
  let ctx ← getCtx SignTransferToPublic
  updateHash cmd.data
  if ctx.proofSize = cmd.data.length then uiSignTransferToPublicDisplay
  else if ctx.proofSize < cmd.data.length then throw (.statusWord errorInvalidTransaction)
  else
    setCtx { ctx with proofSize := ctx.proofSize - cmd.data.length }
    sendSuccessNoIdle

open SignTransferToPublic in
/-- `handleSignTransferToPublic`. -/
def handleSignTransferToPublic (cmd : Command) (isInitialCall : Bool) : App Unit := do
  if isInitialCall then
    modifyCtx fun ctx : SignTransferToPublic => { ctx with state := .initial }
  let state := (← getCtx SignTransferToPublic).state
  if cmd.p1 = p1Initial ∧ state = .initial then transferToPublicInitial cmd
  else if cmd.p1 = p1RemainingAmount ∧ state = .remainingAmount then
    transferToPublicRemainingAmount cmd
  else if cmd.p1 = p1Proof ∧ state = .proof then transferToPublicProof cmd
  else throw (.statusWord errorInvalidState)

end Concordium
