/-
  Protocol-level token transactions (`sign_plt.c`).

  The parsers take a cursor and the context and return both as they leave
  them; a parser that returns `false` in the source returns `none`.  The
  loops over map entries run on fuel, one unit an entry: an entry takes at
  least one byte, so the length of the buffer is always enough.
-/
import Concordium.Transfer

namespace Concordium

open Buffer

/-- The opening packet. -/
def pltP1Init : UInt8 := 0x00
/-- A packet of CBOR. -/
def pltP1Cont : UInt8 := 0x01

/-- A decimal fraction. -/
def cborTagDecimalFraction : ℕ := 4
/-- Encoded CBOR. -/
def cborTagEncodedCbor : ℕ := 24
/-- An account address. -/
def cborTagAccountAddress : ℕ := 40307
/-- The coin of an address. -/
def cborTagCoininfo : ℕ := 40305

/-- The entry of an address that holds its coin. -/
def addressKeyInfo : ℕ := 1
/-- The entry of an address that holds its bytes. -/
def addressKeyData : ℕ := 3
/-- The entry of a coin that holds its type. -/
def coininfoKeyType : ℕ := 1
/-- The coin type an address must have. -/
def ccdCoinType : ℕ := 919

/-- The longest operation name. -/
def pltOpNameMax : ℕ := 16
/-- The encoded argument of the exponent -128. -/
def pltAmountExponentRawMax : ℕ := 127
/-- The least exponent that can be shown. -/
def pltAmountMinExponent : ℤ := -18
/-- The longest token identifier. -/
def pltTokenIdMax : ℕ := 128
/-- Bytes of the CBOR length field. -/
def pltCborTotalLenSize : ℕ := 4
/-- The most CBOR the app takes. -/
def appPltCborMax : ℕ := 512
/-- The size of the memo text, its NUL included. -/
def pltMemoDisplaySize : ℕ := 257

/-- The C string at the start of a buffer. -/
def cString (bs : Bytes) : Bytes := bs.takeWhile (· != 0)

/-- The operation an operation name selects. -/
def pltOpType (opName : Bytes) : Option PltOpType :=
  if opName = ascii "transfer" then some .transfer
  else if opName = ascii "mint" then some .mint
  else if opName = ascii "burn" then some .burn
  else if opName = ascii "addAllowList" then some .addAllowList
  else if opName = ascii "removeAllowList" then some .remAllowList
  else if opName = ascii "addDenyList" then some .addDenyList
  else if opName = ascii "removeDenyList" then some .remDenyList
  else if opName = ascii "pause" then some .pause
  else if opName = ascii "unpause" then some .unpause
  else none

/-! ## Field values -/

section Parser

variable (T : TinyCbor)

/-- The exponent of a token amount: negative, or the unsigned zero. -/
def parseExponent (arr : T.Value) : Option ℤ :=
  match T.getType arr with
  | .negativeInteger =>
    if pltAmountExponentRawMax < T.getRawInteger arr then none
    else some (-(T.getRawInteger arr + 1))
  | .unsignedInteger => if T.getUint64 arr ≠ 0 then none else some 0
  | _ => none

/-- `parse_amount_value`. -/
def parseAmountValue (ctx : SignPltContext) (it : T.Value) :
    Option (SignPltContext × T.Value) := do
  guard (T.getType it = .tag ∧ T.getTag it = cborTagDecimalFraction)
  let it ← T.advanceFixed it
  guard (T.getType it = .array ∧ T.isLengthKnown it)
  let arr ← T.enterContainer it
  let exponent ← parseExponent T arr
  let arr ← T.advance arr
  guard (T.getType arr = .unsignedInteger)
  let significand := T.getUint64 arr
  let arr ← T.advance arr
  guard (T.atEnd arr)
  let it ← T.leaveContainer it arr
  return ({ ctx with amountSignificand := significand, amountExponent := exponent }, it)

/-- The loop of `parse_coininfo_value`. -/
def coininfoLoop : ℕ → T.Value → Bool → Option (T.Value × Bool)
  | 0, _, _ => none
  | fuel + 1, info, typeSeen => do
    if T.atEnd info then
      return (info, typeSeen)
    else
      guard (T.getType info = .unsignedInteger)
      let key := T.getUint64 info
      let info ← T.advance info
      guard (key = coininfoKeyType ∧ !typeSeen)
      guard (T.getType info = .unsignedInteger ∧ T.getUint64 info = ccdCoinType)
      let info ← T.advance info
      coininfoLoop fuel info true

/-- `parse_coininfo_value`. -/
def parseCoininfoValue (fuel : ℕ) (it : T.Value) : Option T.Value := do
  guard (T.getType it = .tag ∧ T.getTag it = cborTagCoininfo)
  let it ← T.advanceFixed it
  guard (T.getType it = .map ∧ T.isLengthKnown it)
  let info ← T.enterContainer it
  let (info, typeSeen) ← coininfoLoop T fuel info false
  let it ← T.leaveContainer it info
  guard typeSeen
  return it

/-- `cbor_value_copy_byte_string` into `ctx->address`, all of it filled. -/
def copyAddress (addr : T.Value) : Option (Buf 32 × T.Value) := do
  let (bytes, next) ← T.copyByteString addr addressLength
  if h : bytes.length = 32 then return (⟨bytes, h⟩, next) else none

/-- The loop of `parse_address_value`. -/
def addressLoop (infoFuel : ℕ) :
    ℕ → SignPltContext → T.Value → Bool → Option (SignPltContext × T.Value × Bool)
  | 0, _, _, _ => none
  | fuel + 1, ctx, addr, dataSeen => do
    if T.atEnd addr then
      return (ctx, addr, dataSeen)
    else
      guard (T.getType addr = .unsignedInteger)
      let key := T.getUint64 addr
      let addr ← T.advance addr
      if key = addressKeyInfo then
        let addr ← parseCoininfoValue T infoFuel addr
        addressLoop infoFuel fuel ctx addr dataSeen
      else if key = addressKeyData then
        guard (!dataSeen)
        guard (T.getType addr = .byteString)
        let (address, addr) ← copyAddress T addr
        addressLoop infoFuel fuel { ctx with address := address } addr true
      else
        none

/-- `parse_address_value`. -/
def parseAddressValue (fuel : ℕ) (ctx : SignPltContext) (it : T.Value) :
    Option (SignPltContext × T.Value) := do
  guard (T.getType it = .tag ∧ T.getTag it = cborTagAccountAddress)
  let it ← T.advanceFixed it
  guard (T.getType it = .map ∧ T.isLengthKnown it)
  let addr ← T.enterContainer it
  let (ctx, addr, dataSeen) ← addressLoop T fuel fuel ctx addr false
  let it ← T.leaveContainer it addr
  guard dataSeen
  return (ctx, it)

/-- `cbor_string_bytes_in_place`: where the string starts and its bytes. -/
def cborStringBytesInPlace (it : T.Value) : Option (ℕ × Bytes) := do
  guard (T.getType it = .byteString ∨ T.getType it = .textString)
  guard (T.isLengthKnown it)
  let declared ← T.getStringLength it
  let (start, bytes, _) ← T.firstChunk it
  guard (bytes.length = declared)
  return (start, bytes)

/-- `decode_memo_cbor`: the text in `ctx->displayMemo`. -/
def decodeMemoCbor (ctx : SignPltContext) (bytes : Bytes) : Option SignPltContext := do
  let value ← T.parserInit bytes
  guard (T.getType value = .textString)
  let (start, text) ← cborStringBytesInPlace T value
  guard (start + text.length = bytes.length)
  guard (text.length ≤ pltMemoDisplaySize - 1)
  guard (isDisplayableText text)
  if h : 0 + (text ++ [0]).length ≤ 257 then
    return { ctx with displayMemo := ctx.displayMemo.write 0 (text ++ [0]) h }
  else
    none

/-- `parse_memo_value`. -/
def parseMemoValue (ctx : SignPltContext) (it : T.Value) :
    Option (SignPltContext × T.Value) := do
  guard (T.getType it = .tag ∧ T.getTag it = cborTagEncodedCbor)
  let it ← T.advanceFixed it
  guard (T.getType it = .byteString)
  let (_, envelope) ← cborStringBytesInPlace T it
  let ctx ← decodeMemoCbor T { ctx with hasMemo := false } envelope
  let it ← T.advance it
  return ({ ctx with hasMemo := true }, it)

/-! ## The document -/

/-- A value that is missing is reported with the status word `sw`. -/
def orFail {α : Type} (sw : UInt16) : Option α → Except UInt16 α
  | some a => .ok a
  | none => .error sw

/-- `if (!c) return sw;` -/
def checkElse (c : Prop) [Decidable c] (sw : UInt16) : Except UInt16 Unit :=
  if c then .ok () else .error sw

/-- What the loop over the fields carries. -/
structure PltFields where
  ctx : SignPltContext
  amountSeen : Bool := false
  addressSeen : Bool := false

/-- One field of the loop of `parse_plt_cbor`, its name already read. -/
def parsePltField (fuel : ℕ) (fieldName : Bytes) (fields : PltFields) (inner : T.Value) :
    Except UInt16 (PltFields × T.Value) := do
  if fieldName = ascii "amount" then
    let (ctx, inner) ← orFail errorPltCborError (parseAmountValue T fields.ctx inner)
    checkElse (pltAmountMinExponent ≤ ctx.amountExponent) errorPltUnsupportedDecimals
    return ({ fields with ctx := ctx, amountSeen := true }, inner)
  else if fieldName = ascii "recipient" ∨ fieldName = ascii "target" then
    let (ctx, inner) ← orFail errorPltCborError (parseAddressValue T fuel fields.ctx inner)
    return ({ fields with ctx := ctx, addressSeen := true }, inner)
  else if fieldName = ascii "memo" then
    let (ctx, inner) ← orFail errorPltUnsupportedMemo (parseMemoValue T fields.ctx inner)
    return ({ fields with ctx := ctx }, inner)
  else
    .error errorPltCborError

/-- The loop of `parse_plt_cbor` over the fields of the operation. -/
def pltFieldLoop (valueFuel : ℕ) :
    ℕ → PltFields → T.Value → Except UInt16 (PltFields × T.Value)
  | 0, _, _ => .error errorPltCborError
  | fuel + 1, fields, inner => do
    if T.atEnd inner then
      return (fields, inner)
    else
      checkElse (T.getType inner = .textString) errorPltCborError
      let (fieldName, inner) ← orFail errorPltCborError (T.copyTextString inner pltOpNameMax)
      let (fields, inner) ← parsePltField T valueFuel (cString fieldName) fields inner
      pltFieldLoop valueFuel fuel fields inner

/-- The fields an operation must have. -/
def pltRequired (opType : PltOpType) (amountSeen addressSeen : Bool) : Bool :=
  match opType with
  | .transfer => amountSeen && addressSeen
  | .mint | .burn => amountSeen
  | .addAllowList | .remAllowList | .addDenyList | .remDenyList => addressSeen
  | .pause | .unpause => true

/-- The operation map: its name and its fields, and the cursor at its end. -/
def parsePltOperation (fuel : ℕ) (ctx : SignPltContext) (opMap : T.Value) :
    Except UInt16 (PltFields × T.Value) := do
  checkElse (T.getType opMap = .textString) errorPltCborError
  let (opName, opMap) ← orFail errorPltCborError (T.copyTextString opMap (pltOpNameMax - 1))
  let opType ← orFail errorPltCborError (pltOpType (cString opName))
  checkElse (T.getType opMap = .map ∧ T.isLengthKnown opMap) errorPltCborError
  let inner ← orFail errorPltCborError (T.enterContainer opMap)
  let (fields, inner) ← pltFieldLoop T fuel fuel
    { ctx := { ctx with opType := opType, hasMemo := false } } inner
  let opMap ← orFail errorPltCborError (T.leaveContainer opMap inner)
  checkElse (T.atEnd opMap) errorPltMultiOp
  return (fields, opMap)

/-- `parse_plt_cbor` on the bytes `cbor` received: the context it leaves, or
    the status word to answer with. -/
def parsePltCbor (ctx : SignPltContext) (cbor : Bytes) : Except UInt16 SignPltContext := do
  let it ← orFail errorPltCborError (T.parserInit cbor)
  checkElse (T.getType it = .array ∧ T.isLengthKnown it) errorPltCborError
  let arr ← orFail errorPltCborError (T.enterContainer it)
  checkElse (¬ T.atEnd arr) errorPltCborError
  checkElse (T.getType arr = .map ∧ T.isLengthKnown arr) errorPltCborError
  let opMap ← orFail errorPltCborError (T.enterContainer arr)
  let (fields, opMap) ← parsePltOperation T cbor.length ctx opMap
  let arr ← orFail errorPltCborError (T.leaveContainer arr opMap)
  checkElse (pltRequired fields.ctx.opType fields.amountSeen fields.addressSeen) errorPltCborError
  checkElse (T.atEnd arr) errorPltMultiOp
  let it ← orFail errorPltCborError (T.leaveContainer it arr)
  checkElse (T.getNextByte it = cbor.length) errorPltCborError
  return fields.ctx

end Parser

/-! ## Display -/

/-- The label of an operation. -/
def pltOpLabel : PltOpType → Bytes
  | .transfer => ascii "Transfer"
  | .mint => ascii "Mint"
  | .burn => ascii "Burn"
  | .addAllowList => ascii "Add to allow list"
  | .remAllowList => ascii "Remove from allow list"
  | .addDenyList => ascii "Add to deny list"
  | .remDenyList => ascii "Remove from deny list"
  | .pause => ascii "Pause"
  | .unpause => ascii "Unpause"

/-- The operations whose review shows an amount. -/
def PltOpType.showsAmount : PltOpType → Bool
  | .transfer | .mint | .burn => true
  | _ => false

/-- The operations whose review shows an address. -/
def PltOpType.showsAddress : PltOpType → Bool
  | .transfer | .addAllowList | .remAllowList | .addDenyList | .remDenyList => true
  | _ => false

variable [Platform]

/-- The text of the address row. -/
def pltAddressText (plt : SignPltContext) : App (Buf 57) := do
  match ← base58checkEncode plt.address.bytes 57 with
  | none => memmove plt.displayAddress 0 (ascii "?" ++ [0])
  | some [] => memmove plt.displayAddress 0 (ascii "?" ++ [0])
  | some text => memmove plt.displayAddress 0 (text ++ [0])

/-- `format_plt_display`. -/
def formatPltDisplay (plt : SignPltContext) : App SignPltContext := do
  let displayOp ← memmove plt.displayOp 0 (pltOpLabel plt.opType ++ [0])
  let displayAmount ← (do
    if plt.opType.showsAmount then
      memmove plt.displayAmount 0 (← pltAmountToDisplay 170 plt.amountSignificand
        plt.amountExponent (plt.tokenId.bytes.take plt.tokenIdLength))
    else
      return plt.displayAmount)
  let displayAddress ← (do
    if plt.opType.showsAddress then pltAddressText plt else return plt.displayAddress)
  return { plt with
    displayOp := displayOp
    displayAmount := displayAmount
    displayAddress := displayAddress }

/-! ## The handler -/

/-- `plt_refuse`. -/
def pltRefuse (sw : UInt16) : App Unit := do
  setCtx ({ state := .initial } : SignPltContext)
  sendRejection sw

/-- The token id, the CBOR length and the fee behind the transaction header. -/
def pltInitBody (cmd : Command) (cdata : Bytes) : App Unit := do
  let ctx ← getCtx SignPltContext
  let tokenIdLen := (cdata.getD 0 0).toNat
  let rest := cdata.drop 1
  if cdata.length < 1 then
    pltRefuse errorPltDataError
  else if tokenIdLen < 1 ∨ pltTokenIdMax < tokenIdLen then
    pltRefuse errorPltDataError
  else if rest.length < tokenIdLen + pltCborTotalLenSize then
    pltRefuse errorPltDataError
  else if !isDisplayableText (rest.take tokenIdLen) then
    pltRefuse errorPltDataError
  else
    updateHash (← slice cdata 0 (1 + tokenIdLen))
    let tokenId ← memmove ctx.tokenId 0 ((← slice rest 0 tokenIdLen) ++ [0])
    let rest ← advance rest tokenIdLen
    let cborTotal ← u4be rest 0
    if cborTotal = 0 ∨ appPltCborMax < cborTotal then
      pltRefuse errorPltBufferError
    else
      updateHash (← slice rest 0 pltCborTotalLenSize)
      let rest ← advance rest pltCborTotalLenSize
      if rest.length ≠ feeSuffix cmd.p2 then
        pltRefuse swoIncorrectData
      else
        let (displayFee, hasFeeDisplay) ← readFee cmd.p2 rest 0
        setCtx { ctx with
          tokenId := tokenId
          tokenIdLength := tokenIdLen
          displayFee := displayFee
          hasFeeDisplay := hasFeeDisplay
          cborTotalLength := cborTotal
          cborReceived := 0
          state := .cbor }
        sendSuccessNoIdle

/-- The opening packet: path, header and kind, then what `pltInitBody` reads. -/
def pltInit (cmd : Command) : App Unit := do
  let ctx ← getCtx SignPltContext
  if ctx.state ≠ .initial then
    pltRefuse errorInvalidState
  else if cmd.p2 ≠ p2SignTxDefault ∧ cmd.p2 ≠ p2SignTxFeeDisplay then
    pltRefuse swoWrongP1P2
  else
    let pathLen ← parseDerivationPath cmd.data
    let cdata ← advance cmd.data pathLen
    sha256Init
    let headerAndKind ← hashAccountTransactionHeaderAndKind cdata kindPlt
    let cdata ← advance cdata headerAndKind
    pltInitBody cmd cdata

/-- The whole blob has been received: parse it and start the review. -/
def pltReview (ctx : SignPltContext) : App Unit := do
  match parsePltCbor Platform.cbor ctx (ctx.cborBuf.bytes.take ctx.cborReceived) with
  | .error sw => pltRefuse sw
  | .ok ctx =>
    setCtx (← formatPltDisplay ctx)
    startPltDisplay

/-- A packet of CBOR; the last one starts the review. -/
def pltCont (cmd : Command) : App Unit := do
  let ctx ← getCtx SignPltContext
  if ctx.state ≠ .cbor then
    pltRefuse errorInvalidState
  else if cmd.p2 ≠ 0x00 then
    pltRefuse swoWrongP1P2
  else if cmd.lc = 0 then
    pltRefuse errorPltCborError
  else if ctx.cborTotalLength - ctx.cborReceived < cmd.lc then
    pltRefuse errorPltCborError
  else
    updateHash cmd.data
    let cborBuf ← memmove ctx.cborBuf ctx.cborReceived cmd.data
    let ctx := { ctx with cborBuf := cborBuf, cborReceived := ctx.cborReceived + cmd.lc }
    setCtx ctx
    if ctx.cborReceived = ctx.cborTotalLength then
      pltReview ctx
    else
      sendSuccessNoIdle

/-- `handleSignPlt`. -/
def handleSignPlt (cmd : Command) (isInitialCall : Bool) : App Unit := do
  if isInitialCall then
    modifyCtx fun ctx : SignPltContext => { ctx with state := .initial }
  if cmd.p1 = pltP1Init then pltInit cmd
  else if cmd.p1 = pltP1Cont then pltCont cmd
  else pltRefuse errorInvalidParam

end Concordium
