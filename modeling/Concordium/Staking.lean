/-
  Configure baker and configure delegation (`sign_configure_baker.c`,
  `sign_configure_delegation.c`).

  The fields a bitmap selects are read one after the other; each has a
  function of its own, which hashes the field and prepares its text.
-/
import Concordium.Ui

namespace Concordium

open Buffer

/-! ## Stages -/

namespace SignConfigureBaker

/-- The opening packet. -/
def p1Initial : UInt8 := 0x00
/-- Stake, restaking, pool status and two of the keys. -/
def p1FirstBatch : UInt8 := 0x01
/-- The third key. -/
def p1AggregationKey : UInt8 := 0x02
/-- The length of the URL. -/
def p1UrlLength : UInt8 := 0x03
/-- A page of the URL. -/
def p1Url : UInt8 := 0x04
/-- The commission rates. -/
def p1CommissionRates : UInt8 := 0x05
/-- The suspension flag. -/
def p1Suspended : UInt8 := 0x06

/-- The stage behind the commission rates. -/
def stageBehindRates (ctx : SignConfigureBaker) : ConfigureBakerState :=
  if ctx.hasSuspended then .suspended else .end

/-- The stage behind the URL. -/
def stageBehindUrl (ctx : SignConfigureBaker) : ConfigureBakerState :=
  if ctx.hasCommissionRate then .commissionRates else ctx.stageBehindRates

/-- The stage behind the first batch and its keys. -/
def stageBehindFirst (ctx : SignConfigureBaker) : ConfigureBakerState :=
  if ctx.hasMetadataUrl then .urlLength else ctx.stageBehindUrl

/-- The stage behind the bitmap; without a field the state does not move. -/
def stageBehindInitial (ctx : SignConfigureBaker) : ConfigureBakerState :=
  if ctx.hasCapital || ctx.hasRestakeEarnings || ctx.hasOpenForDelegation || ctx.hasKeys then .first
  else if ctx.hasMetadataUrl then .urlLength
  else if ctx.hasCommissionRate then .commissionRates
  else if ctx.hasSuspended then .suspended
  else ctx.state

/-- `awaitConfigureBakerConfirm`. -/
def awaitConfirm (ctx : SignConfigureBaker) (next : ConfigureBakerState) : SignConfigureBaker :=
  { ctx with pendingState := next, state := .awaitingConfirm }

/-- Write the stake texts to the union. -/
def setCapital (ctx : SignConfigureBaker)
    (capital : ConfigureBakerCapitalRestakeOpenForDelegationBlob) : SignConfigureBaker :=
  { ctx with display := .capitalRestakeDelegation capital }

/-- Write the URL to the union. -/
def setUrl (ctx : SignConfigureBaker) (url : ConfigureBakerUrl) : SignConfigureBaker :=
  { ctx with display := .url url }

/-- Write the rates to the union. -/
def setRates (ctx : SignConfigureBaker) (rates : ConfigureBakerCommisionRates) :
    SignConfigureBaker :=
  { ctx with display := .commissionRates rates }

/-- Write the suspension text to the union. -/
def setSuspended (ctx : SignConfigureBaker) (text : Buf 18) : SignConfigureBaker :=
  { ctx with display := .suspended text }

/-- The flags of a bitmap. -/
def setFlags (ctx : SignConfigureBaker) (bitmap : ℕ) : SignConfigureBaker :=
  { ctx with
    hasCapital := bitmap.testBit 0
    hasRestakeEarnings := bitmap.testBit 1
    hasOpenForDelegation := bitmap.testBit 2
    hasKeys := bitmap.testBit 3
    hasMetadataUrl := bitmap.testBit 4
    hasTransactionFeeCommission := bitmap.testBit 5
    hasBakingRewardCommission := bitmap.testBit 6
    hasFinalizationRewardCommission := bitmap.testBit 7
    hasSuspended := bitmap.testBit 8 }

end SignConfigureBaker

variable [Platform]

/-- `confirmConfigureBakerStage`. -/
def confirmConfigureBakerStage : App Unit := do
  modifyCtx fun ctx : SignConfigureBaker => { ctx with state := ctx.pendingState }
  sendSuccessNoIdle

/-! ## The first batch -/

/-- The opening packet: the bitmap of the fields that follow. -/
def bakerInitial (cmd : Command) : App Unit := do
  sha256Init
  let offset ← parseDerivationPath cmd.data
  throwIf (cmd.data.length < offset) swoIncorrectData
  let cdata ← advance cmd.data offset
  let offset ← hashAccountTransactionHeaderAndKind cdata kindConfigureBaker
  throwIf (cdata.length < offset) swoIncorrectData
  let cdata ← advance cdata offset
  throwIf (cdata.length < 2) swoIncorrectData
  updateHash (← slice cdata 0 2)
  let bitmap ← u2be cdata 0
  throwIf (511 < bitmap) errorInvalidTransaction
  modifyCtx fun ctx : SignConfigureBaker =>
    let ctx := { ctx with firstDisplay := true }.setFlags bitmap
    { ctx with
      keysHashDisplay := Buf.zero 65
      keysHashCtx := if ctx.hasKeys then [] else ctx.keysHashCtx
      state := ctx.stageBehindInitial }
  sendSuccessNoIdle

/-- The stake; none stops baking. -/
def bakerCapital (ctx : SignConfigureBaker) (cdata : Bytes) :
    App (SignConfigureBaker × Bytes) := do
  throwIf (cdata.length < 8) swoIncorrectData
  let capitalAmount ← u8be cdata 0
  let blob := ctx.capital
  if capitalAmount = 0 then
    updateHash (← slice cdata 0 8)
    return (ctx.setCapital { blob with stopBaking := true }, ← advance cdata 8)
  else
    let displayCapital ← memmove blob.displayCapital 0 (← amountToCcdDisplay 30 capitalAmount)
    updateHash (← slice cdata 0 8)
    return (ctx.setCapital { blob with stopBaking := false, displayCapital := displayCapital },
      ← advance cdata 8)

omit [Platform] in
/-- The text of a restake flag. -/
def restakeText (restake : UInt8) : App Bytes :=
  if restake = 0 then return ascii "No" ++ [0]
  else if restake = 1 then return ascii "Yes" ++ [0]
  else throw (.statusWord errorInvalidTransaction)

/-- The restake flag. -/
def bakerRestake (ctx : SignConfigureBaker) (cdata : Bytes) :
    App (SignConfigureBaker × Bytes) := do
  throwIf (cdata.length < 1) swoIncorrectData
  let restake ← u8 cdata 0
  updateHash [restake]
  let cdata ← advance cdata 1
  let displayRestake ← memmove ctx.capital.displayRestake 0 (← restakeText restake)
  return (ctx.setCapital { ctx.capital with displayRestake := displayRestake }, cdata)

omit [Platform] in
/-- The text of an open-for-delegation status. -/
def openForDelegationText (openForDelegation : UInt8) : App Bytes :=
  if openForDelegation = 0 then return ascii "Open for all" ++ [0]
  else if openForDelegation = 1 then return ascii "Closed for new" ++ [0]
  else if openForDelegation = 2 then return ascii "Closed for all" ++ [0]
  else throw (.statusWord errorInvalidTransaction)

/-- The pool status. -/
def bakerOpenForDelegation (ctx : SignConfigureBaker) (cdata : Bytes) :
    App (SignConfigureBaker × Bytes) := do
  throwIf (cdata.length < 1) swoIncorrectData
  let openForDelegation ← u8 cdata 0
  updateHash [openForDelegation]
  let cdata ← advance cdata 1
  let display ← memmove ctx.capital.displayOpenForDelegation 0
    (← openForDelegationText openForDelegation)
  return (ctx.setCapital { ctx.capital with displayOpenForDelegation := display }, cdata)

omit [Platform] in
/-- The election and signature keys with their proofs: the context with both
    keys in the digest. -/
def bakerKeys (ctx : SignConfigureBaker) (cdata : Bytes) : App SignConfigureBaker := do
  throwIf (cdata.length ≠ 192) swoIncorrectData
  let electionKey ← slice cdata 0 32
  updateHash electionKey
  updateHash (← slice cdata 32 64)
  let signatureKey ← slice cdata 96 32
  updateHash signatureKey
  updateHash (← slice cdata 128 64)
  return { ctx with keysHashCtx := ctx.keysHashCtx ++ electionKey ++ signatureKey }

omit [Platform] in
/-- Read a field when its flag is set. -/
def bakerField (has : Bool)
    (field : SignConfigureBaker → Bytes → App (SignConfigureBaker × Bytes))
    (ctx : SignConfigureBaker) (cdata : Bytes) : App (SignConfigureBaker × Bytes) :=
  if has then field ctx cdata else return (ctx, cdata)

/-- The first batch.  Without keys it is reviewed at once. -/
def bakerFirst (cmd : Command) : App Unit := do
  let ctx ← getCtx SignConfigureBaker
  let (ctx, cdata) ← bakerField ctx.hasCapital bakerCapital ctx cmd.data
  let (ctx, cdata) ← bakerField ctx.hasRestakeEarnings bakerRestake ctx cdata
  let (ctx, cdata) ← bakerField ctx.hasOpenForDelegation bakerOpenForDelegation ctx cdata
  if ctx.hasKeys then
    let ctx ← bakerKeys ctx cdata
    setCtx { ctx with state := .aggregationKey }
    sendSuccessNoIdle
  else
    throwIf (cdata.length ≠ 0) swoIncorrectData
    setCtx (ctx.awaitConfirm ctx.stageBehindFirst)
    startConfigureBakerDisplay

/-- The third key with its proof, which completes the digest and starts the review. -/
def bakerAggregationKey (cmd : Command) : App Unit := do
  let ctx ← getCtx SignConfigureBaker
  throwIf (!ctx.hasKeys ∨ cmd.data.length ≠ 160) swoIncorrectData
  let aggregationKey ← slice cmd.data 0 96
  updateHash aggregationKey
  updateHash (← slice cmd.data 96 64)
  let keysHashCtx := ctx.keysHashCtx ++ aggregationKey
  let keysHashDisplay ← formatHexInto (Platform.sha256 keysHashCtx).bytes ctx.keysHashDisplay
    errorBufferOverflow
  setCtx ({ ctx with keysHashCtx := keysHashCtx, keysHashDisplay := keysHashDisplay }.awaitConfirm
    ctx.stageBehindFirst)
  startConfigureBakerDisplay

/-! ## The URL -/

/-- The length of the URL; an empty one is reviewed at once. -/
def bakerUrlLength (cmd : Command) : App Unit := do
  let ctx ← getCtx SignConfigureBaker
  throwIf (!ctx.hasMetadataUrl) errorInvalidTransaction
  throwIf (cmd.data.length < 2) swoIncorrectData
  let urlLength ← u2be cmd.data 0
  throwIf (2048 < urlLength) errorInvalidTransaction
  updateHash (← slice cmd.data 0 2)
  let ctx := ctx.setUrl { ctx.url with urlLength := urlLength }
  if urlLength = 0 then
    setCtx (ctx.awaitConfirm ctx.stageBehindUrl)
    startConfigureBakerUrlDisplay true
  else
    setCtx { ctx with state := .url }
    sendSuccessNoIdle

omit [Platform] in
/-- A page of the URL in the display buffer. -/
def urlPage (page : Bytes) : App (Buf 256) := memmove (Buf.zero 256) 0 (page ++ [0])

/-- A page of the URL.  The last one leaves the length as it is. -/
def bakerUrl (cmd : Command) : App Unit := do
  let ctx ← getCtx SignConfigureBaker
  let page := cmd.data
  if page.length < ctx.url.urlLength then
    if !isDisplayableText page then
      sendRejection errorInvalidTransaction
    else
      updateHash page
      let urlDisplay ← urlPage page
      setCtx ((ctx.setUrl ⟨ctx.url.urlLength - page.length, urlDisplay⟩).awaitConfirm .url)
      startConfigureBakerUrlDisplay false
  else if ctx.url.urlLength = page.length then
    if !isDisplayableText page then
      sendRejection errorInvalidTransaction
    else
      let urlDisplay ← urlPage page
      updateHash page
      setCtx ((ctx.setUrl ⟨ctx.url.urlLength, urlDisplay⟩).awaitConfirm ctx.stageBehindUrl)
      startConfigureBakerUrlDisplay true
  else
    throw (.statusWord swoIncorrectData)

/-! ## Commission rates and suspension -/

/-- A flagged commission rate: its text and the bytes behind it. -/
def bakerRate (has : Bool) (text : Buf 8) (cdata : Bytes) : App (Buf 8 × Bytes) := do
  if has then
    throwIf (cdata.length < 4) swoIncorrectData
    let rate ← u4be cdata 0
    let text ← memmove text 0 (← fractionToPercentageDisplay 8 rate)
    updateHash (← slice cdata 0 4)
    return (text, ← advance cdata 4)
  else
    return (text, cdata)

/-- `handleCommissionRates`. -/
def handleCommissionRates (cdata : Bytes) : App Unit := do
  let ctx ← getCtx SignConfigureBaker
  let rates := ctx.rates
  let (transactionFee, cdata) ←
    bakerRate ctx.hasTransactionFeeCommission rates.transactionFeeCommissionRate cdata
  let (bakingReward, cdata) ←
    bakerRate ctx.hasBakingRewardCommission rates.bakingRewardCommissionRate cdata
  let (finalizationReward, cdata) ←
    bakerRate ctx.hasFinalizationRewardCommission rates.finalizationRewardCommissionRate cdata
  throwIf (!ctx.hasSuspended ∧ cdata.length ≠ 0) swoIncorrectData
  setCtx ((ctx.setRates ⟨transactionFee, bakingReward, finalizationReward⟩).awaitConfirm
    ctx.stageBehindRates)
  startConfigureBakerCommissionDisplay

omit [Platform] in
/-- The text of a suspension flag. -/
def suspendedText (suspended : UInt8) : App Bytes :=
  if suspended = 0 then return ascii "Resume validator" ++ [0]
  else if suspended = 1 then return ascii "Suspend validator" ++ [0]
  else throw (.statusWord errorInvalidTransaction)

/-- The suspension flag. -/
def bakerSuspended (cmd : Command) : App Unit := do
  let ctx ← getCtx SignConfigureBaker
  throwIf (cmd.data.length < 1) swoIncorrectData
  let suspended ← u8 cmd.data 0
  updateHash [suspended]
  throwIf (cmd.data.length - 1 ≠ 0) swoIncorrectData
  let text ← memmove ctx.suspended 0 (← suspendedText suspended)
  setCtx ((ctx.setSuspended text).awaitConfirm .end)
  startConfigureBakerSuspendedDisplay

/-! ## The handlers -/

open SignConfigureBaker in
/-- `handleSignConfigureBaker`. -/
def handleSignConfigureBaker (cmd : Command) (isInitialCall : Bool) : App Unit := do
  if isInitialCall then
    modifyCtx fun ctx : SignConfigureBaker => { ctx with state := .initial }
  let state := (← getCtx SignConfigureBaker).state
  if cmd.p1 = p1Initial ∧ state = .initial then bakerInitial cmd
  else if cmd.p1 = p1FirstBatch ∧ state = .first then bakerFirst cmd
  else if cmd.p1 = p1AggregationKey ∧ state = .aggregationKey then bakerAggregationKey cmd
  else if cmd.p1 = p1UrlLength ∧ state = .urlLength then bakerUrlLength cmd
  else if cmd.p1 = p1Url ∧ state = .url then bakerUrl cmd
  else if cmd.p1 = p1CommissionRates ∧ state = .commissionRates then handleCommissionRates cmd.data
  else if cmd.p1 = p1Suspended ∧ state = .suspended then bakerSuspended cmd
  else throw (.statusWord errorInvalidState)

/-- The capital of a delegation: the context and the bytes behind it. -/
def delegationCapital (ctx : SignConfigureDelegationContext) (cdata : Bytes) :
    App (SignConfigureDelegationContext × Bytes) := do
  if ctx.hasCapital then
    throwIf (cdata.length < 8) swoIncorrectData
    let capitalAmount ← u8be cdata 0
    if capitalAmount = 0 then
      updateHash (← slice cdata 0 8)
      return ({ ctx with stopDelegation := true }, ← advance cdata 8)
    else
      let displayCapital ← memmove ctx.displayCapital 0 (← amountToCcdDisplay 30 capitalAmount)
      updateHash (← slice cdata 0 8)
      return ({ ctx with stopDelegation := false, displayCapital := displayCapital },
        ← advance cdata 8)
  else
    return (ctx, cdata)

omit [Platform] in
/-- The restake flag of a delegation, when its bit is set. -/
def delegationRestake (ctx : SignConfigureDelegationContext) (cdata : Bytes) :
    App (SignConfigureDelegationContext × Bytes) := do
  if ctx.hasRestakeEarnings then
    throwIf (cdata.length < 1) swoIncorrectData
    let restake ← u8 cdata 0
    updateHash [restake]
    let cdata ← advance cdata 1
    let displayRestake ← memmove ctx.displayRestake 0 (← restakeText restake)
    return ({ ctx with displayRestake := displayRestake }, cdata)
  else
    return (ctx, cdata)

omit [Platform] in
/-- The target of a delegation, when its bit is set. -/
def delegationTarget (ctx : SignConfigureDelegationContext) (cdata : Bytes) :
    App (SignConfigureDelegationContext × Bytes) := do
  if ctx.hasDelegationTarget then
    throwIf (cdata.length < 1) swoIncorrectData
    let delegationType ← u8 cdata 0
    updateHash [delegationType]
    let cdata ← advance cdata 1
    if delegationType = 0 then
      let target ← memmove ctx.displayDelegationTarget 0 (ascii "Passive Delegation" ++ [0])
      return ({ ctx with displayDelegationTarget := target }, cdata)
    else if delegationType = 1 then
      throwIf (cdata.length < 8) swoIncorrectData
      let bakerId ← u8be cdata 0
      let target ← memmove ctx.displayDelegationTarget 0 (ascii "Baker ID ")
      let target ← memmove target 9 (← binToDec 21 bakerId)
      updateHash (← slice cdata 0 8)
      return ({ ctx with displayDelegationTarget := target }, ← advance cdata 8)
    else
      throw (.statusWord errorInvalidTransaction)
  else
    return (ctx, cdata)

/-- `handleSignConfigureDelegation`: the whole transaction in one packet. -/
def handleSignConfigureDelegation (cmd : Command) (isInitialCall : Bool) : App Unit := do
  throwIf (!isInitialCall) errorInvalidState
  let offset ← parseDerivationPath cmd.data
  throwIf (cmd.data.length < offset) swoIncorrectData
  let cdata ← advance cmd.data offset
  sha256Init
  let offset ← hashAccountTransactionHeaderAndKind cdata kindConfigureDelegation
  throwIf (cdata.length < offset) swoIncorrectData
  let cdata ← advance cdata offset
  throwIf (cdata.length < 2) swoIncorrectData
  updateHash (← slice cdata 0 2)
  let bitmap ← u2be cdata 0
  let cdata ← advance cdata 2
  let ctx := { (← getCtx SignConfigureDelegationContext) with
    hasCapital := bitmap.testBit 0
    hasRestakeEarnings := bitmap.testBit 1
    hasDelegationTarget := bitmap.testBit 2 }
  throwIf (!ctx.hasCapital ∧ !ctx.hasRestakeEarnings ∧ !ctx.hasDelegationTarget)
    errorInvalidTransaction
  let (ctx, cdata) ← delegationCapital ctx cdata
  let (ctx, cdata) ← delegationRestake ctx cdata
  let (ctx, cdata) ← delegationTarget ctx cdata
  -- The expected length counts every field read, so it matches when nothing is left.
  throwIf (cdata.length ≠ 0) errorInvalidTransaction
  setCtx ctx
  startConfigureDelegationDisplay

end Concordium
