/-
  Transfers with a schedule, with and without a memo
  (`sign_transfer_schedule.c`, `sign_transfer_with_schedule.c`,
  `sign_transfer_with_schedule_and_memo.c`, `time.c`).
-/
import Concordium.Transfer

namespace Concordium

open Buffer

/-! ## Time -/

/-- `LEAPOCH`: March 1, 2000, in seconds since 1970. -/
def leapoch : ℤ := 946684800 + 86400 * (31 + 29)
/-- `DAYS_PER_400Y`. -/
def daysPer400Y : ℤ := 365 * 400 + 97
/-- `DAYS_PER_100Y`. -/
def daysPer100Y : ℤ := 365 * 100 + 24
/-- `DAYS_PER_4Y`. -/
def daysPer4Y : ℤ := 365 * 4 + 1
/-- `INT_MAX`. -/
def intMax : ℤ := 2147483647
/-- `INT_MIN`. -/
def intMin : ℤ := -2147483648

/-- The months of a year that starts in March. -/
def daysInMonth : List ℤ := [31, 30, 31, 30, 31, 31, 30, 31, 30, 31, 31, 29]

/-- The loop over `days_in_month`: months passed and days left. -/
def monthLoop : List ℤ → ℤ → ℤ → ℤ × ℤ
  | [], months, remdays => (months, remdays)
  | days :: rest, months, remdays =>
    if days ≤ remdays then monthLoop rest (months + 1) (remdays - days) else (months, remdays)

/-- Quotient and remainder with a remainder that is not negative. -/
def divFloor (a b : ℤ) : ℤ × ℤ :=
  if a.tmod b < 0 then (a.tdiv b - 1, a.tmod b + b) else (a.tdiv b, a.tmod b)

/-- Whole cycles of `len` days, at most `most`, and the days behind them. -/
def cycles (remdays len most : ℤ) : ℤ × ℤ :=
  let q := remdays.tdiv len
  let q := if q = most + 1 then q - 1 else q
  (q, remdays - q * len)

/-- `secondsToTm`, without the week day and the day of the year. -/
def secondsToTm (t : ℤ) : Option Tm :=
  if t < intMin * 31622400 ∨ intMax * 31622400 < t then none
  else
    let (days, remsecs) := divFloor (t - leapoch) 86400
    let (qcCycles, remdays) := divFloor days daysPer400Y
    let (cCycles, remdays) := cycles remdays daysPer100Y 3
    let (qCycles, remdays) := cycles remdays daysPer4Y 24
    let (remyears, remdays) := cycles remdays 365 3
    let years := remyears + 4 * qCycles + 100 * cCycles + 400 * qcCycles
    let (months, remdays) := monthLoop daysInMonth 0 remdays
    if intMax - 100 < years ∨ years < intMin + 100 then none
    else
      let (mon, year) := if 12 ≤ months + 2 then (months + 2 - 12, years + 101)
        else (months + 2, years + 100)
      some ⟨remsecs.tmod 60, (remsecs.tdiv 60).tmod 60, remsecs.tdiv 3600, remdays + 1, mon, year⟩

/-- The characters of a time up to its seconds, and a NUL. -/
def timestampDisplayLength : ℕ := 20

/-- A separator behind the text of a time. -/
def appendSeparator (dstLength : ℕ) (text : Bytes) (separator : String) : App Bytes := do
  throwIf (dstLength ≤ text.length) errorBufferOverflow
  return text ++ ascii separator

/-- `prefixWithZero` and `number_to_text`. -/
def appendTwoDigits (dstLength : ℕ) (text : Bytes) (value : ℤ) : App Bytes := do
  if value < 10 then
    throwIf (dstLength - text.length < 1) errorBufferOverflow
    let text := text ++ ascii "0"
    return text ++ (← numberToText (dstLength - text.length) value.toNat)
  else
    return text ++ (← numberToText (dstLength - text.length) value.toNat)

/-- `timeToDisplayText`: the text and a NUL. -/
def timeToDisplayText (time : Tm) (dstLength : ℕ) : App Bytes := do
  throwIf (time.tmYear ≤ 0) errorInvalidTransaction
  throwIf (dstLength < timestampDisplayLength) errorBufferOverflow
  let text ← numberToText dstLength (time.tmYear + 1900).toNat
  let text ← appendSeparator dstLength text "-"
  let text ← appendTwoDigits dstLength text (time.tmMon + 1)
  let text ← appendSeparator dstLength text "-"
  let text ← appendTwoDigits dstLength text time.tmMday
  let text ← appendSeparator dstLength text " "
  let text ← appendTwoDigits dstLength text time.tmHour
  let text ← appendSeparator dstLength text ":"
  let text ← appendTwoDigits dstLength text time.tmMin
  let text ← appendSeparator dstLength text ":"
  let text ← appendTwoDigits dstLength text time.tmSec
  -- The last field is written by `bin_to_dec`, which also asks for room for the NUL.
  throwIf (dstLength < text.length + 1) errorBufferOverflow
  return text ++ [0]

/-- The character of a digit. -/
def asciiDigit (n : ℕ) : UInt8 := UInt8.ofNat (48 + n)

/-- `appendMilliseconds`: behind the text the buffer holds. -/
def appendMilliseconds {n : ℕ} (dst : Buf n) (milliseconds : ℕ) : App (Buf n) := do
  throwIf (999 < milliseconds) errorInvalidTransaction
  let offset := dst.text.length
  throwIf (n < offset + 5) errorBufferOverflow
  memmove dst offset (ascii "." ++ [asciiDigit (milliseconds / 100),
    asciiDigit (milliseconds / 10 % 10), asciiDigit (milliseconds % 10), 0])

/-! ## Pairs -/

/-- The UTC text of a timestamp in milliseconds, with the broken-down time. -/
def timestampText (timestampMs : ℕ) (display : Buf 25) : App (Tm × Buf 25) := do
  match secondsToTm (timestampMs / 1000 : ℕ) with
  | none => throw (.statusWord errorInvalidParam)
  | some time =>
    throwIf (9999 < time.tmYear) errorInvalidParam
    let display ← memmove display 0 (← timeToDisplayText time 25)
    return (time, ← appendMilliseconds display (timestampMs % 1000))

variable [Platform]

/-- The pair of `processNextScheduledAmount`: hash it and prepare its texts. -/
def readScheduledAmount (tx : SignTransferWithScheduleContext) :
    App SignTransferWithScheduleContext := do
  throwIf (255 < tx.pos + 8) errorBufferOverflow
  let timestampMs ← u8be tx.buffer.bytes tx.pos
  updateHash (← slice tx.buffer.bytes tx.pos 8)
  let (time, displayTimestamp) ← timestampText timestampMs tx.displayTimestamp
  throwIf (255 < tx.pos + 8 + 8) errorBufferOverflow
  let amount ← u8be tx.buffer.bytes (tx.pos + 8)
  updateHash (← slice tx.buffer.bytes (tx.pos + 8) 8)
  let displayAmount ← memmove tx.displayAmount 0 (← amountToCcdDisplay 30 amount)
  return { tx with
    time := time
    displayTimestamp := displayTimestamp
    displayAmount := displayAmount
    pos := tx.pos + 8 + 8
    scheduledAmountsInCurrentPacket := tx.scheduledAmountsInCurrentPacket - 1 }

/-- `processNextScheduledAmount`. -/
def processNextScheduledAmount : App Unit := do
  let ctx ← getCtx (WithDataBlob SignTransferWithScheduleContext)
  if ctx.tx.scheduledAmountsInCurrentPacket = 0 then
    sendSuccessNoIdle
  else
    let tx ← readScheduledAmount ctx.tx
    setCtx { ctx with tx := tx }
    if tx.remainingNumberOfScheduledAmounts = 0 ∧ tx.scheduledAmountsInCurrentPacket = 0 then
      uiSignScheduledTransferPairFlowSignDisplay
    else
      uiSignScheduledTransferPairFlowDisplay

omit [Platform] in
/-- Split the pairs left into those of this packet and those behind it. -/
def takePairs (tx : SignTransferWithScheduleContext) : SignTransferWithScheduleContext :=
  if tx.remainingNumberOfScheduledAmounts ≤ 15 then
    { tx with
      scheduledAmountsInCurrentPacket := tx.remainingNumberOfScheduledAmounts
      remainingNumberOfScheduledAmounts := 0
      pos := 0 }
  else
    { tx with
      scheduledAmountsInCurrentPacket := 15
      remainingNumberOfScheduledAmounts := tx.remainingNumberOfScheduledAmounts - 15
      pos := 0 }

/-- `handle_transfer_pairs`. -/
def handleTransferPairs (cdata : Bytes) : App Unit := do
  let ctx ← getCtx (WithDataBlob SignTransferWithScheduleContext)
  let tx := takePairs ctx.tx
  let size := tx.scheduledAmountsInCurrentPacket * 16
  throwIf (255 < size ∨ cdata.length < size) swoIncorrectData
  let buffer ← memmove tx.buffer 0 (cdata.take size)
  setCtx { ctx with tx := { tx with buffer := buffer } }
  processNextScheduledAmount

/-! ## The handlers -/

/-- `confirmInitialScheduledTransfer`. -/
def confirmInitialScheduledTransfer : App Unit := do
  modifyCtx fun ctx : WithDataBlob SignTransferWithScheduleContext =>
    { ctx with tx := { ctx.tx with state := .transferPairs } }
  sendSuccessNoIdle

/-- A packet of transfer pairs, whose `p2` must be plain. -/
def schedulePairsPacket (cmd : Command) : App Unit := do
  throwIf (cmd.p2 ≠ p2SignTxDefault) swoWrongP1P2
  handleTransferPairs cmd.data

/-- The opening packet: recipient and number of releases. -/
def scheduleInitial (cmd : Command) : App Unit := do
  throwIf (p2SignTxFeeDisplay < cmd.p2) swoWrongP1P2
  let ctx ← getCtx (WithDataBlob SignTransferWithScheduleContext)
  let (offset, displayStr) ←
    handleHeaderAndToAddress cmd.data kindTransferWithSchedule ctx.tx.displayStr
  let cdata ← advance cmd.data offset
  throwIf (cdata.length ≠ 1 + feeSuffix cmd.p2) swoIncorrectData
  let count ← u8 cdata 0
  updateHash [count]
  let (feeDisplayStr, hasFeeDisplay) ← readFee cmd.p2 cdata 1
  setCtx { ctx with tx := { ctx.tx with
    displayStr := displayStr
    remainingNumberOfScheduledAmounts := count.toNat
    feeDisplayStr := feeDisplayStr
    hasFeeDisplay := hasFeeDisplay
    state := .awaitingInitialConfirm } }
  startInitialScheduledTransferDisplay false

/-- Set the state of a flow whose first packet has been dispatched. -/
def scheduleStart (isInitialCall : Bool) : App Unit := do
  if isInitialCall then
    modifyCtx fun ctx : WithDataBlob SignTransferWithScheduleContext =>
      { ctx with tx := { ctx.tx with state := .initial } }

namespace SignTransferWithScheduleContext

/-- The opening packet. -/
def p1InitialPacket : UInt8 := 0x00
/-- A packet of releases. -/
def p1ScheduledTransferPairs : UInt8 := 0x01
/-- The opening packet of a flow with a memo. -/
def p1InitialWithMemo : UInt8 := 0x02
/-- A packet of the memo. -/
def p1Memo : UInt8 := 0x03

end SignTransferWithScheduleContext

open SignTransferWithScheduleContext in
/-- `handleSignTransferWithSchedule`. -/
def handleSignTransferWithSchedule (cmd : Command) (isInitialCall : Bool) : App Unit := do
  scheduleStart isInitialCall
  let state := (← getCtx (WithDataBlob SignTransferWithScheduleContext)).tx.state
  if cmd.p1 = p1InitialPacket ∧ state = .initial then scheduleInitial cmd
  else if cmd.p1 = p1ScheduledTransferPairs ∧ state = .transferPairs then schedulePairsPacket cmd
  else throw (.statusWord errorInvalidParam)

/-- The opening packet with a memo.  The number of releases is hashed behind the
    memo, as it stands in the transaction. -/
def scheduleMemoInitial (cmd : Command) : App Unit := do
  throwIf (p2SignTxFeeDisplay < cmd.p2) swoWrongP1P2
  let ctx ← getCtx (WithDataBlob SignTransferWithScheduleContext)
  let (offset, displayStr) ←
    handleHeaderAndToAddress cmd.data kindTransferWithScheduleWithMemo ctx.tx.displayStr
  let cdata ← advance cmd.data offset
  throwIf (cdata.length ≠ 3 + feeSuffix cmd.p2) swoIncorrectData
  let count ← u8 cdata 0
  let cdata ← advance cdata 1
  let cborLength ← u2be cdata 0
  throwIf (maxCborBlobSize < cborLength) errorInvalidParam
  updateHash (← slice cdata 0 2)
  let (feeDisplayStr, hasFeeDisplay) ← readFee cmd.p2 cdata 2
  setCtx (⟨{ ctx.tx with
    displayStr := displayStr
    remainingNumberOfScheduledAmounts := count.toNat
    feeDisplayStr := feeDisplayStr
    hasFeeDisplay := hasFeeDisplay
    state := .memoStart }, { ctx.cborContext with cborLength := cborLength }⟩ :
      WithDataBlob SignTransferWithScheduleContext)
  sendSuccessNoIdle

/-- `finish_memo_scheduled`. -/
def finishMemoScheduled : App Unit := do
  let ctx ← getCtx (WithDataBlob SignTransferWithScheduleContext)
  updateHash [UInt8.ofNat ctx.tx.remainingNumberOfScheduledAmounts]
  setCtx { ctx with tx := { ctx.tx with state := .transferPairs } }
  startInitialScheduledTransferDisplay true

/-- A memo packet, with the reader of its state. -/
def scheduleMemoPacket (cmd : Command)
    (readCbor : CborContext → Bytes → App (UInt16 × CborContext)) : App Unit := do
  throwIf (cmd.p2 ≠ p2SignTxDefault) swoWrongP1P2
  updateHash cmd.data
  let ctx ← getCtx (WithDataBlob SignTransferWithScheduleContext)
  let (sw, cbor) ← readCbor ctx.cborContext cmd.data
  setCtx { ctx with cborContext := cbor }
  if sw ≠ swoSuccess then sendRejection sw
  else if cbor.cborLength = 0 then finishMemoScheduled
  else
    setCtx (⟨{ ctx.tx with state := .memo }, cbor⟩ : WithDataBlob SignTransferWithScheduleContext)
    sendSuccessNoIdle

open SignTransferWithScheduleContext in
/-- `handleSignTransferWithScheduleAndMemo`. -/
def handleSignTransferWithScheduleAndMemo (cmd : Command) (isInitialCall : Bool) : App Unit := do
  scheduleStart isInitialCall
  let state := (← getCtx (WithDataBlob SignTransferWithScheduleContext)).tx.state
  if cmd.p1 = p1InitialWithMemo ∧ state = .initial then scheduleMemoInitial cmd
  else if cmd.p1 = p1Memo ∧ state = .memoStart then scheduleMemoPacket cmd readCborInitial
  else if cmd.p1 = p1Memo ∧ state = .memo then scheduleMemoPacket cmd readCborContent
  else if cmd.p1 = p1ScheduledTransferPairs ∧ state = .transferPairs then schedulePairsPacket cmd
  else throw (.statusWord errorInvalidParam)

end Concordium
