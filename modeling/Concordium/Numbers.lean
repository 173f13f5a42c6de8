/-
  Text of numbers, amounts, addresses and digests (`numberHelpers.c`,
  `base58check.c`, `fee_display.c`, `display_text.c`).

  A formatter that fills a buffer from its start returns the bytes it writes
  there, terminator included; the caller moves them into place.
-/
import Concordium.World

namespace Concordium

open Buffer

/-- `u64_to_digits_no_nul` and `number_to_text`: the digits, without a NUL. -/
def numberToText (dstLength number : ℕ) : App Bytes := do
  let digits := decimal number
  throwIf (dstLength < digits.length) errorBufferOverflow
  return digits

/-- `bin_to_dec`: the digits and a NUL. -/
def binToDec (dstLength number : ℕ) : App Bytes := do
  let digits ← numberToText dstLength number
  throwIf (dstLength < digits.length + 1) errorBufferOverflow
  return digits ++ [0]

/-- The size of the scratch buffer of `format_fpu64_trimmed`. -/
def fpu64TmpLen : ℕ := 40
/-- 100 percent, in thousandths of a percent. -/
def maxPercentageNumerator : ℕ := 100000

section
variable [Platform]

/-- `format_fpu64_trimmed` into the shared scratch buffer, read as a C string. -/
def formatFpu64Tmp (number decimals : ℕ) : App Bytes :=
  match Platform.formatFpu64Trimmed fpu64TmpLen number decimals with
  | none => throw (.statusWord errorBufferOverflow)
  | some text => pure (text.takeWhile (· != 0))

/-- `fraction_to_percentage_display`: thousandths of a percent and a percent sign. -/
def fractionToPercentageDisplay (dstLength number : ℕ) : App Bytes := do
  throwIf (maxPercentageNumerator < number) errorInvalidTransaction
  let tmp ← formatFpu64Tmp number 3
  throwIf (dstLength < tmp.length + 2) errorBufferOverflow
  return tmp ++ ascii "%" ++ [0]

/-- `amount_to_ccd_display`: micro CCD as CCD; the unit moves to a line of its own
    behind a number of 14 to 17 characters. -/
def amountToCcdDisplay (dstLength microCcdAmount : ℕ) : App Bytes := do
  let tmp ← formatFpu64Tmp microCcdAmount 6
  throwIf (dstLength < tmp.length + 5) errorBufferOverflow
  if 14 ≤ tmp.length ∧ tmp.length < 18 then
    return tmp ++ ascii "\nCCD" ++ [0]
  else
    return tmp ++ ascii " CCD" ++ [0]

/-- `plt_amount_to_display`; `exponent` is an `int8_t`. -/
def pltAmountToDisplay (dstLen significand : ℕ) (exponent : ℤ) (tokenId : Bytes) :
    App Bytes := do
  let decimals := if exponent < 0 then exponent.natAbs else 0
  let tmp ← formatFpu64Tmp significand decimals
  throwIf (dstLen < tmp.length + 1 + tokenId.length + 1) errorBufferOverflow
  return tmp ++ ascii " " ++ tokenId ++ [0]

end

/-- The characters of a line of paginated hexadecimal. -/
def hexPaginationWidth : ℕ := 16

/-- A hexadecimal digit in lower case. -/
def hexDigit (n : ℕ) : UInt8 := UInt8.ofNat (if n < 10 then 48 + n else 87 + n)

/-- The loop of `to_paginated_hex` from byte `i` on; `offset` is the `uint8_t`
    count of newlines written so far. -/
def toPaginatedHexFrom {n : ℕ} (len : ℕ) : Bytes → ℕ → UInt8 → Buf n → App (Buf n)
  | [], _, offset, asHex => memmove asHex (2 * len + offset.toNat) [0]
  | b :: bs, i, offset, asHex => do
    let asHex ← memmove asHex (2 * i + offset.toNat)
      [hexDigit (b.toNat / 16), hexDigit (b.toNat % 16)]
    if (2 * (i + 1)) % hexPaginationWidth = 0 ∧ i ≠ len - 1 then
      let asHex ← memmove asHex (2 * i + offset.toNat + 2) (ascii "\n")
      toPaginatedHexFrom len bs (i + 1) (offset + 1) asHex
    else
      toPaginatedHexFrom len bs (i + 1) offset asHex

/-- `to_paginated_hex` into the buffer `asHex`. -/
def toPaginatedHex {n : ℕ} (bytes : Bytes) (asHex : Buf n) : App (Buf n) := do
  let len := bytes.length
  throwIf (0 < len ∧ n < len * 2 + (2 * len - 1) / hexPaginationWidth + 1) errorBufferOverflow
  toPaginatedHexFrom len bytes 0 0 asHex

/-- A hexadecimal digit in upper case. -/
def hexDigitUpper (n : ℕ) : UInt8 := UInt8.ofNat (if n < 10 then 48 + n else 55 + n)

/-- `format_hex`: upper-case digits and a NUL, or `none` for the result `-1`. -/
def formatHex (bytes : Bytes) (outLen : ℕ) : Option Bytes :=
  if outLen < 2 * bytes.length + 1 then none
  else some (bytes.flatMap (fun b => [hexDigitUpper (b.toNat / 16), hexDigitUpper (b.toNat % 16)])
    ++ [0])

/-- `format_hex` into the buffer `dst`; the caller throws `sw` on `-1`. -/
def formatHexInto {n : ℕ} (bytes : Bytes) (dst : Buf n) (sw : UInt16) : App (Buf n) :=
  match formatHex bytes n with
  | none => throw (.statusWord sw)
  | some text => memmove dst 0 text

/-- `is_displayable_text`. -/
def isDisplayableText (text : Bytes) : Bool := text.all fun b => !(b < 0x20 || b == 0x7F)

section
variable [Platform]

/-- The version byte of an account address. -/
def base58VersionByte : UInt8 := 1

/-- `base58check_encode`: the text without a terminator, or `none` for `-1`. -/
def base58checkEncode (input : Bytes) (outlen : ℕ) : App (Option Bytes) := do
  throwIf (input.length ≠ addressLength) errorInvalidTransaction
  let versioned := base58VersionByte :: input
  let checksum := (Platform.sha256 (Platform.sha256 versioned).bytes).bytes.take 4
  return Platform.base58Encode (versioned ++ checksum) outlen

/-- Write an address and its terminator, as every caller of
    `base58check_encode` that throws on `-1` does. -/
def base58Address {n : ℕ} (input : Bytes) (dst : Buf n) : App (Buf n) := do
  match ← base58checkEncode input n with
  | none => throw (.statusWord errorInvalidTransaction)
  | some text =>
    let dst ← memmove dst 0 text
    memmove dst base58AddressLength [0]

/-- The fee suffix that asks for no fee row. -/
def feeDisplayValueOmit : ℕ := 2 ^ 64 - 1

/-- `fee_display_apply_u64`: the fee text and `has_fee_display`. -/
def feeDisplayApplyU64 (feeBe : Bytes) : App (Buf 30 × Bool) := do
  let v ← u8be feeBe 0
  let dst : Buf 30 := Buf.zero 30
  if v = feeDisplayValueOmit then
    return (dst, false)
  else
    let dst ← memmove dst 0 (← amountToCcdDisplay 30 v)
    return (dst, true)

end

end Concordium
