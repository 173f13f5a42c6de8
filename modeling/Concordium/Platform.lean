/-
  What the app takes from outside its sources: the SDK's cryptography,
  formatters and TLV splitter, the CBOR library, the display backend it is
  built for, and the memory layout of its unions.

  Everything here is a parameter of the model.  A theorem that relies on the
  behaviour of one of these functions says so as a hypothesis.
-/
import Concordium.Context

namespace Concordium

open Buffer

/-- The display library the app is built for. -/
inductive Backend where
  | nbgl | bagl
deriving DecidableEq, Repr

/-- The item type a CBOR cursor reports. -/
inductive CborType where
  | unsignedInteger | negativeInteger | byteString | textString | array | map | tag | other
deriving DecidableEq, Repr

/-- The CBOR library: operations on a cursor `Value`.  An operation that can
    report an error other than `CborNoError` returns an `Option`. -/
structure TinyCbor where
  Value : Type
  /-- `cbor_parser_init` on a whole buffer. -/
  parserInit : Bytes → Option Value
  getType : Value → CborType
  isLengthKnown : Value → Bool
  atEnd : Value → Bool
  /-- `cbor_value_get_next_byte`, as an offset into the buffer. -/
  getNextByte : Value → ℕ
  getTag : Value → ℕ
  getUint64 : Value → ℕ
  getRawInteger : Value → ℕ
  advanceFixed : Value → Option Value
  advance : Value → Option Value
  enterContainer : Value → Option Value
  /-- `cbor_value_leave_container parent child`. -/
  leaveContainer : Value → Value → Option Value
  /-- `cbor_value_copy_byte_string` into a buffer of the given size. -/
  copyByteString : Value → ℕ → Option (Bytes × Value)
  copyTextString : Value → ℕ → Option (Bytes × Value)
  getStringLength : Value → Option ℕ
  /-- `cbor_value_begin_string_iteration` and the first
      `cbor_value_get_*_string_chunk`: where the chunk starts, its bytes, and
      the cursor behind it. -/
  firstChunk : Value → Option (ℕ × Bytes × Value)

/-- One entry of a TLV payload; `raw` is the entry as it stood there. -/
structure TlvData where
  tag : UInt8
  value : Bytes
  raw : Bytes
deriving DecidableEq, Repr

/-- The curves of the keys the app uses. -/
inductive Curve where
  | ed25519 | secp256k1
deriving DecidableEq, Repr

/-- What the app takes from the device: the SDK, its libraries and the constants of
    the build. -/
class Platform : Type 1 where
  backend : Backend
  /-- What a member of type `α` reads when the union's bytes were last written
      as another member. -/
  residue : {β : Type} → β → (α : Type) → [Inhabited α] → α
  sha256 : Bytes → Buf 32
  sha3_256 : Bytes → Bytes
  keccak_256 : Bytes → Bytes
  ripemd160 : Bytes → Bytes
  sha512 : Bytes → Bytes
  /-- `base58_encode` into a buffer of the given size; no terminator. -/
  base58Encode : Bytes → ℕ → Option Bytes
  /-- `format_fpu64_trimmed` into a buffer of the given size. -/
  formatFpu64Trimmed : ℕ → ℕ → ℕ → Option Bytes
  /-- `os_derive_bip32_with_seed_no_throw` for SLIP-10 on Ed25519: private key
      and chain code. -/
  deriveSlip10 : List UInt32 → Option (Buf 32 × Buf 32)
  /-- `cx_ecfp_generate_pair_no_throw`: the uncompressed point `W`. -/
  ecfpGeneratePair : Buf 32 → Option (Buf 65)
  eddsaSign : Buf 32 → Bytes → Option (Buf 64)
  /-- `blsKeygen` over the SDK's HKDF and modular reduction. -/
  blsKeygen : Buf 32 → Option (Buf 32)
  /-- `getCredId` over the SDK's big numbers and curve points. -/
  getCredId : Buf 32 → UInt32 → Option (Buf 48)
  /-- The `n`-th output of `cx_rng_no_throw`. -/
  rng : ℕ → Buf 8
  appName : Bytes
  majorVersion : UInt8
  minorVersion : UInt8
  patchVersion : UInt8
  /-- The signer key id this build accepts. -/
  validKeyId : ℕ
  /-- `_parse_tlv_internal`: the entries of a well-framed payload. -/
  tlvEntries : Bytes → Option (List TlvData)
  /-- `get_uint8_t_from_tlv_data` and its wider variants, by width in bytes. -/
  tlvUint : ℕ → Bytes → Option ℕ
  /-- `get_buffer_from_tlv_data` with its bounds on the length; no upper bound
      is zero. -/
  tlvBuffer : Bytes → ℕ → ℕ → Option Bytes
  /-- `get_string_from_tlv_data` into a buffer of the given size. -/
  tlvString : Bytes → ℕ → Option Bytes
  checkSignatureWithPki : Bytes → Curve → Bytes → Bool
  cbor : TinyCbor

end Concordium
