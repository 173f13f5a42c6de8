/-
  A device to run the model on.

  The cryptography is a stand-in that is easy to compute; the TLV splitter and
  the value readers do what the SDK's do on short-form lengths.
-/
import Concordium.Platform

namespace Concordium

open Buffer

/-- Entries of a tag, a length below 128 and a value. -/
def shortTlv : ℕ → Bytes → Option (List TlvData)
  | _, [] => some []
  | fuel + 1, tag :: len :: rest =>
    if len.toNat < 128 ∧ len.toNat ≤ rest.length then
      let value := rest.take len.toNat
      (shortTlv fuel (rest.drop len.toNat)).map (⟨tag, value, tag :: len :: value⟩ :: ·)
    else none
  | _, _ => none

/-- No CBOR document is accepted. -/
def noCbor : TinyCbor where
  Value := Unit
  parserInit _ := none
  getType _ := .other
  isLengthKnown _ := false
  atEnd _ := true
  getNextByte _ := 0
  getTag _ := 0
  getUint64 _ := 0
  getRawInteger _ := 0
  advanceFixed _ := none
  advance _ := none
  enterContainer _ := none
  leaveContainer _ _ := none
  copyByteString _ _ := none
  copyTextString _ _ := none
  getStringLength _ := none
  firstChunk _ := none

/-- Two hexadecimal digits a byte. -/
def hexText (bs : Bytes) : Bytes :=
  bs.flatMap fun b => [97 + b / 16, 97 + b % 16]

/-- A device to run the app on. -/
@[reducible] def device (backend : Backend) : Platform where
  backend := backend
  residue _ _ := default
  sha256 bs := Buf.ofBytes 32 bs
  sha3_256 bs := bs
  keccak_256 bs := bs
  ripemd160 bs := bs
  sha512 bs := bs
  base58Encode bs n := if 50 ≤ n then some ((hexText bs).take 50) else none
  formatFpu64Trimmed _ n _ := some (decimal n)
  deriveSlip10 nodes := some (Buf.ofBytes 32 (nodes.map fun n => UInt8.ofNat n.toNat), Buf.zero 32)
  ecfpGeneratePair key := some (Buf.ofBytes 65 key.bytes)
  eddsaSign key msg := some (Buf.ofBytes 64 (key.bytes ++ msg))
  blsKeygen key := some key
  getCredId key n := some (Buf.ofBytes 48 (key.bytes ++ [UInt8.ofNat n.toNat]))
  rng n := Buf.ofBytes 8 (toBe 8 (n + 1))
  appName := ascii "Concordium"
  majorVersion := 5
  minorVersion := 1
  patchVersion := 0
  validKeyId := 7
  tlvEntries bs := shortTlv bs.length bs
  tlvUint width value := if value.length = width then some (beNat value) else none
  tlvBuffer value min max :=
    if min ≤ value.length ∧ (max = 0 ∨ value.length ≤ max) then some value else none
  tlvString value size := if value.length < size then some value else none
  checkSignatureWithPki _ _ _ := true
  cbor := noCbor

end Concordium
