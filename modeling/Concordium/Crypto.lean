/-
  Keys and signatures (`concordium_crypto.c`) and the transaction hash
  (`tx_hash.c`).
-/
import Concordium.Path

namespace Concordium

open Buffer

variable [Platform]

/-- `ensureNoError` on a result that is missing when the SDK reports one. -/
def ensureNoError {α : Type} : Option α → App α
  | some a => pure a
  | none => throw (.statusWord errorFailedCxOperation)

/-! ## Keys -/

/-- `get_extended_private_key`: private key and chain code at a path. -/
def getExtendedPrivateKey (path : DerivationPath) : App (Buf 32 × Buf 32) :=
  ensureNoError (Platform.deriveSlip10 path.nodes)

/-- `get_private_key`. -/
def getPrivateKey (path : DerivationPath) : App (Buf 32) := do
  return (← getExtendedPrivateKey path).1

/-- The little-endian compression of the point `W` in `get_public_key`. -/
def compressPoint (W : Buf 65) : Bytes :=
  let le := (W.bytes.drop 33).reverse
  if W.bytes.getD 32 0 &&& 1 ≠ 0 then le.take 31 ++ [le.getD 31 0 ||| 0x80] else le

/-- `getPublicKey`: the compressed key at a path. -/
def getPublicKey (path : DerivationPath) : App Bytes := do
  let privateKey ← getPrivateKey path
  return compressPoint (← ensureNoError (Platform.ecfpGeneratePair privateKey))

/-- `sign`: the signature of `input` by the key at a path. -/
def sign (path : DerivationPath) (input : Bytes) : App (Buf 64) := do
  let privateKey ← getPrivateKey path
  ensureNoError (Platform.eddsaSign privateKey input)

/-- `getBlsPrivateKey`: the BLS key grown from the key at a path. -/
def getBlsPrivateKey (path : DerivationPath) : App (Buf 32) := do
  let privateKeySeed ← getPrivateKey path
  ensureNoError (Platform.blsKeygen privateKeySeed)

/-! ## The transaction hash -/

/-- `cx_sha256_init(&tx_state->hash)`. -/
def sha256Init : App Unit := do
  modify fun w => { w with txState := { w.txState with hash := [] } }
  record .hashInit

/-- `update_hash` on the transaction hash. -/
def updateHash (bs : Bytes) : App Unit := do
  modify fun w => { w with txState := { w.txState with hash := w.txState.hash ++ bs } }
  record (.hashUpdate bs)

/-- `hashHeaderAndType`: bytes consumed. -/
def hashHeaderAndType (cdata : Bytes) (headerLength : ℕ) (validType : UInt8) : App ℕ := do
  throwIf (cdata.length < headerLength + 1) errorInvalidTransaction
  updateHash (← slice cdata 0 headerLength)
  let type ← u8 cdata headerLength
  throwIf (type ≠ validType) errorInvalidTransaction
  updateHash [type]
  return headerLength + 1

/-- `hashAccountTransactionHeaderAndKind`: bytes consumed. -/
def hashAccountTransactionHeaderAndKind (cdata : Bytes) (validTransactionKind : UInt8) :
    App ℕ := do
  throwIf (cdata.length < accountTransactionHeaderLength) errorInvalidTransaction
  let account := (← get).accountSender
  let sender ← base58Address (← slice cdata 0 addressLength) account.sender
  let energy ← memmove (Buf.zero 21) 0 (← binToDec 21 (← u8be cdata energyOffsetInHeader))
  let network ← pathDisplayNetwork (← get).derivationPath
  modify fun w => { w with accountSender := ⟨sender, energy, network⟩ }
  hashHeaderAndType cdata accountTransactionHeaderLength validTransactionKind

/-- `handleHeaderAndToAddress`: bytes consumed and the recipient's text. -/
def handleHeaderAndToAddress (cdata : Bytes) (kind : UInt8) (recipientDst : Buf 57) :
    App (ℕ × Buf 57) := do
  let keyPathLength ← parseDerivationPath cdata
  let cdata ← advance cdata keyPathLength
  sha256Init
  let headerLength ← hashAccountTransactionHeaderAndKind cdata kind
  let cdata ← advance cdata headerLength
  throwIf (cdata.length < addressLength) errorInvalidTransaction
  let toAddress ← slice cdata 0 addressLength
  updateHash toAddress
  let recipientDst ← base58Address toAddress recipientDst
  return (keyPathLength + headerLength + addressLength, recipientDst)

/-- `buildAndSignTransactionHash`. -/
def buildAndSignTransactionHash : App Unit := do
  let w ← get
  let transactionHash := Platform.sha256 w.txState.hash
  modify fun w => { w with txState := { w.txState with transactionHash := transactionHash } }
  let signedHash ← sign w.derivationPath transactionHash.bytes
  record (.signed w.txState.currentInstruction w.derivationPath w.txState.hash)
  sendSuccess signedHash.bytes

end Concordium
