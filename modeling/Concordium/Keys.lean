/-
  Private-key export (`export_private_key_legacy_path.c`,
  `export_private_key_new_path.c`) and public keys (`get_public_key.c`).
-/
import Concordium.Ui

namespace Concordium

open Buffer

variable [Platform]

/-! ## Legacy export -/

/-- Release the PRF key, to decrypt. -/
def p1LegacyPrfKey : UInt8 := 0x00
/-- Release the PRF key, to recover. -/
def p1LegacyPrfKeyRecovery : UInt8 := 0x01
/-- Release the PRF key and IdCredSec. -/
def p1LegacyPrfKeyAndIdCredSec : UInt8 := 0x02
/-- Release the seeds themselves. -/
def p2LegacySeed : UInt8 := 0x01
/-- Release the BLS keys grown from them. -/
def p2LegacyKey : UInt8 := 0x02

/-- The verb of the review and the keys it lists, by purpose. -/
def legacyPurposeText (p1 : UInt8) : Option (Bytes × Bytes) :=
  if p1 = p1LegacyPrfKeyAndIdCredSec then
    some (ascii "to create credentials", ascii "PRF key, IdCredSec")
  else if p1 = p1LegacyPrfKeyRecovery then some (ascii "to recover credentials", ascii "PRF key")
  else if p1 = p1LegacyPrfKey then some (ascii "to decrypt credentials", ascii "PRF key")
  else none

/-- Both export handlers write these texts alike. -/
def setExportTexts (ctx : ExportPrivateKeyContext) (detailTitle detail verb keyTypes : Bytes) :
    App ExportPrivateKeyContext := do
  return { ctx with
    displayCredidTitle := ← memmove ctx.displayCredidTitle 0 (ascii "Credentials ID" ++ [0])
    displayReviewOperation :=
      ← memmove ctx.displayReviewOperation 0 (ascii "Export private keys" ++ [0])
    displaySign := ← memmove ctx.displaySign 0 (ascii "Approve export" ++ [0])
    displayDetailTitle := ← memmove ctx.displayDetailTitle 0 (detailTitle ++ [0])
    displayDetail := ← memmove ctx.displayDetail 0 (detail ++ [0])
    displayReviewVerb := ← memmove ctx.displayReviewVerb 0 (verb ++ [0])
    displaySignVerb := ← memmove ctx.displaySignVerb 0 (verb ++ ascii "?" ++ [0])
    displayKeyTypes := ← memmove ctx.displayKeyTypes 0 (keyTypes ++ [0]) }

/-- `handleExportPrivateKeyLegacyPath`. -/
def handleExportPrivateKeyLegacyPath (cmd : Command) : App Unit := do
  throwIf ((cmd.p1 ≠ p1LegacyPrfKeyAndIdCredSec ∧ cmd.p1 ≠ p1LegacyPrfKey ∧
      cmd.p1 ≠ p1LegacyPrfKeyRecovery) ∨ (cmd.p2 ≠ p2LegacyKey ∧ cmd.p2 ≠ p2LegacySeed))
    errorInvalidParam
  modifyCtx fun ctx : ExportPrivateKeyContext => { ctx with isNewPath := false }
  throwIf (cmd.lc < 4) errorInvalidPath
  let identity := UInt32.ofNat (← u4be cmd.data 0)
  throwIf (identity &&& hardenedBit ≠ 0) errorInvalidPath
  setDerivationPath (DerivationPath.harden
    (.ofNodes [legacyPurpose, legacyCoinType, 0, 0, identity] .invalid))
  let exportSeed := cmd.p2 == p2LegacySeed
  let ctx ← getCtx ExportPrivateKeyContext
  let credid ← memmove ctx.displayCredid 0 (ascii "ID#")
  let credid ← memmove credid 3 (← binToDec (22 - 3) identity.toNat)
  match legacyPurposeText cmd.p1 with
  | none => throw (.statusWord swoIncorrectP1P2)
  | some (verb, keyTypes) =>
    let ctx ← setExportTexts { ctx with
        exportBoth := cmd.p1 == p1LegacyPrfKeyAndIdCredSec
        exportSeed := exportSeed
        displayCredid := credid }
      (ascii "Key format") (if exportSeed then ascii "Raw seed" else ascii "BLS key") verb keyTypes
    setCtx ctx
    uiExportPrivateKey

/-- The last node of the `k`-th exported legacy key. -/
def legacyLastSubPath (k : ℕ) : UInt32 := if k = 0 then legacyPrfKey else legacyIdCredSec

/-- The export loop of `exportPrivateKeySeed` and `exportPrivateKeyBls` from
    key `k` on: `global_derivation_path` is pointed at each key in turn. -/
def exportLegacyKeys (getKey : DerivationPath → App (Buf 32)) : ℕ → ℕ → App Bytes
  | 0, _ => pure []
  | keyCount + 1, k => do
    setDerivationPath
      ((← get).derivationPath.setLastNode 5 (legacyLastSubPath k) (by decide)).harden
    let privateKey ← getKey (← get).derivationPath
    return privateKey.bytes ++ (← exportLegacyKeys getKey keyCount (k + 1))

/-- `exportPrivateKeySeed`. -/
def exportPrivateKeySeed : App Unit := do
  let ctx ← getCtx ExportPrivateKeyContext
  sendSuccess (← exportLegacyKeys getPrivateKey (if ctx.exportBoth then 2 else 1) 0)

/-- `exportPrivateKeyBls`. -/
def exportPrivateKeyBls : App Unit := do
  let ctx ← getCtx ExportPrivateKeyContext
  sendSuccess (← exportLegacyKeys getBlsPrivateKey (if ctx.exportBoth then 2 else 1) 0)

/-- `exportPrivateKey`, the approval of a legacy export. -/
def exportPrivateKey : App Unit := do
  let ctx ← getCtx ExportPrivateKeyContext
  if ctx.exportSeed then exportPrivateKeySeed else exportPrivateKeyBls

/-! ## New-path export -/

/-- Release what an identity is issued with. -/
def p1IdentityCredentialCreation : UInt8 := 0x00
/-- Release what an account is created with. -/
def p1AccountCreation : UInt8 := 0x01
/-- Release what an identity is recovered with. -/
def p1IdRecovery : UInt8 := 0x02
/-- Release what credentials are found with. -/
def p1AccountCredentialDiscovery : UInt8 := 0x03
/-- Release what a proof about attributes takes. -/
def p1CreationOfZkProof : UInt8 := 0x04
/-- Keys of mainnet. -/
def p2Mainnet : UInt8 := 0x00
/-- Keys of testnet. -/
def p2Testnet : UInt8 := 0x01

/-- `append_export_key_type` on a base path of four nodes. -/
def appendExportKeyType (nodes : List UInt32) (keyType account : UInt32) : Option (List UInt32) :=
  if keyType = newIdCredSec ∨ keyType = newPrfKey ∨ keyType = newSignatureBlindingRandomness then
    if derivationPathNodesMax ≤ nodes.length then none else some (nodes ++ [keyType])
  else if keyType = newCommitmentRandomness then
    if derivationPathNodesMax < nodes.length + 2 then none
    else some (nodes ++ [newCommitmentRandomness, account])
  else none

/-- The coin type of a network designation. -/
def coinTypeOfNetwork (networkDesignation : UInt8) : Option UInt32 :=
  if networkDesignation = p2Mainnet then some newMainnetCoinType
  else if networkDesignation = p2Testnet then some newTestnetCoinType
  else none

/-- `keysToExport`, by purpose. -/
def keysToExport (purpose : UInt8) : Option (List UInt32) :=
  if purpose = p1IdentityCredentialCreation then
    some [newIdCredSec, newPrfKey, newSignatureBlindingRandomness]
  else if purpose = p1AccountCreation then some [newPrfKey, newIdCredSec, newCommitmentRandomness]
  else if purpose = p1IdRecovery then some [newIdCredSec, newSignatureBlindingRandomness]
  else if purpose = p1AccountCredentialDiscovery then some [newPrfKey]
  else if purpose = p1CreationOfZkProof then some [newCommitmentRandomness]
  else none

/-- One key with its length prefix, behind `tx` bytes of the output. -/
def exportKey (basePath : List UInt32) (account : UInt32) (outputSize tx : ℕ) (keyType : UInt32) :
    App Bytes := do
  match appendExportKeyType basePath keyType account with
  | none => throw (.statusWord errorBufferOverflow)
  | some nodes =>
    let subpath := (DerivationPath.ofNodes nodes .invalid).harden
    if keyType = newCommitmentRandomness then
      throwIf (outputSize < tx + 1 + 2 * keyLength) errorBufferOverflow
      let (privateKey, chainCode) ← getExtendedPrivateKey subpath
      return UInt8.ofNat (2 * keyLength) :: privateKey.bytes ++ chainCode.bytes
    else
      throwIf (outputSize < tx + 1 + keyLength) errorBufferOverflow
      let privateKey ← getBlsPrivateKey subpath
      return UInt8.ofNat keyLength :: privateKey.bytes

/-- The export loop; `out` is what has been written. -/
def exportKeys (basePath : List UInt32) (account : UInt32) (outputSize : ℕ) :
    List UInt32 → Bytes → App Bytes
  | [], out => pure out
  | keyType :: keyTypes, out => do
    let key ← exportKey basePath account outputSize out.length keyType
    exportKeys basePath account outputSize keyTypes (out ++ key)

/-- `exportNewPathPrivateKeysForPurpose`: the status word, and the output when
    it is success.  A status word thrown by the loop is caught and reported. -/
def exportNewPathPrivateKeysForPurpose (purpose networkDesignation : UInt8)
    (identityProvider identity account : UInt32) (outputSize : ℕ) : App (UInt16 × Bytes) :=
  match coinTypeOfNetwork networkDesignation, keysToExport purpose with
  | none, _ => pure (errorInvalidParam, [])
  | some _, none => pure (errorInvalidParam, [])
  | some coinType, some keyTypes =>
    catching (do
      let out ← exportKeys [newPurpose, coinType, identityProvider, identity] account outputSize
        keyTypes []
      return (swoSuccess, out)) fun sw => return (sw, [])

/-- The verb of the review and the keys it lists, by purpose. -/
def newPathPurposeText (p1 : UInt8) : Bytes × Bytes :=
  if p1 = p1IdentityCredentialCreation then
    (ascii "to create credentials", ascii "IdCredSec, PRF key, blinding")
  else if p1 = p1AccountCreation then
    (ascii "to create account", ascii "PRF key, IdCredSec, commitment")
  else if p1 = p1IdRecovery then (ascii "to recover credentials", ascii "IdCredSec, blinding")
  else if p1 = p1AccountCredentialDiscovery then
    (ascii "to discover credentials", ascii "PRF key")
  else (ascii "to create ZK proof", ascii "Commitment randomness")

/-- `append_dec`: the offset behind the digits, or behind the NUL as well when
    no text follows. -/
def appendDec {n : ℕ} (buf : Buf n) (off number : ℕ) (moreFollows : Bool) : App (Buf n × ℕ) := do
  let text ← binToDec (n - off) number
  let buf ← memmove buf off text
  return (buf, off + text.length - (if moreFollows then 1 else 0))

/-- `handleExportPrivateKeyNewPath`: the request is kept, the keys are derived on approval. -/
def handleExportPrivateKeyNewPath (cmd : Command) : App Unit := do
  throwIf (cmd.p1 ≠ p1IdentityCredentialCreation ∧ cmd.p1 ≠ p1AccountCreation ∧
    cmd.p1 ≠ p1IdRecovery ∧ cmd.p1 ≠ p1AccountCredentialDiscovery ∧
    cmd.p1 ≠ p1CreationOfZkProof) errorInvalidParam
  throwIf (cmd.p2 ≠ p2Mainnet ∧ cmd.p2 ≠ p2Testnet) errorInvalidParam
  let needAccount := cmd.p1 == p1AccountCreation || cmd.p1 == p1CreationOfZkProof
  throwIf (cmd.data.length < 4) errorInvalidPath
  let identityProvider := UInt32.ofNat (← u4be cmd.data 0)
  throwIf (identityProvider &&& hardenedBit ≠ 0) errorInvalidPath
  throwIf (cmd.data.length - 4 < 4) errorInvalidPath
  let identity := UInt32.ofNat (← u4be cmd.data 4)
  throwIf (identity &&& hardenedBit ≠ 0) errorInvalidPath
  let account ← (do
    if needAccount then
      throwIf (cmd.data.length - 8 < 4) errorInvalidPath
      let account := UInt32.ofNat (← u4be cmd.data 8)
      throwIf (account &&& hardenedBit ≠ 0) errorInvalidPath
      return account
    else
      return 0xFFFFFFFF)
  let ctx ← getCtx ExportPrivateKeyContext
  let credid ← memmove ctx.displayCredid 0 (ascii "IDP#")
  let (credid, offset) ← appendDec credid 4 identityProvider.toNat true
  let credid ← memmove credid offset (ascii " ID#")
  let (credid, offset) ← appendDec credid (offset + 4) identity.toNat needAccount
  let (verb, keyTypes) := newPathPurposeText cmd.p1
  let ctx ← setExportTexts ctx (ascii "Network")
    (if cmd.p2 = p2Mainnet then ascii "Mainnet" else ascii "Testnet") verb keyTypes
  let credid ← (do
    if needAccount then
      throwIf (22 < offset + 9) errorBufferOverflow
      let credid ← memmove credid offset (ascii " ACCOUNT#")
      return (← appendDec credid (offset + 9) account.toNat false).1
    else
      return credid)
  setCtx { ctx with
    newPathPurpose := cmd.p1
    newPathNetwork := cmd.p2
    newPathIdentityProvider := identityProvider
    newPathIdentity := identity
    newPathAccount := account
    isNewPath := true
    outputPrivateKeys := Buf.zero 195
    privateKeysLength := 0
    displayCredid := credid }
  uiExportPrivateKeysNewPath

/-- `sendPrivateKeysNewPath`. -/
def sendPrivateKeysNewPath : App Unit := do
  let ctx ← getCtx ExportPrivateKeyContext
  if ctx.isNewPath then
    let (sw, out) ← exportNewPathPrivateKeysForPurpose ctx.newPathPurpose ctx.newPathNetwork
      ctx.newPathIdentityProvider ctx.newPathIdentity ctx.newPathAccount 195
    if sw = swoSuccess then
      let outputPrivateKeys ← memmove ctx.outputPrivateKeys 0 out
      setCtx { ctx with outputPrivateKeys := outputPrivateKeys, privateKeysLength := out.length }
      sendSuccess out
      setCtx { ctx with outputPrivateKeys := Buf.zero 195, privateKeysLength := 0 }
    else
      setCtx { ctx with outputPrivateKeys := Buf.zero 195, privateKeysLength := 0 }
      sendRejection sw
      uiMenuMain
  else
    sendRejection errorInvalidState
    uiMenuMain

/-- `rejectPrivateKeysNewPath`. -/
def rejectPrivateKeysNewPath : App Unit := do
  modifyCtx fun ctx : ExportPrivateKeyContext =>
    { ctx with outputPrivateKeys := Buf.zero 195, privateKeysLength := 0 }
  sendUserRejection

/-! ## Public keys -/

/-- Release the key without a review. -/
def p1SkipDisplay : UInt8 := 0x01
/-- Release a signature of the key along with it. -/
def p2SignPublicKey : UInt8 := 0x01

/-- `send_public_key`. -/
def sendPublicKey (compare : Bool) : App Unit := do
  modify fun w => { w with publicKeyReviewPending := false }
  let reviewedPath := (← get).reviewedPath
  let publicKey ← getPublicKey reviewedPath
  let ctx ← getCtx ExportPublicKeyContext
  let signature ← (do
    if ctx.signPublicKey then return (← sign reviewedPath publicKey).bytes else return [])
  let response := publicKey ++ signature
  if compare then
    sendSuccessResultNoIdle response
    let comparePublicKey ← toPaginatedHex publicKey (← get).comparePublicKey.publicKey
    modify fun w => { w with comparePublicKey := ⟨ctx.display, comparePublicKey⟩ }
    releaseInstruction
    uiComparePubkey
  else
    sendSuccess response

/-- The path of a governance key: `1105'/0'/1'/level'/...` of five nodes. -/
def governanceLabel (level : UInt32) : App Bytes :=
  if level = 0 then return ascii "Gov. root" ++ [0]
  else if level = 1 then return ascii "Gov. level 1" ++ [0]
  else if level = 2 then return ascii "Gov. level 2" ++ [0]
  else throw (.statusWord errorInvalidPath)

/-- The identity text of a public-key review, on unhardened nodes. -/
def publicKeyDisplay (dp : DerivationPath) : App Bytes := do
  throwIf (dp.len = 5 ∧ dp.node 0 = legacyPurpose ∧ dp.node 2 ≠ 1) errorInvalidPath
  if dp.len = 5 ∧ dp.node 0 = legacyPurpose ∧ dp.node 2 = 1 then
    governanceLabel (dp.node 3)
  else if dp.variant = .new then
    pathDisplayNew 21 (dp.node 2) (dp.node 3) (dp.node 4)
  else
    pathDisplayLegacy 21 (dp.node 4) (dp.node 6)

/-- `handleGetPublicKey`. -/
def handleGetPublicKey (cmd : Command) : App Unit := do
  if (← get).publicKeyReviewPending then
    ioSendSw errorInvalidState
  else
    let _ ← parseDerivationPath cmd.data
    modify fun w => { w with reviewedPath := w.derivationPath }
    modifyCtx fun ctx : ExportPublicKeyContext =>
      { ctx with signPublicKey := cmd.p2 == p2SignPublicKey }
    if cmd.p1 = p1SkipDisplay then
      sendPublicKey false
    else
      setDerivationPath (← get).derivationPath.unharden
      let text ← publicKeyDisplay (← get).derivationPath
      setDerivationPath (← get).derivationPath.harden
      let publicKey ← getPublicKey (← get).reviewedPath
      let ctx ← getCtx ExportPublicKeyContext
      let display ← memmove ctx.display 0 text
      let publicKeyText ← toPaginatedHex publicKey ctx.publicKey
      setCtx { ctx with display := display, publicKey := publicKeyText }
      modify fun w => { w with publicKeyReviewPending := true }
      uiGeneratePubkey

end Concordium
