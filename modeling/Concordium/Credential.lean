/-
  Public information for the identity provider, credential deployment and
  credential updates (`sign_public_information_for_ip.c`,
  `sign_credential_deployment.c`, `sign_update_credential.c`).
-/
import Concordium.Ui

namespace Concordium

open Buffer

variable [Platform]

/-- Ask for `n` bytes and hash them: the bytes and those behind them. -/
def hashField (cdata : Bytes) (n : ℕ) : App (Bytes × Bytes) := do
  throwIf (cdata.length < n) swoIncorrectData
  let field ← slice cdata 0 n
  updateHash field
  return (field, ← advance cdata n)

/-! ## Public information for the identity provider -/

namespace SignPublicInformationForIp

/-- The opening packet. -/
def p1Initial : UInt8 := 0x00
/-- A key. -/
def p1VerificationKey : UInt8 := 0x01
/-- The signature threshold. -/
def p1Threshold : UInt8 := 0x02

end SignPublicInformationForIp

/-- A field of 48 bytes whose digits are shown. -/
def hashHexField (cdata : Bytes) (dst : Buf 97) : App (Buf 97 × Bytes) := do
  throwIf (cdata.length < 48) swoIncorrectData
  let field ← slice cdata 0 48
  let dst ← formatHexInto field dst swoIncorrectData
  let dst ← memmove dst 96 [0]
  updateHash field
  return (dst, ← advance cdata 48)

/-- The opening packet: the identity fields and the number of keys. -/
def publicInfoInitial (cmd : Command) : App Unit := do
  let offset ← parseDerivationPath cmd.data
  let cdata ← advance cmd.data offset
  sha256Init
  let ctx ← getCtx SignPublicInformationForIp
  let (idCredPub, cdata) ← hashHexField cdata ctx.idCredPub
  let (credId, cdata) ← hashHexField cdata ctx.credId
  throwIf (cdata.length < 1) swoIncorrectData
  let publicKeysLength ← u8 cdata 0
  updateHash [publicKeysLength]
  setCtx { ctx with
    idCredPub := idCredPub
    credId := credId
    publicKeysLength := publicKeysLength.toNat
    showIntro := true
    state := .verificationKey }
  sendSuccessNoIdle

/-- A key.  Every key but the last is reviewed at once. -/
def publicInfoVerificationKey (cmd : Command) : App Unit := do
  let ctx ← getCtx SignPublicInformationForIp
  throwIf (ctx.publicKeysLength = 0) errorInvalidState
  throwIf (cmd.data.length < 1) swoIncorrectData
  let keyTypeByte ← slice cmd.data 0 1
  let keyType ← formatHexInto keyTypeByte ctx.keyType swoIncorrectData
  let keyType ← memmove keyType 2 [0]
  updateHash keyTypeByte
  let cdata ← advance cmd.data 1
  let (_, cdata) ← hashField cdata 1
  let (publicKeyBytes, _) ← hashField cdata 32
  let publicKey ← toPaginatedHex publicKeyBytes ctx.publicKey
  let ctx := { ctx with
    keyType := keyType
    publicKey := publicKey
    publicKeysLength := ctx.publicKeysLength - 1 }
  if 0 < ctx.publicKeysLength then
    setCtx { ctx with showIntro := false }
    if ctx.showIntro then uiReviewPublicInformationForIpDisplay
    else uiSignPublicInformationForIpPublicKeyDisplay
  else
    setCtx { ctx with state := .threshold }
    sendSuccessNoIdle

/-- The threshold, which starts the final review. -/
def publicInfoThreshold (cmd : Command) : App Unit := do
  let ctx ← getCtx SignPublicInformationForIp
  let (field, _) ← hashField cmd.data 1
  let threshold ← memmove ctx.threshold 0 (← binToDec 4 (beNat field))
  setCtx { ctx with threshold := threshold }
  if ctx.showIntro then uiSignPublicInformationForIpCompleteDisplay
  else uiSignPublicInformationForIpFinalDisplay

open SignPublicInformationForIp in
/-- `handleSignPublicInformationForIp`. -/
def handleSignPublicInformationForIp (cmd : Command) (isInitialCall : Bool) : App Unit := do
  if isInitialCall then
    modifyCtx fun ctx : SignPublicInformationForIp => { ctx with state := .initial }
  let state := (← getCtx SignPublicInformationForIp).state
  if cmd.p1 = p1Initial ∧ state = .initial then publicInfoInitial cmd
  else if cmd.p1 = p1VerificationKey ∧ state = .verificationKey then publicInfoVerificationKey cmd
  else if cmd.p1 = p1Threshold ∧ state = .threshold then publicInfoThreshold cmd
  else throw (.statusWord errorInvalidState)

/-! ## Confirmations -/

/-- `processNextVerificationKey`. -/
def processNextVerificationKey : App Unit := do
  modifyCtx fun ctx : SignCredentialDeploymentContext =>
    { ctx with state := if ctx.numberOfVerificationKeys = 0 then .signatureThreshold
        else .verificationKey }
  sendSuccessNoIdle

/-- `confirmAttribute`. -/
def confirmAttribute : App Unit := do
  let ctx ← getCtx SignCredentialDeploymentContext
  throwIf (ctx.attributeListLength = 0) errorInvalidState
  let attributeListLength := ctx.attributeListLength - 1
  setCtx { ctx with
    attributeListLength := attributeListLength
    state := if attributeListLength = 0 then .lengthOfProofs else .attributeTag }
  sendSuccessNoIdle

/-- `confirmAddedCredential`. -/
def confirmAddedCredential : App Unit := do
  let ctx ← getCtx SignCredentialDeploymentContext
  throwIf (ctx.credentialDeploymentCount = 0) errorInvalidState
  let credentialDeploymentCount := ctx.credentialDeploymentCount - 1
  if credentialDeploymentCount = 0 then
    setCtx { ctx with
      credentialDeploymentCount := credentialDeploymentCount
      updateCredentialState := .idCount
      state := .unset }
  else
    setCtx { ctx with
      credentialDeploymentCount := credentialDeploymentCount
      updateCredentialState := .credentialIndex
      state := .verificationKeysLength }
  sendSuccessNoIdle

/-! ## Credential deployment -/

namespace SignCredentialDeploymentContext

/-- The opening packet. -/
def p1InitialPacket : UInt8 := 0x00
/-- The number of keys. -/
def p1VerificationKeyLength : UInt8 := 0x0A
/-- A key. -/
def p1VerificationKey : UInt8 := 0x01
/-- Thresholds, registration id and identity provider. -/
def p1SignatureThreshold : UInt8 := 0x02
/-- An anonymity revoker. -/
def p1ArIdentity : UInt8 := 0x03
/-- The dates and the number of attributes. -/
def p1CredentialDates : UInt8 := 0x04
/-- An attribute tag and the length of its value. -/
def p1AttributeTag : UInt8 := 0x05
/-- An attribute value. -/
def p1AttributeValue : UInt8 := 0x06
/-- The length of the proofs. -/
def p1LengthOfProofs : UInt8 := 0x07
/-- A packet of proofs. -/
def p1Proofs : UInt8 := 0x08
/-- The account the credential is for. -/
def p1NewOrExisting : UInt8 := 0x09

/-- The opening packet of an update. -/
def p2CredentialInitial : UInt8 := 0x00
/-- The index of a credential to be added. -/
def p2CredentialCredentialIndex : UInt8 := 0x01
/-- A packet of such a credential. -/
def p2CredentialCredential : UInt8 := 0x02
/-- The number of credentials to be removed. -/
def p2CredentialIdCount : UInt8 := 0x03
/-- A credential to be removed. -/
def p2CredentialId : UInt8 := 0x04
/-- The new threshold. -/
def p2Threshold : UInt8 := 0x05

end SignCredentialDeploymentContext

/-- The most data a packet carries. -/
def maxCdataLength : ℕ := 255

/-- `ATTRIBUTE_NAMES`. -/
def attributeNames : List Bytes :=
  [ascii "First name", ascii "Last name", ascii "Sex", ascii "Date of birth",
    ascii "Country of residence", ascii "Nationality", ascii "ID doc type",
    ascii "ID doc number", ascii "ID doc issuer", ascii "ID doc issued at",
    ascii "ID doc expires at", ascii "National ID number", ascii "Tax ID number"]

omit [Platform] in
/-- `attribute_name_for_tag`. -/
def attributeNameForTag (tag : UInt8) : App (Buf 24) :=
  match attributeNames[tag.toNat]? with
  | some name => memmove (Buf.zero 24) 0 name
  | none => do memmove (Buf.zero 24) 0 (ascii "Attribute #" ++ (← binToDec (24 - 11) tag.toNat))

/-- The opening packet.  The path is all it holds. -/
def credentialInitial (cmd : Command) : App Unit := do
  let _ ← parseDerivationPath cmd.data
  sha256Init
  modifyCtx fun ctx : SignCredentialDeploymentContext =>
    { ctx with state := .verificationKeysLength, showIntro := true }
  sendSuccessNoIdle

/-- The number of keys. -/
def credentialVerificationKeyLength (cmd : Command) : App Unit := do
  let (field, _) ← hashField cmd.data 1
  modifyCtx fun ctx : SignCredentialDeploymentContext =>
    { ctx with numberOfVerificationKeys := beNat field, state := .verificationKey }
  sendSuccessNoIdle

omit [Platform] in
/-- `parseVerificationKey`. -/
def parseVerificationKey (ctx : SignCredentialDeploymentContext) (buffer : Bytes) :
    App SignCredentialDeploymentContext := do
  throwIf (buffer.length < 1 + 1 + keyLength) swoIncorrectData
  updateHash (← slice buffer 0 1)
  updateHash (← slice buffer 1 1)
  let verificationKey ← slice buffer 2 keyLength
  updateHash verificationKey
  let accountVerificationKey ← toPaginatedHex verificationKey ctx.accountVerificationKey
  return { ctx with
    accountVerificationKey := accountVerificationKey
    numberOfVerificationKeys := ctx.numberOfVerificationKeys - 1 }

/-- A key.  Every key but the last is reviewed at once. -/
def credentialVerificationKey (cmd : Command) : App Unit := do
  let ctx ← getCtx SignCredentialDeploymentContext
  if 0 < ctx.numberOfVerificationKeys ∧ ctx.state = .verificationKey then
    let ctx ← parseVerificationKey ctx cmd.data
    if 0 < ctx.numberOfVerificationKeys then
      setCtx { ctx with state := .awaitingVerificationKeyConfirm, showIntro := false }
      if ctx.showIntro then uiSignCredentialDeploymentVerificationKeyDisplay
      else uiSignCredentialDeploymentVerificationKeyFlowDisplay
    else
      setCtx { ctx with state := .signatureThreshold }
      sendSuccessNoIdle
  else
    throw (.statusWord errorInvalidState)

/-- The signature threshold, the registration id, the identity provider, and the
    threshold and number of anonymity revokers. -/
def credentialSignatureThreshold (cmd : Command) : App Unit := do
  let ctx ← getCtx SignCredentialDeploymentContext
  throwIf (ctx.numberOfVerificationKeys ≠ 0) errorInvalidState
  let (field, cdata) ← hashField cmd.data 1
  let signatureThreshold ← memmove ctx.signatureThreshold 0 (← binToDec 4 (beNat field))
  let (regIdCred, cdata) ← hashHexField cdata ctx.regIdCred
  let (field, cdata) ← hashField cdata 4
  let identityProviderIndex ←
    memmove ctx.identityProviderIndex 0 (← numberToText 9 (beNat field))
  let (field, cdata) ← hashField cdata 1
  let text ← numberToText 17 (beNat field)
  throwIf (17 < text.length + 8) swoIncorrectData
  let text := text ++ ascii " out of "
  let (field, _) ← hashField cdata 2
  let anonymityRevocationThreshold ← memmove ctx.anonymityRevocationThreshold 0
    (text ++ (← binToDec (17 - text.length) (beNat field)))
  setCtx { ctx with
    signatureThreshold := signatureThreshold
    regIdCred := regIdCred
    identityProviderIndex := identityProviderIndex
    anonymityRevocationThreshold := anonymityRevocationThreshold
    anonymityRevocationListLength := beNat field
    arListHashDisplay := Buf.zero 65
    arListHashCtx := []
    state := .arIdentity }
  sendSuccessNoIdle

/-- An anonymity revoker; behind the last one the digest of the list is complete. -/
def credentialArIdentity (cmd : Command) : App Unit := do
  let ctx ← getCtx SignCredentialDeploymentContext
  throwIf (ctx.anonymityRevocationListLength = 0) errorInvalidState
  let (identity, cdata) ← hashField cmd.data 4
  let arIdentity ← formatHexInto identity ctx.arIdentity swoIncorrectData
  let (share, _) ← hashField cdata 96
  let encIdCredPubShare ← formatHexInto share ctx.encIdCredPubShare swoIncorrectData
  let ctx := { ctx with
    arIdentity := arIdentity
    encIdCredPubShare := encIdCredPubShare
    arListHashCtx := ctx.arListHashCtx ++ identity ++ share }
  if ctx.anonymityRevocationListLength = 1 then
    let arListHashDisplay ← formatHexInto (Platform.sha256 ctx.arListHashCtx).bytes
      ctx.arListHashDisplay errorBufferOverflow
    setCtx { ctx with
      arListHashDisplay := arListHashDisplay
      anonymityRevocationListLength := 0
      state := .credentialDates }
    sendSuccessNoIdle
  else
    setCtx { ctx with anonymityRevocationListLength := ctx.anonymityRevocationListLength - 1 }
    sendSuccessNoIdle

/-- The two dates, which are not shown, and the number of attributes. -/
def credentialDates (cmd : Command) : App Unit := do
  let (_, cdata) ← hashField cmd.data 6
  let (field, _) ← hashField cdata 2
  modifyCtx fun ctx : SignCredentialDeploymentContext =>
    { ctx with
      attributeListLength := beNat field
      state := if beNat field = 0 then .lengthOfProofs else .attributeTag }
  sendSuccessNoIdle

/-- The tag of an attribute and the length of its value. -/
def credentialAttributeTag (cmd : Command) : App Unit := do
  let ctx ← getCtx SignCredentialDeploymentContext
  throwIf (ctx.attributeListLength = 0) errorInvalidState
  let (tag, cdata) ← hashField cmd.data 1
  let attributeName ← attributeNameForTag (tag.getD 0 0)
  let (field, _) ← hashField cdata 1
  setCtx { ctx with
    attributeName := attributeName
    attributeValueLength := beNat field
    state := .attributeValue }
  sendSuccessNoIdle

/-- The value of an attribute, which is reviewed at once. -/
def credentialAttributeValue (cmd : Command) : App Unit := do
  let ctx ← getCtx SignCredentialDeploymentContext
  let (value, _) ← hashField cmd.data ctx.attributeValueLength
  throwIf (!isDisplayableText value) errorInvalidTransaction
  let attributeValue ← memmove (Buf.zero 256) 0 (value ++ [0])
  setCtx { ctx with attributeValue := attributeValue }
  uiSignCredentialDeploymentAttributeDisplay

/-- The length is hashed only as part of a credential update. -/
def credentialLengthOfProofs (cmd : Command) : App Unit := do
  throwIf (cmd.data.length < 4) swoIncorrectData
  let proofLength ← u4be cmd.data 0
  if cmd.p2 = SignCredentialDeploymentContext.p2CredentialCredential then
    updateHash (← slice cmd.data 0 4)
  modifyCtx fun ctx : SignCredentialDeploymentContext =>
    { ctx with proofLength := proofLength, state := .proofs }
  sendSuccessNoIdle

/-- A packet of proofs.  The last one starts the review of a credential an update adds. -/
def credentialProofs (cmd : Command) : App Unit := do
  let ctx ← getCtx SignCredentialDeploymentContext
  if maxCdataLength < ctx.proofLength then
    let _ ← hashField cmd.data maxCdataLength
    setCtx { ctx with proofLength := ctx.proofLength - maxCdataLength }
    sendSuccessNoIdle
  else
    let _ ← hashField cmd.data ctx.proofLength
    if cmd.p2 = SignCredentialDeploymentContext.p2CredentialCredential ∧
        ctx.updateCredentialState = .credential ∧ 0 < ctx.credentialDeploymentCount then
      uiSignUpdateCredentialAddedCredentialDisplay
    else
      setCtx { ctx with state := .newOrExisting }
      sendSuccessNoIdle

/-- The account a deployment is for, which starts the final review. -/
def credentialNewOrExisting (cmd : Command) : App Unit := do
  let ctx ← getCtx SignCredentialDeploymentContext
  let (field, cdata) ← hashField cmd.data 1
  if field = [0] then
    let _ ← hashField cdata 8
    if ctx.showIntro then uiSignCredentialDeploymentNewIntroDisplay
    else uiSignCredentialDeploymentNewDisplay
  else if field = [1] then
    throwIf (cdata.length < 32) swoIncorrectData
    let address ← slice cdata 0 32
    let accountAddress ← base58Address address ctx.accountAddress
    updateHash address
    setCtx { ctx with accountAddress := accountAddress }
    if ctx.showIntro then uiSignCredentialDeploymentExistingIntroDisplay
    else uiSignCredentialDeploymentExistingDisplay
  else
    throw (.statusWord errorInvalidTransaction)

open SignCredentialDeploymentContext in
/-- `handleSignCredentialDeployment`. -/
def handleSignCredentialDeployment (cmd : Command) (isInitialCall : Bool) : App Unit := do
  if isInitialCall then
    modifyCtx fun ctx : SignCredentialDeploymentContext => { ctx with state := .initial }
  let state := (← getCtx SignCredentialDeploymentContext).state
  if cmd.p1 = p1InitialPacket ∧ state = .initial then credentialInitial cmd
  else if cmd.p1 = p1VerificationKeyLength ∧ state = .verificationKeysLength then
    credentialVerificationKeyLength cmd
  else if cmd.p1 = p1VerificationKey then credentialVerificationKey cmd
  else if cmd.p1 = p1SignatureThreshold ∧ state = .signatureThreshold then
    credentialSignatureThreshold cmd
  else if cmd.p1 = p1ArIdentity ∧ state = .arIdentity then credentialArIdentity cmd
  else if cmd.p1 = p1CredentialDates ∧ state = .credentialDates then credentialDates cmd
  else if cmd.p1 = p1AttributeTag ∧ state = .attributeTag then credentialAttributeTag cmd
  else if cmd.p1 = p1AttributeValue ∧ state = .attributeValue then credentialAttributeValue cmd
  else if cmd.p1 = p1LengthOfProofs ∧ state = .lengthOfProofs then credentialLengthOfProofs cmd
  else if cmd.p1 = p1Proofs ∧ state = .proofs then credentialProofs cmd
  else if cmd.p1 = p1NewOrExisting ∧ state = .newOrExisting then credentialNewOrExisting cmd
  else throw (.statusWord errorInvalidState)

/-! ## Update credential -/

/-- The opening packet of an update: the account and the number of credentials to be added. -/
def updateCredentialInitial (cmd : Command) : App Unit := do
  let offset ← parseDerivationPath cmd.data
  let cdata ← advance cmd.data offset
  sha256Init
  let offset ← hashAccountTransactionHeaderAndKind cdata kindUpdateCredentials
  let cdata ← advance cdata offset
  let (field, _) ← hashField cdata 1
  modifyCtx fun ctx : SignCredentialDeploymentContext =>
    { ctx with
      credentialDeploymentCount := beNat field
      updateCredentialState := if beNat field = 0 then .idCount else .credentialIndex }
  uiSignUpdateCredentialInitialDisplay

/-- The index a credential is added at. -/
def updateCredentialIndex (cmd : Command) : App Unit := do
  let _ ← hashField cmd.data 1
  modifyCtx fun ctx : SignCredentialDeploymentContext =>
    { ctx with updateCredentialState := .credential, state := .verificationKeysLength }
  sendSuccessNoIdle

/-- The number of credentials to be removed. -/
def updateCredentialIdCount (cmd : Command) : App Unit := do
  let (field, _) ← hashField cmd.data 1
  modifyCtx fun ctx : SignCredentialDeploymentContext =>
    { ctx with
      credentialIdCount := beNat field
      updateCredentialState := if beNat field = 0 then .threshold else .id }
  sendSuccessNoIdle

/-- A credential to be removed, which is reviewed at once. -/
def updateCredentialId (cmd : Command) : App Unit := do
  let ctx ← getCtx SignCredentialDeploymentContext
  let (id, _) ← hashField cmd.data 48
  let credentialId ← toPaginatedHex id ctx.credentialId
  let credentialIdCount ← checkedSub ctx.credentialIdCount 1
  setCtx { ctx with
    credentialId := credentialId
    credentialIdCount := credentialIdCount
    updateCredentialState := if credentialIdCount = 0 then .threshold
      else ctx.updateCredentialState }
  uiSignUpdateCredentialIdDisplay

/-- The new threshold, which starts the final review. -/
def updateCredentialThreshold (cmd : Command) : App Unit := do
  let ctx ← getCtx SignCredentialDeploymentContext
  throwIf (cmd.data.length < 1) swoIncorrectData
  let newThreshold ← u8 cmd.data 0
  let threshold ← memmove ctx.threshold 0 (← binToDec 4 newThreshold.toNat)
  updateHash [newThreshold]
  setCtx { ctx with threshold := threshold }
  uiSignUpdateCredentialThresholdDisplay

open SignCredentialDeploymentContext in
/-- `handleSignUpdateCredential`.  The packets of a credential go to the handler of
    a deployment. -/
def handleSignUpdateCredential (cmd : Command) (isInitialCall : Bool) : App Unit := do
  if isInitialCall then
    modifyCtx fun ctx : SignCredentialDeploymentContext =>
      { ctx with updateCredentialState := .initial }
  let ctx ← getCtx SignCredentialDeploymentContext
  if cmd.p2 = p2CredentialInitial ∧ ctx.updateCredentialState = .initial then
    updateCredentialInitial cmd
  else if cmd.p2 = p2CredentialCredentialIndex ∧ ctx.updateCredentialState = .credentialIndex ∧
      0 < ctx.credentialDeploymentCount then
    updateCredentialIndex cmd
  else if cmd.p2 = p2CredentialCredential ∧ ctx.updateCredentialState = .credential ∧
      0 < ctx.credentialDeploymentCount then
    handleSignCredentialDeployment cmd false
  else if cmd.p2 = p2CredentialIdCount ∧ ctx.updateCredentialState = .idCount then
    updateCredentialIdCount cmd
  else if cmd.p2 = p2CredentialId ∧ ctx.updateCredentialState = .id then updateCredentialId cmd
  else if cmd.p2 = p2Threshold ∧ ctx.updateCredentialState = .threshold then
    updateCredentialThreshold cmd
  else throw (.statusWord errorInvalidState)

end Concordium
