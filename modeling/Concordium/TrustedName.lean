/-
  Trusted names (`set_trusted_name.c`), the challenge that makes them fresh
  (`get_challenge.c`), and the two queries that touch no flow.
-/
import Concordium.Ui

namespace Concordium

open Buffer

variable [Platform]

/-! ## Challenge, name and version -/

/-- `handleGetChallenge`: draw a challenge, keep it and send it. -/
def handleGetChallenge : App Unit := do
  let buf := Platform.rng (← get).rngCalls
  modify fun w => { w with
    rngCalls := w.rngCalls + 1
    storedChallenge := beNat buf.bytes
    txState := { w.txState with currentInstruction := none } }
  record .released
  record (.challengeIssued (beNat buf.bytes))
  ioSendResponse buf.bytes swoSuccess

/-- `handleGetAppName`. -/
def handleGetAppName : App Unit := ioSendResponse Platform.appName swoSuccess

/-- `handleGetAppVersion`. -/
def handleGetAppVersion : App Unit :=
  ioSendResponse [Platform.majorVersion, Platform.minorVersion, Platform.patchVersion] swoSuccess

/-! ## Tags -/

/-- What the descriptor describes. -/
def ccdTagStructureType : UInt8 := 0x01
/-- The version of its format. -/
def ccdTagVersion : UInt8 := 0x02
/-- The kind of the name. -/
def ccdTagTrustedNameType : UInt8 := 0x70
/-- Who resolved it. -/
def ccdTagTrustedNameSource : UInt8 := 0x71
/-- The certified address. -/
def ccdTagTrustedName : UInt8 := 0x20
/-- The network. -/
def ccdTagChainId : UInt8 := 0x23
/-- The key the descriptor is bound to. -/
def ccdTagAddress : UInt8 := 0x22
/-- Taken and ignored. -/
def ccdTagNftId : UInt8 := 0x72
/-- Taken and ignored. -/
def ccdTagSourceContract : UInt8 := 0x73
/-- The challenge it quotes. -/
def ccdTagChallenge : UInt8 := 0x12
/-- The last version of the app it is for. -/
def ccdTagNotValidAfter : UInt8 := 0x10
/-- The key it is signed with. -/
def ccdTagSignerKeyId : UInt8 := 0x13
/-- The algorithm of the signature. -/
def ccdTagSignerAlgorithm : UInt8 := 0x14
/-- The signature, over all other entries. -/
def ccdTagDerSignature : UInt8 := 0x15

/-- `CCD_TLV_TAGS`; every tag may occur once. -/
def ccdTlvTags : List UInt8 :=
  [ccdTagStructureType, ccdTagVersion, ccdTagTrustedNameType, ccdTagTrustedNameSource,
    ccdTagTrustedName, ccdTagChainId, ccdTagAddress, ccdTagNftId, ccdTagSourceContract,
    ccdTagChallenge, ccdTagNotValidAfter, ccdTagSignerKeyId, ccdTagSignerAlgorithm,
    ccdTagDerSignature]

/-- `h_trusted_name`: the text and its terminator. -/
def hTrustedName (value : Bytes) (tlv : TrustedNameTlvExtracted) :
    Option TrustedNameTlvExtracted := do
  let text ← Platform.tlvString value 65
  if h : 0 + (text ++ [0]).length ≤ 65 then
    return { tlv with name := tlv.name.write 0 (text ++ [0]) h }
  else
    none

/-- `h_not_valid_after`. -/
def hNotValidAfter (value : Bytes) (tlv : TrustedNameTlvExtracted) :
    Option TrustedNameTlvExtracted :=
  match value with
  | [major, minor, patchHigh, patchLow] =>
    some { tlv with
      notValidAfterMajor := major.toNat
      notValidAfterMinor := minor.toNat
      notValidAfterPatch := beNat [patchHigh, patchLow] }
  | _ => none

/-- The handler of a tag; the two NFT tags have none. -/
def tagHandler (tag : UInt8) (value : Bytes) (tlv : TrustedNameTlvExtracted) :
    Option TrustedNameTlvExtracted :=
  let uint8 := (Platform.tlvUint 1 value).map UInt8.ofNat
  if tag = ccdTagStructureType then uint8.map fun n => { tlv with structureType := n }
  else if tag = ccdTagVersion then uint8.map fun n => { tlv with version := n }
  else if tag = ccdTagTrustedNameType then uint8.map fun n => { tlv with trustedNameType := n }
  else if tag = ccdTagTrustedNameSource then
    uint8.map fun n => { tlv with trustedNameSource := n }
  else if tag = ccdTagTrustedName then hTrustedName value tlv
  else if tag = ccdTagChainId then
    (Platform.tlvUint 8 value).map fun n => { tlv with chainId := n }
  else if tag = ccdTagAddress then
    (Platform.tlvBuffer value 1 0).map fun bs => { tlv with address := bs }
  else if tag = ccdTagChallenge then
    (Platform.tlvUint 8 value).map fun n => { tlv with challenge := n }
  else if tag = ccdTagNotValidAfter then hNotValidAfter value tlv
  else if tag = ccdTagSignerKeyId then
    (Platform.tlvUint 2 value).map fun n => { tlv with signerKeyId := n }
  else if tag = ccdTagSignerAlgorithm then uint8.map fun n => { tlv with signerAlgo := n }
  else if tag = ccdTagDerSignature then
    (Platform.tlvBuffer value 64 72).map fun bs => { tlv with signature := bs }
  else some tlv

omit [Platform] in
/-- `h_common`: every entry but the signature is hashed as it stands. -/
def hCommon (data : TlvData) (ctx : TrustedNamePkiContext) : TrustedNamePkiContext :=
  if data.tag ≠ ccdTagDerSignature then { ctx with hashCtx := ctx.hashCtx ++ data.raw } else ctx

/-- The loop of `ccd_parse_tlv` over the entries of the payload. -/
def ccdParseTlvFrom : List TlvData → TrustedNamePkiContext → Option TrustedNamePkiContext
  | [], ctx => some ctx
  | data :: rest, ctx =>
    if data.tag ∉ ccdTlvTags ∨ data.tag ∈ ctx.tlv.receivedTags then none
    else
      match tagHandler data.tag data.value
        { ctx.tlv with receivedTags := ctx.tlv.receivedTags ++ [data.tag] } with
      | none => none
      | some tlv => ccdParseTlvFrom rest (hCommon data { ctx with tlv := tlv })

/-- `ccd_parse_tlv` on a fresh context. -/
def ccdParseTlv (payload : Bytes) : Option TrustedNamePkiContext := do
  ccdParseTlvFrom (← Platform.tlvEntries payload) {}

/-! ## Checks -/

/-- ECDSA on SHA-256. -/
def signerAlgoEcdsaSha256 : UInt8 := 0x01
/-- ECDSA on SHA3-256. -/
def signerAlgoEcdsaSha3256 : UInt8 := 0x02
/-- ECDSA on Keccak-256. -/
def signerAlgoEcdsaKeccak256 : UInt8 := 0x03
/-- ECDSA on RIPEMD-160. -/
def signerAlgoEcdsaRipemd160 : UInt8 := 0x04
/-- ECDSA on SHA-512. -/
def signerAlgoEcdsaSha512 : UInt8 := 0x16
/-- EdDSA on Keccak-256. -/
def signerAlgoEddsaKeccak256 : UInt8 := 0x17
/-- EdDSA on SHA3-256. -/
def signerAlgoEddsaSha3256 : UInt8 := 0x18

/-- `finalize_multi_hash`. -/
def finalizeMultiHash (hashed : Bytes) (signerAlgo : UInt8) : Option Bytes :=
  if signerAlgo = signerAlgoEcdsaSha256 then some (Platform.sha256 hashed).bytes
  else if signerAlgo = signerAlgoEcdsaSha3256 ∨ signerAlgo = signerAlgoEddsaSha3256 then
    some (Platform.sha3_256 hashed)
  else if signerAlgo = signerAlgoEcdsaKeccak256 ∨ signerAlgo = signerAlgoEddsaKeccak256 then
    some (Platform.keccak_256 hashed)
  else if signerAlgo = signerAlgoEcdsaRipemd160 then some (Platform.ripemd160 hashed)
  else if signerAlgo = signerAlgoEcdsaSha512 then some (Platform.sha512 hashed)
  else none

/-- A trusted name. -/
def structureTypeTrustedName : UInt8 := 0x03
/-- The version of the format the app reads. -/
def ccdTrustedNameSpecVersion : UInt8 := 0x03
/-- The kind of name the app takes. -/
def ccdTrustedNameTypeContextAddress : UInt8 := 0x07
/-- The source the app trusts. -/
def ccdTrustedNameSourceDynamicResolver : UInt8 := 0x06
/-- Mainnet. -/
def ccdChainIdMainnet : ℕ := 0
/-- Testnet. -/
def ccdChainIdTestnet : ℕ := 1

/-- `app_version_is_after`. -/
def appVersionIsAfter (major minor patch : ℕ) : Bool :=
  if Platform.majorVersion.toNat ≠ major then decide (major < Platform.majorVersion.toNat)
  else if Platform.minorVersion.toNat ≠ minor then decide (minor < Platform.minorVersion.toNat)
  else decide (patch < Platform.patchVersion.toNat)

/-- The tags `verify_fields` asks for behind the structure type. -/
def requiredTags : List UInt8 :=
  [ccdTagVersion, ccdTagTrustedNameType, ccdTagTrustedNameSource, ccdTagTrustedName,
    ccdTagChainId, ccdTagAddress, ccdTagChallenge, ccdTagSignerKeyId, ccdTagSignerAlgorithm,
    ccdTagDerSignature]

/-- `verify_fields`. -/
def verifyFields (tlv : TrustedNameTlvExtracted) : Bool :=
  let received (tag : UInt8) : Bool := tlv.receivedTags.contains tag
  if !received ccdTagStructureType then false
  else if tlv.structureType ≠ structureTypeTrustedName then false
  else if !requiredTags.all received then false
  else if tlv.signerKeyId ≠ Platform.validKeyId then false
  else if tlv.address.length ≠ keyLength then false
  else if tlv.version ≠ ccdTrustedNameSpecVersion then false
  else if tlv.trustedNameType ≠ ccdTrustedNameTypeContextAddress then false
  else if tlv.trustedNameSource ≠ ccdTrustedNameSourceDynamicResolver then false
  else if tlv.chainId ≠ ccdChainIdMainnet ∧ tlv.chainId ≠ ccdChainIdTestnet then false
  else if received ccdTagNftId || received ccdTagSourceContract then false
  else if received ccdTagNotValidAfter && appVersionIsAfter tlv.notValidAfterMajor
    tlv.notValidAfterMinor tlv.notValidAfterPatch then false
  else true

omit [Platform] in
/-- `verify_challenge`. -/
def verifyChallenge (stored : ℕ) (tlv : TrustedNameTlvExtracted) : Bool :=
  if stored = 0 then false else tlv.challenge == stored

/-- `verify_signature`. -/
def verifySignature (ctx : TrustedNamePkiContext) : Bool :=
  match finalizeMultiHash ctx.hashCtx ctx.tlv.signerAlgo with
  | none => false
  | some hash =>
    let curve := if ctx.tlv.signerAlgo = signerAlgoEddsaSha3256 ∨
      ctx.tlv.signerAlgo = signerAlgoEddsaKeccak256 then Curve.ed25519 else .secp256k1
    Platform.checkSignatureWithPki hash curve ctx.tlv.signature

/-! ## SET_TRUSTED_NAME -/

omit [Platform] in
/-- `erase_stored_challenge`. -/
def eraseStoredChallenge : App Unit := modify fun w => { w with storedChallenge := 0 }

omit [Platform] in
/-- `trusted_name_send_set_error`. -/
def trustedNameSendSetError (sw : UInt16) : App Unit := do
  eraseStoredChallenge
  releaseInstruction
  record .trustedNameRefused
  ioSendSw sw

omit [Platform] in
/-- `clear_trusted_name_binding`. -/
def clearTrustedNameBinding : App Unit := modify fun w => { w with trusted := {} }

/-- Clear the working state and refuse. -/
def refuseTrustedName : App Unit := do
  setCtx ({} : TrustedNamePkiContext)
  trustedNameSendSetError errorInvalidParam

/-- The descriptor as `handle_set_trusted_name` keeps it. -/
def storeTrustedName (tlv : TrustedNameTlvExtracted) : App Unit := do
  let name ← memmove (Buf.zero 65) 0 (tlv.name.text ++ [0])
  let address ← memmove (Buf.zero 64) 0 (tlv.address.take 64)
  modify fun w => { w with
    trusted := ⟨name, address, (tlv.address.take 64).length, tlv.chainId, true⟩ }
  record (.trustedNameSet tlv)
  eraseStoredChallenge

/-- `handleSetTrustedName`.  The parameters are checked before the stored name is dropped. -/
def handleSetTrustedName (cmd : Command) : App Unit := do
  if cmd.p1 ≠ 0 ∨ cmd.p2 ≠ 0 then
    trustedNameSendSetError errorInvalidParam
  else if cmd.lc = 0 then
    trustedNameSendSetError errorInvalidParam
  else
    modify fun w => { w with trusted := { w.trusted with valid := false } }
    match ccdParseTlv cmd.data with
    | none => refuseTrustedName
    | some ctx =>
      setCtx ctx
      if !verifyFields ctx.tlv then
        refuseTrustedName
      else if !verifyChallenge (← get).storedChallenge ctx.tlv then
        refuseTrustedName
      else if !verifySignature ctx then
        refuseTrustedName
      else
        storeTrustedName ctx.tlv
        setCtx ({} : TrustedNamePkiContext)
        sendSuccess []

end Concordium
