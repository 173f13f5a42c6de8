/-
  VERIFY_ADDRESS (`verify_address.c`).
-/
import Concordium.TrustedName

namespace Concordium

open Buffer

variable [Platform]

/-- Identity and credential counter. -/
def p1LegacyPath : UInt8 := 0x00
/-- Identity provider, identity and credential counter. -/
def p1NewPath : UInt8 := 0x01
/-- The path of the signing key. -/
def p1FullPath : UInt8 := 0x02
/-- Mainnet, for the compact forms. -/
def p2MainnetDefault : UInt8 := 0x00

omit [Platform] in
/-- `parse_key_path`: the path and the credential counter, or the status word
    the command is refused with. -/
def parseKeyPath (cmd : Command) : App (Except UInt16 (DerivationPath × UInt32)) := do
  if cmd.p1 = p1LegacyPath then
    if cmd.p2 ≠ p2MainnetDefault then
      return .error swoWrongP1P2
    else
      return .ok (← parseDerivationPathLegacy cmd.data)
  else if cmd.p1 = p1NewPath then
    if cmd.p2 = 0x00 then
      return .ok (← parseDerivationPathNew cmd.data true)
    else if cmd.p2 = 0x01 then
      return .ok (← parseDerivationPathNew cmd.data false)
    else
      return .error swoWrongP1P2
  else if cmd.p1 = p1FullPath then
    if cmd.p2 ≠ p2MainnetDefault then
      return .error swoWrongP1P2
    else
      let dp ← parseDerivationPathFull cmd.data
      if dp.len = 0 then
        return .error errorInvalidPath
      else
        return .ok (dp, 0)
  else
    return .error swoWrongP1P2

omit [Platform] in
/-- The chain id of the networks that have one. -/
def expectedChainId : DerivationPathNetwork → Option ℕ
  | .mainnet => some ccdChainIdMainnet
  | .testnet => some ccdChainIdTestnet
  | .legacy | .unknown => none

omit [Platform] in
/-- The checks of `pki_bind_descriptor` on the stored descriptor: the address
    to review, or nothing when the descriptor does not match.  `strncmp` stops
    at the first NUL, so the two names are compared as text. -/
def pkiBindDescriptor (trusted : TrustedName) (derivedEd25519Pub : Bytes)
    (network : DerivationPathNetwork) (bindDerivedAddress : Bool) (address : Buf 65) :
    Option (Buf 65) :=
  match expectedChainId network with
  | none => none
  | some chainId =>
    if trusted.chainId ≠ chainId then none
    else if trusted.addressLen ≠ keyLength then none
    else if derivedEd25519Pub ≠ trusted.address.bytes.take keyLength then none
    else if bindDerivedAddress then
      if trusted.name.text ≠ address.text then none else some address
    else some trusted.name

/-- `bls_compute_address`: the text of the account of an identity and counter.
    The result of `base58check_encode` is not looked at. -/
def blsComputeAddress (credCounter : UInt32) (address : Buf 65) : App (Buf 65) := do
  let prf ← getBlsPrivateKey (← get).derivationPath
  match Platform.getCredId prf credCounter with
  | none => throw (.statusWord errorInvalidState)
  | some credId =>
    let address ← (do
      match ← base58checkEncode (Platform.sha256 credId.bytes).bytes 65 with
      | none => pure address
      | some text => memmove address 0 text)
    memmove address base58AddressLength [0]

omit [Platform] in
/-- `full_path_names_one_account`. -/
def fullPathNamesOneAccount (dp : DerivationPath) : Bool :=
  dp.len == 6 && dp.node 0 &&& ~~~hardenedBit == newPurpose && dp.node 4 &&& ~~~hardenedBit == 0

omit [Platform] in
/-- The label and the text of the path row, by variant. -/
def pathRow (dp : DerivationPath) (credCounter : UInt32) : App (Bytes × Buf 104) := do
  match dp.variant with
  | .new =>
    let text ← pathDisplayNew 104 (dp.node 2) (dp.node 3) credCounter
    return (ascii "Identity", ← memmove (Buf.zero 104) 0 text)
  | .legacy =>
    let text ← pathDisplayLegacy 104 (dp.node 4) credCounter
    return (ascii "Identity", ← memmove (Buf.zero 104) 0 text)
  | .full => return (ascii "Derivation path", ← pathDisplayFull (Buf.zero 104) dp)
  | .invalid => return (ascii "Identity", Buf.zero 104)

/-- Refuse and forget the address. -/
def refuseAddress (sw : UInt16) : App Unit := do
  modifyCtx fun ctx : VerifyAddressContext => { ctx with address := Buf.zero 65 }
  sendRejection sw

/-- Review the address that the descriptor binds, or refuse. -/
def reviewBoundAddress (ctx : VerifyAddressContext) : Option (Buf 65) → App Unit
  | none => refuseAddress errorTrustedNameMismatch
  | some address => do
    setCtx { ctx with address := address }
    uiVerifyAddress

/-- The second half of `handle_verify_address`, on the hardened path: compute
    the address, bind a stored descriptor to it, and start the review. -/
def reviewAddress (dp : DerivationPath) (network : DerivationPathNetwork)
    (credCounter : UInt32) : App Unit := do
  let trusted := (← get).trusted
  let descriptorNamesAccount := trusted.valid && dp.variant == .full
  if descriptorNamesAccount && !fullPathNamesOneAccount dp then
    clearTrustedNameBinding
    refuseAddress errorTrustedNameMismatch
  else
    if !descriptorNamesAccount then
      let ctx ← getCtx VerifyAddressContext
      let address ← blsComputeAddress credCounter ctx.address
      setCtx { ctx with address := address }
    if trusted.valid then
      let derivedEd25519Pub ← getPublicKey dp
      let ctx ← getCtx VerifyAddressContext
      clearTrustedNameBinding
      reviewBoundAddress ctx (pkiBindDescriptor trusted derivedEd25519Pub network
        (!descriptorNamesAccount) ctx.address)
    else
      uiVerifyAddress

/-- `handleVerifyAddress`. -/
def handleVerifyAddress (cmd : Command) : App Unit := do
  setDerivationPath .init
  modifyCtx fun ctx : VerifyAddressContext =>
    { ctx with address := Buf.zero 65, display := Buf.zero 104 }
  match ← parseKeyPath cmd with
  | .error sw => sendRejection sw
  | .ok (dp, credCounter) =>
    let networkText ← pathDisplayNetwork dp
    let (label, display) ← pathRow dp credCounter
    let displayLabel ← memmove (Buf.zero 20) 0 label
    modifyCtx fun ctx : VerifyAddressContext =>
      { ctx with network := networkText, displayLabel := displayLabel, display := display }
    setDerivationPath dp.harden
    reviewAddress dp.harden dp.network credCounter

end Concordium
