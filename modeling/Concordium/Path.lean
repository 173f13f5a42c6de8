/-
  Derivation paths (`derivation_path.c`).
-/
import Concordium.Numbers

namespace Concordium

open Buffer

namespace DerivationPath

/-- The path of the given nodes; the wire format allows at most eight. -/
def ofNodes (nodes : List UInt32) (variant : DerivationPathVariant) : DerivationPath :=
  ⟨nodes.take derivationPathNodesMax, variant, List.length_take_le _ _⟩

/-- `detect_derivation_path_variant`. -/
def detectVariant (dp : DerivationPath) : DerivationPath :=
  if dp.len = 0 then { dp with variant := .invalid }
  else
    let purpose := dp.node 0 &&& ~~~hardenedBit
    if purpose = legacyPurpose then { dp with variant := .legacy }
    else if purpose = newPurpose then { dp with variant := .new }
    else { dp with variant := .full }

/-- `derivation_path_network`. -/
def network (dp : DerivationPath) : DerivationPathNetwork :=
  if dp.len = 0 then .unknown
  else
    let purpose := dp.node 0 &&& ~~~hardenedBit
    if purpose = legacyPurpose then .legacy
    else if purpose ≠ newPurpose ∨ dp.len < 2 then .unknown
    else
      let coinType := dp.node 1 &&& ~~~hardenedBit
      if coinType = newMainnetCoinType then .mainnet
      else if coinType = newTestnetCoinType then .testnet
      else .unknown

end DerivationPath

/-! ## Wire formats -/

/-- `n` nodes, four bytes each. -/
def wireNodes (bs : Bytes) : ℕ → List UInt32
  | 0 => []
  | n + 1 => UInt32.ofNat (beNat (bs.take 4)) :: wireNodes (bs.drop 4) n

/-- `parse_derivation_path_from_buffer`: bytes consumed and the path, its nodes
    as sent. -/
def parseDerivationPathFromBuffer (cdata : Bytes) : App (ℕ × DerivationPath) := do
  throwIf (cdata.length < 1) errorInvalidPath
  let depth ← u8 cdata 0
  throwIf (derivationPathNodesMax < depth.toNat) errorInvalidPath
  let need := 1 + depth.toNat * 4
  throwIf (cdata.length < need) errorInvalidPath
  return (need, .ofNodes (wireNodes (cdata.drop 1) depth.toNat) .full)

/-- `check_lc`. -/
def checkLc (lc expected : ℕ) : App Unit := throwIf (lc ≠ expected) swoWrongDataLength

/-- Write `global_derivation_path`. -/
def setDerivationPath (dp : DerivationPath) : App Unit := do
  modify fun w => { w with derivationPath := dp }
  record (.path dp)

/-- `parse_derivation_path_full` into `global_derivation_path`, which keeps the
    path also when the length check refuses it. -/
def parseDerivationPathFull (cdata : Bytes) : App DerivationPath := do
  let (consumed, dp) ← parseDerivationPathFromBuffer cdata
  setDerivationPath dp
  checkLc cdata.length consumed
  return dp

/-- `parse_derivation_path_new`: the PRF path and the credential counter. -/
def parseDerivationPathNew (cdata : Bytes) (mainnet : Bool) : App (DerivationPath × UInt32) := do
  throwIf (cdata.length < 12) swoIncorrectData
  let identityProvider := UInt32.ofNat (← u4be cdata 0)
  throwIf (identityProvider &&& hardenedBit ≠ 0) errorInvalidPath
  let identity := UInt32.ofNat (← u4be cdata 4)
  throwIf (identity &&& hardenedBit ≠ 0) errorInvalidPath
  let credCounter := UInt32.ofNat (← u4be cdata 8)
  checkLc cdata.length 12
  let coinType := if mainnet then newMainnetCoinType else newTestnetCoinType
  return (.ofNodes [newPurpose, coinType, identityProvider, identity, newPrfKey] .new, credCounter)

/-- `parse_derivation_path_legacy`: the PRF path and the credential counter. -/
def parseDerivationPathLegacy (cdata : Bytes) : App (DerivationPath × UInt32) := do
  throwIf (cdata.length < 8) swoIncorrectData
  let identity := UInt32.ofNat (← u4be cdata 0)
  throwIf (identity &&& hardenedBit ≠ 0) errorInvalidPath
  let credCounter := UInt32.ofNat (← u4be cdata 4)
  checkLc cdata.length 8
  return (.ofNodes [legacyPurpose, legacyCoinType, 0, 0, identity, legacyPrfKey] .legacy,
    credCounter)

/-! ## The path of a signing instruction -/

/-- The check of `reject_exportable_signing_path`, on hardened nodes. -/
def isExportableSigningPath (dp : DerivationPath) : Bool :=
  dp.variant = .new && dp.len = derivationPathNewLen + 1 &&
    dp.node 4 &&& ~~~hardenedBit = newCommitmentRandomness

/-- `parse_derivation_path`: bytes consumed. -/
def parseDerivationPath (cdata : Bytes) : App ℕ := do
  setDerivationPath .init
  let (consumed, dp) ← parseDerivationPathFromBuffer cdata
  let dp := dp.detectVariant.harden
  setDerivationPath dp
  throwIf (isExportableSigningPath dp) errorInvalidPath
  record (.parsed dp)
  return consumed

/-! ## Display -/

/-- The text of the network of a path. -/
def networkLabel (dp : DerivationPath) : Bytes :=
  match dp.network with
  | .mainnet => ascii "Mainnet"
  | .testnet => ascii "Testnet"
  | .legacy => ascii "Legacy (any network)"
  | .unknown => ascii "Unknown network"

/-- `path_display_network`: every label fits, so it is never truncated. -/
def pathDisplayNetwork (dp : DerivationPath) : App (Buf 24) :=
  memmove (Buf.zero 24) 0 (networkLabel dp)

/-- `path_display_legacy`: `identity/account` and a NUL. -/
def pathDisplayLegacy (dstLength : ℕ) (identityIndex accountIndex : UInt32) : App Bytes := do
  let identity ← numberToText dstLength identityIndex.toNat
  throwIf (dstLength ≤ identity.length) errorBufferOverflow
  let account ← binToDec (dstLength - (identity.length + 1)) accountIndex.toNat
  return identity ++ ascii "/" ++ account

/-- `path_display_new`: `idp/identity/account` and a NUL. -/
def pathDisplayNew (dstLength : ℕ) (identityProviderIndex identityIndex accountIndex : UInt32) :
    App Bytes := do
  let idp ← numberToText dstLength identityProviderIndex.toNat
  throwIf (dstLength ≤ idp.length) errorBufferOverflow
  let offset := idp.length + 1
  let identity ← numberToText (dstLength - offset) identityIndex.toNat
  throwIf (dstLength ≤ offset + identity.length) errorBufferOverflow
  let offset := offset + identity.length + 1
  let account ← binToDec (dstLength - offset) accountIndex.toNat
  return idp ++ ascii "/" ++ identity ++ ascii "/" ++ account

/-- The loop of `path_display_full`; `text` is what stands in the buffer. -/
def pathDisplayFullFrom (dstLength : ℕ) : List UInt32 → Bytes → App Bytes
  | [], text => pure text
  | node :: nodes, text => do
    if text ≠ [] ∧ dstLength ≤ text.length + 1 then
      return text
    let text := if text = [] then text else text ++ ascii "/"
    let digits ← numberToText (dstLength - text.length) (node &&& ~~~hardenedBit).toNat
    let text := text ++ digits
    if dstLength ≤ text.length + 1 then
      return text
    pathDisplayFullFrom dstLength nodes (text ++ ascii "'")

/-- `path_display_full` into a zeroed buffer. -/
def pathDisplayFull {n : ℕ} (dst : Buf n) (dp : DerivationPath) : App (Buf n) := do
  if n = 0 then
    return dst
  let text ← pathDisplayFullFrom n dp.nodes []
  memmove (Buf.zero n) 0 text

end Concordium
