/-
  Constants and data types shared by every instruction: the command structure,
  status words, instruction bytes, transaction kinds and derivation paths.
-/
import Concordium.Library.Buffer

namespace Concordium

open Buffer

/-- A parsed APDU command of class `CLA`.  `lc` is the length of `data`; the
    parser leaves the data pointer null exactly when it is zero. -/
structure Command where
  ins : UInt8
  p1 : UInt8
  p2 : UInt8
  data : Bytes
  lc_le : data.length ≤ 255
deriving DecidableEq, Repr

/-- The `Lc` byte. -/
def Command.lc (cmd : Command) : ℕ := cmd.data.length

theorem no_data_le : ([] : Bytes).length ≤ 255 := Nat.zero_le _

theorem take_data_le (bs : Bytes) : (bs.take 255).length ≤ 255 := List.length_take_le _ _

/-! ## Status words -/

/-- The command was carried out. -/
def swoSuccess : UInt16 := 0x9000
/-- The user rejected it. -/
def swoConditionsNotSatisfied : UInt16 := 0x6985
/-- The length bytes do not match the data. -/
def swoWrongDataLength : UInt16 := 0x6A87
/-- Another class than `CLA`. -/
def swoInvalidCla : UInt16 := 0x6E00
/-- An instruction byte the dispatcher does not know. -/
def swoInvalidIns : UInt16 := 0x6D00
/-- `SWO_INCORRECT_P1_P2`. -/
def swoIncorrectP1P2 : UInt16 := 0x6A86
/-- `SWO_WRONG_P1_P2`. -/
def swoWrongP1P2 : UInt16 := 0x6B00
/-- `SWO_INCORRECT_DATA`. -/
def swoIncorrectData : UInt16 := 0x6A80

/-- A packet out of order, or of an instruction that is not open. -/
def errorInvalidState : UInt16 := 0x6B01
/-- A derivation path the app does not accept. -/
def errorInvalidPath : UInt16 := 0x6B02
/-- A parameter byte out of range. -/
def errorInvalidParam : UInt16 := 0x6B03
/-- A field of the transaction that cannot be read or shown. -/
def errorInvalidTransaction : UInt16 := 0x6B04
/-- A data blob that is not one CBOR integer or text. -/
def errorUnsupportedCbor : UInt16 := 0x6B05
/-- A text that does not fit its buffer. -/
def errorBufferOverflow : UInt16 := 0x6B06
/-- An SDK call failed. -/
def errorFailedCxOperation : UInt16 := 0x6B07
/-- More module source than announced. -/
def errorInvalidSourceLength : UInt16 := 0x6B08
/-- The module reference cannot be written out. -/
def errorInvalidModuleRef : UInt16 := 0x6B09
/-- More of a name than announced. -/
def errorInvalidNameLength : UInt16 := 0x6B0A
/-- More parameters than announced. -/
def errorInvalidParamsLength : UInt16 := 0x6B0B
/-- The stored descriptor does not fit the address to verify. -/
def errorTrustedNameMismatch : UInt16 := 0x6B0C
/-- Token CBOR that is not an operation, or not as long as announced. -/
def errorPltCborError : UInt16 := 0x6B0D
/-- No token CBOR announced, or more than the buffer holds. -/
def errorPltBufferError : UInt16 := 0x6B0E
/-- The opening packet of a token operation does not hold what it has to. -/
def errorPltDataError : UInt16 := 0x6B0F
/-- More than one token operation. -/
def errorPltMultiOp : UInt16 := 0x6B10
/-- A token amount whose exponent is out of range. -/
def errorPltUnsupportedDecimals : UInt16 := 0x6B11
/-- A token memo that cannot be shown as text. -/
def errorPltUnsupportedMemo : UInt16 := 0x6B12

/-! ## Instructions -/

/-- Review one of the account addresses of the device. -/
def insVerifyAddress : UInt8 := 0x00
/-- Release a public key. -/
def insGetPublicKey : UInt8 := 0x01
/-- Sign a transfer. -/
def insSignTransfer : UInt8 := 0x02
/-- Sign a transfer with a release schedule. -/
def insSignTransferWithSchedule : UInt8 := 0x03
/-- Sign a credential deployment. -/
def insCredentialDeployment : UInt8 := 0x04
/-- Release secrets on the legacy paths. -/
def insExportPrivateKeyLegacy : UInt8 := 0x05
/-- Sign the deployment of a module. -/
def insDeployModule : UInt8 := 0x06
/-- Sign the initialization of a contract. -/
def insInitContract : UInt8 := 0x07
/-- Sign a call of a contract. -/
def insUpdateContract : UInt8 := 0x08
/-- Sign the unshielding of an amount. -/
def insTransferToPublic : UInt8 := 0x12
/-- Sign a change of a delegation. -/
def insConfigureDelegation : UInt8 := 0x17
/-- Sign a change of a validator. -/
def insConfigureBaker : UInt8 := 0x18
/-- Sign the public information for the identity provider. -/
def insPublicInfoForIp : UInt8 := 0x20
/-- Read the name of the app. -/
def insGetAppName : UInt8 := 0x21
/-- Store a signed address descriptor. -/
def insSetTrustedName : UInt8 := 0x22
/-- Draw the challenge a descriptor has to quote. -/
def insGetChallenge : UInt8 := 0x23
/-- Sign an operation on a protocol-level token. -/
def insSignPlt : UInt8 := 0x27
/-- Sign an update of the credentials of an account. -/
def insSignUpdateCredential : UInt8 := 0x31
/-- Sign a transfer with a memo. -/
def insSignTransferWithMemo : UInt8 := 0x32
/-- Sign a transfer with a release schedule and a memo. -/
def insSignTransferWithScheduleAndMemo : UInt8 := 0x34
/-- Sign the registration of data. -/
def insRegisterData : UInt8 := 0x35
/-- Release secrets on the new paths. -/
def insExportPrivateKeyNew : UInt8 := 0x37
/-- Read the version of the app. -/
def insAppVersion : UInt8 := 0x40

/-! ## Transaction kinds -/

/-- `DEPLOY_MODULE`. -/
def kindDeployModule : UInt8 := 0
/-- `INIT_CONTRACT`. -/
def kindInitContract : UInt8 := 1
/-- `UPDATE_CONTRACT`. -/
def kindUpdateContract : UInt8 := 2
/-- `TRANSFER`. -/
def kindTransfer : UInt8 := 3
/-- `TRANSFER_TO_PUBLIC`. -/
def kindTransferToPublic : UInt8 := 18
/-- `TRANSFER_WITH_SCHEDULE`. -/
def kindTransferWithSchedule : UInt8 := 19
/-- `UPDATE_CREDENTIALS`. -/
def kindUpdateCredentials : UInt8 := 20
/-- `REGISTER_DATA`. -/
def kindRegisterData : UInt8 := 21
/-- `TRANSFER_WITH_MEMO`. -/
def kindTransferWithMemo : UInt8 := 22
/-- `TRANSFER_WITH_SCHEDULE_WITH_MEMO`. -/
def kindTransferWithScheduleWithMemo : UInt8 := 24
/-- `CONFIGURE_BAKER`. -/
def kindConfigureBaker : UInt8 := 25
/-- `CONFIGURE_DELEGATION`. -/
def kindConfigureDelegation : UInt8 := 26
/-- `PLT`. -/
def kindPlt : UInt8 := 27

/-! ## Sizes -/

/-- Bytes of a key. -/
def keyLength : ℕ := 32
/-- Bytes of an account address. -/
def addressLength : ℕ := 32
/-- Bytes of an account transaction header. -/
def accountTransactionHeaderLength : ℕ := 60
/-- Where the energy stands in that header. -/
def energyOffsetInHeader : ℕ := 40
/-- Characters of an account address in base58check. -/
def base58AddressLength : ℕ := 55
/-- The longest text of a data blob. -/
def maxCborStringSize : ℕ := 255
/-- The longest data blob: a CBOR head of two bytes and the text. -/
def maxCborBlobSize : ℕ := 2 + maxCborStringSize

/-! ## Derivation paths -/

/-- The nodes a path has room for. -/
def derivationPathNodesMax : ℕ := 8
/-- The nodes of a path `44'/coinType'/idp'/id'/key'`. -/
def derivationPathNewLen : ℕ := 5

/-- Bit 31, set on a hardened node. -/
def hardenedBit : UInt32 := 0x80000000
/-- The first node of the legacy paths. -/
def legacyPurpose : UInt32 := 1105
/-- Their second node. -/
def legacyCoinType : UInt32 := 0
/-- The first node of the new paths. -/
def newPurpose : UInt32 := 44
/-- Their second node on mainnet. -/
def newMainnetCoinType : UInt32 := 919
/-- Their second node on testnet. -/
def newTestnetCoinType : UInt32 := 1

/-- `derivation_path_variant_t`. -/
inductive DerivationPathVariant where
  | legacy | new | full | invalid
deriving DecidableEq, Repr

/-- `derivation_path_network_t`: the network the second node names. -/
inductive DerivationPathNetwork where
  | mainnet | testnet | legacy | unknown
deriving DecidableEq, Repr

/-- A derivation path.  Only the nodes in use are kept: `init_derivation_path`
    clears the array before every writer fills it, so a node read past the
    length is zero (`node`). -/
structure DerivationPath where
  nodes : List UInt32
  variant : DerivationPathVariant
  len_le : nodes.length ≤ derivationPathNodesMax
deriving DecidableEq, Repr

namespace DerivationPath

/-- `init_derivation_path`. -/
def init : DerivationPath := ⟨[], .invalid, Nat.zero_le _⟩

instance : Inhabited DerivationPath := ⟨init⟩

/-- The number of nodes in use. -/
def len (dp : DerivationPath) : ℕ := dp.nodes.length

/-- Node `i`, zero behind the length. -/
def node (dp : DerivationPath) (i : ℕ) : UInt32 := dp.nodes.getD i 0

/-- Apply `f` to every node in use. -/
def mapNodes (dp : DerivationPath) (f : UInt32 → UInt32) : DerivationPath :=
  ⟨dp.nodes.map f, dp.variant, by rw [List.length_map]; exact dp.len_le⟩

/-- `harden_derivation_path`. -/
def harden (dp : DerivationPath) : DerivationPath := dp.mapNodes (· ||| hardenedBit)

/-- `unharden_derivation_path`. -/
def unharden (dp : DerivationPath) : DerivationPath := dp.mapNodes (· &&& ~~~hardenedBit)

/-- Write node `i` and cut the path right behind it. -/
def setLastNode (dp : DerivationPath) (i : ℕ) (x : UInt32) (h : i < derivationPathNodesMax) :
    DerivationPath where
  nodes := (dp.nodes ++ List.replicate derivationPathNodesMax 0).take i ++ [x]
  variant := dp.variant
  len_le := by
    simp only [List.length_append, List.length_take, List.length_cons, List.length_nil]
    omega

end DerivationPath

/-- The key roles below an identity, as the path indices name them. -/
def legacyIdCredSec : UInt32 := 0
/-- The legacy PRF key. -/
def legacyPrfKey : UInt32 := 1
/-- The identity credential secret. -/
def newIdCredSec : UInt32 := 2
/-- The PRF key. -/
def newPrfKey : UInt32 := 3
/-- The signature blinding randomness. -/
def newSignatureBlindingRandomness : UInt32 := 4
/-- The commitment randomness. -/
def newCommitmentRandomness : UInt32 := 5

end Concordium
