/-
  Instruction-scoped state: the members of the `global` union.

  Every member is a structure of its own, with the zero-filled member as its
  default value.  A state enumeration has a constructor `unset` for the zero
  byte where the source gives zero no name.
-/
import Concordium.Types

namespace Concordium

open Buffer

/-! ## Key export -/

/-- `exportPrivateKeyContext_t`: the texts of the export review, what the request
    asks for, and, for the new paths, the keys the handler left to be sent. -/
structure ExportPrivateKeyContext where
  displayReviewOperation : Buf 48 := default
  displayReviewVerb : Buf 24 := default
  displaySignVerb : Buf 26 := default
  displayCredidTitle : Buf 15 := default
  displayCredid : Buf 22 := default
  displaySign : Buf 48 := default
  displayDetailTitle : Buf 16 := default
  displayDetail : Buf 24 := default
  displayKeyTypes : Buf 40 := default
  exportBoth : Bool := false
  exportSeed : Bool := false
  isNewPath : Bool := false
  newPathPurpose : UInt8 := 0
  newPathNetwork : UInt8 := 0
  newPathIdentityProvider : UInt32 := 0
  newPathIdentity : UInt32 := 0
  newPathAccount : UInt32 := 0
  outputPrivateKeys : Buf 195 := default
  privateKeysLength : ℕ := 0
deriving DecidableEq, Repr, Inhabited

/-- `exportPublicKeyContext_t`: the identity row, the key in hexadecimal and whether
    a signature is asked for. -/
structure ExportPublicKeyContext where
  display : Buf 21 := default
  publicKey : Buf 68 := default
  signPublicKey : Bool := false
deriving DecidableEq, Repr, Inhabited

/-- `verifyAddressContext_t`: the texts of the address review. -/
structure VerifyAddressContext where
  displayLabel : Buf 20 := default
  display : Buf 104 := default
  network : Buf 24 := default
  address : Buf 65 := default
deriving DecidableEq, Repr, Inhabited

/-! ## Public information for the identity provider -/

/-- `publicInfoForIpState_t`: the packet PUBLIC_INFO_FOR_IP waits for. -/
inductive PublicInfoForIpState where
  | unset | initial | verificationKey | threshold
deriving DecidableEq, Repr

/-- `signPublicInformationForIp_t`; `publicKeysLength` counts the keys still to come. -/
structure SignPublicInformationForIp where
  showIntro : Bool := false
  publicKeysLength : ℕ := 0
  publicKey : Buf 68 := default
  threshold : Buf 4 := default
  idCredPub : Buf 97 := default
  credId : Buf 97 := default
  keyType : Buf 3 := default
  state : PublicInfoForIpState := .unset
deriving DecidableEq, Repr, Inhabited

/-! ## Credentials -/

/-- `protocolState_t`: the stage of a credential; the last two are those of the
    opening packet and of a key on the screen. -/
inductive ProtocolState where
  | unset
  | initial
  | verificationKeysLength
  | verificationKey
  | signatureThreshold
  | arIdentity
  | credentialDates
  | attributeTag
  | attributeValue
  | lengthOfProofs
  | proofs
  | newOrExisting
  | awaitingVerificationKeyConfirm
deriving DecidableEq, Repr

/-- `TX_UPDATE_CREDENTIAL_INITIAL` is the zero byte. -/
inductive UpdateCredentialState where
  | initial
  | credentialIndex
  | credential
  | idCount
  | id
  | threshold
deriving DecidableEq, Repr

/-- `signCredentialDeploymentContext_t`, shared by a deployment and by an update:
    the counters of both streams and the texts of the reviews. -/
structure SignCredentialDeploymentContext where
  numberOfVerificationKeys : ℕ := 0
  credentialDeploymentCount : ℕ := 0
  credentialIdCount : ℕ := 0
  credentialId : Buf 102 := default
  threshold : Buf 4 := default
  updateCredentialState : UpdateCredentialState := .initial
  accountVerificationKey : Buf 68 := default
  signatureThreshold : Buf 4 := default
  anonymityRevocationThreshold : Buf 17 := default
  anonymityRevocationListLength : ℕ := 0
  regIdCred : Buf 97 := default
  identityProviderIndex : Buf 9 := default
  arIdentity : Buf 9 := default
  encIdCredPubShare : Buf 193 := default
  arListHashDisplay : Buf 65 := default
  arListHashCtx : Bytes := []
  validTo : Buf 8 := default
  createdAt : Buf 8 := default
  attributeListLength : ℕ := 0
  attributeHash : Bytes := []
  attributeValueLength : ℕ := 0
  attributeName : Buf 24 := default
  attributeValue : Buf 256 := default
  proofLength : ℕ := 0
  accountAddress : Buf 57 := default
  state : ProtocolState := .unset
  showIntro : Bool := false
deriving DecidableEq, Repr, Inhabited

/-! ## Transfer to public -/

/-- `transferToPublicState_t`: the packet TRANSFER_TO_PUBLIC waits for. -/
inductive TransferToPublicState where
  | unset | initial | remainingAmount | proof
deriving DecidableEq, Repr

/-- `signTransferToPublic_t`; `proofSize` is what is left of the proof. -/
structure SignTransferToPublic where
  amount : Buf 30 := default
  recipientAddress : Buf 57 := default
  proofSize : ℕ := 0
  state : TransferToPublicState := .unset
deriving DecidableEq, Repr, Inhabited

/-! ## Configure baker and configure delegation -/

/-- `configureBakerState_t`: the field CONFIGURE_BAKER waits for, or a review of one
    that is awaited. -/
inductive ConfigureBakerState where
  | unset
  | initial
  | first
  | aggregationKey
  | urlLength
  | url
  | commissionRates
  | suspended
  | «end»
  | awaitingConfirm
deriving DecidableEq, Repr

/-- The texts of the stake stage. -/
structure ConfigureBakerCapitalRestakeOpenForDelegationBlob where
  stopBaking : Bool := false
  displayCapital : Buf 30 := default
  displayRestake : Buf 4 := default
  displayOpenForDelegation : Buf 15 := default
deriving DecidableEq, Repr, Inhabited

/-- What is left of the metadata URL, and the page of it on the screen. -/
structure ConfigureBakerUrl where
  urlLength : ℕ := 0
  urlDisplay : Buf 256 := default
deriving DecidableEq, Repr, Inhabited

/-- The texts of the three commission rates. -/
structure ConfigureBakerCommisionRates where
  transactionFeeCommissionRate : Buf 8 := default
  bakingRewardCommissionRate : Buf 8 := default
  finalizationRewardCommissionRate : Buf 8 := default
deriving DecidableEq, Repr, Inhabited

/-- The union inside the baker context: what the stage on screen displays. -/
inductive ConfigureBakerDisplay where
  | zeroed
  | capitalRestakeDelegation (c : ConfigureBakerCapitalRestakeOpenForDelegationBlob)
  | url (c : ConfigureBakerUrl)
  | commissionRates (c : ConfigureBakerCommisionRates)
  | suspended (text : Buf 18)
deriving DecidableEq, Repr

/-- `signConfigureBaker_t`: the fields the bitmap announces, the display of the
    stage under way and the state to enter when it is confirmed. -/
structure SignConfigureBaker where
  hasCapital : Bool := false
  hasRestakeEarnings : Bool := false
  hasOpenForDelegation : Bool := false
  hasKeys : Bool := false
  hasMetadataUrl : Bool := false
  hasTransactionFeeCommission : Bool := false
  hasBakingRewardCommission : Bool := false
  hasFinalizationRewardCommission : Bool := false
  hasSuspended : Bool := false
  firstDisplay : Bool := false
  display : ConfigureBakerDisplay := .zeroed
  keysHashDisplay : Buf 65 := default
  keysHashCtx : Bytes := []
  state : ConfigureBakerState := .unset
  pendingState : ConfigureBakerState := .unset
deriving DecidableEq, Repr, Inhabited

/-- `signConfigureDelegationContext_t`: the fields the bitmap announces and their texts. -/
structure SignConfigureDelegationContext where
  stopDelegation : Bool := false
  displayCapital : Buf 30 := default
  displayRestake : Buf 4 := default
  displayDelegationTarget : Buf 30 := default
  hasCapital : Bool := false
  hasRestakeEarnings : Bool := false
  hasDelegationTarget : Bool := false
deriving DecidableEq, Repr, Inhabited

/-! ## Transactions with a data blob -/

/-- `cborContext_t`: what is left of a CBOR blob, and its texts once it has been read. -/
structure CborContext where
  cborLength : ℕ := 0
  /-- `cborBuf` up to `cborBufLen`. -/
  cborBuf : Bytes := []
  displayLen : ℕ := 0
  display : Buf 256 := default
  typeLabel : Buf 20 := default
deriving DecidableEq, Repr, Inhabited

/-- `simpleTransferState_t`: the packet a transfer, with or without a memo, waits for. -/
inductive SimpleTransferState where
  | unset | initial | memoInitial | memo | amount
deriving DecidableEq, Repr

/-- `signTransferContext_t`: the texts of a transfer. -/
structure SignTransferContext where
  displayStr : Buf 57 := default
  displayAmount : Buf 30 := default
  feeDisplayStr : Buf 30 := default
  hasFeeDisplay : Bool := false
  state : SimpleTransferState := .unset
deriving DecidableEq, Repr, Inhabited

/-- `registerDataState_t`: the packet REGISTER_DATA waits for. -/
inductive RegisterDataState where
  | unset | initial | payloadStart | payload
deriving DecidableEq, Repr

/-- `signRegisterData_t`; `dataLength` is what is left of the data. -/
structure SignRegisterData where
  dataLength : ℕ := 0
  state : RegisterDataState := .unset
deriving DecidableEq, Repr, Inhabited

/-- `transferWithScheduleState_t`: what a scheduled transfer, with or without a
    memo, waits for. -/
inductive TransferWithScheduleState where
  | unset | initial | awaitingInitialConfirm | transferPairs | memoStart | memo
deriving DecidableEq, Repr

/-- The broken-down time of `secondsToTm`; `tmYear` counts from 1900. -/
structure Tm where
  tmSec : ℤ := 0
  tmMin : ℤ := 0
  tmHour : ℤ := 0
  tmMday : ℤ := 0
  tmMon : ℤ := 0
  tmYear : ℤ := 0
deriving DecidableEq, Repr, Inhabited

/-- `signTransferWithScheduleContext_t`: the pairs left in all and in the packet at
    hand, which `buffer` holds from `pos` on. -/
structure SignTransferWithScheduleContext where
  state : TransferWithScheduleState := .unset
  displayStr : Buf 57 := default
  remainingNumberOfScheduledAmounts : ℕ := 0
  scheduledAmountsInCurrentPacket : ℕ := 0
  displayAmount : Buf 30 := default
  feeDisplayStr : Buf 30 := default
  hasFeeDisplay : Bool := false
  displayTimestamp : Buf 25 := default
  time : Tm := {}
  buffer : Buf 255 := default
  pos : ℕ := 0
deriving DecidableEq, Repr, Inhabited

/-- `transactionWithDataBlob_t` with `α` the member of its inner union. -/
structure WithDataBlob (α : Type) where
  tx : α
  cborContext : CborContext := {}
deriving DecidableEq, Repr, Inhabited

/-! ## Modules and contracts -/

/-- `deployModule_t`; `sourceHashCtx` is what the hash of the module source has been fed. -/
structure DeployModule where
  version : ℕ := 0
  sourceLength : ℕ := 0
  remainingSourceLength : ℕ := 0
  sourceHash : Buf 32 := default
  sourceHashDisplay : Buf 65 := default
  versionDisplay : Buf 11 := default
  sourceHashCtx : Bytes := []
deriving DecidableEq, Repr, Inhabited

/-- `initContractState_t` and `updateContractState_t`: the part of the stream a
    contract instruction waits for. -/
inductive ContractState where
  | unset | initial | nameFirst | nameNext | paramsFirst | paramsNext | «end»
deriving DecidableEq, Repr

/-- The fields `initContract_t` and `updateContract_t` share: the streamed
    name and parameters. -/
structure ContractStream where
  nameLength : ℕ := 0
  remainingNameLength : ℕ := 0
  paramsLength : ℕ := 0
  remainingParamsLength : ℕ := 0
  nameDisplay : Buf 256 := default
  nameDisplayUsed : ℕ := 0
  paramsHashDisplay : Buf 65 := default
  paramsHashCtx : Bytes := []
  state : ContractState := .unset
deriving DecidableEq, Repr, Inhabited

/-- `initContract_t`. -/
structure InitContract where
  amount : ℕ := 0
  moduleRef : Buf 32 := default
  amountDisplay : Buf 30 := default
  moduleRefDisplay : Buf 65 := default
  stream : ContractStream := {}
deriving DecidableEq, Repr, Inhabited

/-- `updateContract_t`. -/
structure UpdateContract where
  amount : ℕ := 0
  amountDisplay : Buf 30 := default
  indexDisplay : Buf 30 := default
  subIndexDisplay : Buf 30 := default
  stream : ContractStream := {}
deriving DecidableEq, Repr, Inhabited

/-! ## Protocol-level tokens -/

/-- `pltState_t`: the packet SIGN_PLT waits for. -/
inductive PltState where
  | unset | initial | cbor
deriving DecidableEq, Repr

/-- `pltOpType_t`; `PLT_OP_TRANSFER` is the zero byte. -/
inductive PltOpType where
  | transfer | mint | burn | addAllowList | remAllowList | addDenyList | remDenyList
  | pause | unpause
deriving DecidableEq, Repr

/-- `signPltContext_t`: the token, the CBOR received so far, the operation read from
    it and its texts. -/
structure SignPltContext where
  state : PltState := .unset
  cborTotalLength : ℕ := 0
  cborReceived : ℕ := 0
  tokenId : Buf 129 := default
  tokenIdLength : ℕ := 0
  cborBuf : Buf 512 := default
  opType : PltOpType := .transfer
  amountSignificand : ℕ := 0
  amountExponent : ℤ := 0
  address : Buf 32 := default
  hasMemo : Bool := false
  displayOp : Buf 23 := default
  displayAmount : Buf 170 := default
  displayAddress : Buf 57 := default
  displayMemo : Buf 257 := default
  displayFee : Buf 30 := default
  hasFeeDisplay : Bool := false
deriving DecidableEq, Repr, Inhabited

/-! ## Trusted names -/

/-- What the TLV parser extracts; `receivedTags` lists the tags seen. -/
structure TrustedNameTlvExtracted where
  receivedTags : List UInt8 := []
  structureType : UInt8 := 0
  version : UInt8 := 0
  trustedNameType : UInt8 := 0
  trustedNameSource : UInt8 := 0
  name : Buf 65 := default
  address : Bytes := []
  chainId : ℕ := 0
  challenge : ℕ := 0
  notValidAfterMajor : ℕ := 0
  notValidAfterMinor : ℕ := 0
  notValidAfterPatch : ℕ := 0
  signerKeyId : ℕ := 0
  signerAlgo : UInt8 := 0
  signature : Bytes := []
deriving DecidableEq, Repr, Inhabited

/-- The five hash contexts are fed the same bytes, kept here once. -/
structure TrustedNamePkiContext where
  hashCtx : Bytes := []
  tlv : TrustedNameTlvExtracted := {}
deriving DecidableEq, Repr, Inhabited

end Concordium
