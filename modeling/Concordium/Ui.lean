/-
  The screens (`display_nbgl.c`, `display_bagl.c`).

  An NBGL review shows a title, its tag/value pairs and a finishing title, and
  is answered once, by confirming or by rejecting.  A BAGL flow is a sequence
  of steps; a step with a callback runs it whenever it is activated.  Text is
  taken from the buffers when the screen is drawn.
-/
import Concordium.Crypto

namespace Concordium

open Buffer Union

variable [Platform]

/-- A tag and its value. -/
def row (item : String) (value : Bytes) : Row := ⟨ascii item, value⟩

/-- A step of fixed text on two lines. -/
def line (first second : String) : Row := ⟨ascii first, ascii second⟩

/-- `nbgl_useCaseReview` and `nbgl_useCaseReviewLight`. -/
def nbglReview (title : Row) (pairs : List Row) (finish : Bytes) (confirm reject : Callback) :
    App Unit :=
  showScreen (title :: pairs ++ [⟨finish, []⟩]) [confirm, reject]

/-- The final review of a transaction: `review_choice_sign`. -/
def nbglSignReview (title : Row) (pairs : List Row) (finish : String) : App Unit :=
  nbglReview title pairs (ascii finish) .buildAndSignTransactionHash .sendUserRejection

/-- A staged review whose rejection ends the whole flow. -/
def nbglStagedReview (title : Row) (pairs : List Row) (finish : String) (confirm : Callback) :
    App Unit :=
  nbglReview title pairs (ascii finish) confirm .rejectStagedReview

/-- The steps `ux_sign_flow_shared_sign` and `ux_sign_flow_shared_decline`. -/
def signFlowShared : List Callback := [.buildAndSignTransactionHash, .sendUserRejection]

/-- `addAccountHeaderPairs`, and the three account steps of BAGL. -/
def accountHeaderPairs (account : AccountSender) (senderItem : String) : List Row :=
  [row senderItem account.sender.text, row "Max energy" account.energyDisplay.text,
    row "Network" account.network.text]

/-! ## Public keys -/

/-- `uiComparePubkey`: the key on the screen, to be compared with the one released. -/
def uiComparePubkey : App Unit := do
  let compare := (← get).comparePublicKey
  match Platform.backend with
  | .nbgl =>
    nbglReview (line "Public Key" "") [row "Identity" compare.display.text,
      row "Public key" compare.publicKey.text] (ascii "Export public key") .reviewStatus
      .reviewStatus
  | .bagl => showScreen [row "Compare" compare.publicKey.text] [.uiMenuMain, .uiMenuMain]

/-- `uiGeneratePubkey`: the review that releases a public key. -/
def uiGeneratePubkey : App Unit := do
  let ctx ← getCtx ExportPublicKeyContext
  match Platform.backend with
  | .nbgl =>
    nbglReview (line "Public Key" "") [row "Identity" ctx.display.text]
      (ascii "Export public key") .sendPublicKeyConfirm .sendUserRejection
  | .bagl =>
    showScreen [row "Identity" ctx.display.text, row "Public key" ctx.publicKey.text]
      [.sendPublicKeyConfirm, .sendUserRejection]

/-! ## Key export -/

/-- `compose_export_private_key_titles`: `<operation> <verb>` and
    `<action>\n<verb>`, in place. -/
def composeExportPrivateKeyTitles : App Unit := do
  let ctx ← getCtx ExportPrivateKeyContext
  let operation := ctx.displayReviewOperation.text
  let reviewVerb := ctx.displayReviewVerb.text
  throwIf (48 < operation.length + 1 + reviewVerb.length + 1) errorBufferOverflow
  let reviewOperation ← memmove ctx.displayReviewOperation operation.length
    (ascii " " ++ reviewVerb ++ [0])
  let action := ctx.displaySign.text
  let signVerb := ctx.displaySignVerb.text
  throwIf (48 < action.length + 1 + signVerb.length + 1) errorBufferOverflow
  let displaySign ← memmove ctx.displaySign action.length (ascii "\n" ++ signVerb ++ [0])
  setCtx { ctx with displayReviewOperation := reviewOperation, displaySign := displaySign }

/-- The pairs both export reviews show. -/
def exportPairs (ctx : ExportPrivateKeyContext) (warning : Row) : List Row :=
  [⟨ctx.displayCredidTitle.text, ctx.displayCredid.text⟩,
    ⟨ctx.displayDetailTitle.text, ctx.displayDetail.text⟩,
    row "Keys released" ctx.displayKeyTypes.text, warning]

/-- The export review, with the callbacks of the two flows that use it. -/
def uiExportReview (approve reject : Callback) : App Unit := do
  match Platform.backend with
  | .nbgl =>
    composeExportPrivateKeyTitles
    let ctx ← getCtx ExportPrivateKeyContext
    nbglReview ⟨ctx.displayReviewOperation.text, []⟩
      (exportPairs ctx (line "Warning" "These secrets leave this Ledger and can be reused"))
      ctx.displaySign.text approve reject
  | .bagl =>
    let ctx ← getCtx ExportPrivateKeyContext
    showScreen (⟨ctx.displayReviewOperation.text, ctx.displayReviewVerb.text⟩ ::
      exportPairs ctx (line "Secrets leave" "this Ledger") ++ [⟨ctx.displaySign.text, []⟩])
      [approve, reject]

/-- `uiExportPrivateKey`, for the legacy paths. -/
def uiExportPrivateKey : App Unit := uiExportReview .exportPrivateKey .sendUserRejection

/-- `uiExportPrivateKeysNewPath`. -/
def uiExportPrivateKeysNewPath : App Unit :=
  uiExportReview .sendPrivateKeysNewPath .rejectPrivateKeysNewPath

/-! ## Verify address -/

/-- `uiVerifyAddress`: path, network and address. -/
def uiVerifyAddress : App Unit := do
  let ctx ← getCtx VerifyAddressContext
  let rows : List Row := [⟨ctx.displayLabel.text, ctx.display.text⟩,
    row "Network" ctx.network.text, row "Address" ctx.address.text]
  match Platform.backend with
  | .nbgl =>
    showScreen (line "Verify Address" "" :: rows) [.verifyAddressConfirm,
      .verifyAddressReject]
  | .bagl => showScreen rows [.sendSuccess, .sendUserRejection]

/-! ## Configure baker -/

namespace ConfigureBakerDisplay

instance : Zeroed ConfigureBakerDisplay where
  zeroed := .zeroed
  isZeroed | .zeroed => true | _ => false
  isZeroed_zeroed := rfl

instance : Member ConfigureBakerDisplay ConfigureBakerCapitalRestakeOpenForDelegationBlob :=
  ⟨.capitalRestakeDelegation, fun | .capitalRestakeDelegation c => some c | _ => none,
    fun _ => rfl, fun _ => rfl⟩

instance : Member ConfigureBakerDisplay ConfigureBakerUrl :=
  ⟨.url, fun | .url c => some c | _ => none,
    fun _ => rfl, fun _ => rfl⟩

instance : Member ConfigureBakerDisplay ConfigureBakerCommisionRates :=
  ⟨.commissionRates, fun | .commissionRates c => some c | _ => none,
    fun _ => rfl, fun _ => rfl⟩

instance : Member ConfigureBakerDisplay (Buf 18) :=
  ⟨.suspended, fun | .suspended c => some c | _ => none,
    fun _ => rfl, fun _ => rfl⟩

/-- The member `α` of the display union as the code reads it. -/
def view (α : Type) [Member ConfigureBakerDisplay α] (d : ConfigureBakerDisplay) : α :=
  Union.read (fun u => Platform.residue u α) d

end ConfigureBakerDisplay

namespace SignConfigureBaker

/-- `capitalRestakeDelegation` of the union. -/
def capital (ctx : SignConfigureBaker) : ConfigureBakerCapitalRestakeOpenForDelegationBlob :=
  ctx.display.view _

/-- `url` of the union. -/
def url (ctx : SignConfigureBaker) : ConfigureBakerUrl := ctx.display.view _

/-- `commissionRates` of the union. -/
def rates (ctx : SignConfigureBaker) : ConfigureBakerCommisionRates := ctx.display.view _

/-- `suspended` of the union. -/
def suspended (ctx : SignConfigureBaker) : Buf 18 := ctx.display.view _

omit [Platform] in
/-- `hasCommissionRate`. -/
def hasCommissionRate (ctx : SignConfigureBaker) : Bool :=
  ctx.hasTransactionFeeCommission || ctx.hasBakingRewardCommission ||
    ctx.hasFinalizationRewardCommission

end SignConfigureBaker

/-- The end of a baker review: continue, or sign when no stage follows. -/
def bakerReview (rows : List Row) (first more : Bool) : App Unit := do
  let account := (← get).accountSender
  match Platform.backend with
  | .nbgl =>
    let pairs := (if first then accountHeaderPairs account "Sender" else []) ++ rows
    if more then
      nbglStagedReview (line "Review Transaction" "") pairs "Continue with transaction"
        .confirmConfigureBakerStage
    else
      nbglSignReview (line "Review Transaction" "") pairs "Sign transaction"
  | .bagl =>
    let intro := if first then line "Review transaction to" "configure validator" ::
      accountHeaderPairs account "From" else []
    showScreen (intro ++ rows) (if more then [.confirmConfigureBakerStage] else signFlowShared)

/-- Clear `firstDisplay` and return what it was. -/
def takeFirstDisplay : App Bool := do
  let ctx ← getCtx SignConfigureBaker
  setCtx { ctx with firstDisplay := false }
  return ctx.firstDisplay

/-- The row of a transaction that stops baking. -/
def stopBakingRow : Row :=
  match Platform.backend with
  | .nbgl => line "Stop" "Baking"
  | .bagl => line "Stop" "baking"

/-- `startConfigureBakerDisplay`: account, stake, restaking, pool status and the
    digest of the keys. -/
def startConfigureBakerDisplay : App Unit := do
  let _ ← takeFirstDisplay
  let ctx ← getCtx SignConfigureBaker
  let capital := if ctx.hasCapital then
    [if ctx.capital.stopBaking then stopBakingRow
      else row "Amount to stake" ctx.capital.displayCapital.text] else []
  let restake := if ctx.hasRestakeEarnings then
    [row "Restake earnings" ctx.capital.displayRestake.text] else []
  let openForDelegation := if ctx.hasOpenForDelegation then
    [row "Pool status" ctx.capital.displayOpenForDelegation.text] else []
  let keys := if ctx.hasKeys then
    [line "Update baker" "keys", row "Baker keys hash" ctx.keysHashDisplay.text] else []
  bakerReview (capital ++ restake ++ openForDelegation ++ keys) true
    (ctx.hasMetadataUrl || ctx.hasCommissionRate || ctx.hasSuspended)

/-- `startConfigureBakerUrlDisplay`.  On BAGL a URL page that is not the last
    has no continue step: the page itself is the one with the callback. -/
def startConfigureBakerUrlDisplay (lastUrlPage : Bool) : App Unit := do
  let first ← takeFirstDisplay
  let ctx ← getCtx SignConfigureBaker
  let page := if lastUrlPage && ctx.url.urlLength == 0 then line "Empty URL" ""
    else row "URL" ctx.url.urlDisplay.text
  bakerReview [page] first (!lastUrlPage || ctx.hasCommissionRate || ctx.hasSuspended)

/-- `startConfigureBakerCommissionDisplay`: the rates the transaction sets. -/
def startConfigureBakerCommissionDisplay : App Unit := do
  let first ← takeFirstDisplay
  let ctx ← getCtx SignConfigureBaker
  let heading := if ctx.hasCommissionRate then [line "Commission" "rates"] else []
  let transactionFee := if ctx.hasTransactionFeeCommission then
    [row "Transaction fee" ctx.rates.transactionFeeCommissionRate.text] else []
  let bakingReward := if ctx.hasBakingRewardCommission then
    [row "Baking reward" ctx.rates.bakingRewardCommissionRate.text] else []
  let finalizationReward := if ctx.hasFinalizationRewardCommission then
    [row "Finalization reward" ctx.rates.finalizationRewardCommissionRate.text] else []
  bakerReview (heading ++ transactionFee ++ bakingReward ++ finalizationReward) first
    ctx.hasSuspended

/-- `startConfigureBakerSuspendedDisplay`, the last stage there can be. -/
def startConfigureBakerSuspendedDisplay : App Unit := do
  let first ← takeFirstDisplay
  let ctx ← getCtx SignConfigureBaker
  bakerReview [row "Validator status" ctx.suspended.text] first false

/-! ## Configure delegation -/

/-- `startConfigureDelegationDisplay`: account, stake, restaking and target. -/
def startConfigureDelegationDisplay : App Unit := do
  let ctx ← getCtx SignConfigureDelegationContext
  let account := (← get).accountSender
  let restake := if ctx.hasRestakeEarnings then
    [row "Restake earnings" ctx.displayRestake.text] else []
  let target := if ctx.hasDelegationTarget then
    [row "Delegation target" ctx.displayDelegationTarget.text] else []
  match Platform.backend with
  | .nbgl =>
    let capital := if ctx.hasCapital then
      [if ctx.stopDelegation then line "Action" "Stop delegation"
        else row "Amount to delegate" ctx.displayCapital.text] else []
    nbglSignReview (line "Review Transaction" "")
      (accountHeaderPairs account "Sender" ++ capital ++ restake ++ target) "Sign transaction"
  | .bagl =>
    let capital := if ctx.hasCapital then
      [if ctx.stopDelegation then line "Stop" "delegation"
        else row "Amount to delegate" ctx.displayCapital.text] else []
    showScreen (line "Review transaction to" "configure delegation" ::
      accountHeaderPairs account "From" ++ capital ++ restake ++ target) signFlowShared

/-! ## Credentials -/

omit [Platform] in
/-- The text of `identityProviderIndex`: nothing terminates a buffer filled by
    `number_to_text`, so reading may run on into the fields behind it. -/
def SignCredentialDeploymentContext.identityProviderText (ctx : SignCredentialDeploymentContext) :
    Bytes :=
  (ctx.identityProviderIndex.bytes ++ ctx.arIdentity.bytes ++
    ctx.encIdCredPubShare.bytes).takeWhile (· != 0)

omit [Platform] in
/-- The verification key received last. -/
def keyRow (ctx : SignCredentialDeploymentContext) : Row :=
  row "Public key" ctx.accountVerificationKey.text

omit [Platform] in
/-- How many signatures the credential asks for. -/
def signatureThresholdRow (ctx : SignCredentialDeploymentContext) : Row :=
  row "Signature threshold" ctx.signatureThreshold.text

omit [Platform] in
/-- How many anonymity revokers it takes. -/
def arThresholdRow (ctx : SignCredentialDeploymentContext) : Row :=
  row "AR threshold" ctx.anonymityRevocationThreshold.text

omit [Platform] in
/-- The registration id and the identity provider. -/
def registrationRows (ctx : SignCredentialDeploymentContext) : List Row :=
  [row "RegIdCred" ctx.regIdCred.text, row "Identity provider" ctx.identityProviderText]

omit [Platform] in
/-- The digest of the list of anonymity revokers. -/
def arListRow (ctx : SignCredentialDeploymentContext) : Row :=
  row "AR list hash" ctx.arListHashDisplay.text

/-- `uiSignUpdateCredentialInitialDisplay`: the account whose credentials are updated. -/
def uiSignUpdateCredentialInitialDisplay : App Unit := do
  let account := (← get).accountSender
  match Platform.backend with
  | .nbgl =>
    nbglStagedReview (line "Review" "details") (accountHeaderPairs account "Sender")
      "Continue with transaction" .sendSuccessNoIdle
  | .bagl =>
    showScreen (line "Review transaction to" "update credentials" ::
      accountHeaderPairs account "From") [.sendSuccessNoIdle]

/-- `uiSignUpdateCredentialIdDisplay`: a credential to be removed. -/
def uiSignUpdateCredentialIdDisplay : App Unit := do
  let ctx ← getCtx SignCredentialDeploymentContext
  match Platform.backend with
  | .nbgl =>
    nbglStagedReview (line "Review" "details")
      [row "Credential ID" ctx.credentialId.text] "Continue with transaction" .sendSuccessNoIdle
  | .bagl => showScreen [row "Rem. credential" ctx.credentialId.text] [.sendSuccessNoIdle]

/-- `uiSignUpdateCredentialThresholdDisplay`: the new threshold, with the signing step. -/
def uiSignUpdateCredentialThresholdDisplay : App Unit := do
  let ctx ← getCtx SignCredentialDeploymentContext
  match Platform.backend with
  | .nbgl =>
    nbglSignReview (line "Review Transaction" "")
      [row "Threshold" ctx.threshold.text] "Sign transaction"
  | .bagl => showScreen [row "Cred. sig. threshold" ctx.threshold.text] signFlowShared

/-- `uiSignUpdateCredentialAddedCredentialDisplay`: a credential to be added. -/
def uiSignUpdateCredentialAddedCredentialDisplay : App Unit := do
  let ctx ← getCtx SignCredentialDeploymentContext
  let rows := keyRow ctx :: signatureThresholdRow ctx :: arThresholdRow ctx ::
    registrationRows ctx ++ [arListRow ctx]
  match Platform.backend with
  | .nbgl =>
    nbglReview (line "Review added credential" "") rows (ascii "Confirm added credential")
      .confirmAddedCredential .sendUserRejection
  | .bagl => showScreen rows [.confirmAddedCredential, .sendUserRejection]

/-- `uiSignCredentialDeploymentAttributeDisplay`: a revealed attribute. -/
def uiSignCredentialDeploymentAttributeDisplay : App Unit := do
  let ctx ← getCtx SignCredentialDeploymentContext
  let rows : List Row := [⟨ctx.attributeName.text, ctx.attributeValue.text⟩]
  match Platform.backend with
  | .nbgl =>
    nbglReview (line "Review revealed attribute" "") rows
      (ascii "Continue with transaction") .confirmAttribute .sendUserRejection
  | .bagl => showScreen rows [.confirmAttribute]

/-- `uiSignCredentialDeploymentVerificationKeyDisplay` with the intro, and
    `uiSignCredentialDeploymentVerificationKeyFlowDisplay` without it.  The
    BAGL intro is a step with a callback of its own. -/
def uiVerificationKeyDisplay (intro : Bool) : App Unit := do
  let ctx ← getCtx SignCredentialDeploymentContext
  match Platform.backend with
  | .nbgl =>
    nbglStagedReview (line "Review" "details") [keyRow ctx] "Continue with transaction"
      .processNextVerificationKey
  | .bagl =>
    if intro then
      showScreen [line "Review" "details", keyRow ctx] [.sendSuccessNoIdle,
        .processNextVerificationKey]
    else
      showScreen [keyRow ctx] [.processNextVerificationKey]

/-- The first key of a deployment. -/
def uiSignCredentialDeploymentVerificationKeyDisplay : App Unit := uiVerificationKeyDisplay true

/-- A key behind the first. -/
def uiSignCredentialDeploymentVerificationKeyFlowDisplay : App Unit :=
  uiVerificationKeyDisplay false

/-- The four final reviews of a credential deployment: for a new or an existing
    account, with or without the intro.  On BAGL the AR threshold is a step
    with a callback, and so is the intro. -/
def uiCredentialDeploymentFinal (existing intro : Bool) : App Unit := do
  let ctx ← getCtx SignCredentialDeploymentContext
  let address := if existing then [row "Address" ctx.accountAddress.text] else []
  match Platform.backend with
  | .nbgl =>
    nbglSignReview (line "Review Transaction" "")
      (keyRow ctx :: signatureThresholdRow ctx :: registrationRows ctx ++
        [arThresholdRow ctx, arListRow ctx] ++ address) "Sign details"
  | .bagl =>
    let first := if intro then [line "Review" "details"] else []
    showScreen (first ++ [keyRow ctx, signatureThresholdRow ctx, arThresholdRow ctx] ++ address ++
      registrationRows ctx ++ [arListRow ctx])
      ((if intro then [.sendSuccessNoIdle] else []) ++ .sendSuccessNoIdle :: signFlowShared)

/-- A new account with a single key. -/
def uiSignCredentialDeploymentNewIntroDisplay : App Unit := uiCredentialDeploymentFinal false true

/-- A new account, behind the reviews of other keys. -/
def uiSignCredentialDeploymentNewDisplay : App Unit := uiCredentialDeploymentFinal false false

/-- An existing account with a single key. -/
def uiSignCredentialDeploymentExistingIntroDisplay : App Unit :=
  uiCredentialDeploymentFinal true true

/-- An existing account, behind the reviews of other keys. -/
def uiSignCredentialDeploymentExistingDisplay : App Unit := uiCredentialDeploymentFinal true false

/-! ## Public information for the identity provider -/

omit [Platform] in
/-- The key received last and its type. -/
def publicKeyRows (ctx : SignPublicInformationForIp) : List Row :=
  [row "Public key" ctx.publicKey.text, row "Key type" ctx.keyType.text]

omit [Platform] in
/-- The two identity fields of the opening packet. -/
def identityRows (ctx : SignPublicInformationForIp) : List Row :=
  [row "Id Cred Pub" ctx.idCredPub.text, row "Credential ID" ctx.credId.text]

/-- The final review, of one key (`complete`) or of the last of several.  On
    BAGL the complete flow opens with a step that has a callback. -/
def uiPublicInformationSign (complete : Bool) : App Unit := do
  let ctx ← getCtx SignPublicInformationForIp
  let threshold := row "Signature threshold" ctx.threshold.text
  match Platform.backend with
  | .nbgl =>
    if complete then
      nbglSignReview (line "Review identity" "provider info")
        (publicKeyRows ctx ++ threshold :: identityRows ctx) "Sign identity"
    else
      nbglSignReview (line "Review identity" "") (publicKeyRows ctx ++ [threshold]) "Sign identity"
  | .bagl =>
    if complete then
      showScreen (line "Review identity" "provider info" :: publicKeyRows ctx ++ identityRows ctx ++
        [threshold]) (.sendSuccessNoIdle :: signFlowShared)
    else
      showScreen (publicKeyRows ctx ++ [threshold]) signFlowShared

/-- The final review when there is one key. -/
def uiSignPublicInformationForIpCompleteDisplay : App Unit := uiPublicInformationSign true

/-- The final review behind those of other keys. -/
def uiSignPublicInformationForIpFinalDisplay : App Unit := uiPublicInformationSign false

/-- A key that is not the last: with the intro for the first, without it for
    the others. -/
def uiPublicInformationContinue (intro : Bool) : App Unit := do
  let ctx ← getCtx SignPublicInformationForIp
  match Platform.backend with
  | .nbgl =>
    if intro then
      nbglStagedReview (line "Review identity" "provider info") (publicKeyRows ctx ++
        identityRows ctx) "Continue reviewing info" .sendSuccessNoIdle
    else
      nbglStagedReview (line "Review identity" "") (publicKeyRows ctx) "Continue reviewing info"
        .sendSuccessNoIdle
  | .bagl =>
    if intro then
      showScreen (line "Review identity" "provider info" :: publicKeyRows ctx ++ identityRows ctx)
        [.sendSuccessNoIdle, .sendSuccessNoIdle]
    else
      showScreen (publicKeyRows ctx) [.sendSuccessNoIdle]

/-- The review of the first of several keys. -/
def uiReviewPublicInformationForIpDisplay : App Unit := uiPublicInformationContinue true

/-- The review of a key between the first and the last. -/
def uiSignPublicInformationForIpPublicKeyDisplay : App Unit := uiPublicInformationContinue false

/-! ## Register data -/

/-- `uiSignFlowSharedDisplay`, on BAGL only. -/
def uiSignFlowSharedDisplay : App Unit := showScreen [] signFlowShared

/-- `uiRegisterDataInitialDisplay`: the account. -/
def uiRegisterDataInitialDisplay : App Unit := do
  let account := (← get).accountSender
  match Platform.backend with
  | .nbgl =>
    nbglStagedReview (line "Review transaction" "") (accountHeaderPairs account "Sender")
      "Continue with transaction" .sendSuccessNoIdle
  | .bagl =>
    showScreen (line "Review transaction to" "register data" ::
      accountHeaderPairs account "From") [.sendSuccessNoIdle]

/-- `uiRegisterDataPayloadDisplay`: type and text of the data.  NBGL offers signing
    when no data is left; BAGL decides that in the callback. -/
def uiRegisterDataPayloadDisplay : App Unit := do
  let ctx ← getCtx (WithDataBlob SignRegisterData)
  let rows := [row "Data type" ctx.cborContext.typeLabel.text,
    row "Data" ctx.cborContext.display.text]
  match Platform.backend with
  | .nbgl =>
    if 0 < ctx.tx.dataLength then
      nbglStagedReview (line "Review Data" "") rows "Continue with transaction" .sendSuccessNoIdle
    else
      nbglSignReview (line "Review Data" "") rows "Sign transaction"
  | .bagl => showScreen rows [.registerDataOnDataConfirm]

/-! ## Transfers -/

omit [Platform] in
/-- The memo with its CBOR type, where the transaction has one. -/
def memoRows (cbor : CborContext) (displayMemo : Bool) : List Row :=
  if displayMemo then [row "Memo type" cbor.typeLabel.text, row "Memo" cbor.display.text] else []

omit [Platform] in
/-- The fee estimate, where the host sent one. -/
def feeRows (fee : Buf 30) (hasFeeDisplay : Bool) : List Row :=
  if hasFeeDisplay then [row "Max fees (est.)" fee.text] else []

/-- `startTransferDisplay`: account, amount, recipient, memo and fee. -/
def startTransferDisplay (displayMemo : Bool) : App Unit := do
  let ctx ← getCtx (WithDataBlob SignTransferContext)
  let account := (← get).accountSender
  let rows := row "Amount" ctx.tx.displayAmount.text :: row "To" ctx.tx.displayStr.text ::
    memoRows ctx.cborContext displayMemo ++ feeRows ctx.tx.feeDisplayStr ctx.tx.hasFeeDisplay
  match Platform.backend with
  | .nbgl =>
    nbglSignReview (line "Review transaction to send CCD" "")
      (accountHeaderPairs account "From" ++ rows) "Sign transaction to send CCD"
  | .bagl =>
    showScreen (line "Review transaction to" "send CCD" ::
      accountHeaderPairs account "From" ++ rows) signFlowShared

/-- `uiSignTransferToPublicDisplay`: account, amount and recipient. -/
def uiSignTransferToPublicDisplay : App Unit := do
  let ctx ← getCtx SignTransferToPublic
  let account := (← get).accountSender
  let rows := [row "Unshield amount" ctx.amount.text, row "Recipient" ctx.recipientAddress.text]
  match Platform.backend with
  | .nbgl =>
    nbglSignReview (line "Review Transaction" "")
      (accountHeaderPairs account "Sender" ++ rows) "Sign transaction"
  | .bagl =>
    showScreen (line "Review transaction to" "unshield CCD" ::
      accountHeaderPairs account "From" ++ rows) signFlowShared

/-- `startInitialScheduledTransferDisplay`: what a scheduled transfer shows ahead of
    its releases. -/
def startInitialScheduledTransferDisplay (displayMemo : Bool) : App Unit := do
  let ctx ← getCtx (WithDataBlob SignTransferWithScheduleContext)
  let account := (← get).accountSender
  let rows := row "Recipient" ctx.tx.displayStr.text :: memoRows ctx.cborContext displayMemo ++
    feeRows ctx.tx.feeDisplayStr ctx.tx.hasFeeDisplay
  match Platform.backend with
  | .nbgl =>
    nbglReview (line "Review Transfer with schedule" "")
      (accountHeaderPairs account "Sender" ++ rows) (ascii "Continue with transfer")
      .confirmInitialScheduledTransfer .sendUserRejection
  | .bagl =>
    showScreen (line "Review transaction to" "send CCD on schedule" ::
      accountHeaderPairs account "From" ++ rows) [.confirmInitialScheduledTransfer]

omit [Platform] in
/-- A release: its time and its amount. -/
def pairRows (ctx : SignTransferWithScheduleContext) : List Row :=
  [row "Release time (UTC)" ctx.displayTimestamp.text, row "Amount" ctx.displayAmount.text]

/-- A release that is not the last. -/
def uiSignScheduledTransferPairFlowDisplay : App Unit := do
  let ctx ← getCtx (WithDataBlob SignTransferWithScheduleContext)
  match Platform.backend with
  | .nbgl =>
    nbglReview (line "Review Scheduled release" "") (pairRows ctx.tx)
      (ascii "Show next release") .processNextScheduledAmountContinue .sendUserRejection
  | .bagl =>
    showScreen (pairRows ctx.tx ++ [line "Show" "next release"])
      [.processNextScheduledAmountContinue]

/-- The last release, with the signing step. -/
def uiSignScheduledTransferPairFlowSignDisplay : App Unit := do
  let ctx ← getCtx (WithDataBlob SignTransferWithScheduleContext)
  match Platform.backend with
  | .nbgl =>
    nbglSignReview (line "Review Scheduled release" "") (pairRows ctx.tx)
      "Sign transaction"
  | .bagl => showScreen (pairRows ctx.tx) signFlowShared

/-! ## Modules and contracts -/

/-- `uiDeployModuleDisplay`: account, version and digest of the source. -/
def uiDeployModuleDisplay : App Unit := do
  let ctx ← getCtx DeployModule
  let account := (← get).accountSender
  let rows := [row "Version" ctx.versionDisplay.text, row "Module hash" ctx.sourceHashDisplay.text]
  match Platform.backend with
  | .nbgl =>
    nbglSignReview (line "Review Transaction \nto deploy module" "")
      (accountHeaderPairs account "Sender" ++ rows) "Sign transaction\nto deploy module"
  | .bagl =>
    showScreen (line "Review transaction to" "deploy module" ::
      accountHeaderPairs account "From" ++ rows) signFlowShared

/-- `uiInitContractDisplay`: account, amount, module, name and digest of name and parameters. -/
def uiInitContractDisplay : App Unit := do
  let ctx ← getCtx InitContract
  let account := (← get).accountSender
  let rows := [row "Amount" ctx.amountDisplay.text, row "Module ref" ctx.moduleRefDisplay.text,
    row "Contract name" ctx.stream.nameDisplay.text,
    row "Payload hash" ctx.stream.paramsHashDisplay.text]
  match Platform.backend with
  | .nbgl =>
    nbglSignReview (line "Review Transaction \nto initialize contract" "")
      (accountHeaderPairs account "Sender" ++ rows) "Sign transaction\nto initialize contract"
  | .bagl =>
    showScreen (line "Review transaction to" "initialize contract" ::
      accountHeaderPairs account "From" ++ rows) signFlowShared

/-- `uiUpdateContractDisplay`: account, amount, contract, name and digest of name
    and parameters. -/
def uiUpdateContractDisplay : App Unit := do
  let ctx ← getCtx UpdateContract
  let account := (← get).accountSender
  let rows := [row "Amount" ctx.amountDisplay.text, row "Index" ctx.indexDisplay.text,
    row "Sub index" ctx.subIndexDisplay.text,
    row "Receive name" ctx.stream.nameDisplay.text,
    row "Payload hash" ctx.stream.paramsHashDisplay.text]
  match Platform.backend with
  | .nbgl =>
    nbglSignReview (line "Review Transaction \nto update contract" "")
      (accountHeaderPairs account "Sender" ++ rows) "Sign transaction\nto update contract"
  | .bagl =>
    showScreen (line "Review transaction to" "update contract" ::
      accountHeaderPairs account "From" ++ rows) signFlowShared

/-! ## Protocol-level tokens -/

omit [Platform] in
/-- The rows of `startPltDisplay` behind the account header. -/
def pltRows (plt : SignPltContext) : List Row :=
  let amount := match plt.opType with
    | .transfer | .mint | .burn => [row "Amount" plt.displayAmount.text]
    | _ => []
  let address := match plt.opType with
    | .transfer => row "Recipient" plt.displayAddress.text ::
        (if plt.hasMemo then [row "Memo" plt.displayMemo.text] else [])
    | .addAllowList | .remAllowList | .addDenyList | .remDenyList =>
        [row "Target" plt.displayAddress.text]
    | _ => []
  row "Token" plt.tokenId.text :: row "Operation" plt.displayOp.text :: amount ++ address ++
    feeRows plt.displayFee plt.hasFeeDisplay

/-- `startPltDisplay`: account and token rows. -/
def startPltDisplay : App Unit := do
  let plt ← getCtx SignPltContext
  let account := (← get).accountSender
  match Platform.backend with
  | .nbgl =>
    nbglSignReview (line "Review PLT transaction" "")
      (accountHeaderPairs account "Sender" ++ pltRows plt) "Sign PLT transaction"
  | .bagl =>
    showScreen (line "Review PLT" "transaction" ::
      accountHeaderPairs account "From" ++ pltRows plt) signFlowShared

end Concordium
