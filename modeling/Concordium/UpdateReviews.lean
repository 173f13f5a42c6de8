/-
  Updates of credentials, packet by packet.

  The first packet says how many credentials are added; each of them arrives
  behind its index and is reviewed piece by piece and as a whole.  Then come the
  credentials that are removed, each reviewed, and the new threshold.
-/
import Concordium.CredentialScreens
import Concordium.ToAddress

namespace Concordium

open Buffer Counted Union Wp Runs

set_option synthInstance.maxSize 1000000
set_option synthInstance.maxHeartbeats 100000

section Reviews
variable [Platform] {p q r : CredentialPlace} {cmd first : Command} {cmds : List Command}
  {rows : List Row} {s t u w : World} {added : List AddedCredential} {rest : Bytes}
  {Q : Unit → World → Prop} {E : Exception → World → Prop}

/-! ## What is shown -/

/-- A credential is shown: its keys and attributes, its thresholds, its
    registration id and the digest of its revokers. -/
structure AddedCredential.Shown (c : AddedCredential) (rows : List Row) : Prop where
  items : itemRows c.head.keys.items c.attributes.items ⊆ rows
  threshold : row "Signature threshold"
    (decimal (signatureThresholdOf c.head.thresholds.bytes)) ∈ rows
  arThreshold : row "AR threshold" (decimal (arThresholdOf c.head.thresholds.bytes) ++
    ascii " out of " ++ decimal c.head.revokers.items.length) ∈ rows
  regId : row "RegIdCred" (hexUpper ((c.head.thresholds.bytes.drop 1).take 48)) ∈ rows
  arList : row "AR list hash" (hexUpper (Platform.sha256
    (c.head.revokers.items.flatMap Buf.bytes)).bytes) ∈ rows
  owned : c.head.keys.items ≠ [] ∧ c.head.revokers.items ≠ []

/-- The removal of a credential is shown. -/
def RemovalShown (id : Buf 48) (rows : List Row) : Prop :=
  row "Credential ID" (paginatedHex id.bytes) ∈ rows ∨
    row "Rem. credential" (paginatedHex id.bytes) ∈ rows

omit [Platform] in
theorem RemovalShown.mono {rows' : List Row} {id : Buf 48} (h : RemovalShown id rows)
    (hsub : rows ⊆ rows') : RemovalShown id rows' :=
  h.imp (fun hr => hsub hr) fun hr => hsub hr

theorem AddedCredential.Shown.mono {rows' : List Row} {c : AddedCredential} (h : c.Shown rows)
    (hsub : rows ⊆ rows') : c.Shown rows' :=
  ⟨List.Subset.trans h.items hsub, hsub h.threshold, hsub h.arThreshold, hsub h.regId,
    hsub h.arList, h.owned⟩

/-! ## Stages -/

/-- How many removals are still to come. -/
def removalsLeft (w : World) : ℕ :=
  (w.global.view SignCredentialDeploymentContext).credentialIdCount

/-- What has been hashed: the credentials so far, and what came behind them. -/
structure UpdateOpened (first : Command) (added : List AddedCredential) (rest : Bytes)
    (rows : List Row) (w : World) : Prop where
  hash : w.txState.hash = transactionHeader first ++ ([kindUpdateCredentials] ++
    (begun 1 AddedCredential.encode added (credentialsLeft w) ++ rest))
  fits : added.length + credentialsLeft w < 256 ^ 1
  sender : SenderShown first rows
  shown : ∀ c ∈ added, c.Shown rows

/-- A credential is being read. -/
structure CredentialReading (first : Command) (rows : List Row) (p : CredentialPlace)
    (w : World) : Prop where
  stage : updateStage w = .credential
  left : credentialsLeft w ≠ 0
  read : ∃ added index keys attributes bs, UpdateOpened first added (index :: bs) rows w ∧
    CredentialSoFar p w.credentialTexts keys attributes bs ∧
    itemRows keys attributes ⊆ rows ++ [keyTextRow w.credentialTexts.key] ∧
    (p.state = .verificationKey → itemRows keys attributes ⊆ rows)

/-- The removals are being read. -/
structure UpdateRemoving (first : Command) (added : List AddedCredential)
    (removed : List (Buf 48)) (rows : List Row) (w : World) : Prop where
  left : credentialsLeft w = 0
  opened : UpdateOpened first added (begun 1 Buf.bytes removed (removalsLeft w)) rows w
  fits : removed.length + removalsLeft w < 256 ^ 1
  shown : ∀ id ∈ removed, RemovalShown id rows

/-- Where an update stands between packets; `rows` have been accepted. -/
inductive UpdateStage (first : Command) (rows : List Row) (p : CredentialPlace) (w : World) :
    Prop where
  | between {added : List AddedCredential}
    (hstage : updateStage w = if credentialsLeft w = 0 then .idCount else .credentialIndex)
    (h : UpdateOpened first added [] rows w) : UpdateStage first rows p w
  | credential (h : CredentialReading first rows p w) : UpdateStage first rows p w
  | removing {added : List AddedCredential} {removed : List (Buf 48)}
    (hstage : updateStage w = if removalsLeft w = 0 then .threshold else .id)
    (h : UpdateRemoving first added removed rows w) : UpdateStage first rows p w

/-- The flow stands at a place that an update has. -/
def CredentialPlace.Embedded (p : CredentialPlace) : Prop :=
  p.state ≠ .initial ∧ p.state ≠ .newOrExisting

/-- What has been read of an update.  It has no intro. -/
structure UpdateReading (cmds : List Command) (rows : List Row) (p : CredentialPlace)
    (w : World) : Prop where
  place : CredentialAt p (w.global.view SignCredentialDeploymentContext)
  embedded : p.Embedded
  intro : w.showsIntro = false
  stage : (cmds = [] ∧ updateStage w = .initial) ∨
    ∃ first rest, cmds = first :: rest ∧ UpdateStage first rows p w

/-- An update has been hashed and reviewed: the sender, the credentials and the
    removals have been accepted, and the threshold is on screen. -/
structure CredentialUpdate.Reviewed (u : CredentialUpdate) (first : Command) (w : World) :
    Prop where
  header : u.header.bytes = transactionHeader first
  hash : w.txState.hash = u.encode
  sender : SenderShown first (accepted w.log)
  added : ∀ c ∈ u.added.items, c.Shown (accepted w.log)
  removed : ∀ id ∈ u.removed.items, RemovalShown id (accepted w.log)
  threshold : row "Threshold" (decimal u.threshold.toNat) ∈ w.screen.rows ∨
    row "Cred. sig. threshold" (decimal u.threshold.toNat) ∈ w.screen.rows

/-- The threshold is on screen, to be signed. -/
structure UpdateSigning (cmds : List Command) (w : World) : Prop where
  place : ∃ p, CredentialAt p (w.global.view SignCredentialDeploymentContext) ∧ p.Embedded
  read : ∃ first rest, cmds = first :: rest ∧ ∃ u : CredentialUpdate, u.Reviewed first w
  actions : w.screen.actions = signFlowShared

/-- A review is on screen. -/
inductive UpdateOnScreen (cmds : List Command) (w : World) : Prop where
  | plain {p : CredentialPlace}
    (h : UpdateReading cmds (accepted w.log ++ w.screen.rows) p w)
    (screen : onScreen w.log = w.screen.rows)
    (actions : ∀ c ∈ w.screen.actions, c = .sendSuccessNoIdle ∨ c = .rejectStagedReview)
  | credential {first : Command} {rest : List Command} {q r : CredentialPlace}
    (hc : cmds = first :: rest)
    (place : CredentialAt q (w.global.view SignCredentialDeploymentContext))
    (embedded : q.Embedded) (review : CredentialReview q r w)
    (h : CredentialReading first (accepted w.log ++ w.screen.rows) r w)
    (screen : onScreen w.log = w.screen.rows)
    (told : q.state = .proofs → [keyTextRow w.credentialTexts.key,
      row "RegIdCred" w.credentialTexts.regId] ⊆ w.screen.rows)
    (intro : w.showsIntro = false) (plain : .sendSuccessNoIdle ∉ w.screen.actions)
  | signing (h : UpdateSigning cmds w)

/-- The flow behind a packet or an answer. -/
def UpdateFlows (cmds : List Command) (t : World) : Prop :=
  (t.replyPending = false ∧ ∃ p, UpdateReading cmds (accepted t.log) p t) ∨
    (t.replyPending = true ∧ UpdateOnScreen cmds t)

theorem updateStage_of {ctx : SignCredentialDeploymentContext} (h : w.global = Member.inject ctx) :
    updateStage w = ctx.updateCredentialState := by
  rw [updateStage, h, InstructionContext.view_inject]

theorem credentialsLeft_of {ctx : SignCredentialDeploymentContext}
    (h : w.global = Member.inject ctx) : credentialsLeft w = ctx.credentialDeploymentCount := by
  rw [credentialsLeft, h, InstructionContext.view_inject]

theorem removalsLeft_of {ctx : SignCredentialDeploymentContext}
    (h : w.global = Member.inject ctx) : removalsLeft w = ctx.credentialIdCount := by
  rw [removalsLeft, h, InstructionContext.view_inject]

theorem UpdateOpened.hashed {bs : Bytes} (h : UpdateOpened first added rest rows s)
    (hhash : t.txState.hash = s.txState.hash ++ bs)
    (hleft : credentialsLeft t = credentialsLeft s) :
    UpdateOpened first added (rest ++ bs) rows t := by
  refine ⟨?_, hleft ▸ h.fits, h.sender, h.shown⟩
  rw [hhash, h.hash, hleft]
  simp only [List.append_assoc]

theorem UpdateOpened.mono {rows' : List Row} (h : UpdateOpened first added rest rows s)
    (hsub : rows ⊆ rows') : UpdateOpened first added rest rows' s :=
  ⟨h.hash, h.fits, h.sender.mono hsub, fun c hc => (h.shown c hc).mono hsub⟩

/-! ## What the stages depend on -/

/-- The same context and the same hash. -/
structure UpdateKept (s t : World) : Prop where
  global : t.global = s.global
  hash : t.txState.hash = s.txState.hash

theorem UpdateKept.stage (h : UpdateKept s t) : updateStage t = updateStage s := by
  rw [updateStage, h.global, updateStage]

theorem UpdateKept.left (h : UpdateKept s t) : credentialsLeft t = credentialsLeft s := by
  rw [credentialsLeft, h.global, credentialsLeft]

theorem UpdateKept.removals (h : UpdateKept s t) : removalsLeft t = removalsLeft s := by
  rw [removalsLeft, h.global, removalsLeft]

theorem UpdateKept.showsIntro (h : UpdateKept s t) : t.showsIntro = s.showsIntro := by
  rw [World.showsIntro, h.global, World.showsIntro]

theorem UpdateKept.texts (h : UpdateKept s t) : t.credentialTexts = s.credentialTexts := by
  rw [World.credentialTexts, h.global, World.credentialTexts]

theorem UpdateOpened.same (h : UpdateOpened first added rest rows s)
    (hhash : t.txState.hash = s.txState.hash) (hleft : credentialsLeft t = credentialsLeft s) :
    UpdateOpened first added rest rows t := by
  refine ⟨?_, hleft ▸ h.fits, h.sender, h.shown⟩
  rw [hhash, h.hash, hleft]

theorem CredentialReading.same (h : CredentialReading first rows p s)
    (hhash : t.txState.hash = s.txState.hash) (hstage : updateStage t = updateStage s)
    (hleft : credentialsLeft t = credentialsLeft s)
    (htexts : t.credentialTexts = s.credentialTexts) : CredentialReading first rows p t := by
  obtain ⟨added, index, keys, attributes, bs, hopened, hsofar, hrows, hkeys⟩ := h.read
  refine ⟨hstage.trans h.stage, hleft ▸ h.left, added, index, keys, attributes, bs,
    hopened.same hhash hleft, ?_, ?_, hkeys⟩ <;> rw [htexts]
  · exact hsofar
  · exact hrows

theorem UpdateRemoving.kept {removed : List (Buf 48)}
    (h : UpdateRemoving first added removed rows s) (hk : UpdateKept s t) :
    UpdateRemoving first added removed rows t := by
  refine ⟨hk.left.trans h.left, ?_, hk.removals ▸ h.fits, h.shown⟩
  rw [hk.removals]
  exact h.opened.same hk.hash hk.left

theorem UpdateStage.kept (h : UpdateStage first rows p s) (hk : UpdateKept s t) :
    UpdateStage first rows p t := by
  cases h with
  | between hstage h =>
    refine .between (hk.stage.trans ?_) (h.same hk.hash hk.left)
    rw [hstage, hk.left]
  | credential h => exact .credential (h.same hk.hash hk.stage hk.left hk.texts)
  | removing hstage h =>
    refine .removing (hk.stage.trans ?_) (h.kept hk)
    rw [hstage, hk.removals]

theorem UpdateReading.kept (h : UpdateReading cmds rows p s) (hk : UpdateKept s t) :
    UpdateReading cmds rows p t := by
  refine ⟨by rw [hk.global]; exact h.place, h.embedded, hk.showsIntro.trans h.intro, ?_⟩
  rcases h.stage with ⟨hcmds, hs⟩ | ⟨first, rest, hcmds, hs⟩
  · exact .inl ⟨hcmds, hk.stage.trans hs⟩
  · exact .inr ⟨first, rest, hcmds, hs.kept hk⟩

/-! ## Drawing -/

theorem UpdateReading.reviewed {actions : List Callback}
    (h : UpdateReading cmds (accepted s.log ++ rows) p s) (hp : s.replyPending = true)
    (hactions : ∀ c ∈ actions, c = .sendSuccessNoIdle ∨ c = .rejectStagedReview) :
    UpdateFlows cmds (s.updateReviewed rows actions) := by
  refine .inr ⟨hp, .plain (p := p) ?_ ?_ hactions⟩
  · have hacc : accepted (s.updateReviewed rows actions).log = accepted s.log := by
      simp [World.updateReviewed, Event.accepts]
    rw [hacc]
    exact h.kept ⟨rfl, rfl⟩
  · simp [World.updateReviewed, Event.accepts, World.screenOf]

theorem wp_uiSignUpdateCredentialInitialDisplay_shown
    (h : ∀ rows actions item, accountHeaderPairs s.accountSender item ⊆ rows →
      (∀ c ∈ actions, c = .sendSuccessNoIdle ∨ c = .rejectStagedReview) →
      Q () (s.updateReviewed rows actions)) :
    wp uiSignUpdateCredentialInitialDisplay Q E s := by
  unfold uiSignUpdateCredentialInitialDisplay
  rw [wp_bind, wp_get]
  cases (Platform.backend : Backend) with
  | nbgl =>
    simp only [nbglStagedReview, nbglReview]
    rw [wp_showScreen]
    refine h _ _ "Sender" (fun r hr => ?_) (by simp)
    simp [hr]
  | bagl =>
    dsimp only
    rw [wp_showScreen]
    exact h _ _ "From" (List.subset_cons_self _ _) (by simp)

theorem wp_uiSignUpdateCredentialIdDisplay_shown
    (h : ∀ rows actions,
      (row "Credential ID"
          (s.global.view SignCredentialDeploymentContext).credentialId.text ∈ rows ∨
        row "Rem. credential"
          (s.global.view SignCredentialDeploymentContext).credentialId.text ∈ rows) →
      (∀ c ∈ actions, c = .sendSuccessNoIdle ∨ c = .rejectStagedReview) →
      Q () (s.updateReviewed rows actions)) :
    wp uiSignUpdateCredentialIdDisplay Q E s := by
  unfold uiSignUpdateCredentialIdDisplay
  rw [wp_bind, wp_getCtx]
  cases (Platform.backend : Backend) with
  | nbgl =>
    simp only [nbglStagedReview, nbglReview]
    rw [wp_showScreen]
    exact h _ _ (.inl (by simp)) (by simp)
  | bagl =>
    dsimp only
    rw [wp_showScreen]
    exact h _ _ (.inr (by simp)) (by simp)

theorem wp_uiSignUpdateCredentialThresholdDisplay_shown
    (h : ∀ rows,
      (row "Threshold" (s.global.view SignCredentialDeploymentContext).threshold.text ∈ rows ∨
        row "Cred. sig. threshold" (s.global.view SignCredentialDeploymentContext).threshold.text ∈
          rows) → Q () (s.updateReviewed rows signFlowShared)) :
    wp uiSignUpdateCredentialThresholdDisplay Q E s := by
  unfold uiSignUpdateCredentialThresholdDisplay
  rw [wp_bind, wp_getCtx]
  cases (Platform.backend : Backend) with
  | nbgl =>
    simp only [nbglSignReview, nbglReview]
    rw [wp_showScreen]
    exact h _ (.inl (by simp))
  | bagl =>
    dsimp only
    rw [wp_showScreen]
    exact h _ (.inr (by simp))

/-! ## Packets of the update -/

omit [Platform] in
theorem wp_hashField_sender {cdata : Bytes} {n : ℕ} {R : Bytes × Bytes → World → Prop}
    (h : ∀ t, n ≤ cdata.length → HashedOnto (cdata.take n) s t →
      t.accountSender = s.accountSender → R (cdata.take n, cdata.drop n) t) :
    wp (hashField cdata n) R (fun _ _ => True) s := by
  unfold hashField
  rw [wp_bind, wp_throwIf]
  refine ⟨fun _ => trivial, fun hlen => ?_⟩
  rw [wp_bind, wp_slice]
  refine ⟨fun _ => ?_, fun _ => trivial⟩
  rw [wp_bind, wp_updateHash, wp_bind, wp_advance]
  exact ⟨fun hle => h _ hle ⟨rfl, rfl, rfl, rfl, by simp [Event.accepts]⟩ rfl, fun _ => trivial⟩

/-- What the first packet has hashed, and how many credentials it announces. -/
theorem wp_updateCredentialInitial_shown (hp : s.replyPending = true)
    (h : CredentialAt p (s.global.view SignCredentialDeploymentContext)) (hembedded : p.Embedded)
    (hintro : s.showsIntro = false) :
    wp (updateCredentialInitial cmd) (fun _ t => UpdateFlows [cmd] t) (fun _ _ => True) s := by
  unfold updateCredentialInitial
  rw [wp_bind]
  refine wp_parseDerivationPath (fun _ _ => trivial) fun dp log _ => ?_
  rw [wp_bind, wp_advance]
  refine ⟨fun _ => ?_, fun _ => trivial⟩
  change wp (do
    sha256Init
    let offset ← hashAccountTransactionHeaderAndKind (transactionBody cmd) kindUpdateCredentials
    _) _ _ _
  rw [wp_bind, wp_sha256Init, wp_bind]
  refine wp_hashAccountTransactionHeaderAndKind (fun _ _ => trivial) (fun _ _ => trivial)
    fun account log' hlength hheader _ _ => ?_
  rw [wp_bind, wp_advance]
  refine ⟨fun _ => ?_, fun _ => trivial⟩
  rw [wp_bind]
  refine wp_hashField_sender fun t hlen ht hsender => ?_
  dsimp only
  rw [wp_bind, wp_modifyCtx]
  refine wp_uiSignUpdateCredentialInitialDisplay_shown fun rows actions item hrows hactions => ?_
  refine UpdateReading.reviewed (p := p) ⟨?_, hembedded,
    World.showsIntro_of rfl (ht.showsIntro.trans hintro), .inr ⟨cmd, [], rfl, ?_⟩⟩
    (ht.reply.trans hp) hactions
  · rw [InstructionContext.view_inject, ht.global]
    exact { h with state := h.state }
  · refine @UpdateStage.between _ _ _ _ _ [] ?_ ⟨?_, ?_, ?_, fun c hc => ?_⟩
    · rw [updateStage_of rfl, credentialsLeft_of rfl]
    · have hhash := ht.hash
      dsimp only at hhash
      rw [credentialsLeft_of rfl, begun_take hlen, List.append_nil]
      refine hhash.trans ?_
      rw [List.nil_append, List.append_assoc]
      rfl
    · rw [credentialsLeft_of rfl, List.length_nil, Nat.zero_add]
      exact beNat_take_lt
    · refine ⟨account, item, hheader, fun r hr => List.mem_append_right _ (hrows ?_)⟩
      have hsame : t.accountSender = account := hsender
      exact hsame.symm ▸ hr
    · cases hc

theorem UpdateStage.acknowledged (h : UpdateStage first (accepted s.log) p s)
    (hplace : CredentialAt p (s.global.view SignCredentialDeploymentContext))
    (hembedded : p.Embedded) (hintro : s.showsIntro = false) :
    wp sendSuccessNoIdle (fun _ t => UpdateFlows (first :: cmds) t) E s := by
  change wp (ioSendResponse [] swoSuccess) _ _ _
  rw [wp_ioSendResponse]
  have hacc : accepted (s.log ++ [.reply [] swoSuccess]) = accepted s.log := by
    simp [Event.accepts]
  refine .inl ⟨rfl, p, hplace, hembedded, hintro, .inr ⟨first, cmds, rfl, ?_⟩⟩
  rw [hacc]
  exact h.kept ⟨rfl, rfl⟩

omit [Platform] in
theorem take_one {data : Bytes} (h : 1 ≤ data.length) : ∃ b, data.take 1 = [b] := by
  cases data with
  | nil => cases h
  | cons b rest => exact ⟨b, rfl⟩

theorem UpdateOpened.indexed {index : UInt8} {ctx : SignCredentialDeploymentContext}
    (h : UpdateOpened first added [] rows s) (hleft : credentialsLeft s ≠ 0)
    (hhash : w.txState.hash = s.txState.hash ++ [index]) (hg : w.global = Member.inject ctx)
    (hstage : ctx.updateCredentialState = .credential)
    (hcount : ctx.credentialDeploymentCount = credentialsLeft s)
    (hp : p.state = .verificationKeysLength) : CredentialReading first rows p w := by
  have hcount := (credentialsLeft_of hg).trans hcount
  exact ⟨(updateStage_of hg).trans hstage, hcount ▸ hleft, added, index, [], [], [],
    h.hashed hhash hcount, .length hp, List.nil_subset _, fun _ => List.nil_subset _⟩

theorem wp_updateCredentialIndex_shown (h : UpdateOpened first added [] (accepted s.log) s)
    (hplace : CredentialAt p (s.global.view SignCredentialDeploymentContext))
    (hleft : credentialsLeft s ≠ 0) (hintro : s.showsIntro = false) :
    wp (updateCredentialIndex cmd) (fun _ t => UpdateFlows (first :: cmds) t) (fun _ _ => True)
      s := by
  unfold updateCredentialIndex
  rw [wp_bind]
  refine wp_hashField (fun t hlen ht => ?_) fun _ => trivial
  rw [wp_bind, wp_modifyCtx]
  obtain ⟨index, hindex⟩ := take_one hlen
  rw [hindex] at ht
  refine UpdateStage.acknowledged (p := { p with state := .verificationKeysLength })
    (.credential ?_) ?_ ⟨ProtocolState.noConfusion, ProtocolState.noConfusion⟩
    (World.showsIntro_of rfl (ht.showsIntro.trans hintro))
  · rw [ht.accepted]
    refine h.indexed hleft ht.hash rfl rfl ?_ rfl
    rw [ht.global]
    rfl
  · rw [InstructionContext.view_inject, ht.global]
    exact { hplace with state := rfl }

/-- The credentials are complete, and the removals come behind them. -/
theorem UpdateOpened.removing {bs : Bytes} {removed : List (Buf 48)}
    {ctx : SignCredentialDeploymentContext} (h : UpdateOpened first added rest rows s)
    (hleft : credentialsLeft s = 0) (hhash : w.txState.hash = s.txState.hash ++ bs)
    (hg : w.global = Member.inject ctx) (hcount : ctx.credentialDeploymentCount = credentialsLeft s)
    (hbytes : rest ++ bs = begun 1 Buf.bytes removed ctx.credentialIdCount)
    (hstage : ctx.updateCredentialState = if ctx.credentialIdCount = 0 then .threshold else .id)
    (hfits : removed.length + ctx.credentialIdCount < 256 ^ 1)
    (hshown : ∀ id ∈ removed, RemovalShown id rows) : UpdateStage first rows p w := by
  have hcount := (credentialsLeft_of hg).trans hcount
  have hremovals := removalsLeft_of hg
  have hopened : UpdateOpened first added (begun 1 Buf.bytes removed (removalsLeft w)) rows w := by
    rw [hremovals, ← hbytes]
    exact h.hashed hhash hcount
  refine .removing ?_ ⟨hcount.trans hleft, hopened, hremovals ▸ hfits, hshown⟩
  rw [updateStage_of hg, hstage, hremovals]

theorem wp_updateCredentialIdCount_shown (h : UpdateOpened first added [] (accepted s.log) s)
    (hplace : CredentialAt p (s.global.view SignCredentialDeploymentContext))
    (hembedded : p.Embedded) (hleft : credentialsLeft s = 0) (hintro : s.showsIntro = false) :
    wp (updateCredentialIdCount cmd) (fun _ t => UpdateFlows (first :: cmds) t) (fun _ _ => True)
      s := by
  unfold updateCredentialIdCount
  rw [wp_bind]
  refine wp_hashField (fun t hlen ht => ?_) fun _ => trivial
  dsimp only
  rw [wp_bind, wp_modifyCtx]
  refine UpdateStage.acknowledged (p := p) ?_ ?_ hembedded
    (World.showsIntro_of rfl (ht.showsIntro.trans hintro))
  · rw [ht.accepted]
    refine h.removing hleft ht.hash rfl ?_ (show [] ++ cmd.data.take 1 = begun 1 Buf.bytes []
      (beNat (cmd.data.take 1)) from (begun_take hlen).symm) rfl ?_ fun id hid => nomatch hid
    · rw [ht.global]
      rfl
    · rw [List.length_nil, Nat.zero_add]
      exact beNat_take_lt
  · rw [InstructionContext.view_inject, ht.global]
    exact { hplace with state := hplace.state }

theorem wp_updateCredentialId_shown {removed : List (Buf 48)}
    (h : UpdateRemoving first added removed (accepted s.log) s)
    (hplace : CredentialAt p (s.global.view SignCredentialDeploymentContext))
    (hembedded : p.Embedded) (hp : s.replyPending = true) (hstage : updateStage s = .id)
    (hsome : removalsLeft s ≠ 0) (hintro : s.showsIntro = false) :
    wp (updateCredentialId cmd) (fun _ t => UpdateFlows (first :: cmds) t) (fun _ _ => True)
      s := by
  unfold updateCredentialId
  rw [wp_bind, wp_getCtx, wp_bind]
  refine wp_hashField (fun t hlen ht => ?_) fun _ => trivial
  dsimp only
  have hlength : (cmd.data.take 48).length = 48 := List.length_take_of_le hlen
  rw [wp_bind]
  refine wp_toPaginatedHex (fun hnil => by rw [hnil] at hlength; cases hlength) (by omega)
    (by rw [hlength]; decide) fun credentialId htext => ?_
  rw [wp_bind, wp_checkedSub]
  refine ⟨fun _ => ?_, fun _ => trivial⟩
  rw [wp_bind, wp_setCtx]
  refine wp_uiSignUpdateCredentialIdDisplay_shown fun rows actions hrow hactions => ?_
  refine UpdateReading.reviewed (p := p) ⟨?_, hembedded, World.showsIntro_of rfl hintro,
    .inr ⟨first, cmds, rfl, ?_⟩⟩ (ht.reply.trans hp) hactions
  · rw [InstructionContext.view_inject]
    exact { hplace with state := hplace.state }
  · let id : Buf 48 := ⟨cmd.data.take 48, hlength⟩
    have hmore : begun 1 Buf.bytes removed (removalsLeft s) ++ id.bytes =
        begun 1 Buf.bytes (removed ++ [id]) (removalsLeft s - 1) := begun_snoc hsome id
    have hsub : accepted s.log ⊆ accepted t.log ++ rows :=
      ht.accepted ▸ List.subset_append_left _ _
    have hfits := h.fits
    refine (h.opened.mono hsub).removing h.left ht.hash rfl rfl hmore ?_ ?_ fun d hd => ?_
    · have hid : (s.global.view SignCredentialDeploymentContext).updateCredentialState = .id :=
        hstage
      rw [hid]
    · rw [List.length_append, List.length_singleton]
      change removed.length + 1 + (removalsLeft s - 1) < _
      omega
    · rcases List.mem_append.mp hd with hd | hd
      · exact (h.shown d hd).mono hsub
      · obtain rfl := List.mem_singleton.mp hd
        rw [InstructionContext.view_inject] at hrow
        dsimp only at hrow
        rw [htext] at hrow
        exact hrow.imp (fun hr => List.mem_append_right _ hr) fun hr => List.mem_append_right _ hr

/-- The new threshold completes the update. -/
theorem UpdateRemoving.complete {removed : List (Buf 48)} {threshold : UInt8}
    (h : UpdateRemoving first added removed rows s) (hnone : removalsLeft s = 0)
    (hhash : w.txState.hash = s.txState.hash ++ [threshold]) (hacc : accepted w.log = rows)
    (hrow : row "Threshold" (decimal threshold.toNat) ∈ w.screen.rows ∨
      row "Cred. sig. threshold" (decimal threshold.toNat) ∈ w.screen.rows) :
    ∃ u : CredentialUpdate, u.Reviewed first w := by
  subst hacc
  have hadded := h.opened.fits
  have hopened := h.opened.hash
  have hremoved := h.fits
  rw [h.left] at hadded hopened
  rw [hnone] at hremoved hopened
  have hheader : (transactionHeader first).length = 60 := by
    obtain ⟨account, item, hheader, -⟩ := h.opened.sender
    exact hheader.length
  refine ⟨⟨⟨transactionHeader first, hheader⟩, ⟨added, hadded⟩, ⟨removed, hremoved⟩, threshold⟩,
    rfl, ?_, h.opened.sender, h.opened.shown, h.shown, hrow⟩
  rw [hhash, hopened]
  simp only [List.append_assoc]
  rfl

theorem wp_updateCredentialThreshold_shown {removed : List (Buf 48)}
    (h : UpdateRemoving first added removed (accepted s.log) s)
    (hplace : CredentialAt p (s.global.view SignCredentialDeploymentContext))
    (hembedded : p.Embedded) (hp : s.replyPending = true) (hnone : removalsLeft s = 0) :
    wp (updateCredentialThreshold cmd) (fun _ t => UpdateFlows (first :: cmds) t) (fun _ _ => True)
      s := by
  unfold updateCredentialThreshold
  rw [wp_bind, wp_getCtx, wp_bind, wp_throwIf]
  refine ⟨fun _ => trivial, fun hlen => ?_⟩
  rw [wp_bind, wp_u8]
  refine ⟨fun _ => ?_, fun _ => trivial⟩
  rw [wp_bind]
  refine wp_binToDec (fun _ => trivial) fun _ => ?_
  rw [wp_bind, wp_memmove]
  refine ⟨fun hw => ?_, fun _ => trivial⟩
  rw [wp_bind]
  refine wp_updateHash_onto fun t ht => ?_
  rw [wp_bind, wp_setCtx]
  refine wp_uiSignUpdateCredentialThresholdDisplay_shown fun rows hrow => ?_
  refine .inr ⟨ht.reply.trans hp, .signing ⟨⟨p, ?_, hembedded⟩, ⟨first, cmds, rfl, ?_⟩, rfl⟩⟩
  · change CredentialAt p ((Member.inject _ : InstructionContext).view _)
    rw [InstructionContext.view_inject]
    exact { hplace with state := hplace.state }
  · refine h.complete hnone ht.hash ?_ ?_
    · simpa [World.updateReviewed, Event.accepts] using ht.accepted
    · rw [InstructionContext.view_inject] at hrow
      dsimp only at hrow
      rwa [Buf.text_write hw (zero_not_mem_decimal _)] at hrow

/-! ## Packets of a credential -/

omit [Platform] in
theorem CredentialPlace.write_key {x : CredentialTexts} {data : Bytes}
    (h : p.state ≠ .verificationKey) : (p.write data x).key = x.key := by
  unfold CredentialPlace.write
  cases hs : p.state <;> first | rfl | exact absurd hs h

omit [Platform] in
theorem CredentialPlace.Silent.told {x : CredentialTexts} {data : Bytes} (h : p.Silent)
    (hs : p.state ≠ .verificationKey) : p.told data x = [] := by
  unfold CredentialPlace.Silent at h
  unfold CredentialPlace.told
  cases hp : p.state <;> rw [hp] at h <;> dsimp only at h ⊢
  case verificationKey => exact absurd hp hs
  case proofs => exact if_pos h

omit [Platform] in
theorem CredentialPlace.told_key {x : CredentialTexts} {data : Bytes}
    (h : p.state = .verificationKey) : p.told data x = [keyTextRow (p.write data x).key] := by
  unfold CredentialPlace.told CredentialPlace.write
  rw [h]

omit [Platform] in
/-- Another key is read behind the number of keys, or behind a key. -/
theorem CredentialPlace.next_key {data : Bytes} (h : (p.next data).state = .verificationKey) :
    p.state = .verificationKeysLength ∨ p.state = .verificationKey ∧ p.keys - 1 ≠ 0 := by
  unfold CredentialPlace.next at h
  cases hs : p.state <;> rw [hs] at h <;> dsimp only at h
  case verificationKeysLength => exact .inl rfl
  case verificationKey =>
    refine .inr ⟨rfl, fun hlast => ?_⟩
    rw [if_pos hlast] at h
    cases h
  all_goals first
    | exact absurd h ProtocolState.noConfusion
    | exact absurd (hs.symm.trans h) ProtocolState.noConfusion
    | split_ifs at h

omit [Platform] in
theorem CredentialSoFar.none {x : CredentialTexts} {keys : List (Buf 34)}
    {attributes : List RevealedAttribute} {bs : Bytes} (h : CredentialSoFar p x keys attributes bs)
    (hs : p.state = .verificationKeysLength) : itemRows keys attributes = [] := by
  cases h with
  | length => rfl
  | _ hs' => cases hs'.symm.trans hs

/-- A packet of a credential that is taken: what it brings to the screen is
    there, or it leads to no review. -/
theorem CredentialReading.next {rows' : List Row} (h : CredentialReading first rows p s)
    (ht : p.Takes cmd) (hp2 : cmd.p2 = SignCredentialDeploymentContext.p2CredentialCredential)
    (hchoice : p.state ≠ .newOrExisting) (hmoved : CredentialMoved q (p.part cmd) s t)
    (htexts : t.credentialTexts = p.write cmd.data s.credentialTexts)
    (htold : p.told cmd.data s.credentialTexts ⊆ rows' ∨ p.Silent) :
    CredentialReading first (rows ++ rows') (p.next cmd.data) t := by
  obtain ⟨added, index, keys, attributes, bs, hopened, hsofar, hitems, hkeys⟩ := h.read
  obtain ⟨keys', attributes', hread⟩ := hsofar.next ht hp2 hchoice
  have hleft : credentialsLeft t = credentialsLeft s := hmoved.count
  refine ⟨hmoved.stage.trans h.stage, hleft ▸ h.left, added, index, keys', attributes',
    bs ++ p.part cmd, (hopened.mono (List.subset_append_left _ _)).hashed hmoved.hash hleft,
    htexts ▸ hread.sofar, ?_, fun hnext => ?_⟩
  · rw [htexts]
    refine List.Subset.trans hread.rows fun r hr => ?_
    by_cases hs : p.state = .verificationKey
    · rw [CredentialPlace.told_key hs] at hr
      rcases List.mem_append.mp hr with hr | hr
      · exact List.mem_append_left _ (List.mem_append_left _ (hkeys hs hr))
      · exact List.mem_append_right _ hr
    · rw [CredentialPlace.write_key hs]
      have htold' : p.told cmd.data s.credentialTexts ⊆ rows' :=
        htold.elim id fun hsilent => hsilent.told hs ▸ List.nil_subset _
      rcases List.mem_append.mp hr with hr | hr
      · have := hitems hr
        simp only [List.mem_append] at this ⊢
        tauto
      · exact List.mem_append_left _ (List.mem_append_right _ (htold' hr))
  · refine List.Subset.trans hread.rows fun r hr => ?_
    rcases CredentialPlace.next_key hnext with hs | ⟨hs, hmore⟩
    · have hnone : p.told cmd.data s.credentialTexts = [] := by
        unfold CredentialPlace.told
        rw [hs]
      rw [hsofar.none hs, hnone] at hr
      cases hr
    · have hsilent : ¬ p.Silent := by
        unfold CredentialPlace.Silent
        rw [hs]
        exact hmore
      rcases List.mem_append.mp hr with hr | hr
      · exact List.mem_append_left _ (hkeys hs hr)
      · exact List.mem_append_right _ (htold.resolve_right hsilent hr)

omit [Platform] in
/-- Behind the last proofs the credential is complete. -/
theorem CredentialPlace.next_choice {data : Bytes} (h : (p.next data).state = .newOrExisting)
    (hs : p.state ≠ .newOrExisting) : p.state = .proofs ∧ ¬ maxCdataLength < p.proofs := by
  unfold CredentialPlace.next at h
  cases hp : p.state <;> rw [hp] at h <;> dsimp only at h
  case proofs =>
    refine ⟨rfl, fun hmore => ?_⟩
    rw [if_pos hmore] at h
    exact absurd h ProtocolState.noConfusion
  case newOrExisting => exact absurd hp hs
  all_goals first
    | exact absurd h ProtocolState.noConfusion
    | exact absurd (hp.symm.trans h) ProtocolState.noConfusion
    | split_ifs at h

/-- A packet of a credential within the update. -/
theorem wp_updateCredentialPacket_shown (h : CredentialReading first (accepted s.log) p s)
    (hplace : CredentialAt p (s.global.view SignCredentialDeploymentContext))
    (hembedded : p.Embedded) (hintro : s.showsIntro = false) (hp : s.replyPending = true)
    (hp2 : cmd.p2 = SignCredentialDeploymentContext.p2CredentialCredential) :
    wp (handleSignCredentialDeployment cmd false) (fun _ t => UpdateFlows (first :: cmds) t)
      (fun _ _ => True) s := by
  have hmoved : wp (handleSignCredentialDeployment cmd false) (fun _ t => p.Takes cmd ∧
      (t.replyPending = false ∧ CredentialMoved (p.next cmd.data) (p.part cmd) s t ∨
        t.replyPending = true ∧ ∃ q, CredentialMoved q (p.part cmd) s t ∧
          CredentialReview q (p.next cmd.data) t)) (fun _ _ => True) s := by
    refine wp_handleSignCredentialDeployment ⟨fun t htakes hreply ht => ⟨htakes, .inl ⟨hreply, ht⟩⟩,
      fun q t htakes hreply ht hr => ⟨htakes, .inr ⟨hreply.trans hp, q, ht, hr⟩⟩,
      fun _ _ _ => trivial, fun _ _ _ => trivial⟩ hplace fun hno _ => absurd hno hembedded.1
  have htold := told_handleSignCredentialDeployment hp hplace hp2 h.stage
    (Nat.pos_of_ne_zero h.left) hembedded.1 hembedded.2
  refine wp_mono (fun _ t ht => ?_) (fun _ _ _ => trivial) (wp_and hmoved htold)
  obtain ⟨⟨htakes, hmoved⟩, htold⟩ := ht
  rcases hmoved with ⟨hreply, hmoved⟩ | ⟨hreply, q, hmoved, hreview⟩
  · have hsilent := htold.silent hreply
    refine .inl ⟨hreply, p.next cmd.data, hmoved.place, ⟨CredentialPlace.next_initial hembedded.1 _,
      fun hno => ?_⟩, htold.intro hintro, .inr ⟨first, cmds, rfl, .credential ?_⟩⟩
    · obtain ⟨hs, hlast⟩ := CredentialPlace.next_choice hno hembedded.2
      unfold CredentialPlace.Silent at hsilent
      rw [hs] at hsilent
      exact hlast hsilent
    · rw [htold.accepted, ← List.append_nil (accepted s.log)]
      exact h.next htakes hp2 hembedded.2 hmoved htold.texts (.inr hsilent)
  · obtain ⟨hscreen, hrows⟩ := htold.shown hreply
    have hchoice := htold.unchosen hreply
    rw [hmoved.place.state] at hchoice
    refine .inr ⟨hreply, .credential rfl hmoved.place ⟨fun hno => ?_, hchoice⟩ hreview ?_ hscreen
      (fun hq => ?_) (htold.intro hintro) (htold.plain hintro hreply)⟩
    · cases hreview with
      | key hq | value hq | added hq | final hq => cases hq.symm.trans hno
    · rw [htold.accepted]
      exact h.next htakes hp2 hembedded.2 hmoved htold.texts (.inl hrows)
    · have hnext : (p.next cmd.data).state = .newOrExisting := by
        cases hreview with
        | added _ hr => rw [hr]
        | key hq' | value hq' | final hq' => cases hq'.symm.trans hq
      obtain ⟨hs, hlast⟩ := CredentialPlace.next_choice hnext hembedded.2
      have htexts : t.credentialTexts = s.credentialTexts := by
        rw [htold.texts]
        unfold CredentialPlace.write
        rw [hs]
      have htold' : p.told cmd.data s.credentialTexts = [keyTextRow s.credentialTexts.key,
          row "RegIdCred" s.credentialTexts.regId] := by
        unfold CredentialPlace.told
        rw [hs]
        exact if_neg hlast
      rw [htexts, ← htold']
      exact hrows

/-! ## Every packet -/

theorem UpdateReading.opened (h : UpdateReading cmds rows p s) (hne : updateStage s ≠ .initial) :
    ∃ first rest, cmds = first :: rest ∧ UpdateStage first rows p s :=
  h.stage.resolve_left fun hno => hne hno.2

theorem UpdateStage.not_initial (h : UpdateStage first rows p s) : updateStage s ≠ .initial := by
  cases h with
  | between hstage => rw [hstage]; split_ifs <;> exact UpdateCredentialState.noConfusion
  | credential h => rw [h.stage]; exact UpdateCredentialState.noConfusion
  | removing hstage => rw [hstage]; split_ifs <;> exact UpdateCredentialState.noConfusion

theorem UpdateStage.of_credential (h : UpdateStage first rows p s)
    (hs : updateStage s = .credential) : CredentialReading first rows p s := by
  cases h with
  | credential h => exact h
  | between hstage | removing hstage =>
    rw [hstage] at hs
    split_ifs at hs

theorem UpdateStage.of_between (h : UpdateStage first rows p s)
    (hs : updateStage s = .idCount ∨ updateStage s = .credentialIndex) :
    (∃ added, UpdateOpened first added [] rows s) ∧
      updateStage s = if credentialsLeft s = 0 then .idCount else .credentialIndex := by
  cases h with
  | between hstage h => exact ⟨⟨_, h⟩, hstage⟩
  | credential h => rcases hs with hs | hs <;> cases h.stage.symm.trans hs
  | removing hstage =>
    rw [hstage] at hs
    split_ifs at hs <;> rcases hs with hs | hs <;> cases hs

theorem UpdateStage.of_removing (h : UpdateStage first rows p s)
    (hs : updateStage s = .id ∨ updateStage s = .threshold) :
    (∃ added removed, UpdateRemoving first added removed rows s) ∧
      updateStage s = if removalsLeft s = 0 then .threshold else .id := by
  cases h with
  | removing hstage h => exact ⟨⟨_, _, h⟩, hstage⟩
  | credential h => rcases hs with hs | hs <;> cases h.stage.symm.trans hs
  | between hstage =>
    rw [hstage] at hs
    split_ifs at hs <;> rcases hs with hs | hs <;> cases hs

/-- A packet of the update. -/
theorem wp_handleSignUpdateCredential_shown (h : UpdateReading cmds (accepted s.log) p s)
    (hp : s.replyPending = true) :
    wp (handleSignUpdateCredential cmd false) (fun _ t => UpdateFlows (cmds ++ [cmd]) t)
      (fun _ _ => True) s := by
  have later {stage : UpdateCredentialState} (hs : updateStage s = stage) (hne : stage ≠ .initial)
      {x : App Unit} (hx : ∀ first rest, UpdateStage first (accepted s.log) p s →
        wp x (fun _ t => UpdateFlows (first :: (rest ++ [cmd])) t) (fun _ _ => True) s) :
      wp x (fun _ t => UpdateFlows (cmds ++ [cmd]) t) (fun _ _ => True) s := by
    obtain ⟨first, rest, rfl, hstage⟩ := h.opened (hs ▸ hne)
    exact hx first rest hstage
  unfold handleSignUpdateCredential
  rw [if_neg Bool.false_ne_true]
  change wp (getCtx SignCredentialDeploymentContext >>= _) _ _ _
  rw [wp_bind, wp_getCtx]
  refine wp_if (fun hgo => ?_) fun _ => ?_
  · rcases h.stage with ⟨rfl, -⟩ | ⟨first, rest, -, hstage⟩
    · exact wp_updateCredentialInitial_shown hp h.place h.embedded h.intro
    · exact absurd hgo.2 hstage.not_initial
  refine wp_if (fun hgo => later hgo.2.1 (by decide) fun first rest hstage => ?_) fun _ => ?_
  · have hleft : credentialsLeft s ≠ 0 := Nat.pos_iff_ne_zero.mp hgo.2.2
    obtain ⟨⟨added, hopened⟩, -⟩ := hstage.of_between (.inr hgo.2.1)
    exact wp_updateCredentialIndex_shown hopened h.place hleft h.intro
  refine wp_if (fun hgo => later hgo.2.1 (by decide) fun first rest hstage => ?_) fun _ => ?_
  · exact wp_updateCredentialPacket_shown (hstage.of_credential hgo.2.1) h.place h.embedded
      h.intro hp hgo.1
  refine wp_if (fun hgo => later hgo.2 (by decide) fun first rest hstage => ?_) fun _ => ?_
  · obtain ⟨⟨added, hopened⟩, hcount⟩ := hstage.of_between (.inl hgo.2)
    refine wp_updateCredentialIdCount_shown hopened h.place h.embedded ?_ h.intro
    by_contra hno
    rw [if_neg hno] at hcount
    cases hcount.symm.trans hgo.2
  refine wp_if (fun hgo => later hgo.2 (by decide) fun first rest hstage => ?_) fun _ => ?_
  · obtain ⟨⟨added, removed, hremoving⟩, hid⟩ := hstage.of_removing (.inl hgo.2)
    refine wp_updateCredentialId_shown hremoving h.place h.embedded hp hgo.2 (fun hno => ?_) h.intro
    rw [if_pos hno] at hid
    cases hid.symm.trans hgo.2
  refine wp_if (fun hgo => later hgo.2 (by decide) fun first rest hstage => ?_) fun _ => trivial
  · obtain ⟨⟨added, removed, hremoving⟩, hthreshold⟩ := hstage.of_removing (.inr hgo.2)
    refine wp_updateCredentialThreshold_shown hremoving h.place h.embedded hp ?_
    by_contra hno
    rw [if_neg hno] at hthreshold
    cases hthreshold.symm.trans hgo.2

/-! ## Answers -/

theorem accepted_activated {c : Callback} (hc : c.isIdle = false) (hr : c.isRejection = false) :
    accepted (s.activated c).log = accepted s.log ++ onScreen s.log := by
  simp [World.activated, Event.accepts, hc, hr]

/-- What the answer to the review of a field leaves as it was; the rows of the
    review are accepted with it. -/
theorem CredentialReview.accepting {c : Callback} (hr : CredentialReview q r s)
    (hchoice : q.state ≠ .newOrExisting) (hc : c ∈ s.screen.actions)
    (hne : c ≠ .confirmAddedCredential) (hscreen : onScreen s.log = s.screen.rows) :
    wp (runCallback c) (fun _ t => t.latch = none ∨
      accepted t.log = accepted s.log ++ s.screen.rows ∧ t.credentialTexts = s.credentialTexts ∧
        t.showsIntro = s.showsIntro)
      (fun _ _ => True) (s.activated c) := by
  have go {u : World} (hacc : c.isIdle = false) (hrej : c.isRejection = false)
      (hlog : u.log = (s.activated c).log) (htexts : u.credentialTexts = s.credentialTexts)
      (hintro : u.showsIntro = s.showsIntro) :
      wp sendSuccessNoIdle (fun _ t => t.latch = none ∨
        accepted t.log = accepted s.log ++ s.screen.rows ∧ t.credentialTexts = s.credentialTexts ∧
        t.showsIntro = s.showsIntro)
        (fun _ _ => True) u := by
    change wp (ioSendResponse [] swoSuccess) _ _ _
    rw [wp_ioSendResponse]
    refine .inr ⟨?_, htexts, hintro⟩
    have hsame := accepted_activated (s := s) hacc hrej
    rw [hscreen] at hsame
    simpa [hlog, Event.accepts] using hsame
  have rejected : wp sendUserRejection (fun _ t => t.latch = none ∨
      accepted t.log = accepted s.log ++ s.screen.rows ∧ t.credentialTexts = s.credentialTexts ∧
        t.showsIntro = s.showsIntro)
      (fun _ _ => True) (s.activated .sendUserRejection) := by
    rw [wp_sendUserRejection]
    exact .inl rfl
  cases hr with
  | key _ _ _ actions =>
    rcases actions c hc with rfl | rfl | rfl
    · exact go rfl rfl rfl rfl rfl
    · refine wp_uxRunGuarded ?_ fun t ht => .inl ht
      unfold processNextVerificationKey
      rw [wp_bind, wp_modifyCtx]
      refine go rfl rfl rfl ?_ ?_
      · rw [World.credentialTexts_of rfl]
        rfl
      · rw [World.showsIntro, InstructionContext.view_inject]
        rfl
    · change wp rejectStagedReview _ _ _
      unfold rejectStagedReview
      rw [wp_bind, wp_releaseInstruction, wp_sendUserRejection]
      exact .inl rfl
  | value _ _ actions =>
    rcases actions c hc with rfl | rfl
    · refine wp_uxRunGuarded ?_ fun t ht => .inl ht
      unfold confirmAttribute
      rw [wp_bind, wp_getCtx, wp_bind, wp_throwIf]
      refine ⟨fun _ => trivial, fun _ => ?_⟩
      rw [wp_bind, wp_setCtx]
      refine go rfl rfl rfl ?_ ?_
      · rw [World.credentialTexts_of rfl]
        rfl
      · rw [World.showsIntro, InstructionContext.view_inject]
        rfl
    · exact rejected
  | added _ _ _ _ actions =>
    rcases actions c hc with rfl | rfl
    · exact absurd rfl hne
    · exact rejected
  | final hq => exact absurd hq hchoice

theorem CredentialReview.embedded {c : Callback} (hr : CredentialReview q r s)
    (hchoice : q.state ≠ .newOrExisting) (hc : c ∈ s.screen.actions)
    (hne : c ≠ .confirmAddedCredential) : c = .sendUserRejection ∨ r.Embedded := by
  cases hr with
  | key _ _ hr =>
    rw [hr]
    exact .inr ⟨ProtocolState.noConfusion, ProtocolState.noConfusion⟩
  | value _ hr =>
    rw [hr]
    refine .inr ⟨?_, ?_⟩ <;> dsimp only <;> split_ifs <;> exact ProtocolState.noConfusion
  | added _ _ _ _ actions => exact .inl ((actions c hc).resolve_left hne)
  | final hq => exact absurd hq hchoice

omit [Platform] in
/-- The numbers of a credential are read off its thresholds and the count behind
    them. -/
theorem record_numbers {thresholds : Buf 54} {n : ℕ} (h : n < 256 ^ 2) :
    signatureThresholdOf (thresholds.bytes ++ toBe 2 n) = signatureThresholdOf thresholds.bytes ∧
      arThresholdOf (thresholds.bytes ++ toBe 2 n) = arThresholdOf thresholds.bytes ∧
      arCountOf (thresholds.bytes ++ toBe 2 n) = n := by
  have hsize := thresholds.size
  refine ⟨?_, ?_, ?_⟩
  · rw [signatureThresholdOf, List.take_append_of_le_length (by omega)]
    rfl
  · have hdrop : (thresholds.bytes ++ toBe 2 n).drop 53 = thresholds.bytes.drop 53 ++ toBe 2 n :=
      List.drop_append_of_le_length (by omega)
    rw [arThresholdOf, hdrop, List.take_append_of_le_length (by rw [List.length_drop]; omega)]
    rfl
  · have hdrop : (thresholds.bytes ++ toBe 2 n).drop 54 = toBe 2 n := List.drop_left' hsize
    rw [arCountOf, hdrop, List.take_of_length_le (toBe_length 2 n).le, beNat_toBe,
      Nat.mod_eq_of_lt h]

omit [Platform] in
theorem flatMap_bytes_ne_nil {n : ℕ} {bs : List (Buf n)} (hn : n ≠ 0) (h : bs ≠ []) :
    bs.flatMap Buf.bytes ≠ [] := by
  cases bs with
  | nil => exact absurd rfl h
  | cons b bs =>
    refine List.append_ne_nil_of_left_ne_nil (fun hnil => hn ?_) _
    rw [← b.size, hnil, List.length_nil]

/-- The review of a credential that has been read completely shows it. -/
theorem CredentialReading.shown (h : CredentialReading first rows r s)
    (hr : r = { q with state := .newOrExisting })
    (hplace : CredentialAt q (s.global.view SignCredentialDeploymentContext))
    (hrows : credentialRows (s.global.view SignCredentialDeploymentContext) ⊆ rows)
    (htold : [keyTextRow s.credentialTexts.key, row "RegIdCred" s.credentialTexts.regId] ⊆ rows) :
    ∃ added, ∃ c : AddedCredential, UpdateOpened first added c.encode rows s ∧ c.Shown rows := by
  obtain ⟨added, index, keys, attributes, bs, hopened, hsofar, hitems, -⟩ := h.read
  cases hsofar with
  | @done c _ hat =>
    obtain ⟨hsignature, har, hcount⟩ :=
      @record_numbers c.head.thresholds _ c.head.revokers.fits
    subst hr
    have hrecord : q.record = c.head.thresholds.bytes ++ toBe 2 c.head.revokers.items.length :=
      hat.record
    have hentries : q.entries = c.head.revokers.items.flatMap Buf.bytes := hat.entries
    have hsome : q.record ≠ [] := fun hnil => by
      have := congrArg List.length hnil
      rw [hrecord, List.length_append, toBe_length, List.length_nil] at this
      omega
    rw [← hrecord] at hsignature har hcount
    have hrevoked : q.entries ≠ [] := hentries ▸ flatMap_bytes_ne_nil (by decide) hat.revokers
    refine ⟨added, { c with index := index }, hopened, ⟨?_, ?_, ?_, ?_, ?_, hat.keys, hat.revokers⟩⟩
    · refine List.Subset.trans hitems (List.append_subset.mpr ⟨fun _ hr => hr, ?_⟩)
      exact List.cons_subset.mpr ⟨htold (by simp), List.nil_subset _⟩
    · rw [← hsignature, ← hplace.signatureThreshold hsome]
      exact hrows (by simp [credentialRows, signatureThresholdRow])
    · rw [← har, ← hcount, ← hplace.arThreshold hsome]
      exact hrows (by simp [credentialRows, arThresholdRow])
    · rw [← hat.regId]
      exact htold (by simp)
    · rw [← hentries, ← hplace.digest hrevoked hat.none]
      exact hrows (by simp [credentialRows, arListRow])
  | length hs | keys hs | thresholds hs | revokers hs | dates hs | tag hs | value hs
  | proofsLength hs | proofs hs => rw [hr] at hs; cases hs

/-- One more credential has been added. -/
theorem UpdateOpened.snoc {c : AddedCredential} {ctx : SignCredentialDeploymentContext}
    (h : UpdateOpened first added c.encode rows s) (hshown : c.Shown rows)
    (hleft : credentialsLeft s ≠ 0) (hhash : w.txState.hash = s.txState.hash)
    (hg : w.global = Member.inject ctx)
    (hcount : ctx.credentialDeploymentCount = credentialsLeft s - 1)
    (hstage : ctx.updateCredentialState =
      if ctx.credentialDeploymentCount = 0 then .idCount else .credentialIndex) :
    UpdateStage first rows p w := by
  have hfits := h.fits
  have hleft' : credentialsLeft w = credentialsLeft s - 1 := (credentialsLeft_of hg).trans hcount
  have hopened : UpdateOpened first (added ++ [c]) [] rows w := by
    refine ⟨?_, ?_, h.sender, fun d hd => ?_⟩
    · rw [hhash, h.hash, hleft', ← begun_snoc hleft, List.append_nil]
    · rw [hleft', List.length_append, List.length_singleton]
      omega
    · rcases List.mem_append.mp hd with hd | hd
      · exact h.shown d hd
      · exact List.mem_singleton.mp hd ▸ hshown
  refine .between ?_ hopened
  rw [updateStage_of hg, hstage, credentialsLeft_of hg]

/-- The credential on screen is accepted. -/
theorem wp_confirmAddedCredential_shown {c : AddedCredential}
    (h : UpdateOpened first added c.encode (accepted s.log) s) (hshown : c.Shown (accepted s.log))
    (hplace : CredentialAt q (s.global.view SignCredentialDeploymentContext))
    (hintro : s.showsIntro = false) :
    wp confirmAddedCredential (fun _ t => t.replyPending = false ∧
      ∃ p, UpdateReading (first :: cmds) (accepted t.log) p t) (fun _ _ => True) s := by
  have done {u : World} (hu : wp sendSuccessNoIdle (fun _ t => UpdateFlows (first :: cmds) t)
      (fun _ _ => True) u) : wp sendSuccessNoIdle (fun _ t => t.replyPending = false ∧
        ∃ p, UpdateReading (first :: cmds) (accepted t.log) p t) (fun _ _ => True) u := by
    change wp (ioSendResponse [] swoSuccess) _ _ _ at hu ⊢
    rw [wp_ioSendResponse] at hu ⊢
    exact hu.resolve_right fun hno => absurd hno.1 Bool.false_ne_true
  unfold confirmAddedCredential
  rw [wp_bind, wp_getCtx, wp_bind, wp_throwIf]
  refine ⟨fun _ => trivial, fun hsome => ?_⟩
  have hleft : credentialsLeft s ≠ 0 := hsome
  refine wp_if (fun hlast => ?_) fun hmore => ?_
  · rw [wp_bind, wp_setCtx]
    refine done (UpdateStage.acknowledged (p := { q with state := .unset })
      (h.snoc hshown hleft rfl rfl rfl ?_) ?_
      ⟨ProtocolState.noConfusion, ProtocolState.noConfusion⟩ (World.showsIntro_of rfl hintro))
    · exact (if_pos hlast).symm
    · rw [InstructionContext.view_inject]
      exact { hplace with state := rfl }
  · rw [wp_bind, wp_setCtx]
    refine done (UpdateStage.acknowledged (p := { q with state := .verificationKeysLength })
      (h.snoc hshown hleft rfl rfl rfl ?_) ?_
      ⟨ProtocolState.noConfusion, ProtocolState.noConfusion⟩ (World.showsIntro_of rfl hintro))
    · exact (if_neg hmore).symm
    · rw [InstructionContext.view_inject]
      exact { hplace with state := rfl }

/-- Whoever answers a review ends the flow, or has accepted its rows. -/
theorem UpdateOnScreen.answered {c : Callback} (h : UpdateOnScreen cmds s)
    (hc : c ∈ s.screen.actions) :
    wp (runCallback c) (fun _ t => t.latch = none ∨ t.replyPending = false ∧
      ∃ p, UpdateReading cmds (accepted t.log) p t) (fun _ _ => True) (s.activated c) := by
  cases h with
  | @plain p h screen actions =>
    rcases actions c hc with rfl | rfl
    · change wp (ioSendResponse [] swoSuccess) _ _ _
      rw [wp_ioSendResponse]
      refine .inr ⟨rfl, p, ?_⟩
      have hsame := accepted_activated (s := s) (c := .sendSuccessNoIdle) rfl rfl
      rw [screen] at hsame
      have hacc : accepted ((s.activated .sendSuccessNoIdle).log ++ [.reply [] swoSuccess]) =
          accepted s.log ++ s.screen.rows := by
        simpa [Event.accepts] using hsame
      rw [hacc]
      exact h.kept ⟨rfl, rfl⟩
    · change wp rejectStagedReview _ _ _
      unfold rejectStagedReview
      rw [wp_bind, wp_releaseInstruction, wp_sendUserRejection]
      exact .inl rfl
  | signing h =>
    exact wp_mono (fun _ _ ht => .inl ht) (fun _ _ hE => hE)
      (wp_signFlowShared (h.actions ▸ hc))
  | @credential first rest q r hcmds place embedded review h screen told intro plain =>
    subst hcmds
    by_cases hadded : c = .confirmAddedCredential
    · subst hadded
      have hq : q.state = .proofs ∧ r = { q with state := .newOrExisting } ∧
          credentialRows (s.global.view SignCredentialDeploymentContext) ⊆ s.screen.rows := by
        cases review with
        | key _ _ _ actions => rcases actions _ hc with h | h | h <;> cases h
        | value _ _ actions => rcases actions _ hc with h | h <;> cases h
        | added hq hr _ _ _ shown => exact ⟨hq, hr, shown⟩
        | final hq => exact absurd hq embedded.2
      obtain ⟨hq, hr, hrows⟩ := hq
      obtain ⟨added, c, hopened, hshown⟩ := h.shown hr place
        (List.Subset.trans hrows (List.subset_append_right _ _))
        (List.Subset.trans (told hq) (List.subset_append_right _ _))
      have hacc : accepted (s.activated .confirmAddedCredential).log =
          accepted s.log ++ s.screen.rows := by
        rw [accepted_activated rfl rfl, screen]
      have hopened' : UpdateOpened first added c.encode
          (accepted (s.activated .confirmAddedCredential).log)
          (s.activated .confirmAddedCredential) := by
        rw [hacc]
        exact hopened.same rfl rfl
      refine wp_uxRunGuarded ?_ fun t ht => .inl ht
      exact wp_mono (fun _ _ ht => .inr ht) (fun _ _ hE => hE)
        (wp_confirmAddedCredential_shown hopened' (hacc ▸ hshown) place intro)
    · rcases review.embedded embedded.2 hc hadded with rfl | hr
      · change wp sendUserRejection _ _ _
        rw [wp_sendUserRejection]
        exact .inl rfl
      refine wp_mono (fun _ t ht => ?_) (fun _ _ _ => trivial)
        (wp_and (review.answered place hc hadded)
          (review.accepting embedded.2 hc hadded screen))
      obtain ⟨hmoved, hkept⟩ := ht
      rcases hmoved with hfree | ⟨hreply, p, hp, hmoved⟩
      · exact .inl hfree
      rcases hkept with hfree | ⟨hacc, htexts, hintro⟩
      · exact .inl hfree
      obtain rfl : p = r := hp.resolve_right fun hpassed => plain (hpassed.2.2 ▸ hc)
      refine .inr ⟨hreply, p, hmoved.place, hr, hintro.trans intro, .inr ⟨first, rest, rfl, ?_⟩⟩
      rw [hacc]
      refine .credential (h.same ?_ hmoved.stage hmoved.count htexts)
      rw [hmoved.hash, List.append_nil]

/-! ## The flow -/

/-- The flow has been read up to where it waits for a packet. -/
def UpdateReadSoFar (ps : List Command) (w : World) : Prop :=
  ∃ p, UpdateReading (carried ps) (accepted w.log) p w

theorem UpdateFlows.flowing {ps : List Command} (h : UpdateFlows (carried ps) t) :
    Flowing insSignUpdateCredential (UpdateReadSoFar ps) (UpdateOnScreen (carried ps)) t := by
  rcases h with ⟨hp, h⟩ | ⟨hp, h⟩
  · exact .of_between hp h
  · exact .of_review hp h

theorem UpdateReading.zeroed (h : s.global.view SignCredentialDeploymentContext = default) :
    UpdateReading [] rows { state := .unset } s := by
  refine ⟨?_, ⟨ProtocolState.noConfusion, ProtocolState.noConfusion⟩, ?_, .inl ⟨rfl, ?_⟩⟩
  · rw [h]
    exact ⟨rfl, rfl, rfl, rfl, rfl, rfl, rfl, rfl, fun hno => absurd rfl hno,
      fun hno => absurd rfl hno, fun hno => absurd rfl hno⟩
  · rw [World.showsIntro, h]
    rfl
  · rw [updateStage, h]
    rfl

theorem updateReviewRules : FlowRules insSignUpdateCredential UpdateReadSoFar
    fun ps => UpdateOnScreen (carried ps) where
  still ps s t hst _ hacc hI := by
    obtain ⟨p, h⟩ := hI
    refine ⟨p, ?_⟩
    rw [hacc]
    exact h.kept (by rw [hst]; exact ⟨rfl, rfl⟩)
  first cmd s hins hl hp hz _ _ _ := by
    have hview : s.global.view SignCredentialDeploymentContext = default := by
      rw [hz, InstructionContext.view_zeroed]
    rw [dispatch_updateCredential hins]
    refine wp_withData (fun hc => ?_) fun hc => ?_
    · refine .of_between rfl ⟨{ state := .unset }, ?_⟩
      rw [← List.nil_append [cmd], carried_empty hc]
      exact .zeroed hview
    · have hfirst : wp (handleSignUpdateCredential cmd false)
          (fun _ t => UpdateFlows ([] ++ [cmd]) t) (fun _ _ => True)
          { s with global := Member.inject { s.global.view SignCredentialDeploymentContext with
            updateCredentialState := .initial } } := by
        refine wp_handleSignUpdateCredential_shown (.zeroed ?_) hp
        rw [InstructionContext.view_inject, hview]
        rfl
      unfold handleSignUpdateCredential at hfirst ⊢
      rw [if_neg Bool.false_ne_true] at hfirst
      rw [if_pos rfl, wp_bind, wp_modifyCtx]
      refine wp_mono (fun _ t ht => UpdateFlows.flowing ?_) (fun _ _ hE => hE) hfirst
      rw [← List.nil_append [cmd], carried_snoc hc]
      exact ht
  next ps cmd s hins hl hp hI := by
    obtain ⟨p, h⟩ := hI
    rw [dispatch_updateCredential hins]
    refine wp_withData (fun hc => ?_) fun hc => ?_
    · refine .of_between rfl ⟨p, ?_⟩
      have hacc : accepted (s.answered [] swoWrongDataLength).log = accepted s.log := by
        simp [World.answered, Event.accepts]
      rw [carried_empty hc]
      exact hacc ▸ h.kept ⟨rfl, rfl⟩
    · refine wp_mono (fun _ t ht => UpdateFlows.flowing ?_) (fun _ _ hE => hE)
        (wp_handleSignUpdateCredential_shown h hp)
      rw [carried_snoc hc]
      exact ht
  answer ps c s hc hl hp hr := by
    refine wp_mono (fun _ t ht => ?_) (fun _ _ hE => hE) (hr.answered hc)
    rcases ht with hfree | ⟨hreply, h⟩
    · exact .of_free hfree
    · exact .of_between hreply h

/-! ## Every run -/

/-- A review that can be signed is that of the threshold. -/
theorem UpdateOnScreen.signing_of (h : UpdateOnScreen cmds w) (ho : OffersSigning w) :
    UpdateSigning cmds w := by
  cases h with
  | signing h => exact h
  | plain _ _ actions => rcases actions _ ho.2 with h | h <;> cases h
  | credential _ _ embedded review =>
    cases review with
    | key _ _ _ actions => rcases actions _ ho.2 with h | h | h <;> cases h
    | value _ _ actions => rcases actions _ ho.2 with h | h <;> cases h
    | added _ _ _ _ actions => rcases actions _ ho.2 with h | h <;> cases h
    | final hq => exact absurd hq embedded.2

/-- In every run in which reviews are answered once, a credential within an update
    never comes to the choice between a new and an existing account.  Before the
    update can be signed, the sender, every credential and every removal have been
    shown and accepted, and there is exactly one update that was shown and of which
    the hash consists. -/
theorem update_credential_reviewed {inputs : List Input}
    (hgate : Along Concordium.step Answers World.start inputs)
    (hrun : runInputs World.start inputs = some w) (hl : w.latch = some insSignUpdateCredential) :
    (∃ p, CredentialAt p (w.global.view SignCredentialDeploymentContext) ∧ p.Embedded) ∧
    (w.replyPending = false → UpdateReadSoFar (openPackets inputs) w) ∧
    (OffersSigning w → ∃ first rest, carried (openPackets inputs) = first :: rest ∧
      ∃! u : CredentialUpdate, u.Reviewed first w) := by
  have hflow := updateReviewRules.run hgate hrun
  refine ⟨?_, hflow.between hl, fun ho => ?_⟩
  · rcases Bool.eq_false_or_eq_true w.replyPending with hp | hp
    · cases hflow.review hl hp with
      | plain h => exact ⟨_, h.place, h.embedded⟩
      | credential _ place embedded => exact ⟨_, place, embedded⟩
      | signing h => exact h.place
    · obtain ⟨p, h⟩ := hflow.between hl hp
      exact ⟨p, h.place, h.embedded⟩
  · obtain ⟨first, rest, hcmds, u, hu⟩ := ((hflow.review hl ho.1).signing_of ho).read
    refine ⟨first, rest, hcmds, u, hu, fun v hv => ?_⟩
    exact CredentialUpdate.encode_injective (hv.hash.symm.trans hu.hash)

end Reviews

open SignCredentialDeploymentContext in
/-- An update that adds one credential and removes another. -/
def updateInputs : List Input :=
  [updatePacket 0 p2CredentialInitial (6 :: [44, 919, 0, 0, 0, 0].flatMap (toBe 4) ++
      (List.replicate 32 7 ++ toBe 8 1 ++ toBe 8 500 ++ toBe 4 4 ++ toBe 8 9) ++
      [kindUpdateCredentials, 1]),
    .activate .sendSuccessNoIdle,
    updatePacket 0 p2CredentialCredentialIndex [2],
    updatePacket p1VerificationKeyLength p2CredentialCredential [1],
    updatePacket p1VerificationKey p2CredentialCredential (List.replicate 34 7),
    updatePacket p1SignatureThreshold p2CredentialCredential
      (1 :: (List.replicate 48 9 ++ toBe 4 5 ++ [1, 0, 1])),
    updatePacket p1ArIdentity p2CredentialCredential (List.replicate 100 3),
    updatePacket p1CredentialDates p2CredentialCredential [7, 231, 1, 7, 232, 1, 0, 1],
    updatePacket p1AttributeTag p2CredentialCredential [0, 3],
    updatePacket p1AttributeValue p2CredentialCredential [74, 111, 104],
    .activate .confirmAttribute,
    updatePacket p1LengthOfProofs p2CredentialCredential [0, 0, 0, 1],
    updatePacket p1Proofs p2CredentialCredential [8],
    .activate .confirmAddedCredential,
    updatePacket 0 p2CredentialIdCount [1],
    updatePacket 0 p2CredentialId (List.replicate 48 4),
    .activate .sendSuccessNoIdle,
    updatePacket 0 p2Threshold [2]]

/-- The rules at work: the update can be signed, and there is exactly one it can
    be. -/
theorem update_credential_added :
    letI : Platform := sdkDevice .nbgl
    ∃ w, runInputs World.start updateInputs = some w ∧ OffersSigning w ∧
      ∃ first rest, carried (openPackets updateInputs) = first :: rest ∧
        ∃! u : CredentialUpdate, u.Reviewed first w := by
  let : Platform := sdkDevice .nbgl
  have hrun : (runInputs World.start updateInputs).any (fun w =>
      decide (w.latch = some insSignUpdateCredential ∧ w.replyPending = true ∧
        .buildAndSignTransactionHash ∈ w.screen.actions)) = true := by
    decide +kernel
  obtain ⟨w, hw, hrun⟩ := (Option.any_eq_true _ _).mp hrun
  obtain ⟨hl, hp, hoffer⟩ := of_decide_eq_true hrun
  have hgate : Along Concordium.step Answers World.start updateInputs := by
    decide +kernel
  exact ⟨w, hw, ⟨hp, hoffer⟩, (update_credential_reviewed hgate hw hl).2.2 ⟨hp, hoffer⟩⟩

end Concordium
