/-
  What the reviews of a credential show.

  The texts of a key, of an attribute and of the registration id are prepared
  with the packets that carry them, and the reviews are drawn of these texts.
-/
import Concordium.CredentialContents
import Concordium.CredentialUpdates

namespace Concordium

open Buffer Union Wp

set_option synthInstance.maxSize 1000000
set_option synthInstance.maxHeartbeats 100000

section Screens
variable [Platform] {p : CredentialPlace} {cmd : Command} {s t u : World} {bs : Bytes}
  {Q : Unit → World → Prop} {E : Exception → World → Prop}

/-- A packet that leads to no review. -/
def CredentialPlace.Silent (p : CredentialPlace) : Prop :=
  match p.state with
  | .verificationKey => p.keys - 1 = 0
  | .attributeValue => False
  | .proofs => maxCdataLength < p.proofs
  | _ => True

/-- The texts that the credential flow has prepared. -/
def World.credentialTexts (w : World) : CredentialTexts :=
  (w.global.view SignCredentialDeploymentContext).texts

/-- The intro of a deployment is still to be shown. -/
def World.showsIntro (w : World) : Bool :=
  (w.global.view SignCredentialDeploymentContext).showIntro

/-- What a packet does to the texts and the screen.  Where no intro is to be shown,
    none is, and no step of a review is acknowledged by itself. -/
structure CredentialTold (p : CredentialPlace) (cmd : Command) (s t : World) : Prop where
  accepted : Concordium.accepted t.log = Concordium.accepted s.log
  texts : t.credentialTexts = p.write cmd.data s.credentialTexts
  shown : t.replyPending = true → onScreen t.log = t.screen.rows ∧
    p.told cmd.data s.credentialTexts ⊆ t.screen.rows
  silent : t.replyPending = false → p.Silent
  unchosen : t.replyPending = true →
    (t.global.view SignCredentialDeploymentContext).state ≠ .newOrExisting
  intro : s.showsIntro = false → t.showsIntro = false
  plain : s.showsIntro = false → t.replyPending = true → .sendSuccessNoIdle ∉ t.screen.actions

theorem World.showsIntro_of {ctx : SignCredentialDeploymentContext}
    (hg : u.global = Member.inject ctx) (h : ctx.showIntro = false) : u.showsIntro = false := by
  rw [World.showsIntro, hg, InstructionContext.view_inject, h]

theorem HashedOnto.showsIntro (h : HashedOnto bs s t) : t.showsIntro = s.showsIntro := by
  rw [World.showsIntro, h.global, World.showsIntro]

theorem World.credentialTexts_of {ctx : SignCredentialDeploymentContext}
    (h : u.global = Member.inject ctx) : u.credentialTexts = ctx.texts := by
  rw [World.credentialTexts, h, InstructionContext.view_inject]

/-! ## Drawing -/

theorem wp_uiVerificationKeyDisplay_shown {intro : Bool}
    (h : ∀ rows actions, keyTextRow s.credentialTexts.key ∈ rows →
      (intro = false → .sendSuccessNoIdle ∉ actions) → Q () (s.updateReviewed rows actions)) :
    wp (uiVerificationKeyDisplay intro) Q E s := by
  unfold uiVerificationKeyDisplay
  rw [wp_bind, wp_getCtx]
  have hrow : keyRow (s.global.view SignCredentialDeploymentContext) =
    keyTextRow s.credentialTexts.key := rfl
  rw [hrow]
  cases (Platform.backend : Backend) with
  | nbgl =>
    simp only [nbglStagedReview, nbglReview]
    rw [wp_showScreen]
    exact h _ _ (by simp) (by simp)
  | bagl =>
    refine wp_if (fun hintro => ?_) fun _ => ?_
    · rw [wp_showScreen]
      exact h _ _ (by simp) (by simp [hintro])
    · rw [wp_showScreen]
      exact h _ _ (by simp) (by simp)

theorem wp_uiSignCredentialDeploymentAttributeDisplay_shown
    (h : ∀ rows actions, (⟨s.credentialTexts.name,
        (s.global.view SignCredentialDeploymentContext).attributeValue.text⟩ : Row) ∈ rows →
      .sendSuccessNoIdle ∉ actions → Q () (s.updateReviewed rows actions)) :
    wp uiSignCredentialDeploymentAttributeDisplay Q E s := by
  unfold uiSignCredentialDeploymentAttributeDisplay
  rw [wp_bind, wp_getCtx]
  cases (Platform.backend : Backend) with
  | nbgl =>
    simp only [nbglReview]
    rw [wp_showScreen]
    exact h _ _ (by simp [World.credentialTexts, SignCredentialDeploymentContext.texts]) (by simp)
  | bagl =>
    dsimp only
    rw [wp_showScreen]
    exact h _ _ (by simp [World.credentialTexts, SignCredentialDeploymentContext.texts]) (by simp)

theorem wp_uiSignUpdateCredentialAddedCredentialDisplay_shown
    (h : ∀ rows actions, [keyTextRow s.credentialTexts.key,
        row "RegIdCred" s.credentialTexts.regId] ⊆ rows → .sendSuccessNoIdle ∉ actions →
      Q () (s.updateReviewed rows actions)) :
    wp uiSignUpdateCredentialAddedCredentialDisplay Q E s := by
  unfold uiSignUpdateCredentialAddedCredentialDisplay
  rw [wp_bind, wp_getCtx]
  have hkey : keyRow (s.global.view SignCredentialDeploymentContext) =
    keyTextRow s.credentialTexts.key := rfl
  have hregId : row "RegIdCred"
      (s.global.view SignCredentialDeploymentContext).regIdCred.text =
    row "RegIdCred" s.credentialTexts.regId := rfl
  unfold registrationRows
  rw [hkey, hregId]
  cases (Platform.backend : Backend) with
  | nbgl =>
    simp only [nbglReview]
    rw [wp_showScreen]
    exact h _ _ (by simp) (by simp)
  | bagl =>
    dsimp only
    rw [wp_showScreen]
    exact h _ _ (by simp) (by simp)

/-! ## Packets -/

omit [Platform] in
/-- The text of a key is that of its 32 bytes. -/
theorem wp_parseVerificationKey_shown {ctx : SignCredentialDeploymentContext} {buffer : Bytes}
    {R : SignCredentialDeploymentContext → World → Prop}
    (h : ∀ (key : Buf 68) t, key.text = paginatedHex ((buffer.drop 2).take 32) →
      HashedOnto (buffer.take 34) s t →
      R { ctx with
        accountVerificationKey := key
        numberOfVerificationKeys := ctx.numberOfVerificationKeys - 1 } t) :
    wp (parseVerificationKey ctx buffer) R (fun _ _ => True) s := by
  have hlast : wp (parseVerificationKey ctx buffer)
      (fun r _ => r.accountVerificationKey.text = paginatedHex ((buffer.drop 2).take 32))
      (fun _ _ => True) s := by
    unfold parseVerificationKey keyLength
    rw [wp_bind, wp_throwIf]
    refine ⟨fun _ => trivial, fun hlen => ?_⟩
    simp only [wp_bind, wp_slice, wp_updateHash, implies_true, and_true]
    intro _ _ _
    have hkey : ((buffer.drop 2).take 32).length = 32 := by
      rw [List.length_take, List.length_drop]
      omega
    refine wp_toPaginatedHex (fun hnil => by rw [hnil] at hkey; cases hkey) (by omega)
      (by rw [hkey]; decide) fun key htext => ?_
    rw [wp_pure]
    exact htext
  have hread : wp (parseVerificationKey ctx buffer)
      (fun r t => r.accountVerificationKey.text = paginatedHex ((buffer.drop 2).take 32) → R r t)
      (fun _ _ => True) s :=
    wp_parseVerificationKey (fun key t _ ht htext => h key t htext ht) fun _ _ => trivial
  exact wp_mono (fun _ _ hR => hR.2 hR.1) (fun _ _ _ => trivial) (wp_and hlast hread)

theorem told_sendSuccessNoIdle (hacc : Concordium.accepted u.log = Concordium.accepted s.log)
    (htexts : u.credentialTexts = p.write cmd.data s.credentialTexts) (hsilent : p.Silent)
    (hintro : s.showsIntro = false → u.showsIntro = false) :
    wp sendSuccessNoIdle (fun _ t => CredentialTold p cmd s t) E u := by
  change wp (ioSendResponse [] swoSuccess) _ _ _
  rw [wp_ioSendResponse]
  refine ⟨?_, htexts, fun hno => absurd hno Bool.false_ne_true, fun _ => hsilent,
    fun hno => absurd hno Bool.false_ne_true, hintro, fun _ hno => absurd hno Bool.false_ne_true⟩
  simpa [Event.accepts] using hacc

theorem CredentialTold.reviewed {rows : List Row} {actions : List Callback}
    (hacc : Concordium.accepted u.log = Concordium.accepted s.log) (hp : u.replyPending = true)
    (htexts : u.credentialTexts = p.write cmd.data s.credentialTexts)
    (hrows : p.told cmd.data s.credentialTexts ⊆ rows)
    (hstate : (u.global.view SignCredentialDeploymentContext).state ≠ .newOrExisting)
    (hintro : s.showsIntro = false → u.showsIntro = false)
    (hplain : s.showsIntro = false → .sendSuccessNoIdle ∉ actions) :
    CredentialTold p cmd s (u.updateReviewed rows actions) := by
  refine ⟨?_, htexts, fun _ => ⟨?_, hrows⟩, fun hno => ?_, fun _ => hstate, hintro,
    fun h _ => hplain h⟩
  · simpa [World.updateReviewed, Event.accepts] using hacc
  · simp [World.updateReviewed, Event.accepts, World.screenOf]
  · exact absurd (hp.symm.trans hno) Bool.false_ne_true.symm

theorem told_credentialVerificationKeyLength (hs : p.state = .verificationKeysLength) :
    wp (credentialVerificationKeyLength cmd) (fun _ t => CredentialTold p cmd s t)
      (fun _ _ => True) s := by
  unfold credentialVerificationKeyLength
  rw [wp_bind]
  refine wp_hashField (fun t hlen ht => ?_) fun _ => trivial
  simp only [wp_bind, wp_modifyCtx]
  refine told_sendSuccessNoIdle ht.accepted ?_ ?_ fun h =>
    World.showsIntro_of rfl (ht.showsIntro.trans h)
  · rw [World.credentialTexts_of rfl, ht.global]
    unfold CredentialPlace.write
    rw [hs]
    rfl
  · unfold CredentialPlace.Silent
    rw [hs]
    trivial

theorem told_credentialVerificationKey (hp : s.replyPending = true)
    (h : CredentialAt p (s.global.view SignCredentialDeploymentContext)) :
    wp (credentialVerificationKey cmd) (fun _ t => CredentialTold p cmd s t) (fun _ _ => True)
      s := by
  unfold credentialVerificationKey
  rw [wp_bind, wp_getCtx]
  refine wp_if (fun hgo => ?_) fun _ => trivial
  have hs : p.state = .verificationKey := h.state.symm.trans hgo.2
  rw [wp_bind]
  refine wp_parseVerificationKey_shown fun key t htext ht => ?_
  have htexts : ({ s.credentialTexts with key := key.text } : CredentialTexts) =
      p.write cmd.data s.credentialTexts := by
    unfold CredentialPlace.write
    rw [hs, htext]
  have hkeys := h.keys
  generalize hview : s.global.view SignCredentialDeploymentContext = ctx at *
  have hctx : s.credentialTexts = ctx.texts := by rw [World.credentialTexts, hview]
  refine wp_if (fun _ => ?_) fun hdone : ¬ 0 < ctx.numberOfVerificationKeys - 1 => ?_
  · rw [wp_bind, wp_setCtx]
    have shown {intro : Bool} {u : World} {ctx' : SignCredentialDeploymentContext}
        (hg : u.global = Member.inject ctx') (hu : ctx'.texts = { ctx.texts with key := key.text })
        (hstate : ctx'.state = .awaitingVerificationKeyConfirm)
        (hlog : u.log = t.log) (hreply : u.replyPending = t.replyPending)
        (hoff : ctx'.showIntro = false) (hintro : ctx.showIntro = intro) :
        wp (uiVerificationKeyDisplay intro) (fun _ t => CredentialTold p cmd s t)
          (fun _ _ => True) u := by
      have htext' := (World.credentialTexts_of hg).trans hu
      refine wp_uiVerificationKeyDisplay_shown fun rows actions hrow hplain => ?_
      refine .reviewed ?_ (hreply.trans (ht.reply.trans hp)) ?_ ?_ ?_
        (fun _ => World.showsIntro_of hg hoff) fun h => hplain ?_
      · rw [hlog, ht.accepted]
      · rw [htext', ← htexts, hctx]
      · unfold CredentialPlace.told
        rw [hs, ← htext]
        rw [htext'] at hrow
        simpa using hrow
      · rw [hg, InstructionContext.view_inject, hstate]
        exact ProtocolState.noConfusion
      · rw [World.showsIntro, hview] at h
        exact hintro.symm.trans h
    exact wp_if (fun hintro => shown rfl rfl rfl rfl rfl rfl hintro) fun hintro =>
      shown rfl rfl rfl rfl rfl rfl (Bool.eq_false_iff.mpr hintro)
  · rw [wp_bind, wp_setCtx]
    refine told_sendSuccessNoIdle ht.accepted ?_ ?_ fun h => ?_
    · rw [World.credentialTexts_of rfl, ← htexts, hctx]
      rfl
    · unfold CredentialPlace.Silent
      rw [hs]
      dsimp only
      omega
    · rw [World.showsIntro, hview] at h
      exact World.showsIntro_of rfl h

omit [Platform] in
theorem text_write_end {n k : ℕ} {b : Buf n} (hk : b.text.length = k)
    (hw : k + [(0 : UInt8)].length ≤ n) : (b.write k [0] hw).text = b.text := by
  subst hk
  exact (text_append List.not_mem_nil hw).trans (List.append_nil _)

omit [Platform] in
/-- The digits of a field of 48 bytes. -/
theorem wp_hashHexField_shown {cdata : Bytes} {dst : Buf 97} {R : Buf 97 × Bytes → World → Prop}
    (h : ∀ (dst' : Buf 97) t, dst'.text = hexUpper (cdata.take 48) →
      HashedOnto (cdata.take 48) s t → R (dst', cdata.drop 48) t) :
    wp (hashHexField cdata dst) R (fun _ _ => True) s := by
  unfold hashHexField
  rw [wp_bind, wp_throwIf]
  refine ⟨fun _ => trivial, fun hlen => ?_⟩
  have hlength : (cdata.take 48).length = 48 := List.length_take_of_le (not_lt.mp hlen)
  rw [wp_bind, wp_slice]
  refine ⟨fun _ => ?_, fun _ => trivial⟩
  rw [List.drop_zero, wp_bind]
  refine wp_formatHexInto (by rw [hlength]) fun text htext => ?_
  have hdigits : text.text.length = 96 := by rw [htext, hexUpper_length, hlength]
  rw [wp_bind, wp_memmove]
  refine ⟨fun hw => ?_, fun _ => trivial⟩
  have hsame : (text.write 96 [0] hw).text = hexUpper (cdata.take 48) :=
    (text_write_end hdigits hw).trans htext
  rw [wp_bind]
  refine wp_updateHash_onto fun t ht => ?_
  rw [wp_bind, wp_advance]
  exact ⟨fun _ => h _ t hsame ht, fun _ => trivial⟩

theorem told_credentialSignatureThreshold (hs : p.state = .signatureThreshold) :
    wp (credentialSignatureThreshold cmd) (fun _ t => CredentialTold p cmd s t)
      (fun _ _ => True) s := by
  unfold credentialSignatureThreshold
  rw [wp_bind, wp_getCtx, wp_bind, wp_throwIf]
  refine ⟨fun _ => trivial, fun _ => ?_⟩
  rw [wp_bind]
  refine wp_hashField (fun t₁ _ ht₁ => ?_) fun _ => trivial
  dsimp only
  rw [wp_bind]
  refine wp_binToDec (fun _ => trivial) fun _ => ?_
  rw [wp_bind, wp_memmove]
  refine ⟨fun _ => ?_, fun _ => trivial⟩
  rw [wp_bind]
  refine wp_hashHexField_shown fun regIdCred t₂ htext ht₂ => ?_
  dsimp only
  rw [wp_bind]
  refine wp_hashField (fun t₃ _ ht₃ => ?_) fun _ => trivial
  dsimp only
  rw [wp_bind]
  refine wp_numberToText (fun _ => ?_) fun _ => trivial
  rw [wp_bind, wp_memmove]
  refine ⟨fun _ => ?_, fun _ => trivial⟩
  rw [wp_bind]
  refine wp_hashField (fun t₄ _ ht₄ => ?_) fun _ => trivial
  dsimp only
  rw [wp_bind]
  refine wp_numberToText (fun _ => ?_) fun _ => trivial
  rw [wp_bind, wp_throwIf]
  refine ⟨fun _ => trivial, fun _ => ?_⟩
  rw [wp_bind]
  refine wp_hashField (fun t₅ _ ht₅ => ?_) fun _ => trivial
  dsimp only
  rw [wp_bind]
  refine wp_binToDec (fun _ => trivial) fun _ => ?_
  rw [wp_bind, wp_memmove]
  refine ⟨fun _ => ?_, fun _ => trivial⟩
  rw [wp_bind, wp_setCtx]
  refine told_sendSuccessNoIdle ((((ht₁.trans ht₂).trans ht₃).trans ht₄).trans ht₅).accepted ?_ ?_
    fun h => World.showsIntro_of rfl h
  · rw [World.credentialTexts_of rfl]
    unfold CredentialPlace.write
    rw [hs, ← htext]
    rfl
  · unfold CredentialPlace.Silent
    rw [hs]
    trivial

theorem told_credentialArIdentity (hs : p.state = .arIdentity) :
    wp (credentialArIdentity cmd) (fun _ t => CredentialTold p cmd s t) (fun _ _ => True) s := by
  have hwrite : p.write cmd.data s.credentialTexts = s.credentialTexts := by
    unfold CredentialPlace.write
    rw [hs]
  have hsilent : p.Silent := by
    unfold CredentialPlace.Silent
    rw [hs]
    trivial
  unfold credentialArIdentity
  rw [wp_bind, wp_getCtx, wp_bind, wp_throwIf]
  refine ⟨fun _ => trivial, fun _ => ?_⟩
  rw [wp_bind]
  refine wp_hashField (fun t₁ h₁ ht₁ => ?_) fun _ => trivial
  dsimp only
  rw [wp_bind]
  refine wp_formatHexInto (by rw [List.length_take]; omega) fun arIdentity _ => ?_
  rw [wp_bind]
  refine wp_hashField (fun t₂ h₂ ht₂ => ?_) fun _ => trivial
  dsimp only
  rw [wp_bind]
  refine wp_formatHexInto (by rw [List.length_take]; omega) fun encIdCredPubShare _ => ?_
  refine wp_if (fun _ => ?_) fun _ => ?_
  · rw [wp_bind]
    refine wp_formatHexInto (by rw [Buf.bytes_length]) fun arListHashDisplay _ => ?_
    rw [wp_bind, wp_setCtx]
    refine told_sendSuccessNoIdle (ht₁.trans ht₂).accepted ?_ hsilent fun h =>
      World.showsIntro_of rfl h
    rw [World.credentialTexts_of rfl, hwrite]
    rfl
  · rw [wp_bind, wp_setCtx]
    refine told_sendSuccessNoIdle (ht₁.trans ht₂).accepted ?_ hsilent fun h =>
      World.showsIntro_of rfl h
    rw [World.credentialTexts_of rfl, hwrite]
    rfl

theorem told_credentialDates (hs : p.state = .credentialDates) :
    wp (credentialDates cmd) (fun _ t => CredentialTold p cmd s t) (fun _ _ => True) s := by
  unfold credentialDates
  rw [wp_bind]
  refine wp_hashField (fun t₁ _ ht₁ => ?_) fun _ => trivial
  dsimp only
  rw [wp_bind]
  refine wp_hashField (fun t₂ _ ht₂ => ?_) fun _ => trivial
  dsimp only
  rw [wp_bind, wp_modifyCtx]
  refine told_sendSuccessNoIdle (ht₁.trans ht₂).accepted ?_ ?_ fun h =>
    World.showsIntro_of rfl ((ht₁.trans ht₂).showsIntro.trans h)
  · rw [World.credentialTexts_of rfl, (ht₁.trans ht₂).global]
    unfold CredentialPlace.write
    rw [hs]
    rfl
  · unfold CredentialPlace.Silent
    rw [hs]
    trivial

omit [Platform] in
theorem attributeNames_clean : ∀ name ∈ attributeNames, 0 ∉ name := by decide

omit [Platform] in
/-- The name of an attribute is its label. -/
theorem wp_attributeNameForTag_shown {tag : UInt8} {R : Buf 24 → World → Prop}
    (h : ∀ name : Buf 24, name.text = attributeLabel tag → R name s) :
    wp (attributeNameForTag tag) R E s := by
  unfold attributeNameForTag
  unfold attributeLabel at h
  cases hname : attributeNames[tag.toNat]? with
  | some name =>
    have hmem := List.mem_of_getElem? hname
    rw [hname, Option.getD_some] at h
    dsimp only
    rw [wp_memmove]
    refine ⟨fun hw => h _ (text_write_zero hw (attributeNames_clean name hmem)), fun hno => ?_⟩
    have := attributeNames_length name hmem
    omega
  | none =>
    have htag : (decimal tag.toNat).length ≤ 3 :=
      decimal_length (by decide) (tag.toNat_lt.trans (by decide))
    have hlabel : (ascii "Attribute #").length = 11 := by decide
    rw [hname, Option.getD_none] at h
    dsimp only
    rw [wp_bind]
    refine wp_binToDec_fits (by omega) ?_
    rw [wp_memmove]
    refine ⟨fun hw => h _ ?_, fun hno => absurd ?_ hno⟩
    · exact text_write_of_eq hw (List.append_assoc _ _ _).symm
        (List.not_mem_append (by decide) (zero_not_mem_decimal _))
    · simp only [List.length_append, hlabel, List.length_singleton]
      omega

theorem told_credentialAttributeTag (hs : p.state = .attributeTag) :
    wp (credentialAttributeTag cmd) (fun _ t => CredentialTold p cmd s t) (fun _ _ => True)
      s := by
  unfold credentialAttributeTag
  rw [wp_bind, wp_getCtx, wp_bind, wp_throwIf]
  refine ⟨fun _ => trivial, fun _ => ?_⟩
  rw [wp_bind]
  refine wp_hashField (fun t₁ h₁ ht₁ => ?_) fun _ => trivial
  dsimp only
  rw [wp_bind]
  refine wp_attributeNameForTag_shown fun attributeName htext => ?_
  rw [wp_bind]
  refine wp_hashField (fun t₂ _ ht₂ => ?_) fun _ => trivial
  dsimp only
  rw [wp_bind, wp_setCtx]
  refine told_sendSuccessNoIdle (ht₁.trans ht₂).accepted ?_ ?_ fun h =>
    World.showsIntro_of rfl h
  · have htag : (cmd.data.take 1).getD 0 0 = cmd.data.getD 0 0 := by
      cases hdata : cmd.data with
      | nil => rfl
      | cons b rest => rfl
    rw [htag] at htext
    rw [World.credentialTexts_of rfl]
    unfold CredentialPlace.write
    rw [hs, ← htext]
    rfl
  · unfold CredentialPlace.Silent
    rw [hs]
    trivial

theorem told_credentialAttributeValue (hp : s.replyPending = true)
    (h : CredentialAt p (s.global.view SignCredentialDeploymentContext))
    (hs : p.state = .attributeValue) :
    wp (credentialAttributeValue cmd) (fun _ t => CredentialTold p cmd s t) (fun _ _ => True)
      s := by
  unfold credentialAttributeValue
  rw [wp_bind, wp_getCtx, wp_bind, h.valueLength]
  refine wp_hashField (fun t _ ht => ?_) fun _ => trivial
  dsimp only
  rw [wp_bind, wp_throwIf]
  refine ⟨fun _ => trivial, fun hgood => ?_⟩
  have hclean : isDisplayableText (cmd.data.take p.valueLength) = true := by
    rw [Bool.not_eq_true'] at hgood
    exact Bool.eq_true_of_not_eq_false hgood
  rw [wp_bind, wp_memmove]
  refine ⟨fun hw => ?_, fun _ => trivial⟩
  have hzero : 0 ∉ cmd.data.take p.valueLength := fun h0 =>
    absurd (List.all_eq_true.mp hclean 0 h0) (by decide)
  have htext := Buf.text_write (b := Buf.zero 256) hw hzero
  rw [wp_bind, wp_setCtx]
  refine wp_uiSignCredentialDeploymentAttributeDisplay_shown fun rows actions hrow hplain => ?_
  rw [World.credentialTexts_of rfl, InstructionContext.view_inject] at hrow
  refine .reviewed ht.accepted (ht.reply.trans hp) ?_ ?_ ?_
    (fun h => World.showsIntro_of rfl h) fun _ => hplain
  · rw [World.credentialTexts_of rfl]
    unfold CredentialPlace.write
    rw [hs]
    rfl
  · unfold CredentialPlace.told
    rw [hs, ← htext]
    exact List.cons_subset.mpr ⟨hrow, List.nil_subset _⟩
  · rw [InstructionContext.view_inject]
    dsimp only
    rw [h.state, hs]
    exact ProtocolState.noConfusion

theorem told_credentialLengthOfProofs (hs : p.state = .lengthOfProofs) :
    wp (credentialLengthOfProofs cmd) (fun _ t => CredentialTold p cmd s t) (fun _ _ => True)
      s := by
  have finish {u : World} {proofs : ℕ} {bs : Bytes} (hu : HashedOnto bs s u) : wp (do
      modifyCtx fun ctx : SignCredentialDeploymentContext =>
        { ctx with proofLength := proofs, state := .proofs }
      sendSuccessNoIdle) (fun _ t => CredentialTold p cmd s t) (fun _ _ => True) u := by
    rw [wp_bind, wp_modifyCtx]
    refine told_sendSuccessNoIdle hu.accepted ?_ ?_ fun h =>
      World.showsIntro_of rfl (hu.showsIntro.trans h)
    · rw [World.credentialTexts_of rfl, hu.global]
      unfold CredentialPlace.write
      rw [hs]
      rfl
    · unfold CredentialPlace.Silent
      rw [hs]
      trivial
  unfold credentialLengthOfProofs
  rw [wp_bind, wp_throwIf]
  refine ⟨fun _ => trivial, fun _ => ?_⟩
  rw [wp_bind, wp_u4be]
  refine ⟨fun _ => ?_, fun _ => trivial⟩
  refine wp_if (fun _ => ?_) fun _ => ?_
  · rw [wp_bind, wp_slice]
    refine ⟨fun _ => ?_, fun _ => trivial⟩
    rw [wp_bind]
    exact wp_updateHash_onto fun t ht => finish ht
  · exact finish ⟨rfl, rfl, rfl, (List.append_nil _).symm, rfl⟩

theorem told_credentialProofs (hp : s.replyPending = true)
    (h : CredentialAt p (s.global.view SignCredentialDeploymentContext)) (hs : p.state = .proofs)
    (hp2 : cmd.p2 = SignCredentialDeploymentContext.p2CredentialCredential)
    (hstage : updateStage s = .credential) (hleft : 0 < credentialsLeft s) :
    wp (credentialProofs cmd) (fun _ t => CredentialTold p cmd s t) (fun _ _ => True) s := by
  have hwrite : p.write cmd.data s.credentialTexts = s.credentialTexts := by
    unfold CredentialPlace.write
    rw [hs]
  unfold credentialProofs
  rw [wp_bind, wp_getCtx, h.proofs]
  refine wp_if (fun hmore => ?_) fun hlast => ?_
  · rw [wp_bind]
    refine wp_hashField (fun t _ ht => ?_) fun _ => trivial
    rw [wp_bind, wp_setCtx]
    generalize p.proofs - maxCdataLength = left
    refine told_sendSuccessNoIdle ht.accepted ?_ ?_ fun h => World.showsIntro_of rfl h
    · rw [World.credentialTexts_of rfl, hwrite]
      rfl
    · unfold CredentialPlace.Silent
      rw [hs]
      exact hmore
  · rw [wp_bind]
    refine wp_hashField (fun t _ ht => ?_) fun _ => trivial
    refine wp_if (fun _ => ?_) fun hno => absurd ⟨hp2, hstage, hleft⟩ hno
    have htexts : t.credentialTexts = s.credentialTexts := by
      rw [World.credentialTexts, ht.global, World.credentialTexts]
    refine wp_uiSignUpdateCredentialAddedCredentialDisplay_shown fun rows actions hrows hplain => ?_
    refine .reviewed ht.accepted (ht.reply.trans hp) (htexts.trans hwrite.symm) ?_ ?_
      (fun h => ht.showsIntro.trans h) fun _ => hplain
    · unfold CredentialPlace.told
      rw [hs, ← htexts]
      dsimp only
      rwa [if_neg hlast]
    · rw [ht.global, h.state, hs]
      exact ProtocolState.noConfusion

/-- A packet of a credential within an update. -/
theorem told_handleSignCredentialDeployment (hp : s.replyPending = true)
    (h : CredentialAt p (s.global.view SignCredentialDeploymentContext))
    (hp2 : cmd.p2 = SignCredentialDeploymentContext.p2CredentialCredential)
    (hstage : updateStage s = .credential) (hleft : 0 < credentialsLeft s)
    (hinitial : p.state ≠ .initial) (hchoice : p.state ≠ .newOrExisting) :
    wp (handleSignCredentialDeployment cmd false) (fun _ t => CredentialTold p cmd s t)
      (fun _ _ => True) s := by
  unfold handleSignCredentialDeployment
  rw [if_neg Bool.false_ne_true]
  change wp (getCtx SignCredentialDeploymentContext >>= _) _ _ _
  rw [wp_bind, wp_getCtx, h.state]
  refine wp_if (fun hgo => absurd hgo.2 hinitial) fun _ => ?_
  refine wp_if (fun hgo => told_credentialVerificationKeyLength hgo.2) fun _ => ?_
  refine wp_if (fun _ => told_credentialVerificationKey hp h) fun _ => ?_
  refine wp_if (fun hgo => told_credentialSignatureThreshold hgo.2) fun _ => ?_
  refine wp_if (fun hgo => told_credentialArIdentity hgo.2) fun _ => ?_
  refine wp_if (fun hgo => told_credentialDates hgo.2) fun _ => ?_
  refine wp_if (fun hgo => told_credentialAttributeTag hgo.2) fun _ => ?_
  refine wp_if (fun hgo => told_credentialAttributeValue hp h hgo.2) fun _ => ?_
  refine wp_if (fun hgo => told_credentialLengthOfProofs hgo.2) fun _ => ?_
  refine wp_if (fun hgo => told_credentialProofs hp h hgo.2 hp2 hstage hleft) fun _ => ?_
  exact wp_if (fun hgo => absurd hgo.2 hchoice) fun _ => trivial

end Screens

end Concordium
