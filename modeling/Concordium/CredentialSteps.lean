/-
  What becomes of one packet of a credential.

  The handler serves a deployment of its own and the credentials within an
  update.  A packet is taken at once, or its field is put under review, or it is
  refused.
-/
import Concordium.CredentialPackets

namespace Concordium

open Buffer Union Wp

set_option synthInstance.maxSize 1000000
set_option synthInstance.maxHeartbeats 100000

/-! ## Places and contexts -/

section Places
variable [Platform]

/-- The context stands at the place, and its texts show the fields that will be
    reviewed. -/
structure CredentialAt (p : CredentialPlace) (ctx : SignCredentialDeploymentContext) : Prop where
  state : ctx.state = p.state
  keys : ctx.numberOfVerificationKeys = p.keys
  revokers : ctx.anonymityRevocationListLength = p.revokers
  attributes : ctx.attributeListLength = p.attributes
  valueLength : ctx.attributeValueLength = p.valueLength
  proofs : ctx.proofLength = p.proofs
  entries : ctx.arListHashCtx = p.entries
  provider : ctx.identityProviderIndex.bytes = p.provider
  signatureThreshold : p.record ≠ [] →
    ctx.signatureThreshold.text = decimal (signatureThresholdOf p.record)
  arThreshold : p.record ≠ [] → ctx.anonymityRevocationThreshold.text =
    decimal (arThresholdOf p.record) ++ ascii " out of " ++ decimal (arCountOf p.record)
  digest : p.entries ≠ [] → p.revokers = 0 →
    ctx.arListHashDisplay.text = hexUpper (Platform.sha256 p.entries).bytes

/-- `bs` has been hashed on the way to a place; the count of an update is as it
    was. -/
structure CredentialMoved (p : CredentialPlace) (bs : Bytes) (s t : World) : Prop where
  latch : t.latch = s.latch
  hash : t.txState.hash = s.txState.hash ++ bs
  place : CredentialAt p (t.global.view SignCredentialDeploymentContext)
  stage : (t.global.view SignCredentialDeploymentContext).updateCredentialState =
    (s.global.view SignCredentialDeploymentContext).updateCredentialState
  count : (t.global.view SignCredentialDeploymentContext).credentialDeploymentCount =
    (s.global.view SignCredentialDeploymentContext).credentialDeploymentCount

/-- The rows of a credential that are the same in all its reviews. -/
def credentialRows (ctx : SignCredentialDeploymentContext) : List Row :=
  [signatureThresholdRow ctx, arThresholdRow ctx,
    row "Identity provider" ctx.identityProviderText, arListRow ctx]

/-- A review at `q` that leads on to `r`. -/
inductive CredentialReview (q r : CredentialPlace) (w : World) : Prop where
  | key (hq : q.state = .awaitingVerificationKeyConfirm) (hkeys : q.keys ≠ 0)
    (hr : r = { q with state := .verificationKey })
    (actions : ∀ c ∈ w.screen.actions, c = .sendSuccessNoIdle ∨ c = .processNextVerificationKey ∨
      c = .rejectStagedReview)
  | value (hq : q.state = .attributeValue)
    (hr : r = { q with
      state := if q.attributes - 1 = 0 then .lengthOfProofs else .attributeTag
      attributes := q.attributes - 1 })
    (actions : ∀ c ∈ w.screen.actions, c = .confirmAttribute ∨ c = .sendUserRejection)
  | added (hq : q.state = .proofs) (hr : r = { q with state := .newOrExisting })
    (stage : (w.global.view SignCredentialDeploymentContext).updateCredentialState = .credential)
    (count : 0 < (w.global.view SignCredentialDeploymentContext).credentialDeploymentCount)
    (actions : ∀ c ∈ w.screen.actions, c = .confirmAddedCredential ∨ c = .sendUserRejection)
    (shown : credentialRows (w.global.view SignCredentialDeploymentContext) ⊆ w.screen.rows)
  | final (hq : q.state = .newOrExisting) (hr : r = q)
    (actions : ∀ c ∈ w.screen.actions, c = .sendSuccessNoIdle ∨ c ∈ signFlowShared)
    (shown : credentialRows (w.global.view SignCredentialDeploymentContext) ⊆ w.screen.rows)

/-- What is to be shown of a packet at a place.  Only the text of an address may
    be refused for another reason than the packet itself. -/
structure CredentialGoal (p : CredentialPlace) (cmd : Command) (s : World)
    (Q : Unit → World → Prop) (E : Exception → World → Prop) : Prop where
  taken : ∀ t, p.Takes cmd → t.replyPending = false →
    CredentialMoved (p.next cmd.data) (p.part cmd) s t → Q () t
  reviewed : ∀ q t, p.Takes cmd → t.replyPending = s.replyPending →
    CredentialMoved q (p.part cmd) s t → CredentialReview q (p.next cmd.data) t → Q () t
  refused : ∀ e t, ¬ p.Takes cmd → E e t
  unaddressed : ∀ e t, p.state = .newOrExisting → E e t

end Places

/-! ## Reviews -/

section Reviews
variable [Platform] {s : World} {Q : Unit → World → Prop} {E : Exception → World → Prop}

theorem wp_uiVerificationKeyDisplay {intro : Bool}
    (h : ∀ rows actions, (∀ c ∈ actions, c = .sendSuccessNoIdle ∨
        c = .processNextVerificationKey ∨ c = .rejectStagedReview) →
      Q () { s with
        screen := s.screenOf rows actions, log := s.log ++ [.drawn (s.screenOf rows actions)] }) :
    wp (uiVerificationKeyDisplay intro) Q E s := by
  unfold uiVerificationKeyDisplay
  rw [wp_bind, wp_getCtx]
  cases hb : (Platform.backend : Backend) with
  | nbgl =>
    simp only [nbglStagedReview, nbglReview]
    rw [wp_showScreen]
    exact h _ _ (by simp)
  | bagl =>
    refine wp_if (fun _ => ?_) fun _ => ?_
    · rw [wp_showScreen]
      exact h _ _ (by simp)
    · rw [wp_showScreen]
      exact h _ _ (by simp)

theorem wp_uiSignCredentialDeploymentAttributeDisplay
    (h : ∀ rows actions, (∀ c ∈ actions, c = .confirmAttribute ∨ c = .sendUserRejection) →
      Q () { s with
        screen := s.screenOf rows actions, log := s.log ++ [.drawn (s.screenOf rows actions)] }) :
    wp uiSignCredentialDeploymentAttributeDisplay Q E s := by
  unfold uiSignCredentialDeploymentAttributeDisplay
  rw [wp_bind, wp_getCtx]
  cases hb : (Platform.backend : Backend) with
  | nbgl =>
    simp only [nbglReview]
    rw [wp_showScreen]
    exact h _ _ (by simp)
  | bagl =>
    dsimp only
    rw [wp_showScreen]
    exact h _ _ (by simp)

theorem wp_uiSignUpdateCredentialAddedCredentialDisplay
    (h : ∀ rows actions, (∀ c ∈ actions, c = .confirmAddedCredential ∨ c = .sendUserRejection) →
      credentialRows (s.global.view SignCredentialDeploymentContext) ⊆ rows →
      Q () { s with
        screen := s.screenOf rows actions, log := s.log ++ [.drawn (s.screenOf rows actions)] }) :
    wp uiSignUpdateCredentialAddedCredentialDisplay Q E s := by
  unfold uiSignUpdateCredentialAddedCredentialDisplay
  rw [wp_bind, wp_getCtx]
  cases hb : (Platform.backend : Backend) with
  | nbgl =>
    simp only [nbglReview]
    rw [wp_showScreen]
    exact h _ _ (by simp) (by simp [credentialRows, registrationRows])
  | bagl =>
    dsimp only
    rw [wp_showScreen]
    exact h _ _ (by simp) (by simp [credentialRows, registrationRows])

theorem wp_uiCredentialDeploymentFinal {existing intro : Bool}
    (h : ∀ rows actions, (∀ c ∈ actions, c = .sendSuccessNoIdle ∨ c ∈ signFlowShared) →
      credentialRows (s.global.view SignCredentialDeploymentContext) ⊆ rows →
      Q () { s with
        screen := s.screenOf rows actions, log := s.log ++ [.drawn (s.screenOf rows actions)] }) :
    wp (uiCredentialDeploymentFinal existing intro) Q E s := by
  unfold uiCredentialDeploymentFinal
  rw [wp_bind, wp_getCtx]
  cases hb : (Platform.backend : Backend) with
  | nbgl =>
    simp only [nbglSignReview, nbglReview]
    rw [wp_showScreen]
    refine h _ _ (fun c hc => .inr hc) ?_
    simp [credentialRows, registrationRows]
  | bagl =>
    dsimp only
    rw [wp_showScreen]
    refine h _ _ (fun c hc => ?_) ?_
    · cases intro <;> simp at hc <;> tauto
    · simp [credentialRows, registrationRows]

end Reviews

/-! ## Packets -/

section Packets
variable [Platform] {p q : CredentialPlace} {cmd : Command} {s t u : World}
  {Q : Unit → World → Prop} {E : Exception → World → Prop}

theorem CredentialAt.moved {bs : Bytes} {ctx : SignCredentialDeploymentContext}
    (hat : CredentialAt q ctx) (ht : HashedOnto bs s t) (hg : u.global = Member.inject ctx)
    (hl : u.latch = t.latch) (hh : u.txState.hash = t.txState.hash)
    (hstage : ctx.updateCredentialState =
      (s.global.view SignCredentialDeploymentContext).updateCredentialState)
    (hcount : ctx.credentialDeploymentCount =
      (s.global.view SignCredentialDeploymentContext).credentialDeploymentCount) :
    CredentialMoved q bs s u where
  latch := hl.trans ht.latch
  hash := hh.trans ht.hash
  place := by rwa [hg, InstructionContext.view_inject]
  stage := by rwa [hg, InstructionContext.view_inject]
  count := by rwa [hg, InstructionContext.view_inject]

omit [Platform] in
theorem CredentialPlace.part_of_size {n : ℕ} (hne : p.state ≠ .lengthOfProofs)
    (hsize : p.size cmd.data = n) : p.part cmd = cmd.data.take n := by
  unfold CredentialPlace.part
  rw [if_neg fun h => hne h.1, hsize]

theorem wp_credentialVerificationKeyLength (g : CredentialGoal p cmd s Q E)
    (h : CredentialAt p (s.global.view SignCredentialDeploymentContext))
    (hp1 : cmd.p1 = p.selector) (hstate : p.state = .verificationKeysLength) :
    wp (credentialVerificationKeyLength cmd) Q E s := by
  have hsize : p.size cmd.data = 1 := by unfold CredentialPlace.size; rw [hstate]
  have hfits : p.Fits cmd.data := by unfold CredentialPlace.Fits; rw [hstate]; trivial
  have hnext : p.next cmd.data = { p with
      state := .verificationKey, keys := beNat (cmd.data.take 1) } := by
    unfold CredentialPlace.next
    rw [hstate]
  unfold credentialVerificationKeyLength
  rw [wp_bind]
  refine wp_hashField (fun t hlen ht => ?_) fun hlen => ?_
  · simp only [wp_bind, wp_modifyCtx]
    have htakes : p.Takes cmd := ⟨hp1, by omega, hfits⟩
    refine g.taken _ htakes rfl ?_
    rw [CredentialPlace.part_of_size (by rw [hstate]; decide) hsize, hnext]
    refine CredentialAt.moved ?_ ht rfl rfl rfl ?_ ?_
    · rw [ht.global]
      exact { h with state := rfl, keys := rfl }
    · rw [ht.global]
    · rw [ht.global]
  · exact g.refused _ _ fun htakes => absurd htakes.size (by omega)

omit [Platform] in
/-- A key is hashed, and made ready for the screen. -/
theorem wp_parseVerificationKey {ctx : SignCredentialDeploymentContext} {buffer : Bytes}
    {R : SignCredentialDeploymentContext → World → Prop}
    (h : ∀ key t, 34 ≤ buffer.length → HashedOnto (buffer.take 34) s t →
      R { ctx with
        accountVerificationKey := key
        numberOfVerificationKeys := ctx.numberOfVerificationKeys - 1 } t)
    (hno : buffer.length < 34 → ∀ e, E e s) : wp (parseVerificationKey ctx buffer) R E s := by
  unfold parseVerificationKey keyLength
  rw [wp_bind, wp_throwIf]
  refine ⟨fun hlen => hno hlen _, fun hlen => ?_⟩
  rw [wp_bind, wp_slice]
  refine ⟨fun _ => ?_, fun hno => absurd (by omega) hno⟩
  rw [wp_bind]
  refine wp_updateHash_onto fun t ht => ?_
  rw [wp_bind, wp_slice]
  refine ⟨fun _ => ?_, fun hno => absurd (by omega) hno⟩
  rw [wp_bind]
  refine wp_updateHash_onto fun u hu => ?_
  rw [wp_bind, wp_slice]
  refine ⟨fun _ => ?_, fun hno => absurd (by omega) hno⟩
  rw [wp_bind]
  refine wp_updateHash_onto fun v hv => ?_
  rw [wp_bind]
  have hkey : ((buffer.drop 2).take 32).length = 32 := by
    rw [List.length_take, List.length_drop]
    omega
  refine wp_toPaginatedHex (fun hnil => by rw [hnil] at hkey; cases hkey) (by omega)
    (by rw [hkey]; decide) fun key _ => ?_
  rw [wp_pure]
  refine h key v (by omega) ?_
  have hparts : buffer.take 34 = (buffer.drop 0).take 1 ++ (buffer.drop 1).take 1 ++
      (buffer.drop 2).take 32 := by
    rw [List.drop_zero, show 34 = 1 + 1 + 32 from rfl, List.take_add, List.take_add]
  rw [hparts]
  exact (ht.trans hu).trans hv

omit [Platform] in
theorem CredentialPlace.takes_selector (h : p.Takes cmd) :
    p.state ≠ .unset ∧ p.state ≠ .initial ∧ p.state ≠ .awaitingVerificationKeyConfirm := by
  have hfits := h.fits
  unfold CredentialPlace.Fits at hfits
  refine ⟨fun hs => ?_, fun hs => ?_, fun hs => ?_⟩ <;> rw [hs] at hfits <;> exact hfits

theorem wp_credentialVerificationKey (g : CredentialGoal p cmd s Q E)
    (h : CredentialAt p (s.global.view SignCredentialDeploymentContext))
    (hp1 : cmd.p1 = SignCredentialDeploymentContext.p1VerificationKey) :
    wp (credentialVerificationKey cmd) Q E s := by
  unfold credentialVerificationKey
  rw [wp_bind, wp_getCtx]
  refine wp_if (fun hgo => ?_) fun hno => ?_
  · have hstate : p.state = .verificationKey := h.state.symm.trans hgo.2
    have hsize : p.size cmd.data = 34 := by unfold CredentialPlace.size; rw [hstate]
    have hkeys : p.keys ≠ 0 := by
      have := hgo.1
      rw [h.keys] at this
      omega
    have htakes (hlen : 34 ≤ cmd.data.length) : p.Takes cmd := by
      refine ⟨?_, by omega, ?_⟩
      · rw [hp1]; unfold CredentialPlace.selector; rw [hstate]
      · unfold CredentialPlace.Fits; rw [hstate]; exact hkeys
    have hpart : p.part cmd = cmd.data.take 34 :=
      CredentialPlace.part_of_size (by rw [hstate]; decide) hsize
    have hnext : p.next cmd.data = { p with
        state := if p.keys - 1 = 0 then .signatureThreshold else .verificationKey
        keys := p.keys - 1 } := by
      unfold CredentialPlace.next
      rw [hstate]
    rw [wp_bind]
    refine wp_parseVerificationKey (fun key t hlen ht => ?_) fun hlen e =>
      g.refused _ _ fun htakes => absurd htakes.size (by omega)
    have hcount : (s.global.view SignCredentialDeploymentContext).numberOfVerificationKeys - 1 =
        p.keys - 1 := by rw [h.keys]
    refine wp_if (fun hmore : 0 <
      (s.global.view SignCredentialDeploymentContext).numberOfVerificationKeys - 1 => ?_)
      fun hdone : ¬ 0 <
        (s.global.view SignCredentialDeploymentContext).numberOfVerificationKeys - 1 => ?_
    · rw [wp_bind, wp_setCtx]
      have shown {intro : Bool} : wp (uiVerificationKeyDisplay intro) Q E { t with
          global := Member.inject ({ s.global.view SignCredentialDeploymentContext with
            accountVerificationKey := key
            numberOfVerificationKeys :=
              (s.global.view SignCredentialDeploymentContext).numberOfVerificationKeys - 1
            state := .awaitingVerificationKeyConfirm
            showIntro := false } : SignCredentialDeploymentContext) } := by
        refine wp_uiVerificationKeyDisplay fun rows actions hactions => ?_
        refine g.reviewed { p with state := .awaitingVerificationKeyConfirm, keys := p.keys - 1 } _
          (htakes hlen) ht.reply ?_ (.key rfl (by dsimp only; omega) ?_ hactions)
        · rw [hpart]
          refine CredentialAt.moved ?_ ht rfl rfl rfl rfl rfl
          exact { h with state := rfl, keys := hcount }
        · rw [hnext, if_neg (by omega)]
      exact wp_if (fun _ => shown) fun _ => shown
    · rw [wp_bind, wp_setCtx]
      refine g.taken _ (htakes hlen) rfl ?_
      rw [hpart, hnext, if_pos (by omega)]
      refine CredentialAt.moved ?_ ht rfl rfl rfl rfl rfl
      exact { h with state := rfl, keys := hcount }
  · refine g.refused _ _ fun htakes => hno ?_
    obtain ⟨hunset, hinitial, hawaiting⟩ := CredentialPlace.takes_selector htakes
    have hselector := hp1.symm.trans htakes.selector
    have hfits := htakes.fits
    unfold CredentialPlace.selector at hselector
    unfold CredentialPlace.Fits at hfits
    cases hs : p.state <;> rw [hs] at hselector hfits <;> first
      | exact ⟨by rw [h.keys]; exact Nat.pos_of_ne_zero hfits, h.state.trans hs⟩
      | exact absurd hs hawaiting
      | exact absurd hselector (by decide)

omit [Platform] in
theorem text_write_of_eq {n : ℕ} {b : Buf n} {bs text : Bytes} (hw : 0 + bs.length ≤ n)
    (hbs : bs = text ++ [0]) (h0 : 0 ∉ text) : (b.write 0 bs hw).text = text := by
  subst hbs
  exact Buf.text_write hw h0

omit [Platform] in
theorem record_parts {data : Bytes} : data.take 56 = data.take 1 ++ (data.drop 1).take 48 ++
    (data.drop 49).take 4 ++ (data.drop 53).take 1 ++ (data.drop 54).take 2 := by
  rw [show 56 = 1 + 48 + 4 + 1 + 2 from rfl]
  simp only [List.take_add]

omit [Platform] in
theorem part_of_record {data : Bytes} {k n : ℕ} (h : k + n ≤ 56) :
    ((data.take 56).drop k).take n = (data.drop k).take n := by
  rw [List.drop_take, List.take_take, Nat.min_eq_left (by omega)]

omit [Platform] in
theorem byte_decimal_length (bs : Bytes) (h : bs.length = 1) : (decimal (beNat bs)).length ≤ 3 :=
  decimal_length (by decide) ((beNat_lt bs).trans_le (by rw [h]; decide))

theorem wp_credentialSignatureThreshold (g : CredentialGoal p cmd s Q E)
    (h : CredentialAt p (s.global.view SignCredentialDeploymentContext))
    (hp1 : cmd.p1 = p.selector) (hstate : p.state = .signatureThreshold) :
    wp (credentialSignatureThreshold cmd) Q E s := by
  have hsize : p.size cmd.data = 56 := by unfold CredentialPlace.size; rw [hstate]
  have hfits : p.Fits cmd.data ↔
      p.keys = 0 ∧ (decimal (identityProviderOf cmd.data)).length ≤ 9 := by
    unfold CredentialPlace.Fits
    rw [hstate]
  have hshort {n : ℕ} (hn : n < 56) (hlen : cmd.data.length ≤ n) : ¬ p.Takes cmd := fun htakes => by
    have := htakes.size
    omega
  have hnext : p.next cmd.data = { p with
      state := .arIdentity
      revokers := arCountOf cmd.data
      record := cmd.data.take 56
      entries := []
      provider := decimal (identityProviderOf cmd.data) ++
        p.provider.drop (decimal (identityProviderOf cmd.data)).length } := by
    unfold CredentialPlace.next
    rw [hstate]
  unfold credentialSignatureThreshold
  rw [wp_bind, wp_getCtx, wp_bind, wp_throwIf]
  refine ⟨fun hkeys => g.refused _ _ fun htakes => hkeys ?_, fun hkeys => ?_⟩
  · rw [h.keys]
    exact (hfits.mp htakes.fits).1
  have hkeys : p.keys = 0 := h.keys ▸ not_not.mp hkeys
  rw [wp_bind]
  refine wp_hashField (fun t₁ h₁ ht₁ => ?_) fun hlen => g.refused _ _ (hshort (n := 0) (by decide)
    (by omega))
  have hthreshold := byte_decimal_length (cmd.data.take 1) (by rw [List.length_take]; omega)
  dsimp only
  rw [wp_bind]
  refine wp_binToDec_fits (by omega) ?_
  rw [wp_bind, wp_memmove]
  refine ⟨fun hw => ?_, fun hno => absurd (by simp; omega) hno⟩
  rw [wp_bind]
  refine wp_hashHexField (fun regIdCred t₂ h₂ ht₂ => ?_) fun hlen =>
    g.refused _ _ (hshort (n := 48) (by decide) (by rw [List.length_drop] at hlen; omega))
  dsimp only
  rw [wp_bind, List.drop_drop, show 1 + 48 = 49 from rfl]
  refine wp_hashField (fun t₃ h₃ ht₃ => ?_) fun hlen =>
    g.refused _ _ (hshort (n := 52) (by decide) (by rw [List.length_drop] at hlen; omega))
  dsimp only
  rw [wp_bind, List.drop_drop, show 49 + 4 = 53 from rfl]
  refine wp_numberToText (fun hprovider => ?_) fun hlong =>
    g.refused _ _ fun htakes => absurd (hfits.mp htakes.fits).2 (Nat.not_le.mpr hlong)
  rw [wp_bind, wp_memmove]
  refine ⟨fun hwp => ?_, fun hno => absurd (by omega) hno⟩
  rw [wp_bind]
  refine wp_hashField (fun t₄ h₄ ht₄ => ?_) fun hlen =>
    g.refused _ _ (hshort (n := 53) (by decide) (by rw [List.length_drop] at hlen; omega))
  rw [List.length_drop] at h₄
  have hart := byte_decimal_length ((cmd.data.drop 53).take 1)
    (by rw [List.length_take, List.length_drop]; omega)
  dsimp only
  rw [wp_bind, List.drop_drop, show 53 + 1 = 54 from rfl]
  refine wp_numberToText (fun _ => ?_) fun hlong => absurd hart (by omega)
  rw [wp_bind, wp_throwIf]
  refine ⟨fun hlong => absurd hart (by omega), fun _ => ?_⟩
  rw [wp_bind]
  refine wp_hashField (fun t₅ h₅ ht₅ => ?_) fun hlen =>
    g.refused _ _ (hshort (n := 55) (by decide) (by rw [List.length_drop] at hlen; omega))
  rw [List.length_drop] at h₅
  have hrevokers : (decimal (beNat ((cmd.data.drop 54).take 2))).length ≤ 5 :=
    decimal_length (by decide) ((beNat_lt _).trans_le (by
      rw [List.length_take, List.length_drop, Nat.min_eq_left (by omega)]; decide))
  have hout : (ascii " out of ").length = 8 := by decide
  dsimp only
  rw [wp_bind]
  refine wp_binToDec_fits (by rw [List.length_append, hout]; omega) ?_
  rw [wp_bind, wp_memmove]
  refine ⟨fun hwa => ?_, fun hno => absurd (by
    simp only [List.length_append, hout, List.length_singleton]; omega) hno⟩
  rw [wp_bind, wp_setCtx]
  have htakes : p.Takes cmd := ⟨hp1, by omega, hfits.mpr ⟨hkeys, hprovider⟩⟩
  have hne : cmd.data.take 56 ≠ [] := fun hnil => by
    have := congrArg List.length hnil
    rw [List.length_take, List.length_nil] at this
    omega
  have hthresholdOf : signatureThresholdOf (cmd.data.take 56) = beNat (cmd.data.take 1) := by
    rw [signatureThresholdOf, List.take_take]
    rfl
  have harOf : arThresholdOf (cmd.data.take 56) = beNat ((cmd.data.drop 53).take 1) := by
    rw [arThresholdOf, part_of_record (by decide)]
  have hcountOf : arCountOf (cmd.data.take 56) = beNat ((cmd.data.drop 54).take 2) := by
    rw [arCountOf, part_of_record (by decide)]
  refine g.taken _ htakes rfl ?_
  rw [CredentialPlace.part_of_size (by rw [hstate]; decide) hsize, hnext, record_parts]
  refine CredentialAt.moved ?_ ((((ht₁.trans ht₂).trans ht₃).trans ht₄).trans ht₅)
    rfl rfl rfl rfl rfl
  exact { h with
    state := rfl
    keys := h.keys
    revokers := rfl
    entries := rfl
    provider := by
      rw [Buf.write_bytes, h.provider, List.take_zero, List.nil_append, Nat.zero_add]
      rfl
    signatureThreshold := fun _ => by
      rw [← record_parts, hthresholdOf]
      exact Buf.text_write hw (zero_not_mem_decimal _)
    arThreshold := fun _ => by
      rw [← record_parts, harOf, hcountOf]
      exact text_write_of_eq hwa (List.append_assoc _ _ _).symm
        (List.not_mem_append (List.not_mem_append (zero_not_mem_decimal _) (by decide))
          (zero_not_mem_decimal _))
    digest := fun hno => absurd rfl hno }

theorem wp_credentialArIdentity (g : CredentialGoal p cmd s Q E)
    (h : CredentialAt p (s.global.view SignCredentialDeploymentContext))
    (hp1 : cmd.p1 = p.selector) (hstate : p.state = .arIdentity) :
    wp (credentialArIdentity cmd) Q E s := by
  have hsize : p.size cmd.data = 100 := by unfold CredentialPlace.size; rw [hstate]
  have hfits : p.Fits cmd.data ↔ p.revokers ≠ 0 := by unfold CredentialPlace.Fits; rw [hstate]
  have hshort {n : ℕ} (hn : n < 100) (hlen : cmd.data.length ≤ n) : ¬ p.Takes cmd :=
    fun htakes => by
      have := htakes.size
      omega
  have hnext : p.next cmd.data = { p with
      state := if p.revokers = 1 then .credentialDates else .arIdentity
      revokers := p.revokers - 1
      entries := p.entries ++ cmd.data.take 100 } := by
    unfold CredentialPlace.next
    rw [hstate]
  unfold credentialArIdentity
  rw [wp_bind, wp_getCtx, wp_bind, wp_throwIf]
  refine ⟨fun hnone => g.refused _ _ fun htakes => hfits.mp htakes.fits (h.revokers ▸ hnone),
    fun hsome => ?_⟩
  rw [h.revokers] at hsome
  rw [wp_bind]
  refine wp_hashField (fun t₁ h₁ ht₁ => ?_) fun hlen => g.refused _ _ (hshort (n := 3) (by decide)
    (by omega))
  dsimp only
  rw [wp_bind]
  refine wp_formatHexInto (by rw [List.length_take]; omega) fun arIdentity _ => ?_
  rw [wp_bind]
  refine wp_hashField (fun t₂ h₂ ht₂ => ?_) fun hlen =>
    g.refused _ _ (hshort (n := 99) (by decide) (by rw [List.length_drop] at hlen; omega))
  rw [List.length_drop] at h₂
  dsimp only
  rw [wp_bind]
  refine wp_formatHexInto (by rw [List.length_take]; omega) fun encIdCredPubShare _ => ?_
  have htakes : p.Takes cmd := ⟨hp1, by omega, hfits.mpr hsome⟩
  have hparts : cmd.data.take 100 = cmd.data.take 4 ++ (cmd.data.drop 4).take 96 := by
    rw [show 100 = 4 + 96 from rfl, List.take_add]
  have hentries : (s.global.view SignCredentialDeploymentContext).arListHashCtx ++
      cmd.data.take 4 ++ (cmd.data.drop 4).take 96 = p.entries ++ cmd.data.take 100 := by
    rw [h.entries, hparts, List.append_assoc]
  have hpart : p.part cmd = cmd.data.take 4 ++ (cmd.data.drop 4).take 96 :=
    (CredentialPlace.part_of_size (by rw [hstate]; decide) hsize).trans hparts
  refine wp_if (fun hone : _ = 1 => ?_) fun hmany : ¬ _ = 1 => ?_
  · rw [h.revokers] at hone
    rw [wp_bind]
    refine wp_formatHexInto (by rw [Buf.bytes_length]) fun arListHashDisplay hdisplay => ?_
    rw [wp_bind, wp_setCtx]
    refine g.taken _ htakes rfl ?_
    rw [hpart, hnext, if_pos hone]
    refine CredentialAt.moved ?_ (ht₁.trans ht₂) rfl rfl rfl rfl rfl
    exact { h with
      state := rfl
      revokers := by dsimp only; omega
      entries := hentries
      digest := fun _ _ => by rw [hdisplay, hentries] }
  · rw [h.revokers] at hmany
    rw [wp_bind, wp_setCtx]
    refine g.taken _ htakes rfl ?_
    rw [hpart, hnext, if_neg hmany]
    refine CredentialAt.moved ?_ (ht₁.trans ht₂) rfl rfl rfl rfl rfl
    exact { h with
      state := h.state.trans hstate
      revokers := congrArg (· - 1) h.revokers
      entries := hentries
      digest := fun _ hnone => by dsimp only at hnone; omega }

theorem wp_credentialDates (g : CredentialGoal p cmd s Q E)
    (h : CredentialAt p (s.global.view SignCredentialDeploymentContext))
    (hp1 : cmd.p1 = p.selector) (hstate : p.state = .credentialDates) :
    wp (credentialDates cmd) Q E s := by
  have hsize : p.size cmd.data = 8 := by unfold CredentialPlace.size; rw [hstate]
  have hfits : p.Fits cmd.data := by unfold CredentialPlace.Fits; rw [hstate]; trivial
  have hnext : p.next cmd.data = { p with
      state := if beNat ((cmd.data.drop 6).take 2) = 0 then .lengthOfProofs else .attributeTag
      attributes := beNat ((cmd.data.drop 6).take 2) } := by
    unfold CredentialPlace.next
    rw [hstate]
  unfold credentialDates
  rw [wp_bind]
  refine wp_hashField (fun t₁ h₁ ht₁ => ?_) fun hlen =>
    g.refused _ _ fun htakes => absurd htakes.size (by omega)
  dsimp only
  rw [wp_bind]
  refine wp_hashField (fun t₂ h₂ ht₂ => ?_) fun hlen => g.refused _ _ fun htakes =>
    absurd htakes.size (by rw [List.length_drop] at hlen; omega)
  rw [List.length_drop] at h₂
  dsimp only
  rw [wp_bind, wp_modifyCtx]
  have ht := ht₁.trans ht₂
  have hpart : p.part cmd = cmd.data.take 6 ++ (cmd.data.drop 6).take 2 := by
    rw [CredentialPlace.part_of_size (by rw [hstate]; decide) hsize, show 8 = 6 + 2 from rfl,
      List.take_add]
  refine g.taken _ ⟨hp1, by omega, hfits⟩ rfl ?_
  rw [hpart, hnext]
  refine CredentialAt.moved ?_ ht rfl rfl rfl ?_ ?_
  · rw [ht.global]
    exact { h with state := rfl, attributes := rfl }
  · rw [ht.global]
  · rw [ht.global]

omit [Platform] in
theorem attributeNames_length : ∀ name ∈ attributeNames, name.length ≤ 24 := by decide

omit [Platform] in
/-- Every tag has a name that fits. -/
theorem wp_attributeNameForTag {tag : UInt8} {R : Buf 24 → World → Prop}
    (h : ∀ name, R name s) : wp (attributeNameForTag tag) R E s := by
  unfold attributeNameForTag
  cases hname : attributeNames[tag.toNat]? with
  | some name =>
    dsimp only
    rw [wp_memmove]
    refine ⟨fun _ => h _, fun hno => absurd ?_ hno⟩
    have := attributeNames_length name (List.mem_of_getElem? hname)
    omega
  | none =>
    have htag : (decimal tag.toNat).length ≤ 3 :=
      decimal_length (by decide) (tag.toNat_lt.trans (by decide))
    have hlabel : (ascii "Attribute #").length = 11 := by decide
    dsimp only
    rw [wp_bind]
    refine wp_binToDec_fits (by omega) ?_
    rw [wp_memmove]
    refine ⟨fun _ => h _, fun hno => absurd ?_ hno⟩
    simp only [List.length_append, hlabel, List.length_singleton]
    omega

theorem wp_credentialAttributeTag (g : CredentialGoal p cmd s Q E)
    (h : CredentialAt p (s.global.view SignCredentialDeploymentContext))
    (hp1 : cmd.p1 = p.selector) (hstate : p.state = .attributeTag) :
    wp (credentialAttributeTag cmd) Q E s := by
  have hsize : p.size cmd.data = 2 := by unfold CredentialPlace.size; rw [hstate]
  have hfits : p.Fits cmd.data ↔ p.attributes ≠ 0 := by unfold CredentialPlace.Fits; rw [hstate]
  have hnext : p.next cmd.data = { p with
      state := .attributeValue, valueLength := beNat ((cmd.data.drop 1).take 1) } := by
    unfold CredentialPlace.next
    rw [hstate]
  unfold credentialAttributeTag
  rw [wp_bind, wp_getCtx, wp_bind, wp_throwIf]
  refine ⟨fun hnone => g.refused _ _ fun htakes => hfits.mp htakes.fits (h.attributes ▸ hnone),
    fun hsome => ?_⟩
  rw [h.attributes] at hsome
  rw [wp_bind]
  refine wp_hashField (fun t₁ h₁ ht₁ => ?_) fun hlen =>
    g.refused _ _ fun htakes => absurd htakes.size (by omega)
  dsimp only
  rw [wp_bind]
  refine wp_attributeNameForTag fun attributeName => ?_
  rw [wp_bind]
  refine wp_hashField (fun t₂ h₂ ht₂ => ?_) fun hlen => g.refused _ _ fun htakes =>
    absurd htakes.size (by rw [List.length_drop] at hlen; omega)
  rw [List.length_drop] at h₂
  dsimp only
  rw [wp_bind, wp_setCtx]
  have hpart : p.part cmd = cmd.data.take 1 ++ (cmd.data.drop 1).take 1 := by
    rw [CredentialPlace.part_of_size (by rw [hstate]; decide) hsize, show 2 = 1 + 1 from rfl,
      List.take_add]
  refine g.taken _ ⟨hp1, by omega, hfits.mpr hsome⟩ rfl ?_
  rw [hpart, hnext]
  refine CredentialAt.moved ?_ (ht₁.trans ht₂) rfl rfl rfl rfl rfl
  exact { h with state := rfl, valueLength := rfl }

theorem wp_credentialAttributeValue (g : CredentialGoal p cmd s Q E)
    (h : CredentialAt p (s.global.view SignCredentialDeploymentContext))
    (hp1 : cmd.p1 = p.selector) (hstate : p.state = .attributeValue) :
    wp (credentialAttributeValue cmd) Q E s := by
  have hsize : p.size cmd.data = p.valueLength := by unfold CredentialPlace.size; rw [hstate]
  have hfits : p.Fits cmd.data ↔ isDisplayableText (cmd.data.take p.valueLength) = true := by
    unfold CredentialPlace.Fits
    rw [hstate]
  have hnext : p.next cmd.data = { p with
      state := if p.attributes - 1 = 0 then .lengthOfProofs else .attributeTag
      attributes := p.attributes - 1 } := by
    unfold CredentialPlace.next
    rw [hstate]
  unfold credentialAttributeValue
  rw [wp_bind, wp_getCtx, wp_bind, h.valueLength]
  refine wp_hashField (fun t hlen ht => ?_) fun hlen =>
    g.refused _ _ fun htakes => absurd htakes.size (by omega)
  dsimp only
  rw [wp_bind, wp_throwIf]
  refine ⟨fun hbad => g.refused _ _ fun htakes => ?_, fun hgood => ?_⟩
  · rw [hfits.mp htakes.fits] at hbad
    cases hbad
  have htakes : p.Takes cmd := by
    refine ⟨hp1, by omega, hfits.mpr ?_⟩
    rw [Bool.not_eq_true'] at hgood
    exact Bool.eq_true_of_not_eq_false hgood
  have hdata := cmd.lc_le
  rw [wp_bind, wp_memmove]
  refine ⟨fun _ => ?_, fun hno => absurd ?_ hno⟩
  · rw [wp_bind, wp_setCtx]
    refine wp_uiSignCredentialDeploymentAttributeDisplay fun rows actions hactions => ?_
    refine g.reviewed p _ htakes ht.reply ?_ (.value hstate hnext hactions)
    rw [CredentialPlace.part_of_size (by rw [hstate]; decide) hsize]
    refine CredentialAt.moved ?_ ht rfl rfl rfl rfl rfl
    exact { h with valueLength := rfl }
  · rw [List.length_append, List.length_take, List.length_singleton]
    omega

theorem wp_credentialLengthOfProofs (g : CredentialGoal p cmd s Q E)
    (h : CredentialAt p (s.global.view SignCredentialDeploymentContext))
    (hp1 : cmd.p1 = p.selector) (hstate : p.state = .lengthOfProofs) :
    wp (credentialLengthOfProofs cmd) Q E s := by
  have hsize : p.size cmd.data = 4 := by unfold CredentialPlace.size; rw [hstate]
  have hfits : p.Fits cmd.data := by unfold CredentialPlace.Fits; rw [hstate]; trivial
  have hnext : p.next cmd.data =
      { p with state := .proofs, proofs := beNat (cmd.data.take 4) } := by
    unfold CredentialPlace.next
    rw [hstate]
  unfold credentialLengthOfProofs
  rw [wp_bind, wp_throwIf]
  refine ⟨fun hlen => g.refused _ _ fun htakes => absurd htakes.size (by omega), fun hlen => ?_⟩
  rw [wp_bind, wp_u4be]
  refine ⟨fun _ => ?_, fun hno => absurd (by omega) hno⟩
  have finish {bs : Bytes} {t : World} (ht : HashedOnto bs s t) (hbs : p.part cmd = bs) :
      wp (do
        modifyCtx fun ctx : SignCredentialDeploymentContext =>
          { ctx with proofLength := beNat ((cmd.data.drop 0).take 4), state := .proofs }
        sendSuccessNoIdle) Q E t := by
    rw [wp_bind, wp_modifyCtx]
    refine g.taken _ ⟨hp1, by omega, hfits⟩ rfl ?_
    rw [hbs, hnext]
    refine CredentialAt.moved ?_ ht rfl rfl rfl ?_ ?_
    · rw [ht.global]
      exact { h with state := rfl, proofs := rfl }
    · rw [ht.global]
    · rw [ht.global]
  refine wp_if (fun hp2 => ?_) fun hp2 => ?_
  · rw [wp_bind, wp_slice]
    refine ⟨fun _ => ?_, fun hno => absurd (by omega) hno⟩
    rw [wp_bind]
    refine wp_updateHash_onto fun t ht => finish ht ?_
    rw [CredentialPlace.part_length hstate, if_pos hp2]
    rfl
  · refine @finish [] _ ⟨rfl, rfl, rfl, (List.append_nil _).symm, rfl⟩ ?_
    rw [CredentialPlace.part_length hstate, if_neg hp2]

theorem wp_credentialProofs (g : CredentialGoal p cmd s Q E)
    (h : CredentialAt p (s.global.view SignCredentialDeploymentContext))
    (hp1 : cmd.p1 = p.selector) (hstate : p.state = .proofs) :
    wp (credentialProofs cmd) Q E s := by
  have hsize : p.size cmd.data =
      if maxCdataLength < p.proofs then maxCdataLength else p.proofs := by
    unfold CredentialPlace.size
    rw [hstate]
  have hfits : p.Fits cmd.data := by unfold CredentialPlace.Fits; rw [hstate]; trivial
  have hnext : p.next cmd.data =
      if maxCdataLength < p.proofs then { p with proofs := p.proofs - maxCdataLength }
      else { p with state := .newOrExisting } := by
    unfold CredentialPlace.next
    rw [hstate]
  unfold credentialProofs
  rw [wp_bind, wp_getCtx, h.proofs]
  refine wp_if (fun hmore => ?_) fun hlast => ?_
  · rw [if_pos hmore] at hsize hnext
    rw [wp_bind]
    refine wp_hashField (fun t hlen ht => ?_) fun hlen =>
      g.refused _ _ fun htakes => absurd htakes.size (by omega)
    rw [wp_bind, wp_setCtx]
    refine g.taken _ ⟨hp1, by omega, hfits⟩ rfl ?_
    rw [CredentialPlace.part_of_size (by rw [hstate]; decide) hsize, hnext]
    refine CredentialAt.moved ?_ ht rfl rfl rfl rfl rfl
    generalize p.proofs - maxCdataLength = proofs
    exact { h with proofs := rfl }
  · rw [if_neg hlast] at hsize hnext
    rw [wp_bind]
    refine wp_hashField (fun t hlen ht => ?_) fun hlen =>
      g.refused _ _ fun htakes => absurd htakes.size (by omega)
    have htakes : p.Takes cmd := ⟨hp1, by omega, hfits⟩
    have hpart : p.part cmd = _ := CredentialPlace.part_of_size (by rw [hstate]; decide) hsize
    refine wp_if (fun hadded => ?_) fun _ => ?_
    · refine wp_uiSignUpdateCredentialAddedCredentialDisplay fun rows actions hactions hshown => ?_
      rw [ht.global] at hshown
      refine g.reviewed p _ htakes ht.reply ⟨ht.latch, hpart ▸ ht.hash, ?_, ?_, ?_⟩
        (.added hstate hnext ?_ ?_ hactions ?_)
      · rwa [ht.global]
      · rw [ht.global]
      · rw [ht.global]
      · rw [ht.global]
        exact hadded.2.1
      · rw [ht.global]
        exact hadded.2.2
      · rwa [ht.global]
    · rw [wp_bind, wp_setCtx]
      refine g.taken _ htakes rfl ?_
      rw [hpart, hnext]
      refine CredentialAt.moved ?_ ht rfl rfl rfl rfl rfl
      exact { h with state := rfl, proofs := rfl }

theorem wp_credentialNewOrExisting (g : CredentialGoal p cmd s Q E)
    (h : CredentialAt p (s.global.view SignCredentialDeploymentContext))
    (hp1 : cmd.p1 = p.selector) (hstate : p.state = .newOrExisting) :
    wp (credentialNewOrExisting cmd) Q E s := by
  have hsize : p.size cmd.data = if cmd.data.take 1 = [0] then 9 else 33 := by
    unfold CredentialPlace.size
    rw [hstate]
  have hfits : p.Fits cmd.data ↔ cmd.data.take 1 = [0] ∨ cmd.data.take 1 = [1] := by
    unfold CredentialPlace.Fits
    rw [hstate]
  have hnext : p.next cmd.data = p := by unfold CredentialPlace.next; rw [hstate]
  have hstop (e : Exception) (t : World) : E e t := g.unaddressed e t hstate
  -- Either review shows the fields that the context had before.
  have shown {bs : Bytes} {u : World} {existing intro : Bool} (htakes : p.Takes cmd)
      (hbs : p.part cmd = bs) (hr : u.replyPending = s.replyPending)
      (hu : CredentialMoved p bs s u) : wp (uiCredentialDeploymentFinal existing intro) Q E u := by
    refine wp_uiCredentialDeploymentFinal fun rows actions hactions hshown => ?_
    refine g.reviewed p _ htakes hr ?_ (.final hstate hnext hactions hshown)
    rw [hbs]
    exact ⟨hu.latch, hu.hash, hu.place, hu.stage, hu.count⟩
  unfold credentialNewOrExisting
  rw [wp_bind, wp_getCtx, wp_bind]
  refine wp_hashField (fun t₁ h₁ ht₁ => ?_) fun _ => hstop _ _
  dsimp only
  refine wp_if (fun hnew => ?_) fun hold => wp_if (fun hexisting => ?_) fun _ => hstop _ _
  · rw [if_pos hnew] at hsize
    rw [wp_bind]
    refine wp_hashField (fun t₂ h₂ ht₂ => ?_) fun _ => hstop _ _
    rw [List.length_drop] at h₂
    have htakes : p.Takes cmd := ⟨hp1, by omega, hfits.mpr (.inl hnew)⟩
    have hpart : p.part cmd = cmd.data.take 1 ++ (cmd.data.drop 1).take 8 := by
      rw [CredentialPlace.part_of_size (by rw [hstate]; decide) hsize, show 9 = 1 + 8 from rfl,
        List.take_add]
    have ht := ht₁.trans ht₂
    have hmoved : CredentialMoved p (cmd.data.take 1 ++ (cmd.data.drop 1).take 8) s t₂ :=
      ⟨ht.latch, ht.hash, by rwa [ht.global], by rw [ht.global], by rw [ht.global]⟩
    exact wp_if (fun _ => shown htakes hpart ht.reply hmoved) fun _ =>
      shown htakes hpart ht.reply hmoved
  · rw [if_neg hold] at hsize
    rw [wp_bind, wp_throwIf]
    refine ⟨fun _ => hstop _ _, fun h₂ => ?_⟩
    rw [List.length_drop] at h₂
    rw [wp_bind, wp_slice]
    refine ⟨fun _ => ?_, fun _ => hstop _ _⟩
    rw [wp_bind, List.drop_zero]
    refine wp_base58Address (fun _ => hstop _ _) (fun _ => hstop _ _) fun accountAddress _ _ => ?_
    rw [wp_bind]
    refine wp_updateHash_onto fun t₂ ht₂ => ?_
    rw [wp_bind, wp_setCtx]
    have htakes : p.Takes cmd := ⟨hp1, by omega, hfits.mpr (.inr hexisting)⟩
    have hpart : p.part cmd = cmd.data.take 1 ++ (cmd.data.drop 1).take 32 := by
      rw [CredentialPlace.part_of_size (by rw [hstate]; decide) hsize, show 33 = 1 + 32 from rfl,
        List.take_add]
    have ht := ht₁.trans ht₂
    have hmoved (g' : SignCredentialDeploymentContext) (hg : g' =
        { s.global.view SignCredentialDeploymentContext with accountAddress := accountAddress }) :
        CredentialMoved p (cmd.data.take 1 ++ (cmd.data.drop 1).take 32) s
          { t₂ with global := Member.inject g' } := by
      subst hg
      refine CredentialAt.moved ?_ ht rfl rfl rfl rfl rfl
      exact { h with state := h.state }
    exact wp_if (fun _ => shown htakes hpart ht.reply (hmoved _ rfl)) fun _ =>
      shown htakes hpart ht.reply (hmoved _ rfl)

/-- A packet at a place; the key path is taken at none. -/
theorem wp_handleSignCredentialDeployment (g : CredentialGoal p cmd s Q E)
    (h : CredentialAt p (s.global.view SignCredentialDeploymentContext))
    (hpath : p.state = .initial → cmd.p1 = SignCredentialDeploymentContext.p1InitialPacket →
      wp (credentialInitial cmd) Q E s) :
    wp (handleSignCredentialDeployment cmd false) Q E s := by
  have selects {state : ProtocolState} {p1 : UInt8}
      (hgo : cmd.p1 = p1 ∧ (s.global.view SignCredentialDeploymentContext).state = state)
      (hp1 : ({ p with state := state } : CredentialPlace).selector = p1) :
      cmd.p1 = p.selector ∧ p.state = state := by
    have hstate := h.state.symm.trans hgo.2
    refine ⟨hgo.1.trans (hp1.symm.trans ?_), hstate⟩
    rw [← hstate]
  unfold handleSignCredentialDeployment
  rw [if_neg Bool.false_ne_true]
  change wp (getCtx SignCredentialDeploymentContext >>= _) _ _ _
  rw [wp_bind, wp_getCtx]
  refine wp_if (fun hgo => hpath (h.state.symm.trans hgo.2) hgo.1) fun _ => ?_
  refine wp_if (fun hgo => ?_) fun hkeysLength => ?_
  · obtain ⟨hp1, hstate⟩ := selects hgo rfl
    exact wp_credentialVerificationKeyLength g h hp1 hstate
  refine wp_if (fun hp1 => wp_credentialVerificationKey g h hp1) fun hkey => ?_
  refine wp_if (fun hgo => ?_) fun hthreshold => ?_
  · obtain ⟨hp1, hstate⟩ := selects hgo rfl
    exact wp_credentialSignatureThreshold g h hp1 hstate
  refine wp_if (fun hgo => ?_) fun har => ?_
  · obtain ⟨hp1, hstate⟩ := selects hgo rfl
    exact wp_credentialArIdentity g h hp1 hstate
  refine wp_if (fun hgo => ?_) fun hdates => ?_
  · obtain ⟨hp1, hstate⟩ := selects hgo rfl
    exact wp_credentialDates g h hp1 hstate
  refine wp_if (fun hgo => ?_) fun htag => ?_
  · obtain ⟨hp1, hstate⟩ := selects hgo rfl
    exact wp_credentialAttributeTag g h hp1 hstate
  refine wp_if (fun hgo => ?_) fun hvalue => ?_
  · obtain ⟨hp1, hstate⟩ := selects hgo rfl
    exact wp_credentialAttributeValue g h hp1 hstate
  refine wp_if (fun hgo => ?_) fun hlength => ?_
  · obtain ⟨hp1, hstate⟩ := selects hgo rfl
    exact wp_credentialLengthOfProofs g h hp1 hstate
  refine wp_if (fun hgo => ?_) fun hproofs => ?_
  · obtain ⟨hp1, hstate⟩ := selects hgo rfl
    exact wp_credentialProofs g h hp1 hstate
  refine wp_if (fun hgo => ?_) fun hchoice => ?_
  · obtain ⟨hp1, hstate⟩ := selects hgo rfl
    exact wp_credentialNewOrExisting g h hp1 hstate
  -- No branch was for the state and `P1`.
  refine g.refused _ _ fun htakes => ?_
  obtain ⟨hunset, -, hawaiting⟩ := CredentialPlace.takes_selector htakes
  have hselector := htakes.selector
  unfold CredentialPlace.selector at hselector
  rw [h.state] at *
  cases hs : p.state <;> rw [hs] at hselector <;> simp_all

theorem wp_handleSignCredentialDeployment_first
    (h : wp (handleSignCredentialDeployment cmd false) Q E { s with
      global := Member.inject { s.global.view SignCredentialDeploymentContext with
        state := .initial } }) : wp (handleSignCredentialDeployment cmd true) Q E s := by
  unfold handleSignCredentialDeployment at h ⊢
  rw [if_neg Bool.false_ne_true] at h
  rw [if_pos rfl, wp_bind, wp_modifyCtx]
  exact h

end Packets

/-! ## Answers -/

section Answers
variable [Platform] {p q r : CredentialPlace} {s t : World} {c : Callback}

theorem wp_uxRunGuarded {x : App Unit} {P : World → Prop}
    (h : wp x (fun _ t => P t) (fun _ _ => True) s) (hfree : ∀ t, t.latch = none → P t) :
    wp (uxRunGuarded x) (fun _ t => P t) (fun _ _ => True) s := by
  unfold uxRunGuarded
  rw [wp_catching]
  refine wp_mono (fun _ _ hP => hP) (fun _ _ _ => ⟨fun sw _ => ?_, fun _ => trivial⟩) h
  rw [wp_bind, wp_endFlow, wp_uiMenuMain]
  exact hfree _ rfl

theorem CredentialAt.kept (h : CredentialAt p (s.global.view SignCredentialDeploymentContext))
    (hl : t.latch = s.latch) (hg : t.global = s.global)
    (hh : t.txState.hash = s.txState.hash) : CredentialMoved p [] s t :=
  ⟨hl, by rw [hh, List.append_nil], by rwa [hg], by rw [hg], by rw [hg]⟩

theorem CredentialReview.same (hr : CredentialReview q r s) : q.record = r.record ∧
    q.entries = r.entries ∧ q.provider = r.provider := by
  cases hr with
  | key _ _ hr | value _ hr | added _ hr | final _ hr => rw [hr]; exact ⟨rfl, rfl, rfl⟩

/-- Whoever answers the review of a field ends the flow, goes on from the
    review, or passes the intro of a key, which leads nowhere. -/
theorem CredentialReview.answered (hr : CredentialReview q r s)
    (h : CredentialAt q (s.global.view SignCredentialDeploymentContext))
    (hc : c ∈ s.screen.actions) (hne : c ≠ .confirmAddedCredential) :
    wp (runCallback c) (fun _ t => t.latch = none ∨ t.replyPending = false ∧
      ∃ p, (p = r ∨ p = q ∧ q.state = .awaitingVerificationKeyConfirm ∧ c = .sendSuccessNoIdle) ∧
        CredentialMoved p [] s t)
      (fun _ _ => True) (s.activated c) := by
  cases hr with
  | key hq hkeys hr actions =>
    rcases actions c hc with rfl | rfl | rfl
    · change wp (ioSendResponse [] swoSuccess) _ _ _
      rw [wp_ioSendResponse]
      exact .inr ⟨rfl, q, .inr ⟨rfl, hq, rfl⟩, h.kept rfl rfl rfl⟩
    · refine wp_uxRunGuarded ?_ fun t ht => .inl ht
      unfold processNextVerificationKey
      rw [wp_bind, wp_modifyCtx]
      refine .inr ⟨rfl, r, .inl rfl, rfl, (List.append_nil _).symm, ?_, ?_, ?_⟩ <;>
        rw [InstructionContext.view_inject]
      · have h' : CredentialAt q ((s.activated .processNextVerificationKey).global.view
            SignCredentialDeploymentContext) := h
        rw [hr, h'.keys, if_neg hkeys]
        exact { h' with state := rfl, keys := rfl }
      all_goals rfl
    · change wp rejectStagedReview _ _ _
      unfold rejectStagedReview
      rw [wp_bind, wp_releaseInstruction, wp_sendUserRejection]
      exact .inl rfl
  | value hq hr actions =>
    rcases actions c hc with rfl | rfl
    · refine wp_uxRunGuarded ?_ fun t ht => .inl ht
      unfold confirmAttribute
      rw [wp_bind, wp_getCtx, wp_bind, wp_throwIf]
      refine ⟨fun _ => trivial, fun _ => ?_⟩
      rw [wp_bind, wp_setCtx]
      refine .inr ⟨rfl, r, .inl rfl, rfl, (List.append_nil _).symm, ?_, ?_, ?_⟩ <;>
        rw [InstructionContext.view_inject]
      · have h' : CredentialAt q ((s.activated .confirmAttribute).global.view
            SignCredentialDeploymentContext) := h
        rw [hr, h'.attributes]
        exact { h' with state := rfl, attributes := rfl }
      all_goals rfl
    · change wp sendUserRejection _ _ _
      rw [wp_sendUserRejection]
      exact .inl rfl
  | added hq hr stage count actions =>
    rcases actions c hc with rfl | rfl
    · exact absurd rfl hne
    · change wp sendUserRejection _ _ _
      rw [wp_sendUserRejection]
      exact .inl rfl
  | final hq hr actions =>
    rcases actions c hc with rfl | hc
    · change wp (ioSendResponse [] swoSuccess) _ _ _
      rw [wp_ioSendResponse]
      exact .inr ⟨rfl, q, .inl hr.symm, h.kept rfl rfl rfl⟩
    · exact wp_mono (fun _ _ ht => .inl ht) (fun _ _ hE => hE) (wp_signFlowShared hc)

end Answers

end Concordium
