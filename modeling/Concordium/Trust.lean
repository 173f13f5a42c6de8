/-
  What SET_TRUSTED_NAME and VERIFY_ADDRESS do.

  SET_TRUSTED_NAME refuses, or stores a descriptor that has passed every check;
  VERIFY_ADDRESS refuses, or reviews the address the device derived or the one
  the stored descriptor is bound to.
-/
import Concordium.Library.Grants
import Concordium.Apart
import Concordium.Safety

namespace Concordium

open Buffer Wp Runs Grants

set_option synthInstance.maxSize 1000000
set_option synthInstance.maxHeartbeats 100000

/-! ## What the log says -/

/-- The challenge an event issues. -/
def Event.issues : Event → Option ℕ
  | .challengeIssued c => some c
  | _ => none

/-- SET_TRUSTED_NAME has been answered. -/
def Event.isSetAnswer : Event → Prop
  | .trustedNameSet _ | .trustedNameRefused => True
  | _ => False

/-- The descriptor an event stores. -/
def Event.stores : Event → Option TrustedNameTlvExtracted
  | .trustedNameSet tlv => some tlv
  | _ => none

theorem Event.eq_of_stores {e : Event} {tlv : TrustedNameTlvExtracted}
    (h : e.stores = some tlv) : e = .trustedNameSet tlv := by
  cases e <;> simp_all [Event.stores]

/-- `c` was issued last, and SET_TRUSTED_NAME has not been answered since. -/
abbrev CurrentChallenge (c : ℕ) (log : List Event) : Prop :=
  Standing Event.issues Event.isSetAnswer c log

/-- `tlv` is the descriptor that was stored last. -/
abbrev LastDescriptor (tlv : TrustedNameTlvExtracted) (log : List Event) : Prop :=
  Standing Event.stores (fun _ => False) tlv log

theorem Event.inert_challenge {e : Event} (h : e.isTrust = false) :
    Inert Event.issues Event.isSetAnswer e := by
  cases e <;> simp_all [Inert, Event.issues, Event.isSetAnswer, Event.isTrust]

theorem Event.inert_descriptor {e : Event} (h : e.isTrust = false) :
    Inert Event.stores (fun _ => False) e := by
  cases e <;> simp_all [Inert, Event.stores, Event.isTrust]

/-! ## Descriptors -/

/-- The entries a signature stands for. -/
def signedBytes (entries : List TlvData) : Bytes :=
  (entries.filter fun data => data.tag ≠ ccdTagDerSignature).flatMap TlvData.raw

/-- The curve of a signer's key. -/
def signerCurve (signerAlgo : UInt8) : Curve :=
  if signerAlgo = signerAlgoEddsaSha3256 ∨ signerAlgo = signerAlgoEddsaKeccak256 then .ed25519
  else .secp256k1

section Parse
variable [Platform] {entries : List TlvData} {ctx ctx' : TrustedNamePkiContext}

theorem ccdParseTlvFrom_hashCtx (h : ccdParseTlvFrom entries ctx = some ctx') :
    ctx'.hashCtx = ctx.hashCtx ++ signedBytes entries := by
  induction entries generalizing ctx with
  | nil =>
    obtain rfl : ctx = ctx' := by simpa [ccdParseTlvFrom] using h
    simp [signedBytes]
  | cons data rest ih =>
    unfold ccdParseTlvFrom at h
    split_ifs at h
    split at h
    · cases h
    · rw [ih h]
      by_cases hsig : data.tag = ccdTagDerSignature <;> simp [hCommon, signedBytes, hsig]

end Parse

/-- The stored descriptor is that of a payload. -/
structure Describes (d : TrustedName) (tlv : TrustedNameTlvExtracted) : Prop where
  name : d.name.text = tlv.name.text
  chainId : d.chainId = tlv.chainId
  addressLen : d.addressLen = (tlv.address.take 64).length
  address : d.address.bytes.take d.addressLen = tlv.address.take 64

/-! ## SET_TRUSTED_NAME -/

section SetTrustedName
variable [Platform] {cmd : Command} {s : World} {ctx : TrustedNamePkiContext}

theorem verifySignature_iff : verifySignature ctx = true ↔
    ∃ digest, finalizeMultiHash ctx.hashCtx ctx.tlv.signerAlgo = some digest ∧
      Platform.checkSignatureWithPki digest (signerCurve ctx.tlv.signerAlgo)
        ctx.tlv.signature = true := by
  unfold verifySignature
  cases finalizeMultiHash ctx.hashCtx ctx.tlv.signerAlgo with
  | none => simp
  | some digest => simp [signerCurve]

/-- The command is refused. -/
structure SetRefused (cmd : Command) (s t : World) : Prop where
  trusted : t.trusted = if (cmd.p1 ≠ 0 ∨ cmd.p2 ≠ 0) ∨ cmd.lc = 0 then s.trusted
    else { s.trusted with valid := false }
  storedChallenge : t.storedChallenge = 0
  log : t.log = s.log ++ [.released, .trustedNameRefused, .reply [] errorInvalidParam]

/-- Every check on the payload has passed. -/
structure SetAccepted (cmd : Command) (challenge : ℕ) (ctx : TrustedNamePkiContext) : Prop where
  parsed : ccdParseTlv cmd.data = some ctx
  fields : verifyFields ctx.tlv = true
  challenge : challenge ≠ 0 ∧ ctx.tlv.challenge = challenge
  signature : verifySignature ctx = true

/-- The descriptor is stored. -/
structure SetStored (ctx : TrustedNamePkiContext) (s t : World) : Prop where
  valid : t.trusted.valid = true
  describes : Describes t.trusted ctx.tlv
  storedChallenge : t.storedChallenge = 0
  log : ∃ events, t.log = s.log ++ .trustedNameSet ctx.tlv :: events ∧
    (∀ e ∈ events, e.isTrust = false) ∧ ∀ data sw, .reply data sw ∈ events → sw = swoSuccess

omit [Platform] in
theorem wp_refuseTrustedName {Q : Unit → World → Prop} {E : Exception → World → Prop} :
    wp refuseTrustedName Q E s = Q () { s with
      global := .trustedNamePki {}
      storedChallenge := 0
      replyPending := false
      txState := { s.txState with currentInstruction := none }
      log := s.log ++ [.released, .trustedNameRefused, .reply [] errorInvalidParam] } := by
  simp [refuseTrustedName, trustedNameSendSetError, eraseStoredChallenge, ioSendSw]
  rfl

omit [Platform] in
theorem wp_storeTrustedName {tlv : TrustedNameTlvExtracted} :
    wp (storeTrustedName tlv) (fun _ t => t.trusted.valid = true ∧ Describes t.trusted tlv ∧
        t.storedChallenge = 0 ∧ t.log = s.log ++ [.trustedNameSet tlv])
      (fun e _ => e = .fault) s := by
  simp only [storeTrustedName, eraseStoredChallenge, wp_bind, wp_memmove, wp_modify, wp_record]
  refine ⟨fun hname => ⟨fun haddr => ?_, fun _ => trivial⟩, fun _ => trivial⟩
  refine ⟨trivial, ⟨Buf.text_write hname (Buf.zero_not_mem_text _), rfl, rfl, ?_⟩, trivial,
    trivial⟩
  simp

theorem handleSetTrustedName_spec :
    wp (handleSetTrustedName cmd)
      (fun _ t => SetRefused cmd s t ∨
        ∃ ctx, SetAccepted cmd s.storedChallenge ctx ∧ SetStored ctx s t)
      (fun e _ => e = .fault) s := by
  have refuse {u : World} (hparams : ¬ ((cmd.p1 ≠ 0 ∨ cmd.p2 ≠ 0) ∨ cmd.lc = 0))
      (htrusted : u.trusted = { s.trusted with valid := false }) (hlog : u.log = s.log) :
      wp refuseTrustedName (fun _ t => SetRefused cmd s t ∨
        ∃ ctx, SetAccepted cmd s.storedChallenge ctx ∧ SetStored ctx s t)
        (fun e _ => e = .fault) u := by
    rw [wp_refuseTrustedName]
    exact .inl ⟨by rw [if_neg hparams]; exact htrusted, rfl, by rw [hlog]⟩
  unfold handleSetTrustedName
  refine wp_if (fun hp => ?_) fun hp => wp_if (fun hlc => ?_) fun hlc => ?_
  · simp only [trustedNameSendSetError, eraseStoredChallenge, ioSendSw, wp_bind, wp_modify,
      wp_releaseInstruction, wp_record, wp_ioSendResponse]
    exact .inl ⟨by rw [if_pos (.inl hp)], rfl, by simp⟩
  · simp only [trustedNameSendSetError, eraseStoredChallenge, ioSendSw, wp_bind, wp_modify,
      wp_releaseInstruction, wp_record, wp_ioSendResponse]
    exact .inl ⟨by rw [if_pos (.inr hlc)], rfl, by simp⟩
  have hparams : ¬ ((cmd.p1 ≠ 0 ∨ cmd.p2 ≠ 0) ∨ cmd.lc = 0) := fun h => h.elim hp hlc
  rw [wp_bind, wp_modify]
  cases hparse : ccdParseTlv cmd.data with
  | none => exact refuse hparams rfl rfl
  | some ctx =>
    simp only [wp_bind, wp_setCtx]
    refine wp_if (fun _ => refuse hparams rfl rfl) fun hfields => ?_
    rw [wp_bind, wp_get]
    refine wp_if (fun _ => refuse hparams rfl rfl) fun hchallenge => ?_
    refine wp_if (fun _ => refuse hparams rfl rfl) fun hsignature => ?_
    rw [wp_bind]
    refine wp_mono (fun _ u hu => ?_) (fun _ _ he => he) wp_storeTrustedName
    obtain ⟨hvalid, hdescribes, hzero, hlog⟩ := hu
    rw [wp_bind, wp_setCtx, wp_sendSuccess]
    refine .inr ⟨ctx, ⟨hparse, by simpa using hfields, ?_, by simpa using hsignature⟩,
      ⟨hvalid, hdescribes, hzero, ?_⟩⟩
    · unfold verifyChallenge at hchallenge
      split_ifs at hchallenge with hne
      · exact absurd rfl hchallenge
      · exact ⟨hne, by simpa using hchallenge⟩
    · refine ⟨[.reply [] swoSuccess, .released, .drawn (idleScreen u.txState.hash)], ?_, ?_, ?_⟩
      · simp [World.answered, hlog]
      · simp [Event.isTrust]
      · simp

end SetTrustedName

/-! ## VERIFY_ADDRESS -/

/-- The challenge is as before, and so is the descriptor, unless it is gone. -/
structure Forgets (s t : World) : Prop where
  trusted : t.trusted = s.trusted ∨ t.trusted.valid = false
  storedChallenge : t.storedChallenge = s.storedChallenge
  log : ∃ events, t.log = s.log ++ events ∧ ∀ e ∈ events, e.isTrust = false

instance : IsPreorder World Forgets where
  refl _ := ⟨.inl rfl, rfl, [], by simp⟩
  trans := by
    rintro s t u ⟨ht, hc, es, hlog, hes⟩ ⟨ht', hc', es', hlog', hes'⟩
    refine ⟨?_, hc'.trans hc, es ++ es', by rw [hlog', hlog]; simp, fun e he => ?_⟩
    · rcases ht' with ht' | ht'
      · rw [ht']; exact ht
      · exact .inr ht'
    · rcases List.mem_append.mp he with he | he
      · exact hes e he
      · exact hes' e he

instance (priority := low) {α : Type} {x : App α} [h : Frames Apart x] : Frames Forgets x :=
  h.mono fun _ _ h => ⟨.inl h.trusted, h.storedChallenge, h.log⟩

instance : Frames Forgets clearTrustedNameBinding where
  frames s := by
    rw [clearTrustedNameBinding, wp_modify]
    exact ⟨.inr rfl, rfl, [], by simp, by simp⟩

section VerifyAddress
variable [Platform] {cmd : Command} {s : World} {dp : DerivationPath}
  {network : DerivationPathNetwork} {credCounter : UInt32}

instance {sw : UInt16} : Frames Apart (refuseAddress sw) := by unfold refuseAddress; infer_instance

instance : Frames Apart uiVerifyAddress := by
  unfold uiVerifyAddress
  cases (Platform.backend : Backend) <;> infer_instance

instance {ctx : VerifyAddressContext} {address : Option (Buf 65)} :
    Frames Apart (reviewBoundAddress ctx address) := by
  cases address <;> unfold reviewBoundAddress <;> infer_instance

instance : Frames Forgets (reviewAddress dp network credCounter) := by
  unfold reviewAddress
  refine @frames_bind _ _ _ _ _ _ _ _ inferInstance fun w => ?_
  dsimp only
  infer_instance

instance : Frames Forgets (handleVerifyAddress cmd) := by
  unfold handleVerifyAddress
  refine @frames_bind _ _ _ _ _ _ _ _ inferInstance fun _ => ?_
  refine @frames_bind _ _ _ _ _ _ _ _ inferInstance fun _ => ?_
  refine @frames_bind _ _ _ _ _ _ _ _ inferInstance fun r => ?_
  rcases r with sw | ⟨dp, credCounter⟩ <;> infer_instance

/-- The address the device derives at a path for a credential counter. -/
def Derives (path : DerivationPath) (credCounter : UInt32) (address : Buf 65) : Prop :=
  ∃ u v, u.derivationPath = path ∧ blsComputeAddress credCounter (Buf.zero 65) u = .ok address v

/-- The device's public key at a path. -/
def PublicKeyAt (path : DerivationPath) (publicKey : Bytes) : Prop :=
  ∃ u v, getPublicKey path u = .ok publicKey v

/-- `44'/{919,1}'/idp'/id'/0'/counter'`. -/
def NamesOneAccount (path : DerivationPath) : Prop :=
  ∃ coinType ∈ [newMainnetCoinType, newTestnetCoinType], ∃ idp identity counter : UInt32,
    path.nodes = [newPurpose, coinType, idp, identity, 0, counter].map (· ||| hardenedBit)

/-- The address under review is the one a valid descriptor is bound to. -/
structure Binds (trusted : TrustedName) (dp : DerivationPath) (network : DerivationPathNetwork)
    (credCounter : UInt32) (address : Buf 65) : Prop where
  name : address.text = trusted.name.text
  chainId : expectedChainId network = some trusted.chainId
  addressLen : trusted.addressLen = keyLength
  publicKey : PublicKeyAt dp (trusted.address.bytes.take keyLength)
  account : dp.variant ≠ .full ∧ Derives dp credCounter address ∨
    dp.variant = .full ∧ fullPathNamesOneAccount dp = true

/-- What a review of VERIFY_ADDRESS shows, the descriptor being `trusted`. -/
def ReviewsAddress (trusted : TrustedName) (dp : DerivationPath)
    (network : DerivationPathNetwork) (credCounter : UInt32) (t : World) : Prop :=
  ∃ address : Buf 65, t.screen.rows.getLast? = some (row "Address" address.text) ∧
    (trusted.valid = false → Derives dp credCounter address) ∧
    (trusted.valid = true → Binds trusted dp network credCounter address)

theorem wp_uiVerifyAddress :
    wp uiVerifyAddress (fun _ t => t.trusted = s.trusted ∧ t.screen.rows.getLast? =
        some (row "Address" (s.global.view VerifyAddressContext).address.text))
      (fun _ _ => True) s := by
  unfold uiVerifyAddress
  simp only [wp_bind, wp_getCtx]
  cases (Platform.backend : Backend) <;> simp [World.screenOf]

omit [Platform] in
theorem pkiBindDescriptor_spec {trusted : TrustedName} {pub : Bytes} {bind : Bool}
    {address bound : Buf 65} (h : pkiBindDescriptor trusted pub network bind address = some bound) :
    expectedChainId network = some trusted.chainId ∧ trusted.addressLen = keyLength ∧
      pub = trusted.address.bytes.take keyLength ∧
      (bind = true → bound = address ∧ trusted.name.text = address.text) ∧
      (bind = false → bound = trusted.name) := by
  unfold pkiBindDescriptor at h
  split at h
  · cases h
  · rename_i chainId hchain
    split_ifs at h with h1 h2 h3 h4 h5
    · refine ⟨by rw [hchain, not_not.mp h1], not_not.mp h2, not_not.mp h3, fun _ => ⟨?_, ?_⟩, ?_⟩
      · exact (Option.some.inj h).symm
      · exact not_not.mp h5
      · simp [h4]
    · refine ⟨by rw [hchain, not_not.mp h1], not_not.mp h2, not_not.mp h3, ?_, fun _ => ?_⟩
      · simp [h4]
      · exact (Option.some.inj h).symm

theorem wp_refuseAddress {sw : UInt16} {Q : World → Prop} :
    wp (refuseAddress sw) (fun _ t => t.replyPending = true → Q t) (fun _ _ => True) s := by
  simp [refuseAddress]

/-- The review of the second half of the handler. -/
theorem reviewAddress_spec (hpath : s.derivationPath = dp)
    (haddress : (s.global.view VerifyAddressContext).address = Buf.zero 65) :
    wp (reviewAddress dp network credCounter) (fun _ t => t.replyPending = true →
      t.trusted.valid = false ∧ ReviewsAddress s.trusted dp network credCounter t)
      (fun _ _ => True) s := by
  unfold reviewAddress
  rw [wp_bind, wp_get]
  refine wp_if (fun _ => ?_) fun hfull => ?_
  · rw [wp_bind, clearTrustedNameBinding, wp_modify]
    exact wp_refuseAddress
  cases hnames : s.trusted.valid && dp.variant == .full with
  | false =>
    -- The device derives the address.
    have hvariant : s.trusted.valid = true → dp.variant ≠ .full := by
      intro hv; simpa [hv] using hnames
    simp only [Bool.not_false, if_true, wp_bind, wp_getCtx]
    rw [haddress]
    refine wp_reads _ (fun address hderived => ?_) fun _ _ => trivial
    have hderives : Derives dp credCounter address := ⟨s, s, hpath, hderived⟩
    rw [wp_bind, wp_setCtx]
    refine wp_if (fun hv => ?_) fun hv => ?_
    · rw [wp_bind]
      refine wp_reads _ (fun pub hpub => ?_) fun _ _ => trivial
      rw [wp_bind, wp_getCtx, wp_bind, clearTrustedNameBinding, wp_modify]
      simp only [InstructionContext.view_inject]
      cases hbind : pkiBindDescriptor s.trusted pub network true address with
      | none => exact wp_refuseAddress
      | some bound =>
        obtain ⟨hchain, hlen, hkey, hsame, -⟩ := pkiBindDescriptor_spec hbind
        obtain ⟨rfl, htext⟩ := hsame rfl
        rw [reviewBoundAddress, wp_bind, wp_setCtx]
        refine wp_mono (fun _ t ht _ => ?_) (fun _ _ _ => trivial) wp_uiVerifyAddress
        simp only [InstructionContext.view_inject] at ht
        refine ⟨by rw [ht.1], bound, ht.2, fun _ => hderives, fun _ => ?_⟩
        exact ⟨htext.symm, hchain, hlen, hkey ▸ ⟨_, _, hpub⟩, .inl ⟨hvariant hv, hderives⟩⟩
    · refine wp_mono (fun _ t ht _ => ?_) (fun _ _ _ => trivial) wp_uiVerifyAddress
      simp only [InstructionContext.view_inject] at ht
      refine ⟨by rw [ht.1]; simpa using hv, address, ht.2, fun _ => hderives, fun h => ?_⟩
      exact absurd h hv
  | true =>
    -- The descriptor names the address of a full path.
    obtain ⟨hv, hvariant⟩ : s.trusted.valid = true ∧ dp.variant = .full := by
      simpa using hnames
    have hshape : fullPathNamesOneAccount dp = true := by
      simpa [hnames] using hfull
    simp only [Bool.not_true, Bool.false_eq_true, if_false, hv, if_true]
    rw [wp_bind]
    refine wp_reads _ (fun pub hpub => ?_) fun _ _ => trivial
    rw [wp_bind, wp_getCtx, wp_bind, clearTrustedNameBinding, wp_modify]
    cases hbind : pkiBindDescriptor s.trusted pub network false
      (s.global.view VerifyAddressContext).address with
    | none => exact wp_refuseAddress
    | some bound =>
      obtain ⟨hchain, hlen, hkey, -, hname⟩ := pkiBindDescriptor_spec hbind
      obtain rfl := hname rfl
      rw [reviewBoundAddress, wp_bind, wp_setCtx]
      refine wp_mono (fun _ t ht _ => ?_) (fun _ _ _ => trivial) wp_uiVerifyAddress
      simp only [InstructionContext.view_inject] at ht
      refine ⟨by rw [ht.1], _, ht.2, fun h => absurd (hv.symm.trans h) (by decide), fun _ => ?_⟩
      exact ⟨rfl, hchain, hlen, hkey ▸ ⟨_, _, hpub⟩, .inr ⟨hvariant, hshape⟩⟩

/-- The path and the counter a command asks for. -/
def Requests (cmd : Command) (dp : DerivationPath) (credCounter : UInt32) : Prop :=
  ∃ u v, parseKeyPath cmd u = .ok (.ok (dp, credCounter)) v

/-- The instruction union is as before. -/
def SameGlobal (s t : World) : Prop := t.global = s.global

omit [Platform] in
instance : IsPreorder World SameGlobal where
  refl _ := rfl
  trans _ _ _ h h' := h'.trans h

omit [Platform] in
instance {dp : DerivationPath} : Frames SameGlobal (setDerivationPath dp) where
  frames s := by rw [wp_setDerivationPath]; rfl

omit [Platform] in
instance : Frames SameGlobal (parseKeyPath cmd) := by
  unfold parseKeyPath parseDerivationPathFull; infer_instance

/-- Whenever the handler has started a review. -/
theorem handleVerifyAddress_spec :
    wp (handleVerifyAddress cmd) (fun _ t => t.replyPending = true → t.trusted.valid = false ∧
      ∃ dp credCounter, Requests cmd dp credCounter ∧
        ReviewsAddress s.trusted dp.harden dp.network credCounter t)
      (fun _ _ => True) s := by
  unfold handleVerifyAddress
  rw [wp_bind, wp_setDerivationPath, wp_bind, wp_modifyCtx, wp_bind]
  have hframes : Frames (fun s t => Inner s t ∧ SameGlobal s t) (parseKeyPath cmd) :=
    Frames.and inferInstance inferInstance
  refine wp_frames_result (h := hframes) _ (fun parsed u hparsed hu => ?_) fun _ _ _ _ => trivial
  obtain ⟨hinner, hglobal⟩ := hu
  have haddress : (u.global.view VerifyAddressContext).address = Buf.zero 65 := by
    rw [hglobal]; simp
  have htrusted : u.trusted = s.trusted := hinner.trusted
  rcases parsed with sw | ⟨dp, credCounter⟩
  · rw [wp_sendRejection]
    exact fun h => absurd h Bool.false_ne_true
  · have hrequest : Requests cmd dp credCounter := ⟨_, _, hparsed⟩
    rw [wp_bind]
    refine wp_reads _ (fun networkText _ => ?_) fun _ _ => trivial
    rw [wp_bind]
    refine wp_reads _ (fun row _ => ?_) fun _ _ => trivial
    rw [wp_bind]
    refine wp_reads _ (fun displayLabel _ => ?_) fun _ _ => trivial
    rw [wp_bind, wp_modifyCtx, wp_bind, wp_setDerivationPath]
    refine wp_mono (fun _ t ht hp => ?_) (fun _ _ _ => trivial) (reviewAddress_spec rfl ?_)
    · obtain ⟨hvalid, hreview⟩ := ht hp
      rw [← htrusted]
      exact ⟨hvalid, dp, credCounter, hrequest, hreview⟩
    · simpa using haddress

end VerifyAddress

/-! ## Paths -/

section Paths
variable {cmd : Command} {dp : DerivationPath} {credCounter : UInt32}

@[simp] theorem harden_variant : dp.harden.variant = dp.variant := rfl

theorem parseDerivationPathLegacy_variant {cdata : Bytes} {s : World} :
    wp (parseDerivationPathLegacy cdata) (fun r _ => r.1.variant = .legacy)
      (fun _ _ => True) s := by
  simp [parseDerivationPathLegacy, checkLc, DerivationPath.ofNodes]

theorem parseDerivationPathNew_variant {cdata : Bytes} {mainnet : Bool} {s : World} :
    wp (parseDerivationPathNew cdata mainnet) (fun r _ => r.1.variant = .new)
      (fun _ _ => True) s := by
  simp [parseDerivationPathNew, checkLc, DerivationPath.ofNodes]

theorem parseDerivationPathFull_variant {cdata : Bytes} {s : World} :
    wp (parseDerivationPathFull cdata) (fun dp _ => dp.variant = .full) (fun _ _ => True) s := by
  simp [parseDerivationPathFull, parseDerivationPathFromBuffer, checkLc, DerivationPath.ofNodes]

/-- Only the full format carries a path of the host's own. -/
theorem Requests.variant (h : Requests cmd dp credCounter) :
    dp.variant = .full ↔ cmd.p1 = p1FullPath := by
  obtain ⟨u, v, hparsed⟩ := h
  have hspec : wp (parseKeyPath cmd) (fun r _ => ∀ dp c, r = .ok (dp, c) →
      (dp.variant = .full ↔ cmd.p1 = p1FullPath)) (fun _ _ => True) u := by
    have refused {sw : UInt16} : ∀ (dp : DerivationPath) (c : UInt32),
        .error sw = Except.ok (dp, c) →
      (dp.variant = DerivationPathVariant.full ↔ cmd.p1 = p1FullPath) := nofun
    have compact {v : DerivationPathVariant} {r : DerivationPath × UInt32} (hr : r.1.variant = v)
        (hv : v ≠ .full) (hp : cmd.p1 ≠ p1FullPath) : ∀ (dp : DerivationPath) (c : UInt32),
        (.ok r : Except UInt16 _) = .ok (dp, c) → (dp.variant = .full ↔ cmd.p1 = p1FullPath) := by
      rintro dp c ⟨rfl⟩
      exact iff_of_false (fun h => hv (hr.symm.trans h)) hp
    unfold parseKeyPath
    refine wp_if (fun h1 => wp_if (fun _ => refused) fun _ => ?_) fun _ =>
      wp_if (fun h1 => wp_if (fun _ => ?_) fun _ => wp_if (fun _ => ?_) fun _ => refused) fun _ =>
      wp_if (fun h1 => wp_if (fun _ => refused) fun _ => ?_) fun _ => refused
    · rw [wp_bind]
      exact wp_mono (fun _ _ hr => compact hr (by decide) (by rw [h1]; decide))
        (fun _ _ h => h) parseDerivationPathLegacy_variant
    · rw [wp_bind]
      exact wp_mono (fun _ _ hr => compact hr (by decide) (by rw [h1]; decide))
        (fun _ _ h => h) parseDerivationPathNew_variant
    · rw [wp_bind]
      exact wp_mono (fun _ _ hr => compact hr (by decide) (by rw [h1]; decide))
        (fun _ _ h => h) parseDerivationPathNew_variant
    · rw [wp_bind]
      refine wp_mono (fun dp _ hr => ?_) (fun _ _ h => h) parseDerivationPathFull_variant
      refine wp_if (fun _ => refused) fun _ => ?_
      rintro dp' c ⟨rfl⟩
      exact iff_of_true hr h1
  exact wp_ok hspec hparsed dp credCounter rfl

theorem unhardened_or {x : UInt32} :
    (x ||| hardenedBit) &&& ~~~hardenedBit = x &&& ~~~hardenedBit := by
  apply UInt32.eq_of_toBitVec_eq
  ext i hi
  simp
  grind

theorem or_hardened {x n : UInt32} (h : x &&& ~~~hardenedBit = n) :
    x ||| hardenedBit = n ||| hardenedBit := by
  subst h
  apply UInt32.eq_of_toBitVec_eq
  ext i hi
  simp
  grind

/-- The shape of a full path that a descriptor may name. -/
theorem namesOneAccount {chainId : ℕ} (h : fullPathNamesOneAccount dp.harden = true)
    (hnet : expectedChainId dp.network = some chainId) : NamesOneAccount dp.harden := by
  obtain ⟨nodes, variant, hlen⟩ := dp
  simp only [fullPathNamesOneAccount, DerivationPath.len, DerivationPath.harden,
    DerivationPath.mapNodes, DerivationPath.node, List.length_map, Bool.and_eq_true, beq_iff_eq]
    at h
  obtain ⟨⟨hsix, hpurpose⟩, hfour⟩ := h
  obtain ⟨a, b, c, d, e, f, rfl⟩ : ∃ a b c d e f : UInt32, nodes = [a, b, c, d, e, f] := by
    match nodes, hsix with
    | [a, b, c, d, e, f], _ => exact ⟨a, b, c, d, e, f, rfl⟩
  simp only [List.map_cons, List.map_nil, List.getD_cons_zero, List.getD_cons_succ, unhardened_or]
    at hpurpose hfour
  have hcoin : b &&& ~~~hardenedBit ∈ [newMainnetCoinType, newTestnetCoinType] := by
    by_contra hnone
    simp only [List.mem_cons, List.not_mem_nil, or_false, not_or] at hnone
    simp [DerivationPath.network, DerivationPath.len, DerivationPath.node, hpurpose, hnone,
      newPurpose, legacyPurpose, expectedChainId] at hnet
  have hb := or_hardened (x := b) rfl
  refine ⟨_, hcoin, c, d, f, ?_⟩
  simp only [DerivationPath.harden, DerivationPath.mapNodes, List.map_cons, List.map_nil,
    or_hardened hpurpose, or_hardened hfour, ← hb]

end Paths

end Concordium
