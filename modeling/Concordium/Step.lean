/-
  What one step of the app leaves behind.

  `Owned` is what holds while an instruction keeps the latch: a signing
  instruction has its flow open, or has not touched its context.  The
  dispatcher and every callback keep it.
-/
import Concordium.Serving
import Concordium.Signing

namespace Concordium

open Buffer Wp

/-- The instructions that end in a signature over the transaction hash. -/
def signingInstructions : List UInt8 :=
  [insSignTransfer, insSignTransferWithMemo, insSignTransferWithSchedule,
    insSignTransferWithScheduleAndMemo, insCredentialDeployment, insTransferToPublic,
    insRegisterData, insPublicInfoForIp, insConfigureBaker, insConfigureDelegation,
    insSignUpdateCredential, insDeployModule, insInitContract, insUpdateContract, insSignPlt]

/-- What holds while `ins` keeps the latch. -/
structure Owned (ins : UInt8) (w : World) : Prop where
  flow : ins ∈ signingInstructions → Live ins w ∨ w.global = .zeroed
  review : w.replyPending = true →
    Live ins w ∨ ∀ c ∈ w.screen.actions, Reviews.harmless.allows ins c

theorem Live.owned {ins : UInt8} {w : World} (h : Live ins w) : Owned ins w :=
  ⟨fun _ => .inl h, fun _ => .inl h⟩

theorem Reviews.allows_staged {k : Reviews} {ins : UInt8} {c : Callback} (h : k.allows ins c) :
    Reviews.staged.allows ins c := by
  cases k <;> simp_all [Reviews.allows]

section
variable {k : Reviews} {L : World → Prop} {ins : UInt8} {s t : World}

theorem Reviewing.weaken (h : Reviewing k ins t) : Reviewing .staged ins t :=
  { h with actions := fun c hc => Reviews.allows_staged (h.actions c hc) }

theorem Outcome.weaken (h : Outcome k L ins s t)
    (hL : t.latch = some ins → L t → Owned ins t) : Outcome .staged (Owned ins) ins s t where
  log := h.log
  latch := h.latch.imp_right fun ⟨hl, ht⟩ => ⟨hl, hL hl ht⟩
  review hp := (h.review hp).weaken
  screen := h.screen

theorem Outcome.of_live (h : Outcome k (Live ins) ins s t) : Outcome .staged (Owned ins) ins s t :=
  h.weaken fun _ => Live.owned

theorem Outcome.of_serves (h : Outcome .harmless NoFlow ins s t)
    (hins : ins ∉ signingInstructions) : Outcome .staged (Owned ins) ins s t :=
  h.weaken fun _ _ => ⟨fun hi => absurd hi hins, fun hp => .inr (h.review hp).actions⟩

end

/-! ## Dispatch -/

/-- A packet has reached its handler, its instruction holding the latch. -/
structure Dispatched (ins : UInt8) (s : World) : Prop where
  ready : Stage.ready.Holds ins s
  pending : s.replyPending = true
  flow : ins ∈ signingInstructions → Stage.entry.Holds ins s ∨ s.global = .zeroed

section Dispatch
variable [Platform] {cmd : Command} {x : App Unit} {ins : UInt8} {s : World}

omit [Platform] in
theorem Dispatched.refuse (h : Dispatched ins s) {data : Bytes} {sw : UInt16} :
    wp (ioSendResponse data sw) (fun _ t => Outcome .staged (Owned ins) ins s t) (Thrown s) s := by
  refine outcome_ioSendResponse h.ready.latch ⟨fun hi => ?_, nofun⟩
  exact (h.flow hi).imp_left fun he => he.2.append rfl rfl rfl rfl rfl rfl

omit [Platform] in
theorem Dispatched.signing (h : Dispatched ins s) (hins : ins ∈ signingInstructions) {k : Reviews}
    [hx : Handles k .entry x] (ho : Opens k x) :
    wp x (fun _ t => Outcome .staged (Owned ins) ins s t) (Thrown s) s := by
  refine wp_mono (Q := fun _ t => Outcome k (Live ins) ins s t) (fun _ t ht => ht.of_live)
    (fun _ _ ht => ht) ?_
  rcases h.flow hins with he | hz
  · exact hx.handles ins s he h.pending
  · exact ho ins s h.ready hz h.pending

omit [Platform] in
theorem Dispatched.serving (h : Dispatched ins s) (hins : ins ∉ signingInstructions)
    [hx : Serves ins NoFlow x] :
    wp x (fun _ t => Outcome .staged (Owned ins) ins s t) (Thrown s) s :=
  wp_mono (fun _ _ ht => ht.of_serves hins) (fun _ _ ht => ht)
    (hx.serves s h.ready.latch h.pending)

omit [Platform] in
theorem Dispatched.withData (h : Dispatched cmd.ins s)
    (hx : 0 < cmd.data.length →
      wp x (fun _ t => Outcome .staged (Owned cmd.ins) cmd.ins s t) (Thrown s) s) :
    wp (Concordium.withData cmd x) (fun _ t => Outcome .staged (Owned cmd.ins) cmd.ins s t)
      (Thrown s) s := by
  unfold Concordium.withData
  rw [wp_ite]
  exact ⟨fun _ => h.refuse, fun hlc => hx (Nat.pos_of_ne_zero hlc)⟩

omit [Platform] in
theorem Dispatched.withoutData (h : Dispatched cmd.ins s)
    (hx : wp x (fun _ t => Outcome .staged (Owned cmd.ins) cmd.ins s t) (Thrown s) s) :
    wp (Concordium.withoutData cmd x) (fun _ t => Outcome .staged (Owned cmd.ins) cmd.ins s t)
      (Thrown s) s := by
  unfold Concordium.withoutData
  rw [wp_ite, wp_ite]
  exact ⟨fun _ => h.refuse, fun _ => ⟨fun _ => h.refuse, fun _ => hx⟩⟩

/-- Whatever instruction it is, its handler keeps to it. -/
theorem dispatchInstruction_outcome (h : Dispatched cmd.ins s) (isInitialCall : Bool) :
    wp (dispatchInstruction cmd isInitialCall)
      (fun _ t => Outcome .staged (Owned cmd.ins) cmd.ins s t) (Thrown s) s := by
  unfold dispatchInstruction
  refine wp_if (fun hi => h.withData fun _ => h.serving (by rw [hi]; decide)) fun _ => ?_
  refine wp_if (fun hi => h.withData fun _ => h.serving (by rw [hi]; decide)) fun _ => ?_
  refine wp_if (fun hi => h.withData fun _ => h.signing (by rw [hi]; decide) opens_signTransfer)
    fun _ => ?_
  refine wp_if (fun hi => h.withData fun _ =>
    h.signing (by rw [hi]; decide) (opens_signTransferWithMemo _)) fun _ => ?_
  refine wp_if (fun hi => h.withData fun _ =>
    h.signing (by rw [hi]; decide) (opens_signTransferWithSchedule _)) fun _ => ?_
  refine wp_if (fun hi => h.withData fun _ =>
    h.signing (by rw [hi]; decide) (opens_signTransferWithScheduleAndMemo _)) fun _ => ?_
  refine wp_if (fun hi => h.withData fun _ =>
    h.signing (by rw [hi]; decide) (opens_signCredentialDeployment _)) fun _ => ?_
  refine wp_if (fun hi => h.withData fun _ => ?_) fun _ => ?_
  · have : Serves cmd.ins NoFlow (handleExportPrivateKeyLegacyPath cmd) := hi ▸ inferInstance
    exact h.serving (by rw [hi]; decide)
  refine wp_if (fun hi => h.withData fun _ => h.serving (by rw [hi]; decide)) fun _ => ?_
  refine wp_if (fun hi => h.withData fun _ =>
    h.signing (by rw [hi]; decide) (opens_signTransferToPublic _)) fun _ => ?_
  refine wp_if (fun hi => h.withData fun hlc =>
    h.signing (by rw [hi]; decide) (opens_signRegisterData _ hlc)) fun _ => ?_
  refine wp_if (fun hi => h.withData fun _ =>
    h.signing (by rw [hi]; decide) (opens_signPublicInformationForIp _)) fun _ => ?_
  refine wp_if (fun hi => h.withData fun _ =>
    h.signing (by rw [hi]; decide) (opens_signConfigureBaker _)) fun _ => ?_
  refine wp_if (fun hi => h.withData fun _ =>
    h.signing (by rw [hi]; decide) (opens_signConfigureDelegation _)) fun _ => ?_
  refine wp_if (fun hi => h.withData fun _ =>
    h.signing (by rw [hi]; decide) (opens_signUpdateCredential _)) fun _ => ?_
  refine wp_if (fun hi => h.withoutData (h.serving (by rw [hi]; decide))) fun _ => ?_
  refine wp_if (fun hi => h.serving (by rw [hi]; decide)) fun _ => ?_
  refine wp_if (fun hi => h.withoutData (h.serving (by rw [hi]; decide))) fun _ => ?_
  refine wp_if (fun hi => h.withData fun _ => h.signing (by rw [hi]; decide) (opens_deployModule _))
    fun _ => ?_
  refine wp_if (fun hi => h.withData fun hlc =>
    h.signing (by rw [hi]; decide) (opens_initContract _ hlc)) fun _ => ?_
  refine wp_if (fun hi => h.withData fun hlc =>
    h.signing (by rw [hi]; decide) (opens_updateContract _ hlc)) fun _ => ?_
  refine wp_if (fun hi => wp_if (fun _ => h.refuse) fun _ =>
    h.signing (by rw [hi]; decide) (opens_signPlt _)) fun _ => ?_
  refine wp_if (fun hi => h.withoutData (h.serving (by rw [hi]; decide))) fun _ => ?_
  exact outcome_sendRejection

end Dispatch

/-! ## Steps -/

/-- Every signature among `events`, which follow `base`, is one of the flow
    that is open then. -/
def SignsInFlow (base events : List Event) : Prop :=
  ∀ pre ins path preimage post, events = pre ++ .signed ins path preimage :: post →
    ∃ i, ins = some i ∧ SigningFlow (base ++ pre) i path preimage

/-- Requests and replies take turns: whether an answer is owed after `events`.
    `none`, when an APDU comes before the last one is answered, or a reply
    answers nothing. -/
def exchange : Bool → List Event → Option Bool
  | owed, [] => some owed
  | false, .delivered :: es => exchange true es
  | true, .delivered :: _ => none
  | true, .reply .. :: es => exchange false es
  | false, .reply .. :: _ => none
  | owed, _ :: es => exchange owed es

/-- What a step leaves behind: the APDU is answered once, or its review is on
    screen. -/
structure After (s t : World) : Prop where
  log : ∃ events, t.log = s.log ++ events ∧ SignsInFlow s.log events ∧
    exchange true events = some t.replyPending
  owned : ∀ ins, t.latch = some ins → Owned ins t
  review : t.replyPending = true → ∃ ins, Reviewing .staged ins t
  screen : t.replyPending = false → t.screen = s.screen ∨ ∀ c ∈ t.screen.actions, c.isIdle

section
variable {ins : UInt8} {s t u : World}

theorem exchange_append (owed : Bool) (es es' : List Event) :
    exchange owed (es ++ es') = (exchange owed es).bind fun o => exchange o es' := by
  induction es generalizing owed with
  | nil => rfl
  | cons e es ih => cases owed <;> cases e <;> simp [exchange, ih]

/-- Without a request among them, events answer as many as they reply. -/
theorem exchange_of_replies {es : List Event} (hes : ∀ e ∈ es, e.isOutput) {owed pending : Bool}
    (h : replies es + (if pending then 1 else 0) = if owed then 1 else 0) :
    exchange owed es = some pending := by
  induction es generalizing owed with
  | nil => cases owed <;> cases pending <;> simp_all [replies, exchange]
  | cons e es ih =>
    obtain ⟨he, htail⟩ := List.forall_mem_cons.mp hes
    have hcount : replies (e :: es) = replies es + if e.isReply then 1 else 0 := List.countP_cons
    rw [hcount] at h
    cases e with
    | reply data sw =>
      cases owed with
      | true =>
        refine ih htail ?_
        change replies es + 1 + (if pending then 1 else 0) = 1 at h
        change replies es + (if pending then 1 else 0) = 0
        omega
      | false => simp [Event.isReply] at h
    | delivered | claimed | packet | signed | activated =>
      cases he
    | released | path | parsed | hashInit | hashUpdate | challengeIssued | trustedNameSet
    | trustedNameRefused | drawn =>
      have := ih htail (by simpa [Event.isReply] using h)
      cases owed <;> simpa [exchange] using this

theorem signsInFlow_of_not_signed {base events : List Event}
    (h : ∀ ins path preimage, .signed ins path preimage ∉ events) : SignsInFlow base events := by
  rintro pre ins path preimage post rfl
  exact absurd (by simp) (h ins path preimage)

theorem Outcome.after {L : World → Prop} {k : Reviews} (h : Outcome k L ins s t)
    (hL : t.latch = some ins → L t → Owned ins t) : After s t := by
  obtain ⟨es, hlog, hes, hr⟩ := h.log
  refine ⟨⟨es, hlog, signsInFlow_of_not_signed fun i p bs hm => ?_, exchange_of_replies hes ?_⟩,
    fun i hi => ?_, fun hp => ⟨ins, (h.review hp).weaken⟩, h.screen⟩
  · exact absurd (hes _ hm) (by simp [Event.isOutput, Event.isQuiet, Event.isFlow])
  · rw [hr]; cases t.replyPending <;> rfl
  · rcases h.latch with hl | ⟨hl, ht⟩
    · rw [hl] at hi; cases hi
    · obtain rfl : ins = i := Option.some.inj (hl.symm.trans hi)
      exact hL hl ht

theorem After.of_log (e : Event) (hlog : t.log = s.log ++ [e]) (hscreen : t.screen = s.screen)
    (hr : exchange true [e] = some true) (hs : ∀ i p bs, e ≠ .signed i p bs)
    (h : After t u) : After s u := by
  obtain ⟨⟨es, hu, hsign, hrep⟩, howned, hreview, hsc⟩ := h
  refine ⟨⟨e :: es, by rw [hu, hlog]; simp, ?_, ?_⟩, howned, hreview, fun hp => hscreen ▸ hsc hp⟩
  · rintro (_ | ⟨x, pre⟩) i p bs post heq
    · exact absurd (List.cons.inj heq).1 (hs i p bs)
    · obtain ⟨rfl, htail⟩ := List.cons.inj heq
      have := hsign pre i p bs post htail
      rwa [hlog, List.append_assoc] at this
  · rw [← List.singleton_append, exchange_append, hr]
    exact hrep

/-! ### Guards -/

theorem outcome_endFlow {k : Reviews} {L : World → Prop} {E : Exception → World → Prop}
    {sw : UInt16} : wp (endFlow sw) (fun _ u => Outcome k L ins t u) E t := by
  rw [wp_endFlow]
  exact ⟨⟨[.released, .reply [] sw], by simp, by simp [Event.isOutput], rfl⟩, .inl rfl, nofun,
    fun _ => .inl rfl⟩

variable {x : App Unit}

theorem after_of_handles {k : Reviews} [hx : Handles k .live x] (h : Live ins s)
    (hp : s.replyPending = true) : wp x (fun _ u => After s u) (Thrown s) s :=
  wp_mono (fun _ _ hu => hu.after fun _ => Live.owned) (fun _ _ hu => hu) (hx.handles ins s h hp)

theorem after_of_serves [hx : ∀ L, Serves ins L x] (hl : s.latch = some ins)
    (hp : s.replyPending = true) : wp x (fun _ u => After s u) (Thrown s) s :=
  wp_mono (fun _ _ hu => hu.after fun _ ho => ho) (fun _ _ hu => hu)
    ((hx (Owned ins)).serves s hl hp)

variable [Platform]

theorem outcome_endFlow_menu {k : Reviews} {L : World → Prop} {E : Exception → World → Prop}
    {sw : UInt16} :
    wp (do endFlow sw; uiMenuMain) (fun _ u => Outcome k L ins t u) E t := by
  rw [wp_bind, wp_endFlow, wp_uiMenuMain]
  exact ⟨⟨[.released, .reply [] sw, .released, .drawn (idleScreen t.txState.hash)], by simp,
    by simp [Event.isOutput], rfl⟩, .inl rfl, nofun, fun _ => .inr fun _ => isIdle_of_menuActions⟩

theorem after_uxRunGuarded (h : wp x (fun _ u => After s u) (Thrown s) s) :
    wp (uxRunGuarded x) (fun _ u => After s u) (fun _ _ => True) s := by
  unfold uxRunGuarded
  rw [wp_catching]
  refine wp_mono (fun _ _ hu => hu) (fun e u hu => ⟨fun sw he => ?_, fun _ => trivial⟩) h
  have hend : wp (do endFlow sw; uiMenuMain)
    (fun _ v => Outcome .staged (Owned 0) 0 u v) (fun _ _ => True) u := outcome_endFlow_menu
  exact wp_mono (fun _ v hv => (hv.of_quiet (hu sw he)).after fun _ ho => ho)
    (fun _ _ hv => hv) hend

/-! ### Callbacks -/

omit [Platform] in
theorem Owned.append (h : Owned ins s) {e : Event} (hl : t.latch = s.latch)
    (hlog : t.log = s.log ++ [e]) (ht : t.txState = s.txState)
    (hp : t.derivationPath = s.derivationPath) (hg : t.global = s.global)
    (he : e.continues ins) (hfed : fed [e] = []) (hr : t.replyPending = false) : Owned ins t where
  flow hi := (h.flow hi).imp (fun hf => hf.append hl hlog ht hp he hfed) fun hz => hg.trans hz
  review hp' := absurd (hr.symm.trans hp') Bool.false_ne_true

theorem getPublicKey_length {path : DerivationPath} :
    wp (getPublicKey path) (fun pk t => t = s ∧ pk.length = 32) (fun _ t => t = s) s := by
  unfold getPublicKey
  rw [wp_bind]
  refine wp_frames (R := Eq) _ (fun key t hst => ?_) (fun _ _ hst => hst.symm)
  rw [wp_bind]
  refine wp_frames (R := Eq) _ (fun W u htu => ?_) (fun _ _ htu => (hst.trans htu).symm)
  exact ⟨(hst.trans htu).symm, compressPoint_length W⟩

theorem wp_uiComparePubkey {E : Exception → World → Prop} :
    wp uiComparePubkey (fun _ t => ∃ screen : Screen, (∀ c ∈ screen.actions, c.isIdle) ∧
      t = { s with screen := screen, log := s.log ++ [.drawn screen] }) E s := by
  unfold uiComparePubkey nbglReview
  cases (Platform.backend : Backend) <;> simp only [wp_bind, wp_get, wp_showScreen] <;>
    exact ⟨_, by simp [World.screenOf, Callback.isIdle], rfl⟩

/-- The request has been answered, and no step of its review is left. -/
structure Released (s t : World) : Prop extends After s t where
  idle : ∀ c ∈ t.screen.actions, c.isIdle

/-- The reply of an approved public key, and the screen to compare it on. -/
theorem sendPublicKey_released :
    wp (sendPublicKey true) (fun _ t => Released s t) (Thrown s) s := by
  let s' : World := { s with publicKeyReviewPending := false }
  have hquiet : ∀ e u, u = s' → Thrown s e u := by
    rintro e u rfl _ _
    exact { log := ⟨[], by simp [s']⟩ }
  unfold sendPublicKey
  simp only [wp_bind, wp_modify, wp_get, if_true]
  refine wp_mono ?_ hquiet getPublicKey_length
  rintro pk _ ⟨rfl, hpk⟩
  simp only [wp_bind, wp_getCtx]
  refine wp_frames (R := Eq) _ (fun signature t hst => ?_) (fun e _ hst => hquiet e _ hst.symm)
  subst hst
  simp only [sendSuccessResultNoIdle, wp_bind, wp_ioSendResponse, wp_get]
  -- The reply is out: nothing may throw from here on.
  refine wp_mono ?_ (fun e t ⟨he, _⟩ sw hsw => absurd (he.symm.trans hsw) (by simp))
    (wp_toPaginatedHex_key hpk)
  rintro hex _ rfl
  simp only [wp_bind, wp_modify, wp_releaseInstruction]
  refine wp_mono ?_ (fun _ _ h => h) wp_uiComparePubkey
  rintro _ _ ⟨screen, hidle, rfl⟩
  exact ⟨⟨⟨[.reply (pk ++ signature) swoSuccess, .released, .drawn screen], by simp [s'],
    signsInFlow_of_not_signed (by simp), rfl⟩, nofun, nofun, fun _ => .inr hidle⟩, hidle⟩

omit [Platform] in
theorem released_of_log (es : List Event) (hlog : t.log = s.log ++ es)
    (hs : ∀ i p bs, .signed i p bs ∉ es) (hr : exchange true es = some false)
    (hp : t.replyPending = false) (hl : t.latch = none)
    (hidle : ∀ c ∈ t.screen.actions, c.isIdle) : Released s t where
  log := ⟨es, hlog, signsInFlow_of_not_signed hs, hp ▸ hr⟩
  owned i hi := by rw [hl] at hi; cases hi
  review hp' := by rw [hp] at hp'; cases hp'
  screen _ := .inr hidle
  idle := hidle

instance {α : Type} {x : App α} {recover : UInt16 → App α} [hx : Frames Eq x]
    [hr : ∀ sw, Frames Eq (recover sw)] : Frames Eq (catching x recover) where
  frames s := by
    rw [wp_catching]
    refine wp_frames x (fun _ _ hst => hst) (fun e t hst => ⟨fun sw _ => ?_, fun _ => hst⟩)
    exact hst ▸ (hr sw).frames s

instance {purpose network : UInt8} {identityProvider identity account : UInt32} {n : ℕ} :
    Frames Eq (exportNewPathPrivateKeysForPurpose purpose network identityProvider identity
      account n) := by
  unfold exportNewPathPrivateKeysForPurpose
  split <;> infer_instance

theorem sendPrivateKeysNewPath_released :
    wp sendPrivateKeysNewPath (fun _ t => Released s t) (Thrown s) s := by
  have hidle : ∀ c ∈ menuActions, c.isIdle := fun _ => isIdle_of_menuActions
  let screen := idleScreen s.txState.hash
  unfold sendPrivateKeysNewPath
  simp only [wp_bind, wp_getCtx]
  refine wp_if (fun _ => ?_) fun _ => ?_
  · rw [wp_bind]
    refine wp_frames (R := Eq) _ ?_ (fun e t hst _ _ => hst ▸ refl_of Quiet s)
    rintro ⟨sw, out⟩ _ rfl
    refine wp_if (fun _ => ?_) fun _ => ?_
    · simp only [wp_bind, wp_memmove, wp_setCtx, wp_sendSuccess]
      refine ⟨fun _ => ?_, fun _ => nofun⟩
      exact released_of_log [.reply out swoSuccess, .released, .drawn screen]
        (by simp [World.answered, screen]) (by simp) rfl rfl rfl hidle
    · simp only [wp_bind, wp_setCtx, wp_sendRejection, wp_uiMenuMain]
      exact released_of_log [.released, .reply [] sw, .released, .drawn screen]
        (by simp [screen]) (by simp) rfl rfl rfl hidle
  · simp only [wp_bind, wp_sendRejection, wp_uiMenuMain]
    exact released_of_log [.released, .reply [] errorInvalidState, .released, .drawn screen]
      (by simp [screen]) (by simp) rfl rfl rfl hidle

/-- The signature is one of the flow that is open. -/
theorem buildAndSignTransactionHash_released (h : Live ins s) :
    wp buildAndSignTransactionHash (fun _ t => Released s t) (Thrown s) s := by
  have hidle : ∀ c ∈ menuActions, c.isIdle := fun _ => isIdle_of_menuActions
  unfold buildAndSignTransactionHash
  simp only [wp_bind, wp_get, wp_modify]
  refine wp_frames (R := Eq) _ ?_ fun _ t hst _ _ => hst ▸ { log := ⟨[], by simp⟩ }
  rintro signature _ rfl
  simp only [wp_bind, wp_record, wp_sendSuccess]
  refine ⟨⟨⟨[.signed s.latch s.derivationPath s.txState.hash, .reply signature.bytes swoSuccess,
    .released, .drawn (idleScreen s.txState.hash)], ?_, ?_, rfl⟩, nofun, nofun,
    fun _ => .inr hidle⟩, hidle⟩
  · simp [World.answered, World.latch]
  · rintro (_ | ⟨x, pre⟩) i p bs post heq
    · obtain ⟨hsigned, -⟩ := List.cons.inj heq
      cases hsigned
      exact ⟨ins, h.1, by simpa using h.2⟩
    · -- Nothing behind the signature signs again.
      obtain ⟨rfl, htail⟩ := List.cons.inj heq
      have hm : Event.signed i p bs ∈
          [.reply signature.bytes swoSuccess, .released, .drawn (idleScreen s.txState.hash)] := by
        rw [htail]; simp
      simp at hm

omit [Platform] in
theorem after_answered (hl : s.latch = some ins) (ho : Owned ins s) {data : Bytes} {sw : UInt16} :
    After s (s.answered data sw) where
  log := ⟨[.reply data sw], rfl, signsInFlow_of_not_signed (by simp), rfl⟩
  owned i hi := by
    obtain rfl : ins = i := Option.some.inj (hl.symm.trans hi)
    exact ho.append rfl rfl rfl rfl rfl rfl rfl rfl
  review := nofun
  screen _ := .inl rfl

omit [Platform] in
/-- The answer of VERIFY_ADDRESS and its status page. -/
theorem reviewStatus_released (hl : s.latch = some ins) (ho : Owned ins s) {data : Bytes}
    {sw : UInt16} {E : Exception → World → Prop} :
    wp (do ioSendResponse data sw; reviewStatus) (fun _ t => Released s t) E s := by
  simp only [reviewStatus, wp_bind, wp_ioSendResponse, wp_showScreen]
  let t : World := s.answered data sw
  let screen := t.screenOf [] [.uiMenuMain]
  have hidle : ∀ c ∈ screen.actions, c.isIdle := by
    simp [screen, World.screenOf, Callback.isIdle]
  refine ⟨⟨⟨[.reply data sw, .drawn screen], by simp [screen, t, World.answered, World.screenOf],
    signsInFlow_of_not_signed (by simp), rfl⟩, fun i hi => ?_, fun hp => ?_, fun _ => .inr hidle⟩,
    hidle⟩
  swap
  · exact absurd hp Bool.false_ne_true
  obtain rfl : ins = i := Option.some.inj (hl.symm.trans hi)
  have hreply : Owned ins t := ho.append rfl rfl rfl rfl rfl rfl rfl rfl
  exact hreply.append rfl rfl rfl rfl rfl rfl rfl rfl

theorem rejectStagedReview_released {E : Exception → World → Prop} :
    wp rejectStagedReview (fun _ t => Released s t) E s := by
  rw [rejectStagedReview, wp_bind, wp_releaseInstruction, wp_sendUserRejection]
  exact released_of_log [.released, .reply [] swoConditionsNotSatisfied, .released,
    .drawn (idleScreen s.txState.hash)] (by simp [World.answered]) (by simp) rfl rfl rfl
    fun _ => isIdle_of_menuActions

omit [Platform] in
theorem after_of_released {x : App Unit} {E : Exception → World → Prop}
    (h : wp x (fun _ t => Released s t) E s) : wp x (fun _ t => After s t) E s :=
  wp_mono (fun _ _ ht => ht.toAfter) (fun _ _ he => he) h

/-- Whatever the user activates while a request is owed its answer. -/
theorem runCallback_after {c : Callback} (hc : c.isIdle = false) (hl : s.latch = some ins)
    (hp : s.replyPending = true) (ho : Owned ins s)
    (hlive : Live ins s ∨ Reviews.harmless.allows ins c) :
    wp (runCallback c) (fun _ t => After s t) (fun _ _ => True) s := by
  have weaken {x : App Unit} (h : wp x (fun _ t => After s t) (Thrown s) s) :
      wp x (fun _ t => After s t) (fun _ _ => True) s :=
    wp_mono (fun _ _ h => h) (fun _ _ _ => trivial) h
  have live (hn : Reviews.harmless.allows ins c = false) : Live ins s :=
    hlive.resolve_right (by simp [hn])
  cases c with
  | uiMenuMain | uiMenuAbout | osSchedExit | reviewStatus => cases hc
  | sendSuccess => exact weaken (after_of_serves (x := sendSuccess []) hl hp)
  | sendUserRejection => exact weaken (after_of_serves (x := sendUserRejection) hl hp)
  | sendSuccessNoIdle => exact after_answered hl ho
  | rejectStagedReview => exact after_of_released rejectStagedReview_released
  | buildAndSignTransactionHash =>
    exact after_uxRunGuarded
      (after_of_released (buildAndSignTransactionHash_released (live rfl)))
  | sendPublicKeyConfirm => exact after_uxRunGuarded (after_of_released sendPublicKey_released)
  | exportPrivateKey => exact after_uxRunGuarded (after_of_serves hl hp)
  | sendPrivateKeysNewPath =>
    exact after_uxRunGuarded (after_of_released sendPrivateKeysNewPath_released)
  | rejectPrivateKeysNewPath => exact after_uxRunGuarded (after_of_serves hl hp)
  | confirmConfigureBakerStage | processNextVerificationKey | confirmAttribute
  | confirmAddedCredential | confirmInitialScheduledTransfer
  | processNextScheduledAmountContinue =>
    exact after_uxRunGuarded (after_of_handles (k := .staged) (live rfl) hp)
  | registerDataOnDataConfirm =>
    exact weaken
      (after_of_handles (k := .signing) (x := registerDataOnDataConfirm) (live rfl) hp)
  | verifyAddressConfirm | verifyAddressReject =>
    exact after_of_released (reviewStatus_released hl ho)

end

end Concordium
