/-
  What a handler or a callback leaves behind.

  `Outcome`: the APDU has been answered once, or a review is on screen and the
  answer is still owed.  `Handles` finds this for the packets of a signing
  flow, `Serves` for the instructions that sign no transaction; both follow the
  program's text by instance search.
-/
import Concordium.Flow

namespace Concordium

open Buffer Wp

set_option synthInstance.maxSize 1000000
set_option synthInstance.maxHeartbeats 100000

/-! ## Callbacks -/

namespace Callback

/-- The steps of screens that belong to no request. -/
def isIdle : Callback → Bool
  | .uiMenuMain | .uiMenuAbout | .osSchedExit | .reviewStatus => true
  | _ => false

/-- The five confirmations that change the state of a flow. -/
def isStaged : Callback → Bool
  | .confirmConfigureBakerStage | .processNextVerificationKey | .confirmAttribute
  | .confirmAddedCredential | .confirmInitialScheduledTransfer => true
  | _ => false

/-- The steps that sign, or lead to a screen that does. -/
def isSigning : Callback → Bool
  | .buildAndSignTransactionHash | .registerDataOnDataConfirm
  | .processNextScheduledAmountContinue => true
  | _ => false

end Callback

/-- The reviews an instruction may show, by the steps they offer. -/
inductive Reviews where
  | harmless | signing | staged
deriving DecidableEq, Repr

/-- The steps of such a review of an instruction; none of them is idle, and the
    legacy export is approved under its own instruction only. -/
def Reviews.allows (k : Reviews) (ins : UInt8) (c : Callback) : Bool :=
  !c.isIdle && (c != .exportPrivateKey || ins == insExportPrivateKeyLegacy) &&
    match k with
    | .harmless => !c.isStaged && !c.isSigning
    | .signing => !c.isStaged
    | .staged => true

section Reviews
variable {k : Reviews} {ins : UInt8} {c : Callback}

theorem Reviews.not_isIdle (h : k.allows ins c) : c.isIdle = false := by
  unfold Reviews.allows at h
  simp_all

theorem Reviews.exports (h : k.allows ins .exportPrivateKey) : ins = insExportPrivateKeyLegacy := by
  unfold Reviews.allows at h
  simp_all

end Reviews

/-- Every step of a list is allowed. -/
class Allowed (k : Reviews) (ins : UInt8) (actions : List Callback) : Prop where
  allowed : ∀ c ∈ actions, k.allows ins c

/-- A single step is allowed. -/
class AllowedStep (k : Reviews) (ins : UInt8) (c : Callback) : Prop where
  allowed : k.allows ins c

section Allowed
variable {k : Reviews} {ins : UInt8} {c : Callback} {cs cs' : List Callback}

instance : Allowed k ins [] := ⟨by simp⟩

instance [h : AllowedStep k ins c] [hs : Allowed k ins cs] : Allowed k ins (c :: cs) :=
  ⟨by simpa using ⟨h.allowed, hs.allowed⟩⟩

instance [h : Allowed k ins cs] [h' : Allowed k ins cs'] : Allowed k ins (cs ++ cs') :=
  ⟨fun c hc => (List.mem_append.mp hc).elim (h.allowed c) (h'.allowed c)⟩

instance {p : Prop} [Decidable p] [Allowed k ins cs] [Allowed k ins cs'] :
    Allowed k ins (if p then cs else cs') := by
  split_ifs <;> infer_instance

instance : AllowedStep k ins .sendSuccess := ⟨by cases k <;> rfl⟩
instance : AllowedStep k ins .sendSuccessNoIdle := ⟨by cases k <;> rfl⟩
instance : AllowedStep k ins .sendUserRejection := ⟨by cases k <;> rfl⟩
instance : AllowedStep k ins .rejectStagedReview := ⟨by cases k <;> rfl⟩
instance : AllowedStep k ins .sendPublicKeyConfirm := ⟨by cases k <;> rfl⟩
instance : AllowedStep k insExportPrivateKeyLegacy .exportPrivateKey := ⟨by cases k <;> rfl⟩
instance : AllowedStep k ins .sendPrivateKeysNewPath := ⟨by cases k <;> rfl⟩
instance : AllowedStep k ins .rejectPrivateKeysNewPath := ⟨by cases k <;> rfl⟩
instance : AllowedStep k ins .verifyAddressConfirm := ⟨by cases k <;> rfl⟩
instance : AllowedStep k ins .verifyAddressReject := ⟨by cases k <;> rfl⟩
instance : AllowedStep .signing ins .buildAndSignTransactionHash := ⟨rfl⟩
instance : AllowedStep .signing ins .registerDataOnDataConfirm := ⟨rfl⟩
instance : AllowedStep .staged ins .buildAndSignTransactionHash := ⟨rfl⟩
instance : AllowedStep .staged ins .processNextScheduledAmountContinue := ⟨rfl⟩
instance : AllowedStep .staged ins .confirmConfigureBakerStage := ⟨rfl⟩
instance : AllowedStep .staged ins .processNextVerificationKey := ⟨rfl⟩
instance : AllowedStep .staged ins .confirmAttribute := ⟨rfl⟩
instance : AllowedStep .staged ins .confirmAddedCredential := ⟨rfl⟩
instance : AllowedStep .staged ins .confirmInitialScheduledTransfer := ⟨rfl⟩

end Allowed

/-! ## Outcomes -/

/-- What a program may log before its reply or its review. -/
def Event.isQuiet : Event → Bool
  | .challengeIssued _ | .trustedNameSet _ | .trustedNameRefused => true
  | e => e.isFlow

/-- What handlers and callbacks log, a signature apart. -/
def Event.isOutput : Event → Bool
  | .released | .reply .. | .drawn _ => true
  | e => e.isQuiet

/-- A signature of the transaction hash. -/
def Event.isSigned : Event → Bool
  | .signed .. => true
  | _ => false

/-- A reply. -/
def Event.isReply : Event → Bool
  | .reply .. => true
  | _ => false

/-- The number of replies sent. -/
def replies (events : List Event) : ℕ := events.countP Event.isReply

/-- Nothing has been answered or drawn yet, and the latch is as before. -/
structure Quiet (s t : World) : Prop where
  latch : t.latch = s.latch := by rfl
  screen : t.screen = s.screen := by rfl
  replyPending : t.replyPending = s.replyPending := by rfl
  log : ∃ events, t.log = s.log ++ events ∧ ∀ e ∈ events, e.isQuiet

instance : IsPreorder World Quiet where
  refl _ := { log := ⟨[], by simp⟩ }
  trans := by
    rintro s t u ⟨hl, hs, hp, es, hlog, hes⟩ ⟨hl', hs', hp', es', hlog', hes'⟩
    refine ⟨hl'.trans hl, hs'.trans hs, hp'.trans hp, es ++ es', by rw [hlog', hlog]; simp, ?_⟩
    simpa [or_imp, forall_and] using ⟨hes, hes'⟩

theorem Event.isQuiet_of_isFlow {e : Event} (h : e.isFlow) : e.isQuiet := by
  cases e <;> simp_all [Event.isFlow, Event.isQuiet]

theorem Inner.quiet {s t : World} (h : Inner s t) : Quiet s t := by
  obtain ⟨ho, es, hlog, hes⟩ := h
  exact ⟨ho.latch, ho.screen, ho.replyPending, es, hlog, fun e he =>
    Event.isQuiet_of_isFlow (hes e he)⟩

/-- The screen is a review of `ins`, drawn over the hash as it is now. -/
structure Reviewing (k : Reviews) (ins : UInt8) (w : World) : Prop where
  latch : w.latch = some ins
  drawnBy : w.screen.drawnBy = some ins
  preimage : w.screen.preimage = w.txState.hash
  actions : ∀ c ∈ w.screen.actions, k.allows ins c

/-- The request of instruction `ins` has been answered once, or its review is
    on screen.  `L` is what holds while the instruction keeps the latch. -/
structure Outcome (k : Reviews) (L : World → Prop) (ins : UInt8) (s t : World) : Prop where
  log : ∃ events, t.log = s.log ++ events ∧ (∀ e ∈ events, e.isOutput) ∧
    replies events = if t.replyPending then 0 else 1
  latch : t.latch = none ∨ t.latch = some ins ∧ L t
  review : t.replyPending = true → Reviewing k ins t
  screen : t.replyPending = false → t.screen = s.screen ∨ ∀ c ∈ t.screen.actions, c.isIdle

/-- What a thrown status word finds.  A fault has no successor, so nothing is
    said about it. -/
def Thrown (s : World) (e : Exception) (t : World) : Prop := ∀ sw, e = .statusWord sw → Quiet s t

section
variable {k : Reviews} {L L' : World → Prop} {ins : UInt8} {s t u : World}

theorem replies_of_isQuiet {events : List Event} (h : ∀ e ∈ events, e.isQuiet) :
    replies events = 0 := by
  refine List.countP_eq_zero.mpr fun e he => ?_
  have := h e he
  cases e <;> simp_all [Event.isQuiet, Event.isFlow, Event.isReply]

theorem Event.isOutput_of_isQuiet {e : Event} (h : e.isQuiet) : e.isOutput := by
  cases e <;> simp_all [Event.isQuiet, Event.isFlow, Event.isOutput]

theorem Outcome.of_quiet (hst : Quiet s t) (h : Outcome k L ins t u) : Outcome k L ins s u := by
  obtain ⟨hlog, hlatch, hreview, hscreen⟩ := h
  refine ⟨?_, hlatch, hreview, fun hp => hst.screen ▸ hscreen hp⟩
  obtain ⟨es, hs, hes⟩ := hst.log
  obtain ⟨es', ht, hes', hr⟩ := hlog
  refine ⟨es ++ es', by rw [ht, hs]; simp, ?_, ?_⟩
  · have := fun e he => Event.isOutput_of_isQuiet (hes e he)
    simpa [or_imp, forall_and] using ⟨this, hes'⟩
  · have h0 := replies_of_isQuiet hes
    simp only [replies, List.countP_append] at h0 hr ⊢
    rw [h0, hr, Nat.zero_add]

theorem Thrown.of_quiet (hst : Quiet s t) {e : Exception} (h : Thrown t e u) : Thrown s e u :=
  fun sw he => trans_of Quiet hst (h sw he)

end

/-! ## Last steps -/

section LastSteps
variable {k : Reviews} {L : World → Prop} {ins : UInt8} {s : World} {E : Exception → World → Prop}

theorem outcome_ioSendResponse {data : Bytes} {sw : UInt16} (hl : s.latch = some ins)
    (hL : L { s with replyPending := false, log := s.log ++ [.reply data sw] }) :
    wp (ioSendResponse data sw) (fun _ t => Outcome k L ins s t) E s := by
  rw [wp_ioSendResponse]
  exact ⟨⟨_, rfl, by simp [Event.isOutput], rfl⟩, .inr ⟨hl, hL⟩, nofun,
    fun _ => .inl rfl⟩

theorem outcome_sendRejection {sw : UInt16} :
    wp (sendRejection sw) (fun _ t => Outcome k L ins s t) E s := by
  rw [wp_sendRejection]
  exact ⟨⟨[.released, .reply [] sw], by simp, by simp [Event.isOutput], rfl⟩, .inl rfl, nofun,
    fun _ => .inl rfl⟩

/-- A review. -/
theorem outcome_showScreen {rows : List Row} {actions : List Callback} (hl : s.latch = some ins)
    (hp : s.replyPending = true) (ha : ∀ c ∈ actions, k.allows ins c)
    (hL : L { s with
      screen := s.screenOf rows actions, log := s.log ++ [.drawn (s.screenOf rows actions)] }) :
    wp (showScreen rows actions) (fun _ t => Outcome k L ins s t) E s := by
  rw [wp_showScreen]
  refine ⟨⟨_, rfl, by simp [Event.isOutput], ?_⟩, .inr ⟨hl, hL⟩,
    fun _ => ⟨hl, hl, rfl, ha⟩, ?_⟩
  · simp [hp, replies, Event.isReply]
  · simp [hp]

theorem isIdle_of_menuActions [Platform] {c : Callback} (h : c ∈ menuActions) : c.isIdle := by
  unfold menuActions at h
  split at h
  · rw [List.mem_singleton] at h; rw [h]; rfl
  · simp only [List.mem_cons, List.not_mem_nil, or_false] at h
    rcases h with rfl | rfl <;> rfl

theorem outcome_menu [Platform] {data : Bytes} {sw : UInt16} :
    Outcome k L ins s (s.answered data sw).toMenu where
  log := ⟨[.reply data sw, .released, .drawn (idleScreen s.txState.hash)],
    by simp [World.answered], by simp [Event.isOutput], rfl⟩
  latch := .inl rfl
  review := nofun
  screen _ := .inr fun _ hc => isIdle_of_menuActions hc

end LastSteps

/-! ## Packets of a signing flow -/

/-- From a stage of its flow, the program ends in an outcome that keeps the
    flow open or releases the latch. -/
class Handles (k : Reviews) (a : Stage) (x : App Unit) : Prop where
  handles : ∀ ins s, a.Holds ins s → s.replyPending = true →
    wp x (fun _ t => Outcome k (Live ins) ins s t) (Thrown s) s

section Handles
variable {k : Reviews} {a b : Stage}

instance {e : Exception} : Handles k a (throw e) :=
  ⟨fun _ s _ _ => fun _ _ => refl_of Quiet s⟩

instance handles_bind {α : Type} {x : App α} {f : α → App Unit} [hx : Moves a x b]
    [hf : ∀ v, Handles k b (f v)] : Handles k a (x >>= f) where
  handles ins s h hp := by
    rw [wp_bind]
    refine wp_mono (fun v t ⟨ht, hst⟩ => ?_) (fun _ _ hst _ _ => hst.quiet) (hx.moves ins s h)
    refine wp_mono (fun _ u hu => hu.of_quiet hst.quiet) (fun _ _ hu => hu.of_quiet hst.quiet)
      ((hf v).handles ins t ht ?_)
    rw [hst.replyPending, hp]

instance handles_bind_prod {α β : Type} {x : App (α × β)} {f : α × β → App Unit} [Moves a x b]
    [∀ u v, Handles k b (f (u, v))] : Handles k a (x >>= f) :=
  have : ∀ p, Handles k b (f p) := fun ⟨_, _⟩ => inferInstance
  handles_bind

instance {c : Prop} [Decidable c] {x y : App Unit} [Handles k a x] [Handles k a y] :
    Handles k a (if c then x else y) := by
  split_ifs <;> infer_instance

instance {sw : UInt16} : Handles k a (sendRejection sw) := ⟨fun _ _ _ _ => outcome_sendRejection⟩

theorem Live.append {ins : UInt8} {s t : World} {e : Event} (h : Live ins s)
    (hl : t.latch = s.latch) (hlog : t.log = s.log ++ [e]) (ht : t.txState = s.txState)
    (hp : t.derivationPath = s.derivationPath) (he : e.continues ins) (hfed : fed [e] = []) :
    Live ins t := by
  refine ⟨hl.trans h.1, ?_⟩
  rw [hlog, ht, hp, ← List.append_nil s.txState.hash, ← hfed]
  exact h.2.append (by simpa using he)

/-- The stages at which a flow is open. -/
class Open (a : Stage) : Prop where
  live : ∀ ins w, a.Holds ins w → Live ins w

instance : Open .live := ⟨fun _ _ h => h⟩

instance : Open .entry := ⟨fun _ _ h => h.2⟩

instance [ha : Open a] {data : Bytes} {sw : UInt16} : Handles k a (ioSendResponse data sw) where
  handles ins s h _ := by
    have hs := ha.live ins s h
    exact outcome_ioSendResponse hs.1 (hs.append rfl rfl rfl rfl rfl rfl)

instance [Open a] : Handles k a sendSuccessNoIdle := by
  unfold sendSuccessNoIdle sendSuccessResultNoIdle; infer_instance

instance [ha : Open a] {rows : List Row} {actions : List Callback}
    [hs : ∀ ins, Allowed k ins actions] :
    Handles k a (showScreen rows actions) where
  handles ins s h hp := by
    have hl := ha.live ins s h
    exact outcome_showScreen hl.1 hp (hs ins).allowed (hl.append rfl rfl rfl rfl rfl rfl)

instance {title : Row} {pairs : List Row} {finish : Bytes} {confirm reject : Callback}
    [Open a] [∀ ins, AllowedStep k ins confirm] [∀ ins, AllowedStep k ins reject] :
    Handles k a (nbglReview title pairs finish confirm reject) := by
  unfold nbglReview; infer_instance

instance {title : Row} {pairs : List Row} {finish : String}
    [Open a] [∀ ins, AllowedStep k ins .buildAndSignTransactionHash] :
    Handles k a (nbglSignReview title pairs finish) := by
  unfold nbglSignReview; infer_instance

instance {title : Row} {pairs : List Row} {finish : String} {confirm : Callback}
    [Open a] [∀ ins, AllowedStep k ins confirm] :
    Handles k a (nbglStagedReview title pairs finish confirm) := by
  unfold nbglStagedReview; infer_instance

end Handles

end Concordium
