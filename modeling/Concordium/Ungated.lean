/-
  The app without the gate of the SDK.

  The SDK holds back an APDU while a reply is outstanding, and with it every APDU
  during a review.  `ungatedStep` takes them all, as the main loop would.
-/
import Concordium.Header
import Concordium.Latch
import Concordium.Unseen

namespace Concordium

open Buffer Wp

set_option synthInstance.maxSize 1000000
set_option synthInstance.maxHeartbeats 100000

variable [Platform] {w w' : World} {i : Input} {cmd : Command}

/-- One input, whether or not a reply is outstanding. -/
def ungatedStep (w : World) (i : Input) : Option World :=
  match runInput i w with
  | .ok _ w' => some w'
  | .error _ _ => none

theorem of_ungatedStep {P : World → Prop} (hs : ungatedStep w i = some w')
    (h : wp (runInput i) (fun _ t => P t) (fun _ _ => True) w) : P w' := by
  unfold ungatedStep at hs
  unfold wp at h
  cases hr : runInput i w with
  | ok a t =>
    rw [hr] at hs h
    exact Option.some.inj hs ▸ h
  | error e t =>
    rw [hr] at hs
    cases hs

/-! ## Packets that draw no screen -/

/-- The screen is the same. -/
def SameScreen (s t : World) : Prop := t.screen = s.screen

/-- The screen is the same, and so is the claim of a key review. -/
structure SameReview (s t : World) : Prop where
  screen : t.screen = s.screen
  pending : t.publicKeyReviewPending = s.publicKeyReviewPending
  reviewedPath : t.reviewedPath = s.reviewedPath

instance : IsPreorder World SameScreen where
  refl _ := rfl
  trans _ _ _ h h' := h'.trans h

instance : IsPreorder World SameReview where
  refl _ := ⟨rfl, rfl, rfl⟩
  trans := by
    rintro s t u ⟨hs, hp, hr⟩ ⟨hs', hp', hr'⟩
    exact ⟨hs'.trans hs, hp'.trans hp, hr'.trans hr⟩

/-- A screen is drawn. -/
def Event.isDrawn : Event → Bool
  | .drawn _ => true
  | _ => false

/-- Where the new events draw no screen, `R` holds. -/
def Undrawn (R : World → World → Prop) (s t : World) : Prop :=
  ∃ es, t.log = s.log ++ es ∧ ((∀ e ∈ es, e.isDrawn = false) → R s t)

section Undrawn
variable {R R' : World → World → Prop} {s t : World}

omit [Platform] in
instance [IsPreorder World R] : IsPreorder World (Undrawn R) where
  refl s := ⟨[], by simp, fun _ => refl_of R s⟩
  trans := by
    rintro s t u ⟨es, hlog, hes⟩ ⟨es', hlog', hes'⟩
    refine ⟨es ++ es', by rw [hlog', hlog, List.append_assoc], fun hno => ?_⟩
    exact trans_of R (hes fun e he => hno e (List.mem_append_left _ he))
      (hes' fun e he => hno e (List.mem_append_right _ he))

omit [Platform] in
theorem Undrawn.mono (h : Undrawn R s t) (hR : R s t → R' s t) : Undrawn R' s t := by
  obtain ⟨es, hlog, hes⟩ := h
  exact ⟨es, hlog, fun hno => hR (hes hno)⟩

omit [Platform] in
theorem Undrawn.of_drawn (es : List Event) (screen : Screen) (hlog : t.log = s.log ++ es)
    (hdrawn : .drawn screen ∈ es) : Undrawn R s t :=
  ⟨es, hlog, fun hno => absurd (hno _ hdrawn).symm Bool.false_ne_true⟩

omit [Platform] in
theorem Undrawn.of_same (es : List Event) (hlog : t.log = s.log ++ es)
    (h : SameReview s t := by exact ⟨rfl, rfl, rfl⟩) : Undrawn SameReview s t :=
  ⟨es, hlog, fun _ => h⟩

omit [Platform] in
theorem undrawn_modify {f : World → World} (hlog : ∀ s, (f s).log = s.log)
    (h : ∀ s, SameReview s (f s)) : Frames (Undrawn SameReview) (modify f : App PUnit) :=
  ⟨fun s => .of_same [] (by rw [hlog s, List.append_nil]) (h s)⟩

/-- Any reply, and the claim itself, belongs to GET_PUBLIC_KEY and to refusals. -/
theorem Primitive.undrawn {p : Power} {α : Type} {x : App α} (h : Primitive p x)
    (hp : p ≠ .replies) : Frames (Undrawn SameReview) x := by
  have hupdate (bs : Bytes) : Frames (Undrawn SameReview) (Concordium.updateHash bs) :=
    ⟨fun s => .of_same [.hashUpdate bs] rfl⟩
  constructor
  intro s
  cases h with
  | getCtx => exact refl_of (Undrawn SameReview) s
  | setCtx | comparePublicKey | transactionHash => exact .of_same [] (by simp)
  | updateHash bs => exact (hupdate bs).frames s
  | header cdata kind =>
    have hset (a : AccountSender) : Frames (Undrawn SameReview)
        (modify fun w => { w with accountSender := a } : App PUnit) :=
      undrawn_modify (fun _ => rfl) fun _ => ⟨rfl, rfl, rfl⟩
    unfold hashAccountTransactionHeaderAndKind hashHeaderAndType
    exact Frames.frames s
  | sha256Init => exact .of_same [.hashInit] rfl
  | setDerivationPath dp => exact .of_same [.path dp] rfl
  | parsed dp => exact .of_same [.parsed dp] rfl
  | signed ins path preimage => exact .of_same [.signed ins path preimage] rfl
  | releaseInstruction => exact .of_same [.released] rfl
  | showScreen rows actions =>
    exact .of_drawn [.drawn (s.screenOf rows actions)] _ rfl (List.mem_singleton_self _)
  | sendRejection sw =>
    rw [wp_sendRejection]
    exact .of_same [.released, .reply [] sw] rfl
  | endFlow sw =>
    rw [wp_endFlow]
    exact .of_same [.released, .reply [] sw] rfl
  | uiMenuMain =>
    rw [wp_uiMenuMain]
    exact .of_drawn _ (idleScreen s.txState.hash) s.toMenu_log (by simp)
  | sendUserRejection =>
    rw [wp_sendUserRejection]
    exact .of_drawn [.reply [] swoConditionsNotSatisfied, .released,
      .drawn (idleScreen s.txState.hash)] (idleScreen s.txState.hash) (by simp [World.answered])
      (by simp)
  | sendSuccess data =>
    rw [wp_sendSuccess]
    exact .of_drawn [.reply data swoSuccess, .released, .drawn (idleScreen s.txState.hash)]
      (idleScreen s.txState.hash) (by simp [World.answered]) (by simp)
  | acknowledge data => exact .of_same [.reply data swoSuccess] rfl
  | _ => exact absurd rfl hp

/-- What a power leaves under a screen that stays. -/
def Power.undrawn : Power → World → World → Prop
  | .replies => Undrawn SameScreen
  | _ => Undrawn SameReview

theorem Built.undrawn {p : Power} {α : Type} {x : App α} (h : Built p x) :
    Frames p.undrawn x := by
  refine h.frames (fun p => ?_) (fun p s t hst => ?_) fun p α x hx => ?_
  · cases p <;> unfold Power.undrawn <;> infer_instance
  · cases p with
    | acknowledges => exact Undrawn.mono hst SameReview.screen
    | _ => exact hst
  · cases p with
    | replies =>
      cases hx with
      | ioSendResponse data sw => exact ⟨fun s => ⟨[.reply data sw], rfl, fun _ => rfl⟩⟩
      | publicKeyReviewPending | reviewedPath => exact ⟨fun s => ⟨[], by simp, fun _ => rfl⟩⟩
    | _ => exact hx.undrawn (by decide)

instance (priority := low) {α : Type} {x : App α} [h : Built .acknowledges x] :
    Frames (Undrawn SameReview) x :=
  h.undrawn

instance (priority := low) {α : Type} {x : App α} [h : Built .replies x] :
    Frames (Undrawn SameScreen) x :=
  h.undrawn

theorem undrawn_trust : TrustFramed (Undrawn SameReview) where
  frees _ _ := inferInstance
  trusted _ := undrawn_modify (fun _ => rfl) fun _ => ⟨rfl, rfl, rfl⟩
  set tlv := ⟨fun _ => .of_same [.trustedNameSet tlv] rfl⟩
  erase := undrawn_modify (fun _ => rfl) fun _ => ⟨rfl, rfl, rfl⟩
  refuse sw := by
    refine ⟨fun s => ?_⟩
    simp only [trustedNameSendSetError, eraseStoredChallenge, ioSendSw, wp_bind, wp_modify,
      wp_releaseInstruction, wp_record, wp_ioSendResponse]
    exact .of_same [.released, .trustedNameRefused, .reply [] sw] (by simp)
  challenge := by
    refine ⟨fun s => ?_⟩
    let buf := Platform.rng s.rngCalls
    simp only [handleGetChallenge, wp_bind, wp_get, wp_modify, wp_record, wp_ioSendResponse]
    exact .of_same [.released, .challengeIssued (beNat buf.bytes), .reply buf.bytes swoSuccess]
      (by simp [buf])

omit [Platform] in
instance {sw : UInt16} : Frames (Undrawn SameReview) (ioSendSw sw) where
  frames s := by
    rw [ioSendSw, wp_ioSendResponse]
    exact .of_same [.reply [] sw] rfl

theorem undrawn_dispatchInstruction {isInitialCall : Bool} (hkey : cmd.ins ≠ insGetPublicKey) :
    Frames (Undrawn SameReview) (dispatchInstruction cmd isInitialCall) := by
  have hset : Frames (Undrawn SameReview) (handleSetTrustedName cmd) :=
    undrawn_trust.setTrustedName
  have hverify : Frames (Undrawn SameReview) (handleVerifyAddress cmd) :=
    undrawn_trust.verifyAddress
  have hchallenge : Frames (Undrawn SameReview) handleGetChallenge := undrawn_trust.challenge
  unfold dispatchInstruction withData withoutData
  simp only [if_neg hkey]
  infer_instance

instance {isInitialCall : Bool} :
    Frames (Undrawn SameScreen) (dispatchInstruction cmd isInitialCall) := by
  by_cases hkey : cmd.ins = insGetPublicKey
  · have : Built .replies (dispatchInstruction cmd isInitialCall) :=
      built_dispatchInstruction (by rw [hkey]; decide)
    infer_instance
  · exact (undrawn_dispatchInstruction hkey).mono fun _ _ h => h.mono SameReview.screen

omit [Platform] in
theorem Received.undrawn {isInitialCall : Bool} (hr : Received w cmd isInitialCall s) :
    Undrawn SameReview w s := by
  cases hr with
  | first =>
    refine .of_same [.delivered, .claimed cmd.ins, .packet cmd.ins] ?_
    simp [World.arrived, World.claimed, World.delivered]
  | next =>
    refine .of_same [.delivered, .packet cmd.ins] ?_
    simp [World.arrived, World.delivered]

/-- The input draws no screen, so the review on it stays up. -/
def StaysUp (w : World) (i : Input) : Prop :=
  ∀ w' ∈ ungatedStep w i, ∀ e ∈ w'.log.drop w.log.length, e.isDrawn = false

instance : Decidable (StaysUp w i) := by
  unfold StaysUp
  infer_instance

/-- What the handler keeps under a screen that stays, the APDU keeps. -/
theorem StaysUp.keeps [IsPreorder World R] (hstays : StaysUp w (.apdu cmd))
    (hs : ungatedStep w (.apdu cmd) = some w') (hR : ∀ s t, SameReview s t → R s t)
    (h : ∀ isInitialCall, Frames (Undrawn R) (dispatchInstruction cmd isInitialCall)) :
    R w w' := by
  have hend (sw : UInt16) : Frames (Undrawn R) (endFlow sw) :=
    (inferInstance : Frames (Undrawn SameReview) (endFlow sw)).mono fun s t h => h.mono (hR s t)
  have hundrawn : Undrawn R w w' := by
    refine of_ungatedStep hs (wp_apdu (fun _ _ _ => ?_) fun isInitialCall s hr => ?_)
    · refine ⟨[.delivered, .released, .reply [] errorInvalidState], ?_, fun _ => hR _ _ ?_⟩
      · simp [World.switched, World.delivered]
      · exact ⟨rfl, rfl, rfl⟩
    · exact wp_frames (R := Undrawn R) _
        (fun _ t ht => trans_of (Undrawn R) (hr.undrawn.mono (hR w s)) ht) fun _ _ _ => trivial
  obtain ⟨es, hlog, hes⟩ := hundrawn
  refine hes fun e he => hstays w' hs e ?_
  rwa [hlog, List.drop_left]

theorem StaysUp.sameScreen (hstays : StaysUp w (.apdu cmd))
    (hs : ungatedStep w (.apdu cmd) = some w') : w'.screen = w.screen :=
  hstays.keeps (R := SameScreen) hs (fun _ _ => SameReview.screen) fun _ => inferInstance

theorem StaysUp.sameReview (hstays : StaysUp w (.apdu cmd))
    (hs : ungatedStep w (.apdu cmd) = some w') (hkey : cmd.ins ≠ insGetPublicKey) :
    SameReview w w' :=
  hstays.keeps hs (fun _ _ h => h) fun _ => undrawn_dispatchInstruction hkey

end Undrawn

/-! ## Packets that leave the union alone -/

/-- What an APDU changes when it has nothing to do with the review on screen. -/
structure Aside (s t : World) : Prop extends SameReview s t where
  global : t.global = s.global

/-- The instructions whose handlers write the union. -/
def contextInstructions : List UInt8 := insSetTrustedName :: insSignPlt :: dataInstructions

section Aside
variable {s t u : World}

omit [Platform] in
theorem aside_answered {data : Bytes} {sw : UInt16} : Aside s (s.answered data sw) :=
  ⟨⟨rfl, rfl, rfl⟩, rfl⟩

omit [Platform] in
theorem aside_switched : Aside w w.delivered.switched := ⟨⟨rfl, rfl, rfl⟩, rfl⟩

omit [Platform] in
theorem wp_query_aside {data : Bytes} {E : Exception → World → Prop} :
    wp (do ioSendResponse data swoSuccess; releaseInstruction) (fun _ t => Aside s t) E s := by
  simp only [wp_bind, wp_ioSendResponse, wp_releaseInstruction]
  exact ⟨⟨rfl, rfl, rfl⟩, rfl⟩

omit [Platform] in
theorem wp_withoutData_aside {x : App Unit} {E : Exception → World → Prop}
    (h : wp x (fun _ t => Aside s t) E s) : wp (withoutData cmd x) (fun _ t => Aside s t) E s := by
  unfold withoutData ioSendSw
  refine wp_if (fun _ => ?_) fun _ => wp_if (fun _ => ?_) fun _ => h
  · rw [wp_ioSendResponse]
    exact aside_answered
  · rw [wp_ioSendResponse]
    exact aside_answered

/-- An instruction that keeps nothing in the union. -/
theorem dispatchInstruction_query {isInitialCall : Bool} {E : Exception → World → Prop}
    (hkey : cmd.ins ≠ insGetPublicKey) (hins : cmd.ins ∉ contextInstructions) :
    wp (dispatchInstruction cmd isInitialCall) (fun _ t => Aside s t) E s := by
  have away {P : Prop} {ins : UInt8} (hi : cmd.ins = ins) (hm : ins ∈ contextInstructions) : P :=
    absurd (hi ▸ hm) hins
  unfold dispatchInstruction
  refine wp_if (fun hi => absurd hi hkey) fun _ => ?_
  iterate 14 refine wp_if (fun hi => away hi (by decide)) fun _ => ?_
  refine wp_if (fun _ => wp_withoutData_aside wp_query_aside) fun _ => ?_
  refine wp_if (fun hi => away hi (by decide)) fun _ => ?_
  refine wp_if (fun _ => wp_withoutData_aside ?_) fun _ => ?_
  · simp only [handleGetChallenge, wp_bind, wp_get, wp_modify, wp_record, wp_ioSendResponse]
    exact ⟨⟨rfl, rfl, rfl⟩, rfl⟩
  iterate 4 refine wp_if (fun hi => away hi (by decide)) fun _ => ?_
  refine wp_if (fun _ => wp_withoutData_aside wp_query_aside) fun _ => ?_
  rw [wp_sendRejection]
  exact ⟨⟨rfl, rfl, rfl⟩, rfl⟩

/-- A packet that is refused for its form, or whose instruction keeps nothing in
    the union. -/
theorem dispatchInstruction_aside {isInitialCall : Bool} {E : Exception → World → Prop}
    (h : RefusedForm s cmd ∨ cmd.ins ≠ insGetPublicKey ∧ cmd.ins ∉ contextInstructions) :
    wp (dispatchInstruction cmd isInitialCall) (fun _ t => Aside s t) E s := by
  rcases h with hr | ⟨hkey, hins⟩
  · refine wp_mono (fun _ t ht => ?_) (fun _ _ ht => absurd hr ht.1)
      (dispatchInstruction_served cmd isInitialCall s)
    obtain ⟨sw, rfl⟩ := ht.refused hr
    exact aside_answered
  · exact dispatchInstruction_query hkey hins

end Aside

end Concordium
