/-
  The instruction latch after a final reply.

  `Freeing final`: whoever sends a reply that `final` holds of leaves the latch
  free.  The dispatcher refuses a packet of the wrong form before any handler
  sees it, and two callbacks answer without going back to the idle screen;
  those are the replies that keep the latch.
-/
import Concordium.Programs
import Concordium.Safety

namespace Concordium

open Buffer Wp

set_option synthInstance.maxSize 1000000
set_option synthInstance.maxHeartbeats 100000

/-- A latch that is free stays free, and one of these replies frees it. -/
structure Freeing (final : UInt16 → Prop) (s t : World) : Prop where
  stays : s.latch = none → t.latch = none
  log : ∃ events, t.log = s.log ++ events ∧
    ((∃ data sw, .reply data sw ∈ events ∧ final sw) → t.latch = none)

/-- Any reply. -/
def anyReply (_ : UInt16) : Prop := True

/-- An error. -/
def errorReply (sw : UInt16) : Prop := sw ≠ swoSuccess

section Freeing
variable {final final' : UInt16 → Prop} {s t : World}

instance : IsPreorder World (Freeing final) where
  refl _ := ⟨id, [], by simp, by simp⟩
  trans := by
    rintro s t u ⟨hst, es, hlog, hes⟩ ⟨htu, es', hlog', hes'⟩
    refine ⟨fun h => htu (hst h), es ++ es', by rw [hlog', hlog]; simp, ?_⟩
    rintro ⟨data, sw, hm, hsw⟩
    rcases List.mem_append.mp hm with hm | hm
    · exact htu (hes ⟨data, sw, hm, hsw⟩)
    · exact hes' ⟨data, sw, hm, hsw⟩

theorem Freeing.mono (h : Freeing final s t) (hf : ∀ sw, final' sw → final sw) :
    Freeing final' s t := by
  obtain ⟨hst, es, hlog, hes⟩ := h
  exact ⟨hst, es, hlog, fun ⟨data, sw, hm, hsw⟩ => hes ⟨data, sw, hm, hf sw hsw⟩⟩

theorem Freeing.of_free (es : List Event) (hlog : t.log = s.log ++ es) (hl : t.latch = none) :
    Freeing final s t :=
  ⟨fun _ => hl, es, hlog, fun _ => hl⟩

theorem Freeing.of_silent (es : List Event) (hlog : t.log = s.log ++ es) (hl : t.latch = s.latch)
    (hes : ∀ data sw, .reply data sw ∈ es → ¬ final sw) : Freeing final s t :=
  ⟨fun h => hl.trans h, es, hlog, fun ⟨data, sw, hm, hsw⟩ => absurd hsw (hes data sw hm)⟩

theorem Inner.freeing (h : Inner s t) : Freeing final s t := by
  obtain ⟨ho, es, hlog, hes⟩ := h
  exact .of_silent es hlog ho.latch fun _ _ hm => absurd (hes _ hm) Bool.false_ne_true

variable [Platform]

theorem Primitive.freeing {α : Type} {x : App α} (h : Primitive .frees x) :
    Frames (Freeing final) x := by
  constructor
  intro s
  cases h with
  | transactionHash => exact .of_silent [] (by simp) rfl (by simp)
  | signed => exact .of_silent _ rfl rfl (by simp)
  | releaseInstruction => exact .of_free [.released] rfl rfl
  | showScreen rows actions => exact .of_silent [.drawn (s.screenOf rows actions)] rfl rfl (by simp)
  | sendRejection sw =>
    rw [wp_sendRejection]
    exact .of_free [.released, .reply [] sw] rfl rfl
  | endFlow sw =>
    rw [wp_endFlow]
    exact .of_free [.released, .reply [] sw] rfl rfl
  | uiMenuMain =>
    rw [wp_uiMenuMain]
    exact .of_free _ s.toMenu_log rfl
  | sendUserRejection =>
    rw [wp_sendUserRejection]
    exact .of_free [.reply [] swoConditionsNotSatisfied, .released,
      .drawn (idleScreen s.txState.hash)] (by simp [World.answered]) rfl
  | sendSuccess data =>
    rw [wp_sendSuccess]
    exact .of_free [.reply data swoSuccess, .released, .drawn (idleScreen s.txState.hash)]
      (by simp [World.answered]) rfl

theorem Primitive.freeing_acknowledges {α : Type} {x : App α} (h : Primitive .acknowledges x) :
    Frames (Freeing errorReply) x := by
  cases h with
  | acknowledge data =>
    refine ⟨fun s => .of_silent [.reply data swoSuccess] rfl rfl ?_⟩
    rintro _ _ hm hsw
    obtain ⟨-, rfl⟩ := Event.reply.inj (List.mem_singleton.mp hm)
    exact hsw rfl

theorem Built.freeing {p : Power} {α : Type} {x : App α} (h : Built p x) :
    Frames (family (Freeing anyReply) (Freeing errorReply) Anything p) x :=
  have up (s t : World) (_ : Freeing errorReply s t) : Anything s t := trivial
  h.frames_family (fun _ _ => Inner.freeing) (fun _ _ h => h.mono fun _ _ => trivial)
    up (fun _ _ hx => hx.freeing) (fun _ _ hx => hx.freeing_acknowledges)
    fun _ x _ => frames_anything x

instance (priority := low) {α : Type} {x : App α} [h : Built .frees x] :
    Frames (Freeing final) x :=
  (Built.freeing h).mono fun _ _ h => h.mono fun _ _ => trivial

instance (priority := low) {α : Type} {x : App α} [h : Built .acknowledges x] :
    Frames (Freeing errorReply) x :=
  Built.freeing h

end Freeing

/-! ## Handlers outside the primitives -/

section Handlers
variable {final : UInt16 → Prop} [Platform]

theorem freeing_trust : TrustFramed (Freeing final) where
  frees _ _ := inferInstance
  trusted _ := ⟨fun _ => .of_silent [] (by simp) rfl (by simp)⟩
  set _ := ⟨fun _ => .of_silent _ rfl rfl (by simp)⟩
  erase := ⟨fun _ => .of_silent [] (by simp) rfl (by simp)⟩
  refuse sw := by
    refine ⟨fun s => ?_⟩
    simp only [trustedNameSendSetError, eraseStoredChallenge, ioSendSw, wp_bind, wp_modify,
      wp_releaseInstruction, wp_record, wp_ioSendResponse]
    exact .of_free [.released, .trustedNameRefused, .reply [] sw] (by simp) rfl
  challenge := by
    refine ⟨fun s => ?_⟩
    let buf := Platform.rng s.rngCalls
    simp only [handleGetChallenge, wp_bind, wp_get, wp_modify, wp_record, wp_ioSendResponse]
    exact .of_free [.released, .challengeIssued (beNat buf.bytes), .reply buf.bytes swoSuccess]
      (by simp [buf]) rfl

instance {cmd : Command} : Frames (Freeing final) (handleSetTrustedName cmd) :=
  freeing_trust.setTrustedName

instance : Frames (Freeing final) handleGetChallenge := freeing_trust.challenge

instance {cmd : Command} : Frames (Freeing final) (handleVerifyAddress cmd) :=
  freeing_trust.verifyAddress

omit [Platform] in
theorem freeing_query (data : Bytes) :
    Frames (Freeing final) (do ioSendResponse data swoSuccess; releaseInstruction) where
  frames s := by
    simp only [wp_bind, wp_ioSendResponse, wp_releaseInstruction]
    exact .of_free [.reply data swoSuccess, .released] (by simp) rfl

instance : Frames (Freeing final) (do handleGetAppName; releaseInstruction) := freeing_query _

instance : Frames (Freeing final) (do handleGetAppVersion; releaseInstruction) := freeing_query _

omit [Platform] in
instance {b : Bool} : Frames (Freeing final)
    (modify fun w => { w with publicKeyReviewPending := b } : App PUnit) where
  frames _ := .of_silent [] (by simp) rfl (by simp)

omit [Platform] in
instance : Frames (Freeing final)
    (modify fun w => { w with reviewedPath := w.derivationPath } : App PUnit) where
  frames _ := .of_silent [] (by simp) rfl (by simp)

instance : Frames (Freeing final) (sendPublicKey false) := by
  unfold sendPublicKey
  simp only [Bool.false_eq_true, if_false]
  infer_instance

end Handlers

/-! ## Dispatch -/

/-- The instructions that take neither data nor parameters. -/
def bareInstructions : List UInt8 := [insGetAppName, insGetChallenge, insAppVersion]

/-- The instructions that need data. -/
def dataInstructions : List UInt8 :=
  [insVerifyAddress, insSignTransfer, insSignTransferWithMemo, insSignTransferWithSchedule,
    insSignTransferWithScheduleAndMemo, insCredentialDeployment, insExportPrivateKeyLegacy,
    insExportPrivateKeyNew, insTransferToPublic, insRegisterData, insPublicInfoForIp,
    insConfigureBaker, insConfigureDelegation, insSignUpdateCredential, insDeployModule,
    insInitContract, insUpdateContract]

/-- The dispatcher refuses the form of a packet, or GET_PUBLIC_KEY is refused
    because the review of a key is pending. -/
def RefusedForm (s : World) (cmd : Command) : Prop :=
  if cmd.ins ∈ dataInstructions then cmd.lc = 0
  else if cmd.ins ∈ bareInstructions then cmd.lc ≠ 0 ∨ cmd.p1 ≠ 0 ∨ cmd.p2 ≠ 0
  else if cmd.ins = insGetPublicKey then cmd.lc = 0 ∨ s.publicKeyReviewPending = true
  else cmd.ins = insSignPlt ∧ cmd.lc = 0 ∧ cmd.p1 ≠ 0x01

instance (s : World) (cmd : Command) : Decidable (RefusedForm s cmd) := by
  unfold RefusedForm; infer_instance

/-- The replies that end the instruction of a packet: every error, and every
    success of an instruction that signs no transaction. -/
def finalReply (ins : UInt8) (sw : UInt16) : Prop := sw ≠ swoSuccess ∨ ins ∉ signingInstructions

/-- A packet is refused for its form, or its handler frees the latch with its
    final reply. -/
structure Served (cmd : Command) (s t : World) : Prop where
  refused : RefusedForm s cmd → ∃ sw, t = s.answered [] sw
  served : ¬ RefusedForm s cmd → Freeing (finalReply cmd.ins) s t

section Dispatch
variable {cmd : Command} {s : World} {x : App Unit}

/-- The two ends of a handler. -/
def ServesPacket (cmd : Command) (x : App Unit) (s : World) : Prop :=
  wp x (fun _ t => Served cmd s t)
    (fun _ t => ¬ RefusedForm s cmd ∧ Freeing (finalReply cmd.ins) s t) s

theorem refusedForm_data (hi : cmd.ins ∈ dataInstructions) : RefusedForm s cmd ↔ cmd.lc = 0 := by
  unfold RefusedForm; rw [if_pos hi]

theorem refusedForm_bare (hi : cmd.ins ∈ bareInstructions) :
    RefusedForm s cmd ↔ cmd.lc ≠ 0 ∨ cmd.p1 ≠ 0 ∨ cmd.p2 ≠ 0 := by
  have hd : cmd.ins ∉ dataInstructions := by
    simp only [bareInstructions, List.mem_cons, List.not_mem_nil, or_false] at hi
    rcases hi with h | h | h <;> rw [h] <;> decide
  unfold RefusedForm
  rw [if_neg hd, if_pos hi]

theorem served_of_frees [h : ∀ final, Frames (Freeing final) x] (hr : ¬ RefusedForm s cmd) :
    ServesPacket cmd x s :=
  wp_frames (R := Freeing (finalReply cmd.ins)) x
    (fun _ _ ht => ⟨fun h => absurd h hr, fun _ => ht⟩) fun _ _ ht => ⟨hr, ht⟩

theorem served_of_acknowledges [Platform] [h : Built .acknowledges x]
    (hins : cmd.ins ∈ signingInstructions)
    (hr : ¬ RefusedForm s cmd) : ServesPacket cmd x s := by
  have hfinal : ∀ sw, finalReply cmd.ins sw → errorReply sw := fun sw h =>
    h.resolve_right fun hn => hn hins
  exact wp_frames (R := Freeing errorReply) x
    (fun _ _ ht => ⟨fun h => absurd h hr, fun _ => ht.mono hfinal⟩)
    fun _ _ ht => ⟨hr, ht.mono hfinal⟩

theorem served_of_refused {sw : UInt16} (hr : RefusedForm s cmd) :
    ServesPacket cmd (ioSendSw sw) s := by
  unfold ServesPacket ioSendSw
  rw [wp_ioSendResponse]
  exact ⟨fun _ => ⟨sw, rfl⟩, fun h => absurd hr h⟩

theorem served_withData (hi : cmd.ins ∈ dataInstructions)
    (hx : ¬ RefusedForm s cmd → ServesPacket cmd x s) : ServesPacket cmd (withData cmd x) s :=
  wp_if (fun h => served_of_refused ((refusedForm_data hi).mpr h))
    fun h => hx fun hr => h ((refusedForm_data hi).mp hr)

theorem served_withoutData (hi : cmd.ins ∈ bareInstructions)
    (hx : ¬ RefusedForm s cmd → ServesPacket cmd x s) : ServesPacket cmd (withoutData cmd x) s := by
  have hr := refusedForm_bare (s := s) hi
  refine wp_if (fun h => served_of_refused (hr.mpr (.inl h))) fun hlc => ?_
  refine wp_if (fun h => served_of_refused (hr.mpr (.inr h))) fun hp => ?_
  exact hx fun h => (hr.mp h).elim hlc hp

variable [Platform]

theorem served_getPublicKey (hi : cmd.ins = insGetPublicKey) :
    ServesPacket cmd (withData cmd (handleGetPublicKey cmd)) s := by
  have hr : RefusedForm s cmd ↔ cmd.lc = 0 ∨ s.publicKeyReviewPending = true := by
    unfold RefusedForm
    rw [hi, if_neg (by decide), if_neg (by decide), if_pos rfl]
  refine wp_if (fun h => served_of_refused (hr.mpr (.inl h))) fun hlc => ?_
  unfold handleGetPublicKey
  rw [wp_bind, wp_get]
  refine wp_if (fun h => served_of_refused (hr.mpr (.inr h))) fun hp => ?_
  exact served_of_frees fun h => (hr.mp h).elim hlc hp

theorem served_signPlt {isInitialCall : Bool} (hi : cmd.ins = insSignPlt) :
    ServesPacket cmd (if cmd.lc = 0 ∧ cmd.p1 ≠ 0x01 then ioSendSw swoWrongDataLength
      else handleSignPlt cmd isInitialCall) s := by
  have hr : RefusedForm s cmd ↔ cmd.lc = 0 ∧ cmd.p1 ≠ 0x01 := by
    unfold RefusedForm
    rw [hi, if_neg (by decide), if_neg (by decide), if_neg (by decide)]
    exact ⟨fun h => h.2, fun h => ⟨rfl, h⟩⟩
  refine wp_if (fun h => served_of_refused (hr.mpr h)) fun h => ?_
  exact served_of_acknowledges (by rw [hi]; decide) fun h' => h (hr.mp h')

/-- Whatever instruction it is. -/
theorem dispatchInstruction_served (cmd : Command) (isInitialCall : Bool) (s : World) :
    ServesPacket cmd (dispatchInstruction cmd isInitialCall) s := by
  have frees {x : App Unit} {i : UInt8} [∀ final, Frames (Freeing final) x] (hi : cmd.ins = i)
      (hd : i ∈ dataInstructions) : ServesPacket cmd (withData cmd x) s :=
    served_withData (hi ▸ hd) served_of_frees
  have acknowledges {x : App Unit} {i : UInt8} [Built .acknowledges x] (hi : cmd.ins = i)
      (hd : i ∈ dataInstructions) (hs : i ∈ signingInstructions) :
    ServesPacket cmd (withData cmd x) s :=
    served_withData (hi ▸ hd) (served_of_acknowledges (hi ▸ hs))
  unfold dispatchInstruction
  refine wp_if (fun hi => served_getPublicKey hi) fun hpk => ?_
  refine wp_if (fun hi => frees hi (by decide)) fun h₀ => ?_
  refine wp_if (fun hi => acknowledges hi (by decide) (by decide)) fun h₁ => ?_
  refine wp_if (fun hi => acknowledges hi (by decide) (by decide)) fun h₂ => ?_
  refine wp_if (fun hi => acknowledges hi (by decide) (by decide)) fun h₃ => ?_
  refine wp_if (fun hi => acknowledges hi (by decide) (by decide)) fun h₄ => ?_
  refine wp_if (fun hi => acknowledges hi (by decide) (by decide)) fun h₅ => ?_
  refine wp_if (fun hi => frees hi (by decide)) fun h₆ => ?_
  refine wp_if (fun hi => frees hi (by decide)) fun h₇ => ?_
  refine wp_if (fun hi => acknowledges hi (by decide) (by decide)) fun h₈ => ?_
  refine wp_if (fun hi => acknowledges hi (by decide) (by decide)) fun h₉ => ?_
  refine wp_if (fun hi => acknowledges hi (by decide) (by decide)) fun h₁₀ => ?_
  refine wp_if (fun hi => acknowledges hi (by decide) (by decide)) fun h₁₁ => ?_
  refine wp_if (fun hi => acknowledges hi (by decide) (by decide)) fun h₁₂ => ?_
  refine wp_if (fun hi => acknowledges hi (by decide) (by decide)) fun h₁₃ => ?_
  refine wp_if (fun hi => served_withoutData (by rw [hi]; decide) served_of_frees) fun hname => ?_
  refine wp_if (fun hi => served_of_frees fun hr => ?_) fun hset => ?_
  · unfold RefusedForm at hr
    rw [hi, if_neg (by decide), if_neg (by decide), if_neg (by decide)] at hr
    exact absurd hr.1 (by decide)
  refine wp_if (fun hi => served_withoutData (by rw [hi]; decide) served_of_frees)
    fun hchallenge => ?_
  refine wp_if (fun hi => acknowledges hi (by decide) (by decide)) fun h₁₄ => ?_
  refine wp_if (fun hi => acknowledges hi (by decide) (by decide)) fun h₁₅ => ?_
  refine wp_if (fun hi => acknowledges hi (by decide) (by decide)) fun h₁₆ => ?_
  refine wp_if (fun hi => served_signPlt hi) fun hplt => ?_
  refine wp_if (fun hi => served_withoutData (by rw [hi]; decide) served_of_frees)
    fun hversion => ?_
  -- An instruction the app does not have.
  refine served_of_frees fun hr => ?_
  unfold RefusedForm at hr
  have hd : cmd.ins ∉ dataInstructions := by
    simp only [dataInstructions, List.mem_cons, List.not_mem_nil, or_false, not_or]
    tauto
  have hb : cmd.ins ∉ bareInstructions := by
    simp only [bareInstructions, List.mem_cons, List.not_mem_nil, or_false, not_or]
    tauto
  rw [if_neg hd, if_neg hb, if_neg hpk] at hr
  exact hplt hr.1

end Dispatch

/-! ## Steps -/

/-- The approvals that complete a request. -/
def Callback.completes : Callback → Bool
  | .sendSuccess | .buildAndSignTransactionHash | .sendPublicKeyConfirm | .exportPrivateKey
  | .sendPrivateKeysNewPath | .verifyAddressConfirm => true
  | _ => false

/-- Among these events of a step is the reply that ends an instruction: an
    error for a dispatched APDU, a rejection, or the reply that completes it. -/
def EndsInstruction (events : List Event) : Input → Prop
  | .apdu cmd => ∃ data sw, .reply data sw ∈ events ∧ finalReply cmd.ins sw
  | .activate c => ∃ data sw, .reply data sw ∈ events ∧ (sw ≠ swoSuccess ∨ c.completes)
  | .badLength | .badClass => False

/-- The replies that keep the latch: the dispatcher refuses the form of a
    packet that holds it, or the verdict on an address comes from a review that
    goes on to the status page. -/
def KeepsLatch (w : World) : Input → Prop
  | .apdu cmd => (w.latch = none ∨ w.latch = some cmd.ins) ∧ RefusedForm w cmd
  | .activate c => w.latch ≠ none ∧ (c = .verifyAddressConfirm ∨ c = .verifyAddressReject)
  | .badLength | .badClass => False

section Steps
variable [Platform] {cmd : Command} {s t : World} {es : List Event}

/-- The latch is free, and the next packet is a first packet on a zeroed
    context, whatever instruction it is of. -/
def Fresh (w : World) : Prop :=
  w.latch = none ∧ ∀ cmd : Command,
    runCommand cmd w = (do claimInstruction cmd.ins; dispatchGuarded cmd true : App Unit) w

theorem fresh_iff : Fresh s ↔ s.latch = none := by
  refine ⟨fun h => h.1, fun h => ⟨h, fun cmd => ?_⟩⟩
  have hrun : runCommand cmd s = (if s.latch = none
      then (do claimInstruction cmd.ins; dispatchGuarded cmd true)
      else dispatchGuarded cmd false : App Unit) s := rfl
  rw [hrun, if_pos h]

omit [Platform] in
theorem RefusedForm.congr (h : t.publicKeyReviewPending = s.publicKeyReviewPending) :
    RefusedForm t cmd ↔ RefusedForm s cmd := by
  unfold RefusedForm; rw [h]

omit [Platform] in
theorem events_unique {base es' : List Event} (h : t.log = base ++ es) (h' : t.log = base ++ es') :
    es = es' := List.append_cancel_left (h.symm.trans h')

omit [Platform] in
/-- What a served packet leaves of the latch that its instruction holds. -/
theorem Served.latch_iff (h : Served cmd s t) (hl : s.latch = some cmd.ins) {base pre : List Event}
    (hs : s.log = base ++ pre) (hpre : ∀ data sw, .reply data sw ∉ pre)
    (ht : t.log = base ++ es) (hend : ∃ data sw, .reply data sw ∈ es ∧ finalReply cmd.ins sw) :
    t.latch = none ↔ ¬ RefusedForm s cmd := by
  by_cases hr : RefusedForm s cmd
  · obtain ⟨sw, rfl⟩ := h.refused hr
    exact ⟨fun hn => absurd (hl.symm.trans hn) (by simp), fun hn => absurd hr hn⟩
  · refine ⟨fun _ => hr, fun _ => ?_⟩
    obtain ⟨-, es', hlog, hfinal⟩ := h.served hr
    obtain ⟨data, sw, hm, hsw⟩ := hend
    rw [hs, List.append_assoc] at hlog
    rw [events_unique ht hlog] at hm
    exact hfinal ⟨data, sw, (List.mem_append.mp hm).resolve_left (hpre data sw), hsw⟩

theorem guarded_served (isInitialCall : Bool) :
    wp (catching (dispatchInstruction cmd isInitialCall) endFlow) (fun _ t => Served cmd s t)
      (fun _ _ => True) s := by
  rw [wp_catching]
  refine wp_mono (fun _ _ h => h) (fun e t ⟨hr, ht⟩ => ⟨fun sw _ => ?_, fun _ => trivial⟩)
    (dispatchInstruction_served cmd isInitialCall s)
  rw [wp_endFlow]
  exact ⟨fun h => absurd h hr, fun _ => trans_of (Freeing _) ht
    (.of_free [.released, .reply [] sw] rfl rfl)⟩

/-- The events of a packet, up to its handler. -/
theorem apdu_latch (hs : step s (.apdu cmd) = some t) (ht : t.log = s.log ++ es)
    (hend : EndsInstruction es (.apdu cmd)) : t.latch = none ↔ ¬ KeepsLatch s (.apdu cmd) := by
  refine of_step (P := fun t => ∀ es, t.log = s.log ++ es → EndsInstruction es (.apdu cmd) →
    (t.latch = none ↔ ¬ KeepsLatch s (.apdu cmd))) hs ?_ es ht hend
  have handler {u : World} {isInitialCall : Bool} {p : List Event}
      (hkeeps : KeepsLatch s (.apdu cmd) ↔ RefusedForm u cmd) (hl : u.latch = some cmd.ins)
      (hu : u.log = s.log ++ p) (hpre : ∀ data sw, .reply data sw ∉ p) :
      wp (catching (dispatchInstruction cmd isInitialCall) endFlow) (fun _ t => ∀ es,
        t.log = s.log ++ es → EndsInstruction es (.apdu cmd) →
        (t.latch = none ↔ ¬ KeepsLatch s (.apdu cmd))) (fun _ _ => True) u := by
    refine wp_mono (fun _ t hserved es hlog hend => ?_) (fun _ _ _ => trivial)
      (guarded_served isInitialCall)
    rw [hkeeps]
    exact hserved.latch_iff hl hu hpre hlog hend
  simp only [runInput, deliver, wp_bind, wp_modify, wp_record]
  refine wp_runCommand (fun hnone => ?_) (fun hsome => ?_) fun ins hins hne es _ _ => ?_
  · refine handler ⟨fun h => h.2, fun h => ⟨.inl hnone, h⟩⟩ rfl
      (p := [.delivered, .claimed cmd.ins, .packet cmd.ins]) ?_ (by simp)
    simp [World.arrived, World.claimed]
  · refine handler ⟨fun h => h.2, fun h => ⟨.inr hsome, h⟩⟩ hsome
      (p := [.delivered, .packet cmd.ins]) ?_ (by simp)
    simp [World.arrived]
  · refine ⟨fun _ h => ?_, fun _ => rfl⟩
    rcases h.1 with hl | hl
    · exact absurd (hins.symm.trans hl) (by simp)
    · exact hne (Option.some.inj (hins.symm.trans hl))

/-- The approval of a public key frees the latch once the reply is out. -/
theorem sendPublicKeyConfirm_latch :
    wp (runCallback .sendPublicKeyConfirm) (fun _ t => t.latch = none) (fun _ _ => True) s := by
  have frame {α : Type} (x : App α) {Q : α → World → Prop} {u : World} (h : ∀ a t, Q a t) :
      wp x Q (fun _ _ => True) u :=
    wp_iff.mpr ⟨fun a t _ => h a t, fun _ _ _ => trivial⟩
  have hsend : wp (sendPublicKey true) (fun _ t => t.latch = none) (fun _ _ => True) s := by
    unfold sendPublicKey
    simp only [wp_bind, wp_modify, wp_get, if_true]
    refine frame _ fun publicKey t => ?_
    rw [wp_bind]
    refine frame _ fun ctx t => ?_
    rw [wp_bind]
    refine frame _ fun signature t => ?_
    simp only [sendSuccessResultNoIdle, wp_bind, wp_ioSendResponse, wp_get]
    refine frame _ fun text t => ?_
    simp only [wp_bind, wp_modify, wp_releaseInstruction]
    refine wp_mono ?_ (fun _ _ _ => trivial) (wp_uiComparePubkey (E := fun _ _ => True))
    rintro _ _ ⟨screen, -, rfl⟩
    rfl
  change wp (uxRunGuarded (sendPublicKey true)) _ _ s
  unfold uxRunGuarded
  rw [wp_catching]
  refine wp_mono (fun _ _ h => h) (fun e t _ => ⟨fun sw _ => ?_, fun _ => trivial⟩) hsend
  rw [wp_bind, wp_endFlow, wp_uiMenuMain]
  rfl

omit [Platform] in
/-- Two verdicts and one approval apart, a callback frees the latch with each
    of its replies, or acknowledges a packet. -/
theorem Callback.power_cases {c : Callback}
    (hverify : ¬ (c = .verifyAddressConfirm ∨ c = .verifyAddressReject))
    (hkey : c ≠ .sendPublicKeyConfirm) :
    c.power = .frees ∨ c.power = .acknowledges ∧ c.completes = false := by
  cases c <;> simp_all [Callback.power, Callback.completes]

/-- Whatever the user activates. -/
theorem activate_latch {c : Callback} (hs : step s (.activate c) = some t)
    (ht : t.log = s.log ++ es) (hend : EndsInstruction es (.activate c)) :
    t.latch = none ↔ ¬ KeepsLatch s (.activate c) := by
  refine of_step (P := fun t => ∀ es, t.log = s.log ++ es → EndsInstruction es (.activate c) →
    (t.latch = none ↔ ¬ KeepsLatch s (.activate c))) hs ?_ es ht hend
  change wp (activate c) _ _ s
  rw [wp_activate]
  have frees {final : UInt16 → Prop} {u : World} (hkeeps : ¬ KeepsLatch s (.activate c))
      (hu : Freeing final (s.activated c) u)
      (hfinal : ∀ sw, sw ≠ swoSuccess ∨ c.completes = true → final sw) (es : List Event)
      (hlog : u.log = s.log ++ es) (hend : EndsInstruction es (.activate c)) :
      u.latch = none ↔ ¬ KeepsLatch s (.activate c) := by
    refine ⟨fun _ => hkeeps, fun _ => ?_⟩
    obtain ⟨-, es', hlog', hes'⟩ := hu
    obtain ⟨data, sw, hm, hsw⟩ := hend
    have heq : es = .activated c :: es' :=
      events_unique hlog (hlog'.trans (List.append_assoc _ _ _))
    rw [heq] at hm
    exact hes' ⟨data, sw, (List.mem_cons.mp hm).resolve_left (by simp), hfinal sw hsw⟩
  by_cases hverify : c = .verifyAddressConfirm ∨ c = .verifyAddressReject
  · -- The verdict on an address leaves the latch as it was.
    have hiff : s.latch = none ↔ ¬ KeepsLatch s (.activate c) := by
      simp only [KeepsLatch, hverify, and_true, not_not]
    rcases hverify with rfl | rfl
    · simp only [runCallback, sendSuccessResultNoIdle, reviewStatus, wp_bind, wp_ioSendResponse,
        wp_showScreen]
      exact fun _ _ _ => hiff
    · simp only [runCallback, sendUserRejectionNoIdle, ioSendSw, reviewStatus, wp_bind,
        wp_ioSendResponse, wp_showScreen]
      exact fun _ _ _ => hiff
  have hkeeps : ¬ KeepsLatch s (.activate c) := fun h => hverify h.2
  by_cases hkey : c = .sendPublicKeyConfirm
  · subst hkey
    exact wp_mono (fun _ _ hl _ _ _ => ⟨fun _ => hkeeps, fun _ => hl⟩) (fun _ _ h => h)
      sendPublicKeyConfirm_latch
  have hframes := Built.freeing (inferInstance : Built c.power (runCallback c))
  rcases Callback.power_cases hverify hkey with hp | ⟨hp, hc⟩ <;> rw [hp] at hframes
  · have : Frames (Freeing anyReply) (runCallback c) := hframes
    exact wp_frames (R := Freeing anyReply) _ (fun _ _ hu => frees hkeeps hu fun _ _ => trivial)
      fun _ _ _ => trivial
  · have : Frames (Freeing errorReply) (runCallback c) := hframes
    have herror : ∀ sw, sw ≠ swoSuccess ∨ c.completes = true → errorReply sw := fun sw h =>
      h.resolve_right (by rw [hc]; exact Bool.false_ne_true)
    exact wp_frames (R := Freeing errorReply) _ (fun _ _ hu => frees hkeeps hu herror)
      fun _ _ _ => trivial

/-- A reply that ends an instruction leaves the latch free, and the app ready
    for a first packet of any instruction, unless it is one that keeps it. -/
theorem final_reply_frees_latch {i : Input} (hs : step s i = some t) (ht : t.log = s.log ++ es)
    (hend : EndsInstruction es i) : Fresh t ↔ ¬ KeepsLatch s i := by
  rw [fresh_iff]
  cases i with
  | badLength | badClass => exact hend.elim
  | apdu cmd => exact apdu_latch hs ht hend
  | activate c => exact activate_latch hs ht hend

end Steps

/-! ## A packet refused for its form -/

/-- A transfer without data. -/
def emptyTransfer : Command := ⟨insSignTransfer, 0, 0, [], no_data_le⟩

/-- The query for the app's name. -/
def appNameQuery : Command := ⟨insGetAppName, 0, 0, [], no_data_le⟩

/-- A transfer without data is refused but stays open, and the query that
    follows it is refused in turn. -/
theorem refused_form_keeps_latch :
    letI : Platform := device .nbgl
    ¬ ∀ inputs s i t es, runInputs World.start inputs = some s → step s i = some t →
      t.log = s.log ++ es → EndsInstruction es i → Fresh t := by
  let : Platform := device .nbgl
  let events : List Event := [.delivered, .claimed insSignTransfer, .packet insSignTransfer,
    .reply [] swoWrongDataLength]
  let refusal : List Event := [.delivered, .released, .reply [] errorInvalidState]
  have hrun : (step World.start (.apdu emptyTransfer)).any (fun t =>
      decide (t.log = World.start.log ++ events ∧ t.latch = some insSignTransfer) &&
        (step t (.apdu appNameQuery)).any fun u => decide (u.log = t.log ++ refusal)) = true := by
    decide +kernel
  obtain ⟨t, ht, hcheck⟩ := (Option.any_eq_true _ _).mp hrun
  simp only [Bool.and_eq_true, decide_eq_true_eq] at hcheck
  obtain ⟨⟨hlog, hlatch⟩, -⟩ := hcheck
  intro h
  have hfresh := h [] World.start (.apdu emptyTransfer) t events rfl ht hlog
    ⟨[], swoWrongDataLength, by simp [events], .inl (by decide)⟩
  exact absurd (hfresh.1.symm.trans hlatch) (Option.some_ne_none _).symm

/-- A query is answered, and the app is ready for any instruction. -/
theorem app_name_frees_latch :
    letI : Platform := device .nbgl
    ∃ t, step World.start (.apdu appNameQuery) = some t ∧ Fresh t := by
  let : Platform := device .nbgl
  let events : List Event := [.delivered, .claimed insGetAppName, .packet insGetAppName,
    .reply Platform.appName swoSuccess, .released]
  have hrun : (step World.start (.apdu appNameQuery)).any (fun t =>
      decide (t.log = World.start.log ++ events)) = true := by decide +kernel
  obtain ⟨t, ht, hlog⟩ := (Option.any_eq_true _ _).mp hrun
  have hends : EndsInstruction events (.apdu appNameQuery) :=
    ⟨Platform.appName, swoSuccess, by simp [events], .inr (by decide)⟩
  have hkeeps : ¬ KeepsLatch World.start (.apdu appNameQuery) := fun h => absurd h.2 (by decide)
  exact ⟨t, ht, (final_reply_frees_latch ht (of_decide_eq_true hlog) hends).mpr hkeeps⟩

end Concordium
