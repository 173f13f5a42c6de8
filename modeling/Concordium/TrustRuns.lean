/-
  Trusted names over whole runs.

  A challenge is good for one answer to SET_TRUSTED_NAME, and a stored
  descriptor for one address review.  The invariant ties the challenge and the
  descriptor in the globals to the events that granted them.
-/
import Concordium.Trust

namespace Concordium

open Buffer Wp Runs Grants

set_option synthInstance.maxSize 1000000
set_option synthInstance.maxHeartbeats 100000

/-! ## The invariant -/

/-- The challenge is the one issued last, unless it has been spent; a valid
    descriptor is the one stored last; and every descriptor was stored on the
    challenge that was current then. -/
structure Trusting [Platform] (w : World) : Prop where
  challenge : w.storedChallenge ≠ 0 → CurrentChallenge w.storedChallenge w.log
  descriptor : w.trusted.valid = true →
    ∃ tlv, LastDescriptor tlv w.log ∧ Describes w.trusted tlv ∧ verifyFields tlv = true
  stored : ∀ pre tlv post, w.log = pre ++ .trustedNameSet tlv :: post →
    tlv.challenge ≠ 0 ∧ CurrentChallenge tlv.challenge pre

section Trusting
variable [Platform] {s t : World} {cmd : Command}

theorem Trusting.forgets (h : Trusting s) (hst : Forgets s t) : Trusting t := by
  obtain ⟨htrusted, hchallenge, events, hlog, hes⟩ := hst
  refine ⟨fun hne => ?_, fun hv => ?_, fun pre tlv post hsplit => ?_⟩
  · rw [hchallenge] at hne ⊢
    rw [hlog]
    exact (h.challenge hne).append fun e he => Event.inert_challenge (hes e he)
  · rcases htrusted with htrusted | hinvalid
    · rw [htrusted] at hv ⊢
      obtain ⟨tlv, hlast, hd⟩ := h.descriptor hv
      rw [hlog]
      exact ⟨tlv, hlast.append fun e he => Event.inert_descriptor (hes e he), hd⟩
    · exact absurd (hv.symm.trans hinvalid) (by decide)
  · rw [hlog] at hsplit
    obtain ⟨rest, hrest⟩ := split_before hsplit fun hmem =>
      absurd (hes _ hmem) (by simp [Event.isTrust])
    exact h.stored pre tlv rest hrest

theorem Trusting.refused (h : Trusting s) (hst : SetRefused cmd s t) : Trusting t := by
  refine ⟨fun hne => absurd hst.storedChallenge hne, fun hv => ?_, fun pre tlv post hsplit => ?_⟩
  · have hs : t.trusted = s.trusted := by
      have htrusted := hst.trusted
      split_ifs at htrusted
      · exact htrusted
      · rw [htrusted] at hv; cases hv
    rw [hs] at hv ⊢
    obtain ⟨tlv, hlast, hd⟩ := h.descriptor hv
    rw [hst.log]
    exact ⟨tlv, hlast.append (by simp [Inert, Event.stores]), hd⟩
  · rw [hst.log] at hsplit
    obtain ⟨rest, hrest⟩ := split_before hsplit (by simp)
    exact h.stored pre tlv rest hrest

theorem Trusting.accepted {ctx : TrustedNamePkiContext} (h : Trusting s)
    (ha : SetAccepted cmd s.storedChallenge ctx) (hst : SetStored ctx s t) : Trusting t := by
  obtain ⟨events, hlog, hes, -⟩ := hst.log
  have hcurrent : ctx.tlv.challenge ≠ 0 ∧ CurrentChallenge ctx.tlv.challenge s.log := by
    rw [ha.challenge.2]
    exact ⟨ha.challenge.1, h.challenge ha.challenge.1⟩
  refine ⟨fun hne => absurd hst.storedChallenge hne, fun _ => ?_, fun pre tlv post hsplit => ?_⟩
  · rw [hlog]
    exact ⟨ctx.tlv, standing_grant rfl fun e he => Event.inert_descriptor (hes e he),
      hst.describes, ha.fields⟩
  · rw [hlog, List.append_eq_append_iff] at hsplit
    -- Either this is the descriptor just stored, or it was stored before.
    obtain ⟨c, rfl, hc⟩ | ⟨c, hs, hc⟩ := hsplit
    · cases c with
      | nil =>
        obtain ⟨heq, -⟩ := List.cons.inj hc
        obtain rfl : ctx.tlv = tlv := Event.trustedNameSet.inj heq
        simpa using hcurrent
      | cons x xs =>
        obtain ⟨-, htail⟩ := List.cons.inj hc
        have hmem : Event.trustedNameSet tlv ∈ events := by rw [htail]; simp
        exact absurd (hes _ hmem) (by simp [Event.isTrust])
    · cases c with
      | nil =>
        obtain ⟨heq, -⟩ := List.cons.inj hc
        obtain rfl : tlv = ctx.tlv := Event.trustedNameSet.inj heq
        simpa [hs] using hcurrent
      | cons x xs =>
        obtain ⟨rfl, -⟩ := List.cons.inj hc
        exact h.stored pre tlv xs hs

theorem Trusting.issued (h : Trusting s) {E : Exception → World → Prop} :
    wp handleGetChallenge (fun _ t => Trusting t) E s := by
  simp only [handleGetChallenge, wp_bind, wp_get, wp_modify, wp_record, wp_ioSendResponse]
  let buf := Platform.rng s.rngCalls
  refine ⟨fun _ => ?_, fun hv => ?_, fun pre tlv post hsplit => ?_⟩
  · exact ⟨s.log ++ [.released], .challengeIssued (beNat buf.bytes), [.reply buf.bytes swoSuccess],
      by simp [buf], rfl, by simp [Inert, Event.issues, Event.isSetAnswer]⟩
  · obtain ⟨tlv, hlast, hd⟩ := h.descriptor hv
    refine ⟨tlv, ?_, hd⟩
    simp only [List.append_assoc]
    exact hlast.append (by simp [Inert, Event.stores])
  · simp only [List.append_assoc] at hsplit
    obtain ⟨rest, hrest⟩ := split_before hsplit (by simp)
    exact h.stored pre tlv rest hrest

theorem dispatchInstruction_verifyAddress {isInitialCall : Bool} (h : cmd.ins = insVerifyAddress) :
    dispatchInstruction cmd isInitialCall = withData cmd (handleVerifyAddress cmd) := by
  simp only [dispatchInstruction, h]; rfl

theorem dispatchInstruction_setTrustedName {isInitialCall : Bool}
    (h : cmd.ins = insSetTrustedName) :
    dispatchInstruction cmd isInitialCall = handleSetTrustedName cmd := by
  simp only [dispatchInstruction, h]; rfl

theorem dispatchInstruction_getChallenge {isInitialCall : Bool} (h : cmd.ins = insGetChallenge) :
    dispatchInstruction cmd isInitialCall = withoutData cmd handleGetChallenge := by
  simp only [dispatchInstruction, h]; rfl

/-- Every handler keeps the invariant. -/
theorem Trusting.dispatched (h : Trusting s) {isInitialCall : Bool} :
    wp (dispatchInstruction cmd isInitialCall) (fun _ t => Trusting t)
      (fun e t => e ≠ .fault → Trusting t) s := by
  have forgets (x : App Unit) [Frames Forgets x] :
      wp x (fun _ t => Trusting t) (fun e t => e ≠ .fault → Trusting t) s :=
    wp_frames (R := Forgets) x (fun _ _ hst => h.forgets hst) fun _ _ hst _ => h.forgets hst
  by_cases hins : cmd.ins ∈ trustInstructions
  · have hcases : cmd.ins = insVerifyAddress ∨ cmd.ins = insSetTrustedName ∨
        cmd.ins = insGetChallenge := by simpa [trustInstructions] using hins
    rcases hcases with hins | hins | hins
    · rw [dispatchInstruction_verifyAddress hins]
      exact wp_if (fun _ => forgets _) fun _ => forgets _
    · rw [dispatchInstruction_setTrustedName hins]
      refine wp_mono (fun _ t ht => ?_) (fun e t he hne => absurd he hne)
        handleSetTrustedName_spec
      rcases ht with ht | ⟨ctx, ha, hst⟩
      · exact h.refused ht
      · exact h.accepted ha hst
    · rw [dispatchInstruction_getChallenge hins]
      exact wp_if (fun _ => forgets _) fun _ => wp_if (fun _ => forgets _) fun _ => h.issued
  · have : Frames Apart (dispatchInstruction cmd isInitialCall) := apart_dispatchInstruction hins
    exact forgets _

/-! ## Steps -/

omit [Platform] in
theorem apart_claimed {ins : UInt8} : Apart s ((s.claimed ins).arrived ins) :=
  ⟨rfl, rfl, [.claimed ins, .packet ins], by simp [World.claimed, World.arrived],
    by simp [Event.isTrust]⟩

omit [Platform] in
theorem apart_arrived {ins : UInt8} : Apart s (s.arrived ins) :=
  ⟨rfl, rfl, [.packet ins], rfl, by simp [Event.isTrust]⟩

omit [Platform] in
theorem apart_switched : Apart s s.switched :=
  ⟨rfl, rfl, [.released, .reply [] errorInvalidState], rfl, by simp [Event.isTrust]⟩

omit [Platform] in
theorem Apart.forgets (h : Apart s t) : Forgets s t := ⟨.inl h.trusted, h.storedChallenge, h.log⟩

theorem Trusting.guarded (h : Trusting s) {isInitialCall : Bool} :
    wp (catching (dispatchInstruction cmd isInitialCall) endFlow)
      (fun _ t => Trusting t) (fun _ _ => True) s := by
  rw [wp_catching]
  refine wp_mono (fun _ _ ht => ht) (fun e t ht => ⟨fun sw he => ?_, fun _ => trivial⟩)
    h.dispatched
  have hkept : Trusting t := ht (by rw [he]; simp)
  exact wp_frames (R := Forgets) (endFlow sw) (fun _ _ hst => hkept.forgets hst)
    fun _ _ _ => trivial

theorem Trusting.step {w w' : World} {i : Input} (h : Trusting w)
    (hs : Concordium.step w i = some w') : Trusting w' := by
  refine of_step hs ?_
  have forgets (x : App Unit) [Frames Forgets x] :
      wp x (fun _ t => Trusting t) (fun _ _ => True) w :=
    wp_frames (R := Forgets) x (fun _ _ hst => h.forgets hst) fun _ _ _ => trivial
  cases i with
  | badLength => exact forgets (do deliver; ioSendSw swoWrongDataLength)
  | badClass => exact forgets (do deliver; ioSendSw swoInvalidCla)
  | activate c => exact forgets (activate c)
  | apdu cmd =>
    change wp (do deliver; runCommand cmd) _ _ w
    rw [wp_bind]
    refine wp_frames (R := Forgets) deliver (fun _ u hu => ?_) fun _ _ _ => trivial
    have hu := h.forgets hu
    exact wp_runCommand (fun _ => (hu.forgets apart_claimed.forgets).guarded)
      (fun _ => (hu.forgets apart_arrived.forgets).guarded)
      fun _ _ _ => hu.forgets apart_switched.forgets

theorem Trusting.start : Trusting World.start where
  challenge hne := absurd rfl hne
  descriptor hv := absurd hv (by simp [World.start_eq, World.toMenu])
  stored pre tlv post hsplit := by
    have hmem : Event.trustedNameSet tlv ∈ World.start.log := by rw [hsplit]; simp
    simp [World.start_eq, World.toMenu] at hmem

theorem Trusting.run {w : World} {inputs : List Input}
    (hrun : runInputs World.start inputs = some w) : Trusting w :=
  run_invariant (P := fun _ _ => True) (fun _ _ _ h _ hs => h.step hs) Trusting.start
    (along_iff.mpr fun _ _ _ _ _ _ => trivial) hrun

/-- A descriptor is valid only if it was before, or has been stored since. -/
def Earns (s t : World) : Prop :=
  ∃ events, t.log = s.log ++ events ∧
    (t.trusted.valid = true → s.trusted.valid = true ∨ ∃ tlv, .trustedNameSet tlv ∈ events)

omit [Platform] in
instance : IsPreorder World Earns where
  refl _ := ⟨[], by simp, .inl⟩
  trans := by
    rintro s t u ⟨es, hlog, hv⟩ ⟨es', hlog', hv'⟩
    refine ⟨es ++ es', by rw [hlog', hlog]; simp, fun h => ?_⟩
    rcases hv' h with h | ⟨tlv, h⟩
    · exact (hv h).imp_right fun ⟨tlv, h⟩ => ⟨tlv, List.mem_append_left _ h⟩
    · exact .inr ⟨tlv, List.mem_append_right _ h⟩

omit [Platform] in
theorem Forgets.earns (h : Forgets s t) : Earns s t := by
  obtain ⟨htrusted, -, events, hlog, -⟩ := h
  refine ⟨events, hlog, fun hv => .inl ?_⟩
  rcases htrusted with htrusted | hinvalid
  · exact htrusted ▸ hv
  · exact absurd (hv.symm.trans hinvalid) (by decide)

omit [Platform] in
instance (priority := low) {α : Type} {x : App α} [h : Frames Forgets x] : Frames Earns x :=
  h.mono fun _ _ => Forgets.earns

instance : Frames Earns handleGetChallenge where
  frames s := by
    simp only [handleGetChallenge, wp_bind, wp_get, wp_modify, wp_record, wp_ioSendResponse,
      List.append_assoc]
    exact ⟨_, rfl, .inl⟩

omit [Platform] in
instance : Frames Earns refuseTrustedName where
  frames s := by
    rw [wp_refuseTrustedName]
    exact ⟨_, rfl, .inl⟩

omit [Platform] in
instance {sw : UInt16} : Frames Earns (trustedNameSendSetError sw) where
  frames s := by
    simp only [trustedNameSendSetError, eraseStoredChallenge, ioSendSw, wp_bind, wp_modify,
      wp_releaseInstruction, wp_record, wp_ioSendResponse, List.append_assoc]
    exact ⟨_, rfl, .inl⟩

omit [Platform] in
instance {tlv : TrustedNameTlvExtracted} : Frames Earns (storeTrustedName tlv) where
  frames s := by
    simp only [storeTrustedName, eraseStoredChallenge, wp_bind, wp_memmove, wp_modify, wp_record]
    exact ⟨fun _ => ⟨fun _ => ⟨_, rfl, fun _ => .inr ⟨tlv, by simp⟩⟩, fun _ => refl_of Earns s⟩,
      fun _ => refl_of Earns s⟩

omit [Platform] in
instance : Frames Earns
    (modify fun w => { w with trusted := { w.trusted with valid := false } } : App PUnit) where
  frames _ := ⟨[], by simp, fun h => absurd h Bool.false_ne_true⟩

instance : Frames Earns (handleSetTrustedName cmd) := by
  unfold handleSetTrustedName
  cases ccdParseTlv cmd.data <;> infer_instance

instance {isInitialCall : Bool} : Frames Earns (dispatchInstruction cmd isInitialCall) := by
  by_cases hins : cmd.ins ∈ trustInstructions
  · have hcases : cmd.ins = insVerifyAddress ∨ cmd.ins = insSetTrustedName ∨
        cmd.ins = insGetChallenge := by simpa [trustInstructions] using hins
    rcases hcases with hins | hins | hins
    · rw [dispatchInstruction_verifyAddress hins]; unfold withData; infer_instance
    · rw [dispatchInstruction_setTrustedName hins]; infer_instance
    · rw [dispatchInstruction_getChallenge hins]; unfold withoutData; infer_instance
  · have : Frames Apart (dispatchInstruction cmd isInitialCall) := apart_dispatchInstruction hins
    infer_instance

instance {isInitialCall : Bool} : Frames Earns (dispatchGuarded cmd isInitialCall) := by
  unfold dispatchGuarded apduDispatcher; infer_instance

instance {i : Input} : Frames Earns (runInput i) := by
  cases i <;> unfold runInput
  case apdu cmd => unfold runCommand; infer_instance
  all_goals infer_instance

/-- A descriptor becomes valid only by being stored. -/
theorem earns_run {u v : World} {inputs : List Input} (hrun : runInputs u inputs = some v) :
    Earns u v :=
  have hstep : ∀ s i t, Earns u s → True → step s i = some t → Earns u t := fun _ _ _ h _ hs =>
    trans_of Earns h (of_step hs (wp_frames (R := Earns) _ (fun _ _ h => h) fun _ _ _ => trivial))
  run_invariant hstep (refl_of Earns u) (along_iff.mpr fun _ _ _ _ _ _ => trivial) hrun

end Trusting

/-! ## Results -/

section Results
variable [Platform] {w v : World} {cmd : Command} {inputs : List Input}

/-- A command of an instruction, taken apart at its handler: `Q` holds of what
    the dispatcher's guard makes of it, or the command is refused because
    another instruction is open. -/
theorem of_step_apdu {Q : World → Prop} (hs : step w (.apdu cmd) = some v)
    (hhandler : ∀ u isInitialCall events, u.log = w.log ++ events →
      (∀ e ∈ events, e.isReply = false ∧ e.isTrust = false) → u.trusted = w.trusted →
      u.storedChallenge = w.storedChallenge →
      wp (catching (dispatchInstruction cmd isInitialCall) endFlow) (fun _ t => Q t)
        (fun _ _ => True) u)
    (hother : ∀ u : World, u.replyPending = false →
      u.log = w.log ++ [.delivered, .released, .reply [] errorInvalidState] → Q u) : Q v := by
  refine of_step hs ?_
  simp only [runInput, deliver, wp_bind, wp_modify, wp_record]
  refine wp_runCommand (fun _ => ?_) (fun _ => ?_) fun _ _ _ => ?_
  · exact hhandler _ true [.delivered, .claimed cmd.ins, .packet cmd.ins]
      (by simp [World.arrived, World.claimed]) (by simp [Event.isReply, Event.isTrust]) rfl rfl
  · exact hhandler _ false [.delivered, .packet cmd.ins] (by simp [World.arrived])
      (by simp [Event.isReply, Event.isTrust]) rfl rfl
  · exact hother _ rfl (by simp [World.switched])

/-- Whenever VERIFY_ADDRESS reaches its review. -/
theorem verifyAddress_step (hins : cmd.ins = insVerifyAddress)
    (hs : step w (.apdu cmd) = some v) (hp : v.replyPending = true) :
    v.trusted.valid = false ∧ ∃ dp credCounter, Requests cmd dp credCounter ∧
      ReviewsAddress w.trusted dp.harden dp.network credCounter v := by
  refine of_step_apdu (Q := fun t => t.replyPending = true → t.trusted.valid = false ∧
    ∃ dp credCounter, Requests cmd dp credCounter ∧
      ReviewsAddress w.trusted dp.harden dp.network credCounter t) hs ?_ ?_ hp
  · intro u isInitialCall events _ _ htrusted _
    rw [dispatchInstruction_verifyAddress hins, wp_catching, ← htrusted]
    refine wp_if (fun _ => ?_) fun _ => ?_
    · rw [ioSendSw, wp_ioSendResponse]
      exact fun h => absurd h Bool.false_ne_true
    · refine wp_mono (fun _ _ h => h) (fun e t _ => ⟨fun sw _ => ?_, fun _ => trivial⟩)
        handleVerifyAddress_spec
      rw [wp_endFlow]
      exact fun h => absurd h Bool.false_ne_true
  · intro u hu _ hp
    exact absurd (hp.symm.trans hu) (by decide)

/-- What SET_TRUSTED_NAME comes to. -/
inductive SetAnswers (cmd : Command) (challenge : ℕ) (events : List Event) : Prop where
  /-- Another instruction was open, and the handler has not seen the command. -/
  | switched (hpacket : .packet cmd.ins ∉ events)
  | refused (hrefused : .trustedNameRefused ∈ events)
  | stored (ctx : TrustedNamePkiContext) (haccepted : SetAccepted cmd challenge ctx)
      (hstored : .trustedNameSet ctx.tlv ∈ events)

theorem setTrustedName_step (hins : cmd.ins = insSetTrustedName)
    (hs : step w (.apdu cmd) = some v) : ∃ events, v.log = w.log ++ events ∧
      SetAnswers cmd w.storedChallenge events ∧
      ((∃ data, .reply data swoSuccess ∈ events) → ∃ ctx, SetAccepted cmd w.storedChallenge ctx ∧
        .trustedNameSet ctx.tlv ∈ events) := by
  refine of_step_apdu (Q := fun t => ∃ events, t.log = w.log ++ events ∧
      SetAnswers cmd w.storedChallenge events ∧
      ((∃ data, .reply data swoSuccess ∈ events) → ∃ ctx, SetAccepted cmd w.storedChallenge ctx ∧
        .trustedNameSet ctx.tlv ∈ events)) hs ?_ ?_
  · intro u isInitialCall events hlog hes _ hchallenge
    rw [dispatchInstruction_setTrustedName hins, wp_catching, ← hchallenge]
    refine wp_mono (fun _ t ht => ?_) (fun e t he => ⟨fun sw hsw => ?_, fun _ => trivial⟩)
      handleSetTrustedName_spec
    · rcases ht with ht | ⟨ctx, ha, hst⟩
      · refine ⟨events ++ [.released, .trustedNameRefused, .reply [] errorInvalidParam],
          by rw [ht.log, hlog]; simp, .refused (by simp), ?_⟩
        rintro ⟨data, hmem⟩
        rcases List.mem_append.mp hmem with hmem | hmem
        · exact absurd (hes _ hmem).1 (by simp [Event.isReply])
        · simp [swoSuccess, errorInvalidParam] at hmem
      · obtain ⟨later, hlater, -, -⟩ := hst.log
        have hmem : .trustedNameSet ctx.tlv ∈ events ++ .trustedNameSet ctx.tlv :: later := by simp
        exact ⟨_, by rw [hlater, hlog, List.append_assoc], .stored ctx ha hmem,
          fun _ => ⟨ctx, ha, hmem⟩⟩
    · rw [he] at hsw; cases hsw
  · intro u _ hlog
    refine ⟨_, hlog, .switched (by simp), ?_⟩
    rintro ⟨data, hmem⟩
    simp [swoSuccess, errorInvalidState] at hmem

/-- A challenge is spent by the first answer to SET_TRUSTED_NAME.  Any such
    command is refused, unless every check passes and its challenge is the one
    issued last; then, as long as challenges do not repeat, neither that
    challenge nor any older one is ever accepted again. -/
theorem set_trusted_name_spends_challenge (hrun : runInputs World.start inputs = some w)
    (hfresh : (w.log.filterMap Event.issues).Nodup) :
    (∀ cmd v, cmd.ins = insSetTrustedName → step w (.apdu cmd) = some v →
      ∃ events, v.log = w.log ++ events ∧ SetAnswers cmd w.storedChallenge events ∧
        ((∃ data, .reply data swoSuccess ∈ events) → ∃ entries ctx,
          Platform.tlvEntries cmd.data = some entries ∧
          ccdParseTlvFrom entries {} = some ctx ∧ verifyFields ctx.tlv = true ∧
          ctx.tlv.challenge ≠ 0 ∧ CurrentChallenge ctx.tlv.challenge w.log ∧
          ctx.hashCtx = signedBytes entries ∧
          (∃ digest, finalizeMultiHash (signedBytes entries) ctx.tlv.signerAlgo = some digest ∧
            Platform.checkSignatureWithPki digest (signerCurve ctx.tlv.signerAlgo)
              ctx.tlv.signature = true) ∧
          .trustedNameSet ctx.tlv ∈ events)) ∧
    (∀ pre tlv mid tlv' post,
      w.log = pre ++ .trustedNameSet tlv :: (mid ++ .trustedNameSet tlv' :: post) →
      tlv.challenge ≠ tlv'.challenge) ∧
    (∀ pre e mid tlv' post, w.log = pre ++ e :: (mid ++ .trustedNameSet tlv' :: post) →
      e.isSetAnswer → ∀ c ∈ pre.filterMap Event.issues, c ≠ tlv'.challenge) := by
  have h := Trusting.run hrun
  have spent : ∀ pre e mid tlv' post, w.log = pre ++ e :: (mid ++ .trustedNameSet tlv' :: post) →
      e.isSetAnswer → ∀ c ∈ pre.filterMap Event.issues, c ≠ tlv'.challenge := by
    intro pre e mid tlv' post hlog he c hc
    have hlog' : w.log = (pre ++ e :: mid) ++ .trustedNameSet tlv' :: post := by rw [hlog]; simp
    have hcurrent := (h.stored _ tlv' post hlog').2
    have hgrant : e.issues = none := by cases e <;> first | rfl | cases he
    have hnodup : ((pre ++ e :: mid).filterMap Event.issues).Nodup := by
      rw [hlog', List.filterMap_append] at hfresh
      exact hfresh.of_append_left
    exact hcurrent.fresh he hgrant hnodup hc
  refine ⟨fun cmd v hins hs => ?_, fun pre tlv mid tlv' post hlog => ?_, spent⟩
  · obtain ⟨events, hlog, hanswer, hsuccess⟩ := setTrustedName_step hins hs
    refine ⟨events, hlog, hanswer, fun hreply => ?_⟩
    obtain ⟨ctx, haccepted, hstored⟩ := hsuccess hreply
    obtain ⟨entries, hentries, hparsed⟩ := Option.bind_eq_some_iff.mp haccepted.parsed
    have hcurrent : CurrentChallenge ctx.tlv.challenge w.log := by
      rw [haccepted.challenge.2]
      exact h.challenge haccepted.challenge.1
    have hhashed : ctx.hashCtx = signedBytes entries := by
      simpa using ccdParseTlvFrom_hashCtx hparsed
    refine ⟨entries, ctx, hentries, hparsed, haccepted.fields, ?_, hcurrent, hhashed, ?_, hstored⟩
    · rw [haccepted.challenge.2]; exact haccepted.challenge.1
    · rw [← hhashed]
      exact verifySignature_iff.mp haccepted.signature
  · exact spent pre _ mid tlv' post hlog trivial _ (h.stored pre tlv _ hlog).2.mem

/-- A review of VERIFY_ADDRESS that a stored descriptor contributes to. -/
structure BoundReview (u : World) (i : Input) (v : World) : Prop where
  command : ∃ cmd, i = .apdu cmd ∧ cmd.ins = insVerifyAddress
  step : Concordium.step u i = some v
  valid : u.trusted.valid = true
  review : v.replyPending = true

/-- Whatever came before: a review shows the address the device derived, or the
    one its valid descriptor certifies for the account under review; and one
    descriptor contributes to one review. -/
theorem verify_address_binds_descriptor (hrun : runInputs World.start inputs = some w) :
    (∀ cmd v, cmd.ins = insVerifyAddress → step w (.apdu cmd) = some v → v.replyPending = true →
      ∃ (dp : DerivationPath) (credCounter : UInt32) (address : Buf 65),
        Requests cmd dp credCounter ∧
        v.screen.rows.getLast? = some (row "Address" address.text) ∧
        (w.trusted.valid = false → Derives dp.harden credCounter address) ∧
        (w.trusted.valid = true → ∃ tlv, LastDescriptor tlv w.log ∧
          address.text = tlv.name.text ∧ expectedChainId dp.network = some tlv.chainId ∧
          PublicKeyAt dp.harden tlv.address ∧
          (cmd.p1 ≠ p1FullPath ∧ Derives dp.harden credCounter address ∨
            cmd.p1 = p1FullPath ∧ NamesOneAccount dp.harden))) ∧
    (∀ is i js j ks u v x y, inputs = is ++ i :: (js ++ j :: ks) →
      runInputs World.start is = some u → BoundReview u i v → runInputs v js = some x →
      BoundReview x j y → ∃ events tlv, x.log = v.log ++ events ∧
        .trustedNameSet tlv ∈ events) := by
  refine ⟨fun cmd v hins hs hp => ?_, fun is i js j ks u v x y _ _ hi hjs hj => ?_⟩
  · obtain ⟨-, dp, credCounter, hrequest, address, hrow, hderived, hbound⟩ :=
      verifyAddress_step hins hs hp
    refine ⟨dp, credCounter, address, hrequest, hrow, hderived, fun hv => ?_⟩
    obtain ⟨tlv, hlast, hd, hfields⟩ := (Trusting.run hrun).descriptor hv
    have hb := hbound hv
    have hlen : tlv.address.length = keyLength := by
      by_contra hne
      simp [verifyFields, hne] at hfields
    have haddress : w.trusted.address.bytes.take keyLength = tlv.address := by
      have htake : tlv.address.take 64 = tlv.address :=
        List.take_of_length_le (by rw [hlen]; decide)
      have := hd.address
      rwa [hb.addressLen, htake] at this
    refine ⟨tlv, hlast, hb.name.trans hd.name, by rw [hb.chainId, hd.chainId], ?_, ?_⟩
    · rw [← haddress]; exact hb.publicKey
    · rcases hb.account with ⟨hvariant, hderives⟩ | ⟨hvariant, hshape⟩
      · exact .inl ⟨fun h => hvariant (hrequest.variant.mpr h), hderives⟩
      · exact .inr ⟨hrequest.variant.mp hvariant, namesOneAccount hshape hb.chainId⟩
  · obtain ⟨cmd, rfl, hins⟩ := hi.command
    have hspent := (verifyAddress_step hins hi.step hi.review).1
    obtain ⟨events, hlog, hv⟩ := earns_run hjs
    rcases hv hj.valid with hv | ⟨tlv, htlv⟩
    · exact absurd (hv.symm.trans hspent) (by decide)
    · exact ⟨events, tlv, hlog, htlv⟩

end Results

/-! ## A descriptor and its review -/

/-- A certified descriptor for counter 5 of identity 3 at provider 2, in answer to
    a challenge. -/
def certifiedDescriptor (challenge : ℕ) : Bytes :=
  [0x01, 1, 3, 0x02, 1, 3, 0x70, 1, 7, 0x71, 1, 6, 0x20, 50] ++ ascii "abcmjhacadad" ++
    List.replicate 38 97 ++ [0x23, 8] ++ toBe 8 0 ++ [0x22, 32] ++ List.replicate 32 0 ++
    [0x12, 8] ++ toBe 8 challenge ++ [0x13, 2, 0, 7, 0x14, 1, 1, 0x15, 64] ++ List.replicate 64 1

theorem certifiedDescriptor_length (challenge : ℕ) :
    (certifiedDescriptor challenge).length = 191 := by
  have hprovider : (ascii "abcmjhacadad").length = 12 := rfl
  unfold certifiedDescriptor
  simp only [List.length_append, List.length_cons, List.length_nil, List.length_replicate,
    toBe_length, hprovider, Nat.reduceAdd]

/-- The descriptor in one packet. -/
def setTrustedNameCommand (challenge : ℕ) : Command where
  ins := insSetTrustedName
  p1 := 0
  p2 := 0
  data := certifiedDescriptor challenge
  lc_le := by rw [certifiedDescriptor_length]; decide

/-- A request for a challenge. -/
def getChallengeCommand : Command := ⟨insGetChallenge, 0, 0, [], no_data_le⟩

/-- A challenge, and the descriptor that answers it. -/
def trustedNameInputs (challenge : ℕ) : List Input :=
  [.apdu getChallengeCommand, .apdu (setTrustedNameCommand challenge)]

/-- The account of the descriptor in the compact form. -/
def verifyAddressCommand : Command :=
  ⟨insVerifyAddress, p1NewPath, 0, toBe 4 2 ++ toBe 4 3 ++ toBe 4 5, by decide⟩

/-- The same account by the path of its keys. -/
def verifyFullPathCommand : Command :=
  ⟨insVerifyAddress, p1FullPath, 0, 6 :: [44, 919, 2, 3, 0, 5].flatMap (toBe 4), by decide⟩

/-- Two descriptors are stored, each for the challenge issued before it, and a
    third one behind them. -/
theorem challenge_spent_once :
    letI : Platform := device .nbgl
    ∃ w v pre tlv mid tlv' post,
      runInputs World.start (trustedNameInputs 1 ++ trustedNameInputs 2 ++
        [.apdu getChallengeCommand]) = some w ∧
      w.log = pre ++ .trustedNameSet tlv :: (mid ++ .trustedNameSet tlv' :: post) ∧
      tlv.challenge ≠ tlv'.challenge ∧ (∀ c ∈ pre.filterMap Event.issues, c ≠ tlv'.challenge) ∧
      step w (.apdu (setTrustedNameCommand 3)) = some v ∧
      ∃ events entries ctx, v.log = w.log ++ events ∧
        Platform.tlvEntries (certifiedDescriptor 3) = some entries ∧
        ccdParseTlvFrom entries {} = some ctx ∧ CurrentChallenge ctx.tlv.challenge w.log ∧
        (∃ digest, finalizeMultiHash (signedBytes entries) ctx.tlv.signerAlgo = some digest ∧
          Platform.checkSignatureWithPki digest (signerCurve ctx.tlv.signerAlgo)
            ctx.tlv.signature = true) ∧
        .trustedNameSet ctx.tlv ∈ events := by
  let : Platform := device .nbgl
  have hrun : (runInputs World.start (trustedNameInputs 1 ++ trustedNameInputs 2 ++
      [.apdu getChallengeCommand])).any (fun w =>
        decide ((w.log.filterMap Event.issues).Nodup ∧
          (w.log.filterMap Event.stores).length = 2) &&
        (step w (.apdu (setTrustedNameCommand 3))).any fun v =>
          decide (.reply [] swoSuccess ∈ v.log.drop w.log.length)) = true := by
    decide +kernel
  obtain ⟨w, hw, hcheck⟩ := (Option.any_eq_true _ _).mp hrun
  obtain ⟨hlog, hstep⟩ := Bool.and_eq_true_iff.mp hcheck
  obtain ⟨hnodup, hlength⟩ := of_decide_eq_true hlog
  obtain ⟨v, hv, hreply⟩ := (Option.any_eq_true _ _).mp hstep
  obtain ⟨tlv, tlv', hstored⟩ := List.length_eq_two.mp hlength
  obtain ⟨pre, e, rest, hlog, -, he, hrest⟩ := List.filterMap_eq_cons_iff.mp hstored
  obtain ⟨mid, e', post, rfl, -, he', -⟩ := List.filterMap_eq_cons_iff.mp hrest
  obtain rfl := Event.eq_of_stores he
  obtain rfl := Event.eq_of_stores he'
  obtain ⟨hcommand, hdistinct, hspent⟩ := set_trusted_name_spends_challenge hw hnodup
  obtain ⟨events, hevents, -, hsuccess⟩ := hcommand _ v rfl hv
  have hreply' : .reply [] swoSuccess ∈ events := by
    have hmem := of_decide_eq_true hreply
    rwa [hevents, List.drop_left] at hmem
  obtain ⟨entries, ctx, hentries, hctx, -, -, hcurrent, -, hsigned, hset⟩ :=
    hsuccess ⟨_, hreply'⟩
  exact ⟨w, v, pre, tlv, mid, tlv', post, hw, hlog, hdistinct _ _ _ _ _ hlog,
    hspent _ _ _ _ _ hlog trivial, hv, events, entries, ctx, hevents, hentries, hctx, hcurrent,
    hsigned, hset⟩

/-- A review of the compact path, and after another descriptor one of the path of
    the keys. -/
theorem verify_address_certified :
    letI : Platform := device .nbgl
    ∃ u v x y, runInputs World.start (trustedNameInputs 1) = some u ∧
      BoundReview u (.apdu verifyAddressCommand) v ∧
      runInputs v ([.activate .verifyAddressConfirm, .activate .uiMenuMain] ++
        trustedNameInputs 2) = some x ∧
      BoundReview x (.apdu verifyFullPathCommand) y ∧
      (∃ (dp : DerivationPath) (credCounter : UInt32) (address : Buf 65) (tlv : _),
        v.screen.rows.getLast? = some (row "Address" address.text) ∧ LastDescriptor tlv u.log ∧
        address.text = tlv.name.text ∧ Derives dp.harden credCounter address) ∧
      (∃ (dp : DerivationPath) (address : Buf 65) (tlv : _),
        y.screen.rows.getLast? = some (row "Address" address.text) ∧ LastDescriptor tlv x.log ∧
        address.text = tlv.name.text ∧ PublicKeyAt dp.harden tlv.address ∧
        NamesOneAccount dp.harden) ∧
      ∃ events tlv, x.log = v.log ++ events ∧ .trustedNameSet tlv ∈ events := by
  let : Platform := device .nbgl
  have hrun : (runInputs World.start (trustedNameInputs 1)).any (fun u => u.trusted.valid &&
      (step u (.apdu verifyAddressCommand)).any fun v => v.replyPending &&
        (runInputs v ([.activate .verifyAddressConfirm, .activate .uiMenuMain] ++
          trustedNameInputs 2)).any fun x => x.trusted.valid &&
            (step x (.apdu verifyFullPathCommand)).any (·.replyPending)) = true := by
    decide +kernel
  obtain ⟨u, hu, hcheck⟩ := (Option.any_eq_true _ _).mp hrun
  obtain ⟨hvalid, hcheck⟩ := Bool.and_eq_true_iff.mp hcheck
  obtain ⟨v, hv, hcheck⟩ := (Option.any_eq_true _ _).mp hcheck
  obtain ⟨hreview, hcheck⟩ := Bool.and_eq_true_iff.mp hcheck
  obtain ⟨x, hx, hcheck⟩ := (Option.any_eq_true _ _).mp hcheck
  obtain ⟨hvalid', hcheck⟩ := Bool.and_eq_true_iff.mp hcheck
  obtain ⟨y, hy, hreview'⟩ := (Option.any_eq_true _ _).mp hcheck
  have hfirst : BoundReview u (.apdu verifyAddressCommand) v := ⟨⟨_, rfl, rfl⟩, hv, hvalid, hreview⟩
  have hsecond : BoundReview x (.apdu verifyFullPathCommand) y :=
    ⟨⟨_, rfl, rfl⟩, hy, hvalid', hreview'⟩
  have behind {is : List Input} {w : World} (hw : runInputs v is = some w) :
      runInputs World.start (trustedNameInputs 1 ++ .apdu verifyAddressCommand :: is) = some w := by
    unfold runInputs at hu hw ⊢
    rw [run_append, hu, Option.bind_some, run, hv]
    exact hw
  have hend : runInputs v (([.activate .verifyAddressConfirm, .activate .uiMenuMain] ++
      trustedNameInputs 2) ++ [.apdu verifyFullPathCommand]) = some y := by
    unfold runInputs at hx ⊢
    rw [run_append, hx, Option.bind_some, run, hy]
    rfl
  obtain ⟨dp, credCounter, address, -, hrow, -, hbound⟩ :=
    (verify_address_binds_descriptor hu).1 verifyAddressCommand v rfl hv hreview
  obtain ⟨tlv, hlast, hname, -, -, haccount⟩ := hbound hvalid
  obtain ⟨dp', _, address', -, hrow', -, hbound'⟩ :=
    (verify_address_binds_descriptor (behind hx)).1 verifyFullPathCommand y rfl hy hreview'
  obtain ⟨tlv', hlast', hname', -, hkey', haccount'⟩ := hbound' hvalid'
  refine ⟨u, v, x, y, hu, hfirst, hx, hsecond,
    ⟨dp, credCounter, address, tlv, hrow, hlast, hname, ?_⟩,
    ⟨dp', address', tlv', hrow', hlast', hname', hkey', ?_⟩, ?_⟩
  · exact (haccount.resolve_right fun h => absurd h.1 (by decide)).2
  · exact (haccount'.resolve_left fun h => h.1 rfl).2
  · exact (verify_address_binds_descriptor (behind hend)).2 _ _ _ _ [] u v x y rfl hu hfirst hx
      hsecond

end Concordium
