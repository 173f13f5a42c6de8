/-
  What holds of a flow over a whole run.

  A flow is opened by a first packet, goes on with the packets of the same
  instruction, and is under review while a reply is owed.  `FlowRules` says
  what each of these keeps; in every run in which reviews are answered once,
  its invariants then hold whenever the instruction has the latch.
-/
import Concordium.Sender

namespace Concordium

open Buffer Wp Runs

set_option synthInstance.maxSize 1000000
set_option synthInstance.maxHeartbeats 100000

/-! ## Nobody but the main loop claims the latch -/

/-- The latch is left as it is, or freed. -/
def Unclaimed (s t : World) : Prop := t.latch = s.latch ∨ t.latch = none

section Unclaimed
variable {s t : World}

instance : IsPreorder World Unclaimed where
  refl _ := .inl rfl
  trans := by
    rintro s t u (hst | hst) (htu | htu)
    · exact .inl (htu.trans hst)
    · exact .inr htu
    · exact .inr (htu.trans hst)
    · exact .inr htu

theorem Inner.unclaimed (h : Inner s t) : Unclaimed s t := .inl h.latch

variable [Platform]

theorem Primitive.unclaimed {p : Power} {α : Type} {x : App α} (h : Primitive p x)
    (hp : p = .frees ∨ p = .acknowledges ∨ p = .replies) : Frames Unclaimed x := by
  constructor
  intro s
  cases h with
  | transactionHash | signed | showScreen | acknowledge | ioSendResponse | publicKeyReviewPending
  | reviewedPath => exact .inl rfl
  | releaseInstruction => exact .inr rfl
  | sendRejection sw =>
    rw [wp_sendRejection]
    exact .inr rfl
  | endFlow sw =>
    rw [wp_endFlow]
    exact .inr rfl
  | uiMenuMain =>
    rw [wp_uiMenuMain]
    exact .inr rfl
  | sendUserRejection =>
    rw [wp_sendUserRejection]
    exact .inr rfl
  | sendSuccess data =>
    rw [wp_sendSuccess]
    exact .inr rfl
  | _ => exact absurd hp (by decide)

theorem Built.unclaimed {p : Power} {α : Type} {x : App α} (h : Built p x) :
    Frames Unclaimed x :=
  have up (s t : World) (h : Unclaimed s t) : Unclaimed s t := h
  (built_replies h).frames_family (fun _ _ => Inner.unclaimed) up up
    (fun _ _ hx => hx.unclaimed (.inl rfl)) (fun _ _ hx => hx.unclaimed (.inr (.inl rfl)))
    fun _ _ hx => hx.unclaimed (.inr (.inr rfl))

end Unclaimed

/-! ## What the user has been shown -/

/-- The rows shown, behind an event. -/
def Event.shows (rows : List Row) : Event → List Row
  | .claimed _ => []
  | .drawn screen => rows ++ screen.rows
  | _ => rows

/-- The rows drawn since the latch was claimed. -/
def displayed (log : List Event) : List Row := log.foldl Event.shows []

@[simp] theorem displayed_append (log es : List Event) :
    displayed (log ++ es) = es.foldl Event.shows (displayed log) := List.foldl_append

/-- The steps by which the user refuses what is on screen. -/
def Callback.isRejection : Callback → Bool
  | .sendUserRejection | .rejectStagedReview | .rejectPrivateKeysNewPath
  | .verifyAddressReject => true
  | _ => false

/-- The rows the user has accepted and those on screen, behind an event. -/
def Event.accepts (rows : List Row × List Row) : Event → List Row × List Row
  | .claimed _ => ([], [])
  | .drawn screen => (rows.1, screen.rows)
  | .activated c => if c.isIdle || c.isRejection then rows else (rows.1 ++ rows.2, rows.2)
  | _ => rows

/-- The rows accepted since the latch was claimed. -/
def accepted (log : List Event) : List Row := (log.foldl Event.accepts ([], [])).1

/-- The rows on screen. -/
def onScreen (log : List Event) : List Row := (log.foldl Event.accepts ([], [])).2

@[simp] theorem accepted_append (log es : List Event) :
    accepted (log ++ es) = (es.foldl Event.accepts (accepted log, onScreen log)).1 :=
  congrArg Prod.fst List.foldl_append

@[simp] theorem onScreen_append (log es : List Event) :
    onScreen (log ++ es) = (es.foldl Event.accepts (accepted log, onScreen log)).2 :=
  congrArg Prod.snd List.foldl_append

theorem Inner.accepted {s t : World} (h : Inner s t) : accepted t.log = accepted s.log := by
  obtain ⟨-, es, hlog, hes⟩ := h
  rw [hlog, accepted_append]
  clear hlog
  induction es with
  | nil => rfl
  | cons e es ih =>
    have hsame (rows : List Row × List Row) : e.accepts rows = rows := by
      have he := hes e List.mem_cons_self
      cases e <;> first | rfl | cases he
    rw [List.foldl_cons, hsame]
    exact ih fun e he => hes e (List.mem_cons_of_mem _ he)

/-! ## Rules for a flow -/

/-- The same state, but for the screen and the conversation. -/
def Still (s t : World) : Prop :=
  t = { s with screen := t.screen, log := t.log, replyPending := t.replyPending }

/-- While `ins` has the latch, `I` holds between packets and `R` under
    review. -/
structure Flowing (ins : UInt8) (I R : World → Prop) (w : World) : Prop where
  between : w.latch = some ins → w.replyPending = false → I w
  review : w.latch = some ins → w.replyPending = true → R w

section Flowing
variable {ins : UInt8} {I R : World → Prop} {w w' : World} {i : Input}

theorem Flowing.of_latch (h : w.latch ≠ some ins) : Flowing ins I R w :=
  ⟨fun hl => absurd hl h, fun hl => absurd hl h⟩

theorem Flowing.of_free (h : w.latch = none) : Flowing ins I R w :=
  .of_latch (by rw [h]; exact (Option.some_ne_none _).symm)

theorem Flowing.of_between (hp : w.replyPending = false) (h : I w) : Flowing ins I R w :=
  ⟨fun _ _ => h, fun _ hp' => absurd (hp.symm.trans hp') Bool.false_ne_true⟩

theorem Flowing.of_review (hp : w.replyPending = true) (h : R w) : Flowing ins I R w :=
  ⟨fun _ hp' => absurd (hp'.symm.trans hp) Bool.false_ne_true, fun _ _ => h⟩

variable [Platform]

/-- What the packets of a flow and the answers to its reviews keep; `I` and `R`
    are told which packets the flow has had. -/
structure FlowRules (ins : UInt8) (I R : List Command → World → Prop) : Prop where
  still : ∀ ps s t, Still s t → displayed t.log = displayed s.log →
    accepted t.log = accepted s.log → I ps s → I ps t
  first : ∀ (cmd : Command) (s : World), cmd.ins = ins → s.latch = some ins →
    s.replyPending = true → s.global = .zeroed → displayed s.log = [] → accepted s.log = [] →
    (ExactTexts → s.SenderEnds) →
    wp (dispatchInstruction cmd true) (fun _ t => Flowing ins (I [cmd]) (R [cmd]) t)
      (fun _ _ => True) s
  next : ∀ (ps : List Command) (cmd : Command) (s : World), cmd.ins = ins →
    s.latch = some ins → s.replyPending = true → I ps s →
    wp (dispatchInstruction cmd false)
      (fun _ t => Flowing ins (I (ps ++ [cmd])) (R (ps ++ [cmd])) t) (fun _ _ => True) s
  answer : ∀ (ps : List Command) (c : Callback) (s : World), c ∈ s.screen.actions →
    s.latch = some ins → s.replyPending = true → R ps s →
    wp (runCallback c) (fun _ t => Flowing ins (I ps) (R ps) t) (fun _ _ => True)
      (s.activated c)

theorem flowing_foreign (hw : Sound w) {cmd : Command} (hne : cmd.ins ≠ ins)
    {isInitialCall : Bool} {s : World} (hr : Received w cmd isInitialCall s) :
    wp (dispatchInstruction cmd isInitialCall) (fun _ t => Flowing ins I R t) (fun _ _ => True)
      s := by
  have hdisp : Dispatched cmd.ins s := by
    cases hr with
    | first h => exact ⟨⟨[], rfl, ⟨_, rfl⟩, by simp⟩, rfl, fun _ => .inr rfl⟩
    | next h =>
      refine ⟨⟨[], h, ⟨_, rfl⟩, by simp⟩, rfl, fun hi => ?_⟩
      exact ((hw.owned _ h).flow hi).imp
        (fun hlive => ⟨⟨[], h, ⟨_, rfl⟩, by simp⟩,
          (hlive.append (e := .delivered) (t := w.delivered) rfl rfl rfl rfl rfl rfl).append
            (e := .packet cmd.ins) rfl rfl rfl rfl (by simp) rfl⟩) fun hz => hz
  refine wp_mono (fun _ t ht => ?_) (fun _ _ _ => trivial)
    (dispatchInstruction_outcome hdisp isInitialCall)
  rcases ht.latch with hl | ⟨hl, -⟩
  · exact .of_free hl
  · exact .of_latch fun h => hne (Option.some.inj (hl.symm.trans h))

/-- A step of the idle screen. -/
theorem FlowRules.idle {I R : List Command → World → Prop} {ps : List Command}
    (h : FlowRules ins I R) (hf : Flowing ins (I ps) (R ps) w) (hp : w.replyPending = false)
    {c : Callback} (hc : c.isIdle = true) :
    wp (runCallback c) (fun _ t => Flowing ins (I ps) (R ps) t) (fun _ _ => True)
      (w.activated c) := by
  -- The idle screens have no rows.
  have shown (actions : List Callback) :
      wp (showScreen [] actions) (fun _ t => Flowing ins (I ps) (R ps) t) (fun _ _ => True)
        (w.activated c) := by
    rw [wp_showScreen]
    refine ⟨fun hl _ => h.still ps w _ rfl ?_ ?_ (hf.between hl hp),
      fun _ hp' => absurd (hp.symm.trans hp') Bool.false_ne_true⟩
    · simp [World.activated, World.screenOf, Event.shows]
    · simp [World.activated, World.screenOf, Event.accepts, hc]
  cases c with
  | uiMenuMain =>
    change wp uiMenuMain _ _ _
    rw [wp_uiMenuMain]
    exact .of_free rfl
  | uiMenuAbout => exact shown _
  | reviewStatus => exact shown _
  | osSchedExit => trivial
  | _ => cases hc

/-- The packets of the open flow behind an input; the first one claims the
    latch. -/
def packetsBehind (w : World) (packets : List Command) : Input → List Command
  | .apdu cmd => if w.latch = none then [cmd] else packets ++ [cmd]
  | _ => packets

/-- The packets of the flow that is open at the end of a run. -/
def openPackets (inputs : List Input) : List Command :=
  history Concordium.step packetsBehind World.start [] inputs

/-- One step. -/
theorem FlowRules.step {I R : List Command → World → Prop} {ps : List Command}
    (h : FlowRules ins I R) (hw : Sound w) (hf : Flowing ins (I ps) (R ps) w)
    (hends : ExactTexts → w.SenderEnds) (hg : Answers w i) (hs : step w i = some w') :
    Flowing ins (I (packetsBehind w ps i)) (R (packetsBehind w ps i)) w' := by
  obtain ⟨he, -⟩ := step_eq_some.mp hs
  cases i with
  | badLength | badClass =>
    have hp : w.replyPending = false := by simpa [enabled] using he
    refine of_step hs ?_
    simp only [runInput, deliver, ioSendSw, wp_bind, wp_modify, wp_record, wp_ioSendResponse]
    refine ⟨fun hl _ => h.still ps w _ rfl ?_ ?_ (hf.between hl hp),
      fun _ hp' => absurd hp' Bool.false_ne_true⟩
    · simp [Event.shows]
    · simp [Event.accepts]
  | apdu cmd =>
    have hp : w.replyPending = false := by simpa [enabled] using he
    refine of_command_step hs (fun t hl _ => .of_free hl) fun isInitialCall s hr => ?_
    by_cases hins : cmd.ins = ins
    · cases hr with
      | first hl =>
        rw [packetsBehind, if_pos hl]
        refine h.first cmd _ hins (congrArg some hins) rfl rfl ?_ ?_ hends
        · simp [World.arrived, World.claimed, Event.shows]
        · simp [World.arrived, World.claimed, Event.accepts]
      | next hl =>
        rw [packetsBehind, if_neg (by rw [hl]; exact Option.some_ne_none _)]
        rw [hins] at hl
        refine h.next ps cmd _ hins hl rfl (h.still ps w _ rfl ?_ ?_ (hf.between hl hp))
        · simp [World.arrived, World.delivered, Event.shows]
        · simp [World.arrived, World.delivered, Event.accepts]
    · exact flowing_foreign hw hins hr
  | activate c =>
    have hmem : c ∈ w.screen.actions := by simpa [enabled] using he
    refine of_step hs ?_
    change wp (activate c) _ _ w
    rw [wp_activate]
    by_cases hl : w.latch = some ins
    · rcases Bool.eq_false_or_eq_true w.replyPending with hp | hp
      · exact h.answer ps c w hmem hl hp (hf.review hl hp)
      · exact h.idle hf hp (hg.resolve_right (by simp [hp]))
    · have := Built.unclaimed (inferInstance : Built c.power (runCallback c))
      refine wp_frames (R := Unclaimed) _ (fun _ t ht => ?_) fun _ _ _ => trivial
      rcases ht with ht | ht
      · exact .of_latch fun h => hl (ht.symm.trans h)
      · exact .of_free ht

/-- Every run in which reviews are answered once. -/
theorem FlowRules.run {I R : List Command → World → Prop} (h : FlowRules ins I R)
    {inputs : List Input} (hgate : Along Concordium.step Answers World.start inputs)
    (hrun : runInputs World.start inputs = some w) :
    Flowing ins (I (openPackets inputs)) (R (openPackets inputs)) w := by
  have hstep (s : World) (ps : List Command) (i : Input) (t : World)
      (hs : Sound s ∧ Flowing ins (I ps) (R ps) s ∧ (ExactTexts → s.SenderEnds))
      (hg : Answers s i) (ht : Concordium.step s i = some t) :
      Sound t ∧ Flowing ins (I (packetsBehind s ps i)) (R (packetsBehind s ps i)) t ∧
        (ExactTexts → t.SenderEnds) :=
    ⟨hs.1.step hg ht, h.step hs.1 hs.2.1 hs.2.2 hg ht,
      fun hx => senderEnds_step hx ht (hs.2.2 hx)⟩
  exact (run_history hstep ⟨Sound.start, .of_free rfl, fun _ => senderEnds_start⟩
    hgate hrun).2.1

end Flowing

/-! ## Packets that carry data -/

/-- The packets that carry data. -/
def carried (ps : List Command) : List Command := ps.filter fun cmd => !cmd.data.isEmpty

section Carried
variable {ps : List Command} {cmd : Command}

theorem carried_snoc (hc : cmd.data ≠ []) : carried (ps ++ [cmd]) = carried ps ++ [cmd] := by
  unfold carried
  rw [List.filter_append, List.filter_singleton]
  cases hd : cmd.data with
  | nil => exact absurd hd hc
  | cons => rfl

theorem carried_empty (hc : cmd.data = []) : carried (ps ++ [cmd]) = carried ps := by
  unfold carried
  rw [List.filter_append, List.filter_singleton, hc]
  exact List.append_nil _

end Carried

/-- A review that can be signed is on screen. -/
def OffersSigning (w : World) : Prop :=
  w.replyPending = true ∧ .buildAndSignTransactionHash ∈ w.screen.actions

/-! ## What becomes of a packet -/

section Refusals
variable [Platform] {w : World} {cmd : Command}

/-- A packet has been hashed and acknowledged. -/
def World.streamedOn (s : World) (chunk : Bytes) (global : InstructionContext) : World :=
  { s with
    global := global
    txState := { s.txState with hash := s.txState.hash ++ chunk }
    replyPending := false
    log := s.log ++ [.hashUpdate chunk] ++ [.reply [] swoSuccess] }

/-- The review of a transaction is on screen. -/
def World.reviewed (s : World) (rows : List Row) : World :=
  { s with
    screen := s.screenOf rows signFlowShared
    log := s.log ++ [.drawn (s.screenOf rows signFlowShared)] }

/-- A packet has been refused, and the flow with it. -/
def World.declined (s : World) (global : InstructionContext) (sw : UInt16) : World :=
  { s with
    global := global
    replyPending := false
    txState := { s.txState with currentInstruction := none }
    log := s.log ++ [.released, .reply [] sw] }

/-- What a packet that is refused outright leaves behind: an error is the reply,
    and nothing has been hashed, shown or signed.  Data ends the flow, an empty
    packet leaves it as it is. -/
structure Refused (w : World) (cmd : Command) (t : World) : Prop where
  reply : t.replyPending = false
  log : ∃ sw, sw ≠ swoSuccess ∧ t.log = w.log ++ ([.delivered, .packet cmd.ins] ++
    (if cmd.data = [] then [] else [.released]) ++ [.reply [] sw])
  latch : cmd.data ≠ [] → t.latch = none
  kept : cmd.data = [] → t.txState = w.txState ∧ t.global = w.global

/-- The app refuses a packet that arrives in `w`, whether or not a review is on
    screen. -/
def Refuses (w : World) (cmd : Command) : Prop :=
  wp (runCommand cmd) (fun _ t => Refused w cmd t) (fun _ _ => False) w.delivered

/-- A packet of the open flow that its handler declines, or that makes it throw
    before it has done anything. -/
theorem refuses_packet {handler : App Unit} (hl : w.latch = some cmd.ins)
    (hd : dispatchInstruction cmd false = withData cmd handler)
    (h : cmd.data ≠ [] → wp (dispatchInstruction cmd false)
      (fun _ t => ∃ g sw, sw ≠ swoSuccess ∧ t = (w.delivered.arrived cmd.ins).declined g sw)
      (fun e t => t.log = (w.delivered.arrived cmd.ins).log ∧
        ∃ sw, sw ≠ swoSuccess ∧ e = .statusWord sw) (w.delivered.arrived cmd.ins)) :
    Refuses w cmd := by
  refine wp_runCommand (fun hnone => ?_) (fun _ => ?_) fun ins hins hne => ?_
  · exact absurd (hl.symm.trans hnone) (Option.some_ne_none _)
  · rw [wp_catching]
    by_cases hc : cmd.data = []
    · rw [hd]
      unfold withData
      refine wp_if (fun _ => ?_) fun hlc => absurd (List.length_eq_zero_iff.mpr hc) hlc
      rw [ioSendSw, wp_ioSendResponse]
      exact ⟨rfl, ⟨swoWrongDataLength, by decide, by simp [World.arrived, World.delivered, hc]⟩,
        fun hne => absurd hc hne, fun _ => ⟨rfl, rfl⟩⟩
    · refine wp_mono (fun _ t ht => ?_) (fun e t ht => ⟨fun sw hsw => ?_, fun hfault => ?_⟩) (h hc)
      · obtain ⟨g, sw, hsw, rfl⟩ := ht
        refine ⟨rfl, ⟨sw, hsw, ?_⟩, fun _ => rfl, fun h => absurd h hc⟩
        simp [World.declined, World.arrived, World.delivered, hc]
      · obtain ⟨hlog, sw', hne, he⟩ := ht
        obtain rfl := Exception.statusWord.inj (hsw.symm.trans he)
        rw [wp_endFlow]
        refine ⟨rfl, ⟨sw, hne, ?_⟩, fun _ => rfl, fun h => absurd h hc⟩
        simp [hlog, World.arrived, World.delivered, hc]
      · obtain ⟨-, sw, -, he⟩ := ht
        cases hfault.symm.trans he
  · exact absurd (Option.some.inj (hins.symm.trans hl)) hne

/-- The app refuses a packet that arrives in `w` and ends the flow: the last
    thing it did is the reply of an error. -/
def Closes (w : World) (cmd : Command) : Prop :=
  wp (runCommand cmd) (fun _ t => t.latch = none ∧ t.replyPending = false ∧ t.global = .zeroed ∧
    ∃ front sw, sw ≠ swoSuccess ∧ t.log = front ++ [.reply [] sw]) (fun _ _ => False) w.delivered

theorem closes_packet (hl : w.latch = some cmd.ins)
    (h : wp (dispatchInstruction cmd false) (fun _ _ => False)
      (fun e _ => ∃ sw, sw ≠ swoSuccess ∧ e = .statusWord sw) (w.delivered.arrived cmd.ins)) :
    Closes w cmd := by
  refine wp_runCommand (fun hnone => ?_) (fun _ => ?_) fun ins hins hne => ?_
  · exact absurd (hl.symm.trans hnone) (Option.some_ne_none _)
  · rw [wp_catching]
    refine wp_mono (fun _ _ ht => ht.elim) (fun e t ht => ?_) h
    obtain ⟨sw, hsw, rfl⟩ := ht
    refine ⟨fun sw' heq => ?_, fun hfault => nomatch hfault⟩
    obtain rfl := Exception.statusWord.inj heq
    rw [wp_endFlow]
    exact ⟨rfl, rfl, rfl, t.log ++ [.released], sw, hsw, by rw [List.append_assoc]; rfl⟩
  · exact absurd (Option.some.inj (hins.symm.trans hl)) hne

end Refusals

end Concordium
