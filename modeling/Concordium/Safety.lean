/-
  Signing safety.

  `Sound` holds at the start and is kept by every step in which the user only
  answers a review that is still owed its answer: whatever is signed is the
  flow of the instruction that is open.
-/
import Concordium.Device
import Concordium.Step

namespace Concordium

open Buffer Wp Runs

/-- The invariant of a run. -/
structure Sound (w : World) : Prop where
  owned : ∀ ins, w.latch = some ins → Owned ins w
  review : w.replyPending = true → ∃ ins, Reviewing .staged ins w
  signed : SignsInFlow [] w.log
  answered : exchange false w.log = some w.replyPending

/-- A review is answered only while its answer is owed. -/
def Answers (w : World) : Input → Prop
  | .activate c => c.isIdle ∨ w.replyPending = true
  | _ => True

instance (w : World) : (i : Input) → Decidable (Answers w i)
  | .activate c => inferInstanceAs (Decidable (c.isIdle = true ∨ w.replyPending = true))
  | .badLength | .badClass | .apdu _ => .isTrue trivial

section
variable {s t : World}

theorem SignsInFlow.append {base es es' : List Event} (h : SignsInFlow base es)
    (h' : SignsInFlow (base ++ es) es') : SignsInFlow base (es ++ es') := by
  intro pre ins path preimage post heq
  rw [List.append_eq_append_iff] at heq
  obtain ⟨c, rfl, hc⟩ | ⟨c, rfl, hc⟩ := heq
  · have := h' c ins path preimage post hc
    rwa [List.append_assoc] at this
  · cases c with
    | nil =>
      have := h' [] ins path preimage post (by simpa using hc.symm)
      simpa using this
    | cons x c =>
      obtain ⟨rfl, -⟩ := List.cons.inj hc
      exact h pre ins path preimage c rfl

theorem Sound.of_log (es : List Event) (h : Sound s) (hlog : t.log = s.log ++ es)
    (hs : ∀ i p bs, .signed i p bs ∉ es) (hx : exchange s.replyPending es = some t.replyPending)
    (howned : ∀ ins, t.latch = some ins → Owned ins t)
    (hreview : t.replyPending = true → ∃ ins, Reviewing .staged ins t) : Sound t where
  owned := howned
  review := hreview
  signed := hlog ▸ h.signed.append (signsInFlow_of_not_signed hs)
  answered := by rw [hlog, exchange_append, h.answered]; exact hx

theorem Sound.after (e : Event) (h : Sound s) (hs : ∀ i p bs, e ≠ .signed i p bs)
    (hx : exchange s.replyPending [e] = some true) {u : World} (hlog : u.log = s.log ++ [e])
    (ht : After u t) : Sound t where
  owned := ht.owned
  review := ht.review
  signed := by
    obtain ⟨es, hlog', hsign, -⟩ := ht.log
    have hfirst : SignsInFlow [] (s.log ++ [e]) :=
      h.signed.append (signsInFlow_of_not_signed fun i p bs hm =>
        hs i p bs (List.mem_singleton.mp hm).symm)
    rw [hlog] at hlog' hsign
    exact hlog' ▸ hfirst.append hsign
  answered := by
    obtain ⟨es, hlog', -, hrep⟩ := ht.log
    rw [hlog', hlog, exchange_append, exchange_append, h.answered]
    simpa [hx] using hrep

end

/-! ## APDUs -/

section Dispatch
variable [Platform] {cmd : Command} {s : World}

/-- The dispatcher and its guard, for an instruction that holds the latch. -/
theorem dispatchGuarded_after {ins : UInt8} (hl : s.latch = some ins) (hp : s.replyPending = true)
    (hf : ins ∈ signingInstructions → Live ins s ∨ s.global = .zeroed) (isInitialCall : Bool) :
    wp (dispatchGuarded cmd isInitialCall) (fun _ t => After s t) (fun _ _ => True) s := by
  unfold dispatchGuarded apduDispatcher
  simp only [wp_catching, wp_bind, wp_get]
  refine wp_if (fun _ => ?_) fun hguard => ?_
  · simp only [ioSendSw, wp_bind, wp_releaseInstruction, wp_ioSendResponse]
    exact ⟨⟨[.released, .reply [] errorInvalidState], by simp, signsInFlow_of_not_signed (by simp),
      rfl⟩, nofun, nofun, fun _ => .inl rfl⟩
  · have hins : cmd.ins = ins := by
      by_contra hne
      exact hguard ⟨by rw [World.latch] at hl; simp [hl], by
        rw [World.latch] at hl; simpa [hl] using fun h => hne h.symm⟩
    subst hins
    simp only [wp_bind, wp_record]
    set s' : World := { s with log := s.log ++ [.packet cmd.ins] } with hs'
    have hready : Stage.ready.Holds cmd.ins s' := ⟨[], hl, ⟨s.log, rfl⟩, by simp⟩
    have hdisp : Dispatched cmd.ins s' := ⟨hready, hp, fun hi => (hf hi).imp
      (fun h => ⟨hready, h.append rfl rfl rfl rfl (by simp) rfl⟩) fun hz => hz⟩
    have hafter {L : World → Prop} {t : World} (h : Outcome .staged L cmd.ins s' t)
        (hL : L t → Owned cmd.ins t) : After s t :=
      After.of_log (s := s) (t := s') (.packet cmd.ins) rfl rfl rfl (by simp) (h.after fun _ => hL)
    refine wp_mono (fun _ t ht => hafter ht id) (fun e t ht => ⟨fun sw he => ?_, fun _ => trivial⟩)
      (dispatchInstruction_outcome hdisp isInitialCall)
    have hend : wp (endFlow sw) (fun _ u => Outcome .staged (Owned cmd.ins) cmd.ins t u)
      (fun _ _ => True) t := outcome_endFlow
    exact wp_mono (fun _ u hu => hafter (hu.of_quiet (ht sw he)) id) (fun _ _ h => h) hend

theorem runCommand_after (hp : s.replyPending = true)
    (ho : ∀ ins, s.latch = some ins → ins ∈ signingInstructions →
      Live ins s ∨ s.global = .zeroed) :
    wp (runCommand cmd) (fun _ t => After s t) (fun _ _ => True) s := by
  unfold runCommand
  rw [wp_bind, wp_get]
  refine wp_if (fun hnone => ?_) fun hsome => ?_
  · simp only [claimInstruction, wp_bind, wp_zeroGlobal, wp_modify, wp_record]
    set s' : World := { s with
      global := .zeroed, txState := { s.txState with currentInstruction := some cmd.ins },
      log := s.log ++ [.claimed cmd.ins] }
    have hs' : s'.latch = some cmd.ins := rfl
    refine wp_mono (fun _ t ht => ?_) (fun _ _ h => h)
      (dispatchGuarded_after hs' hp (fun _ => .inr rfl) true)
    exact After.of_log (s := s) (t := s') (.claimed cmd.ins) rfl rfl rfl (by simp) ht
  · obtain ⟨ins, hl⟩ := Option.ne_none_iff_exists'.mp hsome
    exact dispatchGuarded_after hl hp (ho ins hl) false

end Dispatch

/-! ## Steps and runs -/

section Steps
variable [Platform] {w w' : World} {i : Input}

theorem step_eq_some : step w i = some w' ↔ enabled w i = true ∧ ∃ a, runInput i w = .ok a w' := by
  unfold step
  split_ifs with he
  · cases hr : runInput i w <;> simp [he]
  · simp [he]

theorem of_step (hs : step w i = some w') {P : World → Prop}
    (h : wp (runInput i) (fun _ t => P t) (fun _ _ => True) w) : P w' := by
  obtain ⟨-, a, hr⟩ := step_eq_some.mp hs
  exact wp_ok h hr

omit [Platform] in
theorem Owned.next (h : ∀ ins, w.latch = some ins → Owned ins w) (e : Event)
    (hl : w'.latch = w.latch) (hlog : w'.log = w.log ++ [e]) (ht : w'.txState = w.txState)
    (hp : w'.derivationPath = w.derivationPath) (hg : w'.global = w.global)
    (he : ∀ ins, e.continues ins) (hfed : fed [e] = []) (hr : w'.replyPending = false) :
    ∀ ins, w'.latch = some ins → Owned ins w' :=
  fun ins hi => (h ins (hl ▸ hi)).append hl hlog ht hp hg (he ins) hfed hr

omit [Platform] in
theorem Sound.refused (h : Sound w) (hp : w.replyPending = false) {sw : UInt16} :
    Sound { w with
      replyPending := false, log := w.log ++ [.delivered] ++ [.reply [] sw] } := by
  let u : World := { w with log := w.log ++ [.delivered] }
  have hu : ∀ ins, u.latch = some ins → Owned ins u :=
    Owned.next h.owned .delivered rfl rfl rfl rfl rfl (fun _ => rfl) rfl hp
  exact h.of_log [.delivered, .reply [] sw] (by simp) (by simp) (by rw [hp]; rfl)
    (Owned.next hu (.reply [] sw) rfl rfl rfl rfl rfl (fun _ => rfl) rfl rfl) nofun

/-- The screen as a callback finds it. -/
def activatedScreen (screen : Screen) : Screen :=
  match Platform.backend with
  | .nbgl => { screen with actions := [] }
  | .bagl => screen

/-- The state a callback is run in. -/
def World.activated (w : World) (c : Callback) : World :=
  { w with screen := activatedScreen w.screen, log := w.log ++ [.activated c] }

theorem wp_activate {c : Callback} {Q : Unit → World → Prop} {E : Exception → World → Prop} :
    wp (activate c) Q E w = wp (runCallback c) Q E (w.activated c) := by
  unfold activate World.activated activatedScreen
  simp only [wp_bind, wp_record]
  cases (Platform.backend : Backend) <;> rfl

/-- The steps of the idle screens. -/
theorem Sound.idle (h : Sound w) (hp : w.replyPending = false) {c : Callback} (hc : c.isIdle) :
    wp (runCallback c) (fun _ t => Sound t) (fun _ _ => True) (w.activated c) := by
  set u := w.activated c with hu
  have hup : u.replyPending = false := hp
  have hlog : u.log = w.log ++ [.activated c] := rfl
  have howned : ∀ ins, u.latch = some ins → Owned ins u :=
    Owned.next h.owned (.activated c) rfl rfl rfl rfl rfl (fun _ => rfl) rfl hp
  have hshow (rows : List Row) (actions : List Callback) :
      wp (showScreen rows actions) (fun _ t => Sound t) (fun _ _ => True) u := by
    rw [wp_showScreen]
    refine h.of_log [.activated c, .drawn (u.screenOf rows actions)] (by simp [hlog])
      (by simp) (by simp [exchange, hp, hup]) ?_ fun hpend => ?_
    · exact Owned.next howned (.drawn _) rfl rfl rfl rfl rfl (fun _ => rfl) rfl hp
    · exact absurd (hpend.symm.trans hp) (by decide)
  cases c with
  | uiMenuMain =>
    change wp uiMenuMain _ _ u
    rw [wp_uiMenuMain]
    refine h.of_log [.activated .uiMenuMain, .released, .drawn (idleScreen u.txState.hash)]
      (by simp [hlog]) (by simp) (by simp [exchange, hp, hup]) (fun ins hl => ?_) fun hpend => ?_
    · exact absurd (World.toMenu_latch.symm.trans hl) (Option.some_ne_none ins).symm
    · exact absurd (hpend.symm.trans hp) (by decide)
  | uiMenuAbout => exact hshow [] [.uiMenuMain]
  | reviewStatus => exact hshow [] [.uiMenuMain]
  | osSchedExit => trivial
  | _ => cases hc

/-- A step of a review that is owed its answer, as its callback finds it. -/
theorem Sound.activated (h : Sound w) (hp : w.replyPending = true) {c : Callback}
    (hc : c ∈ w.screen.actions) :
    c.isIdle = false ∧ ∃ ins, (w.activated c).latch = some ins ∧ Owned ins (w.activated c) ∧
      (Live ins (w.activated c) ∨ Reviews.harmless.allows ins c) := by
  obtain ⟨ins, hrev⟩ := h.review hp
  have ho := h.owned ins hrev.latch
  have hlive : Live ins w → Live ins (w.activated c) := fun hf =>
    hf.append rfl rfl rfl rfl rfl rfl
  have hactions : ∀ d ∈ (w.activated c).screen.actions, d ∈ w.screen.actions := by
    simp only [World.activated, activatedScreen]
    cases (Platform.backend : Backend) <;> simp
  exact ⟨Reviews.not_isIdle (hrev.actions c hc), ins, hrev.latch,
    ⟨fun hi => (ho.flow hi).imp_left hlive,
      fun _ => (ho.review hp).imp hlive fun hs d hd => hs d (hactions d hd)⟩,
    (ho.review hp).imp hlive fun hs => hs c hc⟩

omit [Platform] in
theorem Sound.exports (h : Sound w) (hp : w.replyPending = true)
    (hmem : .exportPrivateKey ∈ w.screen.actions) : w.latch = some insExportPrivateKeyLegacy := by
  obtain ⟨ins, hrev⟩ := h.review hp
  exact hrev.latch.trans (congrArg some (Reviews.exports (hrev.actions _ hmem)))

/-- Every step in which reviews are answered once keeps the invariant. -/
theorem Sound.step (h : Sound w) (hg : Answers w i) (hs : step w i = some w') : Sound w' := by
  obtain ⟨he, -⟩ := step_eq_some.mp hs
  refine of_step hs ?_
  cases i with
  | badLength =>
    simp only [runInput, deliver, ioSendSw, wp_bind, wp_modify, wp_record, wp_ioSendResponse]
    exact h.refused (by simpa [enabled] using he)
  | badClass =>
    simp only [runInput, deliver, ioSendSw, wp_bind, wp_modify, wp_record, wp_ioSendResponse]
    exact h.refused (by simpa [enabled] using he)
  | apdu cmd =>
    have hp : w.replyPending = false := by simpa [enabled] using he
    simp only [runInput, deliver, wp_bind, wp_modify, wp_record]
    set u : World := { w with replyPending := true, log := w.log ++ [.delivered] }
    have hflow : ∀ ins, u.latch = some ins → ins ∈ signingInstructions →
        Live ins u ∨ u.global = .zeroed := fun ins hl hi =>
      ((h.owned ins hl).flow hi).imp_left fun hf => hf.append rfl rfl rfl rfl rfl rfl
    refine wp_mono (fun _ t ht => ?_) (fun _ _ _ => trivial) (runCommand_after rfl hflow)
    exact h.after .delivered (by simp) (by rw [hp]; rfl) rfl ht
  | activate c =>
    have hmem : c ∈ w.screen.actions := by simpa [enabled] using he
    change wp (activate c) _ _ w
    rw [wp_activate]
    rcases Bool.eq_false_or_eq_true w.replyPending with hp | hp
    · obtain ⟨hc, ins, hl, ho, hlive⟩ := h.activated hp hmem
      refine wp_mono (fun _ t ht => ?_) (fun _ _ _ => trivial) (runCallback_after hc hl hp ho hlive)
      exact h.after (.activated c) (by simp) (by rw [hp]; rfl) rfl ht
    · exact h.idle hp (hg.resolve_right (by simp [hp]))

theorem World.start_eq : World.start = World.toMenu {} := rfl

theorem Sound.start : Sound World.start where
  owned := nofun
  review := nofun
  signed := signsInFlow_of_not_signed (by simp [World.start_eq])
  answered := rfl

theorem Sound.run {inputs : List Input} (hgate : Along Concordium.step Answers World.start inputs)
    (hrun : runInputs World.start inputs = some w) : Sound w :=
  run_invariant (fun _ _ _ h hg hs => h.step hg hs) Sound.start hgate hrun

/-- In every run in which reviews are answered once: the sign step is offered
    only for the flow that is open, every signature is one of the flow that was
    open then, and between two signatures the hash is started again. -/
theorem signs_only_open_flow {inputs : List Input}
    (hgate : Along Concordium.step Answers World.start inputs)
    (hrun : runInputs World.start inputs = some w) :
    (w.replyPending = true → .buildAndSignTransactionHash ∈ w.screen.actions →
      ∃ ins, w.latch = some ins ∧ SigningFlow w.log ins w.derivationPath w.txState.hash) ∧
    (∀ pre ins path preimage post, w.log = pre ++ .signed ins path preimage :: post →
      ∃ i, ins = some i ∧ SigningFlow pre i path preimage) ∧
    (∀ pre ins path preimage mid ins' path' preimage' post,
      w.log = pre ++ .signed ins path preimage :: (mid ++ .signed ins' path' preimage' :: post) →
      .hashInit ∈ mid) := by
  have h := Sound.run hgate hrun
  refine ⟨fun hp hmem => ?_, h.signed, fun pre ins path preimage mid ins' path' preimage' post hlog
    => ?_⟩
  · obtain ⟨ins, hrev⟩ := h.review hp
    rcases (h.owned ins hrev.latch).review hp with hf | hs
    · exact ⟨ins, hf⟩
    · exact absurd (hs _ hmem) Bool.false_ne_true
  · obtain ⟨i, -, hf⟩ := h.signed (pre ++ .signed ins path preimage :: mid)
      ins' path' preimage' post
      (by rw [hlog]; simp)
    exact hf.hashInit_after rfl

end Steps

/-- The first packet of a transfer with memo. -/
def memoTransferStart : Command :=
  ⟨insSignTransferWithMemo, 1, 0, [1, 0, 0, 4, 0x51] ++ List.replicate 60 0 ++
    [kindTransferWithMemo] ++ List.replicate 32 7 ++ [0, 1], by decide⟩

/-- A transfer, approved on a touch screen. -/
def transferInputs : List Input :=
  [.apdu ⟨insSignTransfer, 0, 0, [1, 0, 0, 4, 0x51] ++ List.replicate 60 0 ++ [kindTransfer] ++
      List.replicate 40 7, by decide⟩,
    .activate .buildAndSignTransactionHash]

theorem signs_only_open_flow_transfer :
    letI : Platform := device .nbgl
    ∃ w, runInputs World.start transferInputs = some w ∧ w.log.any Event.isSigned = true ∧
      ∀ pre ins path preimage post, w.log = pre ++ .signed ins path preimage :: post →
        ∃ i, ins = some i ∧ SigningFlow pre i path preimage := by
  let : Platform := device .nbgl
  have hrun : (runInputs World.start transferInputs).any (fun w => w.log.any Event.isSigned) =
    true := by decide +kernel
  obtain ⟨w, hw, hsigned⟩ := (Option.any_eq_true _ _).mp hrun
  exact ⟨w, hw, hsigned, (signs_only_open_flow (by decide +kernel) hw).2.1⟩

end Concordium
