/-
  Screens that belong to no request.

  Two states that differ in nothing but the screen and the log take the packets
  of the host alike (`Veiled`).  Walking through an idle screen changes nothing
  else either, unless it leads back to the menu.
-/
import Concordium.Unseen

namespace Concordium

open Buffer Wp Runs

set_option synthInstance.maxSize 1000000
set_option synthInstance.maxHeartbeats 100000

/-! ## What no program can tell -/

/-- The two states differ at most in the screen and in what was logged before:
    `base` in the one, `base'` in the other. -/
def Veiled (base base' : List Event) (s t : World) : Prop :=
  ∃ es screen, s.log = base ++ es ∧ t = { s with screen := screen, log := base' ++ es }

section Veiled
variable {base base' : List Event}

instance : Std.Refl (fun _ _ : Screen => True) := ⟨fun _ => trivial⟩

theorem veiled_iff {s t : World} :
    Veiled base base' s t ↔ Hidden (fun _ _ => True) base base' s t := by
  constructor
  · rintro ⟨es, screen, hs, ht⟩
    exact ⟨es, screen, trivial, hs, ht⟩
  · rintro ⟨es, screen, -, hs, ht⟩
    exact ⟨es, screen, hs, ht⟩

/-- The host's packets are taken alike. -/
theorem step_veiled [Platform] {s t : World} {i : Input} (hi : i.isPacket)
    (h : Veiled base base' s t) :
    Option.Rel (Veiled base base') (step s i) (step t i) := by
  have hsame : Veiled base base' = Hidden (fun _ _ => True) base base' := by
    funext s t
    exact propext veiled_iff
  rw [hsame] at h ⊢
  refine step_hidden ?_ (respects_packet hi) h
  obtain ⟨es, screen, -, -, rfl⟩ := h
  cases i with
  | activate c => cases hi
  | badLength | badClass | apdu => rfl

end Veiled

/-! ## Walking through an idle screen -/

section Navigation
variable [Platform] {s t w w' : World}

/-- Nothing but the screen has changed, and the host's packets are taken as if
    it had not. -/
structure Undisturbed (w w' : World) : Prop where
  same : w' = { w with screen := w'.screen, log := w'.log }
  packets : ∀ is : List Input, (∀ i ∈ is, i.isPacket) →
    Option.Rel (Veiled w.log w'.log) (runInputs w is) (runInputs w' is)

theorem undisturbed_of_same (h : w' = { w with screen := w'.screen, log := w'.log }) :
    Undisturbed w w' where
  same := h
  packets is his := by
    have hstep : ∀ s t i, i.isPacket = true → Veiled w.log w'.log s t →
        Option.Rel (Veiled w.log w'.log) (step s i) (step t i) := fun _ _ _ => step_veiled
    exact run_related hstep ⟨[], w'.screen, by simp, by simpa using h⟩ his

omit [Platform] in
theorem same_trans {s t u : World} (hst : t = { s with screen := t.screen, log := t.log })
    (htu : u = { t with screen := u.screen, log := u.log }) :
    u = { s with screen := u.screen, log := u.log } := by
  rw [hst] at htu
  exact htu

/-- One activation on an idle screen leads to an idle screen; the way back to
    the menu releases the latch, the others change nothing else. -/
theorem idle_step {c : Callback} (hidle : ∀ a ∈ s.screen.actions, a.isIdle)
    (hs : step s (.activate c) = some t) :
    (∀ a ∈ t.screen.actions, a.isIdle) ∧
      (c ≠ .uiMenuMain → t = { s with screen := t.screen, log := t.log }) ∧
      (c = .uiMenuMain → t.latch = none) := by
  have hmem : c ∈ s.screen.actions := by simpa [enabled] using (step_eq_some.mp hs).1
  have hc := hidle c hmem
  refine of_step (P := fun t => (∀ a ∈ t.screen.actions, a.isIdle) ∧
    (c ≠ .uiMenuMain → t = { s with screen := t.screen, log := t.log }) ∧
    (c = .uiMenuMain → t.latch = none)) hs ?_
  change wp (activate c) _ _ s
  rw [wp_activate]
  cases c with
  | uiMenuMain =>
    change wp uiMenuMain _ _ _
    rw [wp_uiMenuMain]
    exact ⟨fun _ => isIdle_of_menuActions, fun h => absurd rfl h, fun _ => rfl⟩
  | osSchedExit => trivial
  | uiMenuAbout =>
    change wp (showScreen [] [.uiMenuMain]) _ _ _
    rw [wp_showScreen]
    exact ⟨by simp [World.screenOf, Callback.isIdle], fun _ => rfl, fun h => by cases h⟩
  | reviewStatus =>
    change wp (showScreen [] [.uiMenuMain]) _ _ _
    rw [wp_showScreen]
    exact ⟨by simp [World.screenOf, Callback.isIdle], fun _ => rfl, fun h => by cases h⟩
  | _ => cases hc

/-- A walk that leads back to the menu ends with a free latch, and one that
    does not changes nothing but the screen. -/
theorem idle_walk {nav : List Callback} (hidle : ∀ c ∈ w.screen.actions, c.isIdle)
    (hrun : runInputs w (nav.map .activate) = some w') :
    (.uiMenuMain ∉ nav → w' = { w with screen := w'.screen, log := w'.log }) ∧
      ((.uiMenuMain ∈ nav ∨ w.latch = none) → w'.latch = none) := by
  induction nav generalizing w with
  | nil =>
    obtain rfl : w = w' := Option.some.inj hrun
    exact ⟨fun _ => rfl, fun h => h.resolve_left List.not_mem_nil⟩
  | cons c nav ih =>
    obtain ⟨u, hu, hrun⟩ := Option.bind_eq_some_iff.mp hrun
    obtain ⟨hidle', hsame, hmenu⟩ := idle_step hidle hu
    obtain ⟨ihsame, ihfree⟩ := ih hidle' hrun
    refine ⟨fun hn => ?_, fun h => ihfree ?_⟩
    · rw [List.mem_cons, not_or] at hn
      exact same_trans (hsame fun hc => hn.1 hc.symm) (ihsame hn.2)
    · by_cases hc : c = .uiMenuMain
      · exact .inr (hmenu hc)
      · rcases h with h | h
        · exact .inl ((List.mem_cons.mp h).resolve_left fun h => hc h.symm)
        · right
          rw [hsame hc]
          exact h

/-- While an instruction is open under an idle screen, a walk through that
    screen leaves it alone exactly when it does not lead back to the menu. -/
theorem idle_screen_undisturbed_iff {ins : UInt8} {nav : List Callback}
    (hopen : w.latch = some ins) (hidle : ∀ c ∈ w.screen.actions, c.isIdle)
    (hrun : runInputs w (nav.map .activate) = some w') :
    Undisturbed w w' ↔ .uiMenuMain ∉ nav := by
  obtain ⟨hsame, hfree⟩ := idle_walk hidle hrun
  refine ⟨fun h hmem => ?_, fun hn => undisturbed_of_same (hsame hn)⟩
  have hlatch := congrArg World.latch h.same
  have hnone : some ins = none := hopen.symm.trans (hlatch.symm.trans (hfree (.inl hmem)))
  exact absurd hnone (Option.some_ne_none ins)

end Navigation

/-! ## The comparison of a public key -/

/-- A governance key is exported with the user's approval, and the host starts a
    transfer with memo while the key is still on screen to be compared. -/
def compareInputs : List Input :=
  [.apdu ⟨insGetPublicKey, 0, 0, 5 :: toBe 4 1105 ++ toBe 4 0 ++ toBe 4 1 ++ toBe 4 0 ++ toBe 4 0,
      by decide⟩,
    .activate .sendPublicKeyConfirm,
    .apdu memoTransferStart]

/-- The memo that follows. -/
def memoPacket : Command := ⟨insSignTransferWithMemo, 2, 0, [5], by decide⟩

/-- Accepting the comparison leads to the status page, and from there to the
    menu: the transfer is gone, and its memo is refused. -/
theorem comparison_disturbs_transfer :
    letI : Platform := device .nbgl
    ¬ ∀ inputs w ins (nav : List Callback) w',
      runInputs World.start inputs = some w → w.latch = some ins →
      (∀ c ∈ w.screen.actions, c.isIdle) → runInputs w (nav.map .activate) = some w' →
      Undisturbed w w' := by
  let : Platform := device .nbgl
  let refusal : List Event := [.released, .reply [] errorInvalidState]
  have hrun : (runInputs World.start compareInputs).any (fun w =>
      decide (w.latch = some insSignTransferWithMemo ∧ ∀ c ∈ w.screen.actions, c.isIdle) &&
        (runInputs w ([.reviewStatus, .uiMenuMain].map .activate)).any fun w' =>
          decide (w'.latch = none) && (step w' (.apdu memoPacket)).any fun u =>
            decide (refusal.isSuffixOf u.log)) = true := by decide +kernel
  obtain ⟨w, hw, hcheck⟩ := (Option.any_eq_true _ _).mp hrun
  simp only [Bool.and_eq_true, decide_eq_true_eq] at hcheck
  obtain ⟨⟨hlatch, hidle⟩, hnav⟩ := hcheck
  obtain ⟨w', hw', hcheck⟩ := (Option.any_eq_true _ _).mp hnav
  simp only [Bool.and_eq_true, decide_eq_true_eq] at hcheck
  intro h
  have hsame := congrArg World.latch (h compareInputs w _ _ w' hw hlatch hidle hw').same
  have hkept : w'.latch = w.latch := hsame
  rw [hcheck.1, hlatch] at hkept
  exact absurd hkept.symm (Option.some_ne_none _)

/-- As long as the status page stays up, the transfer goes on. -/
theorem status_page_undisturbed :
    letI : Platform := device .nbgl
    ∃ w w', runInputs World.start compareInputs = some w ∧
      runInputs w ([.reviewStatus].map .activate) = some w' ∧ Undisturbed w w' := by
  let : Platform := device .nbgl
  have hrun : (runInputs World.start compareInputs).any (fun w =>
      decide (w.latch = some insSignTransferWithMemo ∧ ∀ c ∈ w.screen.actions, c.isIdle) &&
        (runInputs w ([.reviewStatus].map .activate)).isSome) = true := by decide +kernel
  obtain ⟨w, hw, hcheck⟩ := (Option.any_eq_true _ _).mp hrun
  simp only [Bool.and_eq_true, decide_eq_true_eq] at hcheck
  obtain ⟨⟨hlatch, hidle⟩, hnav⟩ := hcheck
  obtain ⟨w', hw'⟩ := Option.isSome_iff_exists.mp hnav
  exact ⟨w, w', hw, hw', (idle_screen_undisturbed_iff hlatch hidle hw').mpr (by decide)⟩

end Concordium
