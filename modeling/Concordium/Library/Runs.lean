/-
  Runs of a system that takes one input at a time.

  `step s i = none` when the input is not possible in `s`.  `run` takes a list
  of inputs; `Along P` says that every step of the run starts where `P` holds.
-/
import Mathlib.Tactic.Common

namespace Runs

variable {σ ι : Type} (step : σ → ι → Option σ)

/-- The state after the inputs, if all of them are possible. -/
def run : σ → List ι → Option σ
  | s, [] => some s
  | s, i :: is => (step s i).bind fun t => run t is

/-- Every input of the run is given in a state that `P` allows it in. -/
def Along (P : σ → ι → Prop) : σ → List ι → Prop
  | _, [] => True
  | s, i :: is => P s i ∧ ∀ t, step s i = some t → Along P t is

variable {step} {P Q : σ → ι → Prop} {s t : σ} {is js : List ι}

theorem run_append : run step s (is ++ js) = (run step s is).bind fun t => run step t js := by
  induction is generalizing s with
  | nil => rfl
  | cons i is ih =>
    simp only [List.cons_append, run]
    cases step s i with
    | none => rfl
    | some u => exact ih

theorem along_append :
    Along step P s (is ++ js) ↔
      Along step P s is ∧ ∀ t, run step s is = some t → Along step P t js := by
  induction is generalizing s with
  | nil => simp [Along, run]
  | cons i is ih =>
    simp only [List.cons_append, Along, run, ih]
    constructor
    · rintro ⟨hp, h⟩
      refine ⟨⟨hp, fun u hu => (h u hu).1⟩, fun t ht => ?_⟩
      obtain ⟨u, hu, ht⟩ := Option.bind_eq_some_iff.mp ht
      exact (h u hu).2 t ht
    · rintro ⟨⟨hp, h⟩, hj⟩
      exact ⟨hp, fun u hu => ⟨h u hu, fun t ht => hj t (by rw [hu]; exact ht)⟩⟩

/-- `Along`, input by input. -/
theorem along_iff :
    Along step P s is ↔
      ∀ js i ks u, is = js ++ i :: ks → run step s js = some u → P u i := by
  induction is generalizing s with
  | nil => simp [Along]
  | cons i is ih =>
    simp only [Along, ih]
    constructor
    · rintro ⟨hp, h⟩ (_ | ⟨j, js⟩) k ks u heq hu
      · obtain ⟨rfl, rfl⟩ := List.cons.inj heq
        exact Option.some.inj hu ▸ hp
      · obtain ⟨rfl, rfl⟩ := List.cons.inj heq
        obtain ⟨t, ht, hu⟩ := Option.bind_eq_some_iff.mp hu
        exact h t ht js k ks u rfl hu
    · intro h
      refine ⟨h [] i is s rfl rfl, fun t ht js k ks u heq hu => ?_⟩
      exact h (i :: js) k ks u (by rw [heq]; rfl) (by simpa [run, ht] using hu)

instance instDecidableAlong [∀ s i, Decidable (P s i)] : (s : σ) → (is : List ι) →
    Decidable (Along step P s is)
  | _, [] => .isTrue trivial
  | s, i :: is =>
    match h : step s i with
    | none => decidable_of_iff (P s i) (by simp [Along, h])
    | some t =>
      have := instDecidableAlong t is
      decidable_of_iff (P s i ∧ Along step P t is) (by simp [Along, h])

/-- What every step keeps, a run keeps. -/
theorem run_invariant {Inv : σ → Prop}
    (hstep : ∀ s i t, Inv s → P s i → step s i = some t → Inv t) (hs : Inv s)
    (hp : Along step P s is) (h : run step s is = some t) : Inv t := by
  induction is generalizing s with
  | nil => exact Option.some.inj h ▸ hs
  | cons i is ih =>
    obtain ⟨u, hu, ht⟩ := Option.bind_eq_some_iff.mp h
    exact ih (hstep s i u hs hp.1 hu) (hp.2 u hu) ht

/-! ## Histories -/

section History
variable {γ : Type} (step) (note : σ → γ → ι → γ)

/-- What is noted of a run, step by step. -/
def history : σ → γ → List ι → γ
  | _, g, [] => g
  | s, g, i :: is =>
    match step s i with
    | none => g
    | some t => history t (note s g i) is

variable {step note}

/-- What every step keeps of a state and its history, a run keeps. -/
theorem run_history {Inv : σ → γ → Prop} {g : γ}
    (hstep : ∀ s g i t, Inv s g → P s i → step s i = some t → Inv t (note s g i)) (hs : Inv s g)
    (hp : Along step P s is) (h : run step s is = some t) : Inv t (history step note s g is) := by
  induction is generalizing s g with
  | nil => exact Option.some.inj h ▸ hs
  | cons i is ih =>
    obtain ⟨u, hu, ht⟩ := Option.bind_eq_some_iff.mp h
    rw [history, hu]
    exact ih (hstep s g i u hs hp.1 hu) (hp.2 u hu) ht

end History

/-- A run that ends in a step. -/
theorem run_snoc {i : ι} {u : σ} :
    run step s (is ++ [i]) = some u ↔ ∃ t, run step s is = some t ∧ step t i = some u := by
  rw [run_append, Option.bind_eq_some_iff]
  simp [run]

end Runs
