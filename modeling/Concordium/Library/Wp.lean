/-
  Weakest preconditions for programs with a state and an exception.

  A program `x : EStateM ε σ α` keeps the state it has reached when it throws.
  `wp x Q E s` says: run from `s`, `x` either returns with `Q` or throws with
  `E`.  The rules below take a program apart along its binds; `Frames R x` is the frequent case
  where all that matters is how the state before relates to the state after.
-/
import Mathlib.Order.Defs.Unbundled
import Mathlib.Tactic.SplitIfs

namespace Wp

variable {ε σ α β : Type}

/-- Run from `s`, the program returns with `Q` or throws with `E`. -/
def wp (x : EStateM ε σ α) (Q : α → σ → Prop) (E : ε → σ → Prop) (s : σ) : Prop :=
  match x s with
  | .ok a s' => Q a s'
  | .error e s' => E e s'

variable {Q Q' : α → σ → Prop} {E E' : ε → σ → Prop} {s : σ}

instance instDecidableWp {x : EStateM ε σ α} [∀ a t, Decidable (Q a t)]
    [∀ e t, Decidable (E e t)] : Decidable (wp x Q E s) :=
  match h : x s with
  | .ok a t => decidable_of_iff (Q a t) (by rw [wp, h])
  | .error e t => decidable_of_iff (E e t) (by rw [wp, h])

/-! ## Rules -/

@[simp] theorem wp_pure (a : α) : wp (pure a : EStateM ε σ α) Q E s = Q a s := rfl

@[simp] theorem wp_bind (x : EStateM ε σ α) (f : α → EStateM ε σ β) {Q : β → σ → Prop} :
    wp (x >>= f) Q E s = wp x (fun a => wp (f a) Q E) E s := by
  change wp (EStateM.bind x f) Q E s = _
  unfold wp EStateM.bind
  cases x s <;> rfl

@[simp] theorem wp_map (x : EStateM ε σ α) (f : α → β) {Q : β → σ → Prop} :
    wp (f <$> x) Q E s = wp x (fun a => Q (f a)) E s := by
  change wp (EStateM.map f x) Q E s = _
  unfold wp EStateM.map
  cases x s <;> rfl

@[simp] theorem wp_throw (e : ε) : wp (throw e : EStateM ε σ α) Q E s = E e s := rfl

@[simp] theorem wp_get {Q : σ → σ → Prop} : wp (get : EStateM ε σ σ) Q E s = Q s s := rfl

@[simp] theorem wp_set (t : σ) {Q : PUnit → σ → Prop} :
    wp (set t : EStateM ε σ PUnit) Q E s = Q ⟨⟩ t := rfl

@[simp] theorem wp_modify (f : σ → σ) {Q : PUnit → σ → Prop} :
    wp (modify f : EStateM ε σ PUnit) Q E s = Q ⟨⟩ (f s) := rfl

theorem wp_ite (c : Prop) [Decidable c] (x y : EStateM ε σ α) :
    wp (if c then x else y) Q E s ↔ (c → wp x Q E s) ∧ (¬ c → wp y Q E s) := by
  split_ifs with h <;> simp [h]

theorem wp_if {c : Prop} [Decidable c] {x y : EStateM ε σ α} (hx : c → wp x Q E s)
    (hy : ¬ c → wp y Q E s) : wp (if c then x else y) Q E s :=
  (wp_ite c x y).mpr ⟨hx, hy⟩

theorem wp_dite (c : Prop) [Decidable c] (x : c → EStateM ε σ α) (y : ¬ c → EStateM ε σ α) :
    wp (if h : c then x h else y h) Q E s ↔
      (∀ h : c, wp (x h) Q E s) ∧ (∀ h : ¬ c, wp (y h) Q E s) := by
  split_ifs with h <;> simp [h]

/-- The rule of consequence. -/
theorem wp_mono {x : EStateM ε σ α} (hQ : ∀ a t, Q a t → Q' a t) (hE : ∀ e t, E e t → E' e t)
    (h : wp x Q E s) : wp x Q' E' s := by
  unfold wp at *
  cases hx : x s with
  | ok a t => rw [hx] at h; exact hQ a t h
  | error e t => rw [hx] at h; exact hE e t h

theorem wp_and {x : EStateM ε σ α} (h : wp x Q E s) (h' : wp x Q' E' s) :
    wp x (fun a t => Q a t ∧ Q' a t) (fun e t => E e t ∧ E' e t) s := by
  unfold wp at *
  cases hx : x s with
  | ok a t => rw [hx] at h h'; exact ⟨h, h'⟩
  | error e t => rw [hx] at h h'; exact ⟨h, h'⟩

theorem wp_ok {x : EStateM ε σ α} (h : wp x Q E s) {a : α} {t : σ} (hx : x s = .ok a t) :
    Q a t := by
  unfold wp at h; rw [hx] at h; exact h

theorem wp_error {x : EStateM ε σ α} (h : wp x Q E s) {e : ε} {t : σ} (hx : x s = .error e t) :
    E e t := by
  unfold wp at h; rw [hx] at h; exact h

theorem wp_iff {x : EStateM ε σ α} :
    wp x Q E s ↔ (∀ a t, x s = .ok a t → Q a t) ∧ (∀ e t, x s = .error e t → E e t) := by
  constructor
  · intro h; exact ⟨fun _ _ hx => wp_ok h hx, fun _ _ hx => wp_error h hx⟩
  · rintro ⟨hQ, hE⟩
    unfold wp
    cases hx : x s with
    | ok a t => exact hQ a t hx
    | error e t => exact hE e t hx

/-- A program that cannot fail returns. -/
theorem wp_returns {x : EStateM ε σ α} (h : wp x Q (fun _ _ => False) s) :
    ∃ a t, x s = .ok a t ∧ Q a t := by
  cases hx : x s with
  | ok a t => exact ⟨a, t, rfl, wp_ok h hx⟩
  | error e t => exact (wp_error h hx).elim

/-- The result is the one that the program returns from here. -/
theorem wp_run {x : EStateM ε σ α} (h : wp x (fun a t => x s = .ok a t → Q a t) E s) :
    wp x Q E s :=
  wp_iff.mpr ⟨fun _ _ hx => wp_ok h hx hx, fun _ _ hx => wp_error h hx⟩

/-! ## Frames -/

/-- Whatever happens, the states before and after `x` are related by `R`.
    Instance search proves this for a program from its parts. -/
class Frames (R : σ → σ → Prop) (x : EStateM ε σ α) : Prop where
  frames : ∀ s, wp x (fun _ t => R s t) (fun _ t => R s t) s

section Frames
variable {R R' : σ → σ → Prop}

/-- The rule for a framed program. -/
theorem wp_frames (x : EStateM ε σ α) [Frames R x] (hQ : ∀ a t, R s t → Q a t)
    (hE : ∀ e t, R s t → E e t) : wp x Q E s :=
  wp_mono hQ hE (Frames.frames s)

/-- The rule for a framed program whose result matters. -/
theorem wp_frames_result (x : EStateM ε σ α) [h : Frames R x]
    (hQ : ∀ a t, x s = .ok a t → R s t → Q a t) (hE : ∀ e t, x s = .error e t → R s t → E e t) :
    wp x Q E s := by
  have hx := h.frames s
  unfold wp at *
  cases hr : x s with
  | ok a t => rw [hr] at hx; exact hQ a t hr hx
  | error e t => rw [hr] at hx; exact hE e t hr hx

/-- The rule for a program that does not touch the state: its result is the one
    it returns from here. -/
theorem wp_reads (x : EStateM ε σ α) [Frames Eq x] (hQ : ∀ a, x s = .ok a s → Q a s)
    (hE : ∀ e, x s = .error e s → E e s) : wp x Q E s := by
  refine wp_frames_result (R := Eq) x ?_ ?_
  · rintro a t hr rfl; exact hQ a hr
  · rintro e t hr rfl; exact hE e hr

/-- Two frames of one program. -/
theorem Frames.and {x : EStateM ε σ α} (h : Frames R x) (h' : Frames R' x) :
    Frames (fun s t => R s t ∧ R' s t) x :=
  ⟨fun s => wp_and (h.frames s) (h'.frames s)⟩

/-- A frame weakens along an implication. -/
theorem Frames.mono {x : EStateM ε σ α} (h : Frames R x) (hR : ∀ s t, R s t → R' s t) :
    Frames R' x :=
  ⟨fun s => wp_mono (fun _ _ => hR s _) (fun _ _ => hR s _) (h.frames s)⟩

variable [IsPreorder σ R]

instance frames_pure (a : α) : Frames R (pure a : EStateM ε σ α) := ⟨fun s => refl_of R s⟩

instance frames_throw (e : ε) : Frames R (throw e : EStateM ε σ α) := ⟨fun s => refl_of R s⟩

instance frames_get : Frames R (get : EStateM ε σ σ) := ⟨fun s => refl_of R s⟩

instance frames_bind {x : EStateM ε σ α} {f : α → EStateM ε σ β} [Frames R x]
    [∀ a, Frames R (f a)] : Frames R (x >>= f) where
  frames s := by
    rw [wp_bind]
    refine wp_frames x (fun a t hst => ?_) (fun _ _ h => h)
    exact wp_frames (f a) (fun _ _ htu => trans_of R hst htu) (fun _ _ htu => trans_of R hst htu)

/-- A continuation that takes a pair apart sees its components. -/
instance frames_bind_prod {α' : Type} {x : EStateM ε σ (α × α')}
    {f : α × α' → EStateM ε σ β} [Frames R x] [∀ a b, Frames R (f (a, b))] :
    Frames R (x >>= f) :=
  have : ∀ p, Frames R (f p) := fun ⟨_, _⟩ => inferInstance
  frames_bind

instance frames_ite {c : Prop} [Decidable c] {x y : EStateM ε σ α} [Frames R x] [Frames R y] :
    Frames R (if c then x else y) := by
  split_ifs <;> infer_instance

/-- A program that does not touch the state is framed by every preorder. -/
instance (priority := low) frames_of_reads {x : EStateM ε σ α} [h : Frames Eq x] : Frames R x :=
  h.mono fun s _ hst => hst ▸ refl_of R s

end Frames

end Wp
