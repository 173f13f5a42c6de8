/-
  Two runs of one program, side by side.

  `Respects r x`: from two states that `r` relates, `x` returns the same value
  or throws the same exception, in states that `r` relates again.  A program
  that respects "equal but for a part of the state" cannot tell that part.
-/
import Concordium.Library.Runs
import Concordium.Library.Wp

namespace Wp

variable {ε σ α β : Type}

/-- The two results are the same, in related states. -/
def Alike (r : σ → σ → Prop) : EStateM.Result ε σ α → EStateM.Result ε σ α → Prop
  | .ok a s, .ok b t => a = b ∧ r s t
  | .error e s, .error f t => e = f ∧ r s t
  | _, _ => False

/-- From related states `x` does alike. -/
class Respects (r : σ → σ → Prop) (x : EStateM ε σ α) : Prop where
  respects : ∀ s t, r s t → Alike r (x s) (x t)

variable {r : σ → σ → Prop}

instance respects_pure (a : α) : Respects r (pure a : EStateM ε σ α) := ⟨fun _ _ h => ⟨rfl, h⟩⟩

instance respects_throw (e : ε) : Respects r (throw e : EStateM ε σ α) := ⟨fun _ _ h => ⟨rfl, h⟩⟩

/-- An update that keeps the relation. -/
theorem respects_modify {f : σ → σ} (hf : ∀ s t, r s t → r (f s) (f t)) :
    Respects r (modify f : EStateM ε σ PUnit) :=
  ⟨fun s t h => ⟨rfl, hf s t h⟩⟩

instance respects_bind {x : EStateM ε σ α} {f : α → EStateM ε σ β} [hx : Respects r x]
    [hf : ∀ a, Respects r (f a)] : Respects r (x >>= f) where
  respects s t h := by
    have hst := hx.respects s t h
    change Alike r (EStateM.bind x f s) (EStateM.bind x f t)
    unfold EStateM.bind
    rcases hs : x s with ⟨a, s'⟩ | ⟨e, s'⟩ <;> rcases ht : x t with ⟨b, t'⟩ | ⟨e', t'⟩ <;>
      rw [hs, ht] at hst
    · obtain ⟨rfl, hr⟩ := hst
      exact (hf a).respects s' t' hr
    · exact hst.elim
    · exact hst.elim
    · exact hst

/-- A state that is read may be replaced by a related one that the rest of the
    program takes for the same. -/
theorem respects_get {f : σ → EStateM ε σ α} (hsame : ∀ s t, r s t → f t = f s)
    (hf : ∀ s, Respects r (f s)) : Respects r (get >>= f) where
  respects s t h := by
    change Alike r (f s s) (f t t)
    rw [hsame s t h]
    exact (hf s).respects s t h

instance respects_ite {c : Prop} [Decidable c] {x y : EStateM ε σ α} [Respects r x]
    [Respects r y] : Respects r (if c then x else y) := by
  split_ifs <;> infer_instance

/-! ### Programs that do not look at the state -/

/-- Whatever the state, the program does the same. -/
abbrev Stateless (x : EStateM ε σ α) : Prop := Respects (fun _ _ => True) x

/-- A program that neither looks at the state nor changes it has one result. -/
theorem wp_stateless {x : EStateM ε σ α} [hx : Stateless x] [hframe : Frames Eq x]
    {Q : α → σ → Prop} {E : ε → σ → Prop} {s : σ} (hQ : ∀ a, (∀ t, x t = .ok a t) → Q a s)
    (hE : ∀ e, (∀ t, x t = .error e t) → E e s) : wp x Q E s := by
  have hsame (t : σ) : Alike (fun _ _ => True) (x s) (x t) := hx.respects s t trivial
  have hkept (t : σ) : wp x (fun _ u => t = u) (fun _ u => t = u) t := hframe.frames t
  refine wp_frames_result (R := Eq) x ?_ ?_
  · rintro a t hr rfl
    refine hQ a fun t => ?_
    have hat := hsame t
    have ht := hkept t
    unfold wp at ht
    cases hx' : x t with
    | ok b u =>
      rw [hr, hx'] at hat
      rw [hx'] at ht
      rw [hat.1, ht]
    | error e u =>
      rw [hr, hx'] at hat
      exact hat.elim
  · rintro e t hr rfl
    refine hE e fun t => ?_
    have hat := hsame t
    have ht := hkept t
    unfold wp at ht
    cases hx' : x t with
    | ok b u =>
      rw [hr, hx'] at hat
      exact hat.elim
    | error f u =>
      rw [hr, hx'] at hat
      rw [hx'] at ht
      rw [hat.1, ht]

end Wp

namespace Runs

variable {σ ι : Type} {step : σ → ι → Option σ} {r : σ → σ → Prop} {ok : ι → Prop}

/-- When related states step to related states on the inputs of a kind, runs of
    such inputs stay related: one is possible exactly when the other is. -/
theorem run_related (hstep : ∀ s t i, ok i → r s t → Option.Rel r (step s i) (step t i))
    {s t : σ} (h : r s t) {is : List ι} (his : ∀ i ∈ is, ok i) :
    Option.Rel r (run step s is) (run step t is) := by
  induction is generalizing s t with
  | nil => exact .some h
  | cons i is ih =>
    obtain ⟨hi, his⟩ := List.forall_mem_cons.mp his
    have := hstep s t i hi h
    simp only [run]
    cases hs : step s i <;> cases ht : step t i <;> rw [hs, ht] at this
    · exact .none
    · cases this
    · cases this
    · cases this with
      | some hst => exact ih hst his

end Runs
