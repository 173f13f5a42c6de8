/-
  Programs that return a value or fail.

  `Yields P x` says that whatever `x` returns has `P`; a program that fails
  returns nothing.  The rules take a program apart along its binds.
-/
import Mathlib.Tactic.Common

namespace Returns

/-- A monad whose programs return a value or fail. -/
class MayFail (m : Type → Type) [Monad m] where
  value : {α : Type} → m α → Option α
  value_pure : ∀ {α : Type} (a : α), value (pure a : m α) = some a
  value_bind : ∀ {α β : Type} (x : m α) (f : α → m β),
    value (x >>= f) = (value x).bind fun a => value (f a)

instance : MayFail Option where
  value x := x
  value_pure _ := rfl
  value_bind _ _ := rfl

instance {ε : Type} : MayFail (Except ε) where
  value := Except.toOption
  value_pure _ := rfl
  value_bind x _ := by cases x <;> rfl

variable {m : Type → Type} [Monad m] [MayFail m] {α β : Type} {P Q : α → Prop}

/-- Whatever the program returns has the property. -/
def Yields (P : α → Prop) (x : m α) : Prop := ∀ a, MayFail.value x = some a → P a

theorem yields_pure {a : α} (h : P a) : Yields P (pure a : m α) := by
  intro b hb
  rw [MayFail.value_pure] at hb
  exact Option.some.inj hb ▸ h

theorem yields_bind {P : β → Prop} {x : m α} {f : α → m β}
    (h : Yields (fun a => Yields P (f a)) x) : Yields P (x >>= f) := by
  intro b hb
  rw [MayFail.value_bind] at hb
  obtain ⟨a, ha, hb⟩ := Option.bind_eq_some_iff.mp hb
  exact h a ha b hb

theorem yields_mono {x : m α} (hPQ : ∀ a, P a → Q a) (h : Yields P x) : Yields Q x :=
  fun a ha => hPQ a (h a ha)

theorem yields_any {x : m α} (h : ∀ a, P a) : Yields P x := fun a _ => h a

theorem yields_if {c : Prop} [Decidable c] {x y : m α} (hx : c → Yields P x)
    (hy : ¬ c → Yields P y) : Yields P (if c then x else y) := by
  by_cases hc : c
  · rw [if_pos hc]
    exact hx hc
  · rw [if_neg hc]
    exact hy hc

/-- A program that goes on whatever is returned before. -/
theorem yields_then {P : β → Prop} {x : m α} {f : α → m β} (h : ∀ a, Yields P (f a)) :
    Yields P (x >>= f) := yields_bind (yields_any h)

theorem yields_none : Yields P (none : Option α) := nofun

theorem yields_error {ε : Type} {e : ε} : Yields P (.error e : Except ε α) := nofun

end Returns
