/-
  Untagged unions.

  A union is modelled by what was written to it last, or nothing when it was
  zero-filled.  Reading the member written last gives it back and reading any
  member of a zero-filled union gives that member's zero value; what reading
  another member gives depends on the memory layout and is left to a
  parameter.
-/
import Mathlib.Tactic.Common

namespace Union

/-- `U` has a zero-filled value, which no member was written to. -/
class Zeroed (U : Type) where
  zeroed : U
  isZeroed : U → Bool
  isZeroed_zeroed : isZeroed zeroed = true

/-- `α` is a member of the union `U`. -/
class Member (U : Type) (α : Type) [Zeroed U] extends Inhabited α where
  inject : α → U
  project : U → Option α
  project_inject : ∀ a, project (inject a) = some a
  isZeroed_inject : ∀ a, Zeroed.isZeroed (inject a) = false

variable {U α : Type} [Zeroed U] [Member U α]

/-- Read member `α`, with `residue` for the bytes another member left. -/
def read (residue : U → α) (u : U) : α :=
  if Zeroed.isZeroed u then default else (Member.project u).getD (residue u)

@[simp] theorem read_zeroed (residue : U → α) :
    read residue (Zeroed.zeroed : U) = default := by
  simp [read, Zeroed.isZeroed_zeroed]

@[simp] theorem read_inject (residue : U → α) (a : α) :
    read residue (Member.inject a : U) = a := by
  simp [read, Member.isZeroed_inject, Member.project_inject]

end Union
