/-
  What can be computed from parts of a key tree.

  The key at a path is derived from the key above it.  Handing out a node gives
  all below it, handing out its secret part gives nothing below it, and the
  digest of a secret does not give the secret.  `Computable` says this by rules,
  `Determined` by what any two trees have in common; for secrets the two agree.
-/
import Mathlib.Data.List.Infix

namespace KeyTree

universe u
variable {α : Type u}

/-- Part of the key at a path. -/
inductive Item (α : Type u) where
  | node (path : List α)
  | secret (path : List α)
  | digest (path : List α)
deriving DecidableEq, Repr

/-- What can be computed from the items that are given. -/
inductive Computable (given : Item α → Prop) : Item α → Prop where
  | given {i : Item α} (h : given i) : Computable given i
  | child {path : List α} (a : α) (h : Computable given (.node path)) :
    Computable given (.node (path ++ [a]))
  | secret {path : List α} (h : Computable given (.node path)) : Computable given (.secret path)
  | digest {path : List α} (h : Computable given (.secret path)) :
    Computable given (.digest path)

variable {given given' : Item α → Prop} {path : List α} {i : Item α}

theorem Computable.descend (h : Computable given (.node path)) (rest : List α) :
    Computable given (.node (path ++ rest)) := by
  induction rest using List.reverseRecOn with
  | nil => rwa [List.append_nil]
  | append_singleton rest a ih =>
    rw [← List.append_assoc]
    exact .child a ih

/-- A node is computed from a node at or above it. -/
theorem computable_node_iff :
    Computable given (.node path) ↔ ∃ q, given (.node q) ∧ q <+: path := by
  constructor
  · intro h
    generalize hi : Item.node path = i at h
    induction h generalizing path with
    | given h => exact ⟨path, hi ▸ h, List.prefix_rfl⟩
    | child a _ ih =>
      obtain rfl := Item.node.inj hi
      obtain ⟨q, hq, hbelow⟩ := ih rfl
      exact ⟨q, hq, hbelow.trans (List.prefix_append _ _)⟩
    | secret _ _ => cases hi
    | digest _ _ => cases hi
  · rintro ⟨q, hq, rest, rfl⟩
    exact (Computable.given hq).descend rest

/-- A secret is handed out itself, or below a node that is. -/
theorem computable_secret_iff :
    Computable given (.secret path) ↔
      given (.secret path) ∨ ∃ q, given (.node q) ∧ q <+: path := by
  constructor
  · intro h
    cases h with
    | given h => exact .inl h
    | secret h => exact .inr (computable_node_iff.mp h)
  · rintro (h | h)
    · exact .given h
    · exact .secret (computable_node_iff.mpr h)

/-! ## Trees -/

/-- How keys are derived. -/
structure Derivation (α : Type u) where
  Key : Type u
  Secret : Type u
  Digest : Type u
  child : Key → α → Key
  secret : Key → Secret
  digest : Secret → Digest

namespace Derivation

/-- The key at a path below a root. -/
def key (d : Derivation α) (root : d.Key) (path : List α) : d.Key := path.foldl d.child root

/-- Two roots have an item in common. -/
def Alike (d : Derivation α) (root root' : d.Key) : Item α → Prop
  | .node path => d.key root path = d.key root' path
  | .secret path => d.secret (d.key root path) = d.secret (d.key root' path)
  | .digest path =>
    d.digest (d.secret (d.key root path)) = d.digest (d.secret (d.key root' path))

theorem key_snoc {d : Derivation α} {root : d.Key} {a : α} :
    d.key root (path ++ [a]) = d.child (d.key root path) a :=
  List.foldl_append

end Derivation

/-- However keys are derived, roots that agree on what is given agree on the
    item. -/
def Determined (given : Item α → Prop) (i : Item α) : Prop :=
  ∀ (d : Derivation α) (root root' : d.Key), (∀ j, given j → d.Alike root root' j) →
    d.Alike root root' i

theorem Computable.determined (h : Computable given i) : Determined given i := by
  intro d root root' hgiven
  induction h with
  | given h => exact hgiven _ h
  | child a _ ih =>
    change d.key root (_ ++ [a]) = d.key root' (_ ++ [a])
    rw [d.key_snoc, d.key_snoc, ih]
  | secret _ ih => exact congrArg d.secret ih
  | digest _ ih => exact congrArg d.digest ih

/-! ## A tree that tells what is given from the rest -/

section Marked
open Classical

/-- A key is its path and a mark that it inherits until a node is given; a secret
    that is given shows no mark, and no digest does. -/
noncomputable def marked (given : Item α → Prop) : Derivation α where
  Key := List α × Bool
  Secret := List α × Bool
  Digest := List α
  child k a := (k.1 ++ [a], if given (.node (k.1 ++ [a])) then false else k.2)
  secret k := (k.1, if given (.secret k.1) then false else k.2)
  digest := Prod.fst

/-- The root with a mark. -/
noncomputable def markedRoot (given : Item α → Prop) (mark : Bool) : (marked given).Key :=
  ([], if given (.node []) then false else mark)

theorem marked_key (mark : Bool) : (marked given).key (markedRoot given mark) path =
    (path, if ∃ q, given (.node q) ∧ q <+: path then false else mark) := by
  induction path using List.reverseRecOn with
  | nil =>
    have hiff : (∃ q, given (.node q) ∧ q <+: []) ↔ given (.node []) := by simp
    simp only [hiff]
    rfl
  | append_singleton path a ih =>
    rw [Derivation.key_snoc, ih]
    refine Prod.ext rfl ?_
    by_cases hgiven : given (.node (path ++ [a]))
    · have hex : ∃ q, given (.node q) ∧ q <+: path ++ [a] := ⟨_, hgiven, List.prefix_rfl⟩
      simp only [marked, hgiven, hex, if_true]
    · have hiff : (∃ q, given (.node q) ∧ q <+: path ++ [a]) ↔
          ∃ q, given (.node q) ∧ q <+: path := by
        constructor
        · rintro ⟨q, hq, hbelow⟩
          rcases List.prefix_concat_iff.mp hbelow with rfl | hbelow
          · exact absurd hq hgiven
          · exact ⟨q, hq, hbelow⟩
        · rintro ⟨q, hq, hbelow⟩
          exact ⟨q, hq, hbelow.trans (List.prefix_append _ _)⟩
      simp only [marked, hgiven, hiff, if_false]

/-- The two marked roots agree on all that is given. -/
theorem marked_alike (j : Item α) (h : given j) :
    (marked given).Alike (markedRoot given false) (markedRoot given true) j := by
  cases j with
  | node q =>
    change (marked given).key _ q = (marked given).key _ q
    have hex : ∃ r, given (.node r) ∧ r <+: q := ⟨q, h, List.prefix_rfl⟩
    rw [marked_key, marked_key, if_pos hex, if_pos hex]
  | secret q =>
    change (marked given).secret ((marked given).key _ q) =
      (marked given).secret ((marked given).key _ q)
    rw [marked_key, marked_key]
    simp only [marked, h, if_true]
  | digest q =>
    change (marked given).digest ((marked given).secret ((marked given).key _ q)) =
      (marked given).digest ((marked given).secret ((marked given).key _ q))
    rw [marked_key, marked_key]
    rfl

/-- For secrets, the rules compute all that is determined. -/
theorem computable_iff_determined :
    Computable given (.secret path) ↔ Determined given (.secret path) := by
  refine ⟨Computable.determined, fun h => ?_⟩
  by_contra hno
  rw [computable_secret_iff, not_or] at hno
  have halike := h (marked given) (markedRoot given false) (markedRoot given true) marked_alike
  change (marked given).secret ((marked given).key _ path) =
    (marked given).secret ((marked given).key _ path) at halike
  rw [marked_key, marked_key, if_neg hno.2, if_neg hno.2] at halike
  simp only [marked, hno.1, if_false] at halike
  cases halike

end Marked

end KeyTree
