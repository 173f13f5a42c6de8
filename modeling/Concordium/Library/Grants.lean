/-
  Grants in an event log.

  Some events grant a value, some end whatever has been granted.  A grant is
  open when it is the last one of the log and nothing has ended it since.
-/
import Mathlib.Data.List.Nodup

namespace Grants

variable {ε α : Type} (grants : ε → Option α) (ends : ε → Prop)

/-- The event neither grants nor ends anything. -/
def Inert (e : ε) : Prop := grants e = none ∧ ¬ ends e

/-- `a` has been granted last, and nothing has ended it since. -/
def Standing (a : α) (log : List ε) : Prop :=
  ∃ before e after, log = before ++ e :: after ∧ grants e = some a ∧
    ∀ f ∈ after, Inert grants ends f

variable {grants ends} {a b : α} {log es mid : List ε} {e : ε}

theorem Standing.append (h : Standing grants ends a log) (hes : ∀ f ∈ es, Inert grants ends f) :
    Standing grants ends a (log ++ es) := by
  obtain ⟨before, e, after, rfl, he, hafter⟩ := h
  refine ⟨before, e, after ++ es, by simp, he, fun f hf => ?_⟩
  rcases List.mem_append.mp hf with hf | hf
  · exact hafter f hf
  · exact hes f hf

theorem standing_grant (he : grants e = some a) (hes : ∀ f ∈ es, Inert grants ends f) :
    Standing grants ends a (log ++ e :: es) :=
  ⟨log, e, es, rfl, he, hes⟩

theorem Standing.mem (h : Standing grants ends a log) : a ∈ log.filterMap grants := by
  obtain ⟨before, e, after, rfl, he, -⟩ := h
  exact List.mem_filterMap.mpr ⟨e, by simp, he⟩

/-- What stands behind an event that is not inert and does not grant it was
    granted behind that event. -/
theorem Standing.behind (h : Standing grants ends a (log ++ e :: mid)) (he : ¬ Inert grants ends e)
    (hne : grants e ≠ some a) : a ∈ mid.filterMap grants := by
  obtain ⟨before, g, after, hlog, hg, hafter⟩ := h
  rw [List.append_eq_append_iff] at hlog
  obtain ⟨c, rfl, hc⟩ | ⟨c, rfl, hc⟩ := hlog
  · cases c with
    | nil =>
      obtain ⟨rfl, -⟩ := List.cons.inj hc
      exact absurd hg hne
    | cons x xs =>
      obtain ⟨rfl, rfl⟩ := List.cons.inj hc
      exact List.mem_filterMap.mpr ⟨g, by simp, hg⟩
  · cases c with
    | nil =>
      obtain ⟨rfl, -⟩ := List.cons.inj hc
      exact absurd hg hne
    | cons x xs =>
      obtain ⟨rfl, rfl⟩ := List.cons.inj hc
      exact absurd (hafter e (by simp)) he

/-- Granted values that never repeat do not stand again once they have ended. -/
theorem Standing.fresh (h : Standing grants ends b (log ++ e :: mid)) (he : ends e)
    (hgrant : grants e = none) (hnodup : ((log ++ e :: mid).filterMap grants).Nodup)
    (ha : a ∈ log.filterMap grants) : a ≠ b := by
  have hb : b ∈ mid.filterMap grants :=
    h.behind (fun hi => hi.2 he) (by rw [hgrant]; exact (Option.some_ne_none b).symm)
  rw [List.filterMap_append, List.filterMap_cons_none hgrant, List.nodup_append] at hnodup
  exact hnodup.2.2 a ha b hb

/-- An event that the tail of a log does not contain stands before the tail. -/
theorem split_before {tail pre post : List ε} (h : log ++ tail = pre ++ e :: post)
    (he : e ∉ tail) : ∃ rest, log = pre ++ e :: rest := by
  rw [List.append_eq_append_iff] at h
  obtain ⟨c, rfl, hc⟩ | ⟨c, rfl, hc⟩ := h
  · exact absurd (by rw [hc]; simp) he
  · cases c with
    | nil => exact absurd (by rw [← List.nil_append tail, ← hc]; simp) he
    | cons x xs =>
      obtain ⟨rfl, -⟩ := List.cons.inj hc
      exact ⟨xs, rfl⟩

end Grants
