/-
  The Gregorian calendar.

  A date is a year, a month and a day that the calendar has.  `tomorrow` is the
  calendar itself; the day number counts the days since the first of January of
  the year 0, and determines the date.
-/
import Mathlib.Algebra.Order.Group.Nat
import Mathlib.Logic.Function.Iterate
import Mathlib.Order.Monotone.Basic
import Mathlib.Tactic.Common
import Mathlib.Tactic.IntervalCases

namespace Calendar

/-! ## Years and months -/

/-- Every fourth year is a leap year, of the hundreds only every fourth. -/
def Leap (y : ℕ) : Prop := y % 4 = 0 ∧ (y % 100 ≠ 0 ∨ y % 400 = 0)

instance : DecidablePred Leap := fun _ => inferInstanceAs (Decidable (_ ∧ _))

/-- The days of a year. -/
def daysInYear (y : ℕ) : ℕ := if Leap y then 366 else 365

/-- Months count from 1. -/
def daysInMonth (y : ℕ) : ℕ → ℕ
  | 2 => if Leap y then 29 else 28
  | 4 | 6 | 9 | 11 => 30
  | _ => 31

theorem daysInMonth_pos (y m : ℕ) : 1 ≤ daysInMonth y m := by
  unfold daysInMonth
  split <;> try split_ifs
  all_goals omega

/-- The days of the years in front of a year. -/
def daysBeforeYear : ℕ → ℕ
  | 0 => 0
  | y + 1 => daysBeforeYear y + daysInYear y

/-- The days of a year in front of a month. -/
def daysBeforeMonth (y : ℕ) : ℕ → ℕ
  | 0 | 1 => 0
  | m + 2 => daysBeforeMonth y (m + 1) + daysInMonth y (m + 1)

theorem daysBeforeYear_mono : Monotone daysBeforeYear :=
  monotone_nat_of_le_succ fun _ => Nat.le_add_right _ _

theorem daysBeforeMonth_mono (y : ℕ) : Monotone (daysBeforeMonth y) :=
  monotone_nat_of_le_succ fun m => by
    cases m with
    | zero => exact le_rfl
    | succ m => exact Nat.le_add_right _ _

/-- The months of a year make up the year. -/
theorem daysBeforeMonth_last (y : ℕ) : daysBeforeMonth y 13 = daysInYear y := by
  simp only [daysBeforeMonth, daysInMonth, daysInYear]
  split_ifs <;> rfl

/-- A quotient that is rounded up grows behind the multiples. -/
theorem ceilDiv_succ (y : ℕ) {k : ℕ} (hk : 0 < k) :
    (y + 1 + (k - 1)) / k = (y + (k - 1)) / k + if y % k = 0 then 1 else 0 := by
  have hsub : y + 1 + (k - 1) = y + k := by omega
  rw [hsub, Nat.add_div_right y hk]
  have hdiv := Nat.div_add_mod y k
  have hlt := Nat.mod_lt y hk
  have hceil : y + (k - 1) = k * (y / k) + (y % k + (k - 1)) := by
    rw [← Nat.add_assoc, hdiv]
  rw [hceil, Nat.mul_add_div hk]
  split_ifs with h
  · have hnone : (y % k + (k - 1)) / k = 0 := Nat.div_eq_of_lt (by omega)
    rw [hnone]
  · have hone : (y % k + (k - 1)) / k = 1 := Nat.div_eq_of_lt_le (by omega) (by omega)
    rw [hone]

/-- The leap years in front of a year, counted. -/
theorem daysBeforeYear_eq (y : ℕ) :
    daysBeforeYear y + (y + 99) / 100 = 365 * y + (y + 3) / 4 + (y + 399) / 400 := by
  induction y with
  | zero => rfl
  | succ y ih =>
    have h4 : (y + 1 + 3) / 4 = _ := ceilDiv_succ y (show 0 < 4 by decide)
    have h100 : (y + 1 + 99) / 100 = _ := ceilDiv_succ y (show 0 < 100 by decide)
    have h400 : (y + 1 + 399) / 400 = _ := ceilDiv_succ y (show 0 < 400 by decide)
    have hhundred : y % 100 = 0 → y % 4 = 0 := fun h => by omega
    have hcycle : y % 400 = 0 → y % 100 = 0 := fun h => by omega
    have hyear : daysInYear y + (if y % 100 = 0 then 1 else 0) =
        365 + (if y % 4 = 0 then 1 else 0) + if y % 400 = 0 then 1 else 0 := by
      by_cases h : y % 4 = 0 <;> by_cases h' : y % 100 = 0 <;> by_cases h'' : y % 400 = 0 <;>
        simp_all [daysInYear, Leap]
    rw [daysBeforeYear]
    omega

/-! ## Dates -/

/-- A day of the calendar. -/
@[ext]
structure Date where
  year : ℕ
  month : ℕ
  day : ℕ
  month_mem : 1 ≤ month ∧ month ≤ 12
  day_mem : 1 ≤ day ∧ day ≤ daysInMonth year month
deriving DecidableEq, Repr

namespace Date

/-- The day behind a date. -/
def tomorrow (d : Date) : Date :=
  if h : d.day < daysInMonth d.year d.month then
    ⟨d.year, d.month, d.day + 1, d.month_mem, by omega⟩
  else if h' : d.month < 12 then
    ⟨d.year, d.month + 1, 1, by omega, le_rfl, daysInMonth_pos _ _⟩
  else
    ⟨d.year + 1, 1, 1, by omega, le_rfl, daysInMonth_pos _ _⟩

/-- The days in front of a date. -/
def dayNumber (d : Date) : ℕ :=
  daysBeforeYear d.year + (daysBeforeMonth d.year d.month + (d.day - 1))

theorem dayNumber_newYear (y : ℕ) (h : 1 ≤ 1 ∧ 1 ≤ 12) (h' : 1 ≤ 1 ∧ 1 ≤ daysInMonth y 1) :
    dayNumber ⟨y, 1, 1, h, h'⟩ = daysBeforeYear y := rfl

/-- A month ends where the next one starts. -/
theorem daysBeforeMonth_succ (d : Date) :
    daysBeforeMonth d.year (d.month + 1) =
      daysBeforeMonth d.year d.month + daysInMonth d.year d.month := by
  obtain ⟨m, hm⟩ := Nat.exists_eq_add_of_le' d.month_mem.1
  rw [hm]
  rfl

theorem dayNumber_tomorrow (d : Date) : d.tomorrow.dayNumber = d.dayNumber + 1 := by
  have hday := d.day_mem
  have hmonth := d.month_mem
  have hsucc := d.daysBeforeMonth_succ
  unfold tomorrow
  split_ifs with h h'
  · simp only [dayNumber]
    omega
  · simp only [dayNumber]
    omega
  · have h12 : d.month = 12 := by omega
    have hlast : daysBeforeMonth d.year (12 + 1) = daysInYear d.year := daysBeforeMonth_last d.year
    have hfirst : daysBeforeMonth (d.year + 1) 1 = 0 := rfl
    rw [h12] at hsucc hday h
    simp only [dayNumber, h12, daysBeforeYear, hfirst]
    omega

theorem dayNumber_iterate (d : Date) (n : ℕ) :
    (tomorrow^[n] d).dayNumber = d.dayNumber + n := by
  induction n with
  | zero => rfl
  | succ n ih =>
    rw [Function.iterate_succ_apply', dayNumber_tomorrow, ih, Nat.add_assoc]

/-- A date lies in its month and in its year. -/
theorem dayOfYear_lt (d : Date) :
    daysBeforeMonth d.year d.month + (d.day - 1) < daysBeforeMonth d.year (d.month + 1) := by
  have := d.day_mem
  have := d.daysBeforeMonth_succ
  omega

theorem dayNumber_lt (d : Date) : d.dayNumber < daysBeforeYear (d.year + 1) := by
  have hmonth : daysBeforeMonth d.year (d.month + 1) ≤ daysBeforeMonth d.year 13 :=
    daysBeforeMonth_mono _ (by have := d.month_mem; omega)
  rw [daysBeforeMonth_last] at hmonth
  rw [daysBeforeYear, dayNumber]
  have := d.dayOfYear_lt
  omega

end Date

/-- A number lies between two steps of a monotone function in one way only. -/
theorem eq_of_steps {f : ℕ → ℕ} (hf : Monotone f) {a b x : ℕ} (ha : f a ≤ x) (ha' : x < f (a + 1))
    (hb : f b ≤ x) (hb' : x < f (b + 1)) : a = b := by
  rcases Nat.lt_trichotomy a b with h | h | h
  · have hstep : f (a + 1) ≤ f b := hf h
    omega
  · exact h
  · have hstep : f (b + 1) ≤ f a := hf h
    omega

/-- The day number determines the date. -/
theorem Date.dayNumber_injective : Function.Injective Date.dayNumber := by
  intro d e h
  have hyear : d.year = e.year := by
    refine eq_of_steps daysBeforeYear_mono (Nat.le_add_right _ _) d.dayNumber_lt ?_ ?_
    · exact (Nat.le_add_right _ _).trans_eq h.symm
    · exact h.trans_lt e.dayNumber_lt
  have hday : daysBeforeMonth d.year d.month + (d.day - 1) =
      daysBeforeMonth d.year e.month + (e.day - 1) := by
    unfold dayNumber at h
    rw [hyear] at h ⊢
    exact Nat.add_left_cancel h
  have hmonth : d.month = e.month := by
    refine eq_of_steps (daysBeforeMonth_mono d.year) (Nat.le_add_right _ _) d.dayOfYear_lt ?_ ?_
    · exact (Nat.le_add_right _ _).trans_eq hday.symm
    · rw [hday, hyear]
      exact e.dayOfYear_lt
  have := d.day_mem
  have := e.day_mem
  rw [hmonth] at hday
  exact Date.ext hyear hmonth (by omega)

/-! ## Years that start in March -/

/-- The days in front of the first of March. -/
def daysBeforeMarch (y : ℕ) : ℕ := daysBeforeYear y + daysBeforeMonth y 3

/-- The months of such a year; the last one is the February behind it. -/
def marchMonths : List ℕ := [31, 30, 31, 30, 31, 31, 30, 31, 30, 31, 31, 29]

/-- The first ten months end a year, the other two start the next one. -/
theorem daysBeforeMonth_march (y : ℕ) {j : ℕ} (hj : j ≤ 10) :
    daysBeforeMonth y (j + 3) = daysBeforeMonth y 3 + (marchMonths.take j).sum := by
  interval_cases j <;> rfl

theorem daysBeforeYear_march (y : ℕ) : daysBeforeYear (y + 1) = daysBeforeMarch y + 306 := by
  have hmarch : daysBeforeMonth y 13 = daysBeforeMonth y 3 + 306 := daysBeforeMonth_march y le_rfl
  rw [daysBeforeYear, daysBeforeMarch, ← daysBeforeMonth_last, hmarch, Nat.add_assoc]

theorem daysBeforeMarch_eq (y : ℕ) :
    daysBeforeMarch y + y / 100 = 365 * y + y / 4 + y / 400 + 60 := by
  have hnext := daysBeforeYear_march y
  have hyear := daysBeforeYear_eq (y + 1)
  have h4 : (y + 1 + 3) / 4 = y / 4 + 1 := Nat.add_div_right y (show 0 < 4 by decide)
  have h100 : (y + 1 + 99) / 100 = y / 100 + 1 := Nat.add_div_right y (show 0 < 100 by decide)
  have h400 : (y + 1 + 399) / 400 = y / 400 + 1 := Nat.add_div_right y (show 0 < 400 by decide)
  rw [h4, h100, h400] at hyear
  omega

/-- Day `r` of month `j` of such a year. -/
theorem exists_marchDate (y : ℕ) {j r : ℕ} (hj : j < 12) (hr : r < marchMonths.getD j 0)
    (hleap : j = 11 → r = 28 → Leap (y + 1)) :
    ∃ d : Date, d.year = (if 10 ≤ j then y + 1 else y) ∧
      d.month = (if 10 ≤ j then j - 9 else j + 3) ∧ d.day = r + 1 ∧
      d.dayNumber = daysBeforeMarch y + (marchMonths.take j).sum + r := by
  by_cases hten : 10 ≤ j
  · have hmonth : j = 10 ∨ j = 11 := by omega
    have hbound : r + 1 ≤ daysInMonth (y + 1) (j - 9) := by
      rcases hmonth with rfl | rfl
      · exact hr
      · by_cases h28 : r = 28
        · rw [daysInMonth, if_pos (hleap rfl h28), h28]
        · have : r < 29 := hr
          show r + 1 ≤ if Leap (y + 1) then 29 else 28
          split_ifs <;> omega
    refine ⟨⟨y + 1, j - 9, r + 1, by omega, by omega, hbound⟩, (if_pos hten).symm,
      (if_pos hten).symm, rfl, ?_⟩
    have hsum : daysBeforeMonth (y + 1) (j - 9) + 306 = (marchMonths.take j).sum := by
      rcases hmonth with rfl | rfl <;> rfl
    simp only [Date.dayNumber, daysBeforeYear_march]
    omega
  · have hbound : marchMonths.getD j 0 = daysInMonth y (j + 3) := by
      have hlt := not_le.mp hten
      interval_cases j <;> rfl
    refine ⟨⟨y, j + 3, r + 1, by omega, by omega, by omega⟩, (if_neg hten).symm,
      (if_neg hten).symm, rfl, ?_⟩
    have hsum := daysBeforeMonth_march y (not_le.mp hten).le
    simp only [Date.dayNumber, daysBeforeMarch]
    omega

end Calendar
