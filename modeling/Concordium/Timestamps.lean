/-
  The release times of a schedule on screen (`time.c` and
  `processNextScheduledAmount` in `sign_transfer_schedule.c`).

  `secondsToTm` counts in years that start in March and in cycles of 400, 100
  and 4 of them.  The date it finds is the one the calendar gives that many
  days after the first of January 1970, and the text written from it reads back
  as the timestamp.
-/
import Concordium.Library.Calendar
import Concordium.Texts

namespace Concordium

open Buffer Calendar Wp

/-! ## Dates since 1970 -/

/-- The first of January 1970. -/
def unixEpoch : Date := ⟨1970, 1, 1, by decide, by decide⟩

/-- The date some days later. -/
def unixDate (days : ℕ) : Date := Date.tomorrow^[days] unixEpoch

theorem unixEpoch_dayNumber : unixEpoch.dayNumber = 719528 := by
  have hyears := daysBeforeYear_eq 1970
  rw [unixEpoch, Date.dayNumber_newYear]
  omega

theorem unixDate_dayNumber (days : ℕ) : (unixDate days).dayNumber = 719528 + days := by
  rw [unixDate, Date.dayNumber_iterate, unixEpoch_dayNumber]

theorem eq_unixDate {d : Date} {days : ℕ} (h : d.dayNumber = 719528 + days) : d = unixDate days :=
  Date.dayNumber_injective (h.trans (unixDate_dayNumber days).symm)

theorem unixDate_year_le (days : ℕ) : 1970 ≤ (unixDate days).year := by
  by_contra hlt
  have hyear : daysBeforeYear ((unixDate days).year + 1) ≤ daysBeforeYear 1970 :=
    daysBeforeYear_mono (by omega)
  have hday := (unixDate days).dayNumber_lt
  have hyears := daysBeforeYear_eq 1970
  rw [unixDate_dayNumber] at hday
  omega

/-! ## The conversion -/

theorem divFloor_eq (a : ℤ) {b : ℤ} (hb : 0 < b) : divFloor a b = (a / b, a % b) := by
  have hlt := Int.emod_lt_of_pos a hb
  have hnonneg := Int.emod_nonneg a hb.ne'
  unfold divFloor
  rw [Int.tmod_eq_emod, Int.tdiv_eq_ediv, Int.sign_eq_one_of_pos hb]
  by_cases h : 0 ≤ a ∨ b ∣ a
  · rw [if_pos h, if_pos h, if_neg (by omega)]
    simp
  · rw [if_neg h, if_neg h, if_pos (by omega)]
    simp only [Prod.mk.injEq]
    omega

/-- The cycles passed and the days behind them; the last cycle may have one day
    more. -/
theorem cycles_spec {r len most : ℤ} (hlen : 0 < len) (h0 : 0 ≤ most) (hr : 0 ≤ r)
    (hmost : r ≤ (most + 1) * len) :
    ∃ q r', cycles r len most = (q, r') ∧ r = q * len + r' ∧ 0 ≤ q ∧ q ≤ most ∧ 0 ≤ r' ∧
      (r' < len ∨ q = most ∧ r' = len) := by
  have hdiv := Int.ediv_mul_add_emod r len
  have hlt := Int.emod_lt_of_pos r hlen
  have hnonneg := Int.emod_nonneg r hlen.ne'
  have hq : 0 ≤ r / len := Int.ediv_nonneg hr hlen.le
  unfold cycles
  rw [Int.tdiv_eq_ediv_of_nonneg hr]
  by_cases h : r / len = most + 1
  · have hrest : (most + 1) * len = most * len + len := by ring
    have hr' : r = (most + 1) * len := by
      rw [h] at hdiv
      omega
    refine ⟨most, len, ?_, by rw [hr', hrest], h0, le_rfl, hlen.le, Or.inr ⟨rfl, rfl⟩⟩
    have hlast : most + 1 - 1 = most := by omega
    simp only [h, ↓reduceIte, hlast, Prod.mk.injEq, true_and]
    omega
  · have hle : r / len ≤ most + 1 := Int.ediv_le_of_le_mul hlen hmost
    refine ⟨r / len, r % len, ?_, hdiv.symm, hq, by omega, hnonneg, Or.inl hlt⟩
    simp only [if_neg h, Prod.mk.injEq, true_and]
    omega

/-- The months passed and the days behind them. -/
theorem monthLoop_spec (days : List ℤ) (months : ℤ) {r : ℤ} (hr : 0 ≤ r) (hsum : r < days.sum) :
    ∃ (j : ℕ) (r' : ℤ), monthLoop days months r = (months + j, r') ∧ j < days.length ∧
      r = (days.take j).sum + r' ∧ 0 ≤ r' ∧ r' < days.getD j 0 := by
  induction days generalizing months r with
  | nil => exact absurd hsum (by simpa using hr)
  | cons day days ih =>
    unfold monthLoop
    by_cases h : day ≤ r
    · rw [List.sum_cons] at hsum
      obtain ⟨j, r', hloop, hj, hrest, hr', hlt⟩ :=
        ih (months + 1) (show 0 ≤ r - day by omega) (by omega)
      refine ⟨j + 1, r', ?_, by simpa using hj, ?_, hr', hlt⟩
      · rw [if_pos h, hloop]
        simp only [Prod.mk.injEq, and_true]
        omega
      · rw [List.take_succ_cons, List.sum_cons]
        omega
    · exact ⟨0, r, by simp [if_neg h], by simp, by simp, hr, not_le.mp h⟩

/-- The broken-down time of a date and a second of it. -/
def tmOf (d : Date) (second : ℕ) : Tm :=
  ⟨(second % 60 : ℕ), (second / 60 % 60 : ℕ), (second / 3600 : ℕ), d.day, d.month - 1,
    d.year - 1900⟩

theorem march_sum {j : ℕ} (hj : j < 12) :
    (daysInMonth.take j).sum = ((marchMonths.take j).sum : ℕ) := by
  interval_cases j <;> rfl

theorem march_getD {j : ℕ} (hj : j < 12) :
    daysInMonth.getD j 0 = (marchMonths.getD j 0 : ℕ) := by
  interval_cases j <;> rfl

/-- The last of four years ends in a leap day, the last of a hundred years only
    when it ends a cycle. -/
theorem leap_of_cycles {year : ℕ} (qc : ℤ) {c q : ℤ}
    (hyear : (year : ℤ) = 4 * (q + 1) + 100 * (20 + c + 4 * qc)) (hq : 0 ≤ q ∧ q ≤ 24)
    (hlast : q = 24 → c = 3) : Leap year := by
  refine ⟨by omega, ?_⟩
  by_cases hq24 : q = 24
  · have hc3 : c = 3 := hlast hq24
    exact Or.inr (by omega)
  · exact Or.inl (by omega)

/-- The year that starts in March, and the days behind its start, for a number
    of days counted from the first of March 2000. -/
theorem exists_marchYear {n : ℕ} {qc c q y r : ℤ}
    (hr : (n : ℤ) - 11017 = 146097 * qc + 36524 * c + 1461 * q + 365 * y + r)
    (hc : 0 ≤ c ∧ c ≤ 3) (hq : 0 ≤ q ∧ q ≤ 24) (hy : 0 ≤ y ∧ y ≤ 3) (hr0 : 0 ≤ r)
    (hlast : r < 365 ∨ y = 3 ∧ r = 365)
    (hlast4 : 365 * y + r < 1461) (hlast100 : 1461 * q + 365 * y + r < 36524 ∨
      c = 3 ∧ 1461 * q + 365 * y + r = 36524) :
    ∃ year rest : ℕ, (year : ℤ) = 2000 + (y + 4 * q + 100 * c + 400 * qc) ∧ (rest : ℤ) = r ∧
      719528 + n = daysBeforeMarch year + rest ∧ (rest = 365 → Leap (year + 1)) := by
  obtain ⟨year, hyear⟩ := Int.eq_ofNat_of_zero_le
    (show 0 ≤ 2000 + (y + 4 * q + 100 * c + 400 * qc) by omega)
  obtain ⟨rest, rfl⟩ := Int.eq_ofNat_of_zero_le hr0
  refine ⟨year, rest, hyear.symm, rfl, ?_, fun hrest => ?_⟩
  · have hmarch := daysBeforeMarch_eq year
    have h4 : (year : ℤ) / 4 = 500 + q + 25 * c + 100 * qc := by omega
    have h100 : (year : ℤ) / 100 = 20 + c + 4 * qc := by omega
    have h400 : (year : ℤ) / 400 = 5 + qc := by omega
    omega
  · -- Only the last of four years has a day more.
    rw [hrest] at hlast hlast100
    have hy3 : y = 3 := hlast.elim (absurd · (by decide)) And.left
    rw [hy3] at hyear hlast100
    refine leap_of_cycles qc (c := c) (by omega) hq fun h24 => ?_
    rw [h24] at hlast100
    exact hlast100.elim (absurd · (by decide)) And.left

theorem timeOfDay (s : ℕ) :
    (s : ℤ).tmod 60 = (s % 60 : ℕ) ∧ ((s : ℤ).tdiv 60).tmod 60 = (s / 60 % 60 : ℕ) ∧
      (s : ℤ).tdiv 3600 = (s / 3600 : ℕ) := ⟨rfl, rfl, rfl⟩

/-- `secondsToTm` finds the date of the calendar and the time of the day. -/
theorem secondsToTm_eq {t : ℕ} (ht : t ≤ 18446744073709551) :
    secondsToTm t = some (tmOf (unixDate (t / 86400)) (t % 86400)) := by
  have hguard : ¬ ((t : ℤ) < intMin * 31622400 ∨ intMax * 31622400 < t) := by
    unfold intMin intMax
    omega
  have hday : ((t : ℤ) - leapoch) / 86400 = (t / 86400 : ℕ) - 11017 := by
    unfold leapoch
    omega
  have hsecond : ((t : ℤ) - leapoch) % 86400 = (t % 86400 : ℕ) := by
    unfold leapoch
    omega
  have hdays : t / 86400 ≤ 213503982334 := by omega
  have hsecs : t % 86400 < 86400 := Nat.mod_lt _ (by decide)
  unfold secondsToTm
  rw [if_neg hguard, divFloor_eq _ (by decide), hday, hsecond]
  generalize t / 86400 = n at hdays ⊢
  generalize t % 86400 = s at hsecs ⊢
  simp only [divFloor_eq _ (show 0 < daysPer400Y by decide)]
  have hqc := Int.mul_ediv_add_emod (n - 11017 : ℤ) daysPer400Y
  have hr0 : 0 ≤ (n - 11017 : ℤ) % daysPer400Y := Int.emod_nonneg _ (by decide)
  have hr0' : (n - 11017 : ℤ) % daysPer400Y < daysPer400Y := Int.emod_lt_of_pos _ (by decide)
  generalize (n - 11017 : ℤ) / daysPer400Y = qc at hqc ⊢
  generalize (n - 11017 : ℤ) % daysPer400Y = r₀ at hqc hr0 hr0' ⊢
  obtain ⟨c, r₁, hc, hr, hc0, hc3, hr1, hlast100⟩ :=
    cycles_spec (show 0 < daysPer100Y by decide) (show (0 : ℤ) ≤ 3 by decide) hr0
      (by unfold daysPer400Y at hr0'; unfold daysPer100Y; omega)
  have hr1' : r₁ ≤ 36524 := by
    unfold daysPer100Y at hlast100
    omega
  obtain ⟨q, r₂, hq, hr', hq0, hq24, hr2, hlast4⟩ :=
    cycles_spec (show 0 < daysPer4Y by decide) (show (0 : ℤ) ≤ 24 by decide) hr1
      (by unfold daysPer4Y; omega)
  have hr2' : r₂ ≤ 1460 := by
    unfold daysPer4Y at hlast4 hr'
    omega
  obtain ⟨y, r₃, hy, hr'', hy0, hy3, hr3, hlast⟩ :=
    cycles_spec (show (0 : ℤ) < 365 by decide) (show (0 : ℤ) ≤ 3 by decide) hr2 (by omega)
  obtain ⟨j, r₄, hloop, hj, hr4, hr4', hmonth⟩ :=
    monthLoop_spec daysInMonth 0 hr3 (show r₃ < daysInMonth.sum by
      have hsum : daysInMonth.sum = 366 := by decide
      omega)
  simp only [hc, hq, hy, hloop]
  have hj12 : j < 12 := hj
  obtain ⟨year, rest, hyear, hrest, hnumber, hleap⟩ := exists_marchYear
    (show (n : ℤ) - 11017 = 146097 * qc + 36524 * c + 1461 * q + 365 * y + r₃ by
      unfold daysPer400Y at hqc; unfold daysPer100Y at hr; unfold daysPer4Y at hr'; omega)
    ⟨hc0, hc3⟩ ⟨hq0, hq24⟩ ⟨hy0, hy3⟩ hr3 (by omega) (by omega)
    (by unfold daysPer100Y at hlast100; unfold daysPer4Y at hr'; omega)
  obtain ⟨r, rfl⟩ := Int.eq_ofNat_of_zero_le hr4'
  rw [march_sum hj12] at hr4
  rw [march_getD hj12, Int.ofNat_lt] at hmonth
  obtain ⟨d, hdyear, hdmonth, hdday, hdnumber⟩ := exists_marchDate year hj12 hmonth
    (fun h11 h28 => hleap (by
      rw [h11, h28] at hr4
      have hsum : (marchMonths.take 11).sum = 337 := by decide
      omega))
  have hd : d = unixDate n := eq_unixDate (by omega)
  have hrange : ¬ (intMax - 100 < y + 4 * q + 100 * c + 400 * qc ∨
      y + 4 * q + 100 * c + 400 * qc < intMin + 100) := by
    unfold daysPer400Y at hqc
    unfold intMax intMin
    omega
  rw [if_neg hrange, ← hd]
  by_cases hten : 10 ≤ j
  · rw [if_pos hten] at hdyear hdmonth
    have hmonths : 12 ≤ 0 + (j : ℤ) + 2 := by omega
    simp only [if_pos hmonths, tmOf, hdyear, hdmonth, hdday, timeOfDay s,
      Option.some.injEq, Tm.mk.injEq, true_and]
    refine ⟨?_, ?_, ?_⟩ <;> omega
  · rw [if_neg hten] at hdyear hdmonth
    have hmonths : ¬ 12 ≤ 0 + (j : ℤ) + 2 := by omega
    simp only [if_neg hmonths, tmOf, hdyear, hdmonth, hdday, timeOfDay s,
      Option.some.injEq, Tm.mk.injEq, true_and]
    refine ⟨?_, ?_, ?_⟩ <;> omega

/-! ## Texts -/

/-- A number of two digits. -/
def twoDigits (n : ℕ) : Bytes := digitText (places 10 2 n)

/-- A date and a second of it, as `2024-02-29 23:59:59`. -/
def secondText (d : Date) (second : ℕ) : Bytes :=
  decimal d.year ++ (ascii "-" ++ twoDigits d.month ++ ascii "-" ++ twoDigits d.day ++ ascii " " ++
    twoDigits (second / 3600) ++ ascii ":" ++ twoDigits (second / 60 % 60) ++ ascii ":" ++
    twoDigits (second % 60))

/-- The UTC date and time of a timestamp in milliseconds, to the millisecond. -/
def utcText (timestampMs : ℕ) : Bytes :=
  secondText (unixDate (timestampMs / 1000 / 86400)) (timestampMs / 1000 % 86400) ++
    (ascii "." ++ digitText (places 10 3 (timestampMs % 1000)))

/-- The timestamp of such a text: the last 19 characters stand at fixed places
    behind the year. -/
def ofUtcText (text : Bytes) : ℕ :=
  let rest := text.drop (text.length - 19)
  let field (off len : ℕ) : ℕ := ofDecimal ((rest.drop off).take len)
  let year := ofDecimal (text.take (text.length - 19))
  let days := daysBeforeYear year + (daysBeforeMonth year (field 1 2) + (field 4 2 - 1)) - 719528
  ((days * 86400 + field 7 2 * 3600 + field 10 2 * 60 + field 13 2) * 1000) + field 16 3

theorem daysInMonth_le (y m : ℕ) : Calendar.daysInMonth y m ≤ 31 := by
  unfold Calendar.daysInMonth
  split <;> try split_ifs
  all_goals omega

theorem ofDecimal_twoDigits {n : ℕ} (h : n < 100) : ofDecimal (twoDigits n) = n :=
  (ofDecimal_digitText 2 n).trans (Nat.mod_eq_of_lt h)

/-- The text of a timestamp reads back as the timestamp. -/
theorem ofUtcText_utcText (timestampMs : ℕ) : ofUtcText (utcText timestampMs) = timestampMs := by
  have hday := (unixDate (timestampMs / 1000 / 86400)).day_mem
  have hmonth := (unixDate (timestampMs / 1000 / 86400)).month_mem
  have hle := daysInMonth_le (unixDate (timestampMs / 1000 / 86400)).year
    (unixDate (timestampMs / 1000 / 86400)).month
  have hnumber := unixDate_dayNumber (timestampMs / 1000 / 86400)
  unfold Date.dayNumber at hnumber
  unfold utcText secondText
  generalize unixDate (timestampMs / 1000 / 86400) = d at *
  generalize hs : timestampMs / 1000 % 86400 = s
  generalize hms : timestampMs % 1000 = ms
  have hsecs : s < 86400 := hs ▸ Nat.mod_lt _ (by decide)
  let rest : Bytes := ascii "-" ++ twoDigits d.month ++ ascii "-" ++ twoDigits d.day ++ ascii " " ++
    twoDigits (s / 3600) ++ ascii ":" ++ twoDigits (s / 60 % 60) ++ ascii ":" ++ twoDigits (s % 60)
    ++ (ascii "." ++ digitText (places 10 3 ms))
  have htext : decimal d.year ++ (ascii "-" ++ twoDigits d.month ++ ascii "-" ++ twoDigits d.day ++
      ascii " " ++ twoDigits (s / 3600) ++ ascii ":" ++ twoDigits (s / 60 % 60) ++ ascii ":" ++
      twoDigits (s % 60)) ++ (ascii "." ++ digitText (places 10 3 ms)) = decimal d.year ++ rest :=
    List.append_assoc _ _ _
  have hlength : (decimal d.year ++ rest).length - 19 = (decimal d.year).length := by
    rw [List.length_append]
    exact Nat.add_sub_cancel _ 19
  have hmonthText : ofDecimal ((rest.drop 1).take 2) = d.month := ofDecimal_twoDigits (by omega)
  have hdayText : ofDecimal ((rest.drop 4).take 2) = d.day := ofDecimal_twoDigits (by omega)
  have hhour : ofDecimal ((rest.drop 7).take 2) = s / 3600 := ofDecimal_twoDigits (by omega)
  have hminute : ofDecimal ((rest.drop 10).take 2) = s / 60 % 60 := ofDecimal_twoDigits (by omega)
  have hsecond : ofDecimal ((rest.drop 13).take 2) = s % 60 := ofDecimal_twoDigits (by omega)
  have hmilli : ofDecimal ((rest.drop 16).take 3) = ms :=
    (ofDecimal_digitText 3 ms).trans (Nat.mod_eq_of_lt (by omega))
  rw [htext]
  unfold ofUtcText
  simp only [hlength, List.drop_left, List.take_left, ofDecimal_decimal, hmonthText, hdayText,
    hhour, hminute, hsecond, hmilli]
  omega

/-! ## Writing the text -/

theorem numberToText_eq {size n : ℕ} (h : (decimal n).length ≤ size) :
    numberToText size n = pure (decimal n) := by
  rw [numberToText, throwIf, if_neg (not_lt.mpr h)]
  rfl

theorem appendSeparator_eq {size : ℕ} {text : Bytes} (h : text.length < size) (separator : String) :
    appendSeparator size text separator = pure (text ++ ascii separator) := by
  rw [appendSeparator, throwIf, if_neg (not_le.mpr h)]
  rfl

theorem twoDigits_eq {n : ℕ} (h : n < 100) :
    twoDigits n = if n < 10 then ascii "0" ++ decimal n else decimal n := by
  have hall : ∀ k : Fin 100, twoDigits k =
      if k.val < 10 then ascii "0" ++ decimal k else decimal k := by decide +kernel
  exact hall ⟨n, h⟩

theorem appendTwoDigits_eq {size n : ℕ} {text : Bytes} (hn : n < 100)
    (h : text.length + 2 ≤ size) :
    appendTwoDigits size text n = pure (text ++ twoDigits n) := by
  have hlength : (twoDigits n).length = 2 := rfl
  have hten : (n : ℤ) < 10 ↔ n < 10 := by omega
  rw [twoDigits_eq hn] at hlength ⊢
  unfold appendTwoDigits
  by_cases hsmall : n < 10
  · rw [if_pos (hten.mpr hsmall), throwIf, if_neg (by omega)]
    rw [if_pos hsmall] at hlength ⊢
    show (do return text ++ ascii "0" ++ (← numberToText (size - (text ++ ascii "0").length) n)) = _
    rw [numberToText_eq (by
      rw [List.length_append] at hlength ⊢
      have hzero : (ascii "0").length = 1 := rfl
      omega)]
    show (pure (text ++ ascii "0" ++ decimal n) : App Bytes) = _
    rw [List.append_assoc]
  · rw [if_neg (mt hten.mp hsmall)]
    rw [if_neg hsmall] at hlength ⊢
    show (do return text ++ (← numberToText (size - text.length) n)) = _
    rw [numberToText_eq (by omega)]
    rfl

theorem appendField_eq {α : Type} {size n : ℕ} {text : Bytes} {separator : String}
    {f : Bytes → App α} (hseparator : (ascii separator).length = 1) (hn : n < 100)
    (h : text.length + 3 ≤ size) :
    (do
      let text ← appendSeparator size text separator
      let text ← appendTwoDigits size text n
      f text) = f (text ++ (ascii separator ++ twoDigits n)) := by
  have hlength : (text ++ ascii separator).length + 2 ≤ size := by
    rw [List.length_append, hseparator]
    omega
  rw [appendSeparator_eq (by omega), pure_bind, appendTwoDigits_eq hn hlength, pure_bind,
    List.append_assoc]

theorem secondText_length {d : Date} (hyear : d.year < 100000) (second : ℕ) :
    (secondText d second).length ≤ 20 := by
  have hdecimal := decimal_length (show 0 < 5 by decide) (show d.year < 10 ^ 5 from hyear)
  rw [secondText, List.length_append]
  show (decimal d.year).length + 15 ≤ 20
  omega

theorem timeToDisplayText_eq {d : Date} {second : ℕ} (hyear : 1970 ≤ d.year)
    (hyear' : d.year < 100000) (hsecond : second < 86400) :
    timeToDisplayText (tmOf d second) 25 = pure (secondText d second ++ [0]) := by
  have hday := d.day_mem
  have hmonth := d.month_mem
  have hle := daysInMonth_le d.year d.month
  have hdecimal := decimal_length (show 0 < 5 by decide) (show d.year < 10 ^ 5 from hyear')
  have htmYear : ((tmOf d second).tmYear + 1900).toNat = d.year := by simp [tmOf]
  have htmMon : (tmOf d second).tmMon + 1 = (d.month : ℕ) := by simp [tmOf]
  have htmMday : (tmOf d second).tmMday = (d.day : ℕ) := rfl
  have htmHour : (tmOf d second).tmHour = (second / 3600 : ℕ) := rfl
  have htmMin : (tmOf d second).tmMin = (second / 60 % 60 : ℕ) := rfl
  have htmSec : (tmOf d second).tmSec = (second % 60 : ℕ) := rfl
  have hdash (k : ℕ) : (ascii "-" ++ twoDigits k).length = 3 := rfl
  have hspace (k : ℕ) : (ascii " " ++ twoDigits k).length = 3 := rfl
  have hcolon (k : ℕ) : (ascii ":" ++ twoDigits k).length = 3 := rfl
  unfold timeToDisplayText
  rw [throwIf, if_neg (by simp only [tmOf]; omega), pure_bind, throwIf, if_neg (by decide),
    pure_bind, htmYear, htmMon, htmMday, htmHour, htmMin, htmSec, numberToText_eq (by omega),
    pure_bind]
  rw [appendField_eq rfl (by omega) (by omega)]
  rw [appendField_eq rfl (by omega) (by rw [List.length_append, hdash]; omega)]
  rw [appendField_eq rfl (by omega) (by
    rw [List.length_append, hdash, List.length_append, hdash]
    omega)]
  rw [appendField_eq rfl (by omega) (by
    rw [List.length_append, hspace, List.length_append, hdash, List.length_append, hdash]
    omega)]
  rw [appendField_eq rfl (by omega) (by
    rw [List.length_append, hcolon, List.length_append, hspace, List.length_append, hdash,
      List.length_append, hdash]
    omega)]
  have hfits : ¬ 25 < (secondText d second).length + 1 := by
    have := secondText_length hyear' second
    omega
  have htext : decimal d.year ++ (ascii "-" ++ twoDigits d.month) ++
      (ascii "-" ++ twoDigits d.day) ++ (ascii " " ++ twoDigits (second / 3600)) ++
      (ascii ":" ++ twoDigits (second / 60 % 60)) ++ (ascii ":" ++ twoDigits (second % 60)) =
        secondText d second := by
    simp only [secondText, List.append_assoc]
  rw [htext, throwIf, if_neg hfits]
  rfl

/-! ## The display buffer -/

/-- The buffer holds the text of a timestamp, and ends it. -/
structure TimeShown (timestampMs : ℕ) (display : Buf 25) : Prop where
  text : display.text = utcText timestampMs
  terminated : 0 ∈ display.bytes

theorem TimeShown.decoded {timestampMs : ℕ} {display : Buf 25} (h : TimeShown timestampMs display) :
    ofUtcText display.text = timestampMs := by
  rw [h.text, ofUtcText_utcText]

theorem zero_not_mem_digitText {k n : ℕ} : 0 ∉ digitText (places 10 k n) := fun h =>
  absurd (isDigit_of_mem_digitText (fun _ hd => places_lt (by decide) hd) h).1 (by decide)

theorem zero_not_mem_secondText (d : Date) (second : ℕ) : 0 ∉ secondText d second := by
  have hdash : 0 ∉ ascii "-" := by decide
  have hspace : 0 ∉ ascii " " := by decide
  have hcolon : 0 ∉ ascii ":" := by decide
  have hdigits (n : ℕ) : 0 ∉ twoDigits n := zero_not_mem_digitText
  simp only [secondText, List.mem_append, not_or]
  exact ⟨zero_not_mem_decimal _, by simp only [hdash, hspace, hcolon, hdigits, not_false_eq_true,
    and_self]⟩

/-- Three digits and a terminator are put behind the text of a buffer. -/
theorem appendMilliseconds_eq {dst : Buf 25} {ms : ℕ} (hms : ms < 1000)
    (h : dst.text.length ≤ 20) :
    ∃ hw, appendMilliseconds dst ms = pure (dst.write dst.text.length
      (ascii "." ++ digitText (places 10 3 ms) ++ [0]) hw) := by
  have hdigits : ascii "." ++ [asciiDigit (ms / 100), asciiDigit (ms / 10 % 10),
      asciiDigit (ms % 10), 0] = ascii "." ++ digitText (places 10 3 ms) ++ [0] := by
    have hplaces : places 10 3 ms = [ms / 100, ms / 10 % 10, ms % 10] := by
      simp only [places]
      rw [Nat.mod_eq_of_lt (show ms / 10 ^ 2 < 10 by omega), Nat.pow_one, Nat.pow_zero, Nat.div_one]
      rfl
    rw [hplaces]
    rfl
  have hlength : (ascii "." ++ digitText (places 10 3 ms) ++ [0]).length = 5 := rfl
  have hw : dst.text.length + (ascii "." ++ digitText (places 10 3 ms) ++ [0]).length ≤ 25 := by
    omega
  refine ⟨hw, ?_⟩
  rw [appendMilliseconds, throwIf, if_neg (by omega), pure_bind]
  show (do
    throwIf (25 < dst.text.length + 5) errorBufferOverflow
    memmove dst dst.text.length (ascii "." ++ [asciiDigit (ms / 100), asciiDigit (ms / 10 % 10),
      asciiDigit (ms % 10), 0])) = _
  rw [throwIf, if_neg (by omega), pure_bind, hdigits, memmove, dif_pos hw]

/-- `timestampText` refuses a year behind 11899 and shows any other timestamp. -/
theorem timestampText_spec {timestampMs : ℕ} (h : timestampMs < 2 ^ 64) (display : Buf 25)
    (w : World) :
    wp (timestampText timestampMs display)
      (fun r t => t = w ∧ (unixDate (timestampMs / 1000 / 86400)).year ≤ 11899 ∧
        TimeShown timestampMs r.2)
      (fun e t => t = w ∧ 11899 < (unixDate (timestampMs / 1000 / 86400)).year ∧
        e = .statusWord errorInvalidParam) w := by
  have hutc : utcText timestampMs = secondText (unixDate (timestampMs / 1000 / 86400))
      (timestampMs / 1000 % 86400) ++ (ascii "." ++ digitText (places 10 3 (timestampMs % 1000))) :=
    rfl
  have hsecond : timestampMs / 1000 % 86400 < 86400 := Nat.mod_lt _ (by decide)
  have hyear := unixDate_year_le (timestampMs / 1000 / 86400)
  unfold timestampText
  rw [secondsToTm_eq (by omega)]
  generalize unixDate (timestampMs / 1000 / 86400) = d at *
  generalize timestampMs / 1000 % 86400 = second at *
  have htmYear : 9999 < (tmOf d second).tmYear ↔ 11899 < d.year := by
    simp only [tmOf]
    omega
  rw [wp_bind, wp_throwIf, htmYear]
  refine ⟨fun hlate => ⟨rfl, hlate, rfl⟩, fun hsoon => ?_⟩
  have hyear' : d.year < 100000 := by omega
  have hlength := secondText_length hyear' second
  have hw : 0 + (secondText d second ++ [0]).length ≤ 25 := by
    rw [List.length_append, List.length_singleton]
    omega
  have htext := Buf.text_write (b := display) hw (zero_not_mem_secondText d second)
  obtain ⟨hw', happend⟩ := appendMilliseconds_eq (Nat.mod_lt timestampMs (by decide : 0 < 1000))
    (htext ▸ hlength)
  rw [timeToDisplayText_eq hyear hyear' hsecond, pure_bind, memmove, dif_pos hw, pure_bind, happend,
    pure_bind, wp_pure]
  have hzero : 0 ∉ ascii "." ++ digitText (places 10 3 (timestampMs % 1000)) := by
    rw [List.mem_append, not_or]
    exact ⟨by decide, zero_not_mem_digitText⟩
  refine ⟨rfl, not_lt.mp hsoon, ?_, ?_⟩
  · exact (text_append hzero hw').trans (by rw [htext, hutc])
  · simp only [Buf.write_bytes, List.mem_append, List.mem_singleton, or_true, true_or]

/-! ## Pairs -/

section Pairs
variable [Platform]

/-- The timestamp of the next pair. -/
def SignTransferWithScheduleContext.nextTimestamp (tx : SignTransferWithScheduleContext) : ℕ :=
  beNat ((tx.buffer.bytes.drop tx.pos).take 8)

/-- An amount fits its buffer or is refused. -/
theorem amountToCcdDisplay_fits (amount : ℕ) (w : World) :
    wp (amountToCcdDisplay 30 amount) (fun text t => t = w ∧ 0 + text.length ≤ 30)
      (fun e _ => ∃ sw, e = .statusWord sw) w := by
  unfold amountToCcdDisplay formatFpu64Tmp
  cases Platform.formatFpu64Trimmed fpu64TmpLen amount 6 with
  | none => exact ⟨_, rfl⟩
  | some text =>
    rw [wp_bind, wp_pure, wp_bind, wp_throwIf]
    refine ⟨fun _ => ⟨_, rfl⟩, fun hfits => ?_⟩
    have hunit : (ascii "\nCCD").length = 4 ∧ (ascii " CCD").length = 4 := ⟨rfl, rfl⟩
    refine wp_if (fun _ => ⟨rfl, ?_⟩) (fun _ => ⟨rfl, ?_⟩)
    all_goals
      simp only [List.length_append, List.length_singleton, hunit]
      omega

/-- A pair is refused with a status word, or its time is in the buffer. -/
theorem wp_readScheduledAmount (tx : SignTransferWithScheduleContext) (w : World) :
    wp (readScheduledAmount tx) (fun tx' _ => TimeShown tx.nextTimestamp tx'.displayTimestamp)
      (fun e _ => ∃ sw, e = .statusWord sw) w := by
  have hbuffer : tx.buffer.bytes.length = 255 := tx.buffer.size
  have hlength : ((tx.buffer.bytes.drop tx.pos).take 8).length ≤ 8 := List.length_take_le _ _
  have hlt : tx.nextTimestamp < 2 ^ 64 :=
    (beNat_lt _).trans_le (Nat.pow_le_pow_right (by decide) hlength)
  unfold readScheduledAmount
  rw [wp_bind, wp_throwIf]
  refine ⟨fun _ => ⟨_, rfl⟩, fun hpos => ?_⟩
  rw [wp_bind, wp_u8be]
  refine ⟨fun _ => ?_, fun hout => absurd hout (by omega)⟩
  rw [wp_bind, wp_slice]
  refine ⟨fun _ => ?_, fun hout => absurd hout (by omega)⟩
  rw [wp_bind, wp_updateHash, wp_bind]
  refine wp_mono ?_ ?_ (timestampText_spec hlt tx.displayTimestamp _)
  · rintro ⟨time, display⟩ t ⟨-, -, hshown⟩
    show wp (do throwIf (255 < tx.pos + 8 + 8) errorBufferOverflow; _) _ _ t
    rw [wp_bind, wp_throwIf]
    refine ⟨fun _ => ⟨_, rfl⟩, fun hpos' => ?_⟩
    rw [wp_bind, wp_u8be]
    refine ⟨fun _ => ?_, fun hout => absurd hout (by omega)⟩
    rw [wp_bind, wp_slice]
    refine ⟨fun _ => ?_, fun hout => absurd hout (by omega)⟩
    rw [wp_bind, wp_updateHash, wp_bind]
    refine wp_mono ?_ (fun _ _ he => he) (amountToCcdDisplay_fits _ _)
    rintro text t' ⟨-, hfits⟩
    rw [wp_bind, wp_memmove]
    exact ⟨fun _ => hshown, fun hout => absurd hfits hout⟩
  · rintro e t ⟨-, -, rfl⟩
    exact ⟨_, rfl⟩

theorem wp_pairFlowDisplay {Q : Unit → World → Prop} {E : Exception → World → Prop} {w : World}
    (tx : SignTransferWithScheduleContext)
    (htx : (w.global.view (WithDataBlob SignTransferWithScheduleContext)).tx = tx)
    (h : ∀ t : World, t.global = w.global →
      row "Release time (UTC)" tx.displayTimestamp.text ∈ t.screen.rows → Q () t) :
    wp uiSignScheduledTransferPairFlowDisplay Q E w ∧
      wp uiSignScheduledTransferPairFlowSignDisplay Q E w := by
  subst htx
  unfold uiSignScheduledTransferPairFlowDisplay uiSignScheduledTransferPairFlowSignDisplay
  constructor <;> rw [wp_bind, wp_getCtx] <;> cases Platform.backend
  all_goals
    exact h _ rfl (by simp [pairRows])

/-- A pair is refused with a status word, or the buffer and the screen show the
    exact time of its timestamp, which the text determines. -/
theorem releaseTime_exact :
    (∀ w : World, wp processNextScheduledAmount
      (fun _ t =>
        let tx := (w.global.view (WithDataBlob SignTransferWithScheduleContext)).tx
        let tx' := (t.global.view (WithDataBlob SignTransferWithScheduleContext)).tx
        tx.scheduledAmountsInCurrentPacket ≠ 0 →
          TimeShown tx.nextTimestamp tx'.displayTimestamp ∧
          ofUtcText tx'.displayTimestamp.text = tx.nextTimestamp ∧
          row "Release time (UTC)" tx'.displayTimestamp.text ∈ t.screen.rows)
      (fun e _ => ∃ sw, e = .statusWord sw) w) ∧
    ∀ (n m : ℕ) (display display' : Buf 25), TimeShown n display → TimeShown m display' →
      display.text = display'.text → n = m := by
  refine ⟨fun w => ?_, fun n m display display' hn hm h => ?_⟩
  · unfold processNextScheduledAmount
    rw [wp_bind, wp_getCtx]
    refine wp_if (fun hnone => ?_) (fun hsome => ?_)
    · exact fun hsome => absurd hnone hsome
    · rw [wp_bind]
      refine wp_mono ?_ (fun _ _ he => he) (wp_readScheduledAmount _ w)
      intro tx' t hshown
      rw [wp_bind, wp_setCtx]
      refine wp_if (fun _ => (wp_pairFlowDisplay tx' rfl fun u hu hrow _ => ?_).2)
        (fun _ => (wp_pairFlowDisplay tx' rfl fun u hu hrow _ => ?_).1)
      all_goals
        rw [hu]
        exact ⟨hshown, hshown.decoded, hrow⟩
  · rw [← hn.decoded, h, hm.decoded]

end Pairs

/-- A release in the last second of a leap day. -/
def leapDayRelease : SignTransferWithScheduleContext :=
  { (default : SignTransferWithScheduleContext) with
    buffer := Buf.ofBytes 255 (toBe 8 1709251199999 ++ toBe 8 5)
    scheduledAmountsInCurrentPacket := 1 }

/-- The pair is accepted, with its time on screen. -/
theorem releaseTime_leapDay :
    letI : Platform := device .nbgl
    ∃ w t : World, processNextScheduledAmount w = .ok () t ∧ ∃ display : Buf 25,
      TimeShown leapDayRelease.nextTimestamp display ∧
      display.text = ascii "2024-02-29 23:59:59.999" ∧
      row "Release time (UTC)" display.text ∈ t.screen.rows ∧
      ∀ (n : ℕ) (other : Buf 25), TimeShown n other →
        other.text = ascii "2024-02-29 23:59:59.999" → n = 1709251199999 := by
  let : Platform := device .nbgl
  have hpair {w : World} (hrun : wp processNextScheduledAmount
        (fun _ t => (t.global.view
          (WithDataBlob SignTransferWithScheduleContext)).tx.displayTimestamp.text =
            ascii "2024-02-29 23:59:59.999") (fun _ _ => False) w)
      (hw : (w.global.view (WithDataBlob SignTransferWithScheduleContext)).tx = leapDayRelease) :
      ∃ t : World, processNextScheduledAmount w = .ok () t ∧ ∃ display : Buf 25,
        TimeShown leapDayRelease.nextTimestamp display ∧
        display.text = ascii "2024-02-29 23:59:59.999" ∧
        row "Release time (UTC)" display.text ∈ t.screen.rows := by
    obtain ⟨⟨⟩, t, hr, htext⟩ := wp_returns hrun
    have hexact := releaseTime_exact.1 w
    unfold wp at hexact
    rw [hr, hw] at hexact
    obtain ⟨hshown, -, hrow⟩ := hexact Nat.one_ne_zero
    exact ⟨t, hr, _, hshown, htext, hrow⟩
  let ctx : WithDataBlob SignTransferWithScheduleContext := ⟨leapDayRelease, default⟩
  obtain ⟨t, hr, display, hshown, htext, hrow⟩ := hpair
    (w := { global := Union.Member.inject ctx }) (by decide +kernel)
    (congrArg WithDataBlob.tx (InstructionContext.view_inject ctx))
  refine ⟨_, t, hr, display, hshown, htext, hrow, fun n other hother hsame => ?_⟩
  rw [releaseTime_exact.2 n _ other display hother hshown (hsame.trans htext.symm)]
  decide +kernel

end Concordium
