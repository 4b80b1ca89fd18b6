import Rlibc.Foundations.Gregorian
import Rlibc.Time.Calendar

/-!
# Day numbers and civil dates

`civil_from_days` and `days_from_civil` count from March 1st of an era of 400 years.  Both are
compared here with the calendar itself: one reads the date of a day, the other the day of a date.
-/

namespace Rlibc.Time

open Gregorian

/-- Truncating division after the source's correction rounds down. -/
theorem tdiv_corrected (a : Int) {n : Int} (hn : 0 < n) :
    (if a ≥ 0 then a else a - (n - 1)).tdiv n = a / n := by
  split
  · rename_i ha
    exact Int.tdiv_eq_ediv_of_nonneg ha
  · rename_i ha
    have hneg : a - (n - 1) = -(-a + (n - 1)) := by omega
    rw [hneg, Int.neg_tdiv, Int.tdiv_eq_ediv_of_nonneg (by omega)]
    have hdiv := Int.mul_ediv_add_emod a n
    have hlow := Int.emod_nonneg a (show n ≠ 0 by omega)
    have hhigh := Int.emod_lt_of_pos a hn
    have hup : -a + (n - 1) = (n - 1 - a % n) + n * (-(a / n)) := by
      rw [Int.mul_neg]
      omega
    rw [hup, Int.add_mul_ediv_left _ _ (show n ≠ 0 by omega),
      Int.ediv_eq_zero_of_lt (by omega) (by omega)]
    omega

theorem tmod_eq_zero_iff (a n : Int) : a.tmod n = 0 ↔ a % n = 0 := by
  rw [← Int.dvd_iff_tmod_eq_zero, ← Int.dvd_iff_emod_eq_zero]

theorem isLeapYear_iff (year : Int) : isLeapYear year = true ↔ IsLeap year := by
  unfold isLeapYear IsLeap
  rw [decide_eq_true_iff, tmod_eq_zero_iff, tmod_eq_zero_iff, ne_eq, tmod_eq_zero_iff]

/-- The month of the year that starts in March. -/
def marchMonth (m : Nat) : Int := if m < 2 then m + 10 else m - 2

/-- The year that starts in March. -/
def marchYear (y : Int) (m : Nat) : Int := if m < 2 then y - 1 else y

/-- The number of days since March 1st. -/
def marchDay (m : Nat) (day : Int) : Int := (153 * marchMonth m + 2) / 5 + day - 1

/-- The number of days of an era before one of its years. -/
def eraDays (yearOfEra : Int) : Int := yearOfEra * 365 + yearOfEra / 4 - yearOfEra / 100

theorem era_sum (a : Int) :
    a / 400 * 146097 + eraDays (a % 400) = 365 * a + a / 4 - a / 100 + a / 400 := by
  unfold eraDays
  omega

/-- The months from March on have the lengths that the phase formula gives them. -/
theorem marchDay_eq (y day : Int) {m : Nat} (hm : m < 12) :
    yearStart y + monthStart y m + day - 1 =
      yearStart (marchYear y m + 1) - 306 + marchDay m day := by
  have hsucc := yearStart_succ y
  rw [monthStart_eq y (Nat.le_of_lt hm)]
  unfold yearLength at hsucc
  unfold marchDay marchMonth marchYear
  by_cases hleap : IsLeap y
  · rw [if_pos hleap] at hsucc
    interval_cases m <;> simp [hleap] <;> omega
  · rw [if_neg hleap] at hsucc
    interval_cases m <;> simp [hleap] <;> omega

/-- `days_from_civil` counts the days of the calendar, also past the end of a month. -/
theorem daysFromCivil_eq (y day : Int) {m : Nat} (hm : m < 12) :
    daysFromCivil y (m + 1) day = yearStart y + monthStart y m + day - 1 := by
  rw [marchDay_eq y day hm]
  have hyear : y - (if (m : Int) + 1 ≤ 2 then 1 else 0) = marchYear y m := by
    unfold marchYear
    split_ifs <;> omega
  have hmonth : (m : Int) + 1 + (if (m : Int) + 1 > 2 then -3 else 9) = marchMonth m := by
    unfold marchMonth
    split_ifs <;> omega
  have hphase : 0 ≤ marchMonth m := by
    unfold marchMonth
    split_ifs <;> omega
  unfold daysFromCivil daysPer400Years
  dsimp only
  rw [hyear, hmonth]
  have hera := tdiv_corrected (marchYear y m) (show (0 : Int) < 400 by decide)
  rw [show (400 : Int) - 1 = 399 from rfl] at hera
  rw [hera]
  have hsum := era_sum (marchYear y m)
  have hyoe : marchYear y m - marchYear y m / 400 * 400 = marchYear y m % 400 := by omega
  have hnonneg : 0 ≤ marchYear y m % 400 := by omega
  rw [hyoe, Int.tdiv_eq_ediv_of_nonneg hnonneg, Int.tdiv_eq_ediv_of_nonneg hnonneg,
    Int.tdiv_eq_ediv_of_nonneg (show 0 ≤ 153 * marchMonth m + 2 by omega)]
  unfold eraDays at hsum
  unfold yearStart marchDay
  omega

/-! ## From a day to its date -/

/-- A March year is as long as the calendar year that ends it. -/
theorem marchDay_bounds (date : Date) :
    0 ≤ marchDay date.month date.day ∧
      marchDay date.month date.day < yearLength (marchYear date.year date.month + 1) := by
  have hm := date.month_lt
  have hpos := date.day_pos
  have hle := date.day_le
  unfold marchDay marchMonth marchYear yearLength
  generalize date.month = m at *
  by_cases hleap : IsLeap date.year
  · interval_cases m <;> simp [monthLength, hleap] at hle ⊢ <;> (try split_ifs) <;> omega
  · interval_cases m <;> simp [monthLength, hleap] at hle ⊢ <;> (try split_ifs) <;> omega

/-- The correction terms of `year_of_era` leave exactly the days of the earlier years. -/
theorem yearOfEra_eq {yearOfEra day : Int} (hlow : 0 ≤ yearOfEra) (hhigh : yearOfEra < 400)
    (hday : 0 ≤ day) (hlast : day < yearLength (yearOfEra + 1)) :
    (eraDays yearOfEra + day - (eraDays yearOfEra + day) / 1460 +
      (eraDays yearOfEra + day) / 36524 - (eraDays yearOfEra + day) / 146096) / 365 =
        yearOfEra := by
  -- Centuries, leap cycles and years of the era; a leap day is the last of its March year.
  have hsplit : ∃ c q r : Int, yearOfEra = 100 * c + 4 * q + r ∧ 0 ≤ c ∧ c ≤ 3 ∧ 0 ≤ q ∧ q ≤ 24 ∧
      0 ≤ r ∧ r ≤ 3 :=
    ⟨yearOfEra / 100, yearOfEra % 100 / 4, yearOfEra % 4, by omega, by omega, by omega, by omega,
      by omega, by omega, by omega⟩
  obtain ⟨c, q, r, hyoe, hc, hc', hq, hq', hr, hr'⟩ := hsplit
  have hdays : eraDays yearOfEra = 36524 * c + 1461 * q + 365 * r := by
    unfold eraDays
    omega
  have hleap : day ≤ 364 ∨ (day = 365 ∧ r = 3 ∧ (q ≤ 23 ∨ c = 3)) := by
    unfold yearLength IsLeap at hlast
    split_ifs at hlast with h
    · omega
    · omega
  rw [hdays]
  generalize hn : 36524 * c + 1461 * q + 365 * r + day = n
  have hcycle : n / 1460 = 25 * c + q + (24 * c + q + 365 * r + day) / 1460 := by omega
  have hcentury : n / 36524 = c + (1461 * q + 365 * r + day) / 36524 := by omega
  have hera : n / 146096 = (1461 * q + 365 * r + day) / 36524 := by omega
  omega

/-- A day number in terms of the era, the year of the era and the day of the March year. -/
theorem shiftedDays_eq (date : Date) :
    date.toDays + 719468 = marchYear date.year date.month / 400 * 146097 +
      (eraDays (marchYear date.year date.month % 400) + marchDay date.month date.day) := by
  have hmarch := marchDay_eq date.year date.day date.month_lt
  have hsum := era_sum (marchYear date.year date.month)
  unfold Date.toDays Date.dayOfYear
  unfold yearStart at hmarch ⊢
  omega

/-- `civil_from_days` finds the date of a day. -/
theorem civilFromDays_toDays (date : Date) :
    civilFromDays date.toDays = (date.year, (date.month : Int) + 1, date.day) := by
  have hbounds := marchDay_bounds date
  have hshift := shiftedDays_eq date
  have hm := date.month_lt
  have hlength := yearLength_bounds (marchYear date.year date.month + 1)
  generalize hyear : marchYear date.year date.month = y at *
  have hyoe : 0 ≤ y % 400 ∧ y % 400 < 400 := by omega
  have hyearOfEra := yearOfEra_eq hyoe.1 hyoe.2 hbounds.1 (by
    have hsame : yearLength (y % 400 + 1) = yearLength (y + 1) := by
      unfold yearLength IsLeap
      split_ifs <;> omega
    rw [hsame]
    exact hbounds.2)
  have hdayOfEra : 0 ≤ eraDays (y % 400) + marchDay date.month date.day ∧
      eraDays (y % 400) + marchDay date.month date.day < 146097 := by
    unfold eraDays
    omega
  unfold civilFromDays daysPer400Years
  dsimp only
  rw [tdiv_corrected _ (show (0 : Int) < 146097 by decide), hshift]
  have hera : (y / 400 * 146097 + (eraDays (y % 400) + marchDay date.month date.day)) / 146097 =
      y / 400 := by omega
  have hdoe : y / 400 * 146097 + (eraDays (y % 400) + marchDay date.month date.day) -
      y / 400 * 146097 = eraDays (y % 400) + marchDay date.month date.day := by omega
  rw [hera, hdoe, Int.tdiv_eq_ediv_of_nonneg hdayOfEra.1, Int.tdiv_eq_ediv_of_nonneg hdayOfEra.1,
    Int.tdiv_eq_ediv_of_nonneg hdayOfEra.1,
    Int.tdiv_eq_ediv_of_nonneg (show 0 ≤ eraDays (y % 400) + marchDay date.month date.day -
      (eraDays (y % 400) + marchDay date.month date.day) / 1460 +
      (eraDays (y % 400) + marchDay date.month date.day) / 36524 -
      (eraDays (y % 400) + marchDay date.month date.day) / 146096 by omega),
    hyearOfEra, Int.tdiv_eq_ediv_of_nonneg hyoe.1, Int.tdiv_eq_ediv_of_nonneg hyoe.1]
  -- What is left of the day of the era is the day of the March year.
  have hday : eraDays (y % 400) + marchDay date.month date.day -
      (365 * (y % 400) + y % 400 / 4 - y % 400 / 100) = marchDay date.month date.day := by
    unfold eraDays
    omega
  rw [hday, Int.tdiv_eq_ediv_of_nonneg (show 0 ≤ 5 * marchDay date.month date.day + 2 by omega)]
  have hphase : (5 * marchDay date.month date.day + 2) / 153 = marchMonth date.month := by
    have hpos := date.day_pos
    have hle := date.day_le
    unfold marchDay marchMonth
    unfold monthLength at hle
    generalize date.month = m at *
    interval_cases m <;> simp at hle ⊢ <;> (try split_ifs at hle) <;> omega
  have hphasePos : 0 ≤ marchMonth date.month := by
    unfold marchMonth
    split_ifs <;> omega
  rw [hphase, Int.tdiv_eq_ediv_of_nonneg (show 0 ≤ 153 * marchMonth date.month + 2 by omega)]
  have hmonth : marchMonth date.month + (if marchMonth date.month < 10 then 3 else -9) =
      (date.month : Int) + 1 := by
    unfold marchMonth
    split_ifs <;> omega
  rw [hmonth]
  have hyears : (if (date.month : Int) + 1 ≤ 2 then y % 400 + y / 400 * 400 + 1
      else y % 400 + y / 400 * 400) = date.year := by
    rw [← hyear]
    unfold marchYear
    split_ifs <;> omega
  have hdays : marchDay date.month date.day - (153 * marchMonth date.month + 2) / 5 + 1 =
      date.day := by
    unfold marchDay
    omega
  rw [hyears, hdays]

/-- `day_of_year` counts the days since January 1st. -/
theorem dayOfYear_date (date : Date) :
    dayOfYear date.year (date.month + 1) date.day = some date.dayOfYear := by
  have hm := date.month_lt
  have hlow := date.day_pos
  have hhigh := date.day_le
  have hlength : monthLength date.year date.month ≤ 31 := by
    unfold monthLength
    split <;> (try split_ifs) <;> omega
  unfold dayOfYear Date.dayOfYear
  rw [monthStart_eq _ (Nat.le_of_lt hm), if_neg (by omega)]
  have hindex : ((date.month : Int) + 1 - 1).toNat = date.month := by omega
  rw [hindex]
  have hcond : ((date.month : Int) + 1 > 2 ∧ isLeapYear date.year = true) ↔
      (2 ≤ date.month ∧ IsLeap date.year) := by
    rw [isLeapYear_iff]
    exact and_congr_left fun _ => ⟨fun h => by omega, fun h => by omega⟩
  simp only [hcond]
  generalize date.month = m at *
  unfold daysBeforeMonth
  by_cases hleap : IsLeap date.year
  · interval_cases m <;> simp [hleap, cIntTryFrom, FitsCInt] <;> omega
  · interval_cases m <;> simp [hleap, cIntTryFrom, FitsCInt] <;> omega

end Rlibc.Time
