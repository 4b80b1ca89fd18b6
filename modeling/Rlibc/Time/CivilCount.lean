import Rlibc.Foundations.DayCount
import Rlibc.Time.CivilDays

/-!
# The civil conversions count days

`civil_from_days` and `days_from_civil` are the two directions between the dates of the calendar
and the days counted from 1970-01-01.
-/

namespace Rlibc.Time

open Gregorian

/-- `days_from_civil` of a date that exists is the number of days to it. -/
theorem daysFromCivil_date (date : Date) :
    daysFromCivil date.year (date.month + 1) date.day = date.toDays := by
  rw [daysFromCivil_eq date.year date.day date.month_lt]
  unfold Date.toDays Date.dayOfYear
  omega

/-- **The conversions.**  They undo each other, `days_from_civil` grows with the date, and both
agree with the count of the lengths of years and months. -/
theorem civil_conversions :
    (∀ date : Date, civilFromDays (daysFromCivil date.year (date.month + 1) date.day) =
      (date.year, (date.month : Int) + 1, date.day)) ∧
    (∀ days : Int, daysFromCivil (civilFromDays days).1 (civilFromDays days).2.1
      (civilFromDays days).2.2 = days) ∧
    (∀ a b : Date, a.Before b →
      daysFromCivil a.year (a.month + 1) a.day < daysFromCivil b.year (b.month + 1) b.day) ∧
    (∀ date : Date, daysFromCivil date.year (date.month + 1) date.day = date.count) ∧
    ∀ days : Int, ∃ date : Date, date.count = days ∧
      civilFromDays days = (date.year, (date.month : Int) + 1, date.day) := by
  have hread : ∀ days : Int, ∃ date : Date, date.toDays = days ∧
      civilFromDays days = (date.year, (date.month : Int) + 1, date.day) := by
    intro days
    refine ⟨Date.equiv.symm days, Date.toDays_symm days, ?_⟩
    have hdate := civilFromDays_toDays (Date.equiv.symm days)
    rwa [Date.toDays_symm] at hdate
  refine ⟨?_, ?_, ?_, ?_, ?_⟩
  · intro date
    rw [daysFromCivil_date, civilFromDays_toDays]
  · intro days
    cases hread days with
    | intro date hdate =>
      rw [hdate.2]
      change daysFromCivil date.year (date.month + 1) date.day = days
      rw [daysFromCivil_date, hdate.1]
  · intro a b hbefore
    rw [daysFromCivil_date, daysFromCivil_date]
    exact Date.toDays_lt hbefore
  · intro date
    rw [daysFromCivil_date, date.count_eq]
  · intro days
    cases hread days with
    | intro date hdate => exact ⟨date, date.count_eq.trans hdate.1, hdate.2⟩

end Rlibc.Time
