import Rlibc.Foundations.Gregorian
import Mathlib.Data.Nat.Count

/-!
# Weeks

The weeks of ISO 8601 run from Monday to Sunday.  A week belongs to the year that has its
Thursday, and week 1 of a year is the week of January 4th.  The other numbering counts the days
of the year so far that fall on a given weekday.
-/

namespace Gregorian

/-- The year in which a day lies. -/
noncomputable def yearOf (day : Int) : Int := (Date.equiv.symm day).year

theorem yearOf_bounds (day : Int) :
    yearStart (yearOf day) ≤ day ∧ day < yearStart (yearOf day + 1) := by
  have hbounds := (Date.equiv.symm day).toDays_bounds
  rw [Date.toDays_symm] at hbounds
  exact hbounds

/-- The first and the last day of a year determine which days lie in it. -/
theorem yearOf_eq {y day : Int} (hfirst : yearStart y ≤ day) (hlast : day < yearStart (y + 1)) :
    yearOf day = y := by
  have hbounds := yearOf_bounds day
  by_contra hne
  cases lt_or_gt_of_ne hne with
  | inl hlt =>
    have hle := yearStart_le (show yearOf day + 1 ≤ y from hlt)
    omega
  | inr hgt =>
    have hle := yearStart_le (show y + 1 ≤ yearOf day from hgt)
    omega

/-- From one day to the next the year stays, or the next one starts. -/
theorem yearOf_succ (day : Int) :
    yearOf (day + 1) = yearOf day ∨
      (yearOf (day + 1) = yearOf day + 1 ∧ day + 1 = yearStart (yearOf day + 1)) := by
  have hbounds := yearOf_bounds day
  by_cases hlast : day + 1 < yearStart (yearOf day + 1)
  · left
    apply yearOf_eq
    · omega
    · exact hlast
  · have hlength := yearLength_bounds (yearOf day + 1)
    right
    refine ⟨yearOf_eq (by omega) ?_, by omega⟩
    rw [yearStart_succ]
    omega

/-- The Monday of the week in which a day lies. -/
def monday (day : Int) : Int := day - (weekday day + 6) % 7

theorem monday_bounds (day : Int) :
    monday day ≤ day ∧ day < monday day + 7 ∧ weekday (monday day) = 1 := by
  unfold monday weekday
  omega

/-- The week goes on until the next Monday. -/
theorem monday_succ (day : Int) :
    monday (day + 1) = if weekday (day + 1) = 1 then monday day + 7 else monday day := by
  unfold monday weekday
  split
  · omega
  · omega

/-- The ISO year of a day. -/
noncomputable def isoYear (day : Int) : Int := yearOf (monday day + 3)

/-- The number of the week of a day, counted from the week of January 4th. -/
noncomputable def isoWeek (day : Int) : Int :=
  (monday day - monday (yearStart (isoYear day) + 3)) / 7 + 1

/-- The Thursday of a week says how many weeks of the year are over. -/
theorem isoWeek_eq (day : Int) :
    isoWeek day = (monday day + 3 - yearStart (isoYear day)) / 7 + 1 := by
  unfold isoWeek
  generalize yearStart (isoYear day) = start
  unfold monday weekday
  omega

theorem isoWeek_bounds (day : Int) : 1 ≤ isoWeek day ∧ isoWeek day ≤ 53 := by
  have hyear := yearOf_bounds (monday day + 3)
  have hlength := yearLength_bounds (isoYear day)
  rw [yearStart_succ] at hyear
  rw [isoWeek_eq]
  unfold isoYear at hlength ⊢
  omega

/-- The week of January 4th is week 1. -/
theorem isoWeek_january (y : Int) :
    isoYear (yearStart y + 3) = y ∧ isoWeek (yearStart y + 3) = 1 := by
  have hlength := yearLength_bounds y
  have hmonday := monday_bounds (yearStart y + 3)
  have hyear : isoYear (yearStart y + 3) = y := by
    unfold isoYear
    apply yearOf_eq
    · omega
    · rw [yearStart_succ]
      omega
  refine ⟨hyear, ?_⟩
  unfold isoWeek
  rw [hyear]
  omega

/-- From one day to the next the week stays, or on a Monday the next one starts. -/
theorem isoWeek_succ (day : Int) :
    (weekday (day + 1) ≠ 1 → isoYear (day + 1) = isoYear day ∧ isoWeek (day + 1) = isoWeek day) ∧
    (weekday (day + 1) = 1 →
      (isoYear (day + 1) = isoYear day ∧ isoWeek (day + 1) = isoWeek day + 1) ∨
      (isoYear (day + 1) = isoYear day + 1 ∧ isoWeek (day + 1) = 1 ∧ 52 ≤ isoWeek day)) := by
  have hmonday := monday_succ day
  constructor
  · intro hweekday
    rw [if_neg hweekday] at hmonday
    have hyear : isoYear (day + 1) = isoYear day := by
      unfold isoYear
      rw [hmonday]
    unfold isoWeek
    rw [hmonday, hyear]
    exact ⟨rfl, rfl⟩
  · intro hweekday
    rw [if_pos hweekday] at hmonday
    have hbounds := yearOf_bounds (monday day + 3)
    rw [isoWeek_eq (day + 1), isoWeek_eq day, hmonday]
    by_cases hsame : monday day + 7 + 3 < yearStart (isoYear day + 1)
    · -- The next Thursday lies in the same year.
      have hyear : isoYear (day + 1) = isoYear day := by
        unfold isoYear
        rw [hmonday]
        apply yearOf_eq
        · omega
        · exact hsame
      rw [hyear]
      left
      omega
    · have hlength := yearLength_bounds (isoYear day)
      have hlengthNext := yearLength_bounds (isoYear day + 1)
      have hstart := yearStart_succ (isoYear day)
      have hnext := yearStart_succ (isoYear day + 1)
      change yearStart (isoYear day) ≤ _ ∧ _ < yearStart (isoYear day + 1) at hbounds
      have hyear : isoYear (day + 1) = isoYear day + 1 := by
        show yearOf (monday (day + 1) + 3) = isoYear day + 1
        rw [hmonday]
        apply yearOf_eq
        · omega
        · omega
      rw [hyear]
      right
      omega

/-- How many of the first days of a year fall on a weekday. -/
def weekdayCount (w y : Int) (days : Nat) : Nat :=
  Nat.count (fun i => weekday (yearStart y + i) = w) days

theorem weekdayCount_eq {w : Int} (hw : 0 ≤ w ∧ w < 7) (y : Int) (days : Nat) :
    (weekdayCount w y days : Int) = (days + 6 - (weekday (yearStart y + days - 1) - w) % 7) / 7 := by
  induction days with
  | zero =>
    unfold weekdayCount weekday
    rw [Nat.count_zero]
    omega
  | succ days ih =>
    unfold weekdayCount at ih ⊢
    rw [Nat.count_succ, Nat.cast_add, ih]
    unfold weekday
    generalize yearStart y = start
    split
    · omega
    · omega

end Gregorian
