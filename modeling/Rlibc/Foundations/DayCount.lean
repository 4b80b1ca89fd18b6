import Mathlib.Algebra.BigOperators.Group.Finset.Basic
import Rlibc.Foundations.Gregorian

/-!
# Counting days

The number of days from 1970-01-01 to a date, counted out over the lengths of the years and
months between them, and the order of dates.  `Date.toDays` has both in closed form.
-/

namespace Gregorian

/-- The days of the years between 1970 and a year, negative before 1970. -/
def countYears (y : Int) : Int :=
  ∑ i ∈ Finset.range (y - 1970).toNat, yearLength (1970 + i) -
    ∑ i ∈ Finset.range (1970 - y).toNat, yearLength (y + i)

/-- The days of a year before one of its months. -/
def countMonths (y : Int) (m : Nat) : Int := ∑ m' ∈ Finset.range m, monthLength y m'

/-- The days from 1970-01-01 to a date. -/
def Date.count (date : Date) : Int :=
  countYears date.year + countMonths date.year date.month + (date.day - 1)

theorem countYears_succ (y : Int) : countYears (y + 1) = countYears y + yearLength y := by
  unfold countYears
  by_cases hy : 1970 ≤ y
  · have hmore : (y + 1 - 1970).toNat = (y - 1970).toNat + 1 := by omega
    have hnone : (1970 - y).toNat = 0 := by omega
    have hnone' : (1970 - (y + 1)).toNat = 0 := by omega
    have hlast : (1970 : Int) + ((y - 1970).toNat : Int) = y := by omega
    rw [hmore, hnone, hnone', Finset.sum_range_succ, Finset.sum_range_zero, Finset.sum_range_zero,
      hlast]
    omega
  · have hmore : (1970 - y).toNat = (1970 - (y + 1)).toNat + 1 := by omega
    have hnone : (y - 1970).toNat = 0 := by omega
    have hnone' : (y + 1 - 1970).toNat = 0 := by omega
    have hnext : ∑ i ∈ Finset.range (1970 - (y + 1)).toNat, yearLength (y + ((i + 1 : Nat) : Int)) =
        ∑ i ∈ Finset.range (1970 - (y + 1)).toNat, yearLength (y + 1 + i) := by
      apply Finset.sum_congr rfl
      intro i _
      congr 1
      omega
    have hfirst : y + ((0 : Nat) : Int) = y := by omega
    rw [hmore, hnone, hnone', Finset.sum_range_succ', Finset.sum_range_zero, hnext, hfirst]
    omega

theorem countYears_eq (y : Int) : countYears y = yearStart y :=
  yearStart_unique (by decide) countYears_succ y

theorem countMonths_eq (y : Int) (m : Nat) : countMonths y m = monthStart y m := by
  induction m with
  | zero => rfl
  | succ m ih =>
    unfold countMonths at ih ⊢
    rw [Finset.sum_range_succ, ih, monthStart]

/-- Counting the days gives the closed form. -/
theorem Date.count_eq (date : Date) : date.count = date.toDays := by
  unfold Date.count Date.toDays Date.dayOfYear
  rw [countYears_eq, countMonths_eq]
  omega

/-! ## The order of dates -/

/-- By year, then by month, then by day. -/
def Date.Before (a b : Date) : Prop :=
  a.year < b.year ∨
    (a.year = b.year ∧ (a.month < b.month ∨ (a.month = b.month ∧ a.day < b.day)))

/-- A later date is a later day. -/
theorem Date.toDays_lt {a b : Date} (h : a.Before b) : a.toDays < b.toDays := by
  have ha := a.toDays_bounds
  have hb := b.toDays_bounds
  cases h with
  | inl hyear =>
    have hle := yearStart_le (show a.year + 1 ≤ b.year from hyear)
    omega
  | inr h =>
    have hda := a.dayOfYear_bounds
    have hdb := b.dayOfYear_bounds
    unfold Date.toDays
    rw [h.1] at hda ⊢
    cases h.2 with
    | inl hmonth =>
      have hle := monthStart_le b.year (show a.month + 1 ≤ b.month from hmonth)
      omega
    | inr hday =>
      unfold Date.dayOfYear
      rw [h.1, hday.1]
      omega

theorem Date.toDays_lt_iff {a b : Date} : a.toDays < b.toDays ↔ a.Before b := by
  refine ⟨fun h => ?_, Date.toDays_lt⟩
  by_contra hbefore
  by_cases hafter : b.Before a
  · exact absurd (Date.toDays_lt hafter) (by omega)
  · unfold Date.Before at hbefore hafter
    have hsame : a = b := Date.ext (by omega) (by omega) (by omega)
    rw [hsame] at h
    exact lt_irrefl _ h

end Gregorian
