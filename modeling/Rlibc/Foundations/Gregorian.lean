import Mathlib.Algebra.Order.Group.Int
import Mathlib.Data.Int.Init
import Mathlib.Logic.Equiv.Basic
import Mathlib.Tactic.IntervalCases

/-!
# The proleptic Gregorian calendar

Days are counted from 1970-01-01.  A year is a sequence of twelve months, a month a sequence of
days; `Date` holds the dates that exist, and `Date.equiv` says that the dates and the days are
the same thing.  Nothing here depends on how a program computes one from the other.
-/

namespace Gregorian

/-- The leap-year rule. -/
def IsLeap (y : Int) : Prop := (y % 4 = 0 ∧ y % 100 ≠ 0) ∨ y % 400 = 0

instance (y : Int) : Decidable (IsLeap y) := inferInstanceAs (Decidable (_ ∨ _))

/-- The number of days of a year. -/
def yearLength (y : Int) : Int := if IsLeap y then 366 else 365

/-- The number of days of a month; January is month 0. -/
def monthLength (y : Int) : Nat → Int
  | 1 => if IsLeap y then 29 else 28
  | 3 | 5 | 8 | 10 => 30
  | _ => 31

/-- The number of days of the year before a month starts. -/
def monthStart (y : Int) : Nat → Int
  | 0 => 0
  | m + 1 => monthStart y m + monthLength y m

/-- The number of days from 1970-01-01 to the first day of a year. -/
def yearStart (y : Int) : Int :=
  365 * (y - 1) + (y - 1) / 4 - (y - 1) / 100 + (y - 1) / 400 - 719162

/-- The day of the week, from Sunday, which is 0; the epoch is a Thursday. -/
def weekday (days : Int) : Int := (days + 4) % 7

/-! ## Years -/

theorem yearStart_epoch : yearStart 1970 = 0 := rfl

/-- A year starts when the year before it is over. -/
theorem yearStart_succ (y : Int) : yearStart (y + 1) = yearStart y + yearLength y := by
  unfold yearStart yearLength IsLeap
  split_ifs with hleap
  · omega
  · omega

/-- The epoch and the lengths of the years determine where the years start. -/
theorem yearStart_unique {f : Int → Int} (hepoch : f 1970 = 0)
    (hsucc : ∀ y, f (y + 1) = f y + yearLength y) (y : Int) : f y = yearStart y := by
  induction y using Int.inductionOn' (b := 1970) with
  | zero => rw [hepoch, yearStart_epoch]
  | succ y hy ih => rw [hsucc, ih, yearStart_succ]
  | pred y hy ih =>
    have hf := hsucc (y - 1)
    have hstart := yearStart_succ (y - 1)
    rw [sub_add_cancel] at hf hstart
    omega

theorem yearLength_bounds (y : Int) : 365 ≤ yearLength y ∧ yearLength y ≤ 366 := by
  unfold yearLength
  split <;> omega

theorem yearStart_le {y y' : Int} (h : y ≤ y') : yearStart y ≤ yearStart y' := by
  unfold yearStart
  omega

/-- Every day lies in a year. -/
theorem exists_year (day : Int) : ∃ y, yearStart y ≤ day ∧ day < yearStart (y + 1) := by
  induction day using Int.induction_on with
  | zero => exact ⟨1970, by decide, by decide⟩
  | succ day ih =>
    cases ih with
    | intro y hy =>
      by_cases hlast : (day : Int) + 1 < yearStart (y + 1)
      · exact ⟨y, by omega, hlast⟩
      · have hlen := yearLength_bounds (y + 1)
        have hnext := yearStart_succ (y + 1)
        exact ⟨y + 1, by omega, by omega⟩
  | pred day ih =>
    cases ih with
    | intro y hy =>
      by_cases hfirst : yearStart y ≤ -(day : Int) - 1
      · exact ⟨y, hfirst, by omega⟩
      · have hlen := yearLength_bounds (y - 1)
        have hprev := yearStart_succ (y - 1)
        rw [sub_add_cancel] at hprev
        refine ⟨y - 1, by omega, ?_⟩
        rw [sub_add_cancel]
        omega

/-! ## Months -/

/-- Where the months start, written out. -/
theorem monthStart_eq (y : Int) {m : Nat} (hm : m ≤ 12) :
    monthStart y m =
      [0, 31, 59, 90, 120, 151, 181, 212, 243, 273, 304, 334, 365].getD m 0 +
        if 2 ≤ m ∧ IsLeap y then 1 else 0 := by
  by_cases hleap : IsLeap y
  · interval_cases m <;> simp [monthStart, monthLength, hleap]
  · interval_cases m <;> simp [monthStart, monthLength, hleap]

/-- Twelve months make a year. -/
theorem monthStart_twelve (y : Int) : monthStart y 12 = yearLength y := by
  rw [monthStart_eq y (le_refl 12)]
  unfold yearLength
  split <;> simp_all

theorem monthLength_pos (y : Int) (m : Nat) : 0 < monthLength y m := by
  unfold monthLength
  split
  · split <;> omega
  · omega
  · omega
  · omega
  · omega
  · omega

theorem monthStart_le (y : Int) {m m' : Nat} (h : m ≤ m') : monthStart y m ≤ monthStart y m' := by
  induction h with
  | refl => exact le_refl _
  | @step n h ih =>
    have hpos := monthLength_pos y n
    rw [monthStart]
    omega

/-- Every day of a year lies in one of its months. -/
theorem exists_month (y : Int) {day : Int} (h : 0 ≤ day) (hlt : day < yearLength y) :
    ∃ m, m < 12 ∧ monthStart y m ≤ day ∧ day < monthStart y (m + 1) := by
  rw [← monthStart_twelve] at hlt
  have hall : ∀ n, day < monthStart y n →
      ∃ m, m < n ∧ monthStart y m ≤ day ∧ day < monthStart y (m + 1) := by
    intro n
    induction n with
    | zero => exact fun hday => absurd h (not_le.mpr hday)
    | succ n ih =>
      intro hday
      by_cases hbefore : day < monthStart y n
      · cases ih hbefore with
        | intro m hm => exact ⟨m, Nat.lt_succ_of_lt hm.1, hm.2⟩
      · exact ⟨n, Nat.lt_succ_self n, not_lt.mp hbefore, hday⟩
  exact hall 12 hlt

/-! ## Dates -/

/-- A date that exists. -/
@[ext] structure Date where
  year : Int
  /-- January is month 0. -/
  month : Nat
  day : Int
  month_lt : month < 12
  day_pos : 1 ≤ day
  day_le : day ≤ monthLength year month

/-- The number of days since January 1st. -/
def Date.dayOfYear (date : Date) : Int := monthStart date.year date.month + date.day - 1

/-- The number of days since 1970-01-01. -/
def Date.toDays (date : Date) : Int := yearStart date.year + date.dayOfYear

/-- A day lies in the month of its date. -/
theorem Date.dayOfYear_bounds (date : Date) :
    monthStart date.year date.month ≤ date.dayOfYear ∧
      date.dayOfYear < monthStart date.year (date.month + 1) := by
  have hpos := date.day_pos
  have hle := date.day_le
  rw [monthStart]
  unfold Date.dayOfYear
  omega

/-- A day lies in the year of its date. -/
theorem Date.toDays_bounds (date : Date) :
    yearStart date.year ≤ date.toDays ∧ date.toDays < yearStart (date.year + 1) := by
  have hday := date.dayOfYear_bounds
  have hfirst := monthStart_le date.year (Nat.zero_le date.month)
  have hlast := monthStart_le date.year (show date.month + 1 ≤ 12 from date.month_lt)
  rw [monthStart_twelve] at hlast
  rw [yearStart_succ]
  unfold Date.toDays
  rw [monthStart] at hfirst
  omega

/-- Different dates are different days. -/
theorem Date.toDays_injective : Function.Injective Date.toDays := by
  intro a b hab
  have hyear : a.year = b.year := by
    have ha := a.toDays_bounds
    have hb := b.toDays_bounds
    by_contra hne
    cases lt_or_gt_of_ne hne with
    | inl hlt =>
      have hle := yearStart_le (show a.year + 1 ≤ b.year from hlt)
      omega
    | inr hgt =>
      have hle := yearStart_le (show b.year + 1 ≤ a.year from hgt)
      omega
  have hdays : a.dayOfYear = b.dayOfYear := by
    unfold Date.toDays at hab
    rw [hyear] at hab
    omega
  have hmonth : a.month = b.month := by
    have ha := a.dayOfYear_bounds
    have hb := b.dayOfYear_bounds
    rw [hyear] at ha
    by_contra hne
    cases lt_or_gt_of_ne hne with
    | inl hlt =>
      have hle := monthStart_le b.year (show a.month + 1 ≤ b.month from hlt)
      omega
    | inr hgt =>
      have hle := monthStart_le b.year (show b.month + 1 ≤ a.month from hgt)
      omega
  have hday : a.day = b.day := by
    unfold Date.dayOfYear at hdays
    rw [hyear, hmonth] at hdays
    omega
  exact Date.ext hyear hmonth hday

/-- Every day has a date. -/
theorem Date.toDays_surjective : Function.Surjective Date.toDays := by
  intro days
  cases exists_year days with
  | intro y hy =>
    rw [yearStart_succ] at hy
    cases exists_month y (show 0 ≤ days - yearStart y by omega) (by omega) with
    | intro m hm =>
      rw [monthStart] at hm
      refine ⟨⟨y, m, days - yearStart y - monthStart y m + 1, hm.1, by omega, by omega⟩, ?_⟩
      unfold Date.toDays Date.dayOfYear
      dsimp only
      omega

/-- The dates are the days. -/
noncomputable def Date.equiv : Date ≃ Int :=
  Equiv.ofBijective Date.toDays ⟨Date.toDays_injective, Date.toDays_surjective⟩

@[simp] theorem Date.toDays_symm (days : Int) : (Date.equiv.symm days).toDays = days :=
  Date.equiv.apply_symm_apply days

end Gregorian
