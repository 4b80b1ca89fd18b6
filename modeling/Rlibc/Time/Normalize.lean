import Rlibc.Time.CalendarInverse

/-!
# What `timegm` and `mktime` compute

The reference reads the fields in unbounded integers: months carry into the year, and everything
below the month is an amount of time.  The entry points return its number and write the fields
that `gmtime_r` has for it, or leave the object as it was.
-/

namespace Rlibc.Time

open Gregorian

/-- The seconds that the fields denote, whatever their sign and size. -/
def referenceSeconds (fields : Tm) : Int :=
  let year := fields.tmYear + 1900 + fields.tmMon / 12
  let month := (fields.tmMon % 12).toNat
  (yearStart year + monthStart year month + (fields.tmMday - 1)) * 86400 +
    fields.tmHour * 3600 + fields.tmMin * 60 + fields.tmSec

/-- For `mktime`, daylight saving time is an hour ahead. -/
def mktimeReference (fields : Tm) : Int :=
  if fields.tmIsdst > 0 then referenceSeconds fields - 3600 else referenceSeconds fields

/-- The year in which a second lies. -/
noncomputable def yearOf (seconds : Int) : Int := (Date.equiv.symm (seconds / 86400)).year

/-- The number is a `time_t`, and its year fits `tm_year`. -/
structure Representable (seconds : Int) : Prop where
  time : FitsCLong seconds
  year : FitsCInt (yearOf seconds - 1900)

/-- The same time, with some of one field moved into the next. -/
inductive Carry (fields : Tm) : Tm → Prop
  | seconds (k : Int) : Carry fields
      { fields with tmSec := fields.tmSec - 60 * k, tmMin := fields.tmMin + k }
  | minutes (k : Int) : Carry fields
      { fields with tmMin := fields.tmMin - 60 * k, tmHour := fields.tmHour + k }
  | hours (k : Int) : Carry fields
      { fields with tmHour := fields.tmHour - 24 * k, tmMday := fields.tmMday + k }
  | months (k : Int) : Carry fields
      { fields with tmMon := fields.tmMon - 12 * k, tmYear := fields.tmYear + k }

/-! ## The reference -/

theorem normalizedTmToUnixSeconds_eq (fields : Tm) :
    normalizedTmToUnixSeconds fields = referenceSeconds fields := by
  have hmonth : (fields.tmMon % 12).toNat < 12 := by omega
  have hindex : ((fields.tmMon % 12).toNat : Int) = fields.tmMon % 12 := by omega
  -- The base day of the source is the first day of the month.
  have hbase := daysFromCivil_eq (fields.tmYear + 1900 + fields.tmMon / 12) 1 hmonth
  rw [hindex] at hbase
  unfold normalizedTmToUnixSeconds referenceSeconds secondsPerDay
  dsimp only
  rw [hbase]
  omega

theorem mktimeReference_eq (fields : Tm) :
    normalizedTmToUnixSecondsForMktime fields = mktimeReference fields := by
  unfold normalizedTmToUnixSecondsForMktime mktimeReference
  rw [normalizedTmToUnixSeconds_eq]

/-- Carrying between fields does not change the time. -/
theorem Carry.reference {fields moved : Tm} (h : Carry fields moved) :
    referenceSeconds moved = referenceSeconds fields := by
  cases h with
  | seconds k =>
    unfold referenceSeconds
    dsimp only
    omega
  | minutes k =>
    unfold referenceSeconds
    dsimp only
    omega
  | hours k =>
    unfold referenceSeconds
    dsimp only
    omega
  | months k =>
    have hyear : fields.tmYear + k + 1900 + (fields.tmMon - 12 * k) / 12 =
        fields.tmYear + 1900 + fields.tmMon / 12 := by omega
    have hmonth : (fields.tmMon - 12 * k) % 12 = fields.tmMon % 12 := by omega
    unfold referenceSeconds
    dsimp only
    rw [hyear, hmonth]

theorem Carry.mktime {fields moved : Tm} (h : Carry fields moved) :
    mktimeReference moved = mktimeReference fields := by
  have hisdst : moved.tmIsdst = fields.tmIsdst := by
    cases h <;> rfl
  unfold mktimeReference
  rw [h.reference, hisdst]

/-! ## The entry points -/

/-- A call computes the reference of the fields. -/
structure Normalizes (call : Option Tm → Int → Reply Int) (reference : Tm → Int) : Prop where
  /-- It fails exactly where the result is not representable, and then changes nothing. -/
  failure : ∀ fields errno, ¬Representable (reference fields) →
    call (some fields) errno = ⟨-1, some fields, ERANGE⟩
  /-- Elsewhere it returns the seconds and writes what `gmtime_r` writes for them; a second call
  on the object returns the same and changes nothing. -/
  success : ∀ fields errno, Representable (reference fields) →
    ∃ (t : TimeT) (normalized : Tm), t.val = reference fields ∧
      call (some fields) errno = ⟨t.val, some normalized, errno⟩ ∧
      (∀ result e, gmtimeR (some t) (some result) e = ⟨true, some normalized, e⟩) ∧
      ∀ e, call (some normalized) e = ⟨t.val, some normalized, e⟩
  /-- Moving time from one field to the next changes neither the result nor the object written. -/
  carry : ∀ fields moved errno, Carry fields moved →
    (∃ seconds normalized, call (some fields) errno = ⟨seconds, some normalized, errno⟩ ∧
      call (some moved) errno = ⟨seconds, some normalized, errno⟩) ∨
    (call (some fields) errno = ⟨-1, some fields, ERANGE⟩ ∧
      call (some moved) errno = ⟨-1, some moved, ERANGE⟩)

/-- A second of a day of a date. -/
theorem seconds_eq_date (seconds : Int) :
    seconds = (Date.equiv.symm (seconds / 86400)).toDays * 86400 + seconds % 86400 := by
  rw [Date.toDays_symm]
  omega

theorem tmFromUnixSeconds_year (seconds : Int) :
    tmFromUnixSeconds seconds = if FitsCInt (yearOf seconds - 1900) then
      some (tmOf (Date.equiv.symm (seconds / 86400)) (seconds % 86400)) else none := by
  have hconvert := tmFromUnixSeconds_eq (Date.equiv.symm (seconds / 86400))
    (show 0 ≤ seconds % 86400 by omega) (show seconds % 86400 < 86400 by omega)
  rw [← seconds_eq_date] at hconvert
  exact hconvert

/-- The common part of the two entry points, for a reading of the fields that computes a reference
which leaves the fields of a time alone. -/
theorem normalizes {toSeconds reference : Tm → Int} (hread : ∀ fields, toSeconds fields =
      reference fields)
    (hnormal : ∀ date seconds, reference (tmOf date seconds) = referenceSeconds (tmOf date seconds))
    (hcarry : ∀ fields moved, Carry fields moved → reference moved = reference fields) :
    Normalizes (normalize toSeconds) reference := by
  -- The time may be out of range for `time_t`, or its year out of range for `tm_year`.
  have hfailure : ∀ fields errno, ¬Representable (reference fields) →
      normalize toSeconds (some fields) errno = ⟨-1, some fields, ERANGE⟩ := by
    intro fields errno hno
    unfold normalize
    dsimp only
    rw [hread]
    by_cases hfits : FitsCLong (reference fields)
    · have hyear : ¬FitsCInt (yearOf (reference fields) - 1900) := fun h => hno ⟨hfits, h⟩
      rw [if_pos hfits, tmFromUnixSeconds_year, if_neg hyear]
    · rw [if_neg hfits]
  have hsuccess : ∀ fields errno, Representable (reference fields) →
      normalize toSeconds (some fields) errno = ⟨reference fields,
        some (tmOf (Date.equiv.symm (reference fields / 86400)) (reference fields % 86400)),
        errno⟩ := by
    intro fields errno hfits
    unfold normalize
    dsimp only
    rw [hread, if_pos hfits.time, tmFromUnixSeconds_year, if_pos hfits.year]
  constructor
  · exact hfailure
  · intro fields errno hfits
    refine ⟨⟨reference fields, hfits.time⟩, _, rfl, hsuccess fields errno hfits, ?_, ?_⟩
    · intro result e
      exact (gmtimeR_eq ⟨reference fields, hfits.time⟩ result e).trans (if_pos hfits.year)
    · -- The second call finds the fields of a time.
      intro e
      have hdate := seconds_eq_date (reference fields)
      have htime := hfits.time
      rw [hdate] at htime
      have hagain := normalize_tmOf (Date.equiv.symm (reference fields / 86400))
        (show 0 ≤ reference fields % 86400 by omega)
        (show reference fields % 86400 < 86400 by omega) htime hfits.year
        (show toSeconds _ = _ by rw [hread, hnormal, normalizedTmToUnixSeconds_eq]) e
      rw [← hdate] at hagain
      exact hagain
  -- A carry between the fields leaves the time as it is, so both calls do the same.
  · intro fields moved errno hmove
    have hsame := hcarry fields moved hmove
    by_cases hfits : Representable (reference fields)
    · refine Or.inl ⟨_, _, hsuccess fields errno hfits, ?_⟩
      rw [hsuccess moved errno (hsame ▸ hfits), hsame]
    · exact Or.inr ⟨hfailure fields errno hfits, hfailure moved errno (hsame ▸ hfits)⟩

/-- `timegm` computes the reference, and `mktime` the reference less an hour under daylight saving
time. -/
theorem timegm_mktime_normalize :
    Normalizes timegm referenceSeconds ∧ Normalizes mktime mktimeReference := by
  constructor
  · exact normalizes normalizedTmToUnixSeconds_eq (fun _ _ => rfl) fun _ _ h => h.reference
  · refine normalizes mktimeReference_eq (fun date seconds => ?_) fun _ _ h => h.mktime
    unfold mktimeReference
    exact if_neg (by change ¬(0 : Int) > 0; decide)

end Rlibc.Time
