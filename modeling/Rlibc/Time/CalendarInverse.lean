import Rlibc.Time.CivilDays

/-!
# `gmtime_r` and `timegm` are inverse

The fields that `gmtime_r` writes are the date and the time of day of its argument; `timegm` and
`mktime` read the argument back from them and have nothing to normalize.
-/

namespace Rlibc.Time

open Gregorian

/-- The date of a time. -/
noncomputable def dateOf (t : TimeT) : Date := Date.equiv.symm (t.val / secondsPerDay)

/-- The fields are those of a time, each in its range. -/
structure FieldsOf (t : TimeT) (fields : Tm) : Prop where
  sec : 0 ≤ fields.tmSec ∧ fields.tmSec ≤ 59
  min : 0 ≤ fields.tmMin ∧ fields.tmMin ≤ 59
  hour : 0 ≤ fields.tmHour ∧ fields.tmHour ≤ 23
  timeOfDay : fields.tmHour * 3600 + fields.tmMin * 60 + fields.tmSec = t.val % secondsPerDay
  year : fields.tmYear + 1900 = (dateOf t).year
  mon : fields.tmMon = (dateOf t).month
  monRange : 0 ≤ fields.tmMon ∧ fields.tmMon ≤ 11
  mday : fields.tmMday = (dateOf t).day
  mdayRange : 1 ≤ fields.tmMday ∧
    fields.tmMday ≤ monthLength (fields.tmYear + 1900) fields.tmMon.toNat
  yday : fields.tmYday = t.val / secondsPerDay - yearStart (fields.tmYear + 1900)
  wday : fields.tmWday = weekday (t.val / secondsPerDay)
  isdst : fields.tmIsdst = 0

/-- The fields of a date and a time of day. -/
def tmOf (date : Date) (seconds : Int) : Tm where
  tmSec := seconds % 60
  tmMin := seconds % 3600 / 60
  tmHour := seconds / 3600
  tmMday := date.day
  tmMon := date.month
  tmYear := date.year - 1900
  tmWday := weekday date.toDays
  tmYday := date.dayOfYear
  tmIsdst := 0
  tmGmtoff := 0
  tmZone := 0

theorem monthLength_le (y : Int) (m : Nat) : monthLength y m ≤ 31 := by
  unfold monthLength
  split <;> (try split_ifs) <;> omega

/-- The conversion fails only when the year does not fit `tm_year`. -/
theorem tmFromUnixSeconds_eq (date : Date) {seconds : Int} (hlow : 0 ≤ seconds)
    (hhigh : seconds < 86400) :
    tmFromUnixSeconds (date.toDays * 86400 + seconds) =
      if FitsCInt (date.year - 1900) then some (tmOf date seconds) else none := by
  have hm := date.month_lt
  have hpos := date.day_pos
  have hlast := date.day_le.trans (monthLength_le date.year date.month)
  have hdays : (date.toDays * 86400 + seconds) / secondsPerDay = date.toDays := by
    unfold secondsPerDay
    omega
  have hseconds : (date.toDays * 86400 + seconds) % secondsPerDay = seconds := by
    unfold secondsPerDay
    omega
  unfold tmFromUnixSeconds
  dsimp only
  rw [hdays, hseconds, civilFromDays_toDays]
  dsimp only
  rw [dayOfYear_date]
  by_cases hyear : FitsCInt (date.year - 1900)
  · rw [if_pos hyear, cIntTryFrom_of_fits hyear, Int.tdiv_eq_ediv_of_nonneg hlow,
      Int.tmod_eq_emod_of_nonneg hlow, Int.tmod_eq_emod_of_nonneg hlow,
      Int.tdiv_eq_ediv_of_nonneg (show 0 ≤ seconds % 3600 by omega),
      cIntTryFrom_of_fits (show FitsCInt (seconds / 3600) by unfold FitsCInt; omega),
      cIntTryFrom_of_fits (show FitsCInt (seconds % 3600 / 60) by unfold FitsCInt; omega),
      cIntTryFrom_of_fits (show FitsCInt (seconds % 60) by unfold FitsCInt; omega),
      cIntTryFrom_of_fits (show FitsCInt ((date.month : Int) + 1 - 1) by unfold FitsCInt; omega),
      cIntTryFrom_of_fits (show FitsCInt date.day by unfold FitsCInt; omega),
      cIntTryFrom_of_fits (show FitsCInt ((date.toDays + 4) % 7) by unfold FitsCInt; omega)]
    have hmonth : (date.month : Int) + 1 - 1 = date.month := by omega
    rw [hmonth]
    rfl
  · rw [if_neg hyear]
    unfold cIntTryFrom
    rw [if_neg hyear]
    rfl

/-- The fields of a date and a time of day are read back. -/
theorem normalizedTmToUnixSeconds_tmOf (date : Date) (seconds : Int) :
    normalizedTmToUnixSeconds (tmOf date seconds) = date.toDays * 86400 + seconds := by
  have hm := date.month_lt
  unfold normalizedTmToUnixSeconds tmOf secondsPerDay
  dsimp only
  have hyear : date.year - 1900 + 1900 + (date.month : Int) / 12 = date.year := by omega
  have hmonth : (date.month : Int) % 12 = date.month := by omega
  have hday : seconds / 3600 * 3600 + seconds % 3600 / 60 * 60 + seconds % 60 = seconds := by omega
  rw [hyear, hmonth, hday, daysFromCivil_eq date.year 1 hm]
  unfold Date.toDays Date.dayOfYear
  omega

/-- `timegm` and `mktime` find nothing to normalize in the fields of a time. -/
theorem normalize_tmOf (date : Date) {seconds : Int} (hlow : 0 ≤ seconds) (hhigh : seconds < 86400)
    (htime : FitsCLong (date.toDays * 86400 + seconds)) (hyear : FitsCInt (date.year - 1900))
    {toSeconds : Tm → Int}
    (hread : toSeconds (tmOf date seconds) = normalizedTmToUnixSeconds (tmOf date seconds))
    (errno : Int) :
    normalize toSeconds (some (tmOf date seconds)) errno =
      ⟨date.toDays * 86400 + seconds, some (tmOf date seconds), errno⟩ := by
  unfold normalize
  dsimp only
  rw [hread, normalizedTmToUnixSeconds_tmOf date seconds, if_pos htime,
    tmFromUnixSeconds_eq date hlow hhigh, if_pos hyear]

/-- A time is its date and its time of day. -/
theorem TimeT.eq_date (t : TimeT) :
    t.val = (dateOf t).toDays * 86400 + t.val % 86400 := by
  unfold dateOf secondsPerDay
  rw [Date.toDays_symm]
  omega

/-- What `gmtime_r` does with two pointers that are not null. -/
theorem gmtimeR_eq (t : TimeT) (result : Tm) (errno : Int) :
    gmtimeR (some t) (some result) errno =
      if FitsCInt ((dateOf t).year - 1900) then
        ⟨true, some (tmOf (dateOf t) (t.val % 86400)), errno⟩
      else ⟨false, some result, ERANGE⟩ := by
  have hconvert := tmFromUnixSeconds_eq (dateOf t) (show 0 ≤ t.val % 86400 by omega)
    (show t.val % 86400 < 86400 by omega)
  rw [← t.eq_date] at hconvert
  unfold gmtimeR
  dsimp only
  rw [hconvert]
  by_cases hyear : FitsCInt ((dateOf t).year - 1900)
  · rw [if_pos hyear, if_pos hyear]
  · rw [if_neg hyear, if_neg hyear]

theorem tmOf_fieldsOf (t : TimeT) : FieldsOf t (tmOf (dateOf t) (t.val % 86400)) := by
  have hm := (dateOf t).month_lt
  have hday := (dateOf t).day_le
  have hpos := (dateOf t).day_pos
  have hdays : (dateOf t).toDays = t.val / 86400 := Date.toDays_symm _
  have hyear : (dateOf t).year - 1900 + 1900 = (dateOf t).year := by omega
  unfold tmOf
  constructor <;> dsimp only [secondsPerDay]
  · omega
  · omega
  · omega
  · omega
  · exact hyear
  · omega
  · rw [hyear, Int.toNat_natCast]
    exact ⟨hpos, hday⟩
  · rw [hyear, ← hdays]
    unfold Date.toDays
    omega
  · rw [hdays]

/-- When `gmtime_r` succeeds, the year fits and the fields are those of the time. -/
theorem gmtimeR_fields {t : TimeT} {result fields : Tm} {errno : Int}
    (h : gmtimeR (some t) (some result) errno = ⟨true, some fields, errno⟩) :
    FitsCInt ((dateOf t).year - 1900) ∧ fields = tmOf (dateOf t) (t.val % 86400) := by
  rw [gmtimeR_eq] at h
  by_cases hyear : FitsCInt ((dateOf t).year - 1900)
  · rw [if_pos hyear] at h
    exact ⟨hyear, (Option.some.inj (Reply.mk.inj h).2.1).symm⟩
  · rw [if_neg hyear] at h
    exact absurd (Reply.mk.inj h).1 (by decide)

/-- **Calendar conversion is inverse.**  `gmtime_r` succeeds exactly when the year fits; it then
writes fields, which are those of the time, `timegm` and `mktime` return the time and leave the
fields, and no other time has the same fields. -/
theorem gmtime_timegm_inverse (t : TimeT) (result : Tm) (errno : Int) :
    ((gmtimeR (some t) (some result) errno).returned = true ↔
      FitsCInt ((dateOf t).year - 1900)) ∧
    (FitsCInt ((dateOf t).year - 1900) →
      ∃ fields, gmtimeR (some t) (some result) errno = ⟨true, some fields, errno⟩) ∧
    ∀ fields, gmtimeR (some t) (some result) errno = ⟨true, some fields, errno⟩ →
      FieldsOf t fields ∧
      (∀ e, timegm (some fields) e = ⟨t.val, some fields, e⟩) ∧
      (∀ e, mktime (some fields) e = ⟨t.val, some fields, e⟩) ∧
      ∀ t' result' errno', gmtimeR (some t') (some result') errno' = ⟨true, some fields, errno'⟩ →
        t' = t := by
  have hback : ∀ u : TimeT, FitsCInt ((dateOf u).year - 1900) → ∀ toSeconds : Tm → Int,
      toSeconds (tmOf (dateOf u) (u.val % 86400)) =
        normalizedTmToUnixSeconds (tmOf (dateOf u) (u.val % 86400)) → ∀ e,
      normalize toSeconds (some (tmOf (dateOf u) (u.val % 86400))) e =
        ⟨u.val, some (tmOf (dateOf u) (u.val % 86400)), e⟩ := by
    intro u hyear toSeconds htoSeconds e
    have htime := u.property
    rw [u.eq_date] at htime
    rw [normalize_tmOf (dateOf u) (by omega) (by omega) htime hyear htoSeconds e, ← u.eq_date]
  refine ⟨?_, fun hyear => ?_, ?_⟩
  · rw [gmtimeR_eq]
    split
    · rename_i hyear
      exact iff_of_true rfl hyear
    · rename_i hyear
      exact iff_of_false Bool.false_ne_true hyear
  · rw [gmtimeR_eq, if_pos hyear]
    exact ⟨_, rfl⟩
  · intro fields hsome
    have hfields := gmtimeR_fields hsome
    rw [hfields.2]
    refine ⟨tmOf_fieldsOf t, hback t hfields.1 _ rfl, hback t hfields.1 _ rfl, ?_⟩
    intro t' result' errno' hsome'
    have hfields' := gmtimeR_fields hsome'
    -- The same fields read back to the same time.
    have hone := hback t hfields.1 normalizedTmToUnixSeconds rfl 0
    have htwo := hback t' hfields'.1 normalizedTmToUnixSeconds rfl 0
    rw [← hfields'.2, hone] at htwo
    exact Subtype.ext (Reply.mk.inj htwo).1.symm

theorem gmtime_timegm_inverse_epoch :
    timegm (gmtimeR (some ⟨0, by decide⟩) (some unixEpochTm) 0).object 7 =
      ⟨0, some unixEpochTm, 7⟩ :=
  ((gmtime_timegm_inverse ⟨0, by decide⟩ unixEpochTm 0).2.2 unixEpochTm (by decide)).2.1 7

end Rlibc.Time
