import Rlibc.Foundations.IsoWeek
import Rlibc.Time.CalendarInverse
import Rlibc.Time.StrftimeContract

/-!
# The week fields of `strftime`

`%U` and `%W` count the Sundays and the Mondays of the year.  `iso_week_context` counts its weeks
from a zero-based day of the year as if it were one-based, and that changes the quotient just when
January 1st is a Thursday: all through such a year `%V` and `%G` are those of the week before.
-/

namespace Rlibc.Time

open Gregorian (yearStart yearLength IsLeap weekday monday isoYear isoWeek weekdayCount)

/-! ## Decimal texts -/

/-- One digit more. -/
def readDigit (value : Nat) (digit : UInt8) : Nat := 10 * value + (digit.toNat - 48)

theorem foldl_readDigit_map {digits : List Char} (h : ∀ c ∈ digits, c.isDigit = true)
    (value : Nat) :
    (digits.map fun c => UInt8.ofNat c.toNat).foldl readDigit value =
      Nat.ofDigitChars 10 digits value := by
  induction digits generalizing value with
  | nil => rw [List.map_nil, List.foldl_nil, Nat.ofDigitChars_nil]
  | cons c digits ih =>
    have hbyte : c.toNat % 256 = c.toNat := by
      have hdigit := Char.isDigit_iff_toNat.mp (h c List.mem_cons_self)
      change 48 ≤ c.toNat ∧ c.toNat ≤ 57 at hdigit
      omega
    rw [List.map_cons, List.foldl_cons, ih (fun c hc => h c (List.mem_cons_of_mem _ hc)),
      Nat.ofDigitChars_cons]
    unfold readDigit
    rw [UInt8.toNat_ofNat', hbyte]
    rfl

/-- The padding does not change what a text reads as. -/
theorem foldl_readDigit_zeroPadded (width value : Nat) :
    (zeroPadded width value).foldl readDigit 0 = value := by
  have hpadding : ∀ n : Nat, (List.replicate n (48 : UInt8)).foldl readDigit 0 = 0 := by
    intro n
    induction n with
    | zero => rfl
    | succ n ih => exact ih
  unfold zeroPadded decimalBytes
  dsimp only
  rw [if_neg (show ¬(value : Int) < 0 by omega), List.nil_append, List.foldl_append, hpadding,
    Int.natAbs_natCast]
  rw [foldl_readDigit_map fun c hc => Nat.isDigit_of_mem_toDigits (by decide) (by decide) hc]
  exact Nat.ofDigitChars_ten_toDigits

theorem zeroPadded_injective {width : Nat} {value value' : Int} (h : 0 ≤ value) (h' : 0 ≤ value')
    (htext : zeroPadded width value = zeroPadded width value') : value = value' := by
  have hread := foldl_readDigit_zeroPadded width value.toNat
  have hread' := foldl_readDigit_zeroPadded width value'.toNat
  rw [Int.toNat_of_nonneg h, htext] at hread
  rw [Int.toNat_of_nonneg h', hread] at hread'
  omega

/-! ## The fields of a day -/

/-- The fields that the weeks are computed from. -/
structure DayFields (day : Int) (fields : Tm) : Prop where
  year : fullYearFromTmYear fields.tmYear = Gregorian.yearOf day
  yday : fields.tmYday = day - yearStart (Gregorian.yearOf day)
  wday : fields.tmWday = weekday day

theorem gmtimeR_dayFields {t : TimeT} {result fields : Tm} {errno : Int}
    (h : gmtimeR (some t) (some result) errno = ⟨true, some fields, errno⟩) :
    DayFields (t.val / 86400) fields := by
  have hfields := tmOf_fieldsOf t
  rw [← (gmtimeR_fields h).2] at hfields
  have hyear : fields.tmYear + 1900 = Gregorian.yearOf (t.val / 86400) := hfields.year
  constructor
  · exact hyear
  · rw [← hyear]
    exact hfields.yday
  · exact hfields.wday

/-- The day of the year passes the checks of `strftime`. -/
theorem DayFields.valid {day : Int} {fields : Tm} (h : DayFields day fields) :
    isValidTmYdayForYear (fullYearFromTmYear fields.tmYear) fields.tmYday = true ∧
      0 ≤ fields.tmYday ∧ fields.tmYday ≤ 365 := by
  have hbounds := Gregorian.yearOf_bounds day
  rw [Gregorian.yearStart_succ] at hbounds
  have hyday := h.yday
  rw [h.year]
  unfold isValidTmYdayForYear maxYdayForFullYear
  rw [if_neg (by omega), decide_eq_true_iff]
  unfold yearLength at hbounds
  by_cases hleap : IsLeap (Gregorian.yearOf day)
  · rw [if_pos ((isLeapYear_iff _).mpr hleap)]
    rw [if_pos hleap] at hbounds
    omega
  · rw [if_neg (fun h => hleap ((isLeapYear_iff _).mp h))]
    rw [if_neg hleap] at hbounds
    omega

theorem DayFields.weekday_range {day : Int} {fields : Tm} (h : DayFields day fields) :
    0 ≤ fields.tmWday ∧ fields.tmWday ≤ 6 := by
  rw [h.wday]
  unfold weekday
  omega

/-! ## Sundays and Mondays -/

/-- `append_week_number` counts a weekday of the year up to the day. -/
theorem DayFields.appendWeekNumber {day : Int} {fields : Tm} (h : DayFields day fields)
    (mondayBased : Bool) :
    appendWeekNumber fields.tmYear fields.tmYday fields.tmWday mondayBased =
      zeroPadded 2 (weekdayCount (if mondayBased then 1 else 0) (Gregorian.yearOf day)
        (fields.tmYday.toNat + 1)) := by
  have hvalid := h.valid
  have hrange := h.weekday_range
  have hyday := h.yday
  have hwday := h.wday
  -- How far the day is from the start of its week.
  have hoffset : (if mondayBased then if fields.tmWday = 0 then 6 else fields.tmWday - 1
      else fields.tmWday) = (fields.tmWday - if mondayBased then 1 else 0) % 7 := by
    cases mondayBased with
    | false =>
      simp only [Bool.false_eq_true, if_false]
      omega
    | true =>
      simp only [if_true]
      split
      · omega
      · omega
  unfold Time.appendWeekNumber appendPaddedDecimal
  rw [if_neg (not_not_intro hrange), if_neg (not_not_intro hvalid.1)]
  dsimp only
  rw [hoffset, Int.tdiv_eq_ediv_of_nonneg (by omega)]
  apply congrArg
  have hweekday : (0 : Int) ≤ (if mondayBased then 1 else 0) ∧
      (if mondayBased then (1 : Int) else 0) < 7 := by
    cases mondayBased with
    | false => decide
    | true => decide
  rw [Gregorian.weekdayCount_eq hweekday, Nat.cast_add, Int.toNat_of_nonneg hvalid.2.1]
  have hday : yearStart (Gregorian.yearOf day) + (fields.tmYday + (1 : Nat)) - 1 = day := by
    omega
  rw [hday, ← hwday]
  apply congrArg (· / 7)
  omega

/-! ## ISO weeks -/

/-- The year starts on a Thursday. -/
def StartsOnThursday (y : Int) : Prop := weekday (yearStart y) = 4

theorem daysFromCivil_january (y : Int) : daysFromCivil y 1 1 = yearStart y := by
  have hdays := daysFromCivil_eq y 1 (show 0 < 12 by decide)
  change daysFromCivil y 1 1 = yearStart y + 0 + 1 - 1 at hdays
  omega

theorem isoWeeksInYear_eq (y : Int) :
    (isoWeeksInYear y = 53 ∧
      (StartsOnThursday y ∨ (weekday (yearStart y) = 3 ∧ yearLength y = 366))) ∨
    (isoWeeksInYear y = 52 ∧
      ¬(StartsOnThursday y ∨ (weekday (yearStart y) = 3 ∧ yearLength y = 366))) := by
  have hleap : isLeapYear y = true ↔ yearLength y = 366 := by
    rw [isLeapYear_iff]
    unfold yearLength
    split
    · rename_i h
      exact iff_of_true h rfl
    · rename_i h
      exact iff_of_false h (by decide)
  unfold isoWeeksInYear
  rw [daysFromCivil_january, ← hleap]
  dsimp only
  by_cases hlong : weekday (yearStart y) = 4 ∨ (weekday (yearStart y) = 3 ∧ isLeapYear y = true)
  · left
    exact ⟨if_pos hlong, hlong⟩
  · right
    exact ⟨if_neg hlong, hlong⟩

/-- What `iso_week_context` makes of a day. -/
theorem DayFields.isoWeekContext {day : Int} {fields : Tm} (h : DayFields day fields) :
    isoWeekContext fields.tmYear fields.tmYday fields.tmWday =
      let y := Gregorian.yearOf day
      let weekNumber := (monday day + 9 - yearStart y) / 7
      if weekNumber < 1 then some (y - 1, isoWeeksInYear (y - 1))
      else if weekNumber > isoWeeksInYear y then some (y + 1, 1)
      else some (y, weekNumber) := by
  have hvalid := h.valid
  have hrange := h.weekday_range
  have hyday := h.yday
  have hwday := h.wday
  have hcheck : ¬(¬(0 ≤ fields.tmYday ∧ fields.tmYday ≤ 365) ∨
      ¬(0 ≤ fields.tmWday ∧ fields.tmWday ≤ 6)) := by
    omega
  have hweek : fields.tmYday + 10 - (if fields.tmWday = 0 then 7 else fields.tmWday) =
      monday day + 9 - yearStart (Gregorian.yearOf day) := by
    rw [hyday]
    unfold monday
    rw [← hwday]
    split
    · omega
    · omega
  have hnonneg : 0 ≤ monday day + 9 - yearStart (Gregorian.yearOf day) := by
    rw [← hweek]
    split
    · omega
    · omega
  unfold Time.isoWeekContext
  rw [if_neg hcheck]
  dsimp only
  rw [if_neg (not_not_intro hvalid.1), hweek, Int.tdiv_eq_ediv_of_nonneg hnonneg, h.year]

/-- In a year that starts on another day the week is the ISO week. -/
theorem DayFields.isoWeekContext_right {day : Int} {fields : Tm} (h : DayFields day fields)
    (hstart : ¬StartsOnThursday (Gregorian.yearOf day)) :
    Time.isoWeekContext fields.tmYear fields.tmYday fields.tmWday =
      some (isoYear day, isoWeek day) := by
  rw [h.isoWeekContext, Gregorian.isoWeek_eq]
  have hbounds := Gregorian.yearOf_bounds day
  have hsucc := Gregorian.yearStart_succ (Gregorian.yearOf day)
  have hpred := Gregorian.yearStart_succ (Gregorian.yearOf day - 1)
  rw [show Gregorian.yearOf day - 1 + 1 = Gregorian.yearOf day by omega] at hpred
  have hlength := Gregorian.yearLength_bounds (Gregorian.yearOf day)
  have hlengthPred := Gregorian.yearLength_bounds (Gregorian.yearOf day - 1)
  have hlengthNext := Gregorian.yearLength_bounds (Gregorian.yearOf day + 1)
  have hsuccNext := Gregorian.yearStart_succ (Gregorian.yearOf day + 1)
  have hweeks := isoWeeksInYear_eq (Gregorian.yearOf day)
  have hweeksPred := isoWeeksInYear_eq (Gregorian.yearOf day - 1)
  have hmonday := Gregorian.monday_bounds day
  unfold isoYear
  generalize Gregorian.yearOf day = y at *
  dsimp only
  unfold StartsOnThursday weekday at *
  -- The Thursday lies in the year before, in the next one or in this one.
  by_cases hbefore : monday day + 3 < yearStart y
  · have hyear : Gregorian.yearOf (monday day + 3) = y - 1 := by
      apply Gregorian.yearOf_eq
      · omega
      · rw [show y - 1 + 1 = y by omega]
        exact hbefore
    rw [hyear, if_pos (by omega)]
    have hlast : isoWeeksInYear (y - 1) = (monday day + 3 - yearStart (y - 1)) / 7 + 1 := by
      omega
    rw [hlast]
  · by_cases hafter : yearStart (y + 1) ≤ monday day + 3
    · have hyear : Gregorian.yearOf (monday day + 3) = y + 1 := by
        apply Gregorian.yearOf_eq
        · exact hafter
        · omega
      rw [hyear, if_neg (by omega), if_pos (by omega)]
      have hfirst : (monday day + 3 - yearStart (y + 1)) / 7 + 1 = 1 := by
        omega
      rw [hfirst]
    · have hyear : Gregorian.yearOf (monday day + 3) = y := by
        apply Gregorian.yearOf_eq
        · omega
        · omega
      rw [hyear, if_neg (by omega), if_neg (by omega)]
      have hweek : (monday day + 9 - yearStart y) / 7 =
          (monday day + 3 - yearStart y) / 7 + 1 := by
        omega
      rw [hweek]

/-- In a year that starts on a Thursday the week is the one before. -/
theorem DayFields.isoWeekContext_early {day : Int} {fields : Tm} (h : DayFields day fields)
    (hstart : StartsOnThursday (Gregorian.yearOf day)) :
    isoYear day = Gregorian.yearOf day ∧
      Time.isoWeekContext fields.tmYear fields.tmYday fields.tmWday =
        if isoWeek day = 1 then some (Gregorian.yearOf day - 1, 52)
        else some (Gregorian.yearOf day, isoWeek day - 1) := by
  rw [h.isoWeekContext, Gregorian.isoWeek_eq]
  have hbounds := Gregorian.yearOf_bounds day
  have hsucc := Gregorian.yearStart_succ (Gregorian.yearOf day)
  have hpred := Gregorian.yearStart_succ (Gregorian.yearOf day - 1)
  rw [show Gregorian.yearOf day - 1 + 1 = Gregorian.yearOf day by omega] at hpred
  have hlength := Gregorian.yearLength_bounds (Gregorian.yearOf day)
  have hlengthPred := Gregorian.yearLength_bounds (Gregorian.yearOf day - 1)
  have hweeks := isoWeeksInYear_eq (Gregorian.yearOf day)
  have hweeksPred := isoWeeksInYear_eq (Gregorian.yearOf day - 1)
  have hmonday := Gregorian.monday_bounds day
  unfold isoYear
  generalize Gregorian.yearOf day = y at *
  dsimp only
  unfold StartsOnThursday weekday at *
  have hyear : Gregorian.yearOf (monday day + 3) = y := by
    apply Gregorian.yearOf_eq
    · omega
    · omega
  rw [hyear]
  refine ⟨rfl, ?_⟩
  by_cases hfirst : (monday day + 3 - yearStart y) / 7 + 1 = 1
  · have hlast : isoWeeksInYear (y - 1) = 52 := by
      omega
    rw [if_pos hfirst, if_pos (by omega), hlast]
  · have hweek : (monday day + 9 - yearStart y) / 7 =
        (monday day + 3 - yearStart y) / 7 + 1 - 1 := by
      omega
    rw [if_neg hfirst, if_neg (by omega), if_neg (by omega), hweek]

/-! ## The fields -/

/-- The texts of `%V`, `%G`, `%U` and `%W` are those of the weeks of a day. -/
structure WeekFields (readCString : Nat → List UInt8) (day : Int) (fields : Tm) : Prop where
  isoWeek : expansion readCString fields (ascii "%V") = zeroPadded 2 (isoWeek day)
  isoYear : expansion readCString fields (ascii "%G") = appendFullYear (isoYear day)
  sundays : expansion readCString fields (ascii "%U") =
    zeroPadded 2 (weekdayCount 0 (Gregorian.yearOf day) (fields.tmYday.toNat + 1))
  mondays : expansion readCString fields (ascii "%W") =
    zeroPadded 2 (weekdayCount 1 (Gregorian.yearOf day) (fields.tmYday.toNat + 1))
  range : 1 ≤ Gregorian.isoWeek day ∧ Gregorian.isoWeek day ≤ 53

/-- The text of `%G-%V`. -/
def weekText (week : Int × Int) : List UInt8 :=
  appendFullYear week.1 ++ ascii "-" ++ zeroPadded 2 week.2

/-- From one day to the next the week stays, or the next one starts and the day is a Monday. -/
structure WeekStep (day : Int) (week week' : Int × Int) : Prop where
  stays : weekday (day + 1) ≠ 1 → week' = week
  advances : weekday (day + 1) = 1 →
    (week'.1 = week.1 ∧ week'.2 = week.2 + 1) ∨
    (week'.1 = week.1 + 1 ∧ week'.2 = 1 ∧ 52 ≤ week.2)

/-- A new year begins between the two days, and it or the old one starts on a Thursday. -/
def CrossesThursdayYear (day : Int) : Prop :=
  Gregorian.yearOf day ≠ Gregorian.yearOf (day + 1) ∧
    (StartsOnThursday (Gregorian.yearOf day) ∨ StartsOnThursday (Gregorian.yearOf (day + 1)))

theorem expansion_weekNumber (readCString : Nat → List UInt8) (fields : Tm) :
    expansion readCString fields (ascii "%U") =
        appendWeekNumber fields.tmYear fields.tmYday fields.tmWday false ∧
      expansion readCString fields (ascii "%W") =
        appendWeekNumber fields.tmYear fields.tmYday fields.tmWday true :=
  ⟨List.append_nil _, List.append_nil _⟩

/-- The texts of the week that `iso_week_context` finds. -/
theorem expansion_isoWeek (readCString : Nat → List UInt8) {fields : Tm} {week : Int × Int}
    (h : isoWeekContext fields.tmYear fields.tmYday fields.tmWday = some week) :
    expansion readCString fields (ascii "%V") = zeroPadded 2 week.2 ∧
      expansion readCString fields (ascii "%G") = appendFullYear week.1 ∧
      expansion readCString fields (ascii "%G-%V") = weekText week := by
  have hnumber : appendIsoWeekNumber fields.tmYear fields.tmYday fields.tmWday =
      zeroPadded 2 week.2 := by
    unfold appendIsoWeekNumber appendPaddedDecimal
    rw [h]
  have hyear : appendIsoWeekYear fields.tmYear fields.tmYday fields.tmWday false =
      appendFullYear week.1 := by
    unfold appendIsoWeekYear
    rw [h]
    rfl
  refine ⟨(List.append_nil _).trans hnumber, (List.append_nil _).trans hyear, ?_⟩
  show appendIsoWeekYear fields.tmYear fields.tmYday fields.tmWday false ++ (ascii "-" ++
    (appendIsoWeekNumber fields.tmYear fields.tmYday fields.tmWday ++ [])) = weekText week
  rw [hnumber, hyear, List.append_nil, ← List.append_assoc]
  rfl

theorem DayFields.weekFields_iff (readCString : Nat → List UInt8) {day : Int} {fields : Tm}
    (h : DayFields day fields) :
    WeekFields readCString day fields ↔ ¬StartsOnThursday (Gregorian.yearOf day) := by
  have hrange := Gregorian.isoWeek_bounds day
  constructor
  · intro hfields hstart
    have hearly := (h.isoWeekContext_early hstart).2
    -- The two numbers differ, and so do their texts.
    have htext := hfields.isoWeek
    by_cases hfirst : isoWeek day = 1
    · rw [if_pos hfirst] at hearly
      rw [(expansion_isoWeek readCString hearly).1] at htext
      have hnumber := zeroPadded_injective (show (0 : Int) ≤ 52 by decide) (by omega) htext
      change (52 : Int) = isoWeek day at hnumber
      omega
    · rw [if_neg hfirst] at hearly
      rw [(expansion_isoWeek readCString hearly).1] at htext
      have hnumber := zeroPadded_injective (show 0 ≤ isoWeek day - 1 by omega) (by omega) htext
      omega
  · intro hstart
    have hright := expansion_isoWeek readCString (h.isoWeekContext_right hstart)
    have hcount := expansion_weekNumber readCString fields
    rw [h.appendWeekNumber, h.appendWeekNumber] at hcount
    exact ⟨hright.1, hright.2.1, hcount.1, hcount.2, hrange⟩

/-! ## From one day to the next -/

/-- The new year of a year that starts on a Thursday, and of the next one, is not a Monday. -/
theorem CrossesThursdayYear.not_monday {day : Int} (h : CrossesThursdayYear day) :
    weekday (day + 1) ≠ 1 := by
  have hlength := Gregorian.yearLength_bounds (Gregorian.yearOf day)
  have hsucc := Gregorian.yearStart_succ (Gregorian.yearOf day)
  unfold CrossesThursdayYear StartsOnThursday at h
  rcases Gregorian.yearOf_succ day with hsame | ⟨hnext, hstart⟩
  · exact absurd hsame.symm h.1
  · rw [hnext, hstart.symm] at h
    unfold weekday at h ⊢
    omega

/-- The week that the code finds for a day. -/
inductive WeekOf (day : Int) : Int × Int → Prop
  | right (h : ¬StartsOnThursday (Gregorian.yearOf day)) : WeekOf day (isoYear day, isoWeek day)
  | first (h : StartsOnThursday (Gregorian.yearOf day)) (hfirst : isoWeek day = 1)
      (hyear : isoYear day = Gregorian.yearOf day) : WeekOf day (isoYear day - 1, 52)
  | early (h : StartsOnThursday (Gregorian.yearOf day)) (hlater : isoWeek day ≠ 1)
      (hyear : isoYear day = Gregorian.yearOf day) : WeekOf day (isoYear day, isoWeek day - 1)

theorem DayFields.weekOf {day : Int} {fields : Tm} (h : DayFields day fields) :
    ∃ week, Time.isoWeekContext fields.tmYear fields.tmYday fields.tmWday = some week ∧
      WeekOf day week := by
  by_cases hstart : StartsOnThursday (Gregorian.yearOf day)
  · have hearly := h.isoWeekContext_early hstart
    rw [hearly.2, ← hearly.1]
    by_cases hfirst : isoWeek day = 1
    · rw [if_pos hfirst]
      exact ⟨_, rfl, .first hstart hfirst hearly.1⟩
    · rw [if_neg hfirst]
      exact ⟨_, rfl, .early hstart hfirst hearly.1⟩
  · exact ⟨_, h.isoWeekContext_right hstart, .right hstart⟩

theorem weekStep_mk (day g v g' v' : Int) :
    WeekStep day (g, v) (g', v') ↔
      (weekday (day + 1) ≠ 1 → g' = g ∧ v' = v) ∧
      (weekday (day + 1) = 1 → (g' = g ∧ v' = v + 1) ∨ (g' = g + 1 ∧ v' = 1 ∧ 52 ≤ v)) := by
  constructor
  · intro h
    exact ⟨fun hday => Prod.mk.inj (h.stays hday), h.advances⟩
  · intro h
    exact ⟨fun hday => Prod.ext (h.1 hday).1 (h.1 hday).2, h.2⟩

/-- Where a new year begins only one of the two days is shifted. -/
theorem CrossesThursdayYear.not_weekStep {day : Int} (hcross : CrossesThursdayYear day)
    {week week' : Int × Int} (h : WeekOf day week) (h' : WeekOf (day + 1) week') :
    ¬WeekStep day week week' := by
  have hmonday := hcross.not_monday
  have hiso := (Gregorian.isoWeek_succ day).1 hmonday
  intro hstep
  have hsame := hstep.stays hmonday
  have hone : ¬(StartsOnThursday (Gregorian.yearOf day) ∧
      isoYear day = Gregorian.yearOf day ∧ isoYear (day + 1) = Gregorian.yearOf (day + 1)) := by
    intro hboth
    apply hcross.1
    omega
  cases h with
  | right h =>
    cases h' with
    | right h' => exact (not_or.mpr ⟨h, h'⟩) hcross.2
    | first =>
      have hyear := (Prod.mk.inj hsame).1
      omega
    | early =>
      have hweek := (Prod.mk.inj hsame).2
      omega
  | first h hfirst hyear =>
    cases h' with
    | right =>
      have hyear := (Prod.mk.inj hsame).1
      omega
    | first _ _ hyear' => exact hone ⟨h, hyear, hyear'⟩
    | early _ _ hyear' => exact hone ⟨h, hyear, hyear'⟩
  | early h hlater hyear =>
    cases h' with
    | right =>
      have hweek := (Prod.mk.inj hsame).2
      omega
    | first _ _ hyear' => exact hone ⟨h, hyear, hyear'⟩
    | early _ _ hyear' => exact hone ⟨h, hyear, hyear'⟩

/-- Elsewhere both days are shifted alike. -/
theorem weekStep_of_not_crosses {day : Int} (hcross : ¬CrossesThursdayYear day)
    {week week' : Int × Int} (h : WeekOf day week) (h' : WeekOf (day + 1) week') :
    WeekStep day week week' := by
  have hiso := Gregorian.isoWeek_succ day
  have hbounds := Gregorian.isoWeek_bounds day
  have hbounds' := Gregorian.isoWeek_bounds (day + 1)
  have hsame : StartsOnThursday (Gregorian.yearOf day) ∨
      StartsOnThursday (Gregorian.yearOf (day + 1)) →
      Gregorian.yearOf day = Gregorian.yearOf (day + 1) := by
    intro hthursday
    by_contra hne
    exact hcross ⟨hne, hthursday⟩
  cases h with
  | right h =>
    cases h' with
    | right => exact (weekStep_mk _ _ _ _ _).mpr hiso
    | first h' => exact absurd (hsame (Or.inr h') ▸ h') h
    | early h' => exact absurd (hsame (Or.inr h') ▸ h') h
  | first h hfirst hyear =>
    have hyears := hsame (Or.inl h)
    cases h' with
    | right h' => exact absurd (hyears ▸ h) h'
    | first =>
      apply (weekStep_mk _ _ _ _ _).mpr
      omega
    | early =>
      apply (weekStep_mk _ _ _ _ _).mpr
      omega
  | early h hlater hyear =>
    have hyears := hsame (Or.inl h)
    cases h' with
    | right h' => exact absurd (hyears ▸ h) h'
    | first =>
      apply (weekStep_mk _ _ _ _ _).mpr
      omega
    | early =>
      apply (weekStep_mk _ _ _ _ _).mpr
      omega

/-- **Week fields.**  `%U` and `%W` count the Sundays and the Mondays of the year.  `%V` and `%G`
are the ISO week exactly in the years that do not start on a Thursday; from one day to the next
`%G-%V` steps as it should exactly where no such year begins or ends. -/
theorem weekFields_exact (readCString : Nat → List UInt8) {t : TimeT} {result fields : Tm}
    {errno : Int} (h : gmtimeR (some t) (some result) errno = ⟨true, some fields, errno⟩) :
    (WeekFields readCString (t.val / 86400) fields ↔
      ¬StartsOnThursday (Gregorian.yearOf (t.val / 86400))) ∧
    expansion readCString fields (ascii "%U") =
      zeroPadded 2 (weekdayCount 0 (Gregorian.yearOf (t.val / 86400)) (fields.tmYday.toNat + 1)) ∧
    expansion readCString fields (ascii "%W") =
      zeroPadded 2 (weekdayCount 1 (Gregorian.yearOf (t.val / 86400)) (fields.tmYday.toNat + 1)) ∧
    ∀ t' result' fields' errno', t'.val / 86400 = t.val / 86400 + 1 →
      gmtimeR (some t') (some result') errno' = ⟨true, some fields', errno'⟩ →
      ∃ week week', expansion readCString fields (ascii "%G-%V") = weekText week ∧
        expansion readCString fields' (ascii "%G-%V") = weekText week' ∧
        (WeekStep (t.val / 86400) week week' ↔ ¬CrossesThursdayYear (t.val / 86400)) := by
  have hfields := gmtimeR_dayFields h
  have hcount := expansion_weekNumber readCString fields
  rw [hfields.appendWeekNumber, hfields.appendWeekNumber] at hcount
  refine ⟨hfields.weekFields_iff readCString, hcount.1, hcount.2, ?_⟩
  intro t' result' fields' errno' hnext h'
  have hfields' := gmtimeR_dayFields h'
  rw [hnext] at hfields'
  obtain ⟨week, hweek, hof⟩ := hfields.weekOf
  obtain ⟨week', hweek', hof'⟩ := hfields'.weekOf
  refine ⟨week, week', (expansion_isoWeek readCString hweek).2.2,
    (expansion_isoWeek readCString hweek').2.2, ?_⟩
  exact ⟨fun hstep hcross => hcross.not_weekStep hof hof' hstep,
    fun hcross => weekStep_of_not_crosses hcross hof hof'⟩

/-- 1971 starts on a Friday, in the last week of the year before. -/
theorem weekFields_exact_friday :
    WeekFields (fun _ => []) 365 { unixEpochTm with tmYear := 71, tmWday := 5 } := by
  have hyear : Gregorian.yearOf 365 = 1971 := Gregorian.yearOf_eq (by decide) (by decide)
  have hcall : gmtimeR (some ⟨31536000, by decide⟩) (some unixEpochTm) 0 =
      ⟨true, some { unixEpochTm with tmYear := 71, tmWday := 5 }, 0⟩ := by
    decide
  apply (weekFields_exact (fun _ => []) hcall).1.mpr
  change ¬weekday (yearStart (Gregorian.yearOf 365)) = 4
  rw [hyear]
  decide

/-- January 1st of 1970, a Thursday, is printed in the last week of 1969. -/
theorem weekFields_epoch :
    gmtimeR (some ⟨0, by decide⟩) (some unixEpochTm) 0 = ⟨true, some unixEpochTm, 0⟩ ∧
      expansion (fun _ => []) unixEpochTm (ascii "%G-%V") = ascii "1969-52" ∧
      isoYear 0 = 1970 ∧ isoWeek 0 = 1 ∧ ¬WeekFields (fun _ => []) 0 unixEpochTm := by
  have hyear : Gregorian.yearOf 0 = 1970 := Gregorian.yearOf_eq (by decide) (by decide)
  have hisoYear : isoYear 0 = 1970 := hyear
  have hisoWeek : isoWeek 0 = 1 := by
    rw [Gregorian.isoWeek_eq, hisoYear]
    decide
  refine ⟨by decide, by decide, hisoYear, hisoWeek, ?_⟩
  intro hfields
  have htext := hfields.isoWeek
  rw [hisoWeek] at htext
  exact absurd htext (by decide)

end Rlibc.Time
