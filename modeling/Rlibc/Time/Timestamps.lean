import Rlibc.Foundations.DayCount
import Rlibc.Foundations.LexOrder
import Rlibc.Memory.Copying
import Rlibc.Time.StrftimeContract
import Rlibc.Time.WeekFields

/-!
# Timestamps

`strftime` with `%Y-%m-%dT%H:%M:%SZ` writes the fields of `gmtime_r` as numerals of fixed lengths,
from the year down to the second, so the bytes are in the order of the times.
-/

namespace Rlibc.Time

open Gregorian
open Rlibc.Memory
open ByteOrder (bytesAt bytesAt_length)

/-- How `memcmp` sees the bytes. -/
def byteValues (bytes : List UInt8) : List Nat := bytes.map UInt8.toNat

theorem byteValues_append (front back : List UInt8) :
    byteValues (front ++ back) = byteValues front ++ byteValues back := List.map_append

theorem byteValues_cons (byte : UInt8) (bytes : List UInt8) :
    byteValues (byte :: bytes) = byte.toNat :: byteValues bytes := List.map_cons

/-- The first bytes that differ decide. -/
theorem firstDifference_neg_iff {xs ys : List UInt8} (h : xs.length = ys.length) :
    firstDifference xs ys < 0 ↔ byteValues xs < byteValues ys := by
  induction xs generalizing ys with
  | nil =>
    rw [List.eq_nil_of_length_eq_zero h.symm]
    decide
  | cons x xs ih =>
    cases ys with
    | nil => cases h
    | cons y ys =>
      rw [firstDifference, byteValues_cons, byteValues_cons, List.cons_lt_cons_iff,
        ← ih (Nat.succ.inj h)]
      by_cases hxy : x = y
      · rw [if_neg (not_not_intro hxy), hxy]
        simp
      · have hne : x.toNat ≠ y.toNat := fun heq => hxy (UInt8.toNat_inj.mp heq)
        rw [if_pos hxy]
        omega

theorem memcmp_neg_iff (m : ByteMem.Mem) (left right n : Nat) :
    memcmp m left right n < 0 ↔
      byteValues (bytesAt m left n) < byteValues (bytesAt m right n) := by
  rw [← firstDifference_neg_iff (by rw [bytesAt_length, bytesAt_length])]
  unfold memcmp
  by_cases hn : n = 0
  · rw [if_pos hn, hn]
    exact Iff.rfl
  · have hloop := memcmpFrom_eq m left right (Nat.zero_le n)
    rw [Nat.add_zero, Nat.add_zero, Nat.sub_zero] at hloop
    rw [if_neg hn, hloop]

/-! ## Numerals of a fixed length -/

section Numerals

variable {width n m : Nat}

theorem length_decimalBytes_le (hwidth : 0 < width) (hn : n < 10 ^ width) :
    (decimalBytes n).length ≤ width := by
  unfold decimalBytes
  rw [List.length_map]
  exact (Nat.length_toDigits_le_iff (by decide) hwidth).mpr hn

theorem zeroPadded_natCast (width n : Nat) :
    zeroPadded width n =
      List.replicate (width - (decimalBytes n).length) 48 ++ decimalBytes n := by
  unfold zeroPadded
  dsimp only
  rw [if_neg (show ¬(n : Int) < 0 by omega), List.nil_append, Int.natAbs_natCast, List.length_nil,
    Nat.sub_zero]

theorem length_zeroPadded (hwidth : 0 < width) (hn : n < 10 ^ width) :
    (zeroPadded width n).length = width := by
  have hle := length_decimalBytes_le hwidth hn
  rw [zeroPadded_natCast, List.length_append, List.length_replicate]
  omega

theorem mem_byteValues_zeroPadded {b : Nat} (h : b ∈ byteValues (zeroPadded width n)) :
    48 ≤ b ∧ b ≤ 57 := by
  unfold byteValues at h
  rw [zeroPadded_natCast, List.map_append, List.mem_append] at h
  rcases h with h | h
  · rw [List.map_replicate] at h
    have hb := List.eq_of_mem_replicate h
    rw [hb]
    decide
  · unfold decimalBytes at h
    rw [List.map_map, List.mem_map] at h
    rcases h with ⟨c, hc, rfl⟩
    have hdigit := Char.isDigit_iff_toNat.mp
      (Nat.isDigit_of_mem_toDigits (by decide) (by decide) hc)
    change 48 ≤ c.toNat ∧ c.toNat ≤ 57 at hdigit
    show 48 ≤ (UInt8.ofNat c.toNat).toNat ∧ (UInt8.ofNat c.toNat).toNat ≤ 57
    rw [UInt8.toNat_ofNat', Nat.mod_eq_of_lt (by omega)]
    exact hdigit

/-- Horner's rule on the digits reads the number back. -/
theorem value_zeroPadded (width n : Nat) :
    Numeral.value 10 ((byteValues (zeroPadded width n)).map fun b => b - 48) = n := by
  have hread := foldl_readDigit_zeroPadded width n
  unfold byteValues Numeral.value
  rw [List.map_map, List.foldl_map]
  have hstep : (fun v (byte : UInt8) => v * 10 + (byte.toNat - 48)) = readDigit := by
    funext v byte
    unfold readDigit
    omega
  show (zeroPadded width n).foldl (fun v (byte : UInt8) => v * 10 + (byte.toNat - 48)) 0 = n
  rw [hstep]
  exact hread

/-- Numerals of one length are in the order of their values. -/
theorem zeroPadded_lt_iff (hwidth : 0 < width) (hn : n < 10 ^ width) (hm : m < 10 ^ width) :
    byteValues (zeroPadded width n) < byteValues (zeroPadded width m) ↔ n < m := by
  have hdigits : ∀ k : Nat, ∀ d ∈ (byteValues (zeroPadded width k)).map fun b => b - 48,
      d < 10 := by
    intro k d hd
    rcases List.mem_map.mp hd with ⟨b, hb, rfl⟩
    have hrange := mem_byteValues_zeroPadded hb
    omega
  have hlength : ((byteValues (zeroPadded width n)).map fun b => b - 48).length =
      ((byteValues (zeroPadded width m)).map fun b => b - 48).length := by
    unfold byteValues
    rw [List.length_map, List.length_map, List.length_map, List.length_map,
      length_zeroPadded hwidth hn, length_zeroPadded hwidth hm]
  have hmap : ((byteValues (zeroPadded width n)).map fun b => b - 48) <
      ((byteValues (zeroPadded width m)).map fun b => b - 48) ↔
        byteValues (zeroPadded width n) < byteValues (zeroPadded width m) := by
    apply LexOrder.map_lt_map_iff
    · intro x hx y hy
      have hxr := mem_byteValues_zeroPadded hx
      have hyr := mem_byteValues_zeroPadded hy
      omega
    · intro x hx y hy hxy
      have hxr := mem_byteValues_zeroPadded hx
      have hyr := mem_byteValues_zeroPadded hy
      omega
  rw [← hmap, ← LexOrder.value_lt_value_iff hlength (hdigits n) (hdigits m), value_zeroPadded,
    value_zeroPadded]

/-- A numeral, a separator and the rest. -/
theorem field_lt_iff (hwidth : 0 < width) (hn : n < 10 ^ width) (hm : m < 10 ^ width)
    (separator : UInt8) (rest rest' : List UInt8) :
    byteValues (zeroPadded width n ++ separator :: rest) <
        byteValues (zeroPadded width m ++ separator :: rest') ↔
      n < m ∨ (n = m ∧ byteValues rest < byteValues rest') := by
  have hlength : (byteValues (zeroPadded width n)).length =
      (byteValues (zeroPadded width m)).length := by
    unfold byteValues
    rw [List.length_map, List.length_map, length_zeroPadded hwidth hn,
      length_zeroPadded hwidth hm]
  have hsame : byteValues (zeroPadded width n) = byteValues (zeroPadded width m) ↔ n = m := by
    constructor
    · intro h
      rw [← value_zeroPadded width n, h, value_zeroPadded]
    · intro h
      rw [h]
  rw [byteValues_append, byteValues_append, LexOrder.append_lt_append_iff hlength,
    zeroPadded_lt_iff hwidth hn hm, hsame, byteValues_cons, byteValues_cons,
    List.cons_lt_cons_iff]
  simp only [lt_irrefl, false_or, true_and]

end Numerals

/-! ## The format -/

def stampFormat : List UInt8 := ascii "%Y-%m-%dT%H:%M:%SZ"

/-- The years from 0 to 9999. -/
def HasStamp (t : TimeT) : Prop := -62167219200 ≤ t.val ∧ t.val ≤ 253402300799

/-- The six numerals and what stands behind each. -/
def stampOf (year month day hour minute second : Nat) : List UInt8 :=
  zeroPadded 4 year ++ 45 :: (zeroPadded 2 month ++ 45 :: (zeroPadded 2 day ++ 84 ::
    (zeroPadded 2 hour ++ 58 :: (zeroPadded 2 minute ++ 58 :: (zeroPadded 2 second ++ [90])))))

theorem directives_stampFormat : directives stampFormat =
    [.conversion 89, .plain 45, .conversion 109, .plain 45, .conversion 100, .plain 84,
      .conversion 72, .plain 58, .conversion 77, .plain 58, .conversion 83, .plain 90] := by
  decide

theorem expansion_stampFormat (readCString : Nat → List UInt8) (t : Tm) :
    expansion readCString t stampFormat =
      appendYear t.tmYear ++ 45 :: (appendMonthNumber t.tmMon ++ 45 ::
        (appendDayOfMonth t.tmMday ++ 84 :: (appendHour24 t.tmHour ++ 58 ::
          (appendMinute t.tmMin ++ 58 :: (appendSecond t.tmSec ++ [90]))))) := by
  have hyear : appendToken readCString 89 t = appendYear t.tmYear := rfl
  have hmonth : appendToken readCString 109 t = appendMonthNumber t.tmMon := rfl
  have hday : appendToken readCString 100 t = appendDayOfMonth t.tmMday := rfl
  have hhour : appendToken readCString 72 t = appendHour24 t.tmHour := rfl
  have hminute : appendToken readCString 77 t = appendMinute t.tmMin := rfl
  have hsecond : appendToken readCString 83 t = appendSecond t.tmSec := rfl
  unfold expansion
  rw [directives_stampFormat]
  simp only [List.flatMap_cons, List.flatMap_nil, Directive.expand, hyear, hmonth, hday, hhour,
    hminute, hsecond, List.append_nil, List.cons_append, List.nil_append]

/-- The year of a time that has a stamp has at most four digits. -/
theorem HasStamp.year {t : TimeT} (h : HasStamp t) :
    0 ≤ (dateOf t).year ∧ (dateOf t).year ≤ 9999 := by
  unfold HasStamp at h
  have hbounds := (dateOf t).toDays_bounds
  have hdays : (dateOf t).toDays = t.val / 86400 := Date.toDays_symm _
  rw [hdays] at hbounds
  constructor
  · by_contra hneg
    have hle := yearStart_le (show (dateOf t).year + 1 ≤ 0 by omega)
    rw [show yearStart 0 = -719528 by decide] at hle
    omega
  · by_contra hlate
    have hle := yearStart_le (show 10000 ≤ (dateOf t).year by omega)
    rw [show yearStart 10000 = 2932897 by decide] at hle
    omega

/-- The numbers of a stamp, in their ranges. -/
structure StampNumbers (t : TimeT) (year month day hour minute second : Nat) : Prop where
  ofYear : (dateOf t).year = year
  ofMonth : (dateOf t).month + 1 = month
  ofDay : (dateOf t).day = day
  timeOfDay : (hour * 3600 + minute * 60 + second : Int) = t.val % 86400
  yearRange : year < 10000
  monthRange : 1 ≤ month ∧ month ≤ 12
  dayRange : 1 ≤ day ∧ day ≤ 31
  hourRange : hour < 24
  minuteRange : minute < 60
  secondRange : second < 60

/-- A field within its range is written as its numeral. -/
theorem appendPaddedDecimalInRange_eq {value min max : Int} (h : min ≤ value ∧ value ≤ max)
    (width : Nat) : appendPaddedDecimalInRange value width min max = zeroPadded width value := by
  unfold appendPaddedDecimalInRange
  rw [if_neg (by omega)]
  rfl

/-- The fields of these numbers are written as their numerals. -/
theorem StampNumbers.expansion {t : TimeT} {year month day hour minute second : Nat}
    (h : StampNumbers t year month day hour minute second)
    (readCString : Nat → List UInt8) {fields : Tm}
    (hfields : fields = tmOf (dateOf t) (t.val % 86400)) :
    expansion readCString fields stampFormat = stampOf year month day hour minute second := by
  have htime := h.timeOfDay
  have hhour := h.hourRange
  have hminute := h.minuteRange
  have hsecond := h.secondRange
  have hmonth := h.monthRange
  have hday := h.dayRange
  -- the numbers in the fields
  have hyearIs : fullYearFromTmYear fields.tmYear = year := by
    rw [hfields, ← h.ofYear]
    show (dateOf t).year - 1900 + 1900 = (dateOf t).year
    omega
  have hmonthIs : fields.tmMon + 1 = month := by
    rw [hfields, ← h.ofMonth]
    rfl
  have hdayIs : fields.tmMday = day := by
    rw [hfields, ← h.ofDay]
    rfl
  have hhourIs : fields.tmHour = hour := by
    rw [hfields]
    show t.val % 86400 / 3600 = hour
    omega
  have hminuteIs : fields.tmMin = minute := by
    rw [hfields]
    show t.val % 86400 % 3600 / 60 = minute
    omega
  have hsecondIs : fields.tmSec = second := by
    rw [hfields]
    show t.val % 86400 % 60 = second
    omega
  -- the texts of the fields
  have hyearField : appendYear fields.tmYear = zeroPadded 4 year := by
    unfold appendYear appendFullYear
    rw [hyearIs, if_pos (by omega)]
  have hmonthField : appendMonthNumber fields.tmMon = zeroPadded 2 month := by
    unfold appendMonthNumber appendPaddedDecimal
    rw [if_pos (by omega), hmonthIs]
  have hdayField : appendDayOfMonth fields.tmMday = zeroPadded 2 day := by
    rw [hdayIs]
    exact appendPaddedDecimalInRange_eq ⟨by omega, by omega⟩ 2
  have hhourField : appendHour24 fields.tmHour = zeroPadded 2 hour := by
    rw [hhourIs]
    exact appendPaddedDecimalInRange_eq ⟨by omega, by omega⟩ 2
  have hminuteField : appendMinute fields.tmMin = zeroPadded 2 minute := by
    rw [hminuteIs]
    exact appendPaddedDecimalInRange_eq ⟨by omega, by omega⟩ 2
  have hsecondField : appendSecond fields.tmSec = zeroPadded 2 second := by
    rw [hsecondIs]
    exact appendPaddedDecimalInRange_eq ⟨by omega, by omega⟩ 2
  rw [expansion_stampFormat, hyearField, hmonthField, hdayField, hhourField, hminuteField,
    hsecondField]
  rfl

theorem exists_stampNumbers {t : TimeT} (h : HasStamp t) :
    ∃ year month day hour minute second, StampNumbers t year month day hour minute second := by
  have hyear := h.year
  have hm := (dateOf t).month_lt
  have hpos := (dateOf t).day_pos
  have hle := (dateOf t).day_le
  have hlength := monthLength_le (dateOf t).year (dateOf t).month
  exact ⟨(dateOf t).year.toNat, (dateOf t).month + 1, (dateOf t).day.toNat,
    (t.val % 86400 / 3600).toNat, (t.val % 86400 % 3600 / 60).toNat, (t.val % 86400 % 60).toNat,
    { ofYear := by omega
      ofMonth := rfl
      ofDay := by omega
      timeOfDay := by omega
      yearRange := by omega
      monthRange := by omega
      dayRange := by omega
      hourRange := by omega
      minuteRange := by omega
      secondRange := by omega }⟩

/-- The dates of two stamps are in the order of their days. -/
theorem StampNumbers.before_iff {t u : TimeT} {year month day hour minute second : Nat}
    {year' month' day' hour' minute' second' : Nat}
    (ht : StampNumbers t year month day hour minute second)
    (hu : StampNumbers u year' month' day' hour' minute' second') :
    (year < year' ∨ (year = year' ∧ (month < month' ∨ (month = month' ∧ day < day')))) ↔
      t.val / 86400 < u.val / 86400 := by
  have hdays : (dateOf t).toDays = t.val / 86400 := Date.toDays_symm _
  have hdays' : (dateOf u).toDays = u.val / 86400 := Date.toDays_symm _
  rw [← hdays, ← hdays', Date.toDays_lt_iff]
  unfold Date.Before
  rw [ht.ofYear, hu.ofYear, ht.ofDay, hu.ofDay]
  have hmonth := ht.ofMonth
  have hmonth' := hu.ofMonth
  omega

theorem StampNumbers.same_iff {t u : TimeT} {year month day hour minute second : Nat}
    {year' month' day' hour' minute' second' : Nat}
    (ht : StampNumbers t year month day hour minute second)
    (hu : StampNumbers u year' month' day' hour' minute' second') :
    (year = year' ∧ month = month' ∧ day = day') ↔ t.val / 86400 = u.val / 86400 := by
  have hdays : (dateOf t).toDays = t.val / 86400 := Date.toDays_symm _
  have hdays' : (dateOf u).toDays = u.val / 86400 := Date.toDays_symm _
  have hmonth := ht.ofMonth
  have hmonth' := hu.ofMonth
  have hyear := ht.ofYear
  have hyear' := hu.ofYear
  have hday := ht.ofDay
  have hday' := hu.ofDay
  rw [← hdays, ← hdays', Date.toDays_injective.eq_iff]
  constructor
  · intro h
    exact Date.ext (by omega) (by omega) (by omega)
  · intro h
    rw [h] at hmonth hyear hday
    omega

/-- The times of day of two stamps. -/
theorem StampNumbers.time_iff {t u : TimeT} {year month day hour minute second : Nat}
    {year' month' day' hour' minute' second' : Nat}
    (ht : StampNumbers t year month day hour minute second)
    (hu : StampNumbers u year' month' day' hour' minute' second') :
    (hour < hour' ∨ (hour = hour' ∧ (minute < minute' ∨ (minute = minute' ∧
      second < second')))) ↔ t.val % 86400 < u.val % 86400 := by
  rw [← ht.timeOfDay, ← hu.timeOfDay]
  have hminute := ht.minuteRange
  have hminute' := hu.minuteRange
  have hsecond := ht.secondRange
  have hsecond' := hu.secondRange
  omega

/-- Two stamps are in the order of their times. -/
theorem StampNumbers.lt_iff {t u : TimeT} {year month day hour minute second : Nat}
    {year' month' day' hour' minute' second' : Nat}
    (ht : StampNumbers t year month day hour minute second)
    (hu : StampNumbers u year' month' day' hour' minute' second') :
    byteValues (stampOf year month day hour minute second) <
        byteValues (stampOf year' month' day' hour' minute' second') ↔ t.val < u.val := by
  have htwo : ∀ n : Nat, n ≤ 60 → n < 10 ^ 2 := by
    intro n hn
    show n < 100
    omega
  have hfour : ∀ n : Nat, n < 10000 → n < 10 ^ 4 := fun n hn => hn
  have hmonth := ht.monthRange
  have hmonth' := hu.monthRange
  have hday := ht.dayRange
  have hday' := hu.dayRange
  have hend : ¬ byteValues [] < byteValues [] := by decide
  unfold stampOf
  rw [field_lt_iff (by decide) (hfour _ ht.yearRange) (hfour _ hu.yearRange),
    field_lt_iff (by decide) (htwo _ (by omega)) (htwo _ (by omega)),
    field_lt_iff (by decide) (htwo _ (by omega)) (htwo _ (by omega)),
    field_lt_iff (by decide) (htwo _ (by have := ht.hourRange; omega))
      (htwo _ (by have := hu.hourRange; omega)),
    field_lt_iff (by decide) (htwo _ (by have := ht.minuteRange; omega))
      (htwo _ (by have := hu.minuteRange; omega)),
    field_lt_iff (by decide) (htwo _ (by have := ht.secondRange; omega))
      (htwo _ (by have := hu.secondRange; omega))]
  -- The dates decide, and the time of day where they are the same.
  have hdate := ht.before_iff hu
  have hsame := ht.same_iff hu
  have htime := ht.time_iff hu
  have hlex : t.val < u.val ↔ t.val / 86400 < u.val / 86400 ∨
      (t.val / 86400 = u.val / 86400 ∧ t.val % 86400 < u.val % 86400) := by omega
  rw [hlex, ← hdate, ← hsame, ← htime]
  simp only [hend, and_false, or_false]
  omega

/-! ## The calls -/

/-- A call with room for 21 bytes delivers the stamp with its NUL. -/
theorem strftime_delivers (readCString : Nat → List UInt8) (format : List UInt8) (fields : Tm)
    {max : Nat}
    (hmax : (expansion readCString fields format).length < max) :
    (strftime readCString false max (some format) (some fields)).ret =
        (expansion readCString fields format).length ∧
      Delivers (strftime readCString false max (some format) (some fields)).stores
        (expansion readCString fields format) := by
  have hnull : ¬(max ≠ 0 ∧ false = true) := fun h => Bool.false_ne_true h.2
  have hholds := (OutputBuffer.new_holds max).pushBytes (expansion readCString fields format)
  rw [List.nil_append] at hholds
  have hcapacity := OutputBuffer.pushBytes_max (.new max) (expansion readCString fields format)
  have hnew : (OutputBuffer.new max).max = max := rfl
  have hrequired := hholds.required
  unfold strftime OutputBuffer.finish
  dsimp only
  rw [if_neg hnull, strftimeLoop_eq]
  refine ⟨?_, terminate_delivers hholds (by omega)⟩
  dsimp only
  rw [if_neg (by omega), hrequired]

theorem length_stampOf {t : TimeT} {year month day hour minute second : Nat}
    (h : StampNumbers t year month day hour minute second) :
    (stampOf year month day hour minute second).length = 20 := by
  have hmonth := h.monthRange
  have hday := h.dayRange
  have hhour := h.hourRange
  have hminute := h.minuteRange
  have hsecond := h.secondRange
  have htwo : ∀ n : Nat, n < 100 → (zeroPadded 2 n).length = 2 :=
    fun n hn => length_zeroPadded (by decide) (show n < 10 ^ 2 from hn)
  have hfour : (zeroPadded 4 year).length = 4 :=
    length_zeroPadded (by decide) (show year < 10 ^ 4 from h.yearRange)
  unfold stampOf
  simp only [List.length_append, List.length_cons, List.length_nil, hfour,
    htwo _ (show month < 100 by omega), htwo _ (show day < 100 by omega),
    htwo _ (show hour < 100 by omega), htwo _ (show minute < 100 by omega),
    htwo _ (show second < 100 by omega)]

/-- The two calls on one time: the fields, and the bytes that are written. -/
theorem HasStamp.written (readCString : Nat → List UInt8) {t : TimeT} (h : HasStamp t)
    (result : Tm) (errno : Int) :
    ∃ year month day hour minute second, StampNumbers t year month day hour minute second ∧
      gmtimeR (some t) (some result) errno =
        ⟨true, some (tmOf (dateOf t) (t.val % 86400)), errno⟩ ∧
      ∀ max, 20 < max →
        (strftime readCString false max (some stampFormat)
          (some (tmOf (dateOf t) (t.val % 86400)))).ret = 20 ∧
        Delivers (strftime readCString false max (some stampFormat)
          (some (tmOf (dateOf t) (t.val % 86400)))).stores
            (stampOf year month day hour minute second) := by
  rcases exists_stampNumbers h with ⟨year, month, day, hour, minute, second, hnumbers⟩
  have hexpansion := hnumbers.expansion readCString rfl
  have hlength := length_stampOf hnumbers
  have hyear := h.year
  refine ⟨year, month, day, hour, minute, second, hnumbers, ?_, ?_⟩
  · rw [gmtimeR_eq, if_pos]
    unfold FitsCInt
    omega
  · intro max hmax
    rw [← hexpansion] at hlength
    have hdelivers := strftime_delivers readCString stampFormat _ (hlength ▸ hmax)
    rw [hlength, hexpansion] at hdelivers
    exact hdelivers

/-- **Order of timestamps.**  For every time in the years 0 to 9999 `gmtime_r` succeeds and
`strftime` makes twenty bytes of its fields; `memcmp` of the bytes of two such times says which time
is the earlier one. -/
theorem timestamps_order (readCString : Nat → List UInt8) {t u : TimeT} (ht : HasStamp t)
    (hu : HasStamp u) (result : Tm) (errno : Int) :
    ∃ fieldsT fieldsU stampT stampU,
      gmtimeR (some t) (some result) errno = ⟨true, some fieldsT, errno⟩ ∧
      gmtimeR (some u) (some result) errno = ⟨true, some fieldsU, errno⟩ ∧
      (∀ max, 20 < max →
        let written := strftime readCString false max (some stampFormat) (some fieldsT)
        let written' := strftime readCString false max (some stampFormat) (some fieldsU)
        written.ret = 20 ∧ Delivers written.stores stampT ∧
          written'.ret = 20 ∧ Delivers written'.stores stampU) ∧
      stampT.length = 20 ∧ stampU.length = 20 ∧
      ∀ (m : ByteMem.Mem) (left right : Nat),
        bytesAt m left 20 = stampT → bytesAt m right 20 = stampU →
          (memcmp m left right 20 < 0 ↔ t.val < u.val) := by
  rcases ht.written readCString result errno with ⟨_, _, _, _, _, _, hnumbers, hgmtime, hwrites⟩
  rcases hu.written readCString result errno with ⟨_, _, _, _, _, _, hnumbers', hgmtime', hwrites'⟩
  refine ⟨_, _, _, _, hgmtime, hgmtime', ?_, length_stampOf hnumbers, length_stampOf hnumbers', ?_⟩
  · intro max hmax
    exact ⟨(hwrites max hmax).1, (hwrites max hmax).2, (hwrites' max hmax).1,
      (hwrites' max hmax).2⟩
  · intro m left right hleft hright
    rw [memcmp_neg_iff, hleft, hright]
    exact hnumbers.lt_iff hnumbers'

/-- The last second of 1969 and the first of 1970. -/
theorem timestamps_order_epoch :
    ∃ before epoch : List UInt8, before.length = 20 ∧ epoch.length = 20 ∧
      ∀ (m : ByteMem.Mem) (left right : Nat),
        bytesAt m left 20 = before → bytesAt m right 20 = epoch → memcmp m left right 20 < 0 := by
  have hbefore : HasStamp ⟨-1, by decide⟩ := ⟨by decide, by decide⟩
  have hepoch : HasStamp ⟨0, by decide⟩ := ⟨by decide, by decide⟩
  rcases timestamps_order (fun _ => []) hbefore hepoch unixEpochTm 0 with
    ⟨_, _, before, epoch, -, -, -, hlength, hlength', horder⟩
  refine ⟨before, epoch, hlength, hlength', fun m left right hleft hright => ?_⟩
  exact (horder m left right hleft hright).mpr (by decide)

end Rlibc.Time
