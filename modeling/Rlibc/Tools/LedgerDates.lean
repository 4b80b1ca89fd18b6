import Mathlib.Data.Char
import Mathlib.Data.List.Lex
import Rlibc.Foundations.DayCount
import Rlibc.Foundations.LexOrder
import Rlibc.Tools.Ledger

/-!
# The dates of a ledger

`validate_expires_date` accepts the dates of the Gregorian calendar in the form `YYYY-MM-DD`, and
`collect_expired_entries` compares such dates as strings.
-/

namespace Rlibc.Tools

open Gregorian Rlibc.System Text TextLines

/-- The text names the date, with four, two and two digits. -/
structure Denotes (text : List Char) (date : Date) : Prop where
  parts : ∃ year month day : List Char, text = year ++ '-' :: (month ++ '-' :: day) ∧
    (year.length = 4 ∧ month.length = 2 ∧ day.length = 2) ∧
    (∀ c ∈ year ++ month ++ day, isAsciiDigit c = true) ∧
    date.year = numeralValue year ∧ date.month + 1 = numeralValue month ∧
    date.day = numeralValue day

/-! ## Digits -/

theorem utf8Size_of_isAsciiDigit {c : Char} (h : isAsciiDigit c = true) : c.utf8Size = 1 := by
  have hrange : 48 ≤ c.toNat ∧ c.toNat ≤ 57 := of_decide_eq_true h
  exact Char.utf8Size_eq_one_iff.mpr
    (UInt32.le_iff_toNat_le.mpr (Nat.le_trans hrange.2 (by decide)))

/-- Digits take one byte each. -/
theorem byteLen_of_digits {text : List Char} (h : text.all isAsciiDigit = true) :
    byteLen text = text.length := by
  induction text with
  | nil => rfl
  | cons c text ih =>
    rw [List.all_cons, Bool.and_eq_true] at h
    rw [byteLen, utf8Size_of_isAsciiDigit h.1, ih h.2, List.length_cons, Nat.add_comm]

theorem digit_lt {c : Char} (h : isAsciiDigit c = true) : c.toNat - 48 < 10 := by
  have hrange : 48 ≤ c.toNat ∧ c.toNat ≤ 57 := of_decide_eq_true h
  omega

theorem hyphen_not_digit : isAsciiDigit '-' = false := by decide

/-- Digits of one length are ordered as the numbers that they denote. -/
theorem digits_lt_iff {s t : List Char} (hlength : s.length = t.length)
    (hs : ∀ c ∈ s, isAsciiDigit c = true) (ht : ∀ c ∈ t, isAsciiDigit c = true) :
    s < t ↔ numeralValue s < numeralValue t := by
  have hmap : s.map (fun c => c.toNat - 48) < t.map (fun c => c.toNat - 48) ↔ s < t := by
    refine LexOrder.map_lt_map_iff ?_ ?_
    · intro x hx y hy
      have hxr : 48 ≤ x.toNat ∧ x.toNat ≤ 57 := of_decide_eq_true (hs x hx)
      have hyr : 48 ≤ y.toNat ∧ y.toNat ≤ 57 := of_decide_eq_true (ht y hy)
      have hlt : x < y ↔ x.toNat < y.toNat := Iff.rfl
      rw [hlt]
      omega
    · intro x hx y hy hxy
      have hxr : 48 ≤ x.toNat ∧ x.toNat ≤ 57 := of_decide_eq_true (hs x hx)
      have hyr : 48 ≤ y.toNat ∧ y.toNat ≤ 57 := of_decide_eq_true (ht y hy)
      apply Char.toNat_inj.mp
      omega
  unfold numeralValue
  rw [← hmap]
  refine (LexOrder.value_lt_value_iff (by simpa using hlength) ?_ ?_).symm
  · intro d hd
    rw [List.mem_map] at hd
    obtain ⟨c, hc, rfl⟩ := hd
    exact digit_lt (hs c hc)
  · intro d hd
    rw [List.mem_map] at hd
    obtain ⟨c, hc, rfl⟩ := hd
    exact digit_lt (ht c hc)

/-- Digits of one length that denote the same number are the same. -/
theorem digits_injective {s t : List Char} (hlength : s.length = t.length)
    (hs : ∀ c ∈ s, isAsciiDigit c = true) (ht : ∀ c ∈ t, isAsciiDigit c = true)
    (h : numeralValue s = numeralValue t) : s = t := by
  rcases lt_trichotomy s t with hlt | heq | hgt
  · have hvalue := (digits_lt_iff hlength hs ht).mp hlt
    omega
  · exact heq
  · have hvalue := (digits_lt_iff hlength.symm ht hs).mp hgt
    omega

/-! ## Accepted dates -/

theorem daysInMonth_eq (year month : Nat) (h : 1 ≤ month ∧ month ≤ 12) :
    (daysInMonth year month : Int) = monthLength year (month - 1) := by
  have hleap : isLeapYear year = true ↔ IsLeap year := by
    unfold isLeapYear IsLeap
    rw [decide_eq_true_iff]
    omega
  obtain ⟨hlow, hhigh⟩ := h
  rcases eq_or_ne month 2 with rfl | hne
  · show ((if isLeapYear year then 29 else 28 : Nat) : Int) = if IsLeap year then 29 else 28
    by_cases hyear : IsLeap year
    · rw [if_pos (hleap.mpr hyear), if_pos hyear]
      rfl
    · rw [if_neg (fun hl => hyear (hleap.mp hl)), if_neg hyear]
      rfl
  · interval_cases month
    all_goals first | rfl | exact absurd rfl hne

/-- The three parts of a text that splits into three at its hyphens. -/
theorem splitOn_eq_three {text year month day : List Char} :
    text.splitOn '-' = [year, month, day] ↔
      text = year ++ '-' :: (month ++ '-' :: day) ∧ '-' ∉ year ∧ '-' ∉ month ∧ '-' ∉ day := by
  constructor
  · intro h
    have htext : List.intercalate ['-'] (text.splitOn '-') = text := List.intercalate_splitOn '-'
    have hparts : ∀ part ∈ text.splitOn '-', '-' ∉ part := fun part => notMem_of_mem_splitOn
    rw [h] at htext hparts
    refine ⟨by rw [← htext]; simp [List.intercalate], ?_, ?_, ?_⟩
    · exact hparts year (by simp)
    · exact hparts month (by simp)
    · exact hparts day (by simp)
  · rintro ⟨rfl, hyear, hmonth, hday⟩
    rw [List.splitOn_append_cons_self_of_not_mem hyear,
      List.splitOn_append_cons_self_of_not_mem hmonth, List.splitOn_eq_singleton hday]

/-- **Validation.**  A text is accepted when it names a date that exists. -/
theorem validateExpiresDate_eq_ok {text : List Char} :
    validateExpiresDate text = .ok () ↔ ∃ date, Denotes text date := by
  constructor
  · intro h
    unfold validateExpiresDate at h
    split at h
    case h_2 => cases h
    rename_i year month day hsplit
    dsimp only at h
    split_ifs at h with hlength hdigits hmonth hday
    rw [not_or, not_or, not_not, not_not, not_not] at hlength hdigits
    rw [byteLen_of_digits hdigits.1, byteLen_of_digits hdigits.2.1,
      byteLen_of_digits hdigits.2.2] at hlength
    rw [not_or, not_lt] at hday
    have hmax := daysInMonth_eq (numeralValue year) _ hmonth
    refine ⟨⟨numeralValue year, numeralValue month - 1, numeralValue day, by omega, by omega,
      by omega⟩, ⟨year, month, day, (splitOn_eq_three.mp hsplit).1, hlength, ?_, rfl, ?_, rfl⟩⟩
    · intro c hc
      rw [List.mem_append, List.mem_append] at hc
      rcases hc with (hc | hc) | hc
      · exact List.all_eq_true.mp hdigits.1 c hc
      · exact List.all_eq_true.mp hdigits.2.1 c hc
      · exact List.all_eq_true.mp hdigits.2.2 c hc
    · change numeralValue month - 1 + 1 = numeralValue month
      omega
  · rintro ⟨date, year, month, day, htext, hlength, hdigits, hyear, hmonth, hday⟩
    have hall : year.all isAsciiDigit = true ∧ month.all isAsciiDigit = true ∧
        day.all isAsciiDigit = true := by
      refine ⟨?_, ?_, ?_⟩ <;>
        exact List.all_eq_true.mpr fun c hc => hdigits c (by simp [hc])
    have hfree : ∀ part : List Char, part.all isAsciiDigit = true → '-' ∉ part := by
      intro part hpart hmem
      have hhyphen := List.all_eq_true.mp hpart '-' hmem
      rw [hyphen_not_digit] at hhyphen
      cases hhyphen
    have hsplit := splitOn_eq_three.mpr
      ⟨htext, hfree _ hall.1, hfree _ hall.2.1, hfree _ hall.2.2⟩
    have hbound := date.month_lt
    have hrange : 1 ≤ numeralValue month ∧ numeralValue month ≤ 12 := by omega
    have hmax := daysInMonth_eq (numeralValue year) _ hrange
    have hpos := date.day_pos
    have hle := date.day_le
    rw [hyear, hday, show date.month = numeralValue month - 1 by omega] at hle
    unfold validateExpiresDate
    rw [hsplit]
    dsimp only
    rw [byteLen_of_digits hall.1, byteLen_of_digits hall.2.1, byteLen_of_digits hall.2.2,
      if_neg (by simp [hlength]), if_neg (by simp [hall]), if_neg (not_not.mpr hrange), if_neg]
    omega

/-! ## Comparing dates -/

/-- **Order.**  Of two dates in this form, the string that is smaller names the earlier date. -/
theorem Denotes.lt_iff {s t : List Char} {a b : Date} (hs : Denotes s a) (ht : Denotes t b) :
    s < t ↔ a.toDays < b.toDays := by
  obtain ⟨year, month, day, rfl, hlength, hdigits, hyear, hmonth, hday⟩ := hs
  obtain ⟨year', month', day', rfl, hlength', hdigits', hyear', hmonth', hday'⟩ := ht
  have hylen : year.length = year'.length := hlength.1.trans hlength'.1.symm
  have hmlen : month.length = month'.length := hlength.2.1.trans hlength'.2.1.symm
  have hdlen : day.length = day'.length := hlength.2.2.trans hlength'.2.2.symm
  have hy : ∀ c ∈ year, isAsciiDigit c = true := fun c hc => hdigits c (by simp [hc])
  have hm : ∀ c ∈ month, isAsciiDigit c = true := fun c hc => hdigits c (by simp [hc])
  have hd : ∀ c ∈ day, isAsciiDigit c = true := fun c hc => hdigits c (by simp [hc])
  have hy' : ∀ c ∈ year', isAsciiDigit c = true := fun c hc => hdigits' c (by simp [hc])
  have hm' : ∀ c ∈ month', isAsciiDigit c = true := fun c hc => hdigits' c (by simp [hc])
  have hd' : ∀ c ∈ day', isAsciiDigit c = true := fun c hc => hdigits' c (by simp [hc])
  have hsame : year = year' ↔ numeralValue year = numeralValue year' :=
    ⟨congrArg numeralValue, digits_injective hylen hy hy'⟩
  have hsame' : month = month' ↔ numeralValue month = numeralValue month' :=
    ⟨congrArg numeralValue, digits_injective hmlen hm hm'⟩
  rw [LexOrder.append_lt_append_iff hylen, List.cons_lt_cons_iff,
    LexOrder.append_lt_append_iff hmlen, List.cons_lt_cons_iff, digits_lt_iff hylen hy hy',
    digits_lt_iff hmlen hm hm', digits_lt_iff hdlen hd hd', hsame, hsame', Date.toDays_lt_iff]
  unfold Date.Before
  simp only [lt_irrefl, false_or, true_and]
  omega

/-- **Expiry.**  One text is an accepted date before another in the order of strings when they
name dates of which the one is before the other in the calendar. -/
theorem validateExpiresDate_order {s t : List Char} :
    (validateExpiresDate s = .ok () ∧ validateExpiresDate t = .ok () ∧ s < t) ↔
      ∃ a b : Date, Denotes s a ∧ Denotes t b ∧ a.toDays < b.toDays := by
  rw [validateExpiresDate_eq_ok, validateExpiresDate_eq_ok]
  constructor
  · rintro ⟨⟨a, ha⟩, ⟨b, hb⟩, hlt⟩
    exact ⟨a, b, ha, hb, (ha.lt_iff hb).mp hlt⟩
  · rintro ⟨a, b, ha, hb, hlt⟩
    exact ⟨⟨a, ha⟩, ⟨b, hb⟩, (ha.lt_iff hb).mpr hlt⟩

end Rlibc.Tools
