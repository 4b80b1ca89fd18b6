import Rlibc.Stdio.IntegerConversion
import Rlibc.Stdlib.StrtoContract

/-!
# Printed integers are read back

What an integer conversion writes, with any flags, width and precision, is a subject sequence for
the `strto*` family: reading it in the base of the conversion gives the argument back.
-/

namespace Rlibc.Stdio

open Stdlib ByteMem

/-! ## Digits -/

theorem digitValue_digitToAscii (upper : Bool) :
    ∀ d < 16, digitValue (digitToAscii d upper) = some d := by
  cases upper with
  | false => decide
  | true => decide

theorem isDigit_digitToAscii {base d : Nat} (upper : Bool) (hbase : base ≤ 16) (hd : d < base) :
    isDigit base (digitToAscii d upper) = true :=
  isValidDigitForBase_of_lt (digitValue_digitToAscii upper d (by omega)) hd

/-- Zeros in front do not change a value. -/
theorem value_zeros (base k : Nat) (ds : List Nat) :
    Numeral.value base (List.replicate k 0 ++ ds) = Numeral.value base ds := by
  induction k with
  | zero => rfl
  | succ k ih =>
    rw [← ih, List.replicate_succ, List.cons_append]
    unfold Numeral.value
    rw [List.foldl_cons, Nat.zero_mul]

namespace IntegerField

/-- The digits that are written: zeros, and the numeral. -/
theorem body_eq (f : IntegerField) :
    ∃ zeros, f.body = List.replicate zeros '0'.toUInt8 ++ f.numeral := by
  unfold body
  dsimp only
  split
  · exact ⟨f.precision.getD 0 - f.numeral.length + 1, by rw [List.replicate_succ, List.cons_append]⟩
  · exact ⟨_, rfl⟩

theorem isDigit_zero (f : IntegerField) : isDigit f.base '0'.toUInt8 = true :=
  isDigit_digitToAscii (d := 0) false f.base_bounds.2 (by have hbase := f.base_bounds.1; omega)

theorem isDigit_numeral (f : IntegerField) :
    ∀ byte ∈ f.numeral, isDigit f.base byte = true := by
  rw [numeral_eq]
  split
  · simp
  · intro byte hbyte
    obtain ⟨d, hd, rfl⟩ := List.mem_map.mp hbyte
    exact isDigit_digitToAscii _ f.base_bounds.2 (Numeral.digits_lt f.base_bounds.1 hd)

/-- The values of the digits of the numeral. -/
theorem value_numeral (f : IntegerField) :
    Numeral.value f.base (f.numeral.map fun byte => (digitValue byte).getD 0) = f.magnitude := by
  rw [numeral_eq]
  split
  · rename_i hzero
    rw [hzero.2]
    rfl
  · have hmap : (unsignedToAscii f.magnitude f.base (f.conversion = 'X'.toUInt8)).map
        (fun byte => (digitValue byte).getD 0) = Numeral.digits f.base f.magnitude := by
      unfold unsignedToAscii
      rw [List.map_map]
      conv_rhs => rw [← List.map_id (Numeral.digits f.base f.magnitude)]
      refine List.map_congr_left fun d hd => ?_
      have hlt := Numeral.digits_lt f.base_bounds.1 hd
      have hbase := f.base_bounds.2
      show (digitValue (digitToAscii d _)).getD 0 = d
      rw [digitValue_digitToAscii _ d (by omega), Option.getD_some]
    rw [hmap, Numeral.value_digits]

/-- A sign is one for the reader too, but for the blank of the flag. -/
theorem sign_split (f : IntegerField) :
    ∃ space sign, f.sign = space ++ sign ∧ (∀ byte ∈ space, isAsciiSpace byte = true) ∧
      SignForm sign f.negative := by
  unfold sign
  cases hnegative : f.negative with
  | true => exact ⟨[], ['-'.toUInt8], rfl, by simp, .minus⟩
  | false =>
    rw [if_neg Bool.false_ne_true]
    split_ifs
    · exact ⟨[], ['+'.toUInt8], rfl, by simp, .plus⟩
    · have hspace : ∀ byte ∈ [' '.toUInt8], isAsciiSpace byte = true := by
        intro byte hbyte
        rw [List.mem_singleton.mp hbyte]
        rfl
      exact ⟨[' '.toUInt8], [], rfl, hspace, .none⟩
    · exact ⟨[], [], rfl, by simp, .none⟩
    · exact ⟨[], [], rfl, by simp, .none⟩

/-- The parts of the text as the reader takes them. -/
theorem text_split (f : IntegerField) (hbody : f.body ≠ []) :
    ∃ space sign zeros pad,
      f.text = space ++ sign ++ (f.radixMark ++ (List.replicate zeros '0'.toUInt8 ++ f.numeral)) ++
        List.replicate pad ' '.toUInt8 ∧
      (∀ byte ∈ space, isAsciiSpace byte = true) ∧ SignForm sign f.negative ∧
      List.replicate zeros '0'.toUInt8 ++ f.numeral ≠ [] := by
  obtain ⟨space, sign, hsign, hspace, hform⟩ := f.sign_split
  obtain ⟨zeros, hzeros⟩ := f.body_eq
  have hblank : ∀ k, ∀ byte ∈ List.replicate k ' '.toUInt8 ++ space, isAsciiSpace byte = true := by
    intro k byte hbyte
    rcases List.mem_append.mp hbyte with hbyte | hbyte
    · rw [List.eq_of_mem_replicate hbyte]
      decide
    · exact hspace byte hbyte
  unfold text content
  dsimp only
  split
  · generalize f.width - (f.sign ++ f.radixMark ++ f.body).length = missing
    refine ⟨space, sign, zeros, missing, ?_, hspace, hform, hzeros ▸ hbody⟩
    rw [hsign, hzeros]
    simp
  · split
    · -- the padding is more zeros
      generalize f.width - (f.sign ++ f.radixMark ++ f.body).length = missing
      refine ⟨space, sign, missing + zeros, 0, ?_, hspace, hform, ?_⟩
      · simp only [hsign, hzeros, ← List.replicate_append_replicate, List.append_assoc,
          List.replicate_zero, List.append_nil]
      · rw [← List.replicate_append_replicate, List.append_assoc, ← hzeros]
        exact List.append_ne_nil_of_right_ne_nil _ hbody
    · generalize f.width - (f.sign ++ f.radixMark ++ f.body).length = missing
      refine ⟨List.replicate missing ' '.toUInt8 ++ space, sign, zeros, 0, ?_, hblank missing,
        hform, hzeros ▸ hbody⟩
      rw [hsign, hzeros]
      simp

/-! ## Reading -/

/-- What may stand behind a numeral without continuing it. -/
def Ends (base : Nat) (tail : List UInt8) : Prop :=
  ∀ byte ∈ tail.head?, isDigit base byte = false ∧ (base = 16 → byte ≠ 120 ∧ byte ≠ 88)

theorem Ends.replicate {base : Nat} {tail : List UInt8} (h : Ends base tail) (k : Nat) :
    Ends base (List.replicate k ' '.toUInt8 ++ tail) := by
  cases k with
  | zero => exact h
  | succ k =>
    intro byte hbyte
    rw [List.replicate_succ, List.cons_append, List.head?_cons, Option.mem_some_iff] at hbyte
    rw [← hbyte]
    exact ⟨rfl, fun _ => by decide⟩

/-- Digits that end there are read as a whole. -/
theorem Ends.span {base : Nat} {tail : List UInt8} (h : Ends base tail) {digits : List UInt8}
    (hdigits : ∀ byte ∈ digits, isDigit base byte = true) :
    (digits ++ tail).takeWhile (isDigit base) = digits ∧
      (digits ++ tail).dropWhile (isDigit base) = tail := by
  rw [List.takeWhile_append_of_pos hdigits, List.dropWhile_append_of_pos hdigits]
  cases tail with
  | nil => simp
  | cons byte tail =>
    have hstop := (h byte rfl).1
    rw [List.takeWhile_cons_of_neg (by simp [hstop]), List.dropWhile_cons_of_neg (by simp [hstop]),
      List.append_nil]
    exact ⟨rfl, rfl⟩

/-- There is no prefix of hexadecimal numbers in front of plain digits. -/
theorem Ends.noPrefix {base : Nat} (hbase : base = 16) {tail : List UInt8} (h : Ends base tail)
    {digits : List UInt8} (hdigits : ∀ byte ∈ digits, isDigit base byte = true)
    (hne : digits ≠ []) : ¬ hasHexPrefix (digits ++ tail) = true := by
  intro hprefix
  obtain ⟨x, third, rest, hsplit, hx, _⟩ := hasHexPrefix_cons hprefix
  obtain ⟨first, more, rfl⟩ := List.exists_cons_of_ne_nil hne
  rw [List.cons_append, List.cons.injEq] at hsplit
  cases more with
  | nil =>
    have hhead : x ∈ tail.head? := by
      rw [show tail = x :: third :: rest from hsplit.2]
      rfl
    have hother := (h x hhead).2 hbase
    exact hx.elim hother.1 hother.2
  | cons second more =>
    rw [List.cons_append, List.cons.injEq] at hsplit
    have hsecond := hdigits second (by simp)
    rw [hsplit.2.1] at hsecond
    have hnot := not_isValidDigitForBase_x hx (by omega : base ≤ 16)
    unfold isDigit at hsecond
    rw [hnot] at hsecond
    cases hsecond

/-- The mark is that of the hexadecimal numbers. -/
theorem radixMark_eq (f : IntegerField) :
    f.radixMark = [] ∨
      f.base = 16 ∧ ∃ x, (x = 120 ∨ x = 88) ∧ f.radixMark = ['0'.toUInt8, x] := by
  unfold radixMark
  by_cases hplain : ¬f.flags.alternateForm ∨ f.magnitude = 0
  · exact Or.inl (if_pos hplain)
  · rw [if_neg hplain]
    by_cases hx : f.conversion = 'x'.toUInt8
    · have hoctal : ¬f.conversion = 'o'.toUInt8 := by
        rw [hx]
        decide
      refine Or.inr ⟨(if_neg hoctal).trans (if_pos (Or.inl hx)), 'x'.toUInt8, by decide, if_pos hx⟩
    · rw [if_neg hx]
      by_cases hX : f.conversion = 'X'.toUInt8
      · have hoctal : ¬f.conversion = 'o'.toUInt8 := by
          rw [hX]
          decide
        refine Or.inr ⟨(if_neg hoctal).trans (if_pos (Or.inr hX)), 'X'.toUInt8, by decide,
          if_pos hX⟩
      · exact Or.inl (if_neg hX)

/-- The mark and the digits have the form of an integer, of which the digits are read. -/
theorem integer_read (f : IntegerField) {digits tail : List UInt8}
    (hdigits : ∀ byte ∈ digits, isDigit f.base byte = true) (hne : digits ≠ [])
    (htail : Ends f.base tail) :
    IntegerForm f.base (f.radixMark ++ digits) f.base digits ∧
      resolveBase f.base (f.radixMark ++ digits ++ tail) = some (f.base, digits ++ tail) := by
  have hbounds := f.base_bounds
  unfold resolveBase MIN_BASE MAX_BASE
  rw [if_neg (by omega), if_pos (by omega)]
  rcases f.radixMark_eq with hmark | ⟨hbase, x, hx, hmark⟩
  · have hform : IntegerForm f.base digits (f.base : Int).toNat digits := .plain (by omega)
    rw [Int.toNat_natCast] at hform
    rw [hmark, List.nil_append]
    refine ⟨hform, ?_⟩
    rw [if_neg fun h => htail.noPrefix (by omega) hdigits hne h.2, Int.toNat_natCast]
  · obtain ⟨first, more, rfl⟩ := List.exists_cons_of_ne_nil hne
    have hfirst : isDigit 16 first = true := hbase ▸ hdigits first List.mem_cons_self
    rw [hmark, hbase]
    refine ⟨.hex (Or.inr rfl) hx, if_pos ⟨rfl, ?_⟩⟩
    exact hasHexPrefix_of_cons hx hfirst

/-- **What is written is found.**  The parser finds the number, and stops at the padding. -/
theorem finds_text (f : IntegerField) (hbody : f.body ≠ []) {tail : List UInt8}
    (htail : Ends f.base tail) :
    ∃ digits pad, Finds (f.text ++ tail) f.base ⟨f.negative, f.base, digits⟩
        (List.replicate pad ' '.toUInt8 ++ tail) ∧
      Subject.magnitude ⟨f.negative, f.base, digits⟩ = f.magnitude := by
  obtain ⟨space, sign, zeros, pad, htext, hspace, hsign, hne⟩ := f.text_split hbody
  have hdigits : ∀ byte ∈ List.replicate zeros '0'.toUInt8 ++ f.numeral,
      isDigit f.base byte = true := by
    intro byte hbyte
    rcases List.mem_append.mp hbyte with hbyte | hbyte
    · rw [List.eq_of_mem_replicate hbyte]
      exact f.isDigit_zero
    · exact f.isDigit_numeral byte hbyte
  have hends := htail.replicate pad
  obtain ⟨hform, hresolve⟩ := f.integer_read hdigits hne hends
  obtain ⟨htake, hdrop⟩ := hends.span hdigits
  have hread : readSign ((space ++ sign ++ (f.radixMark ++
      (List.replicate zeros '0'.toUInt8 ++ f.numeral)) ++
        (List.replicate pad ' '.toUInt8 ++ tail)).dropWhile isAsciiSpace) = (f.negative, _) :=
    readSign_of_form hspace hsign hform hne hdigits
  refine ⟨List.replicate zeros '0'.toUInt8 ++ f.numeral, pad, fun limit hlow hhigh => ?_, ?_⟩
  · rw [htext, List.append_assoc _ (List.replicate pad _),
      parseUnsignedMagnitude_eq hread hresolve hlow hhigh, htake, hdrop, if_pos hne]
  · rw [Subject.magnitude_eq]
    show Numeral.value f.base _ = f.magnitude
    rw [List.map_append, List.map_replicate, ← f.value_numeral]
    exact value_zeros f.base zeros _

/-- Only a zero with the precision zero is written without a digit. -/
theorem body_ne_nil (f : IntegerField)
    (h : f.magnitude ≠ 0 ∨ f.precision ≠ some 0 ∨
      (f.conversion = 'o'.toUInt8 ∧ f.flags.alternateForm = true)) : f.body ≠ [] := by
  intro hbody
  have hnumeral : f.numeral = [] := by
    obtain ⟨zeros, hzeros⟩ := f.body_eq
    rw [hbody] at hzeros
    exact (List.append_eq_nil_iff.mp hzeros.symm).2
  have hzero : f.magnitude = 0 ∧ f.precision = some 0 := by
    by_contra hother
    unfold numeral at hnumeral
    rw [if_neg hother, List.map_eq_nil_iff] at hnumeral
    exact Numeral.digits_ne_nil _ _ hnumeral
  rcases h with h | h | h
  · exact h hzero.1
  · exact h hzero.2
  · unfold body at hbody
    rw [hnumeral, hzero.2, Option.getD_some, List.length_nil, Nat.sub_self,
      if_pos ⟨h.1, h.2, by decide⟩] at hbody
    cases hbody

end IntegerField

/-! ## The round trip -/

/-- The value of a conversion to a signed type is a `long`. -/
theorem fieldValue_fits (t : IntegerText) (words : List Nat)
    (h : isSignedConversion t.conversion = true) : FitsCLong (t.fieldValue words) := by
  unfold IntegerText.fieldValue FitsCLong
  rw [if_pos h, Int.bmod_def]
  rcases t.length.bits_cases with hbits | hbits | hbits | hbits
  all_goals
    rw [hbits]
    omega

/-- **Round trip.**  What an integer conversion writes, whatever its flags, width, precision and
length, is read back by the `strto*` functions as the argument, converted to its type; they stop at
the padding, and leave `errno` alone. -/
theorem strto_writes (t : IntegerText) {st : FormatState (List UInt8)} {rest : List UInt8}
    {words : List Nat} {c' : VarArgCursor} {out : List UInt8}
    (hwords : argumentWords st.mem st.cursor t.argumentCount = some (words, c'))
    (hwrites : Writes st t rest c' out)
    (hnumber : t.fieldValue words ≠ 0 ∨ t.fieldPrecision words ≠ some 0 ∨
      (t.conversion = 'o'.toUInt8 ∧ (flagsOf t.flags).alternateForm = true))
    {tail : List UInt8} (htail : IntegerField.Ends (t.field words).base tail)
    (endptr : Option (List UInt8)) (errno : Int) :
    ∃ pad, strtoul (out ++ tail) endptr (t.field words).base errno =
        some ⟨t.fieldValue words % 2 ^ 64,
          endptr.map fun _ => List.replicate pad ' '.toUInt8 ++ tail, errno⟩ ∧
      (isSignedConversion t.conversion = true →
        strtol (out ++ tail) endptr (t.field words).base errno =
          some ⟨t.fieldValue words,
            endptr.map fun _ => List.replicate pad ' '.toUInt8 ++ tail, errno⟩) := by
  -- the text that was written is that of the field
  obtain ⟨d, hparse, happly⟩ := hwrites
  rw [parseFormatDirective_spell] at hparse
  cases hparse
  rw [applyDirective_integer t hwords] at happly
  split at happly
  case isFalse => cases happly
  have hout : out = (t.clampedField words).text :=
    (List.append_cancel_left (congrArg FormatState.sink (Except.ok.inj happly))).symm
  have hprecision :
      (t.clampedField words).precision = some 0 → t.fieldPrecision words = some 0 := by
    intro h
    obtain ⟨p, hp, hmin⟩ := Option.map_eq_some_iff.mp h
    have hzero : p = 0 := by
      unfold usizeMax at hmin
      omega
    rw [← hzero]
    exact hp
  have hbody := (t.clampedField words).body_ne_nil (by
    rcases hnumber with h | h | h
    · exact Or.inl (Int.natAbs_ne_zero.mpr h)
    · exact Or.inr (Or.inl fun hzero => h (hprecision hzero))
    · exact Or.inr (Or.inr h))
  obtain ⟨digits, pad, hfinds, hmagnitude⟩ := (t.clampedField words).finds_text hbody htail
  have hvalue : (if decide (t.fieldValue words < 0) = true then
      -((t.fieldValue words).natAbs : Int) else (t.fieldValue words).natAbs) =
        t.fieldValue words := by
    by_cases hneg : t.fieldValue words < 0
    · rw [if_pos (decide_eq_true hneg)]
      omega
    · rw [if_neg (by simpa using hneg)]
      omega
  rw [hout]
  refine ⟨pad, ?_, fun hsigned => ?_⟩
  · refine (strtoUnsigned_of_finds hfinds endptr errno).trans ?_
    have hfits : (t.clampedField words).magnitude ≤ C_ULONG_MAX :=
      Nat.le_of_lt_succ (fieldValue_lt t words)
    unfold Subject.unsignedResult
    rw [hmagnitude, if_pos hfits]
    dsimp only
    rw [show (t.clampedField words).negative = decide (t.fieldValue words < 0) from rfl,
      show (t.clampedField words).magnitude = (t.fieldValue words).natAbs from rfl, hvalue]
    rfl
  · refine (strtoSigned_of_finds hfinds endptr errno).trans ?_
    have hfits := fieldValue_fits t words hsigned
    unfold Subject.signedResult
    rw [hmagnitude]
    dsimp only
    rw [show (t.clampedField words).negative = decide (t.fieldValue words < 0) from rfl,
      show (t.clampedField words).magnitude = (t.fieldValue words).natAbs from rfl, hvalue,
      if_pos hfits]
    rfl

/-- `%+-6.3hhd` with the word 300 writes `+044` and two blanks, which `strtol` reads as 44. -/
theorem strto_writes_shortField :
    ∃ pad, strtol ("+044  \n".toList.map Char.toUInt8) (some []) 10 7 =
      some ⟨44, some (List.replicate pad ' '.toUInt8 ++ ['\n'.toUInt8]), 7⟩ := by
  have hwords : argumentWords (oneArgument 300).mem (oneArgument 300).cursor
      shortField.argumentCount = some ([300], ⟨48, 176, 0, 72⟩) := by decide +kernel
  have htext : (shortField.clampedField [300]).text = "+044  ".toList.map Char.toUInt8 := by
    decide +kernel
  have hwrites : Writes (oneArgument 300) shortField [] ⟨48, 176, 0, 72⟩
      ("+044  ".toList.map Char.toUInt8) := by
    refine ⟨shortField.directive, parseFormatDirective_spell shortField [], ?_⟩
    rw [applyDirective_integer shortField hwords, if_pos (by decide +kernel), htext]
  have htail : IntegerField.Ends (shortField.field [300]).base ['\n'.toUInt8] := by
    intro byte hbyte
    rw [List.head?_cons, Option.mem_some_iff] at hbyte
    rw [← hbyte]
    decide +kernel
  obtain ⟨pad, _, hsigned⟩ := strto_writes shortField hwords hwrites
    (Or.inl (by decide +kernel)) htail (some []) 7
  have hvalue : shortField.fieldValue [300] = 44 := by decide +kernel
  refine ⟨pad, ?_⟩
  rw [← hvalue]
  exact hsigned (by decide)

end Rlibc.Stdio
