import Rlibc.Stdio.FormatTokens

/-!
# The text of an integer conversion

What the C standard says that a field looks like, with its flags, width and precision, and that
the pieces which are pushed for it spell just this text.
-/

namespace Rlibc.Stdio

open ByteMem

/-- An integer to be written, and how. -/
structure IntegerField where
  conversion : UInt8
  flags : FormatFlags
  leftAlign : Bool
  width : Nat
  precision : Option Nat
  magnitude : Nat
  negative : Bool

namespace IntegerField

def base (f : IntegerField) : Nat :=
  if f.conversion = 'o'.toUInt8 then 8
  else if f.conversion = 'x'.toUInt8 ∨ f.conversion = 'X'.toUInt8 then 16
  else 10

/-- The digit characters. -/
def digitChars (f : IntegerField) : List Char :=
  if f.conversion = 'X'.toUInt8 then
    ['0', '1', '2', '3', '4', '5', '6', '7', '8', '9', 'A', 'B', 'C', 'D', 'E', 'F']
  else ['0', '1', '2', '3', '4', '5', '6', '7', '8', '9', 'a', 'b', 'c', 'd', 'e', 'f']

/-- A minus, or the sign that a flag asks for. -/
def sign (f : IntegerField) : List UInt8 :=
  if f.negative then ['-'.toUInt8]
  else if ¬isSignedConversion f.conversion then []
  else if f.flags.forceSign then ['+'.toUInt8]
  else if f.flags.leadingSpaceForPositive then [' '.toUInt8]
  else []

/-- `0x` and `0X` are for values other than zero. -/
def radixMark (f : IntegerField) : List UInt8 :=
  if ¬f.flags.alternateForm ∨ f.magnitude = 0 then []
  else if f.conversion = 'x'.toUInt8 then ['0'.toUInt8, 'x'.toUInt8]
  else if f.conversion = 'X'.toUInt8 then ['0'.toUInt8, 'X'.toUInt8]
  else []

/-- A zero has no digits if its precision is zero. -/
def numeral (f : IntegerField) : List UInt8 :=
  if f.magnitude = 0 ∧ f.precision = some 0 then []
  else (Numeral.digits f.base f.magnitude).map fun d => (f.digitChars.getD d '0').toUInt8

/-- At least as many digits as the precision says; an alternate octal starts with a zero. -/
def body (f : IntegerField) : List UInt8 :=
  let digits := List.replicate (f.precision.getD 0 - f.numeral.length) '0'.toUInt8 ++ f.numeral
  if f.conversion = 'o'.toUInt8 ∧ f.flags.alternateForm ∧ digits.head? ≠ some '0'.toUInt8 then
    '0'.toUInt8 :: digits
  else digits

def content (f : IntegerField) : List UInt8 := f.sign ++ f.radixMark ++ f.body

/-- The content, padded to the width. -/
def text (f : IntegerField) : List UInt8 :=
  let missing := f.width - f.content.length
  if f.leftAlign then f.content ++ List.replicate missing ' '.toUInt8
  else if f.flags.zeroPad ∧ f.precision = none then
    f.sign ++ f.radixMark ++ List.replicate missing '0'.toUInt8 ++ f.body
  else List.replicate missing ' '.toUInt8 ++ f.content

theorem text_length (f : IntegerField) : f.text.length = max f.width f.content.length := by
  have hcontent : f.content.length = f.sign.length + f.radixMark.length + f.body.length := by
    unfold content
    rw [List.length_append, List.length_append]
  unfold text
  dsimp only
  split
  · rw [List.length_append, List.length_replicate]
    omega
  · split
    · rw [List.length_append, List.length_append, List.length_append, List.length_replicate]
      omega
    · rw [List.length_append, List.length_replicate]
      omega

theorem precision_le_body (f : IntegerField) : f.precision.getD 0 ≤ f.body.length := by
  have hzeros : (List.replicate (f.precision.getD 0 - f.numeral.length) '0'.toUInt8 ++
      f.numeral).length = f.precision.getD 0 - f.numeral.length + f.numeral.length := by
    rw [List.length_append, List.length_replicate]
  unfold body
  dsimp only
  split
  · rw [List.length_cons]
    omega
  · omega

/-- The content is not shorter than the precision. -/
theorem precision_le (f : IntegerField) {p : Nat} (h : f.precision = some p) :
    p ≤ f.content.length := by
  have hbody := precision_le_body f
  rw [h, Option.getD_some] at hbody
  unfold content
  rw [List.length_append]
  omega

end IntegerField

/-! ## Pieces -/

@[simp] theorem Rendered.text_mk (m : Mem) (pieces : List Piece) (lengthSum : Nat) :
    (Rendered.mk pieces lengthSum).text m = pieces.flatMap fun p => p.text m := rfl

theorem repeated_text (m : Mem) (byte : UInt8) (count : Nat) :
    (if count > 0 then [Piece.repeated byte count] else []).flatMap (fun p => p.text m) =
      List.replicate count byte := by
  split
  · rw [List.flatMap_singleton]
    rfl
  · rename_i hzero
    rw [Nat.eq_zero_of_not_pos hzero]
    rfl

/-- The field of a number: its padding is before it, after it, or zeros inside. -/
theorem renderNumber_text (m : Mem) (leftAlign useZeroPad : Bool) (width : Nat)
    (sign radixMark : List UInt8) (zeros : Nat) (digits : List UInt8) :
    (renderNumber leftAlign useZeroPad width sign radixMark zeros digits).text m =
      let body := List.replicate zeros '0'.toUInt8 ++ digits
      let missing := width - (sign ++ radixMark ++ body).length
      if leftAlign then sign ++ radixMark ++ body ++ List.replicate missing ' '.toUInt8
      else if useZeroPad then
        sign ++ radixMark ++ List.replicate missing '0'.toUInt8 ++ body
      else List.replicate missing ' '.toUInt8 ++ (sign ++ radixMark ++ body) := by
  have hlength : (sign ++ radixMark ++ (List.replicate zeros '0'.toUInt8 ++ digits)).length =
      sign.length + radixMark.length + zeros + digits.length := by
    simp only [List.length_append, List.length_replicate]
    omega
  -- A padding piece is left out where nothing is missing.
  have hpad : ∀ byte : UInt8, ∀ content : Nat,
      (if width > content then [Piece.repeated byte (width - content)] else []).flatMap
        (fun p => p.text m) = List.replicate (width - content) byte := by
    intro byte content
    rw [← repeated_text m byte (width - content)]
    by_cases hwide : width > content
    · rw [if_pos hwide, if_pos (Nat.sub_pos_of_lt hwide)]
    · rw [if_neg hwide, if_neg (by omega)]
  unfold renderNumber
  dsimp only
  rw [hlength]
  -- The three places of the padding: behind, between the sign and the digits, in front.
  cases leftAlign with
  | true =>
    simp only [not_true_eq_false, false_and, if_false, true_and, if_true, List.nil_append,
      Rendered.text_mk, List.flatMap_append, hpad]
    simp only [List.flatMap_cons, List.flatMap_nil, Piece.text, List.append_nil, List.append_assoc]
  | false =>
    cases useZeroPad with
    | true =>
      simp only [not_true_eq_false, Bool.false_eq_true, not_false_eq_true, true_and, false_and,
        if_false, if_true, List.nil_append, List.append_nil, Rendered.text_mk,
        List.flatMap_append, hpad]
      simp only [List.flatMap_cons, List.flatMap_nil, Piece.text, List.append_nil,
        List.append_assoc]
    | false =>
      simp only [Bool.false_eq_true, not_false_eq_true, true_and, false_and, if_false,
        List.append_nil, Rendered.text_mk, List.flatMap_append, hpad]
      simp only [List.flatMap_cons, List.flatMap_nil, Piece.text, List.append_nil,
        List.append_assoc]

/-! ## Digits -/

theorem digitToAscii_upper : ∀ d < 16, digitToAscii d true =
    (['0', '1', '2', '3', '4', '5', '6', '7', '8', '9', 'A', 'B', 'C', 'D', 'E', 'F'].getD d
      '0').toUInt8 := by
  decide

theorem digitToAscii_lower : ∀ d < 16, digitToAscii d false =
    (['0', '1', '2', '3', '4', '5', '6', '7', '8', '9', 'a', 'b', 'c', 'd', 'e', 'f'].getD d
      '0').toUInt8 := by
  decide

/-- No digit but zero is written as `0`. -/
theorem digitToAscii_eq_zero : ∀ d < 16, digitToAscii d false = '0'.toUInt8 → d = 0 := by
  decide

namespace IntegerField

theorem base_bounds (f : IntegerField) : 1 < f.base ∧ f.base ≤ 16 := by
  unfold base
  split
  · decide
  · split
    · decide
    · decide

theorem numeral_eq (f : IntegerField) :
    f.numeral = if f.precision = some 0 ∧ f.magnitude = 0 then []
      else unsignedToAscii f.magnitude f.base (f.conversion = 'X'.toUInt8) := by
  have hdigits : (Numeral.digits f.base f.magnitude).map
      (fun d => (f.digitChars.getD d '0').toUInt8) =
        unsignedToAscii f.magnitude f.base (f.conversion = 'X'.toUInt8) := by
    unfold unsignedToAscii
    apply List.map_congr_left
    intro d hd
    have hlt : d < 16 := Nat.lt_of_lt_of_le (Numeral.digits_lt f.base_bounds.1 hd) f.base_bounds.2
    unfold digitChars
    by_cases hupper : f.conversion = 'X'.toUInt8
    · rw [if_pos hupper, decide_eq_true hupper]
      exact (digitToAscii_upper d hlt).symm
    · rw [if_neg hupper, decide_eq_false hupper]
      exact (digitToAscii_lower d hlt).symm
  unfold numeral
  by_cases hzero : f.magnitude = 0 ∧ f.precision = some 0
  · rw [if_pos hzero, if_pos hzero.symm]
  · rw [if_neg hzero, if_neg fun h => hzero h.symm, hdigits]

/-- An octal numeral of another number than zero has no zero in front. -/
theorem numeral_head (f : IntegerField) (hoctal : f.conversion = 'o'.toUInt8)
    (hmagnitude : f.magnitude ≠ 0) : f.numeral.head? ≠ some '0'.toUInt8 := by
  have hbase : f.base = 8 := if_pos hoctal
  have hlower : f.conversion ≠ 'X'.toUInt8 := by
    rw [hoctal]
    decide
  rw [numeral_eq, if_neg fun h => hmagnitude h.2, hbase, decide_eq_false hlower]
  unfold unsignedToAscii
  intro hhead
  cases hdigits : Numeral.digits 8 f.magnitude with
  | nil => exact Numeral.digits_ne_nil 8 f.magnitude hdigits
  | cons d ds =>
    rw [hdigits, List.map_cons, List.head?_cons, Option.some.injEq] at hhead
    have hlt : d < 8 := Numeral.digits_lt (by decide) (hdigits ▸ List.mem_cons_self)
    have hzero := digitToAscii_eq_zero d (by omega) hhead
    exact hmagnitude (Numeral.digits_head hdigits hzero)

theorem numeral_zero (f : IntegerField) (hmagnitude : f.magnitude = 0) (h : f.precision ≠ some 0) :
    f.numeral = ['0'.toUInt8] := by
  unfold numeral
  rw [if_neg fun hboth => h hboth.2, hmagnitude]
  change [(f.digitChars.getD 0 '0').toUInt8] = _
  unfold digitChars
  split
  · rfl
  · rfl

theorem numeral_length (f : IntegerField) (hmagnitude : f.magnitude < 2 ^ 64) :
    f.numeral.length ≤ 64 := by
  rw [numeral_eq]
  split
  · exact Nat.zero_le _
  · unfold unsignedToAscii
    rw [List.length_map]
    apply Numeral.digits_length_le f.base_bounds.1 _ (by decide)
    exact Nat.lt_of_lt_of_le hmagnitude (Nat.pow_le_pow_left f.base_bounds.1 64)

/-- Longer precisions are not exceeded. -/
theorem body_length_le (f : IntegerField) (hmagnitude : f.magnitude < 2 ^ 64) :
    f.body.length ≤ max (f.precision.getD 0) 65 := by
  have hnumeral := numeral_length f hmagnitude
  have hzeros : (List.replicate (f.precision.getD 0 - f.numeral.length) '0'.toUInt8 ++
      f.numeral).length = f.precision.getD 0 - f.numeral.length + f.numeral.length := by
    rw [List.length_append, List.length_replicate]
  unfold body
  dsimp only
  by_cases hlong : f.precision.getD 0 ≤ f.numeral.length
  · split
    · rw [List.length_cons]
      omega
    · omega
  · -- there is a zero in front already
    have hhead : (List.replicate (f.precision.getD 0 - f.numeral.length) '0'.toUInt8 ++
        f.numeral).head? = some '0'.toUInt8 := by
      rw [List.head?_append, List.head?_replicate, if_neg (by omega)]
      rfl
    rw [if_neg fun h => h.2.2 hhead]
    omega

/-- The zeros in front of an alternate octal numeral: what its precision misses, or the one that
the alternate form is about. -/
theorem octal_body (f : IntegerField) (hoctal : f.conversion = 'o'.toUInt8)
    (hflag : f.flags.alternateForm = true) :
    f.body = List.replicate (
      if f.magnitude = 0 then
        if f.precision = some 0 then 1 else f.precision.getD 0 - f.numeral.length
      else max (f.precision.getD 0) (f.numeral.length + 1) - f.numeral.length) '0'.toUInt8 ++
        f.numeral := by
  unfold body
  dsimp only
  by_cases hmagnitude : f.magnitude = 0
  · rw [if_pos hmagnitude]
    by_cases hprecision : f.precision = some 0
    · have hnil : f.numeral = [] := if_pos ⟨hmagnitude, hprecision⟩
      rw [if_pos hprecision, hnil, hprecision]
      rw [if_pos ⟨hoctal, hflag, by decide⟩]
      rfl
    · rw [if_neg hprecision, numeral_zero f hmagnitude hprecision, if_neg]
      rintro ⟨-, -, hhead⟩
      apply hhead
      cases f.precision.getD 0 - ['0'.toUInt8].length with
      | zero => rfl
      | succ k => rw [List.replicate_succ, List.cons_append, List.head?_cons]
  · rw [if_neg hmagnitude]
    have hhead := numeral_head f hoctal hmagnitude
    by_cases hlong : f.precision.getD 0 ≤ f.numeral.length
    · have hone : max (f.precision.getD 0) (f.numeral.length + 1) - f.numeral.length = 1 := by omega
      rw [hone, Nat.sub_eq_zero_of_le hlong, List.replicate_zero, List.nil_append,
        if_pos ⟨hoctal, hflag, hhead⟩]
      rfl
    · have hmore : max (f.precision.getD 0) (f.numeral.length + 1) - f.numeral.length =
          f.precision.getD 0 - f.numeral.length := by omega
      rw [hmore, if_neg]
      rintro ⟨-, -, hzero⟩
      apply hzero
      obtain ⟨k, hk⟩ : ∃ k, f.precision.getD 0 - f.numeral.length = k + 1 :=
        ⟨f.precision.getD 0 - f.numeral.length - 1, by omega⟩
      rw [hk, List.replicate_succ, List.cons_append, List.head?_cons]

end IntegerField

/-! ## The renderer -/

/-- The field of a directive with its width, precision and argument. -/
def FormatDirective.field (d : FormatDirective) (leftAlign : Bool) (width : Nat)
    (precision : Option Nat) (magnitude : Nat) (negative : Bool) : IntegerField :=
  ⟨d.conversion, d.flags, leftAlign, width, precision, magnitude, negative⟩

section

variable (d : FormatDirective) (leftAlign : Bool) (width : Nat) (precision : Option Nat)
  (magnitude : Nat) (negative : Bool)

theorem field_sign :
    (d.field leftAlign width precision magnitude negative).sign = integerSign d negative := by
  change (if negative = true then _ else if ¬isSignedConversion d.conversion = true then _ else
    if d.flags.forceSign = true then _ else if d.flags.leadingSpaceForPositive = true then _
    else _) = _
  unfold integerSign
  cases negative with
  | true => rfl
  | false =>
    by_cases hsigned : isSignedConversion d.conversion = true
    · simp only [hsigned, Bool.false_eq_true, not_true_eq_false, if_false, true_and]
    · simp only [hsigned, Bool.false_eq_true, not_false_eq_true, if_true, false_and, if_false]

theorem field_numeral :
    (d.field leftAlign width precision magnitude negative).numeral =
      integerDigits d.conversion precision magnitude := by
  have hbase : (d.field leftAlign width precision magnitude negative).base =
      integerBase d.conversion := by
    change (if d.conversion = 'o'.toUInt8 then 8 else
      if d.conversion = 'x'.toUInt8 ∨ d.conversion = 'X'.toUInt8 then 16 else 10) = _
    unfold integerBase
    by_cases hoctal : d.conversion = 'o'.toUInt8
    · have hhex : ¬(d.conversion = 'x'.toUInt8 ∨ d.conversion = 'X'.toUInt8) := by
        rw [hoctal]
        decide
      rw [if_pos hoctal, if_neg hhex, if_pos hoctal]
    · rw [if_neg hoctal, if_neg hoctal]
  rw [IntegerField.numeral_eq, hbase]
  rfl

theorem octalAlternatePrefix_eq (h : d.octalAlternate = true) :
    octalAlternatePrefix d precision magnitude =
      if magnitude = 0 ∧ precision = some 0 ∨ magnitude ≠ 0 ∧ precision = none then
        ['0'.toUInt8]
      else [] := by
  unfold octalAlternatePrefix
  simp only [h, true_and]

theorem effectivePrecision_eq (h : d.octalAlternate = true) (digitsLen : Nat) :
    effectivePrecision d precision magnitude digitsLen =
      if magnitude ≠ 0 ∧ precision.isSome = true then
        some (max (precision.getD 0) (saturatingAdd digitsLen 1))
      else precision := by
  unfold effectivePrecision
  simp only [h, true_and]

/-- Without `%#o` the mark is the standard's, and the zeros are those of the precision. -/
theorem field_plain (h : d.octalAlternate = false) :
    integerPrefix d precision magnitude =
      (d.field leftAlign width precision magnitude negative).radixMark ∧
    (d.field leftAlign width precision magnitude negative).body =
      List.replicate (precision.getD 0 -
        (integerDigits d.conversion precision magnitude).length) '0'.toUInt8 ++
        integerDigits d.conversion precision magnitude ∧
    ∀ n, effectivePrecision d precision magnitude n = precision := by
  have hplain : ¬(d.conversion = 'o'.toUInt8 ∧ d.flags.alternateForm = true) :=
    of_decide_eq_false h
  have hnone : octalAlternatePrefix d precision magnitude = [] := by
    unfold octalAlternatePrefix
    simp only [h, Bool.false_eq_true, false_and, if_false]
  constructor
  · unfold integerPrefix IntegerField.radixMark
    rw [hnone]
    change _ = if ¬d.flags.alternateForm = true ∨ magnitude = 0 then [] else
      if d.conversion = 'x'.toUInt8 then _ else if d.conversion = 'X'.toUInt8 then _ else _
    by_cases hflag : d.flags.alternateForm = true
    · have hoctal : d.conversion ≠ 'o'.toUInt8 := fun heq => hplain ⟨heq, hflag⟩
      by_cases hzero : magnitude = 0
      · simp only [hzero, ne_eq, not_true_eq_false, and_false, or_true, if_false, if_true]
      · simp only [hflag, hzero, hoctal, ne_eq, not_true_eq_false, not_false_eq_true, and_self,
          or_self, if_false, if_true]
    · simp only [hflag, Bool.false_eq_true, false_and, not_false_eq_true, true_or, if_false,
        if_true]
  constructor
  · rw [← field_numeral d leftAlign width precision magnitude negative]
    exact if_neg fun hall => hplain ⟨hall.1, hall.2.1⟩
  · intro n
    unfold effectivePrecision
    simp only [h, Bool.false_eq_true, false_and, if_false]

/-- With `%#o` the zeros of the prefix and of the precision are those of the standard. -/
theorem field_octal (h : d.octalAlternate = true) (hmagnitude : magnitude < 2 ^ 64) :
    ∃ mark zeros,
      integerPrefix d precision magnitude = List.replicate mark '0'.toUInt8 ∧
      (effectivePrecision d precision magnitude
        (integerDigits d.conversion precision magnitude).length).elim 0
          (fun target => target - (integerDigits d.conversion precision magnitude).length) =
            zeros ∧
      (d.field leftAlign width precision magnitude negative).radixMark = [] ∧
      (d.field leftAlign width precision magnitude negative).body =
        List.replicate (mark + zeros) '0'.toUInt8 ++
          integerDigits d.conversion precision magnitude ∧
      (effectivePrecision d precision magnitude
        (integerDigits d.conversion precision magnitude).length = none ↔ precision = none) := by
  obtain ⟨hoctal, hflag⟩ : d.conversion = 'o'.toUInt8 ∧ d.flags.alternateForm = true :=
    of_decide_eq_true h
  have hbody := IntegerField.octal_body (d.field leftAlign width precision magnitude negative)
    hoctal hflag
  have hshort := IntegerField.numeral_length (d.field leftAlign width precision magnitude negative)
    hmagnitude
  rw [field_numeral] at hbody hshort
  -- The `0` of the octal form counts as a digit of the precision.
  generalize hn : (integerDigits d.conversion precision magnitude).length = n at hbody hshort ⊢
  have hadd : saturatingAdd n 1 = n + 1 :=
    saturatingAdd_of_le (Nat.le_trans (Nat.succ_le_succ hshort) (by decide))
  have hmark : (d.field leftAlign width precision magnitude negative).radixMark = [] := by
    have hx : d.conversion ≠ 'x'.toUInt8 ∧ d.conversion ≠ 'X'.toUInt8 := by
      rw [hoctal]
      decide
    unfold IntegerField.radixMark
    split
    · rfl
    · exact (if_neg hx.1).trans (if_neg hx.2)
  have hpre : integerPrefix d precision magnitude = octalAlternatePrefix d precision magnitude := by
    unfold integerPrefix
    rw [if_pos hoctal, ite_self]
  change (d.field leftAlign width precision magnitude negative).body = List.replicate (
    if magnitude = 0 then if precision = some 0 then 1 else precision.getD 0 - n
    else max (precision.getD 0) (n + 1) - n) '0'.toUInt8 ++ _ at hbody
  rw [hpre, octalAlternatePrefix_eq d precision magnitude h,
    effectivePrecision_eq d precision magnitude h, hadd, hbody]
  -- A zero magnitude has its one digit already, unless the precision says to print none.
  by_cases hzero : magnitude = 0
  · subst hzero
    simp only [ne_eq, not_true_eq_false, false_and, true_and, or_false, if_false, if_true]
    by_cases hnone : precision = some 0
    · refine ⟨1, 0, if_pos hnone, ?_, hmark, ?_, trivial⟩
      · rw [hnone]
        exact Nat.zero_sub n
      · rw [if_pos hnone]
    · refine ⟨0, precision.getD 0 - n, if_neg hnone, ?_, hmark, ?_, trivial⟩
      · cases precision with
        | none => exact (Nat.zero_sub n).symm
        | some p => rfl
      · rw [if_neg hnone, Nat.zero_add]
  · simp only [hzero, ne_eq, not_false_eq_true, false_and, true_and, false_or, if_false]
    cases precision with
    | none =>
      refine ⟨1, 0, rfl, rfl, hmark, ?_, iff_of_true rfl rfl⟩
      have hone : max 0 (n + 1) - n = 1 := by omega
      rw [Option.getD_none, hone]
    | some p =>
      refine ⟨0, max p (n + 1) - n, rfl, rfl, hmark, ?_, ?_⟩
      · rw [Nat.zero_add]
        rfl
      · exact iff_of_false (Option.some_ne_none _) (Option.some_ne_none _)

/-- **The renderer writes the text of the field.** -/
theorem renderFormattedInteger_text (m : Mem) (hmagnitude : magnitude < 2 ^ 64) :
    (renderFormattedInteger d leftAlign width precision magnitude negative).text m =
        (d.field leftAlign width precision magnitude negative).text ∧
      (renderFormattedInteger d leftAlign width precision magnitude negative).lengthSum =
        (d.field leftAlign width precision magnitude negative).content.length := by
  -- What the mark and the zeros of the renderer come to, with or without a padding between.
  have hparts : ∃ zeros,
      (effectivePrecision d precision magnitude
        (integerDigits d.conversion precision magnitude).length).elim 0
          (fun target => target - (integerDigits d.conversion precision magnitude).length) =
            zeros ∧
      (effectivePrecision d precision magnitude
        (integerDigits d.conversion precision magnitude).length = none ↔ precision = none) ∧
      ∀ missing, integerPrefix d precision magnitude ++ (List.replicate missing '0'.toUInt8 ++
        (List.replicate zeros '0'.toUInt8 ++ integerDigits d.conversion precision magnitude)) =
          (d.field leftAlign width precision magnitude negative).radixMark ++
            (List.replicate missing '0'.toUInt8 ++
              (d.field leftAlign width precision magnitude negative).body) := by
    cases h : d.octalAlternate with
    | false =>
      obtain ⟨hmark, hbody, heffective⟩ :=
        field_plain d leftAlign width precision magnitude negative h
      refine ⟨_, rfl, by rw [heffective], fun missing => ?_⟩
      rw [heffective, hmark, hbody]
      cases precision with
      | none =>
        rw [Option.getD_none, Nat.zero_sub]
        rfl
      | some p => rfl
    | true =>
      obtain ⟨mark, zeros, hpre, hzeros, hmark, hbody, hnone⟩ :=
        field_octal d leftAlign width precision magnitude negative h hmagnitude
      refine ⟨zeros, hzeros, hnone, fun missing => ?_⟩
      rw [hpre, hmark, hbody, List.nil_append]
      simp only [← List.append_assoc, List.replicate_append_replicate]
      rw [Nat.add_left_comm]
  obtain ⟨zeros, hzeros, hnone, hinside⟩ := hparts
  have hcontent : integerSign d negative ++ integerPrefix d precision magnitude ++
      (List.replicate zeros '0'.toUInt8 ++ integerDigits d.conversion precision magnitude) =
        (d.field leftAlign width precision magnitude negative).content := by
    unfold IntegerField.content
    rw [field_sign, List.append_assoc, List.append_assoc]
    exact congrArg _ (hinside 0)
  unfold renderFormattedInteger
  dsimp only
  rw [hzeros]
  constructor
  · rw [renderNumber_text]
    dsimp only
    rw [hcontent]
    unfold IntegerField.text
    dsimp only
    change (if leftAlign = true then _ else _) = if leftAlign = true then _ else
      if d.flags.zeroPad = true ∧ precision = none then _ else _
    cases hleft : leftAlign with
    | true => rfl
    | false =>
      simp only [Bool.false_eq_true, if_false, not_false_eq_true, true_and, hnone,
        decide_eq_true_eq]
      split
      · rw [field_sign, List.append_assoc, List.append_assoc, List.append_assoc,
          List.append_assoc]
        subst hleft
        exact congrArg _ (hinside _)
      · subst hleft
        rfl
  · rw [← hcontent]
    change _ + _ + _ + _ = _
    rw [List.length_append, List.length_append, List.length_append, List.length_replicate,
      Nat.add_assoc]

end

end Rlibc.Stdio
