import Rlibc.Stdio.IntegerFields

/-!
# Integer conversions

A conversion as it is spelled in a format, with numbers of any size, and what the C standard makes
of it and of the words that are passed for it.
-/

namespace Rlibc.Stdio

open ByteMem

/-! ## Spelling -/

/-- A width or a precision: an asterisk, or decimal digits. -/
inductive CountText where
  | star
  | decimal (digits : List Nat)
deriving DecidableEq

def CountText.spell : CountText → List UInt8
  | star => ['*'.toUInt8]
  | decimal digits => digits.map fun d => UInt8.ofNat (48 + d)

/-- What the parser keeps of it. -/
def CountText.spec : CountText → CountSpec
  | star => .fromArgs
  | decimal digits => .literal (min (Numeral.value 10 digits) usizeMax)

def LengthModifier.spell : LengthModifier → List UInt8
  | default => []
  | hh => ['h'.toUInt8, 'h'.toUInt8]
  | h => ['h'.toUInt8]
  | l => ['l'.toUInt8]
  | ll => ['l'.toUInt8, 'l'.toUInt8]
  | j => ['j'.toUInt8]
  | t => ['t'.toUInt8]
  | z => ['z'.toUInt8]

def flagBytes : List UInt8 :=
  ['-'.toUInt8, '+'.toUInt8, ' '.toUInt8, '0'.toUInt8, '#'.toUInt8]

/-- The flags that stand in a list of flag characters. -/
def flagsOf (bytes : List UInt8) : FormatFlags :=
  ⟨'-'.toUInt8 ∈ bytes, '+'.toUInt8 ∈ bytes, ' '.toUInt8 ∈ bytes, '0'.toUInt8 ∈ bytes,
    '#'.toUInt8 ∈ bytes⟩

/-- An integer conversion as it is written after its `%`. -/
structure IntegerText where
  flags : List UInt8
  width : Option CountText
  precision : Option CountText
  length : LengthModifier
  conversion : UInt8
  flags_mem : ∀ byte ∈ flags, byte ∈ flagBytes
  /-- A zero in front is a flag. -/
  width_digits : ∀ digits, width = some (.decimal digits) →
    digits.headD 0 ≠ 0 ∧ ∀ d ∈ digits, d < 10
  precision_digits : ∀ digits, precision = some (.decimal digits) → ∀ d ∈ digits, d < 10
  integer : isIntegerConversion conversion = true
  accepted : conversionAllowed (flagsOf flags) length conversion = true

namespace IntegerText

def spell (t : IntegerText) : List UInt8 :=
  t.flags ++ (t.width.elim [] CountText.spell ++
    (t.precision.elim [] (fun count => '.'.toUInt8 :: count.spell) ++
      (t.length.spell ++ [t.conversion])))

/-- The directive that it is read as. -/
def directive (t : IntegerText) : FormatDirective :=
  ⟨flagsOf t.flags, t.width.map CountText.spec, t.precision.map CountText.spec, t.length,
    t.conversion⟩

end IntegerText

/-! ## Parsing what is spelled -/

theorem set_eq_none (flags : FormatFlags) {byte : UInt8} (h : byte ∉ flagBytes) :
    flags.set byte = none := by
  unfold flagBytes at h
  simp only [List.mem_cons, List.not_mem_nil, or_false, not_or] at h
  obtain ⟨hminus, hplus, hspace, hzero, hhash⟩ := h
  unfold FormatFlags.set
  rw [if_neg hminus, if_neg hplus, if_neg hspace, if_neg hzero, if_neg hhash]

theorem parseFlags_append (flags : FormatFlags) {bytes rest : List UInt8}
    (hbytes : ∀ byte ∈ bytes, byte ∈ flagBytes)
    (hrest : ∀ byte, rest.head? = some byte → byte ∉ flagBytes) :
    parseFlags flags (bytes ++ rest) =
      (⟨flags.leftAlign || (flagsOf bytes).leftAlign, flags.forceSign || (flagsOf bytes).forceSign,
        flags.leadingSpaceForPositive || (flagsOf bytes).leadingSpaceForPositive,
        flags.zeroPad || (flagsOf bytes).zeroPad,
        flags.alternateForm || (flagsOf bytes).alternateForm⟩, rest) := by
  induction bytes generalizing flags with
  | nil =>
    have hnone : parseFlags flags rest = (flags, rest) := by
      cases rest with
      | nil => rfl
      | cons byte rest =>
        unfold parseFlags
        rw [set_eq_none flags (hrest byte rfl)]
    rw [List.nil_append, hnone]
    simp only [flagsOf, List.not_mem_nil, decide_false, Bool.or_false]
  | cons byte bytes ih =>
    have hbyte := hbytes byte List.mem_cons_self
    have hother := fun flags => ih flags fun b hb => hbytes b (List.mem_cons_of_mem byte hb)
    have hset : flags.set byte = some
        ⟨flags.leftAlign || byte = '-'.toUInt8, flags.forceSign || byte = '+'.toUInt8,
          flags.leadingSpaceForPositive || byte = ' '.toUInt8, flags.zeroPad || byte = '0'.toUInt8,
          flags.alternateForm || byte = '#'.toUInt8⟩ := by
      unfold flagBytes at hbyte
      simp only [List.mem_cons, List.not_mem_nil, or_false] at hbyte
      rcases hbyte with rfl | rfl | rfl | rfl | rfl
      all_goals
        unfold FormatFlags.set
        simp +decide
    rw [List.cons_append, parseFlags, hset]
    dsimp only
    rw [hother]
    simp only [flagsOf, List.mem_cons, eq_comm (a := byte), Bool.decide_or, Bool.or_assoc]

/-- The value so far and the digits that follow, as the saturating loop adds them up. -/
theorem parseDigits_append {digits : List Nat} {rest : List UInt8} (value : Nat)
    (hdigits : ∀ d ∈ digits, d < 10)
    (hrest : ∀ byte, rest.head? = some byte → isAsciiDigit byte = false) :
    parseDigits (min value usizeMax) (CountText.spell (.decimal digits) ++ rest) =
      (min (digits.foldl (fun v d => v * 10 + d) value) usizeMax, rest) := by
  induction digits generalizing value with
  | nil =>
    cases rest with
    | nil => rfl
    | cons byte rest =>
      change parseDigits _ (byte :: rest) = _
      rw [parseDigits, if_neg (Bool.eq_false_iff.mp (hrest byte rfl))]
      rfl
  | cons d digits ih =>
    have hd : d < 10 := hdigits d List.mem_cons_self
    have hbyte : (UInt8.ofNat (48 + d)).toNat = 48 + d :=
      UInt8.toNat_ofNat_of_lt' (by change 48 + d < 256; omega)
    have hdigit : isAsciiDigit (UInt8.ofNat (48 + d)) = true := by
      unfold isAsciiDigit
      rw [decide_eq_true_eq, UInt8.le_iff_toNat_le, UInt8.le_iff_toNat_le, hbyte]
      exact ⟨Nat.le_add_right 48 d, by change 48 + d ≤ 57; omega⟩
    have hvalue : saturatingAdd (saturatingMul (min value usizeMax) 10) (48 + d - 48) =
        min (value * 10 + d) usizeMax := by
      unfold saturatingAdd saturatingMul usizeMax
      omega
    change parseDigits _ (UInt8.ofNat (48 + d) :: (CountText.spell (.decimal digits) ++ rest)) = _
    rw [parseDigits, if_pos hdigit, hbyte, hvalue,
      ih _ fun e he => hdigits e (List.mem_cons_of_mem d he)]
    rfl

theorem parseCount_none {rest : List UInt8} (hstar : rest.head? ≠ some '*'.toUInt8)
    (hrest : ∀ byte, rest.head? = some byte → isAsciiDigit byte = false) :
    parseCount rest = (none, rest) := by
  unfold parseCount
  rw [if_neg hstar]
  cases rest with
  | nil => rfl
  | cons byte rest =>
    rw [parseNumber, if_neg (Bool.eq_false_iff.mp (hrest byte rfl))]

theorem spell_head {d : Nat} {digits : List Nat} (rest : List UInt8) :
    (CountText.spell (.decimal (d :: digits)) ++ rest).head? = some (UInt8.ofNat (48 + d)) := rfl

theorem isAsciiDigit_ofNat {d : Nat} (hd : d < 10) :
    isAsciiDigit (UInt8.ofNat (48 + d)) = true ∧ UInt8.ofNat (48 + d) ≠ '*'.toUInt8 ∧
      (d ≠ 0 → UInt8.ofNat (48 + d) ∉ flagBytes) := by
  interval_cases d
  all_goals decide

theorem parseCount_decimal {d : Nat} {digits : List Nat} {rest : List UInt8}
    (hdigits : ∀ e ∈ d :: digits, e < 10)
    (hrest : ∀ byte, rest.head? = some byte → isAsciiDigit byte = false) :
    parseCount (CountText.spell (.decimal (d :: digits)) ++ rest) =
      (some (CountText.spec (.decimal (d :: digits))), rest) := by
  obtain ⟨hdigit, hstar, -⟩ := isAsciiDigit_ofNat (hdigits d List.mem_cons_self)
  have hnumber : parseNumber (CountText.spell (.decimal (d :: digits)) ++ rest) =
      some (min (Numeral.value 10 (d :: digits)) usizeMax, rest) := by
    change (if isAsciiDigit (UInt8.ofNat (48 + d)) = true then some (parseDigits 0
      (CountText.spell (.decimal (d :: digits)) ++ rest)) else none) = _
    rw [if_pos hdigit]
    exact congrArg some (parseDigits_append 0 hdigits hrest)
  unfold parseCount
  rw [if_neg, hnumber]
  · rfl
  · rw [spell_head, Option.some.injEq]
    exact hstar

/-- What may follow a count: neither a digit, an asterisk nor a flag. -/
def EndsCount (bytes : List UInt8) : Prop :=
  ∀ byte, bytes.head? = some byte →
    isAsciiDigit byte = false ∧ byte ≠ '*'.toUInt8 ∧ byte ∉ flagBytes

theorem EndsCount.cons {byte : UInt8} {bytes : List UInt8}
    (h : isAsciiDigit byte = false ∧ byte ≠ '*'.toUInt8 ∧ byte ∉ flagBytes) :
    EndsCount (byte :: bytes) := by
  intro b hb
  rw [List.head?_cons, Option.some.injEq] at hb
  rw [← hb]
  exact h

theorem integer_cases {conversion : UInt8} (h : isIntegerConversion conversion = true) :
    conversion = 'd'.toUInt8 ∨ conversion = 'i'.toUInt8 ∨ conversion = 'u'.toUInt8 ∨
      conversion = 'x'.toUInt8 ∨ conversion = 'X'.toUInt8 ∨ conversion = 'o'.toUInt8 := by
  have hmem := of_decide_eq_true h
  simpa only [List.mem_cons, List.not_mem_nil, or_false] using hmem

theorem parseLengthModifier_spell (length : LengthModifier) {conversion : UInt8}
    (h : isIntegerConversion conversion = true) (rest : List UInt8) :
    parseLengthModifier (length.spell ++ conversion :: rest) = some (length, conversion :: rest) ∧
      EndsCount (length.spell ++ conversion :: rest) ∧
      (length.spell ++ conversion :: rest).head? ≠ some '.'.toUInt8 := by
  rcases integer_cases h with rfl | rfl | rfl | rfl | rfl | rfl
  all_goals
    cases length
    all_goals exact ⟨rfl, EndsCount.cons (by decide),
      fun hdot => absurd (Option.some.inj hdot) (by decide)⟩

theorem parsePrecision_spell {precision : Option CountText} {rest : List UInt8}
    (hdigits : ∀ digits, precision = some (.decimal digits) → ∀ d ∈ digits, d < 10)
    (hends : EndsCount rest) (hdot : rest.head? ≠ some '.'.toUInt8) :
    parsePrecision (precision.elim [] (fun count => '.'.toUInt8 :: count.spell) ++ rest) =
        (precision.map CountText.spec, rest) ∧
      EndsCount (precision.elim [] (fun count => '.'.toUInt8 :: count.spell) ++ rest) := by
  cases precision with
  | none => exact ⟨if_neg hdot, hends⟩
  | some count =>
    refine ⟨?_, EndsCount.cons (by decide)⟩
    change (let r := parseCount (count.spell ++ rest); (some (r.1.getD (.literal 0)), r.2)) = _
    cases count with
    | star => rfl
    | decimal digits =>
      cases digits with
      | nil =>
        have hnone : parseCount rest = (none, rest) :=
          parseCount_none (fun h => (hends _ h).2.1 rfl) fun byte h => (hends byte h).1
        change (let r := parseCount rest; (some (r.1.getD (.literal 0)), r.2)) = _
        rw [hnone]
        rfl
      | cons d digits =>
        rw [parseCount_decimal (hdigits _ rfl) fun byte h => (hends byte h).1]
        rfl

theorem parseWidth_spell {width : Option CountText} {rest : List UInt8}
    (hdigits : ∀ digits, width = some (.decimal digits) →
      digits.headD 0 ≠ 0 ∧ ∀ d ∈ digits, d < 10) (hends : EndsCount rest) :
    parseCount (width.elim [] CountText.spell ++ rest) = (width.map CountText.spec, rest) ∧
      ∀ byte, (width.elim [] CountText.spell ++ rest).head? = some byte → byte ∉ flagBytes := by
  cases width with
  | none =>
    exact ⟨parseCount_none (fun h => (hends _ h).2.1 rfl) fun byte h => (hends byte h).1,
      fun byte h => (hends byte h).2.2⟩
  | some count =>
    cases count with
    | star =>
      refine ⟨rfl, fun byte h => ?_⟩
      cases h
      decide
    | decimal digits =>
      obtain ⟨hhead, hall⟩ := hdigits digits rfl
      cases digits with
      | nil => exact absurd rfl hhead
      | cons d digits =>
        refine ⟨parseCount_decimal hall fun byte h => (hends byte h).1, fun byte h => ?_⟩
        have hflag := (isAsciiDigit_ofNat (hall d List.mem_cons_self)).2.2 hhead
        change some (UInt8.ofNat (48 + d)) = some byte at h
        rwa [← Option.some.inj h]

/-- A conversion is read as its directive. -/
theorem parseFormatDirective_spell (t : IntegerText) (rest : List UInt8) :
    parseFormatDirective (t.spell ++ rest) = some (t.directive, rest) := by
  obtain ⟨hlength, hends, hdot⟩ := parseLengthModifier_spell t.length t.integer rest
  obtain ⟨hprecision, hends⟩ := parsePrecision_spell t.precision_digits hends hdot
  obtain ⟨hwidth, hflags⟩ := parseWidth_spell t.width_digits hends
  have hspell : t.spell ++ rest = t.flags ++ (t.width.elim [] CountText.spell ++
      (t.precision.elim [] (fun count => '.'.toUInt8 :: count.spell) ++
        (t.length.spell ++ t.conversion :: rest))) := by
    unfold IntegerText.spell
    simp only [List.append_assoc, List.singleton_append]
  have hall := parseFlags_append ⟨false, false, false, false, false⟩ t.flags_mem hflags
  simp only [Bool.false_or] at hall
  unfold parseFormatDirective
  dsimp only
  rw [hspell, hall]
  dsimp only
  rw [hwidth]
  dsimp only
  rw [hprecision]
  dsimp only
  rw [hlength]
  exact if_pos t.accepted

/-! ## Arguments -/

/-- The next words of an argument list, and the cursor behind them. -/
def argumentWords (m : Mem) : VarArgCursor → Nat → Option (List Nat × VarArgCursor)
  | c, 0 => some ([], c)
  | c, n + 1 => (c.nextU64 m).bind fun r =>
    (argumentWords m r.2 n).map fun s => (r.1 :: s.1, s.2)

/-- The bits of the type that a modifier stands for. -/
def LengthModifier.bits : LengthModifier → Nat
  | default => 32
  | hh => 8
  | h => 16
  | _ => 64

/-- An argument word as an `int`. -/
def cInt (word : Nat) : Int := Int.bmod word (2 ^ 32)

namespace IntegerText

/-- Words for the asterisks, then the integer. -/
def argumentCount (t : IntegerText) : Nat :=
  (if t.width = some .star then 1 else 0) + ((if t.precision = some .star then 1 else 0) + 1)

/-- The width and the alignment: a negative argument is a flag `-` and its absolute value. -/
def fieldWidth (t : IntegerText) (words : List Nat) : Nat × Bool :=
  match t.width with
  | none => (0, (flagsOf t.flags).leftAlign)
  | some (.decimal digits) => (Numeral.value 10 digits, (flagsOf t.flags).leftAlign)
  | some .star =>
    ((cInt (words.headD 0)).natAbs, (flagsOf t.flags).leftAlign ∨ cInt (words.headD 0) < 0)

/-- The words behind that of the width. -/
def afterWidth (t : IntegerText) (words : List Nat) : List Nat :=
  if t.width = some .star then words.tail else words

/-- A negative argument is taken as if the precision were omitted. -/
def fieldPrecision (t : IntegerText) (words : List Nat) : Option Nat :=
  match t.precision with
  | none => none
  | some (.decimal digits) => some (Numeral.value 10 digits)
  | some .star =>
    if cInt ((t.afterWidth words).headD 0) < 0 then none
    else some (cInt ((t.afterWidth words).headD 0)).toNat

/-- The argument, converted to the type of the modifier. -/
def fieldValue (t : IntegerText) (words : List Nat) : Int :=
  if isSignedConversion t.conversion then Int.bmod (words.getLastD 0) (2 ^ t.length.bits)
  else (words.getLastD 0 % 2 ^ t.length.bits : Nat)

/-- The field of the standard. -/
def field (t : IntegerText) (words : List Nat) : IntegerField where
  conversion := t.conversion
  flags := flagsOf t.flags
  leftAlign := (t.fieldWidth words).2
  width := (t.fieldWidth words).1
  precision := t.fieldPrecision words
  magnitude := (t.fieldValue words).natAbs
  negative := t.fieldValue words < 0

end IntegerText

theorem cInt_bounds (word : Nat) : -2 ^ 31 ≤ cInt word ∧ cInt word < 2 ^ 31 := by
  unfold cInt
  rw [Int.bmod_def]
  omega

theorem nextU64_lt {m : Mem} {c : VarArgCursor} {r : Nat × VarArgCursor}
    (h : c.nextU64 m = some r) : r.1 < 2 ^ 64 := by
  unfold VarArgCursor.nextU64 at h
  obtain ⟨slot, -, hslot⟩ := Option.map_eq_some_iff.mp h
  rw [← hslot]
  exact natAt_lt m 8 slot.1

theorem nextCInt_eq {m : Mem} {c : VarArgCursor} :
    c.nextCInt m = (c.nextU64 m).map fun r => (cInt r.1, r.2) := by
  unfold VarArgCursor.nextCInt VarArgCursor.nextU32 cInt
  cases c.nextU64 m with
  | none => rfl
  | some r =>
    simp only [Option.map_some, Int.natCast_emod]
    exact congrArg (fun v => some (v, r.2)) (Int.emod_bmod r.1 (2 ^ 32))

theorem readSignedArgument_eq (m : Mem) (c : VarArgCursor) (length : LengthModifier) :
    readSignedArgument m c length =
      (c.nextU64 m).map fun r => (Int.bmod r.1 (2 ^ length.bits), r.2) := by
  have hint : ∀ k, k ≤ 32 → (c.nextCInt m).map (fun r => (Int.bmod r.1 (2 ^ k), r.2)) =
      (c.nextU64 m).map fun r => (Int.bmod r.1 (2 ^ k), r.2) := by
    intro k hk
    rw [nextCInt_eq]
    cases c.nextU64 m with
    | none => rfl
    | some r =>
      simp only [Option.map_some]
      exact congrArg (fun v => some (v, r.2)) (Int.bmod_bmod_of_dvd (Nat.pow_dvd_pow 2 hk))
  cases length with
  | default => exact nextCInt_eq
  | hh => exact hint 8 (by decide)
  | h => exact hint 16 (by decide)
  | l => rfl
  | ll => rfl
  | j => rfl
  | t => rfl
  | z => rfl

theorem readUnsignedArgument_eq (m : Mem) (c : VarArgCursor) (length : LengthModifier) :
    readUnsignedArgument m c length =
      (c.nextU64 m).map fun r => (r.1 % 2 ^ length.bits, r.2) := by
  have hint : ∀ k, k ≤ 32 → (c.nextU32 m).map (fun r => (r.1 % 2 ^ k, r.2)) =
      (c.nextU64 m).map fun r => (r.1 % 2 ^ k, r.2) := by
    intro k hk
    unfold VarArgCursor.nextU32
    cases c.nextU64 m with
    | none => rfl
    | some r =>
      simp only [Option.map_some]
      rw [Nat.mod_mod_of_dvd r.1 (Nat.pow_dvd_pow 2 hk)]
  have hlong : c.nextU64 m = (c.nextU64 m).map fun r => (r.1 % 2 ^ 64, r.2) := by
    cases hnext : c.nextU64 m with
    | none => rfl
    | some r =>
      rw [Option.map_some, Nat.mod_eq_of_lt (nextU64_lt hnext)]
  cases length with
  | default => rfl
  | hh => exact hint 8 (by decide)
  | h => exact hint 16 (by decide)
  | l => exact hlong
  | ll => exact hlong
  | j => exact hlong
  | t => exact hlong
  | z => exact hlong

theorem argumentWords_succ {m : Mem} {c c' : VarArgCursor} {n : Nat} {words : List Nat}
    (h : argumentWords m c (n + 1) = some (words, c')) :
    ∃ word next rest, c.nextU64 m = some (word, next) ∧
      argumentWords m next n = some (rest, c') ∧ words = word :: rest := by
  unfold argumentWords at h
  obtain ⟨⟨word, next⟩, hnext, hmap⟩ := Option.bind_eq_some_iff.mp h
  obtain ⟨⟨rest, c''⟩, hrest, heq⟩ := Option.map_eq_some_iff.mp hmap
  cases heq
  exact ⟨word, next, rest, hnext, hrest, rfl⟩

theorem min_usizeMax {n : Nat} (h : n ≤ 2 ^ 31) : min n usizeMax = n :=
  Nat.min_eq_left (Nat.le_trans h (by decide))

theorem resolveWidth_field (t : IntegerText) {m : Mem} {c c' : VarArgCursor} {n : Nat}
    {words : List Nat}
    (h : argumentWords m c ((if t.width = some .star then 1 else 0) + n) = some (words, c')) :
    ∃ next, resolveWidth m t.directive.width c t.directive.flags.leftAlign =
        some ((min (t.fieldWidth words).1 usizeMax, (t.fieldWidth words).2), next) ∧
      argumentWords m next n = some (t.afterWidth words, c') := by
  unfold IntegerText.fieldWidth IntegerText.afterWidth IntegerText.directive
  dsimp only
  cases hwidth : t.width with
  | none =>
    rw [hwidth, if_neg (Option.some_ne_none _).symm, Nat.zero_add] at h
    exact ⟨c, rfl, h⟩
  | some count =>
    cases count with
    | decimal digits =>
      rw [hwidth, if_neg (fun heq => by cases heq), Nat.zero_add] at h
      exact ⟨c, rfl, h⟩
    | star =>
      rw [hwidth, if_pos rfl, Nat.add_comm] at h
      obtain ⟨word, next, rest, hnext, hrest, rfl⟩ := argumentWords_succ h
      refine ⟨next, ?_, hrest⟩
      have hbounds := cInt_bounds word
      change (c.nextCInt m).map _ = _
      rw [nextCInt_eq, hnext, Option.map_some, Option.map_some]
      generalize hhead : cInt ((word :: rest).headD 0) = value
      change cInt word = value at hhead
      rw [hhead] at hbounds ⊢
      dsimp only
      rw [min_usizeMax (by omega)]
      by_cases hneg : value < 0
      · rw [if_pos hneg, decide_eq_true (Or.inr hneg)]
      · have habs : value.natAbs = value.toNat := by omega
        rw [if_neg hneg, habs]
        simp only [hneg, or_false, Bool.decide_eq_true]

theorem resolvePrecision_field (t : IntegerText) {m : Mem} {c c' : VarArgCursor}
    {words : List Nat}
    (h : argumentWords m c ((if t.precision = some .star then 1 else 0) + 1) =
      some (t.afterWidth words, c')) :
    ∃ next, resolvePrecision m t.directive.precision c =
        some ((t.fieldPrecision words).map (min · usizeMax), next) ∧
      t.afterWidth words ≠ [] ∧ next.nextU64 m = some ((t.afterWidth words).getLastD 0, c') := by
  -- The word behind the precision, if it takes one, is the value itself.
  have hlast : ∀ {c : VarArgCursor} {words : List Nat}, argumentWords m c 1 = some (words, c') →
      words ≠ [] ∧ c.nextU64 m = some (words.getLastD 0, c') := by
    intro c words h
    obtain ⟨word, next, rest, hnext, hrest, rfl⟩ := argumentWords_succ h
    cases hrest
    exact ⟨List.cons_ne_nil _ _, hnext⟩
  unfold IntegerText.fieldPrecision IntegerText.directive
  dsimp only
  cases hprecision : t.precision with
  | none =>
    rw [hprecision, if_neg (Option.some_ne_none _).symm] at h
    exact ⟨c, rfl, hlast h⟩
  | some count =>
    cases count with
    | decimal digits =>
      rw [hprecision, if_neg (fun heq => by cases heq)] at h
      exact ⟨c, rfl, hlast h⟩
    | star =>
      rw [hprecision, if_pos rfl] at h
      obtain ⟨word, next, rest, hnext, hrest, hwords⟩ := argumentWords_succ h
      have hbounds := cInt_bounds word
      rw [hwords]
      refine ⟨next, ?_, List.cons_ne_nil _ _, ?_⟩
      · change (c.nextCInt m).map _ = _
        rw [nextCInt_eq, hnext, Option.map_some, Option.map_some]
        generalize hhead : cInt ((word :: rest).headD 0) = value
        change cInt word = value at hhead
        rw [hhead] at hbounds ⊢
        -- A negative precision counts as none.
        by_cases hneg : value < 0
        · rw [if_pos hneg, if_pos hneg, Option.map_none]
        · rw [if_neg hneg, if_neg hneg, Option.map_some, min_usizeMax (by omega)]
      · obtain ⟨hne, hvalue⟩ := hlast hrest
        cases rest with
        | nil => exact absurd rfl hne
        | cons first rest => exact hvalue

theorem afterWidth_last (t : IntegerText) {words : List Nat} (h : t.afterWidth words ≠ []) :
    (t.afterWidth words).getLastD 0 = words.getLastD 0 := by
  unfold IntegerText.afterWidth at h ⊢
  split at h
  · rename_i hstar
    rw [if_pos hstar]
    cases words with
    | nil => rfl
    | cons word words =>
      cases words with
      | nil => exact absurd rfl h
      | cons first rest => rfl
  · rename_i hstar
    rw [if_neg hstar]

theorem integer_other {conversion : UInt8} (h : isIntegerConversion conversion = true) :
    isCountConversion conversion = false ∧ conversion ≠ 's'.toUInt8 ∧
      conversion ≠ 'c'.toUInt8 ∧ conversion ≠ 'p'.toUInt8 := by
  rcases integer_cases h with rfl | rfl | rfl | rfl | rfl | rfl
  all_goals decide

/-- The renderer of an integer conversion, on the word that is passed for it. -/
theorem renderConversion_integer {m : Mem} {c c' : VarArgCursor} {d : FormatDirective} {word : Nat}
    (h : isIntegerConversion d.conversion = true) (hnext : c.nextU64 m = some (word, c'))
    (leftAlign : Bool) (width : Nat) (precision : Option Nat) :
    renderConversion m c d leftAlign width precision =
      let value : Int := if isSignedConversion d.conversion then Int.bmod word (2 ^ d.length.bits)
        else (word % 2 ^ d.length.bits : Nat)
      some (renderFormattedInteger d leftAlign width precision value.natAbs (value < 0), c') := by
  obtain ⟨-, hs, hc, hp⟩ := integer_other h
  unfold renderConversion
  dsimp only
  rw [if_neg hs, if_neg hc, if_neg hp]
  by_cases hsigned : isSignedConversion d.conversion = true
  · rw [if_pos hsigned, if_pos hsigned, readSignedArgument_eq, hnext, Option.map_some,
      Option.map_some]
  · have hnonneg : ¬((word % 2 ^ d.length.bits : Nat) : Int) < 0 :=
      Int.not_lt.mpr (Int.natCast_nonneg _)
    rw [if_neg hsigned, if_neg hsigned, if_pos h, readUnsignedArgument_eq, hnext, Option.map_some,
      Option.map_some, Int.natAbs_natCast, decide_eq_false hnonneg]

theorem LengthModifier.bits_cases (length : LengthModifier) :
    length.bits = 8 ∨ length.bits = 16 ∨ length.bits = 32 ∨ length.bits = 64 := by
  cases length
  all_goals decide

theorem fieldValue_lt (t : IntegerText) (words : List Nat) :
    (t.fieldValue words).natAbs < 2 ^ 64 := by
  unfold IntegerText.fieldValue
  split
  · rw [Int.bmod_def]
    rcases t.length.bits_cases with hbits | hbits | hbits | hbits
    all_goals
      rw [hbits]
      omega
  · rw [Int.natAbs_natCast]
    have hpos : 0 < 2 ^ t.length.bits := Nat.two_pow_pos _
    have hle : 2 ^ t.length.bits ≤ 2 ^ 64 := by
      apply Nat.pow_le_pow_right (by decide)
      have hbits := t.length.bits_cases
      omega
    exact Nat.lt_of_lt_of_le (Nat.mod_lt _ hpos) hle

/-! ## The conversion -/

/-- The conversion is read, and its output is the text. -/
def Writes (st : FormatState (List UInt8)) (t : IntegerText) (rest : List UInt8)
    (c' : VarArgCursor) (text : List UInt8) : Prop :=
  ∃ d, parseFormatDirective (t.spell ++ rest) = some (d, rest) ∧
    applyDirective recorder st d =
      .ok { st with cursor := c', sink := st.sink ++ text }

namespace IntegerText

/-- The field that the formatter works with: its numbers are held in a `usize`. -/
def clampedField (t : IntegerText) (words : List Nat) : IntegerField :=
  { t.field words with
    width := min (t.field words).width usizeMax
    precision := (t.field words).precision.map (min · usizeMax) }

theorem clampedField_eq (t : IntegerText) (words : List Nat)
    (h : (t.field words).text.length ≤ usizeMax) : t.clampedField words = t.field words := by
  have hlength := IntegerField.text_length (t.field words)
  unfold clampedField
  have hwidth : min (t.field words).width usizeMax = (t.field words).width := by omega
  have hprecision : (t.field words).precision.map (min · usizeMax) =
      (t.field words).precision := by
    cases hsome : (t.field words).precision with
    | none => rfl
    | some p =>
      have hle := IntegerField.precision_le (t.field words) hsome
      have hmin : min p usizeMax = p := by omega
      rw [Option.map_some, hmin]
  rw [hwidth, hprecision]

end IntegerText

theorem applyDirective_integer (t : IntegerText) {st : FormatState (List UInt8)}
    {c' : VarArgCursor} {words : List Nat}
    (h : argumentWords st.mem st.cursor t.argumentCount = some (words, c')) :
    applyDirective recorder st t.directive =
      if (t.clampedField words).content.length ≤ usizeMax then
        .ok { st with cursor := c', sink := st.sink ++ (t.clampedField words).text }
      else .error .overflow := by
  obtain ⟨c₁, hwidth, hrest⟩ := resolveWidth_field t h
  obtain ⟨c₂, hprecision, hne, hvalue⟩ := resolvePrecision_field t hrest
  rw [afterWidth_last t hne] at hvalue
  have hcount : ¬isCountConversion t.directive.conversion = true :=
    Bool.eq_false_iff.mp (integer_other t.integer).1
  have hrender : renderConversion st.mem c₂ t.directive (t.fieldWidth words).2
      (min (t.fieldWidth words).1 usizeMax) ((t.fieldPrecision words).map (min · usizeMax)) =
        some (renderFormattedInteger t.directive (t.fieldWidth words).2
          (min (t.fieldWidth words).1 usizeMax) ((t.fieldPrecision words).map (min · usizeMax))
          (t.fieldValue words).natAbs (t.fieldValue words < 0), c') :=
    renderConversion_integer t.integer hvalue _ _ _
  obtain ⟨htext, hlength⟩ := renderFormattedInteger_text t.directive (t.fieldWidth words).2
    (min (t.fieldWidth words).1 usizeMax) ((t.fieldPrecision words).map (min · usizeMax))
    (t.fieldValue words).natAbs (t.fieldValue words < 0) st.mem (fieldValue_lt t words)
  unfold applyDirective
  rw [hwidth]
  dsimp only
  rw [hprecision]
  dsimp only
  unfold applyConversion
  rw [if_neg hcount]
  dsimp only
  rw [hrender]
  dsimp only
  rw [hlength, recorder_pushPieces]
  change (if fitsUsize (t.clampedField words).content.length = true then
    Except.ok { st with cursor := c', sink := st.sink ++ Rendered.text st.mem _ } else _) = _
  rw [htext]
  unfold fitsUsize
  simp only [decide_eq_true_eq]
  rfl

/-- **Integer conversions are those of the standard**, as long as the field fits into the address
space. -/
theorem writes_field_iff (t : IntegerText) (st : FormatState (List UInt8)) (rest : List UInt8)
    (words : List Nat) (c' : VarArgCursor)
    (h : argumentWords st.mem st.cursor t.argumentCount = some (words, c')) :
    Writes st t rest c' (t.field words).text ↔
      max (t.field words).width (t.field words).content.length ≤ usizeMax := by
  rw [← IntegerField.text_length]
  have hclamped := IntegerField.text_length (t.clampedField words)
  constructor
  · rintro ⟨d, hparse, happly⟩
    rw [parseFormatDirective_spell] at hparse
    cases hparse
    rw [applyDirective_integer t h] at happly
    by_cases hfits : (t.clampedField words).content.length ≤ usizeMax
    · rw [if_pos hfits] at happly
      have hsink := congrArg FormatState.sink (Except.ok.inj happly)
      rw [← List.append_cancel_left hsink, hclamped]
      exact Nat.max_le.mpr ⟨Nat.min_le_right _ _, hfits⟩
    · rw [if_neg hfits] at happly
      cases happly
  · intro hfits
    have heq := t.clampedField_eq words hfits
    refine ⟨t.directive, parseFormatDirective_spell t rest, ?_⟩
    rw [applyDirective_integer t h, heq, if_pos]
    rw [heq] at hclamped
    omega

/-- `%+-6.3hhd` with the word 300, which is 44 as a `signed char`. -/
def shortField : IntegerText where
  flags := ['+'.toUInt8, '-'.toUInt8]
  width := some (.decimal [6])
  precision := some (.decimal [3])
  length := .hh
  conversion := 'd'.toUInt8
  flags_mem := by simp [flagBytes]
  width_digits := fun digits h => by cases h; decide
  precision_digits := fun digits h => by cases h; decide
  integer := by decide
  accepted := by decide

/-- One argument, in the overflow area. -/
def oneArgument (word : Nat) : FormatState (List UInt8) :=
  ⟨storeNat (fun _ => 0) 8 64 word, ⟨48, 176, 0, 64⟩, []⟩

theorem writes_shortField : Writes (oneArgument 300) shortField [] ⟨48, 176, 0, 72⟩
    ['+'.toUInt8, '0'.toUInt8, '4'.toUInt8, '4'.toUInt8, ' '.toUInt8, ' '.toUInt8] :=
  (writes_field_iff shortField (oneArgument 300) [] [300] ⟨48, 176, 0, 72⟩
    (by decide +kernel)).mpr (by decide +kernel)

/-- `%+1.18446744073709551615d`. -/
def longestPrecision : IntegerText where
  flags := ['+'.toUInt8]
  width := some (.decimal [1])
  precision := some (.decimal [1, 8, 4, 4, 6, 7, 4, 4, 0, 7, 3, 7, 0, 9, 5, 5, 1, 6, 1, 5])
  length := .default
  conversion := 'd'.toUInt8
  flags_mem := by simp [flagBytes]
  width_digits := fun digits h => by cases h; decide
  precision_digits := fun digits h => by cases h; decide
  integer := by decide
  accepted := by decide

/-- The sign and so many digits are one more than a `usize` counts: a sum that is checked ends the
process, and one that wraps to zero lets the width ask for a blank. -/
theorem longestPrecision_not_written :
    argumentWords (oneArgument 0).mem (oneArgument 0).cursor longestPrecision.argumentCount =
        some ([0], ⟨48, 176, 0, 72⟩) ∧
      ¬Writes (oneArgument 0) longestPrecision [] ⟨48, 176, 0, 72⟩
        (longestPrecision.field [0]).text := by
  constructor
  · decide +kernel
  · rintro ⟨d, hparse, happly⟩
    rw [parseFormatDirective_spell] at hparse
    cases hparse
    have herror : (applyDirective recorder (oneArgument 0)
        longestPrecision.directive).isOk = false := by decide +kernel
    rw [happly] at herror
    cases herror

end Rlibc.Stdio
