import Rlibc.Machine

/-!
# Format directives

What stands between a `%` and its conversion.  The parsers take the rest of the format and return
what they leave of it.
-/

namespace Rlibc.Stdio

inductive CountSpec where
  | literal (value : Nat)
  | fromArgs
deriving DecidableEq

inductive LengthModifier where
  | default
  | hh
  | h
  | l
  | ll
  | j
  | t
  | z
deriving DecidableEq

structure FormatFlags where
  leftAlign : Bool
  forceSign : Bool
  leadingSpaceForPositive : Bool
  zeroPad : Bool
  alternateForm : Bool
deriving DecidableEq

structure FormatDirective where
  flags : FormatFlags
  width : Option CountSpec
  precision : Option CountSpec
  length : LengthModifier
  conversion : UInt8
deriving DecidableEq

def isAsciiDigit (byte : UInt8) : Bool := 48 ≤ byte ∧ byte ≤ 57

/-- The loop of `parse_number`. -/
def parseDigits (value : Nat) : List UInt8 → Nat × List UInt8
  | [] => (value, [])
  | byte :: rest =>
    if isAsciiDigit byte then
      parseDigits (saturatingAdd (saturatingMul value 10) (byte.toNat - 48)) rest
    else (value, byte :: rest)

def parseNumber : List UInt8 → Option (Nat × List UInt8)
  | [] => none
  | byte :: rest => if isAsciiDigit byte then some (parseDigits 0 (byte :: rest)) else none

def parseLengthModifier : List UInt8 → Option (LengthModifier × List UInt8)
  | [] => some (.default, [])
  | byte :: rest =>
    if byte = 'h'.toUInt8 then
      if rest.head? = some 'h'.toUInt8 then some (.hh, rest.tail) else some (.h, rest)
    else if byte = 'l'.toUInt8 then
      if rest.head? = some 'l'.toUInt8 then some (.ll, rest.tail) else some (.l, rest)
    else if byte = 'j'.toUInt8 then some (.j, rest)
    else if byte = 't'.toUInt8 then some (.t, rest)
    else if byte = 'z'.toUInt8 then some (.z, rest)
    else if byte = 'L'.toUInt8 then none
    else some (.default, byte :: rest)

def isIntegerConversion (conversion : UInt8) : Bool :=
  conversion ∈ ['d'.toUInt8, 'i'.toUInt8, 'u'.toUInt8, 'x'.toUInt8, 'X'.toUInt8, 'o'.toUInt8]

def isFloatConversion (conversion : UInt8) : Bool :=
  conversion ∈ ['f'.toUInt8, 'F'.toUInt8, 'e'.toUInt8, 'E'.toUInt8, 'g'.toUInt8, 'G'.toUInt8,
    'a'.toUInt8, 'A'.toUInt8]

def isPointerConversion (conversion : UInt8) : Bool := conversion = 'p'.toUInt8

def isCountConversion (conversion : UInt8) : Bool := conversion = 'n'.toUInt8

def isStringOrChar (conversion : UInt8) : Bool :=
  conversion = 's'.toUInt8 ∨ conversion = 'c'.toUInt8

/-- `d` and `i`. -/
def isSignedConversion (conversion : UInt8) : Bool :=
  conversion = 'd'.toUInt8 ∨ conversion = 'i'.toUInt8

/-- The flag that a byte sets. -/
def FormatFlags.set (flags : FormatFlags) (byte : UInt8) : Option FormatFlags :=
  if byte = '-'.toUInt8 then some { flags with leftAlign := true }
  else if byte = '+'.toUInt8 then some { flags with forceSign := true }
  else if byte = ' '.toUInt8 then some { flags with leadingSpaceForPositive := true }
  else if byte = '0'.toUInt8 then some { flags with zeroPad := true }
  else if byte = '#'.toUInt8 then some { flags with alternateForm := true }
  else none

def parseFlags (flags : FormatFlags) : List UInt8 → FormatFlags × List UInt8
  | [] => (flags, [])
  | byte :: rest =>
    match flags.set byte with
    | some flags => parseFlags flags rest
    | none => (flags, byte :: rest)

/-- A width, or what follows the dot of a precision. -/
def parseCount (bytes : List UInt8) : Option CountSpec × List UInt8 :=
  if bytes.head? = some '*'.toUInt8 then (some .fromArgs, bytes.tail)
  else
    match parseNumber bytes with
    | some (value, rest) => (some (.literal value), rest)
    | none => (none, bytes)

def parsePrecision (bytes : List UInt8) : Option CountSpec × List UInt8 :=
  if bytes.head? = some '.'.toUInt8 then
    let r := parseCount bytes.tail
    (some (r.1.getD (.literal 0)), r.2)
  else (none, bytes)

/-- The conversion is known, and has these flags and this length. -/
def conversionAllowed (flags : FormatFlags) (length : LengthModifier) (conversion : UInt8) : Bool :=
  if isStringOrChar conversion then
    length = .default ∧ ¬(flags.forceSign ∨ flags.leadingSpaceForPositive ∨ flags.zeroPad ∨
      flags.alternateForm)
  else if isPointerConversion conversion then length = .default
  else if isFloatConversion conversion then length = .default ∨ length = .l
  else if isCountConversion conversion then true
  else
    isIntegerConversion conversion ∧
      ¬((flags.forceSign ∨ flags.leadingSpaceForPositive) ∧ ¬isSignedConversion conversion) ∧
      ¬(flags.alternateForm ∧ conversion ∉ ['x'.toUInt8, 'X'.toUInt8, 'o'.toUInt8])

def parseFormatDirective (bytes : List UInt8) : Option (FormatDirective × List UInt8) :=
  let flags := parseFlags ⟨false, false, false, false, false⟩ bytes
  let width := parseCount flags.2
  let precision := parsePrecision width.2
  match parseLengthModifier precision.2 with
  | none => none
  | some (_, []) => none
  | some (length, conversion :: rest) =>
    if conversionAllowed flags.1 length conversion then
      some (⟨flags.1, width.1, precision.1, length, conversion⟩, rest)
    else none

def internalVfprintfSupportsDirective (directive : FormatDirective) : Bool :=
  (directive.conversion ∈ ['s'.toUInt8, 'c'.toUInt8, 'p'.toUInt8, 'n'.toUInt8, 'd'.toUInt8,
    'i'.toUInt8, 'u'.toUInt8, 'x'.toUInt8, 'X'.toUInt8, 'o'.toUInt8]) ∧
  ¬(directive.conversion = 'c'.toUInt8 ∧ directive.precision.isSome)

def lineBufferNewlineAnalysisSupportsDirective (directive : FormatDirective) : Bool :=
  internalVfprintfSupportsDirective directive ∨ isFloatConversion directive.conversion

/-! ## The rest of the format -/

theorem parseDigits_suffix (value : Nat) (bytes : List UInt8) :
    (parseDigits value bytes).2 <:+ bytes := by
  induction bytes generalizing value with
  | nil => exact List.suffix_refl []
  | cons byte rest ih =>
    unfold parseDigits
    split
    · exact (ih _).trans (List.suffix_cons byte rest)
    · exact List.suffix_refl _

theorem parseNumber_suffix {bytes rest : List UInt8} {value : Nat}
    (h : parseNumber bytes = some (value, rest)) : rest <:+ bytes := by
  cases bytes with
  | nil => cases h
  | cons byte bytes =>
    unfold parseNumber at h
    dsimp only at h
    by_cases hdigit : isAsciiDigit byte = true
    · rw [if_pos hdigit, Option.some.injEq] at h
      have hsuffix := parseDigits_suffix 0 (byte :: bytes)
      rw [h] at hsuffix
      exact hsuffix
    · rw [if_neg hdigit] at h
      cases h

theorem parseFlags_suffix (flags : FormatFlags) (bytes : List UInt8) :
    (parseFlags flags bytes).2 <:+ bytes := by
  induction bytes generalizing flags with
  | nil => exact List.suffix_refl []
  | cons byte rest ih =>
    unfold parseFlags
    split
    · exact (ih _).trans (List.suffix_cons byte rest)
    · exact List.suffix_refl _

theorem parseCount_suffix (bytes : List UInt8) : (parseCount bytes).2 <:+ bytes := by
  unfold parseCount
  split
  · exact List.tail_suffix bytes
  · split
    · rename_i value rest hnumber
      exact parseNumber_suffix hnumber
    · exact List.suffix_refl _

theorem parsePrecision_suffix (bytes : List UInt8) : (parsePrecision bytes).2 <:+ bytes := by
  unfold parsePrecision
  split
  · exact (parseCount_suffix bytes.tail).trans (List.tail_suffix bytes)
  · exact List.suffix_refl _

theorem parseLengthModifier_suffix {bytes rest : List UInt8} {length : LengthModifier}
    (h : parseLengthModifier bytes = some (length, rest)) : rest <:+ bytes := by
  cases bytes with
  | nil =>
    cases h
    exact List.suffix_refl []
  | cons byte bytes =>
    have hone := List.suffix_cons byte bytes
    have htwo := (List.tail_suffix bytes).trans hone
    unfold parseLengthModifier at h
    dsimp only at h
    -- One goal for each modifier, in the order of the definition.
    split at h
    · split at h
      · cases h
        exact htwo
      · cases h
        exact hone
    · split at h
      · split at h
        · cases h
          exact htwo
        · cases h
          exact hone
      · repeat' split at h
        all_goals cases h
        all_goals first | exact hone | exact List.suffix_refl _

/-- A directive is not empty. -/
theorem parseFormatDirective_length {bytes rest : List UInt8} {directive : FormatDirective}
    (h : parseFormatDirective bytes = some (directive, rest)) : rest.length < bytes.length := by
  unfold parseFormatDirective at h
  dsimp only at h
  split at h
  · cases h
  · cases h
  · rename_i length conversion rest' hlength
    split at h
    · cases h
      have hsuffix := (parseLengthModifier_suffix hlength).trans
        ((parsePrecision_suffix _).trans ((parseCount_suffix _).trans (parseFlags_suffix _ _)))
      have hle := hsuffix.length_le
      rw [List.length_cons] at hle
      omega
    · cases h

end Rlibc.Stdio
