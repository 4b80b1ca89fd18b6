import Rlibc.Machine

/-!
# The `strto*` family

A pointer into the string is the bytes from there up to the terminator, which is left out.  The
arithmetic on `u128` and the conversions at the end are partial: `none` is a panic.
-/

namespace Rlibc.Stdlib

abbrev MIN_BASE : Int := 2
abbrev MAX_BASE : Int := 36

/-- `u128::MAX`. -/
abbrev u128Max : Nat := 0xffffffffffffffffffffffffffffffff

inductive ParseStatus where
  | invalidBase
  | noConversion
  | converted
deriving DecidableEq

structure ParseResult where
  value : Nat
  stop : List UInt8
  status : ParseStatus
  overflow : Bool
  negative : Bool
deriving DecidableEq

def isAsciiSpace (byte : UInt8) : Bool :=
  byte = 32 ∨ byte = 9 ∨ byte = 10 ∨ byte = 13 ∨ byte = 0x0b ∨ byte = 0x0c

def digitValue (byte : UInt8) : Option Nat :=
  if 48 ≤ byte ∧ byte ≤ 57 then some (byte.toNat - 48)
  else if 97 ≤ byte ∧ byte ≤ 122 then some (byte.toNat - 97 + 10)
  else if 65 ≤ byte ∧ byte ≤ 90 then some (byte.toNat - 65 + 10)
  else none

def isValidDigitForBase (byte : UInt8) (base : Nat) : Bool :=
  match digitValue byte with
  | some value => value < base
  | none => false

/-- `read_byte`: the end of the list is the terminator. -/
def readByte (cursor : List UInt8) : UInt8 := cursor.headD 0

/-- The optional sign: whether it is a minus, and the cursor after it. -/
def readSign (cursor : List UInt8) : Bool × List UInt8 :=
  if readByte cursor = 43 then (false, cursor.tail)
  else if readByte cursor = 45 then (true, cursor.tail)
  else (false, cursor)

/-- Whether `0x` or `0X` and a hexadecimal digit follow. -/
def hasHexPrefix (digits : List UInt8) : Bool :=
  readByte digits = 48 ∧ (readByte (digits.drop 1) = 120 ∨ readByte (digits.drop 1) = 88) ∧
    isValidDigitForBase (readByte (digits.drop 2)) 16

/-- `resolved_base` and `digits_ptr`; `none` for an invalid base. -/
def resolveBase (base : Int) (digits : List UInt8) : Option (Nat × List UInt8) :=
  if base = 0 then
    if readByte digits = 48 then
      if hasHexPrefix digits then some (16, digits.drop 2) else some (8, digits)
    else some (10, digits)
  else if MIN_BASE ≤ base ∧ base ≤ MAX_BASE then
    if base = 16 ∧ hasHexPrefix digits then some (16, digits.drop 2)
    else some (base.toNat, digits)
  else none

/-- The variables of the digit loop. -/
structure DigitScan where
  value : Nat
  overflow : Bool
  converted : Bool
deriving DecidableEq

/-- The body of the digit loop, for a digit below the radix. -/
def DigitScan.push (s : DigitScan) (limit radix digit : Nat) : Option DigitScan :=
  if s.overflow then some { s with converted := true }
  else if limit < digit ∨ radix = 0 then none
  else if s.value > (limit - digit) / radix then some ⟨limit, true, true⟩
  else if s.value * radix + digit > u128Max then none
  else some ⟨s.value * radix + digit, false, true⟩

/-- The digit loop. -/
def scanDigits (limit radix : Nat) : List UInt8 → DigitScan → Option (DigitScan × List UInt8)
  | [], s => some (s, [])
  | byte :: scan, s =>
    match digitValue byte with
    | none => some (s, byte :: scan)
    | some digit =>
      if digit ≥ radix then some (s, byte :: scan)
      else (s.push limit radix digit).bind (scanDigits limit radix scan)

/-- `parse_unsigned_magnitude`. -/
def parseUnsignedMagnitude (nptr : List UInt8) (base : Int) (limit : Nat) : Option ParseResult :=
  let (negative, cursor) := readSign (nptr.dropWhile isAsciiSpace)
  match resolveBase base cursor with
  | none => some ⟨0, nptr, .invalidBase, false, negative⟩
  | some (radix, digits) =>
    (scanDigits limit radix digits ⟨0, false, false⟩).map fun (s, scan) =>
      if s.converted then ⟨s.value, scan, .converted, s.overflow, negative⟩
      else ⟨0, nptr, .noConversion, false, negative⟩

/-- What a call leaves: its result, `*endptr` unless the pointer is null, and `errno`. -/
structure Conversion where
  result : Int
  endptr : Option (List UInt8)
  errno : Int
deriving DecidableEq

def writeEndptr (endptr : Option (List UInt8)) (value : List UInt8) : Option (List UInt8) :=
  endptr.map fun _ => value

abbrev C_LONG_MAX : Nat := 0x7fffffffffffffff
abbrev C_LONG_MIN : Int := -0x8000000000000000
abbrev C_ULONG_MAX : Nat := 0xffffffffffffffff

/-- The body that `strtol` and `strtoll` share: both types have 64 bits. -/
def strtoSigned (nptr : List UInt8) (endptr : Option (List UInt8)) (base errno : Int) :
    Option Conversion := do
  let parsed ← parseUnsignedMagnitude nptr base (C_LONG_MAX + 1)
  if parsed.status = .invalidBase then
    return ⟨0, endptr, EINVAL⟩
  let endptr := writeEndptr endptr parsed.stop
  if parsed.overflow ∨ (¬parsed.negative ∧ parsed.value > C_LONG_MAX) then
    return ⟨if parsed.negative then C_LONG_MIN else C_LONG_MAX, endptr, ERANGE⟩
  if parsed.status ≠ .converted then
    return ⟨0, endptr, errno⟩
  if parsed.negative then
    if parsed.value = C_LONG_MAX + 1 then
      return ⟨C_LONG_MIN, endptr, errno⟩
    let value ← if FitsCLong (-(parsed.value : Int)) then some (-(parsed.value : Int)) else none
    return ⟨value, endptr, errno⟩
  let value ← if FitsCLong parsed.value then some (parsed.value : Int) else none
  return ⟨value, endptr, errno⟩

def strtol := strtoSigned

def strtoll := strtoSigned

/-- `wrapping_neg` of an `unsigned long`. -/
def wrappingNeg (value : Nat) : Nat := (C_ULONG_MAX + 1 - value) % (C_ULONG_MAX + 1)

/-- The body that `strtoul` and `strtoull` share. -/
def strtoUnsigned (nptr : List UInt8) (endptr : Option (List UInt8)) (base errno : Int) :
    Option Conversion := do
  let parsed ← parseUnsignedMagnitude nptr base C_ULONG_MAX
  if parsed.status = .invalidBase then
    return ⟨0, endptr, EINVAL⟩
  let endptr := writeEndptr endptr parsed.stop
  if parsed.overflow then
    return ⟨C_ULONG_MAX, endptr, ERANGE⟩
  if parsed.status ≠ .converted then
    return ⟨0, endptr, errno⟩
  let value ← if parsed.value ≤ C_ULONG_MAX then some parsed.value else none
  return ⟨if parsed.negative then wrappingNeg value else value, endptr, errno⟩

def strtoul := strtoUnsigned

def strtoull := strtoUnsigned

end Rlibc.Stdlib
