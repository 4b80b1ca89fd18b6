import Rlibc.Time.Calendar
import Mathlib.Data.List.Basic

/-!
# `strftime`

The writer that stops at its capacity, the fields of a directive, and the loop over the format.
None of the functions that append to the buffer reads it, so each of them is the list of bytes
that it pushes.  The counter of the writer is a `Nat`: it counts the bytes pushed one by one.
-/

namespace Rlibc.Time

/-! ## The writer -/

/-- `OutputBuffer`; the bytes written to `dst` are kept as stores, the last one first. -/
structure OutputBuffer where
  max : Nat
  required : Nat
  stores : List (Nat × UInt8)
deriving DecidableEq

namespace OutputBuffer

def new (max : Nat) : OutputBuffer := { max, required := 0, stores := [] }

def pushByte (buffer : OutputBuffer) (byte : UInt8) : OutputBuffer :=
  { buffer with
    stores :=
      if buffer.max ≠ 0 ∧ buffer.required < buffer.max - 1 then
        (buffer.required, byte) :: buffer.stores
      else buffer.stores
    required := buffer.required + 1 }

def pushBytes (buffer : OutputBuffer) (bytes : List UInt8) : OutputBuffer :=
  bytes.foldl pushByte buffer

def terminate (buffer : OutputBuffer) : OutputBuffer :=
  if buffer.max = 0 then buffer
  else { buffer with stores := (min buffer.required (buffer.max - 1), 0) :: buffer.stores }

/-- What `finish` returns. -/
def finish (buffer : OutputBuffer) : Nat :=
  if buffer.max = 0 ∨ buffer.required ≥ buffer.max then 0 else buffer.required

end OutputBuffer

/-! ## Numbers and names -/

def ascii (text : String) : List UInt8 := text.toList.map fun c => UInt8.ofNat c.toNat

/-- `format!("{value}")` of an unsigned number. -/
def decimalBytes (value : Nat) : List UInt8 :=
  (Nat.toDigits 10 value).map fun c => UInt8.ofNat c.toNat

/-- `format!("{value}")`. -/
def signedBytes (value : Int) : List UInt8 :=
  (if value < 0 then ascii "-" else []) ++ decimalBytes value.natAbs

/-- `format!("{value:0width$}")`: the sign stands before the zeros. -/
def zeroPadded (width : Nat) (value : Int) : List UInt8 :=
  let sign := if value < 0 then ascii "-" else []
  let digits := decimalBytes value.natAbs
  sign ++ List.replicate (width - sign.length - digits.length) 48 ++ digits

/-- `format!("{value:width$}")`. -/
def spacePadded (width : Nat) (value : Int) : List UInt8 :=
  List.replicate (width - (signedBytes value).length) 32 ++ signedBytes value

def weekdayShort : List (List UInt8) :=
  ["Sun", "Mon", "Tue", "Wed", "Thu", "Fri", "Sat"].map ascii

def weekdayLong : List (List UInt8) :=
  ["Sunday", "Monday", "Tuesday", "Wednesday", "Thursday", "Friday", "Saturday"].map ascii

def monthShort : List (List UInt8) :=
  ["Jan", "Feb", "Mar", "Apr", "May", "Jun", "Jul", "Aug", "Sep", "Oct", "Nov", "Dec"].map ascii

def monthLong : List (List UInt8) :=
  ["January", "February", "March", "April", "May", "June", "July", "August", "September",
    "October", "November", "December"].map ascii

/-- What stands for a field out of its range. -/
def unknown : List UInt8 := ascii "?"

/-- `names.get(index).copied().unwrap_or(b"?")`, for an index that is not negative. -/
def nameAt (names : List (List UInt8)) (index : Int) : List UInt8 :=
  if index < 0 then unknown else names.getD index.toNat unknown

def monthName (mon : Int) (longName : Bool) : List UInt8 :=
  nameAt (if longName then monthLong else monthShort) mon

def weekdayName (wday : Int) (longName : Bool) : List UInt8 :=
  nameAt (if longName then weekdayLong else weekdayShort) wday

/-! ## Years -/

def maxYdayForFullYear (fullYear : Int) : Int := if isLeapYear fullYear then 365 else 364

def isValidTmYdayForYear (fullYear yday : Int) : Bool :=
  if yday < 0 then false else yday ≤ maxYdayForFullYear fullYear

def fullYearFromTmYear (tmYear : Int) : Int := tmYear + 1900

def appendFullYear (fullYear : Int) : List UInt8 :=
  if fullYear ≥ 0 then zeroPadded 4 fullYear
  else ascii "-" ++ zeroPadded 4 fullYear.natAbs

def appendYear (value : Int) : List UInt8 := appendFullYear (fullYearFromTmYear value)

def appendCentury (value : Int) : List UInt8 := zeroPadded 2 (fullYearFromTmYear value / 100)

def appendYearTwoDigits (value : Int) : List UInt8 :=
  zeroPadded 2 (fullYearFromTmYear value % 100)

def appendEpochSeconds (timeParts : Tm) : List UInt8 :=
  signedBytes (normalizedTmToUnixSeconds timeParts)

/-! ## Zones -/

def maxNumericUtcOffsetSeconds : Nat := 86340

def isValidNumericUtcOffsetSeconds (totalSeconds : Int) : Bool :=
  totalSeconds.natAbs ≤ maxNumericUtcOffsetSeconds ∧ totalSeconds.natAbs % 60 = 0

def appendNumericUtcOffset (gmtoff : Int) : List UInt8 :=
  if ¬isValidNumericUtcOffsetSeconds gmtoff then unknown
  else
    let totalMinutes := gmtoff.natAbs / 60
    let hours : Nat := totalMinutes / 60
    let minutes : Nat := totalMinutes % 60
    ascii (if gmtoff < 0 then "-" else "+") ++ zeroPadded 2 hours ++ zeroPadded 2 minutes

/-- `readCString` is what the memory holds at an address, up to the NUL. -/
def appendTimezoneAbbreviation (readCString : Nat → List UInt8) (zone : Nat) : List UInt8 :=
  if zone = 0 then [] else readCString zone

/-! ## Fields -/

def appendPaddedDecimal (value : Int) (width : Nat) : List UInt8 := zeroPadded width value

def appendPaddedDecimalInRange (value : Int) (width : Nat) (min max : Int) : List UInt8 :=
  if value < min ∨ value > max then unknown else appendPaddedDecimal value width

def appendMonthNumber (mon : Int) : List UInt8 :=
  if 0 ≤ mon ∧ mon ≤ 11 then appendPaddedDecimal (mon + 1) 2 else unknown

def appendDayOfMonth (mday : Int) : List UInt8 := appendPaddedDecimalInRange mday 2 1 31

def appendDayOfMonthSpacePadded (mday : Int) : List UInt8 :=
  if ¬(1 ≤ mday ∧ mday ≤ 31) then unknown else spacePadded 2 mday

def appendHour24 (hour : Int) : List UInt8 := appendPaddedDecimalInRange hour 2 0 23

def appendHour24SpacePadded (hour : Int) : List UInt8 :=
  if ¬(0 ≤ hour ∧ hour ≤ 23) then unknown else spacePadded 2 hour

def normalizeHour12 (hour : Int) : Option Int :=
  if 1 ≤ hour ∧ hour ≤ 11 then some hour
  else if hour = 0 ∨ hour = 12 then some 12
  else if 13 ≤ hour ∧ hour ≤ 23 then some (hour - 12)
  else none

def appendHour12 (hour : Int) : List UInt8 :=
  match normalizeHour12 hour with
  | none => unknown
  | some normalized => appendPaddedDecimal normalized 2

def appendHour12SpacePadded (hour : Int) : List UInt8 :=
  match normalizeHour12 hour with
  | none => unknown
  | some normalized => spacePadded 2 normalized

def appendMinute (minute : Int) : List UInt8 := appendPaddedDecimalInRange minute 2 0 59

def appendSecond (second : Int) : List UInt8 := appendPaddedDecimalInRange second 2 0 60

def appendMeridiem (hour : Int) (lowercase : Bool) : List UInt8 :=
  if 0 ≤ hour ∧ hour ≤ 11 then ascii (if lowercase then "am" else "AM")
  else if 12 ≤ hour ∧ hour ≤ 23 then ascii (if lowercase then "pm" else "PM")
  else unknown

def appendPosixWeekday (wday : Int) : List UInt8 :=
  if wday = 0 then ascii "7" else if 1 ≤ wday ∧ wday ≤ 6 then signedBytes wday else unknown

def appendCWeekday (wday : Int) : List UInt8 :=
  if 0 ≤ wday ∧ wday ≤ 6 then signedBytes wday else unknown

def appendJulianDay (tmYear yday : Int) : List UInt8 :=
  if ¬isValidTmYdayForYear (fullYearFromTmYear tmYear) yday then unknown
  else appendPaddedDecimal (yday + 1) 3

/-! ## Weeks -/

def appendWeekNumber (tmYear yday wday : Int) (mondayBased : Bool) : List UInt8 :=
  if ¬(0 ≤ wday ∧ wday ≤ 6) then unknown
  else if ¬isValidTmYdayForYear (fullYearFromTmYear tmYear) yday then unknown
  else
    let weekStartOffset := if mondayBased then if wday = 0 then 6 else wday - 1 else wday
    appendPaddedDecimal ((yday + 7 - weekStartOffset).tdiv 7) 2

def isoWeeksInYear (year : Int) : Int :=
  let januaryFirstWeekday := (daysFromCivil year 1 1 + 4) % 7
  if januaryFirstWeekday = 4 ∨ (januaryFirstWeekday = 3 ∧ isLeapYear year) then 53 else 52

/-- The ISO year and the number of the week. -/
def isoWeekContext (tmYear yday wday : Int) : Option (Int × Int) :=
  if ¬(0 ≤ yday ∧ yday ≤ 365) ∨ ¬(0 ≤ wday ∧ wday ≤ 6) then none
  else
    let fullYear := fullYearFromTmYear tmYear
    if ¬isValidTmYdayForYear fullYear yday then none
    else
      let isoWeekday := if wday = 0 then 7 else wday
      let weekNumber := (yday + 10 - isoWeekday).tdiv 7
      if weekNumber < 1 then some (fullYear - 1, isoWeeksInYear (fullYear - 1))
      else if weekNumber > isoWeeksInYear fullYear then some (fullYear + 1, 1)
      else some (fullYear, weekNumber)

def appendIsoWeekYear (tmYear yday wday : Int) (twoDigits : Bool) : List UInt8 :=
  match isoWeekContext tmYear yday wday with
  | none => unknown
  | some (isoYear, _) =>
    if twoDigits then zeroPadded 2 (isoYear % 100) else appendFullYear isoYear

def appendIsoWeekNumber (tmYear yday wday : Int) : List UInt8 :=
  match isoWeekContext tmYear yday wday with
  | none => unknown
  | some (_, weekNumber) => appendPaddedDecimal weekNumber 2

/-! ## Directives -/

def appendCLocaleDatetime (timeParts : Tm) : List UInt8 :=
  weekdayName timeParts.tmWday false ++ ascii " " ++ monthName timeParts.tmMon false ++
    ascii " " ++ appendDayOfMonthSpacePadded timeParts.tmMday ++ ascii " " ++
    appendHour24 timeParts.tmHour ++ ascii ":" ++ appendMinute timeParts.tmMin ++ ascii ":" ++
    appendSecond timeParts.tmSec ++ ascii " " ++ appendYear timeParts.tmYear

def normalizeAlternativeModifierToken (modifier token : UInt8) : Option UInt8 :=
  if modifier ∈ ascii "E" then
    if token ∈ ascii "cCxXyYzurRpPTsnt" then some token else none
  else if modifier ∈ ascii "O" then
    if token ∈ ascii "deHImMSuUVwWyYCGgjklpPRTrzsnt" then some token else none
  else none

def isAlternativeModifier (token : UInt8) : Bool := token ∈ ascii "EO"

def percent : UInt8 := 37

def appendVerbatimPercentToken (token : UInt8) : List UInt8 := [percent, token]

def appendVerbatimAlternativeModifier (modifier token : UInt8) : List UInt8 :=
  appendVerbatimPercentToken modifier ++ [token]

def appendToken (readCString : Nat → List UInt8) (token : UInt8) (t : Tm) : List UInt8 :=
  if token ∈ ascii "%" then [percent]
  else if token ∈ ascii "c" then appendCLocaleDatetime t
  else if token ∈ ascii "C" then appendCentury t.tmYear
  else if token ∈ ascii "y" then appendYearTwoDigits t.tmYear
  else if token ∈ ascii "Y" then appendYear t.tmYear
  else if token ∈ ascii "s" then appendEpochSeconds t
  else if token ∈ ascii "m" then appendMonthNumber t.tmMon
  else if token ∈ ascii "d" then appendDayOfMonth t.tmMday
  else if token ∈ ascii "e" then appendDayOfMonthSpacePadded t.tmMday
  else if token ∈ ascii "H" then appendHour24 t.tmHour
  else if token ∈ ascii "k" then appendHour24SpacePadded t.tmHour
  else if token ∈ ascii "I" then appendHour12 t.tmHour
  else if token ∈ ascii "l" then appendHour12SpacePadded t.tmHour
  else if token ∈ ascii "p" then appendMeridiem t.tmHour false
  else if token ∈ ascii "P" then appendMeridiem t.tmHour true
  else if token ∈ ascii "Z" then appendTimezoneAbbreviation readCString t.tmZone
  else if token ∈ ascii "z" then appendNumericUtcOffset t.tmGmtoff
  else if token ∈ ascii "M" then appendMinute t.tmMin
  else if token ∈ ascii "S" then appendSecond t.tmSec
  else if token ∈ ascii "Dx" then
    appendMonthNumber t.tmMon ++ ascii "/" ++ appendDayOfMonth t.tmMday ++ ascii "/" ++
      appendYearTwoDigits t.tmYear
  else if token ∈ ascii "F" then
    appendYear t.tmYear ++ ascii "-" ++ appendMonthNumber t.tmMon ++ ascii "-" ++
      appendDayOfMonth t.tmMday
  else if token ∈ ascii "TX" then
    appendHour24 t.tmHour ++ ascii ":" ++ appendMinute t.tmMin ++ ascii ":" ++
      appendSecond t.tmSec
  else if token ∈ ascii "R" then appendHour24 t.tmHour ++ ascii ":" ++ appendMinute t.tmMin
  else if token ∈ ascii "v" then
    appendDayOfMonthSpacePadded t.tmMday ++ ascii "-" ++ monthName t.tmMon false ++
      ascii "-" ++ appendYear t.tmYear
  else if token ∈ ascii "r" then
    appendHour12 t.tmHour ++ ascii ":" ++ appendMinute t.tmMin ++ ascii ":" ++
      appendSecond t.tmSec ++ ascii " " ++ appendMeridiem t.tmHour false
  else if token ∈ ascii "a" then weekdayName t.tmWday false
  else if token ∈ ascii "A" then weekdayName t.tmWday true
  else if token ∈ ascii "hb" then monthName t.tmMon false
  else if token ∈ ascii "B" then monthName t.tmMon true
  else if token ∈ ascii "j" then appendJulianDay t.tmYear t.tmYday
  else if token ∈ ascii "U" then appendWeekNumber t.tmYear t.tmYday t.tmWday false
  else if token ∈ ascii "W" then appendWeekNumber t.tmYear t.tmYday t.tmWday true
  else if token ∈ ascii "G" then appendIsoWeekYear t.tmYear t.tmYday t.tmWday false
  else if token ∈ ascii "g" then appendIsoWeekYear t.tmYear t.tmYday t.tmWday true
  else if token ∈ ascii "V" then appendIsoWeekNumber t.tmYear t.tmYday t.tmWday
  else if token ∈ ascii "u" then appendPosixWeekday t.tmWday
  else if token ∈ ascii "w" then appendCWeekday t.tmWday
  else if token ∈ ascii "n" then ascii "\n"
  else if token ∈ ascii "t" then ascii "\t"
  else appendVerbatimPercentToken token

/-! ## The call -/

/-- The loop over the format, which is the bytes before its NUL. -/
def strftimeLoop (readCString : Nat → List UInt8) (timeParts : Tm) :
    OutputBuffer → List UInt8 → OutputBuffer
  | buffer, [] => buffer
  | buffer, [byte] => buffer.pushByte byte
  | buffer, byte :: token :: rest =>
    if byte ≠ percent then strftimeLoop readCString timeParts (buffer.pushByte byte) (token :: rest)
    else if isAlternativeModifier token then
      match rest with
      | [] => buffer.pushBytes (appendVerbatimPercentToken token)
      | modified :: rest =>
        match normalizeAlternativeModifierToken token modified with
        | some baseToken =>
          strftimeLoop readCString timeParts
            (buffer.pushBytes (appendToken readCString baseToken timeParts)) rest
        | none =>
          strftimeLoop readCString timeParts
            (buffer.pushBytes (appendVerbatimAlternativeModifier token modified)) rest
    else
      strftimeLoop readCString timeParts
        (buffer.pushBytes (appendToken readCString token timeParts)) rest

/-- What a call returns, the bytes it writes to its buffer, and the `errno` it sets. -/
structure StrftimeResult where
  ret : Nat
  stores : List (Nat × UInt8)
  errno : Option Int
deriving DecidableEq

/-- `strftime`; `sIsNull` says that the buffer is a null pointer, `none` stands for the other
null pointers. -/
def strftime (readCString : Nat → List UInt8) (sIsNull : Bool) (max : Nat)
    (format : Option (List UInt8)) (timePtr : Option Tm) : StrftimeResult :=
  match format, timePtr with
  | some format, some timeParts =>
    if max ≠ 0 ∧ sIsNull then ⟨0, [], some EINVAL⟩
    else
      let buffer := strftimeLoop readCString timeParts (.new max) format
      ⟨buffer.finish, buffer.terminate.stores, none⟩
  | _, _ => ⟨0, [], some EINVAL⟩

end Rlibc.Time
