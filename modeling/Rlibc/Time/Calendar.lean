import Rlibc.Machine
import Mathlib.Data.Int.Init

/-!
# Calendar conversion

`gmtime_r`, `timegm` and `mktime` with the two conversions they are built from.  The source
computes in `i128` from a `time_t` and from `c_int` fields, so no intermediate value wraps, and
an `i128` is an `Int`; `/` and `%` of the source truncate and are `Int.tdiv` and `Int.tmod`,
`div_euclid` and `rem_euclid` are `/` and `%`.
-/

namespace Rlibc.Time

/-- `time_t`. -/
def TimeT : Type := { seconds : Int // FitsCLong seconds }

/-- `struct tm`; `tm_zone` is an address. -/
structure Tm where
  tmSec : Int
  tmMin : Int
  tmHour : Int
  tmMday : Int
  tmMon : Int
  tmYear : Int
  tmWday : Int
  tmYday : Int
  tmIsdst : Int
  tmGmtoff : Int
  tmZone : Nat
deriving DecidableEq

/-- What the storage of `gmtime` holds at first. -/
def unixEpochTm : Tm where
  tmSec := 0
  tmMin := 0
  tmHour := 0
  tmMday := 1
  tmMon := 0
  tmYear := 70
  tmWday := 4
  tmYday := 0
  tmIsdst := 0
  tmGmtoff := 0
  tmZone := 0

def secondsPerDay : Int := 86400

def daysPer400Years : Int := 146097

def daysBeforeMonth : List Int := [0, 31, 59, 90, 120, 151, 181, 212, 243, 273, 304, 334]

def isLeapYear (year : Int) : Bool :=
  (year.tmod 4 = 0 ∧ year.tmod 100 ≠ 0) ∨ year.tmod 400 = 0

def dayOfYear (year month day : Int) : Option Int := do
  if month - 1 < 0 then none
  let before ← daysBeforeMonth[(month - 1).toNat]?
  let yday := before + (day - 1)
  cIntTryFrom (if month > 2 ∧ isLeapYear year then yday + 1 else yday)

/-- Year, month (`1..=12`) and day of a day number. -/
def civilFromDays (daysSinceEpoch : Int) : Int × Int × Int :=
  let shiftedDays := daysSinceEpoch + 719468
  let era := (if shiftedDays ≥ 0 then shiftedDays
    else shiftedDays - (daysPer400Years - 1)).tdiv daysPer400Years
  let dayOfEra := shiftedDays - era * daysPer400Years
  let yearOfEra := (dayOfEra - dayOfEra.tdiv 1460 + dayOfEra.tdiv 36524 -
    dayOfEra.tdiv 146096).tdiv 365
  let year := yearOfEra + era * 400
  let dayOfYear := dayOfEra - (365 * yearOfEra + yearOfEra.tdiv 4 - yearOfEra.tdiv 100)
  let monthPhase := (5 * dayOfYear + 2).tdiv 153
  let day := dayOfYear - (153 * monthPhase + 2).tdiv 5 + 1
  let month := monthPhase + if monthPhase < 10 then 3 else -9
  (if month ≤ 2 then year + 1 else year, month, day)

def daysFromCivil (year month day : Int) : Int :=
  let leapAdjustment := if month ≤ 2 then 1 else 0
  let adjustedYear := year - leapAdjustment
  let era := (if adjustedYear ≥ 0 then adjustedYear else adjustedYear - 399).tdiv 400
  let yearOfEra := adjustedYear - era * 400
  let monthPhase := month + if month > 2 then -3 else 9
  let dayOfYear := (153 * monthPhase + 2).tdiv 5 + day - 1
  let dayOfEra := yearOfEra * 365 + yearOfEra.tdiv 4 - yearOfEra.tdiv 100 + dayOfYear
  era * daysPer400Years + dayOfEra - 719468

def tmFromUnixSeconds (seconds : Int) : Option Tm := do
  let daysSinceEpoch := seconds / secondsPerDay
  let secondsWithinDay := seconds % secondsPerDay
  let (year, month, day) := civilFromDays daysSinceEpoch
  let tmYear ← cIntTryFrom (year - 1900)
  let tmYday ← dayOfYear year month day
  let tmHour ← cIntTryFrom (secondsWithinDay.tdiv 3600)
  let tmMin ← cIntTryFrom ((secondsWithinDay.tmod 3600).tdiv 60)
  let tmSec ← cIntTryFrom (secondsWithinDay.tmod 60)
  let monthIndex ← cIntTryFrom (month - 1)
  let dayOfMonth ← cIntTryFrom day
  let weekdayIndex ← cIntTryFrom ((daysSinceEpoch + 4) % 7)
  some
    { tmSec, tmMin, tmHour
      tmMday := dayOfMonth
      tmMon := monthIndex
      tmYear
      tmWday := weekdayIndex
      tmYday
      tmIsdst := 0
      tmGmtoff := 0
      tmZone := 0 }

def normalizedTmToUnixSeconds (timeParts : Tm) : Int :=
  let fullYear := timeParts.tmYear + 1900 + timeParts.tmMon / 12
  let zeroBasedMonth := timeParts.tmMon % 12
  let oneBasedMonth := zeroBasedMonth + 1
  let dayOffset := timeParts.tmMday - 1
  let daySeconds := timeParts.tmHour * 3600 + timeParts.tmMin * 60 + timeParts.tmSec
  let carryDays := daySeconds / secondsPerDay
  let normalizedDaySeconds := daySeconds % secondsPerDay
  let baseDays := daysFromCivil fullYear oneBasedMonth 1
  (baseDays + dayOffset + carryDays) * secondsPerDay + normalizedDaySeconds

def normalizedTmToUnixSecondsForMktime (timeParts : Tm) : Int :=
  if timeParts.tmIsdst > 0 then normalizedTmToUnixSeconds timeParts - 3600
  else normalizedTmToUnixSeconds timeParts

/-! ## The entry points

A pointer argument is the object it points to, or `none` when it is null. -/

/-- What a call returns, and the object and `errno` it leaves behind. -/
structure Reply (α : Type) where
  returned : α
  object : Option Tm
  errno : Int
deriving DecidableEq

/-- `gmtime_r`; `returned` says that the result pointer is not null. -/
def gmtimeR (timer : Option TimeT) (result : Option Tm) (errno : Int) : Reply Bool :=
  match timer, result with
  | some timer, some result =>
    match tmFromUnixSeconds timer.val with
    | some converted => ⟨true, some converted, errno⟩
    | none => ⟨false, some result, ERANGE⟩
  | _, _ => ⟨false, result, EINVAL⟩

/-- The common part of `timegm` and `mktime`: `toSeconds` reads the object. -/
def normalize (toSeconds : Tm → Int) (timeParts : Option Tm) (errno : Int) : Reply Int :=
  match timeParts with
  | none => ⟨-1, none, EINVAL⟩
  | some input =>
    let seconds := toSeconds input
    if FitsCLong seconds then
      match tmFromUnixSeconds seconds with
      | some normalized => ⟨seconds, some normalized, errno⟩
      | none => ⟨-1, some input, ERANGE⟩
    else ⟨-1, some input, ERANGE⟩

def timegm : Option Tm → Int → Reply Int := normalize normalizedTmToUnixSeconds

def mktime : Option Tm → Int → Reply Int := normalize normalizedTmToUnixSecondsForMktime

end Rlibc.Time
