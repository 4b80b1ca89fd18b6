import Rlibc.Foundations.ByteMem
import Rlibc.Stdio.FormatDirective

/-!
# Variadic arguments

A cursor reads a `va_list` of the x86_64 System V ABI: general registers first, from their save
area, then the overflow area.
-/

namespace Rlibc.Stdio

open ByteMem

/-- `VarArgCursor`. -/
structure VarArgCursor where
  gpOffset : Nat
  fpOffset : Nat
  regSaveArea : Nat
  overflowArgArea : Nat
deriving DecidableEq

/-- The fields of the `va_list` at `ap`. -/
def VarArgCursor.fromVaList (m : Mem) (ap : Nat) : VarArgCursor :=
  if ap = 0 then ⟨48, 176, 0, 0⟩
  else ⟨natAt m 4 ap, natAt m 4 (ap + 4), wordAt m (ap + 16), wordAt m (ap + 8)⟩

/-- `u32::MAX`. -/
def u32Max : Nat := 0xFFFFFFFF

namespace VarArgCursor

/-- The address of the slot that is read next, and the cursor behind it. -/
def nextSlot (c : VarArgCursor) : Option (Nat × VarArgCursor) :=
  if c.gpOffset < 48 ∧ c.regSaveArea ≠ 0 then
    some (c.regSaveArea + c.gpOffset, { c with gpOffset := min (c.gpOffset + 8) u32Max })
  else if c.overflowArgArea = 0 then none
  else some (c.overflowArgArea, { c with overflowArgArea := c.overflowArgArea + 8 })

def nextU64 (m : Mem) (c : VarArgCursor) : Option (Nat × VarArgCursor) :=
  c.nextSlot.map fun r => (wordAt m r.1, r.2)

/-- The address of a pointer argument. -/
def nextPtr (m : Mem) (c : VarArgCursor) : Option (Nat × VarArgCursor) := c.nextU64 m

def nextU32 (m : Mem) (c : VarArgCursor) : Option (Nat × VarArgCursor) :=
  (c.nextU64 m).map fun r => (r.1 % 2 ^ 32, r.2)

def nextCInt (m : Mem) (c : VarArgCursor) : Option (Int × VarArgCursor) :=
  (c.nextU32 m).map fun r => (Int.bmod r.1 (2 ^ 32), r.2)

def skipLongDouble (c : VarArgCursor) : Option VarArgCursor :=
  if c.overflowArgArea = 0 then none else some { c with overflowArgArea := c.overflowArgArea + 16 }

end VarArgCursor

/-- The width, and whether the field is aligned to the left now. -/
def resolveWidth (m : Mem) (widthSpec : Option CountSpec) (c : VarArgCursor) (leftAlign : Bool) :
    Option ((Nat × Bool) × VarArgCursor) :=
  match widthSpec with
  | none => some ((0, leftAlign), c)
  | some (.literal value) => some ((value, leftAlign), c)
  | some .fromArgs => (c.nextCInt m).map fun r =>
    if r.1 < 0 then ((r.1.natAbs, true), r.2) else ((r.1.toNat, leftAlign), r.2)

def resolvePrecision (m : Mem) (precisionSpec : Option CountSpec) (c : VarArgCursor) :
    Option (Option Nat × VarArgCursor) :=
  match precisionSpec with
  | none => some (none, c)
  | some (.literal value) => some (some value, c)
  | some .fromArgs => (c.nextCInt m).map fun r =>
    if r.1 < 0 then (none, r.2) else (some r.1.toNat, r.2)

def readSignedArgument (m : Mem) (c : VarArgCursor) (length : LengthModifier) :
    Option (Int × VarArgCursor) :=
  match length with
  | .default => c.nextCInt m
  | .hh => (c.nextCInt m).map fun r => (Int.bmod r.1 (2 ^ 8), r.2)
  | .h => (c.nextCInt m).map fun r => (Int.bmod r.1 (2 ^ 16), r.2)
  | _ => (c.nextU64 m).map fun r => (Int.bmod r.1 (2 ^ 64), r.2)

def readUnsignedArgument (m : Mem) (c : VarArgCursor) (length : LengthModifier) :
    Option (Nat × VarArgCursor) :=
  match length with
  | .default => c.nextU32 m
  | .hh => (c.nextU32 m).map fun r => (r.1 % 2 ^ 8, r.2)
  | .h => (c.nextU32 m).map fun r => (r.1 % 2 ^ 16, r.2)
  | _ => c.nextU64 m

/-! ## Strings -/

/-- The C string at an address. -/
def cString (m : Mem) (a : Nat) : List UInt8 := untilNul m (0x10000000000000000 - a) a

/-- The bytes of the string at an address that a precision leaves. -/
def cStringPrefix (m : Mem) (a : Nat) (precision : Option Nat) : List UInt8 :=
  untilNul m (min (precision.getD usizeMax) (0x10000000000000000 - a)) a

def cStringPrefixLen (m : Mem) (a : Nat) (precision : Option Nat) : Nat :=
  (cStringPrefix m a precision).length

def cStringPrefixContainsByte (m : Mem) (a : Nat) (target : UInt8) (precision : Option Nat) : Bool :=
  target ∈ cStringPrefix m a precision

end Rlibc.Stdio
