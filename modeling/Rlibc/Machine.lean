import Mathlib.Data.Nat.Basic

/-!
# Machine integers of the target

The library is built for `x86_64`, so `usize` and `size_t` are 64 bits wide.  A `usize` is
modelled by a `Nat`; the arithmetic that the source spells `saturating_*` and `checked_*` keeps
its bound here.
-/

namespace Rlibc

/-- `usize::MAX`, and `size_t::MAX`. -/
def usizeMax : Nat := 0xffffffffffffffff

/-- `isize::MAX`. -/
def isizeMax : Nat := 0x7fffffffffffffff

/-- `c_int::MAX`. -/
def cIntMax : Nat := 0x7fffffff

/-- The value is one of `c_int`. -/
def FitsCInt (value : Int) : Prop := -0x80000000 ≤ value ∧ value ≤ 0x7fffffff

instance (value : Int) : Decidable (FitsCInt value) := inferInstanceAs (Decidable (_ ∧ _))

/-- `c_int::try_from(value).ok()`. -/
def cIntTryFrom (value : Int) : Option Int := if FitsCInt value then some value else none

/-- The value is one of `c_long`. -/
def FitsCLong (value : Int) : Prop := -0x8000000000000000 ≤ value ∧ value ≤ 0x7fffffffffffffff

instance (value : Int) : Decidable (FitsCLong value) := inferInstanceAs (Decidable (_ ∧ _))

/-- `a.saturating_add(b)`. -/
def saturatingAdd (a b : Nat) : Nat := min (a + b) usizeMax

/-- `a.saturating_mul(b)`. -/
def saturatingMul (a b : Nat) : Nat := min (a * b) usizeMax

/-- `a.checked_add(b)`. -/
def checkedAdd (a b : Nat) : Option Nat := if a + b ≤ usizeMax then some (a + b) else none

/-- `a.checked_mul(b)`. -/
def checkedMul (a b : Nat) : Option Nat := if a * b ≤ usizeMax then some (a * b) else none

/-- `a.checked_sub(b)`. -/
def checkedSub (a b : Nat) : Option Nat := if b ≤ a then some (a - b) else none

/-! ## Error numbers -/

abbrev EPERM : Int := 1
abbrev ESRCH : Int := 3
abbrev EIO : Int := 5
abbrev EAGAIN : Int := 11
abbrev ENOMEM : Int := 12
abbrev EFAULT : Int := 14
abbrev EBUSY : Int := 16
abbrev EINVAL : Int := 22
abbrev ERANGE : Int := 34
abbrev EDEADLK : Int := 35
abbrev EILSEQ : Int := 84
abbrev ETIMEDOUT : Int := 110

/-! ## Bounded arithmetic -/

theorem cIntTryFrom_of_fits {value : Int} (h : FitsCInt value) : cIntTryFrom value = some value :=
  if_pos h

theorem saturatingAdd_of_le {a b : Nat} (h : a + b ≤ usizeMax) : saturatingAdd a b = a + b :=
  Nat.min_eq_left h

theorem checkedAdd_eq_some {a b c : Nat} :
    checkedAdd a b = some c ↔ c = a + b ∧ a + b ≤ usizeMax := by
  unfold checkedAdd
  split <;> simp <;> omega

theorem checkedMul_eq_some {a b c : Nat} :
    checkedMul a b = some c ↔ c = a * b ∧ a * b ≤ usizeMax := by
  unfold checkedMul
  split <;> simp <;> omega

theorem checkedSub_eq_some {a b c : Nat} :
    checkedSub a b = some c ↔ c = a - b ∧ b ≤ a := by
  unfold checkedSub
  split <;> simp <;> omega

end Rlibc
