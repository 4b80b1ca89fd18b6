import Mathlib.Logic.Function.Basic

/-!
# The floating-point environment

`fenv.rs` keeps the exception flags and the rounding mode of each thread, and saves them in objects
that the program owns.  A `c_int` is a bit vector here.  A pointer is its address, and what stands
in memory behind it is a map.
-/

namespace Rlibc.Fenv

abbrev CInt := BitVec 32

def FE_ALL_EXCEPT : CInt := 0x3d
def FE_TONEAREST : CInt := 0x0000
def FE_DOWNWARD : CInt := 0x0400
def FE_UPWARD : CInt := 0x0800
def FE_TOWARDZERO : CInt := 0x0c00

/-- The address `usize::MAX`. -/
def FE_DFL_ENV : Nat := 0xffffffffffffffff

structure FenvT where
  words : Fin 8 → BitVec 32

/-- The mode and the flags in their words, and nothing in the reserved ones. -/
def FenvT.ofWords (roundMode exceptFlags : BitVec 32) : FenvT :=
  ⟨fun i => if i = 0 then roundMode else if i = 1 then exceptFlags else 0⟩

structure FenvState where
  exceptFlags : CInt
  roundMode : CInt
deriving DecidableEq

def FenvState.default : FenvState := ⟨0, FE_TONEAREST⟩

def normalizeExceptionMask (excepts : CInt) : CInt := excepts &&& FE_ALL_EXCEPT

def hasUnsupportedExceptionBits (excepts : CInt) : Bool := excepts &&& ~~~FE_ALL_EXCEPT ≠ 0

def isValidRoundMode (roundMode : CInt) : Bool :=
  roundMode ∈ [FE_TONEAREST, FE_DOWNWARD, FE_UPWARD, FE_TOWARDZERO]

/-- `u32::try_from` of a `c_int`, and `c_int::try_from` of a `u32`: the sign bit has to be clear. -/
def convert (value : BitVec 32) : Option (BitVec 32) := if value.msb then none else some value

/-- `none` stands for the two `unreachable!`. -/
def encodeState (state : FenvState) : Option FenvT :=
  (convert state.roundMode).bind fun roundMode =>
    (convert state.exceptFlags).map fun exceptFlags => .ofWords roundMode exceptFlags

def hasNonzeroReservedWords (env : FenvT) : Bool := ∃ i, 2 ≤ i ∧ env.words i ≠ 0

def decodeState (env : FenvT) : Option FenvState :=
  (convert (env.words 0)).bind fun roundMode =>
    if ¬ isValidRoundMode roundMode then none
    else if hasNonzeroReservedWords env then none
    else
      (convert (env.words 1)).bind fun exceptFlags =>
        if hasUnsupportedExceptionBits exceptFlags then none
        else some ⟨normalizeExceptionMask exceptFlags, roundMode⟩

/-! ## Calls -/

/-- The states of the threads, and the objects behind the pointers. -/
structure Machine (T : Type) where
  state : T → FenvState
  envs : Nat → FenvT
  flags : Nat → BitVec 16

/-- The entry points; the program itself may store to its objects as well. -/
inductive Call where
  | feclearexcept (excepts : CInt)
  | fegetexceptflag (flagp : Nat) (excepts : CInt)
  | feraiseexcept (excepts : CInt)
  | fesetexceptflag (flagp : Nat) (excepts : CInt)
  | fetestexcept (excepts : CInt)
  | fegetround
  | fesetround (roundMode : CInt)
  | fegetenv (envp : Nat)
  | feholdexcept (envp : Nat)
  | fesetenv (envp : Nat)
  | feupdateenv (envp : Nat)
  | storeEnv (envp : Nat) (env : FenvT)
  | storeFlag (flagp : Nat) (flag : BitVec 16)

section
variable {T : Type} [DecidableEq T]

def Machine.updateState (m : Machine T) (t : T) (f : FenvState → FenvState) : Machine T :=
  { m with state := Function.update m.state t (f (m.state t)) }

def Machine.feclearexcept (m : Machine T) (t : T) (excepts : CInt) : CInt × Machine T :=
  if hasUnsupportedExceptionBits excepts then (1, m)
  else
    let clearMask := normalizeExceptionMask excepts
    (0, m.updateState t fun state =>
      { state with exceptFlags := state.exceptFlags &&& ~~~clearMask })

/-- `none` stands for the `unreachable!`. -/
def Machine.fegetexceptflag (m : Machine T) (t : T) (flagp : Nat) (excepts : CInt) :
    Option (CInt × Machine T) :=
  if flagp = 0 ∨ hasUnsupportedExceptionBits excepts then some (1, m)
  else
    let captured := (m.state t).exceptFlags &&& normalizeExceptionMask excepts
    if captured.toNat < 0x10000 then
      some (0, { m with flags := Function.update m.flags flagp (captured.setWidth 16) })
    else none

def Machine.feraiseexcept (m : Machine T) (t : T) (excepts : CInt) : CInt × Machine T :=
  if hasUnsupportedExceptionBits excepts then (1, m)
  else
    let raiseMask := normalizeExceptionMask excepts
    (0, m.updateState t fun state => { state with exceptFlags := state.exceptFlags ||| raiseMask })

def Machine.fesetexceptflag (m : Machine T) (t : T) (flagp : Nat) (excepts : CInt) :
    CInt × Machine T :=
  if flagp = 0 ∨ hasUnsupportedExceptionBits excepts then (1, m)
  else
    let replaceMask := normalizeExceptionMask excepts
    let incoming := (m.flags flagp).setWidth 32 &&& replaceMask
    (0, m.updateState t fun state =>
      { state with exceptFlags := (state.exceptFlags &&& ~~~replaceMask) ||| incoming })

def Machine.fetestexcept (m : Machine T) (t : T) (excepts : CInt) : CInt :=
  (m.state t).exceptFlags &&& normalizeExceptionMask excepts

def Machine.fesetround (m : Machine T) (t : T) (roundMode : CInt) : CInt × Machine T :=
  if ¬ isValidRoundMode roundMode then (1, m)
  else (0, m.updateState t fun state => { state with roundMode := roundMode })

def Machine.fegetenv (m : Machine T) (t : T) (envp : Nat) : Option (CInt × Machine T) :=
  if envp = 0 then some (1, m)
  else
    (encodeState (m.state t)).map fun env =>
      (0, { m with envs := Function.update m.envs envp env })

def Machine.feholdexcept (m : Machine T) (t : T) (envp : Nat) : Option (CInt × Machine T) :=
  if envp = 0 then some (1, m)
  else
    (encodeState (m.state t)).map fun env =>
      (0, { m with envs := Function.update m.envs envp env }.updateState t fun state =>
        { state with exceptFlags := 0 })

def Machine.fesetenv (m : Machine T) (t : T) (envp : Nat) : CInt × Machine T :=
  if envp = FE_DFL_ENV then (0, m.updateState t fun _ => .default)
  else if envp = 0 then (1, m)
  else
    match decodeState (m.envs envp) with
    | none => (1, m)
    | some decoded => (0, m.updateState t fun _ => decoded)

def Machine.feupdateenv (m : Machine T) (t : T) (envp : Nat) : CInt × Machine T :=
  let raisedBeforeRestore := m.fetestexcept t FE_ALL_EXCEPT
  let restored := m.fesetenv t envp
  if restored.1 ≠ 0 then (1, restored.2)
  else (0, (restored.2.feraiseexcept t raisedBeforeRestore).2)

/-- A call by a thread. -/
def Machine.call (m : Machine T) (l : T × Call) : Option (CInt × Machine T) :=
  match l.2 with
  | .feclearexcept excepts => some (m.feclearexcept l.1 excepts)
  | .fegetexceptflag flagp excepts => m.fegetexceptflag l.1 flagp excepts
  | .feraiseexcept excepts => some (m.feraiseexcept l.1 excepts)
  | .fesetexceptflag flagp excepts => some (m.fesetexceptflag l.1 flagp excepts)
  | .fetestexcept excepts => some (m.fetestexcept l.1 excepts, m)
  | .fegetround => some ((m.state l.1).roundMode, m)
  | .fesetround roundMode => some (m.fesetround l.1 roundMode)
  | .fegetenv envp => m.fegetenv l.1 envp
  | .feholdexcept envp => m.feholdexcept l.1 envp
  | .fesetenv envp => some (m.fesetenv l.1 envp)
  | .feupdateenv envp => some (m.feupdateenv l.1 envp)
  | .storeEnv envp env => some (0, { m with envs := Function.update m.envs envp env })
  | .storeFlag flagp flag => some (0, { m with flags := Function.update m.flags flagp flag })

end

end Rlibc.Fenv
