import Rlibc.Process.Exit

/-!
# Process startup

The constructor and destructor arrays, and `__libc_start_main`.  A process ends in one of two
ways: `main` returns its status, or calls `exit` with it as its last action.
-/

namespace Rlibc.Process

variable {W : Type}

/-- `size_of` and `align_of` of an array entry. -/
abbrev entrySize : Nat := 8

structure InitFiniRange where
  start : Nat
  stop : Nat

/-- `entry_count`. -/
def InitFiniRange.entryCount (range : InitFiniRange) : Nat :=
  if range.start = 0 ∨ range.stop = 0 then 0
  else if range.stop ≤ range.start then 0
  else if range.start % entrySize ≠ 0 ∨ range.stop % entrySize ≠ 0 then 0
  else if range.stop - range.start > isizeMax then 0
  else if (range.stop - range.start) % entrySize ≠ 0 then 0
  else (range.stop - range.start) / entrySize

/-- `read_array_entry`: slots that are null or not aligned are skipped. -/
def Program.readArrayEntry (p : Program W) (start index : Nat) : Option Nat :=
  let raw := p.word (start + entrySize * index)
  if raw = 0 then none else if raw % entrySize ≠ 0 then none else some raw

/-- One turn of the loops over an array. -/
def Program.callEntry (p : Program W) (start : Nat) (event : Nat → Event) (s : State W)
    (index : Nat) : State W :=
  match p.readArrayEntry start index with
  | none => s
  | some function => p.call function (event index) s

def Program.runInitArrayRange (p : Program W) (range : InitFiniRange) (s : State W) : State W :=
  (List.range range.entryCount).foldl (p.callEntry range.start .constructor) s

def Program.runFiniArrayRange (p : Program W) (range : InitFiniRange) (s : State W) : State W :=
  (List.range range.entryCount).reverse.foldl (p.callEntry range.start .destructor) s

structure StartupArgs where
  argc : Int
  argv : Nat
  envp : Nat

/-- How `main` ends. -/
inductive Ending where
  | returns
  | exits

/-- The first three steps of `run_startup_main`: `environ`, constructors, `main`. -/
def Program.runMain (p : Program W) (main : Int → Nat → Nat → W → Code (Int × W))
    (args : StartupArgs) (init : InitFiniRange) (s : State W) : Int × State W :=
  let s := p.runInitArrayRange init { s with world := p.bindEnviron args.envp s.world }
  let ((status, world), registry) := (main args.argc args.argv args.envp s.world).run s.registry
  (status, ⟨world, registry⟩)

/-- `run_startup_main`, for a `main` that returns. -/
def Program.runStartupMain (p : Program W) (main : Int → Nat → Nat → W → Code (Int × W))
    (args : StartupArgs) (init fini : InitFiniRange) (s : State W) : Int × State W :=
  let (status, s) := p.runMain main args init s
  (status, p.runFiniArrayRange fini s)

def MISSING_MAIN_STATUS : Int := 127

/-- `run_libc_start_main_with`, terminating with `exit`. -/
def Program.runLibcStartMainWith (p : Program W) (args : StartupArgs) (init fini : InitFiniRange)
    (ending : Ending) (fuel : Nat) (s : State W) : Option Outcome :=
  let s := { s with world := p.bindEnviron args.envp s.world }
  match p.main with
  | none => p.exit fuel MISSING_MAIN_STATUS s
  | some main =>
    match ending with
    | .returns =>
      let (status, s) := p.runStartupMain main args init fini s
      p.exit fuel status s
    | .exits =>
      let (status, s) := p.runMain main args init s
      p.exit fuel status s

/-- `__libc_start_main` starts with no handler registered. -/
def Program.libcStartMain (p : Program W) (args : StartupArgs) (init fini : InitFiniRange)
    (ending : Ending) (fuel : Nat) (world : W) : Option Outcome :=
  p.runLibcStartMainWith args init fini ending fuel ⟨world, ⟨[], []⟩⟩

end Rlibc.Process
