import Rlibc.Foundations.BlockHeap
import Rlibc.Glob.Collect

/-!
# `glob` and `globfree`

The vector of results in memory.  `gl_pathc`, `gl_pathv` and `gl_offs` are all that is recorded of
it, and the caller can write them.  A read or a release through a pointer that does not fit what
stands at the address is `undefined`; memory that cannot be had ends the process.
-/

namespace Rlibc.Glob

open BlockHeap

abbrev ENOMEM : Int := 12
abbrev EINVAL : Int := 22

/-- `isize::MAX` bytes of pointers. -/
def maxEntries : Nat := 0x7FFFFFFFFFFFFFFF / 8

/-- A C string of the caller. -/
structure CStr where
  bytes : List UInt8
  noNul : 0 ∉ bytes

/-- `glob_t`. -/
structure GlobT where
  glPathc : Nat
  glPathv : Nat
  glOffs : Nat
  glFlags : Flags
deriving DecidableEq

inductive Block where
  | vector (slots : List Nat)
  | string (bytes : List UInt8)
deriving DecidableEq

/-- What is done through a pointer.  A vector comes and goes with its offset and its count. -/
inductive Access where
  | read (address : Nat)
  | freeString (address : Nat)
  | storeVector (pathv offsets count : Nat)
  | freeVector (pathv offsets count : Nat)
deriving DecidableEq

/-- The heap, and the accesses so far, the last one first. -/
structure Memory where
  heap : Heap Block
  accesses : List Access

def Memory.note (m : Memory) (access : Access) : Memory :=
  { m with accesses := access :: m.accesses }

def Memory.put (m : Memory) (address : Nat) (block : Block) : Memory :=
  { m with heap := BlockHeap.put m.heap address block }

def Memory.release (m : Memory) (address : Nat) : Memory :=
  { m with heap := BlockHeap.release m.heap address }

inductive Outcome (α : Type) where
  | done (value : α)
  | aborted
  | undefined
deriving DecidableEq

def Outcome.bind {α β : Type} : Outcome α → (α → Outcome β) → Outcome β
  | done value, next => next value
  | aborted, _ => aborted
  | undefined, _ => undefined

instance : Monad Outcome where
  pure := .done
  bind := .bind

@[simp] theorem Outcome.done_bind {α β : Type} (value : α) (next : α → Outcome β) :
    (Outcome.done value >>= next) = next value := rfl

/-! ## The old vector -/

/-- `pathv.add(index).read()`. -/
def readSlot (m : Memory) (pathv index : Nat) : Outcome (Nat × Memory) :=
  match m.heap pathv with
  | some (.vector slots) =>
    match slots[index]? with
    | some entry => .done (entry, m.note (.read pathv))
    | none => .undefined
  | _ => .undefined

/-- `CStr::from_ptr(entry).to_bytes()`. -/
def readString (m : Memory) (entry : Nat) : Outcome (List UInt8 × Memory) :=
  match m.heap entry with
  | some (.string bytes) => .done (bytes, m.note (.read entry))
  | _ => .undefined

/-- `CString::from_raw(entry)`, and its drop. -/
def freeString (m : Memory) (entry : Nat) : Outcome Memory :=
  match m.heap entry with
  | some (.string _) => .done ((m.release entry).note (.freeString entry))
  | _ => .undefined

/-- The loop of `clone_existing_paths` over the next `count` slots. -/
def clonePaths (pathv : Nat) : Nat → Nat → Memory → Outcome (List (List UInt8) × Memory)
  | 0, _, m => .done ([], m)
  | count + 1, index, m => do
    let entry ← readSlot m pathv index
    if entry.1 = 0 then .done ([], entry.2)
    else
      let bytes ← readString entry.2 entry.1
      let rest ← clonePaths pathv count (index + 1) bytes.2
      .done (bytes.1 :: rest.1, rest.2)

def cloneExistingPaths (pglob : GlobT) (offsets : Nat) (m : Memory) :
    Outcome (List (List UInt8) × Memory) :=
  if pglob.glPathc = 0 ∨ pglob.glPathv = 0 then .done ([], m)
  else clonePaths pglob.glPathv pglob.glPathc offsets m

/-- The loop of `free_pathv` over the next `count` slots. -/
def freeEntries (pathv : Nat) : Nat → Nat → Memory → Outcome Memory
  | 0, _, m => .done m
  | count + 1, index, m => do
    let entry ← readSlot m pathv index
    if entry.1 = 0 then freeEntries pathv count (index + 1) entry.2
    else
      let freed ← freeString entry.2 entry.1
      freeEntries pathv count (index + 1) freed

/-- `Box::from_raw` of a slice of `offsets + count + 1` entries, and its drop. -/
def freeSlots (m : Memory) (pathv offsets count : Nat) : Outcome Memory :=
  match m.heap pathv with
  | some (.vector slots) =>
    if slots.length = offsets + count + 1 then
      .done ((m.release pathv).note (.freeVector pathv offsets count))
    else .undefined
  | _ => .undefined

def freePathv (pathv pathCount offsets : Nat) (m : Memory) : Outcome Memory :=
  if pathv = 0 then .done m
  else do
    let freed ← freeEntries pathv pathCount offsets m
    freeSlots freed pathv offsets pathCount

/-! ## The new vector -/

/-- The loop of `allocate_pathv`: the strings, or `ENOMEM` at a path with a NUL. -/
def allocateStrings (allocator : Allocator Block) :
    List (List UInt8) → Memory → Outcome (Except Int (List Nat) × Memory)
  | [], m => .done (.ok [], m)
  | path :: paths, m =>
    if 0 ∈ path then .done (.error ENOMEM, m)
    else
      match allocator.pick m.heap (.string path) with
      | none => .aborted
      | some entry => do
        let rest ← allocateStrings allocator paths (m.put entry (.string path))
        .done (rest.1.map fun entries => entry :: entries, rest.2)

/-- The vector with its slots filled in, or dropped after an error. -/
def fillVector (pathv offsets : Nat) (strings : Except Int (List Nat)) (m : Memory) :
    Except Int Nat × Memory :=
  match strings with
  | .error errnoValue => (.error errnoValue, m.release pathv)
  | .ok entries => (.ok pathv,
      (m.put pathv (.vector (List.replicate offsets 0 ++ entries ++ [0]))).note
        (.storeVector pathv offsets entries.length))

def allocatePathv (allocator : Allocator Block) (paths : List (List UInt8)) (offsets : Nat)
    (m : Memory) : Outcome (Except Int Nat × Memory) :=
  let totalEntries := offsets + paths.length + 1
  if maxEntries < totalEntries then .aborted
  else
    match allocator.pick m.heap (.vector (List.replicate totalEntries 0)) with
    | none => .aborted
    | some pathv => do
      let strings ← allocateStrings allocator paths
        (m.put pathv (.vector (List.replicate totalEntries 0)))
      .done (fillVector pathv offsets strings.1 strings.2)

/-! ## The two calls -/

def globfree (pglob : Option GlobT) (m : Memory) : Outcome (Option GlobT × Memory) :=
  match pglob with
  | none => .done (none, m)
  | some pglob => do
    let freed ← freePathv pglob.glPathv pglob.glPathc pglob.glOffs m
    .done (some ⟨0, 0, 0, 0⟩, freed)

/-- What `glob` returns, what it sets `errno` to, and what it leaves. -/
structure Reply where
  code : Int
  errno : Option Int
  pglob : Option GlobT
  memory : Memory

/-- The offset of the vector to be stored. -/
def offsetsFor (flags : Flags) (pglob : GlobT) : Nat :=
  if hasFlag flags GLOB_APPEND ∨ hasFlag flags GLOB_DOOFFS then pglob.glOffs else 0

/-- The old vector is released once the new one stands. -/
def releaseOld (pglob : GlobT) (m : Memory) : Outcome Memory :=
  if pglob.glPathv ≠ 0 then do
    let freed ← globfree (some pglob) m
    .done freed.2
  else .done m

/-- The paths of the old vector that go into the new one. -/
def existingPaths (flags : Flags) (pglob : GlobT) (m : Memory) :
    Outcome (List (List UInt8) × Memory) :=
  if hasFlag flags GLOB_APPEND then cloneExistingPaths pglob (offsetsFor flags pglob) m
  else .done ([], m)

/-- `glob`, from the list of all paths of the new vector. -/
def storePaths (allocator : Allocator Block) (finalPaths : List (List UInt8)) (flags : Flags)
    (pglob : GlobT) (m : Memory) : Outcome Reply := do
  let allocated ← allocatePathv allocator finalPaths (offsetsFor flags pglob) m
  match allocated.1 with
  | .error errnoValue => .done ⟨GLOB_NOSPACE, some errnoValue, some pglob, allocated.2⟩
  | .ok pathv => do
    let released ← releaseOld pglob allocated.2
    .done ⟨0, none, some ⟨finalPaths.length, pathv, offsetsFor flags pglob, flags⟩, released⟩

/-- `glob`, from the paths that were found. -/
def storeMatches (allocator : Allocator Block) (matched : List (List UInt8)) (flags : Flags)
    (pglob : GlobT) (m : Memory) : Outcome Reply := do
  let existing ← existingPaths flags pglob m
  storePaths allocator (existing.1 ++ matched) flags pglob existing.2

def glob (allocator : Allocator Block) (fs : FileSystem) (pattern : Option CStr) (flags : Flags)
    (errfunc : GlobErrorFn) (pglob : Option GlobT) (m : Memory) : Outcome Reply :=
  match pattern, pglob with
  | some pattern, some pglob =>
    match matchedPaths fs pattern.bytes flags errfunc with
    | .error failure => .done ⟨failure.code, failure.errno, some pglob, m⟩
    | .ok matched => storeMatches allocator matched flags pglob m
  | _, _ => .done ⟨GLOB_ABORTED, some EINVAL, pglob, m⟩

end Rlibc.Glob
