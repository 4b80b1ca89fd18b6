import Mathlib.Data.Finset.Insert
import Mathlib.Data.Finset.Erase
import Mathlib.Logic.Function.Basic
import Rlibc.Foundations.RefCounts
import Rlibc.Machine

/-!
# The registry of loader handles

A handle is the value of a `void *`.  The registry maps the handles that were opened to their
reference counts and keeps two sets that say where they came from.
-/

namespace Rlibc.Dlfcn

open RefCounts

/-- A `*mut c_void`, which the registry keeps as a `usize`. -/
abbrev Handle := UInt64

def nullHandle : Handle := 0

/-- `TRACKABLE_NULL_HANDLE_ID` -/
def trackableNullHandleId : Handle := 0

/-- `INTERNAL_MAIN_PROGRAM_HANDLE_ID`, `usize::MAX - 2` -/
def internalMainProgramHandleId : Handle := 0xfffffffffffffffd

/-- `INTERNAL_PROC_SELF_EXE_HANDLE_ID`, `usize::MAX - 1` -/
def internalProcSelfExeHandleId : Handle := 0xfffffffffffffffe

/-- `RTLD_NEXT`, `-1` -/
def rtldNext : Handle := 0xffffffffffffffff

def dlerrorInvalidHandle : List Char := "rlibc: invalid dynamic-loader handle".toList

def dlerrorAlreadyClosed : List Char := "rlibc: dynamic-loader handle already closed".toList

inductive CloseOutcome where
  | success
  | alreadyClosed
  | invalidHandle
deriving DecidableEq

/-- `open` is a word of Lean. -/
inductive DlHandleState where
  | opened (refcount : Nat)
  | closed
deriving DecidableEq

/-- One more reference to a handle that has an entry. -/
def DlHandleState.reopened : DlHandleState → DlHandleState
  | .opened refcount => .opened (saturatingAdd refcount 1)
  | .closed => .opened 1

structure DlHandleRegistry where
  handles : Handle → Option DlHandleState
  internalHandles : Finset Handle
  mainProgramHandles : Finset Handle
  nextHandleId : Nat

inductive DlsymHandleKind where
  | default
  | next
  | mainProgram
  | internal
  | external
deriving DecidableEq

namespace DlHandleRegistry

def new : DlHandleRegistry where
  handles := fun _ => none
  internalHandles := ∅
  mainProgramHandles := ∅
  nextHandleId := 1

def clearTrackableNullHandleEntry (r : DlHandleRegistry) : DlHandleRegistry :=
  { r with
    handles := Function.update r.handles trackableNullHandleId none
    internalHandles := r.internalHandles.erase trackableNullHandleId
    mainProgramHandles := r.mainProgramHandles.erase trackableNullHandleId }

def setHandleOrigin (r : DlHandleRegistry) (handleId : Handle) (isInternal isMainProgram : Bool) :
    DlHandleRegistry :=
  { r with
    internalHandles :=
      if isInternal then insert handleId r.internalHandles else r.internalHandles.erase handleId
    mainProgramHandles :=
      if isMainProgram then insert handleId r.mainProgramHandles
      else r.mainProgramHandles.erase handleId }

def setHandleState (r : DlHandleRegistry) (handleId : Handle) (state : DlHandleState) :
    DlHandleRegistry :=
  { r with handles := Function.update r.handles handleId (some state) }

def registerOpenHandleWithOrigin (r : DlHandleRegistry) (handle : Handle)
    (isInternal isMainProgram : Bool) : DlHandleRegistry :=
  let r := r.clearTrackableNullHandleEntry
  if handle = nullHandle then r
  else if isInternal then
    match r.handles handle with
    | some state =>
      (r.setHandleState handle state.reopened).setHandleOrigin handle true isMainProgram
    | none => (r.setHandleOrigin handle true isMainProgram).setHandleState handle (.opened 1)
  else
    match checkedAdd handle.toNat 1 with
    | none =>
      -- `usize::MAX` gets a new reference only if it has an entry already
      match r.handles handle with
      | some state =>
        (r.setHandleState handle state.reopened).setHandleOrigin handle false isMainProgram
      | none => r
    | some nextAfterHandle =>
      let r := { r with nextHandleId := max r.nextHandleId nextAfterHandle }
      match r.handles handle with
      | some (.opened refcount) =>
        (r.setHandleState handle (.opened (saturatingAdd refcount 1))).setHandleOrigin handle false
          isMainProgram
      | _ => (r.setHandleOrigin handle false isMainProgram).setHandleState handle (.opened 1)

def registerOpenHandle (r : DlHandleRegistry) (handle : Handle) : DlHandleRegistry :=
  r.registerOpenHandleWithOrigin handle false false

def registerOpenInternalHandle (r : DlHandleRegistry) (handle : Handle) : DlHandleRegistry :=
  r.registerOpenHandleWithOrigin handle true false

def registerOpenMainProgramHandle (r : DlHandleRegistry) (handle : Handle) : DlHandleRegistry :=
  r.registerOpenHandleWithOrigin handle (handle = internalMainProgramHandleId) true

def closeHandle (r : DlHandleRegistry) (handleId : Handle) : CloseOutcome × DlHandleRegistry :=
  let r := r.clearTrackableNullHandleEntry
  if handleId = trackableNullHandleId then (.invalidHandle, r)
  else
    match r.handles handleId with
    | none => (.invalidHandle, r)
    | some (.opened refcount) =>
      if 1 < refcount then (.success, r.setHandleState handleId (.opened (refcount - 1)))
      else (.success, r.setHandleState handleId .closed)
    | some .closed => (.alreadyClosed, r)

def validateDlsymHandle (r : DlHandleRegistry) (handleId : Handle) : Except (List Char) Unit :=
  match r.handles handleId with
  | some (.opened _) => .ok ()
  | some .closed => .error dlerrorAlreadyClosed
  | none => .error dlerrorInvalidHandle

def isOpenHandle (r : DlHandleRegistry) (handleId : Handle) : Bool :=
  match r.handles handleId with
  | some (.opened _) => true
  | some .closed => false
  | none => false

def isInternalOpenHandle (r : DlHandleRegistry) (handleId : Handle) : Bool :=
  r.isOpenHandle handleId && handleId ∈ r.internalHandles

def isMainProgramOpenHandle (r : DlHandleRegistry) (handleId : Handle) : Bool :=
  r.isOpenHandle handleId && handleId ∈ r.mainProgramHandles

end DlHandleRegistry

def classifyDlsymHandle (handle : Handle) (registry : DlHandleRegistry) :
    Except (List Char) DlsymHandleKind :=
  if handle = nullHandle then .ok .default
  else if handle = rtldNext then .ok .next
  else
    match registry.validateDlsymHandle handle with
    | .error message => .error message
    | .ok () =>
      .ok (if registry.isMainProgramOpenHandle handle then .mainProgram
        else if registry.isInternalOpenHandle handle then .internal
        else .external)

/-! ## Null is never tracked -/

/-- No map and no set of the registry knows the null handle. -/
structure DlHandleRegistry.NullUntracked (r : DlHandleRegistry) : Prop where
  handles : r.handles nullHandle = none
  internalHandles : nullHandle ∉ r.internalHandles
  mainProgramHandles : nullHandle ∉ r.mainProgramHandles

namespace DlHandleRegistry

variable {r : DlHandleRegistry} {handle : Handle}

theorem new_nullUntracked : new.NullUntracked where
  handles := rfl
  internalHandles := Finset.notMem_empty _
  mainProgramHandles := Finset.notMem_empty _

/-- There is nothing to clear. -/
theorem NullUntracked.clear_eq (h : r.NullUntracked) : r.clearTrackableNullHandleEntry = r := by
  have hhandles : Function.update r.handles trackableNullHandleId none = r.handles := by
    rw [← h.handles]
    exact Function.update_eq_self _ _
  have hinternal : r.internalHandles.erase trackableNullHandleId = r.internalHandles :=
    Finset.erase_eq_of_notMem h.internalHandles
  have hmain : r.mainProgramHandles.erase trackableNullHandleId = r.mainProgramHandles :=
    Finset.erase_eq_of_notMem h.mainProgramHandles
  unfold clearTrackableNullHandleEntry
  rw [hhandles, hinternal, hmain]

/-! ## What an open and a close do -/

/-- The entry of a handle after one more open. -/
def bumped : Option DlHandleState → DlHandleState
  | none => .opened 1
  | some state => state.reopened

/-- An open adds a reference and sets the origin; only the next handle id differs between the
paths. -/
theorem NullUntracked.register_eq (h : r.NullUntracked) (hnull : handle ≠ nullHandle)
    (hnext : handle ≠ rtldNext) (isInternal isMainProgram : Bool) :
    ∃ nextHandleId, r.registerOpenHandleWithOrigin handle isInternal isMainProgram =
      ({ r with nextHandleId := nextHandleId }.setHandleState handle
        (bumped (r.handles handle))).setHandleOrigin handle isInternal isMainProgram := by
  have hfits : checkedAdd handle.toNat 1 = some (handle.toNat + 1) := by
    have hlt := handle.toNat_lt
    have hne : handle.toNat ≠ usizeMax := fun heq => hnext (UInt64.toNat_inj.mp heq)
    unfold checkedAdd
    rw [if_pos]
    unfold usizeMax at hne ⊢
    omega
  unfold registerOpenHandleWithOrigin
  rw [h.clear_eq]
  dsimp only
  rw [if_neg hnull, hfits]
  dsimp only
  cases isInternal with
  | true =>
    rw [if_pos rfl]
    refine ⟨r.nextHandleId, ?_⟩
    cases r.handles handle with
    | none => rfl
    | some state => rfl
  | false =>
    rw [if_neg Bool.false_ne_true]
    refine ⟨max r.nextHandleId (handle.toNat + 1), ?_⟩
    cases r.handles handle with
    | none => rfl
    | some state =>
      cases state with
      | opened refcount => rfl
      | closed => rfl

end DlHandleRegistry

end Rlibc.Dlfcn
