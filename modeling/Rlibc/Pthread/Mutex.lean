import Mathlib.Logic.Basic
import Rlibc.Machine

/-!
# The critical sections of a mutex

One turn of the retry loop in `mutex_lock_internal` is one critical section of the internal lock;
it ends in a return code or in a wait.  The sections that a condition wait runs on its mutex are
here as well.
-/

namespace Rlibc.Pthread

/-- `PTHREAD_MUTEX_NORMAL`, `PTHREAD_MUTEX_RECURSIVE` and `PTHREAD_MUTEX_ERRORCHECK`. -/
inductive MutexType where
  | normal
  | recursive
  | errorcheck
  deriving DecidableEq, Repr

/-- `PthreadMutexLockState`. -/
structure MutexLockState (T : Type*) where
  owner : Option T
  recursionDepth : Nat
  waiterCount : Nat
  condWaiterCount : Nat
  deriving DecidableEq, Repr

namespace MutexLockState

variable {T : Type*} [DecidableEq T]

/-- The lock state of `PthreadMutexState::new`. -/
def default : MutexLockState T :=
  { owner := none, recursionDepth := 0, waiterCount := 0, condWaiterCount := 0 }

/-- The registration before `wait_cv.wait`. -/
def registerWaiter (l : MutexLockState T) : MutexLockState T :=
  { l with waiterCount := saturatingAdd l.waiterCount 1 }

/-- The deregistration after `wait_cv.wait`. -/
def unregisterWaiter (l : MutexLockState T) : MutexLockState T :=
  { l with waiterCount := l.waiterCount - 1 }

/-- How many levels of the mutex `t` owns. -/
def heldDepth (l : MutexLockState T) (t : T) : Nat :=
  if l.owner = some t then l.recursionDepth else 0

/-- One turn of the loop in `mutex_lock_internal`; `none` is a wait. -/
def lockTurn (mutexType : MutexType) (l : MutexLockState T) (current : T) (tryOnly : Bool) :
    MutexLockState T × Option Int :=
  match l.owner with
  | none => ({ l with owner := some current, recursionDepth := 1 }, some 0)
  | some owner =>
    if owner = current then
      match mutexType with
      | .recursive => ({ l with recursionDepth := saturatingAdd l.recursionDepth 1 }, some 0)
      | .errorcheck => (l, some (if tryOnly then EBUSY else EDEADLK))
      | .normal => if tryOnly then (l, some EBUSY) else (l.registerWaiter, none)
    else if tryOnly then (l, some EBUSY)
    else (l.registerWaiter, none)

/-- `mutex_unlock_internal`. -/
def unlockInternal (mutexType : MutexType) (l : MutexLockState T) (current : T)
    (forCondWait : Bool) : MutexLockState T × Int :=
  if l.owner ≠ some current then (l, EPERM)
  else if mutexType = .recursive ∧ 1 < l.recursionDepth ∧ !forCondWait then
    ({ l with recursionDepth := l.recursionDepth - 1 }, 0)
  else ({ l with owner := none, recursionDepth := 0 }, 0)

/-- `mutex_add_cond_waiter_reference`. -/
def addCondWaiterReference (l : MutexLockState T) (current : T) :
    MutexLockState T × Except Int Nat :=
  if l.owner ≠ some current then (l, .error EPERM)
  else
    ({ l with condWaiterCount := saturatingAdd l.condWaiterCount 1 }, .ok l.recursionDepth)

/-- `mutex_remove_cond_waiter_reference`. -/
def removeCondWaiterReference (l : MutexLockState T) : MutexLockState T :=
  { l with condWaiterCount := l.condWaiterCount - 1 }

/-- The test of `pthread_mutex_destroy`, under which it returns `EBUSY`. -/
def Busy (l : MutexLockState T) : Prop :=
  l.owner.isSome ∨ l.waiterCount ≠ 0 ∨ l.condWaiterCount ≠ 0

instance (l : MutexLockState T) : Decidable l.Busy :=
  inferInstanceAs (Decidable (_ ∨ _))

/-! ## What one section can do -/

/-- The outcomes of a turn in `mutex_lock_internal`. -/
inductive LockTurn (mutexType : MutexType) (l : MutexLockState T) (current : T) (tryOnly : Bool) :
    MutexLockState T × Option Int → Prop where
  | fails (code : Int) (h : code ≠ 0)
      (hcause : tryOnly = true ∨ (l.owner = some current ∧ mutexType ≠ .recursive)) :
      LockTurn mutexType l current tryOnly (l, some code)
  | acquires (hfree : l.owner = none) :
      LockTurn mutexType l current tryOnly
        ({ l with owner := some current, recursionDepth := 1 }, some 0)
  | deepens (howner : l.owner = some current) (htype : mutexType = .recursive) :
      LockTurn mutexType l current tryOnly
        ({ l with recursionDepth := saturatingAdd l.recursionDepth 1 }, some 0)
  | waits (htry : tryOnly = false) (howned : l.owner ≠ none)
      (hself : l.owner = some current → mutexType = .normal) :
      LockTurn mutexType l current tryOnly (l.registerWaiter, none)

theorem lockTurn_spec (mutexType : MutexType) (l : MutexLockState T) (current : T)
    (tryOnly : Bool) :
    LockTurn mutexType l current tryOnly (l.lockTurn mutexType current tryOnly) := by
  unfold lockTurn
  split
  · rename_i hfree
    exact .acquires hfree
  · rename_i owner howner
    have howned : l.owner ≠ none := by simp [howner]
    split
    · rename_i hself
      rw [hself] at howner
      split
      · exact .deepens howner rfl
      · cases tryOnly with
        | false => exact .fails EDEADLK (by decide) (Or.inr ⟨howner, by decide⟩)
        | true => exact .fails EBUSY (by decide) (Or.inl rfl)
      · cases tryOnly with
        | false => exact .waits rfl howned fun _ => rfl
        | true => exact .fails EBUSY (by decide) (Or.inl rfl)
    · rename_i hother
      cases tryOnly with
      | false => exact .waits rfl howned fun hself => absurd (by simpa [howner] using hself) hother
      | true => exact .fails EBUSY (by decide) (Or.inl rfl)

/-- The outcomes of `mutex_unlock_internal`. -/
inductive Unlock (mutexType : MutexType) (l : MutexLockState T) (current : T)
    (forCondWait : Bool) : MutexLockState T × Int → Prop where
  | fails (howner : l.owner ≠ some current) :
      Unlock mutexType l current forCondWait (l, EPERM)
  | lowers (howner : l.owner = some current) (hdepth : 1 < l.recursionDepth)
      (hwait : forCondWait = false) :
      Unlock mutexType l current forCondWait
        ({ l with recursionDepth := l.recursionDepth - 1 }, 0)
  | releases (howner : l.owner = some current)
      (hdepth : forCondWait = true ∨ mutexType ≠ .recursive ∨ l.recursionDepth ≤ 1) :
      Unlock mutexType l current forCondWait
        ({ l with owner := none, recursionDepth := 0 }, 0)

theorem unlockInternal_spec (mutexType : MutexType) (l : MutexLockState T) (current : T)
    (forCondWait : Bool) :
    Unlock mutexType l current forCondWait
      (l.unlockInternal mutexType current forCondWait) := by
  unfold unlockInternal
  split_ifs with howner hdepth
  · exact .fails howner
  · exact .lowers (not_not.mp howner) hdepth.2.1 (by simpa using hdepth.2.2)
  · refine .releases (not_not.mp howner) ?_
    cases forCondWait with
    | true => exact Or.inl rfl
    | false =>
      by_cases htype : mutexType = .recursive
      · refine Or.inr (Or.inr (Nat.le_of_not_lt fun hlt => hdepth ⟨htype, hlt, rfl⟩))
      · exact Or.inr (Or.inl htype)

end MutexLockState

end Rlibc.Pthread
