import Mathlib.Data.Fintype.Basic
import Mathlib.Logic.Function.Basic
import Rlibc.Foundations.Census
import Rlibc.Machine

/-!
# The critical sections of a read-write lock

`rdlock` and `wrlock` are retry loops around a condition variable.  One turn of such a loop is
one critical section of the internal mutex: it ends in a return code, or in a wait that releases
the mutex.  `registeredWaiter` says whether the caller has waited before in this call.
-/

namespace Rlibc.Pthread

/-- `std::thread::ThreadId`, which is a `NonZeroU64`. -/
abbrev ThreadId := { id : Fin (2 ^ 64) // id ≠ 0 }

theorem threadId_card_le : Fintype.card ThreadId ≤ usizeMax := by
  have hlt : Fintype.card ThreadId < Fintype.card (Fin (2 ^ 64)) :=
    Fintype.card_subtype_lt (x := 0) (by simp)
  rw [Fintype.card_fin] at hlt
  exact Nat.le_sub_one_of_lt hlt

/-- `PthreadRwlockLockState`. -/
structure RwlockLockState (T : Type*) where
  readerOwners : T → Option Nat
  totalReaders : Nat
  writerOwner : Option T
  waitingReaders : Nat
  waitingWriters : Nat
  destroyed : Bool

namespace RwlockLockState

variable {T : Type*} [DecidableEq T]

/-- `PthreadRwlockLockState::default()`. -/
def default : RwlockLockState T :=
  { readerOwners := fun _ => none, totalReaders := 0, writerOwner := none, waitingReaders := 0,
    waitingWriters := 0, destroyed := false }

def unregisterReader (l : RwlockLockState T) (registeredWaiter : Bool) : RwlockLockState T :=
  { l with waitingReaders := if registeredWaiter then l.waitingReaders - 1 else l.waitingReaders }

def registerReader (l : RwlockLockState T) (registeredWaiter : Bool) : RwlockLockState T :=
  { l with
    waitingReaders :=
      if registeredWaiter then l.waitingReaders else saturatingAdd l.waitingReaders 1 }

def unregisterWriter (l : RwlockLockState T) (registeredWaiter : Bool) : RwlockLockState T :=
  { l with waitingWriters := if registeredWaiter then l.waitingWriters - 1 else l.waitingWriters }

def registerWriter (l : RwlockLockState T) (registeredWaiter : Bool) : RwlockLockState T :=
  { l with
    waitingWriters :=
      if registeredWaiter then l.waitingWriters else saturatingAdd l.waitingWriters 1 }

/-- One turn of the loop in `rwlock_rdlock_internal`; `none` is a wait. -/
def rdlockTurn (l : RwlockLockState T) (current : T) (tryOnly registeredWaiter : Bool) :
    RwlockLockState T × Option Int :=
  if l.destroyed then (l.unregisterReader registeredWaiter, some EINVAL)
  else if l.writerOwner = none ∧
      (l.waitingWriters = 0 ∨ (l.readerOwners current).isSome) then
    let l := l.unregisterReader registeredWaiter
    match checkedAdd ((l.readerOwners current).getD 0) 1 with
    | none => (l, some EAGAIN)
    | some nextReaderDepth =>
      match checkedAdd l.totalReaders 1 with
      | none => (l, some EAGAIN)
      | some nextTotalReaders =>
        ({ l with
            readerOwners := Function.update l.readerOwners current (some nextReaderDepth)
            totalReaders := nextTotalReaders }, some 0)
  else if l.writerOwner = some current then
    (l.unregisterReader registeredWaiter, some (if tryOnly then EBUSY else EDEADLK))
  else if tryOnly then (l, some EBUSY)
  else (l.registerReader registeredWaiter, none)

/-- One turn of the loop in `rwlock_wrlock_internal`; `none` is a wait. -/
def wrlockTurn (l : RwlockLockState T) (current : T) (tryOnly registeredWaiter : Bool) :
    RwlockLockState T × Option Int :=
  if l.destroyed then (l.unregisterWriter registeredWaiter, some EINVAL)
  else if l.writerOwner = some current then
    (l.unregisterWriter registeredWaiter, some (if tryOnly then EBUSY else EDEADLK))
  else if l.writerOwner = none ∧ l.totalReaders = 0 then
    ({ l.unregisterWriter registeredWaiter with writerOwner := some current }, some 0)
  else if tryOnly then (l, some EBUSY)
  else (l.registerWriter registeredWaiter, none)

/-- `rwlock_unlock_internal`. -/
def unlockInternal (l : RwlockLockState T) (current : T) : RwlockLockState T × Int :=
  if l.destroyed then (l, EINVAL)
  else if l.writerOwner = some current then ({ l with writerOwner := none }, 0)
  else
    match l.readerOwners current with
    | none => (l, EINVAL)
    | some readerDepth =>
      ({ l with
          readerOwners := Function.update l.readerOwners current
            (if readerDepth - 1 = 0 then none else some (readerDepth - 1))
          totalReaders := l.totalReaders - 1 }, 0)

/-- `rwlock_mark_destroyed`. -/
def markDestroyed (l : RwlockLockState T) : RwlockLockState T × Int :=
  if l.destroyed then (l, EINVAL)
  else if l.writerOwner.isSome ∨ l.totalReaders ≠ 0 ∨ l.waitingReaders ≠ 0 ∨
      l.waitingWriters ≠ 0 then (l, EBUSY)
  else ({ l with destroyed := true }, 0)

/-! ## What one section can do -/

/-- The outcomes of a turn in `rdlock`. -/
inductive RdlockTurn (l : RwlockLockState T) (current : T) (registeredWaiter : Bool) :
    RwlockLockState T × Option Int → Prop where
  | fails (code : Int) (h : code ≠ 0) :
      RdlockTurn l current registeredWaiter (l.unregisterReader registeredWaiter, some code)
  | acquires (halive : l.destroyed = false) (hwriter : l.writerOwner = none) :
      RdlockTurn l current registeredWaiter
        ({ l.unregisterReader registeredWaiter with
            readerOwners := Function.update l.readerOwners current
              (some ((l.readerOwners current).getD 0 + 1))
            totalReaders := l.totalReaders + 1 }, some 0)
  | waits (halive : l.destroyed = false) :
      RdlockTurn l current registeredWaiter (l.registerReader registeredWaiter, none)

/-- The outcomes of a turn in `wrlock`. -/
inductive WrlockTurn (l : RwlockLockState T) (current : T) (registeredWaiter : Bool) :
    RwlockLockState T × Option Int → Prop where
  | fails (code : Int) (h : code ≠ 0) :
      WrlockTurn l current registeredWaiter (l.unregisterWriter registeredWaiter, some code)
  | acquires (halive : l.destroyed = false) (hwriter : l.writerOwner = none)
      (hreaders : l.totalReaders = 0) :
      WrlockTurn l current registeredWaiter
        ({ l.unregisterWriter registeredWaiter with writerOwner := some current }, some 0)
  | waits (halive : l.destroyed = false) :
      WrlockTurn l current registeredWaiter (l.registerWriter registeredWaiter, none)

/-- The outcomes of `unlock`. -/
inductive Unlock (l : RwlockLockState T) (current : T) : RwlockLockState T × Int → Prop where
  | fails (code : Int) (h : code ≠ 0) : Unlock l current (l, code)
  | writer (halive : l.destroyed = false) (hwriter : l.writerOwner = some current) :
      Unlock l current ({ l with writerOwner := none }, 0)
  | reader (readerDepth : Nat) (halive : l.destroyed = false)
      (hwriter : l.writerOwner ≠ some current)
      (hdepth : l.readerOwners current = some readerDepth) :
      Unlock l current
        ({ l with
            readerOwners := Function.update l.readerOwners current
              (if readerDepth - 1 = 0 then none else some (readerDepth - 1))
            totalReaders := l.totalReaders - 1 }, 0)

/-- A call that only tries has never waited. -/
theorem rdlockTurn_spec (l : RwlockLockState T) (current : T) {tryOnly registeredWaiter : Bool}
    (htry : tryOnly = true → registeredWaiter = false) :
    l.RdlockTurn current registeredWaiter (l.rdlockTurn current tryOnly registeredWaiter) := by
  unfold rdlockTurn
  split_ifs with hdestroyed hfree hself hmode htry'
  · exact .fails EINVAL (by decide)
  · dsimp only [unregisterReader]
    split
    · exact .fails EAGAIN (by decide)
    · rename_i nextReaderDepth hdepth
      split
      · exact .fails EAGAIN (by decide)
      · rename_i nextTotalReaders htotal
        rw [(checkedAdd_eq_some.mp hdepth).1, (checkedAdd_eq_some.mp htotal).1]
        exact .acquires (by simpa using hdestroyed) hfree.1
  · exact .fails EBUSY (by decide)
  · exact .fails EDEADLK (by decide)
  · have hfails : l.RdlockTurn current registeredWaiter
        (l.unregisterReader registeredWaiter, some EBUSY) := .fails EBUSY (by decide)
    -- a caller that only tries has no registration to take back
    have hl : l = l.unregisterReader registeredWaiter := by rw [htry htry']; rfl
    rwa [← hl] at hfails
  · exact .waits (by simpa using hdestroyed)

theorem wrlockTurn_spec (l : RwlockLockState T) (current : T) {tryOnly registeredWaiter : Bool}
    (htry : tryOnly = true → registeredWaiter = false) :
    l.WrlockTurn current registeredWaiter (l.wrlockTurn current tryOnly registeredWaiter) := by
  unfold wrlockTurn
  split_ifs with hdestroyed hself hmode hfree htry'
  · exact .fails EINVAL (by decide)
  · exact .fails EBUSY (by decide)
  · exact .fails EDEADLK (by decide)
  · exact .acquires (by simpa using hdestroyed) hfree.1 hfree.2
  · have hfails : l.WrlockTurn current registeredWaiter
        (l.unregisterWriter registeredWaiter, some EBUSY) := .fails EBUSY (by decide)
    -- a caller that only tries has no registration to take back
    have hl : l = l.unregisterWriter registeredWaiter := by rw [htry htry']; rfl
    rwa [← hl] at hfails
  · exact .waits (by simpa using hdestroyed)

theorem unlockInternal_spec (l : RwlockLockState T) (current : T) :
    l.Unlock current (l.unlockInternal current) := by
  unfold unlockInternal
  split_ifs with hdestroyed hself
  · exact .fails EINVAL (by decide)
  · exact .writer (by simpa using hdestroyed) hself
  · split
    · exact .fails EINVAL (by decide)
    · rename_i readerDepth hdepth
      exact .reader readerDepth (by simpa using hdestroyed) hself hdepth

end RwlockLockState

end Rlibc.Pthread
