import Rlibc.Foundations.Condvars
import Rlibc.Pthread.RwlockSystem
import Rlibc.Pthread.SyncSystem

/-!
# Who sleeps, and who notifies

Threads call the entry points of mutexes, of condition variables and of a read-write lock.  Every
lock state has a `wait_cv` beside it, which its waiters sleep on.  A call that has to notify does
so after its critical section: `pthread_mutex_unlock`, the release in a condition wait, the
unlocking of a read-write lock, `pthread_cond_signal` and `pthread_cond_broadcast`.
-/

namespace Rlibc.Pthread

/-- `mutex_unlock_internal` gives the mutex up, and goes on to `notify_one`. -/
def MutexLockState.Releases {T : Type*} (mutexType : MutexType) (l : MutexLockState T)
    (current : T) (forCondWait : Bool) : Prop :=
  l.owner = some current ∧
    ¬ (mutexType = .recursive ∧ 1 < l.recursionDepth ∧ !forCondWait)

instance {T : Type*} [DecidableEq T] (mutexType : MutexType) (l : MutexLockState T) (current : T)
    (forCondWait : Bool) : Decidable (l.Releases mutexType current forCondWait) :=
  inferInstanceAs (Decidable (_ ∧ _))

/-- `rwlock_unlock_internal` goes on to `notify_all`. -/
def RwlockLockState.UnlockNotifies {T : Type*} (l : RwlockLockState T) (current : T) : Prop :=
  l.destroyed = false ∧
    (l.writerOwner = some current ∨
      (l.readerOwners current).isSome ∧ l.totalReaders - 1 = 0)

instance {T : Type*} [DecidableEq T] (l : RwlockLockState T) (current : T) :
    Decidable (l.UnlockNotifies current) :=
  inferInstanceAs (Decidable (_ ∧ _))

/-- Whose `wait_cv` it is. -/
inductive WaitCv (M C : Type*) where
  | mutex (m : M)
  | rwlock
  | cond (c : C)
  deriving DecidableEq, Repr

abbrev Notification (M C : Type*) := Condvars.Notification (WaitCv M C)

def SyncPc.waitCv {M C : Type*} : SyncPc M C → Option (WaitCv M C)
  | .locking m => some (.mutex m)
  | .asleep w _ => some (.cond w.cond)
  | .relocking w _ _ _ blocked => if blocked = true then some (.mutex w.mutex) else none
  | .idle | .registering _ | .releasing _ _ | .testing _ _ | .unreferencing _ _ _ => none

def RwlockPc.waitCv {M C : Type*} : RwlockPc → Option (WaitCv M C)
  | .blockedReader | .blockedWriter => some .rwlock
  | .idle | .entering _ | .unregistering => none

def RwlockLabel.thread {T : Type*} : RwlockLabel T → T
  | .call t _ | .enter t | .wake t | .unregister t => t

section Notifications

variable {T M C : Type*} [DecidableEq T]

/-- The notification that a step leaves to be delivered. -/
def SyncSystem.notifies (mutexType : M → MutexType) (s : SyncSystem T M C) :
    SyncLabel T M C → Option (Notification M C)
  | .unlock t m =>
    match s.mutexes m with
    | some l => if l.Releases (mutexType m) t false then some ⟨.mutex m, false⟩ else none
    | none => none
  | .release t =>
    match s.pc t with
    | .releasing w _ =>
      match s.mutexes w.mutex with
      | some l =>
        if l.Releases (mutexType w.mutex) t true then some ⟨.mutex w.mutex, false⟩ else none
      | none => none
    | _ => none
  | .signal _ c =>
    match s.conds c with
    | some w => if w.waiterCount = 0 then none else some ⟨.cond c, false⟩
    | none => none
  | .broadcast _ c =>
    match s.conds c with
    | some w => if w.waiterCount = 0 then none else some ⟨.cond c, true⟩
    | none => none
  | _ => none

def RwlockSystem.notifies (s : RwlockSystem T) : RwlockLabel T → Option (Notification M C)
  | .enter t =>
    if s.pc t = .entering .unlock ∧ s.lock.UnlockNotifies t then some ⟨.rwlock, true⟩ else none
  | _ => none

/-- The entry points that take the lazy-init lock; a timed wait that fails at once does not. -/
def SyncLabel.locksInit : SyncLabel T M C → Bool
  | .wait _ w abstimeOk => !(w.timed && !abstimeOk)
  | .signal _ _ => true
  | .broadcast _ _ => true
  | _ => false

/-- `pthread_cond_signal` and `pthread_cond_broadcast` notify under the lazy-init lock. -/
def WaitCv.underInit : WaitCv M C → Bool
  | .cond _ => true
  | .mutex _ | .rwlock => false

end Notifications

structure LockSystem (T M C : Type*) where
  sync : SyncSystem T M C
  rwlock : RwlockSystem T

inductive LockLabel (T M C : Type*) where
  | sync (l : SyncLabel T M C)
  | rwlock (l : RwlockLabel T)

def LockLabel.thread {T M C : Type*} : LockLabel T M C → T
  | .sync l => l.thread
  | .rwlock l => l.thread

namespace LockSystem

variable {T M C : Type*} [DecidableEq T] [DecidableEq M] [DecidableEq C]

def initial (initialised : C → Bool) : LockSystem T M C :=
  { sync := .initial initialised, rwlock := .initial }

/-- A thread is in one call at a time. -/
def step (mutexType : M → MutexType) (s : LockSystem T M C) :
    LockLabel T M C → Option (LockSystem T M C)
  | .sync l =>
    if s.rwlock.pc l.thread = .idle then
      (s.sync.step mutexType l).map fun sync => { s with sync := sync }
    else none
  | .rwlock l =>
    if s.sync.pc l.thread = .idle then
      (s.rwlock.step l).map fun rwlock => { s with rwlock := rwlock }
    else none

def waitCv (s : LockSystem T M C) (t : T) : Option (WaitCv M C) :=
  (s.sync.pc t).waitCv.or (s.rwlock.pc t).waitCv

def notifies (mutexType : M → MutexType) (s : LockSystem T M C) :
    LockLabel T M C → Option (Notification M C)
  | .sync l => s.sync.notifies mutexType l
  | .rwlock l => s.rwlock.notifies l

def needs : LockLabel T M C → WaitCv M C → Bool
  | .sync l, v => l.locksInit && v.underInit
  | .rwlock _, _ => false

/-- The calls with their sleepers and their notifications. -/
def monitor (mutexType : M → MutexType) :
    Condvars.Monitor T (WaitCv M C) (LockSystem T M C) (LockLabel T M C) :=
  { innerStep := step mutexType
    thread := LockLabel.thread
    waitsOn := waitCv
    notifies := notifies mutexType
    needs := needs }

end LockSystem

end Rlibc.Pthread
