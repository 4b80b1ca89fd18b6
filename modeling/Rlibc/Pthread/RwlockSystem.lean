import Rlibc.Foundations.Lts
import Rlibc.Pthread.Rwlock

/-!
# A read-write lock among its threads

Every thread calls the six entry points on one lock, in any order.  A call first looks the lock
up in the registry of locks, then runs critical sections until one of them returns.  A blocked
thread can wake up at any time, notified or not.
-/

namespace Rlibc.Pthread

inductive RwlockCall where
  | rdlock
  | tryrdlock
  | wrlock
  | trywrlock
  | unlock
  | destroy
  deriving DecidableEq, Repr

def RwlockCall.acquiring : RwlockCall → Bool
  | .rdlock | .tryrdlock | .wrlock | .trywrlock => true
  | .unlock | .destroy => false

/-- Where a thread stands between two critical sections. -/
inductive RwlockPc where
  | idle
  /-- `rwlock_state_from_raw` has cloned the `Arc`. -/
  | entering (call : RwlockCall)
  | blockedReader
  | blockedWriter
  /-- `pthread_rwlock_destroy` has marked the lock, and will drop the registry entry. -/
  | unregistering
  deriving DecidableEq, Repr

structure RwlockReturn (T : Type*) where
  thread : T
  call : RwlockCall
  code : Int
  deriving DecidableEq, Repr

structure RwlockSystem (T : Type*) where
  /-- Whether `RWLOCK_REGISTRY` still has the lock. -/
  registered : Bool
  lock : RwlockLockState T
  pc : T → RwlockPc
  /-- The calls that have returned, the last one first. -/
  returns : List (RwlockReturn T)

inductive RwlockLabel (T : Type*) where
  | call (t : T) (call : RwlockCall)
  | enter (t : T)
  | wake (t : T)
  | unregister (t : T)

namespace RwlockSystem

variable {T : Type*} [DecidableEq T]

def initial : RwlockSystem T :=
  { registered := true, lock := .default, pc := fun _ => .idle, returns := [] }

def return_ (s : RwlockSystem T) (t : T) (call : RwlockCall) (code : Int) : RwlockSystem T :=
  { s with pc := Function.update s.pc t .idle, returns := ⟨t, call, code⟩ :: s.returns }

/-- The end of a turn: the call returns, or it waits at `blocked`. -/
def finish (s : RwlockSystem T) (t : T) (call : RwlockCall) (blocked : RwlockPc)
    (turn : RwlockLockState T × Option Int) : RwlockSystem T :=
  match turn.2 with
  | some code => { s with lock := turn.1 }.return_ t call code
  | none => { s with lock := turn.1, pc := Function.update s.pc t blocked }

/-- The first critical section of a call. -/
def enter (s : RwlockSystem T) (t : T) : RwlockCall → RwlockSystem T
  | .rdlock => s.finish t .rdlock .blockedReader (s.lock.rdlockTurn t false false)
  | .tryrdlock => s.finish t .tryrdlock .blockedReader (s.lock.rdlockTurn t true false)
  | .wrlock => s.finish t .wrlock .blockedWriter (s.lock.wrlockTurn t false false)
  | .trywrlock => s.finish t .trywrlock .blockedWriter (s.lock.wrlockTurn t true false)
  | .unlock =>
    { s with lock := (s.lock.unlockInternal t).1 }.return_ t .unlock
      (s.lock.unlockInternal t).2
  | .destroy =>
    if s.lock.markDestroyed.2 ≠ 0 then s.return_ t .destroy s.lock.markDestroyed.2
    else { s with lock := s.lock.markDestroyed.1, pc := Function.update s.pc t .unregistering }

def step (s : RwlockSystem T) : RwlockLabel T → Option (RwlockSystem T)
  | .call t call =>
    if s.pc t = .idle then
      if s.registered then some { s with pc := Function.update s.pc t (.entering call) }
      else some (s.return_ t call EINVAL)
    else none
  | .enter t =>
    match s.pc t with
    | .entering call => some (s.enter t call)
    | _ => none
  | .wake t =>
    match s.pc t with
    | .blockedReader => some (s.finish t .rdlock .blockedReader (s.lock.rdlockTurn t false true))
    | .blockedWriter => some (s.finish t .wrlock .blockedWriter (s.lock.wrlockTurn t false true))
    | _ => none
  | .unregister t =>
    if s.pc t = .unregistering then some ({ s with registered := false }.return_ t .destroy 0)
    else none

/-! ## Holdings -/

/-- How often a thread holds the lock. -/
def holds (l : RwlockLockState T) (t : T) : Nat :=
  (l.readerOwners t).getD 0 + if l.writerOwner = some t then 1 else 0

/-- How many calls of `t` have acquired the lock. -/
def acquisitions (s : RwlockSystem T) (t : T) : Nat :=
  s.returns.countP fun r => r.thread = t ∧ r.code = 0 ∧ r.call.acquiring

/-- How many calls of `t` have released it. -/
def releases (s : RwlockSystem T) (t : T) : Nat :=
  s.returns.countP fun r => r.thread = t ∧ r.code = 0 ∧ r.call = .unlock

variable [Fintype T]

/-- What every reachable state satisfies. -/
structure Invariant (s : RwlockSystem T) : Prop where
  total : s.lock.totalReaders = Census.total (fun d => d.getD 0) s.lock.readerOwners
  positive : ∀ t, s.lock.readerOwners t ≠ some 0
  exclusive : s.lock.writerOwner ≠ none → ∀ t, s.lock.readerOwners t = none
  waitingReaders : s.lock.waitingReaders = Census.count (fun pc => pc = .blockedReader) s.pc
  waitingWriters : s.lock.waitingWriters = Census.count (fun pc => pc = .blockedWriter) s.pc
  /-- Each thread holds what it acquired and has not unlocked. -/
  balance : ∀ t, holds s.lock t + s.releases t = s.acquisitions t
  destroyedFree : s.lock.destroyed = true → s.lock.writerOwner = none ∧
    (∀ t, s.lock.readerOwners t = none) ∧ ∀ t, s.pc t ≠ .blockedReader ∧ s.pc t ≠ .blockedWriter

end RwlockSystem

end Rlibc.Pthread
