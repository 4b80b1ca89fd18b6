import Rlibc.Foundations.Lts
import Rlibc.Pthread.Cond
import Rlibc.Pthread.Mutex
import Rlibc.Pthread.Rwlock

/-!
# Mutexes and condition variables among their threads

Threads call the entry points on a family of mutexes `M` and a family of condition variables `C`.
Each critical section of an internal lock is one step, and a sleeping thread can wake up at any
time.  A condition wait holds the lazy-init lock and the lock of its condition variable from its
registration to its first test of `pending_wakeups`; `registering` says who does, and on which.
-/

namespace Rlibc.Pthread

/-- A call of `pthread_cond_wait`, or of `pthread_cond_timedwait` where `timed`. -/
structure WaitCall (M C : Type*) where
  cond : C
  mutex : M
  timed : Bool
  deriving DecidableEq, Repr

inductive SyncCall (M C : Type*) where
  | lock (m : M)
  | trylock (m : M)
  | unlock (m : M)
  | destroy (m : M)
  | wait (w : WaitCall M C)
  | signal (c : C)
  | broadcast (c : C)
  deriving DecidableEq, Repr

/-- Where a thread stands between two critical sections.  `depth` is the `recursive_depth` that
a condition wait has saved. -/
inductive SyncPc (M C : Type*) where
  | idle
  /-- Blocked in `pthread_mutex_lock`. -/
  | locking (m : M)
  | registering (w : WaitCall M C)
  | releasing (w : WaitCall M C) (depth : Nat)
  | testing (w : WaitCall M C) (depth : Nat)
  | asleep (w : WaitCall M C) (depth : Nat)
  /-- In `mutex_restore_cond_wait_lock_depth`, with `restored` levels locked again. -/
  | relocking (w : WaitCall M C) (depth : Nat) (timedOut : Bool) (restored : Nat)
      (blocked : Bool)
  /-- About to give up the reference to the mutex, and to return `code`. -/
  | unreferencing (w : WaitCall M C) (depth : Nat) (code : Int)
  deriving DecidableEq, Repr

structure SyncReturn (T M C : Type*) where
  thread : T
  call : SyncCall M C
  code : Int
  deriving DecidableEq, Repr

structure SyncSystem (T M C : Type*) where
  /-- The lock state behind `pthread_mutex_t::state`, `none` for a null pointer. -/
  mutexes : M → Option (MutexLockState T)
  /-- The wait state behind `pthread_cond_t::state`, `none` for a null pointer. -/
  conds : C → Option CondWaitState
  histories : C → CondHistory T
  registering : Option (T × C)
  pc : T → SyncPc M C
  /-- The calls that have returned, the last one first. -/
  returns : List (SyncReturn T M C)

inductive SyncLabel (T M C : Type*) where
  | lock (t : T) (m : M)
  | trylock (t : T) (m : M)
  /-- A thread blocked in `pthread_mutex_lock` wakes up. -/
  | wakeLock (t : T)
  | unlock (t : T) (m : M)
  | destroy (t : T) (m : M)
  /-- A condition wait registers; `abstimeOk` is the check of `timeout_from_abstime`. -/
  | wait (t : T) (w : WaitCall M C) (abstimeOk : Bool)
  | addReference (t : T)
  | release (t : T)
  /-- The first test of `pending_wakeups`; `which` selects the wakeup it takes, if any. -/
  | test (t : T) (which : Nat)
  /-- A sleeping waiter wakes up, for a timed wait perhaps after its timeout. -/
  | wakeWait (t : T) (expired : Bool) (which : Nat)
  | relock (t : T)
  | unreference (t : T)
  | signal (t : T) (c : C)
  | broadcast (t : T) (c : C)

def SyncLabel.thread {T M C : Type*} : SyncLabel T M C → T
  | .lock t _ | .trylock t _ | .wakeLock t | .unlock t _ | .destroy t _ | .wait t _ _
  | .addReference t | .release t | .test t _ | .wakeWait t _ _ | .relock t | .unreference t
  | .signal t _ | .broadcast t _ => t

namespace SyncSystem

variable {T M C : Type*} [DecidableEq T] [DecidableEq M] [DecidableEq C]

/-- Every mutex is initialised and free; a condition variable is initialised, or has its static
initialiser. -/
def initial (initialised : C → Bool) : SyncSystem T M C :=
  { mutexes := fun _ => some .default
    conds := fun c => if initialised c then some .default else none
    histories := fun _ => .empty
    registering := none
    pc := fun _ => .idle
    returns := [] }

def return_ (s : SyncSystem T M C) (t : T) (call : SyncCall M C) (code : Int) :
    SyncSystem T M C :=
  { s with pc := Function.update s.pc t .idle, returns := ⟨t, call, code⟩ :: s.returns }

def goto (s : SyncSystem T M C) (t : T) (pc : SyncPc M C) : SyncSystem T M C :=
  { s with pc := Function.update s.pc t pc }

def setMutex (s : SyncSystem T M C) (m : M) (l : MutexLockState T) : SyncSystem T M C :=
  { s with mutexes := Function.update s.mutexes m (some l) }

def setCond (s : SyncSystem T M C) (c : C) (w : CondWaitState) (h : CondHistory T) :
    SyncSystem T M C :=
  { s with
    conds := Function.update s.conds c (some w)
    histories := Function.update s.histories c h }

/-- The wait state of a condition variable, after its lazy initialisation. -/
def condState (s : SyncSystem T M C) (c : C) : CondWaitState :=
  (s.conds c).getD .default

/-! ## The entry points of a mutex -/

/-- A turn of `pthread_mutex_lock` or `pthread_mutex_trylock` ends. -/
def finishLock (s : SyncSystem T M C) (t : T) (m : M) (call : SyncCall M C)
    (turn : MutexLockState T × Option Int) : SyncSystem T M C :=
  match turn.2 with
  | some code => (s.setMutex m turn.1).return_ t call code
  | none => (s.setMutex m turn.1).goto t (.locking m)

def lock (mutexType : M → MutexType) (s : SyncSystem T M C) (t : T) (m : M) :
    SyncSystem T M C :=
  match s.mutexes m with
  | none => s.return_ t (.lock m) EINVAL
  | some l => s.finishLock t m (.lock m) (l.lockTurn (mutexType m) t false)

def trylock (mutexType : M → MutexType) (s : SyncSystem T M C) (t : T) (m : M) :
    SyncSystem T M C :=
  match s.mutexes m with
  | none => s.return_ t (.trylock m) EINVAL
  | some l => s.finishLock t m (.trylock m) (l.lockTurn (mutexType m) t true)

def unlock (mutexType : M → MutexType) (s : SyncSystem T M C) (t : T) (m : M) :
    SyncSystem T M C :=
  match s.mutexes m with
  | none => s.return_ t (.unlock m) EINVAL
  | some l =>
    let result := l.unlockInternal (mutexType m) t false
    (s.setMutex m result.1).return_ t (.unlock m) result.2

/-- `pthread_mutex_destroy`; a state that is not busy is freed at once. -/
def destroy (s : SyncSystem T M C) (t : T) (m : M) : SyncSystem T M C :=
  match s.mutexes m with
  | none => s.return_ t (.destroy m) EINVAL
  | some l =>
    if l.Busy then s.return_ t (.destroy m) EBUSY
    else
      { s with mutexes := Function.update s.mutexes m none }.return_ t (.destroy m) 0

/-! ## The sections of a condition wait -/

/-- From the lazy-init lock to `waiter_count`. -/
def wait (s : SyncSystem T M C) (t : T) (w : WaitCall M C) (abstimeOk : Bool) :
    Option (SyncSystem T M C) :=
  if w.timed ∧ !abstimeOk then some (s.return_ t (.wait w) EINVAL)
  else if s.registering.isSome then none
  else
    match s.mutexes w.mutex with
    | none =>
      some ((s.setCond w.cond (s.condState w.cond) (s.histories w.cond)).return_ t (.wait w)
        EINVAL)
    | some _ =>
      some { s.setCond w.cond (s.condState w.cond).registerWaiter (s.histories w.cond) with
        registering := some (t, w.cond)
        pc := Function.update s.pc t (.registering w) }

/-- The exit of a registration that failed. -/
def unregister (s : SyncSystem T M C) (c : C) : SyncSystem T M C :=
  { s.setCond c (s.condState c).unregisterWaiter (s.histories c) with registering := none }

/-- `mutex_add_cond_waiter_reference`.  A mutex that has been freed meanwhile leaves the
behaviour undefined, and the step without an outcome. -/
def addReference (s : SyncSystem T M C) (t : T) (w : WaitCall M C) : Option (SyncSystem T M C) :=
  (s.mutexes w.mutex).map fun l =>
    let result := l.addCondWaiterReference t
    match result.2 with
    | .error code => (s.unregister w.cond).return_ t (.wait w) code
    | .ok depth => (s.setMutex w.mutex result.1).goto t (.releasing w depth)

/-- `mutex_unlock_internal` for a condition wait. -/
def release (mutexType : M → MutexType) (s : SyncSystem T M C) (t : T) (w : WaitCall M C)
    (depth : Nat) : Option (SyncSystem T M C) :=
  (s.mutexes w.mutex).map fun l =>
    let result := l.unlockInternal (mutexType w.mutex) t true
    if result.2 ≠ 0 then (s.unregister w.cond).goto t (.unreferencing w depth result.2)
    else (s.setMutex w.mutex result.1).goto t (.testing w depth)

/-- The end of a wait with a wakeup. -/
def consume (s : SyncSystem T M C) (t : T) (w : WaitCall M C) (depth which : Nat) :
    SyncSystem T M C :=
  (s.setCond w.cond (s.condState w.cond).consumeWakeup
    ((s.histories w.cond).consume t which)).goto t (.relocking w depth false 0 false)

/-- The lazy-init lock is dropped, and `wait_while` tests its predicate. -/
def test (s : SyncSystem T M C) (t : T) (w : WaitCall M C) (depth which : Nat) :
    SyncSystem T M C :=
  let s :=
    { s.setCond w.cond (s.condState w.cond) ((s.histories w.cond).begin t) with
      registering := none }
  if (s.condState w.cond).pendingWakeups = 0 then s.goto t (.asleep w depth)
  else s.consume t w depth which

/-- `wait_while` tests its predicate again; `wait_timeout_while` gives up when that still holds
after the timeout. -/
def wakeWait (s : SyncSystem T M C) (t : T) (w : WaitCall M C) (depth : Nat) (expired : Bool)
    (which : Nat) : Option (SyncSystem T M C) :=
  if s.registering.map (·.2) = some w.cond then none
  else if (s.condState w.cond).pendingWakeups ≠ 0 then some (s.consume t w depth which)
  else if w.timed ∧ expired then
    some ((s.setCond w.cond (s.condState w.cond).unregisterWaiter
      ((s.histories w.cond).leave t)).goto t (.relocking w depth true 0 false))
  else some s

/-- What a condition wait returns when its mutex is locked again. -/
def waitResult (timedOut : Bool) : Int :=
  if timedOut then ETIMEDOUT else 0

/-- One turn of a `mutex_lock_internal` in `mutex_restore_cond_wait_lock_depth`. -/
def relock (mutexType : M → MutexType) (s : SyncSystem T M C) (t : T) (w : WaitCall M C)
    (depth : Nat) (timedOut : Bool) (restored : Nat) (blocked : Bool) :
    Option (SyncSystem T M C) :=
  (s.mutexes w.mutex).map fun l =>
    let l := if blocked then l.unregisterWaiter else l
    let turn := l.lockTurn (mutexType w.mutex) t false
    let s := s.setMutex w.mutex turn.1
    match turn.2 with
    | none => s.goto t (.relocking w depth timedOut restored true)
    | some code =>
      if code ≠ 0 then s.goto t (.unreferencing w depth code)
      else if mutexType w.mutex = .recursive ∧ restored + 1 < depth then
        s.goto t (.relocking w depth timedOut (restored + 1) false)
      else s.goto t (.unreferencing w depth (waitResult timedOut))

def unreference (s : SyncSystem T M C) (t : T) (w : WaitCall M C) (code : Int) :
    Option (SyncSystem T M C) :=
  (s.mutexes w.mutex).map fun l =>
    (s.setMutex w.mutex l.removeCondWaiterReference).return_ t (.wait w) code

/-! ## Wakeups -/

/-- The threads that sleep on a condition variable. -/
def sleepers (s : SyncSystem T M C) (c : C) (t : T) : Bool :=
  match s.pc t with
  | .asleep w _ => w.cond = c
  | _ => false

def signal (s : SyncSystem T M C) (t : T) (c : C) : SyncSystem T M C :=
  match s.conds c with
  | none => s.return_ t (.signal c) 0
  | some w =>
    (s.setCond c w.signal ((s.histories c).issue
      (w.signal.pendingWakeups - w.pendingWakeups))).return_ t (.signal c) 0

def broadcast (s : SyncSystem T M C) (t : T) (c : C) : SyncSystem T M C :=
  match s.conds c with
  | none => s.return_ t (.broadcast c) 0
  | some w =>
    (s.setCond c w.broadcast (((s.histories c).issue
      (w.broadcast.pendingWakeups - w.pendingWakeups)).owe (s.sleepers c))).return_ t
        (.broadcast c) 0

def step (mutexType : M → MutexType) (s : SyncSystem T M C) :
    SyncLabel T M C → Option (SyncSystem T M C)
  | .lock t m => if s.pc t = .idle then some (s.lock mutexType t m) else none
  | .trylock t m => if s.pc t = .idle then some (s.trylock mutexType t m) else none
  | .wakeLock t =>
    match s.pc t with
    | .locking m =>
      (s.mutexes m).map fun l =>
        s.finishLock t m (.lock m) (l.unregisterWaiter.lockTurn (mutexType m) t false)
    | _ => none
  | .unlock t m => if s.pc t = .idle then some (s.unlock mutexType t m) else none
  | .destroy t m => if s.pc t = .idle then some (s.destroy t m) else none
  | .wait t w abstimeOk => if s.pc t = .idle then s.wait t w abstimeOk else none
  | .addReference t =>
    match s.pc t with
    | .registering w => s.addReference t w
    | _ => none
  | .release t =>
    match s.pc t with
    | .releasing w depth => s.release mutexType t w depth
    | _ => none
  | .test t which =>
    match s.pc t with
    | .testing w depth => some (s.test t w depth which)
    | _ => none
  | .wakeWait t expired which =>
    match s.pc t with
    | .asleep w depth => s.wakeWait t w depth expired which
    | _ => none
  | .relock t =>
    match s.pc t with
    | .relocking w depth timedOut restored blocked =>
      s.relock mutexType t w depth timedOut restored blocked
    | _ => none
  | .unreference t =>
    match s.pc t with
    | .unreferencing w _ code => s.unreference t w code
    | _ => none
  | .signal t c =>
    if s.pc t = .idle ∧ s.registering = none then some (s.signal t c) else none
  | .broadcast t c =>
    if s.pc t = .idle ∧ s.registering = none then some (s.broadcast t c) else none

end SyncSystem

end Rlibc.Pthread
