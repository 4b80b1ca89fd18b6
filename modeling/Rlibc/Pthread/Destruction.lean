import Rlibc.Pthread.CondWakeups
import Rlibc.Pthread.MutexInvariant
import Rlibc.Pthread.Sleepers

/-!
# Destroying mutexes and condition variables

`pthread_mutex_destroy` and `pthread_cond_destroy` read the counters in a critical section, and
free the box behind the pointer after it.  Here these are two steps, and the notifications that
`pthread_mutex_unlock`, `pthread_cond_signal` and `pthread_cond_broadcast` leave to be delivered
are steps as well, so that a box can be freed between any two of them.
-/

namespace Rlibc.Pthread

/-- A `PthreadMutexState` or a `PthreadCondState`, behind the pointer of its object. -/
inductive StateBox (M C : Type*) where
  | mutex (m : M)
  | cond (c : C)
  deriving DecidableEq, Repr

structure CondDestroyReturn (T C : Type*) where
  thread : T
  cond : C
  code : Int
  deriving DecidableEq, Repr

structure DestroySystem (T M C : Type*) where
  sync : SyncSystem T M C
  /-- The notification that a thread has not delivered yet. -/
  notifying : T → Option (Notification M C)
  /-- The box that a destroy has found unused, and frees next. -/
  freeing : T → Option (StateBox M C)
  /-- The holder of the lazy-init lock, if that is a signal, a broadcast or a destroy. -/
  initGuard : Option T
  /-- The pointer is `DESTROYED_COND_SENTINEL`. -/
  condDestroyed : C → Bool
  condReturns : List (CondDestroyReturn T C)
  /-- The thread that acquired a mutex last.  No step depends on it. -/
  acquirer : M → Option T

inductive DestroyLabel (T M C : Type*) where
  | call (l : SyncLabel T M C)
  | notify (t : T)
  | destroyMutex (t : T) (m : M)
  | destroyCond (t : T) (c : C)
  | free (t : T)

/-- `SyncSystem` has a destroy that checks and frees at once. -/
def SyncLabel.isDestroy {T M C : Type*} : SyncLabel T M C → Bool
  | .destroy _ _ => true
  | _ => false

def SyncSystem.ownerOf {T M C : Type*} (s : SyncSystem T M C) (m : M) : Option T :=
  (s.mutexes m).bind MutexLockState.owner

namespace DestroySystem

variable {T M C : Type*} [DecidableEq T] [DecidableEq M] [DecidableEq C]

def initial (initialised : C → Bool) : DestroySystem T M C :=
  { sync := .initial initialised
    notifying := fun _ => none
    freeing := fun _ => none
    initGuard := none
    condDestroyed := fun _ => false
    condReturns := []
    acquirer := fun _ => none }

/-- In no call. -/
def Idle (s : DestroySystem T M C) (t : T) : Prop :=
  s.sync.pc t = .idle ∧ s.notifying t = none ∧ s.freeing t = none

instance (s : DestroySystem T M C) (t : T) : Decidable (s.Idle t) :=
  inferInstanceAs (Decidable (_ ∧ _))

/-- Nobody holds the lazy-init lock. -/
def InitFree (s : DestroySystem T M C) : Prop :=
  s.initGuard = none ∧ s.sync.registering = none

instance (s : DestroySystem T M C) : Decidable s.InitFree :=
  inferInstanceAs (Decidable (_ ∧ _))

/-- `t` acquires `m` between the two states. -/
def Acquires (s s' : SyncSystem T M C) (t : T) (m : M) : Prop :=
  s'.ownerOf m = some t ∧ s.ownerOf m ≠ some t

instance (s s' : SyncSystem T M C) (t : T) (m : M) : Decidable (Acquires s s' t m) :=
  inferInstanceAs (Decidable (_ ∧ _))

/-! ## Steps inside the calls -/

/-- The calls on a destroyed condition variable, which fail. -/
def rejects (s : DestroySystem T M C) : SyncLabel T M C → Option (SyncCall M C)
  | .wait _ w abstimeOk =>
    if s.condDestroyed w.cond ∧ !(w.timed && !abstimeOk) then some (.wait w) else none
  | .signal _ c => if s.condDestroyed c then some (.signal c) else none
  | .broadcast _ c => if s.condDestroyed c then some (.broadcast c) else none
  | _ => none

/-- A thread has taken the step `l`. -/
def advance (mutexType : M → MutexType) (s : DestroySystem T M C) (l : SyncLabel T M C)
    (sync : SyncSystem T M C) : DestroySystem T M C :=
  let n := s.sync.notifies mutexType l
  { s with
    sync := sync
    notifying := Function.update s.notifying l.thread n
    initGuard := if n.any (fun n => n.condvar.underInit) then some l.thread else s.initGuard
    acquirer := fun m => if Acquires s.sync sync l.thread m then some l.thread else s.acquirer m }

def call (mutexType : M → MutexType) (s : DestroySystem T M C) (l : SyncLabel T M C) :
    Option (DestroySystem T M C) :=
  if l.isDestroy ∨ s.notifying l.thread ≠ none ∨ s.freeing l.thread ≠ none then none
  else if l.locksInit ∧ s.initGuard ≠ none then none
  else
    match s.rejects l with
    | some call =>
      if s.sync.pc l.thread = .idle ∧ s.sync.registering = none then
        some { s with sync := s.sync.return_ l.thread call EINVAL }
      else none
    | none => (s.sync.step mutexType l).map (s.advance mutexType l)

/-- A notification is delivered; a signal and a broadcast return, and drop the lazy-init lock. -/
def notified (s : DestroySystem T M C) (t : T) (n : Notification M C) : DestroySystem T M C :=
  { s with
    notifying := Function.update s.notifying t none
    initGuard := if n.condvar.underInit then none else s.initGuard }

/-! ## Destroying -/

/-- The critical section of `pthread_mutex_destroy`. -/
def destroyMutex (s : DestroySystem T M C) (t : T) (m : M) : DestroySystem T M C :=
  match s.sync.mutexes m with
  | none => { s with sync := s.sync.return_ t (.destroy m) EINVAL }
  | some l =>
    if l.Busy then { s with sync := s.sync.return_ t (.destroy m) EBUSY }
    else { s with freeing := Function.update s.freeing t (some (.mutex m)) }

def returnCond (s : DestroySystem T M C) (t : T) (c : C) (code : Int) : DestroySystem T M C :=
  { s with condReturns := ⟨t, c, code⟩ :: s.condReturns }

/-- `pthread_cond_destroy`, up to the release of the box. -/
def destroyCond (s : DestroySystem T M C) (t : T) (c : C) : DestroySystem T M C :=
  if s.condDestroyed c then s.returnCond t c 0
  else
    match s.sync.conds c with
    | none => { s with condDestroyed := Function.update s.condDestroyed c true }.returnCond t c 0
    | some w =>
      if w.waiterCount ≠ 0 then s.returnCond t c EBUSY
      else
        { s with
          freeing := Function.update s.freeing t (some (.cond c))
          initGuard := some t }

/-- `drop(Box::from_raw(state_ptr))`, and the pointer that marks the object as destroyed. -/
def freed (s : DestroySystem T M C) (t : T) : StateBox M C → DestroySystem T M C
  | .mutex m =>
    { s with
      sync :=
        { s.sync with mutexes := Function.update s.sync.mutexes m none }.return_ t (.destroy m) 0
      freeing := Function.update s.freeing t none }
  | .cond c =>
    { s with
      sync := { s.sync with conds := Function.update s.sync.conds c none }
      freeing := Function.update s.freeing t none
      initGuard := none
      condDestroyed := Function.update s.condDestroyed c true }.returnCond t c 0

def step (mutexType : M → MutexType) (s : DestroySystem T M C) :
    DestroyLabel T M C → Option (DestroySystem T M C)
  | .call l => s.call mutexType l
  | .notify t => (s.notifying t).map (s.notified t)
  | .destroyMutex t m => if s.Idle t then some (s.destroyMutex t m) else none
  | .destroyCond t c => if s.Idle t ∧ s.InitFree then some (s.destroyCond t c) else none
  | .free t => (s.freeing t).map (s.freed t)

/-! ## Runs that respect the pattern of POSIX -/

/-- A mutex is destroyed by the thread that acquired it last and has released it, and no other
thread acquires it from then on. -/
def Posix (mutexType : M → MutexType) (s : DestroySystem T M C) : DestroyLabel T M C → Prop
  | .destroyMutex t m => s.acquirer m = some t ∧ s.sync.ownerOf m ≠ some t
  | .call l => ∀ sync, s.sync.step mutexType l = some sync →
    ∀ t m, s.freeing t = some (.mutex m) → ¬ Acquires s.sync sync l.thread m
  | _ => True

/-- The call of `u` still has a step that reads the box, notifies its `wait_cv`, or frees it. -/
def Uses (s : DestroySystem T M C) (u : T) : StateBox M C → Prop
  | .mutex m =>
    (s.sync.pc u).BlockedOn m ∨ (s.sync.pc u).Refers m ∨
      (∃ w, s.sync.pc u = .registering w ∧ w.mutex = m) ∨
      (∃ all, s.notifying u = some ⟨.mutex m, all⟩) ∨ s.freeing u = some (.mutex m)
  | .cond c =>
    (s.sync.pc u).WaitsOn c ∨ (∃ all, s.notifying u = some ⟨.cond c, all⟩) ∨
      s.freeing u = some (.cond c)

/-- No box is freed while another call still uses it. -/
def FreesUnused (s : DestroySystem T M C) : DestroyLabel T M C → Prop
  | .free t => ∀ box, s.freeing t = some box → ∀ u, u ≠ t → ¬ s.Uses u box
  | _ => True

/-- When the state of a mutex is freed, nobody has unlocked it without having notified, and nobody
has begun a condition wait that has still to look for its owner. -/
def NobodyLate (s : DestroySystem T M C) : DestroyLabel T M C → Prop
  | .free t => ∀ m, s.freeing t = some (.mutex m) → ∀ u, u ≠ t →
    (∀ all, s.notifying u ≠ some ⟨.mutex m, all⟩) ∧
      ∀ w, s.sync.pc u = .registering w → w.mutex ≠ m
  | _ => True

end DestroySystem

end Rlibc.Pthread
