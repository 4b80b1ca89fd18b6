import Mathlib.Logic.Function.Basic
import Rlibc.Machine

/-!
# The critical sections of a condition variable

`CondWaitState` is what the code keeps.  `CondHistory` is kept beside it by the system for the
sake of its statements: when each pending wakeup was produced, when each waiter began, and to
whom the broadcasts so far still owe a wakeup.  No step of the code depends on it.
-/

namespace Rlibc.Pthread

/-- `PthreadCondWaitState`. -/
structure CondWaitState where
  waiterCount : Nat
  pendingWakeups : Nat
  deriving DecidableEq, Repr

namespace CondWaitState

/-- `PthreadCondWaitState::default()`. -/
def default : CondWaitState :=
  { waiterCount := 0, pendingWakeups := 0 }

def registerWaiter (w : CondWaitState) : CondWaitState :=
  { w with waiterCount := saturatingAdd w.waiterCount 1 }

def unregisterWaiter (w : CondWaitState) : CondWaitState :=
  { w with waiterCount := w.waiterCount - 1 }

/-- The end of a wait that found a pending wakeup. -/
def consumeWakeup (w : CondWaitState) : CondWaitState :=
  { waiterCount := w.waiterCount - 1, pendingWakeups := w.pendingWakeups - 1 }

/-- The critical section of `pthread_cond_signal`. -/
def signal (w : CondWaitState) : CondWaitState :=
  if w.waiterCount = 0 then w
  else { w with pendingWakeups := min (saturatingAdd w.pendingWakeups 1) w.waiterCount }

/-- The critical section of `pthread_cond_broadcast`. -/
def broadcast (w : CondWaitState) : CondWaitState :=
  if w.waiterCount = 0 then w else { w with pendingWakeups := w.waiterCount }

end CondWaitState

/-- A wakeup that a thread took: when it was produced, and when the thread began to wait. -/
structure Consumption (T : Type*) where
  thread : T
  began : Nat
  issued : Nat
  deriving DecidableEq, Repr

structure CondHistory (T : Type*) where
  clock : Nat
  /-- The times at which the pending wakeups were produced. -/
  wakeups : List Nat
  began : T → Nat
  consumed : List (Consumption T)
  /-- For each broadcast, the threads that were waiting then and wait still. -/
  owed : List (T → Bool)

namespace CondHistory

variable {T : Type*} [DecidableEq T]

def empty : CondHistory T :=
  { clock := 0, wakeups := [], began := fun _ => 0, consumed := [], owed := [] }

def begin (h : CondHistory T) (t : T) : CondHistory T :=
  { h with clock := h.clock + 1, began := Function.update h.began t h.clock }

/-- `n` new wakeups are pending. -/
def issue (h : CondHistory T) (n : Nat) : CondHistory T :=
  { h with clock := h.clock + 1, wakeups := h.wakeups ++ List.replicate n h.clock }

def leave (h : CondHistory T) (t : T) : CondHistory T :=
  { h with owed := h.owed.map fun waiting => Function.update waiting t false }

/-- `t` takes one of the pending wakeups, which `which` selects. -/
def consume (h : CondHistory T) (t : T) (which : Nat) : CondHistory T :=
  let i := which % h.wakeups.length
  let h := h.leave t
  { h with
    wakeups := h.wakeups.eraseIdx i
    consumed := ⟨t, h.began t, h.wakeups.getD i 0⟩ :: h.consumed }

def owe (h : CondHistory T) (waiting : T → Bool) : CondHistory T :=
  { h with owed := waiting :: h.owed }

end CondHistory

end Rlibc.Pthread
