import Rlibc.Foundations.FifoSet
import Rlibc.Machine

/-!
# The thread registry

`PthreadRegistry` remembers the threads this library created itself (`joinable`, `localPending`,
`detached`, `finished`) and the handles it got from the host C library (`native*`).  The last
detached and the last consumed native handles are kept in two bounded caches, each a set with
its insertion order.
-/

namespace Rlibc.Pthread

/-- `pthread_t`. -/
abbrev PthreadT := UInt64

/-- `NATIVE_DETACHED_CACHE_LIMIT`. -/
abbrev nativeDetachedCacheLimit : Nat := 1024

/-- `NATIVE_CONSUMED_CACHE_LIMIT`. -/
abbrev nativeConsumedCacheLimit : Nat := 1024

/-- `std::thread::JoinHandle`: it names the spawned thread by its place among all of them. -/
structure JoinHandle where
  child : Nat
  deriving DecidableEq, Repr

structure PthreadRegistry where
  detached : Finset PthreadT
  finished : Finset PthreadT
  joinable : PthreadT → Option JoinHandle
  localPending : Finset PthreadT
  nativeDetached : Finset PthreadT
  nativeDetachedOrder : List PthreadT
  nativeConsumed : Finset PthreadT
  nativeConsumedOrder : List PthreadT
  nativeJoinable : Finset PthreadT

namespace PthreadRegistry

/-- `PthreadRegistry::default()`. -/
def empty : PthreadRegistry :=
  { detached := ∅, finished := ∅, joinable := fun _ => none, localPending := ∅,
    nativeDetached := ∅, nativeDetachedOrder := [], nativeConsumed := ∅,
    nativeConsumedOrder := [], nativeJoinable := ∅ }

/-- `self.joinable.contains_key(&thread)`. -/
abbrev containsJoinable (r : PthreadRegistry) (thread : PthreadT) : Prop :=
  (r.joinable thread).isSome

def handleLocalThreadExit (r : PthreadRegistry) (thread : PthreadT) : PthreadRegistry :=
  if thread ∈ r.detached then { r with detached := r.detached.erase thread }
  else if r.containsJoinable thread ∨ thread ∈ r.localPending then
    { r with finished := insert thread r.finished }
  else r

def clearNativeDetached (r : PthreadRegistry) (thread : PthreadT) : PthreadRegistry :=
  let cache := FifoSet.remove r.nativeDetached r.nativeDetachedOrder thread
  { r with nativeDetached := cache.1, nativeDetachedOrder := cache.2 }

def clearNativeConsumed (r : PthreadRegistry) (thread : PthreadT) : PthreadRegistry :=
  let cache := FifoSet.remove r.nativeConsumed r.nativeConsumedOrder thread
  { r with nativeConsumed := cache.1, nativeConsumedOrder := cache.2 }

def removeNativeJoinable (r : PthreadRegistry) (thread : PthreadT) : PthreadRegistry :=
  { r with nativeJoinable := r.nativeJoinable.erase thread }

def insertNativeJoinable (r : PthreadRegistry) (thread : PthreadT) : PthreadRegistry :=
  { r with nativeJoinable := insert thread r.nativeJoinable }

def markNativeDetached (r : PthreadRegistry) (thread : PthreadT) : PthreadRegistry :=
  let r := (r.clearNativeConsumed thread).removeNativeJoinable thread
  let cache :=
    FifoSet.insert nativeDetachedCacheLimit r.nativeDetached r.nativeDetachedOrder thread
  { r with nativeDetached := cache.1, nativeDetachedOrder := cache.2 }

def markNativeConsumed (r : PthreadRegistry) (thread : PthreadT) : PthreadRegistry :=
  let r := (r.removeNativeJoinable thread).clearNativeDetached thread
  let cache :=
    FifoSet.insert nativeConsumedCacheLimit r.nativeConsumed r.nativeConsumedOrder thread
  { r with nativeConsumed := cache.1, nativeConsumedOrder := cache.2 }

def handleForwardedNativeDetachResult (r : PthreadRegistry) (thread : PthreadT)
    (detachResult : Int) (restoreJoinableOnError : Bool) : PthreadRegistry × Int :=
  if detachResult = 0 ∨ detachResult = EINVAL then (r.markNativeDetached thread, detachResult)
  else if detachResult = ESRCH then (r.markNativeConsumed thread, ESRCH)
  else if restoreJoinableOnError ∧ thread ∉ r.nativeDetached then
    (r.insertNativeJoinable thread, detachResult)
  else (r, detachResult)

def handleForwardedNativeJoinResult (r : PthreadRegistry) (thread : PthreadT)
    (joinResult : Int) (restoreJoinableOnError : Bool) : PthreadRegistry × Int :=
  if joinResult = 0 then
    if thread ∈ r.nativeDetached then (r.markNativeDetached thread, 0)
    else (r.markNativeConsumed thread, 0)
  else if joinResult = ESRCH then (r.markNativeConsumed thread, ESRCH)
  else if joinResult = EINVAL then (r.markNativeDetached thread, EINVAL)
  else if restoreJoinableOnError ∧ thread ∉ r.nativeDetached then
    (r.insertNativeJoinable thread, joinResult)
  else (r, joinResult)

/-- A handle that `allocate_thread_id` has to skip. -/
def Taken (r : PthreadRegistry) (candidate : PthreadT) : Prop :=
  candidate = 0 ∨ r.containsJoinable candidate ∨ candidate ∈ r.localPending ∨
    candidate ∈ r.detached ∨ candidate ∈ r.nativeJoinable ∨ candidate ∈ r.nativeDetached ∨
    candidate ∈ r.nativeConsumed

instance (r : PthreadRegistry) (candidate : PthreadT) : Decidable (r.Taken candidate) :=
  inferInstanceAs (Decidable (_ ∨ _))

/-- `allocate_thread_id`, over the value of `NEXT_THREAD_ID`.  The loop has no bound in the
source; it comes back to its first candidate after `2 ^ 64` turns, so a call that makes that
many turns never returns. -/
def allocateThreadId (r : PthreadRegistry) : Nat → UInt64 → Option (PthreadT × UInt64)
  | 0, _ => none
  | turns + 1, next =>
    if r.Taken next then r.allocateThreadId turns (next + 1) else some (next, next + 1)

/-- An allocated handle is in none of the tables. -/
theorem allocateThreadId_not_taken {r : PthreadRegistry} {turns : Nat} {next next' : UInt64}
    {thread : PthreadT} (h : r.allocateThreadId turns next = some (thread, next')) :
    ¬ r.Taken thread := by
  induction turns generalizing next with
  | zero => exact absurd h (by simp [allocateThreadId])
  | succ turns ih =>
    rw [allocateThreadId] at h
    split at h
    · exact ih h
    · rename_i hfree
      simp only [Option.some.injEq, Prod.mk.injEq] at h
      exact h.1 ▸ hfree

/-! ## Where a handle is recorded -/

/-- The five ways a handle can be recorded; `usable` covers `joinable` and `local_pending`. -/
inductive Record where
  | usable
  | detached
  | nativeJoinable
  | nativeDetached
  | nativeConsumed
  deriving DecidableEq, Repr

def Records (r : PthreadRegistry) : Record → PthreadT → Prop
  | .usable, thread => r.containsJoinable thread ∨ thread ∈ r.localPending
  | .detached, thread => thread ∈ r.detached
  | .nativeJoinable, thread => thread ∈ r.nativeJoinable
  | .nativeDetached, thread => thread ∈ r.nativeDetached
  | .nativeConsumed, thread => thread ∈ r.nativeConsumed

/-- No handle is recorded in two ways. -/
def Disjoint (r : PthreadRegistry) : Prop :=
  ∀ thread k k', r.Records k thread → r.Records k' thread → k = k'

/-- Both caches are enumerated by their order lists, within their limits. -/
structure CachesWellFormed (r : PthreadRegistry) : Prop where
  detached : FifoSet.WellFormed nativeDetachedCacheLimit r.nativeDetached r.nativeDetachedOrder
  consumed : FifoSet.WellFormed nativeConsumedCacheLimit r.nativeConsumed r.nativeConsumedOrder

/-- The handle belongs to a thread that this library created. -/
def Local (r : PthreadRegistry) (thread : PthreadT) : Prop :=
  r.Records .usable thread ∨ r.Records .detached thread

end PthreadRegistry

end Rlibc.Pthread
