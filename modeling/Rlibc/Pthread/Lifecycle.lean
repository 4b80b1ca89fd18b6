import Mathlib.Logic.Function.Basic
import Rlibc.Foundations.Lts
import Rlibc.Pthread.Registry

/-!
# Thread creation, join and detach as a system

A call of `pthread_create`, `pthread_join` or `pthread_detach` takes the registry lock once or
twice, with a host call or a spawn in between.  Each critical section is one step here, and so is
each result of the host, so that other calls can run between any two of them.
-/

namespace Rlibc.Pthread

/-! ## The critical sections -/

/-- `JoinTarget` and `DetachTarget`. -/
inductive Target where
  | local (joinHandle : JoinHandle)
  | nativeJoinable
  | nativeDetached
  | unknownNative
  deriving DecidableEq, Repr

namespace PthreadRegistry

/-- The part of the lookup that `pthread_join` and `pthread_detach` share: what follows the
removal of a local join handle. -/
def nativeTarget (r : PthreadRegistry) (thread : PthreadT) : PthreadRegistry × Target :=
  if thread ∈ r.nativeDetached then (r, .nativeDetached)
  else if thread ∈ r.nativeJoinable then
    ((r.removeNativeJoinable thread).clearNativeDetached thread, .nativeJoinable)
  else (r, .unknownNative)

/-- The first critical section of `pthread_join`. -/
def joinTarget (r : PthreadRegistry) (thread : PthreadT) : PthreadRegistry × Except Int Target :=
  if thread ∈ r.detached then (r, .error EINVAL)
  else if thread ∈ r.nativeConsumed then (r, .error ESRCH)
  else
    match r.joinable thread with
    | some joinHandle =>
      ({ r with
          joinable := Function.update r.joinable thread none
          finished := r.finished.erase thread }, .ok (.local joinHandle))
    | none => ((r.nativeTarget thread).1, .ok (r.nativeTarget thread).2)

/-- The first critical section of `pthread_detach`. -/
def detachTarget (r : PthreadRegistry) (thread : PthreadT) :
    PthreadRegistry × Except Int Target :=
  if thread ∈ r.detached then (r, .error EINVAL)
  else if thread ∈ r.nativeConsumed then (r, .error ESRCH)
  else
    match r.joinable thread with
    | some joinHandle =>
      ({ r with
          joinable := Function.update r.joinable thread none
          finished := r.finished.erase thread
          detached := if thread ∈ r.finished then r.detached else insert thread r.detached },
        .ok (.local joinHandle))
    | none => ((r.nativeTarget thread).1, .ok (r.nativeTarget thread).2)

/-- The critical section of `spawn_local_thread` after a successful spawn. -/
def publishLocal (r : PthreadRegistry) (thread : PthreadT) (joinHandle : JoinHandle) :
    PthreadRegistry :=
  { r with
    joinable := Function.update r.joinable thread (some joinHandle)
    localPending := r.localPending.erase thread }

/-- The critical section of `pthread_create` after a successful host call. -/
def publishNative (r : PthreadRegistry) (thread : PthreadT) : PthreadRegistry :=
  ((r.insertNativeJoinable thread).clearNativeDetached thread).clearNativeConsumed thread

end PthreadRegistry

/-- `is_zeroed_attr_payload`. -/
def isZeroedAttrPayload (payload : List UInt8) : Bool :=
  payload.all fun byte => byte == 0

/-! ## The system -/

/-- A thread spawned by `spawn_local_thread`, with the value of its start routine once that has
returned and the thread has left the registry. -/
structure Child where
  threadId : PthreadT
  returned : Option UInt64
  deriving DecidableEq, Repr

/-- Where a calling thread stands between two critical sections. -/
inductive Pc where
  | idle
  | spawning (thread : PthreadT)
  | spawned (thread : PthreadT) (joinHandle : JoinHandle)
  | spawnFailed (thread : PthreadT)
  | publishing (thread : PthreadT)
  | joiningLocal (thread : PthreadT) (joinHandle : JoinHandle)
  | joiningNative (thread : PthreadT)
  | detachingNative (thread : PthreadT)
  | unknownNative (thread : PthreadT)
  deriving DecidableEq, Repr

/-- What a finished call answered. -/
inductive Reply where
  | created (code : Int) (thread : Option PthreadT)
  | joined (thread : PthreadT) (code : Int) (value : Option UInt64)
  | detached (thread : PthreadT) (code : Int)
  /-- The call ended in `mark_native_consumed` for a handle nobody knows. -/
  | unknown (thread : PthreadT) (code : Int)
  deriving DecidableEq, Repr

structure Lifecycle (T : Type*) where
  registry : PthreadRegistry
  /-- `NEXT_THREAD_ID`. -/
  nextThreadId : UInt64
  children : List Child
  pc : T → Pc
  replies : List (T × Reply)

inductive LifecycleLabel (T : Type*) where
  /-- `pthread_create`, with the bytes behind `attr`, and with the host's answer and the handle it
  stored for a call that is forwarded. -/
  | create (t : T) (threadIsNull : Bool) (hasStart : Bool) (attr : Option (List UInt8))
      (hostResult : Int) (hostThread : PthreadT)
  /-- `thread::Builder::spawn` returns. -/
  | spawn (t : T) (ok : Bool)
  | finishSpawn (t : T)
  | publish (t : T)
  /-- A start routine returns and its thread leaves the registry. -/
  | exit (child : Nat) (value : UInt64)
  /-- `pthread_join`, with the `CURRENT_THREAD_ID` of its caller. -/
  | join (t : T) (currentThreadId : Option PthreadT) (thread : PthreadT)
  | detach (t : T) (thread : PthreadT)
  | finishJoinLocal (t : T)
  /-- The host's `pthread_join` or `pthread_detach` returns. -/
  | finishNative (t : T) (hostResult : Int)
  | finishUnknown (t : T)

namespace Lifecycle

variable {T : Type*} [DecidableEq T]

/-- `NEXT_THREAD_ID` starts at 1. -/
def initial : Lifecycle T :=
  { registry := .empty, nextThreadId := 1, children := [], pc := fun _ => .idle, replies := [] }

def goto (s : Lifecycle T) (t : T) (pc : Pc) : Lifecycle T :=
  { s with pc := Function.update s.pc t pc }

def reply (s : Lifecycle T) (t : T) (r : Reply) : Lifecycle T :=
  { s with pc := Function.update s.pc t .idle, replies := (t, r) :: s.replies }

def withRegistry (s : Lifecycle T) (r : PthreadRegistry) : Lifecycle T :=
  { s with registry := r }

/-- The first critical section of `spawn_local_thread`. -/
def spawnLocalThread (s : Lifecycle T) (t : T) : Option (Lifecycle T) :=
  (s.registry.allocateThreadId 0x10000000000000000 s.nextThreadId).map fun allocated =>
    { s with
      registry := { s.registry with
        localPending := insert allocated.1 s.registry.localPending }
      nextThreadId := allocated.2
      pc := Function.update s.pc t (.spawning allocated.1) }

def create (s : Lifecycle T) (t : T) (threadIsNull hasStart : Bool) (attr : Option (List UInt8))
    (hostResult : Int) (hostThread : PthreadT) : Option (Lifecycle T) :=
  if threadIsNull then some (s.reply t (.created EINVAL none))
  else if !hasStart then some (s.reply t (.created EINVAL none))
  else
    match attr with
    | none => s.spawnLocalThread t
    | some payload =>
      if isZeroedAttrPayload payload then s.spawnLocalThread t
      else if hostResult = 0 then some (s.goto t (.publishing hostThread))
      else some (s.reply t (.created hostResult none))

/-- `Builder::spawn` starts the child before it returns. -/
def spawn (s : Lifecycle T) (t : T) (thread : PthreadT) (ok : Bool) : Lifecycle T :=
  if ok then
    { s with
      children := s.children ++ [⟨thread, none⟩]
      pc := Function.update s.pc t (.spawned thread ⟨s.children.length⟩) }
  else s.goto t (.spawnFailed thread)

/-- The end of a spawned closure. -/
def exit (s : Lifecycle T) (child : Nat) (value : UInt64) : Option (Lifecycle T) :=
  match s.children[child]? with
  | some ⟨threadId, none⟩ =>
    some { s with
      registry := s.registry.handleLocalThreadExit threadId
      children := s.children.set child ⟨threadId, some value⟩ }
  | _ => none

def join (s : Lifecycle T) (t : T) (currentThreadId : Option PthreadT) (thread : PthreadT) :
    Lifecycle T :=
  if currentThreadId = some thread then s.reply t (.joined thread EDEADLK none)
  else
    let found := s.registry.joinTarget thread
    let s := s.withRegistry found.1
    match found.2 with
    | .error code => s.reply t (.joined thread code none)
    | .ok (.local joinHandle) => s.goto t (.joiningLocal thread joinHandle)
    | .ok .nativeJoinable => s.goto t (.joiningNative thread)
    | .ok .nativeDetached => s.reply t (.joined thread EINVAL none)
    | .ok .unknownNative => s.goto t (.unknownNative thread)

def detach (s : Lifecycle T) (t : T) (thread : PthreadT) : Lifecycle T :=
  let found := s.registry.detachTarget thread
  let s := s.withRegistry found.1
  match found.2 with
  | .error code => s.reply t (.detached thread code)
  | .ok (.local _) => s.reply t (.detached thread 0)
  | .ok .nativeJoinable => s.goto t (.detachingNative thread)
  | .ok .nativeDetached => s.reply t (.detached thread EINVAL)
  | .ok .unknownNative => s.goto t (.unknownNative thread)

/-- `join_handle.join()` returns once its thread has ended.  A panic does not leave an
`extern "C"` start routine, so that the error case of the source cannot arise. -/
def finishJoinLocal (s : Lifecycle T) (t : T) (thread : PthreadT) (joinHandle : JoinHandle) :
    Option (Lifecycle T) :=
  match s.children[joinHandle.child]? with
  | some ⟨_, some value⟩ => some (s.reply t (.joined thread 0 (some value)))
  | _ => none

def finishJoin (s : Lifecycle T) (t : T) (thread : PthreadT) (hostResult : Int) : Lifecycle T :=
  let answer := s.registry.handleForwardedNativeJoinResult thread hostResult true
  (s.withRegistry answer.1).reply t (.joined thread answer.2 none)

def finishDetach (s : Lifecycle T) (t : T) (thread : PthreadT) (hostResult : Int) : Lifecycle T :=
  let answer := s.registry.handleForwardedNativeDetachResult thread hostResult true
  (s.withRegistry answer.1).reply t (.detached thread answer.2)

def step (s : Lifecycle T) : LifecycleLabel T → Option (Lifecycle T)
  | .create t threadIsNull hasStart attr hostResult hostThread =>
    if s.pc t = .idle then s.create t threadIsNull hasStart attr hostResult hostThread else none
  | .spawn t ok =>
    match s.pc t with
    | .spawning thread => some (s.spawn t thread ok)
    | _ => none
  | .finishSpawn t =>
    match s.pc t with
    | .spawned thread joinHandle =>
      some ((s.withRegistry (s.registry.publishLocal thread joinHandle)).reply t
        (.created 0 (some thread)))
    | .spawnFailed thread =>
      some ((s.withRegistry
        { s.registry with localPending := s.registry.localPending.erase thread }).reply t
        (.created EAGAIN none))
    | _ => none
  | .publish t =>
    match s.pc t with
    | .publishing thread =>
      some ((s.withRegistry (s.registry.publishNative thread)).reply t (.created 0 (some thread)))
    | _ => none
  | .exit child value => s.exit child value
  | .join t currentThreadId thread =>
    if s.pc t = .idle then some (s.join t currentThreadId thread) else none
  | .detach t thread => if s.pc t = .idle then some (s.detach t thread) else none
  | .finishJoinLocal t =>
    match s.pc t with
    | .joiningLocal thread joinHandle => s.finishJoinLocal t thread joinHandle
    | _ => none
  | .finishNative t hostResult =>
    match s.pc t with
    | .joiningNative thread => some (s.finishJoin t thread hostResult)
    | .detachingNative thread => some (s.finishDetach t thread hostResult)
    | _ => none
  | .finishUnknown t =>
    match s.pc t with
    | .unknownNative thread =>
      some ((s.withRegistry (s.registry.markNativeConsumed thread)).reply t
        (.unknown thread ESRCH))
    | _ => none

end Lifecycle

end Rlibc.Pthread
