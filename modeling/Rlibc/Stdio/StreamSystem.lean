import Rlibc.Foundations.Lts
import Rlibc.Stdio.StreamMap

/-!
# Threads on streams

Each step is one critical section of the registry, or one call of the host that gives an address
out or takes it back.  A thread that waits for a lock may look at it again at any time.  What the
host answers is part of the label.
-/

namespace Rlibc.Stdio

inductive Call where
  | flockfile (stream : Nat)
  | ftrylockfile (stream : Nat)
  | funlockfile (stream : Nat)
  | setvbuf (stream buffer : Nat) (mode : Int) (size : Nat)
  | fflush (stream : Nat)
  | fopen
  | tmpfile
  | fclose (stream : Nat)
deriving DecidableEq

/-- The stream that a call is given. -/
def Call.stream : Call → Nat
  | flockfile stream => stream
  | ftrylockfile stream => stream
  | funlockfile stream => stream
  | setvbuf stream _ _ _ => stream
  | fflush stream => stream
  | fopen => 0
  | tmpfile => 0
  | fclose stream => stream

def setbuffer (stream buffer size : Nat) : Call :=
  .setvbuf stream buffer (if buffer = 0 then _IONBF else _IOFBF) (if buffer = 0 then 0 else size)

def setbuf (stream buffer : Nat) : Call :=
  .setvbuf stream buffer (if buffer = 0 then _IONBF else _IOFBF) (if buffer = 0 then 0 else BUFSIZ)

def setlinebuf (stream : Nat) : Call := .setvbuf stream 0 _IOLBF BUFSIZ

/-- Where a thread is in a call. -/
inductive Pc where
  | idle
  /-- In the loop of `lock_stream_file_internal`. -/
  | locking (c : Call)
  /-- The lock of the call is held. -/
  | locked (c : Call)
  /-- The guard is about to be dropped. -/
  | unlocking (c : Call)
  /-- The host has given the address out, `clear_stream_tracking_state` comes next. -/
  | opening (stream : Nat)
  /-- The host has closed the stream, `clear_stream_tracking_state` comes next. -/
  | closing (stream : Nat)
deriving DecidableEq

structure Config where
  mode : Int
  size : Nat
  buffer : Nat
deriving DecidableEq

/-- The configuration that a successful `setvbuf` leaves. -/
def Config.of (buffer : Nat) (mode : Int) (size : Nat) : Config :=
  ⟨mode, if mode = _IONBF then 0 else size, if mode = _IONBF then 0 else buffer⟩

/-- The registry, the addresses that are open at the host, the threads, and the returned values.
`nest`, `opener` and `recorded` are not in memory: the locks that a thread took and has not given
back, who opened a stream, and its last successful `setvbuf`. -/
structure System where
  registry : StreamRegistry
  hostOpen : Nat → Bool
  pc : ThreadId → Pc
  status : ThreadId → Int
  nest : ThreadId → Nat → Nat
  opener : Nat → Option ThreadId
  recorded : Nat → Option Config

/-- What the host answers: an address, a status, and who is at an address now. -/
structure Answer where
  stream : Nat
  status : Int
  identity : Nat → Option Nat

inductive Label where
  | start (t : ThreadId) (c : Call) (answer : Answer)
  | turn (t : ThreadId) (answer : Answer)

namespace System

def goto (s : System) (t : ThreadId) (pc : Pc) : System := { s with pc := Function.update s.pc t pc }

/-- The call of a thread returns. -/
def finish (s : System) (t : ThreadId) (status : Int) : System :=
  { s with pc := Function.update s.pc t .idle, status := Function.update s.status t status }

/-- The thread has one lock more, or less, on a stream. -/
def setNest (s : System) (t : ThreadId) (stream count : Nat) : System :=
  { s with nest := Function.update s.nest t (Function.update (s.nest t) stream count) }

/-- The stream is no one's any more. -/
def forget (s : System) (stream : Nat) : System :=
  { s with
    nest := fun t => Function.update (s.nest t) stream 0
    opener := Function.update s.opener stream none
    recorded := Function.update s.recorded stream none }

end System

/-- One look at the lock, by `flockfile` or by a guard. -/
def lockTurn (s : System) (t : ThreadId) (c : Call) : System :=
  let r := lockStreamFileInternal s.registry c.stream t false
  if r.1 = .acquired then
    let s := { s with registry := r.2 }.setNest t c.stream (s.nest t c.stream + 1)
    match c with
    | .flockfile _ => s.finish t 0
    | _ => s.goto t (.locked c)
  else { s with registry := r.2 }

def tryTurn (s : System) (t : ThreadId) (stream : Nat) : System :=
  let r := lockStreamFileInternal s.registry stream t true
  if r.1 = .acquired then
    ({ s with registry := r.2 }.setNest t stream (s.nest t stream + 1)).finish t 0
  else { s with registry := r.2 }.finish t EBUSY

/-- `funlockfile`, by a caller or by a guard. -/
def unlockTurn (s : System) (t : ThreadId) (stream : Nat) (status : Int) : System :=
  ({ s with registry := funlockfile s.registry stream t }.setNest t stream
    (s.nest t stream - 1)).finish t status

/-- What a call does before it takes a lock. -/
def startCall (host : Host) (s : System) (t : ThreadId) (c : Call) (answer : Answer) :
    Option System :=
  match c with
  | .flockfile stream =>
    some (if stream = 0 then s.finish t EINVAL else s.goto t (.locking c))
  | .ftrylockfile stream => some (if stream = 0 then s.finish t EINVAL else tryTurn s t stream)
  | .funlockfile stream =>
    some (if stream = 0 then s.finish t EINVAL else unlockTurn s t stream 0)
  | .setvbuf stream _ mode size =>
    some (if stream = 0 ∨ ¬isValidBufferingMode mode ∨ (mode ≠ _IONBF ∧ size = 0) then
      s.finish t EOF
    else s.goto t (.locking c))
  | .fflush stream =>
    some (if stream = 0 then
      { s with registry := markAllStreamsAsIoActive host s.registry answer.identity }.finish t
        answer.status
    else s.goto t (.locking c))
  | .fclose stream =>
    some (if stream = 0 ∨ ¬host.resolvesFclose then s.finish t EOF else s.goto t (.locking c))
  | _ =>
    -- `fopen` and `tmpfile`: any address that is not open at the host, or null.
    if answer.stream = 0 then some s
    else if s.hostOpen answer.stream then none
    else some ({ s with hostOpen := Function.update s.hostOpen answer.stream true }.goto t
      (.opening answer.stream))

/-- What a call does under its lock. -/
def lockedTurn (host : Host) (s : System) (t : ThreadId) (c : Call) (answer : Answer) :
    Option System :=
  match c with
  | .setvbuf stream buffer mode size =>
    let r := setvbufLocked s.registry stream buffer mode size (answer.identity stream)
    some { s with
      registry := r.2
      status := Function.update s.status t r.1
      pc := Function.update s.pc t (.unlocking c)
      recorded :=
        if r.1 = 0 then Function.update s.recorded stream (some (.of buffer mode size))
        else s.recorded }
  | .fflush stream =>
    let registry := markStreamAsIoActive s.registry stream (host.isStandardStream stream)
      (answer.identity stream)
    some { s with
      registry := registry
      status := Function.update s.status t
        (if (entryAt registry stream).hostBackedIo then answer.status else 0)
      pc := Function.update s.pc t (.unlocking c) }
  | .fclose stream =>
    some ({ s with
      hostOpen := Function.update s.hostOpen stream false
      status := Function.update s.status t answer.status
      pc := Function.update s.pc t (.closing stream) }.forget stream)
  | _ => none

/-- The clearing step of `fopen` and `tmpfile`, which then return the stream, and of `fclose`. -/
def clearTurn (s : System) (t : ThreadId) (stream : Nat) (opener : Option ThreadId) : System :=
  { s with
    registry := clearStreamTrackingState s.registry stream
    pc := Function.update s.pc t .idle
    opener := opener.elim s.opener fun t => Function.update s.opener stream (some t) }

def step (host : Host) (s : System) : Label → Option System
  | .start t c answer => if s.pc t = .idle then startCall host s t c answer else none
  | .turn t answer =>
    match s.pc t with
    | .idle => none
    | .locking c => some (lockTurn s t c)
    | .locked c => lockedTurn host s t c answer
    | .unlocking c => some (unlockTurn s t c.stream (s.status t))
    | .opening stream => some (clearTurn s t stream (some t))
    | .closing stream => some (clearTurn s t stream none)

/-- No stream was seen, and the standard streams are open. -/
def initial (host : Host) : System where
  registry := []
  hostOpen := host.isStandardStream
  pc _ := .idle
  status _ := 0
  nest _ _ := 0
  opener _ := none
  recorded _ := none

end Rlibc.Stdio
