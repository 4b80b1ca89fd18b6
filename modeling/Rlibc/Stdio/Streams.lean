import Rlibc.Foundations.KeyedList
import Rlibc.Machine

/-!
# The stream registry

One record for each stream that was seen, added when it is first asked for and taken out when it
holds nothing any more.  Read as a map from addresses to records, taking it out changes nothing.
-/

namespace Rlibc.Stdio

open KeyedList (lookup find store ensure replace eraseFirst eraseAll Distinct)

abbrev ThreadId := Nat

def _IOFBF : Int := 0
def _IOLBF : Int := 1
def _IONBF : Int := 2
def BUFSIZ : Nat := 8192
def EOF : Int := -1

structure StreamState where
  streamKey : Nat
  bufferingMode : Int
  bufferSize : Nat
  userBufferAddr : Nat
  explicitBufferingConfig : Bool
  ioActive : Bool
  hostBackedIo : Bool
  hostStreamIdentity : Option Nat
  fileLockOwner : Option ThreadId
  fileLockDepth : Nat
deriving DecidableEq

/-- The record that `stream_state_mut_or_insert` pushes. -/
def newStreamState (key : Nat) : StreamState where
  streamKey := key
  bufferingMode := _IONBF
  bufferSize := 0
  userBufferAddr := 0
  explicitBufferingConfig := false
  ioActive := false
  hostBackedIo := false
  hostStreamIdentity := none
  fileLockOwner := none
  fileLockDepth := 0

/-- Records by their `stream_key`. -/
def streams : KeyedList.Schema StreamState Nat := ⟨StreamState.streamKey, newStreamState, fun _ => rfl⟩

/-- `STREAM_REGISTRY`. -/
abbrev StreamRegistry := List StreamState

/-- The record of a stream, as `stream_state_mut_or_insert` hands it out. -/
def entryAt (registry : StreamRegistry) (key : Nat) : StreamState := lookup streams registry key

@[simp] theorem entryAt_streamKey (registry : StreamRegistry) (key : Nat) :
    (entryAt registry key).streamKey = key := @KeyedList.key_lookup StreamState Nat _ streams registry key

def streamStateIsPrunable (s : StreamState) : Bool :=
  s.bufferingMode = _IONBF ∧ s.bufferSize = 0 ∧ s.userBufferAddr = 0 ∧
    ¬s.explicitBufferingConfig ∧ ¬s.ioActive ∧ ¬s.hostBackedIo ∧ s.hostStreamIdentity = none ∧
    s.fileLockOwner = none ∧ s.fileLockDepth = 0

/-- The test for pruning leaves no field out. -/
theorem prunable_iff (s : StreamState) :
    streamStateIsPrunable s = true ↔ s = newStreamState s.streamKey := by
  unfold streamStateIsPrunable newStreamState
  obtain ⟨key, mode, size, buffer, explicit, active, backed, identity, owner, depth⟩ := s
  simp only [decide_eq_true_eq, StreamState.mk.injEq, true_and, Bool.not_eq_true]

@[simp] theorem entryAt_ensure (registry : StreamRegistry) (key key' : Nat) :
    entryAt (ensure streams registry key) key' = entryAt registry key' :=
  KeyedList.lookup_ensure registry key key'

theorem entryAt_store (registry : StreamRegistry) (s : StreamState) :
    entryAt (store streams registry s) s.streamKey = s :=
  @KeyedList.lookup_store_self StreamState Nat _ streams registry s

theorem entryAt_store_of_ne (registry : StreamRegistry) {s : StreamState} {key : Nat}
    (h : key ≠ s.streamKey) : entryAt (store streams registry s) key = entryAt registry key :=
  KeyedList.lookup_store_of_ne registry h

/-! ## Locks -/

inductive LockReply where
  | acquired
  | busy
  | wait
deriving DecidableEq

/-- The record of a stream that a thread has locked once more. -/
def StreamState.lockedBy (s : StreamState) (current : ThreadId) : StreamState :=
  match s.fileLockOwner with
  | none => { s with fileLockOwner := some current, fileLockDepth := 1 }
  | some _ => { s with fileLockDepth := saturatingAdd s.fileLockDepth 1 }

/-- One turn of the loop of `lock_stream_file_internal`. -/
def lockStreamFileInternal (registry : StreamRegistry) (key : Nat) (current : ThreadId)
    (tryOnly : Bool) : LockReply × StreamRegistry :=
  match (entryAt registry key).fileLockOwner with
  | none => (.acquired, store streams registry ((entryAt registry key).lockedBy current))
  | some owner =>
    if owner = current then
      (.acquired, store streams registry ((entryAt registry key).lockedBy current))
    else (if tryOnly then .busy else .wait, ensure streams registry key)

/-- The record of a stream that its owner has unlocked once. -/
def StreamState.unlocked (s : StreamState) : StreamState :=
  if s.fileLockDepth > 1 then { s with fileLockDepth := s.fileLockDepth - 1 }
  else { s with fileLockOwner := none, fileLockDepth := 0 }

/-- The thread has something to unlock. -/
def StreamState.heldBy (s : StreamState) (current : ThreadId) : Prop :=
  s.fileLockOwner = some current ∧ s.fileLockDepth ≠ 0

instance (s : StreamState) (current : ThreadId) : Decidable (s.heldBy current) :=
  inferInstanceAs (Decidable (_ ∧ _))

/-- `funlockfile` of a stream that is not null. -/
def funlockfile (registry : StreamRegistry) (key : Nat) (current : ThreadId) : StreamRegistry :=
  match find streams registry key with
  | none => registry
  | some s =>
    if ¬s.heldBy current then registry
    else if s.fileLockDepth > 1 then replace streams s.unlocked registry
    else if streamStateIsPrunable s.unlocked then
      eraseFirst streams (replace streams s.unlocked registry) key
    else replace streams s.unlocked registry

/-! ## Buffering and activity -/

def isValidBufferingMode (mode : Int) : Bool := mode = _IOFBF ∨ mode = _IOLBF ∨ mode = _IONBF

/-- The stream at the address is another one than before. -/
def recycled (previous current : Option Nat) : Bool :=
  match previous, current with
  | some previous, some current => previous ≠ current
  | none, some _ => true
  | _, none => false

/-- What `setvbuf` makes of the record; `none` is its late `EOF`. -/
def setvbufUpdate (s : StreamState) (buffer : Nat) (mode : Int) (size : Nat)
    (currentIdentity : Option Nat) : Option StreamState :=
  let s :=
    if s.ioActive ∧ s.hostBackedIo ∧ recycled s.hostStreamIdentity currentIdentity then
      { s with ioActive := false, hostBackedIo := false, hostStreamIdentity := currentIdentity }
    else s
  if s.ioActive then none
  else some { s with
    bufferingMode := mode
    bufferSize := if mode = _IONBF then 0 else size
    userBufferAddr := if mode = _IONBF then 0 else buffer
    explicitBufferingConfig := true
    hostBackedIo := false
    hostStreamIdentity := none }

/-- `setvbuf` between its lock and its unlock. -/
def setvbufLocked (registry : StreamRegistry) (key buffer : Nat) (mode : Int) (size : Nat)
    (currentIdentity : Option Nat) : Int × StreamRegistry :=
  match setvbufUpdate (entryAt registry key) buffer mode size currentIdentity with
  | none => (EOF, ensure streams registry key)
  | some s => (0, store streams registry s)

/-- The record of a stream that saw I/O, of the host or not. -/
def StreamState.activated (s : StreamState) (hostStream : Bool) (identity : Option Nat) :
    StreamState :=
  if hostStream then
    { s with ioActive := true, hostBackedIo := true, hostStreamIdentity := identity }
  else { s with ioActive := true }

def markStreamAsIoActive (registry : StreamRegistry) (key : Nat) (hostStream : Bool)
    (identity : Option Nat) : StreamRegistry :=
  store streams registry ((entryAt registry key).activated hostStream identity)

/-- `stdin`, `stdout` and `stderr` of the host, and what it is able to do. -/
structure Host where
  stdin : Nat
  stdout : Nat
  stderr : Nat
  resolvesFclose : Bool

def Host.isStandardStream (host : Host) (stream : Nat) : Bool :=
  stream = host.stdin ∨ stream = host.stdout ∨ stream = host.stderr

def markHostStreamAsIoActive (registry : StreamRegistry) (stream : Nat) (identity : Option Nat) :
    StreamRegistry :=
  if stream = 0 then registry else markStreamAsIoActive registry stream true identity

def markAllStreamsAsIoActive (host : Host) (registry : StreamRegistry)
    (identity : Nat → Option Nat) : StreamRegistry :=
  let registry := registry.map fun s => s.activated false none
  let registry := markHostStreamAsIoActive registry host.stdin (identity host.stdin)
  let registry := markHostStreamAsIoActive registry host.stdout (identity host.stdout)
  markHostStreamAsIoActive registry host.stderr (identity host.stderr)

def clearStreamTrackingState (registry : StreamRegistry) (key : Nat) : StreamRegistry :=
  eraseAll streams registry key

end Rlibc.Stdio
