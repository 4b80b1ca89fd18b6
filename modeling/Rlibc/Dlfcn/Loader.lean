import Rlibc.Dlfcn.Registry
import Rlibc.Foundations.Lts
import Rlibc.Foundations.Text

/-!
# `dlopen`, `dlclose` and `dlsym` on any number of threads

A call of `dlopen` first has its object opened, by the host or internally, and then registers the
handle under the lock of the registry; other threads run in between.  The other calls hold the
lock once.  `errno` and the pending message belong to the thread.
-/

namespace Rlibc.Dlfcn

open RefCounts Text

/-! ## The machine below -/

/-- The loader of the host and the file system, as far as they do not change. -/
structure Host (Path Object : Type) where
  /-- `host_dlopen().is_some()` -/
  dlopenAvailable : Bool
  /-- What the host's `dlopen` returns for an object that it can open. -/
  handle : Object → Handle
  /-- `/proc/self/exe` -/
  procSelfExePath : Path
  toStringLossy : Path → List Char

/-- The loader returns a handle that is not null, nor one of the reserved constants. -/
structure Host.Regular {Path Object : Type} (host : Host Path Object) : Prop where
  nonnull : ∀ object, host.handle object ≠ nullHandle
  notNext : ∀ object, host.handle object ≠ rtldNext
  notMainProgram : ∀ object, host.handle object ≠ internalMainProgramHandleId
  notProcSelfExe : ∀ object, host.handle object ≠ internalProcSelfExeHandleId

/-- The arguments of a call of `dlopen`, and what the machine answers to it. -/
structure DlopenCall (Path Object : Type) where
  filename : Option Path
  flags : BitVec 32
  /-- The first bytes of the file, or why it cannot be opened or read. -/
  magic : Except Int (List UInt8)
  canonicalPath : Path → Option Path
  /-- The object that the host's `dlopen` opens, unless it returns null. -/
  object : Option Object
  lastOsError : Int
  /-- `take_host_dlerror_message()` -/
  hostMessage : Option (List Char)

variable {Path Object Symbol : Type} [DecidableEq Path] (host : Host Path Object)

/-- Why a call fails: the `errno` it sets and its message. -/
structure DlopenFailure where
  errno : Int
  message : List Char

abbrev ENOEXEC : Int := 8

def rtldSupportedMask : BitVec 32 := 0x103#32

def rtldBindingMask : BitVec 32 := 0x003#32

def elfMagic : List UInt8 := [0x7f, 0x45, 0x4c, 0x46]

/-- A message with the detail behind it, unless that is blank. -/
def withDetail (baseMessage : List Char) (detail : Option (List Char)) : List Char :=
  match (detail.map trim).filter (· ≠ []) with
  | none => baseMessage
  | some detailText => baseMessage ++ ": ".toList ++ detailText

def validateDlopenFlags (flags : BitVec 32) : Except Int Unit :=
  if flags &&& ~~~rtldSupportedMask ≠ 0 then .error EINVAL
  else
    let bindingMode := flags &&& rtldBindingMask
    if bindingMode = 0 ∨ bindingMode = rtldBindingMask then .error EINVAL else .ok ()

def validateElfImage (magic : Except Int (List UInt8)) : Except Int Unit :=
  match magic with
  | .error errno => .error errno
  | .ok bytes => if bytes.length < 4 ∨ bytes.take 4 ≠ elfMagic then .error ENOEXEC else .ok ()

/-- `io_error_errno` of an error that carries the `errno` of the system. -/
def ioErrorErrno (rawOsError fallbackErrno : Int) : Int :=
  if rawOsError ≠ 0 then rawOsError else fallbackErrno

def isInternalLoaderExecutablePath (call : DlopenCall Path Object) (path : Path) : Bool :=
  if path = host.procSelfExePath then true
  else
    match call.canonicalPath path, call.canonicalPath host.procSelfExePath with
    | some pathCanonical, some procSelfExeCanonical => pathCanonical = procSelfExeCanonical
    | none, _ => false
    | some _, none => false

def tryOpenInternalElf (call : DlopenCall Path Object) (path : Path) : Option Handle :=
  if isInternalLoaderExecutablePath host call path then some internalProcSelfExeHandleId else none

/-- What the host's `dlopen` returns. -/
def hostDlopen (call : DlopenCall Path Object) : Handle :=
  (call.object.map host.handle).getD nullHandle

/-- By which of the three routines the handle is registered. -/
inductive OpenOrigin where
  | mainProgram
  | internal
  | external
deriving DecidableEq

def OpenOrigin.kind : OpenOrigin → DlsymHandleKind
  | .mainProgram => .mainProgram
  | .internal => .internal
  | .external => .external

def OpenOrigin.register (origin : OpenOrigin) (registry : DlHandleRegistry) (handle : Handle) :
    DlHandleRegistry :=
  match origin with
  | .mainProgram => registry.registerOpenMainProgramHandle handle
  | .internal => registry.registerOpenInternalHandle handle
  | .external => registry.registerOpenHandle handle

/-- `dlopen` up to the point where it takes the lock of the registry. -/
def openObject (call : DlopenCall Path Object) : Except DlopenFailure (OpenOrigin × Handle) :=
  match validateDlopenFlags call.flags with
  | .error errno => .error ⟨errno, "rlibc: dlopen received invalid flags".toList⟩
  | .ok () =>
    match call.filename with
    | none =>
      if host.dlopenAvailable then
        let handle := hostDlopen host call
        if handle ≠ nullHandle then .ok (.mainProgram, handle)
        else .error ⟨EINVAL, withDetail "rlibc: host dlopen call failed".toList call.hostMessage⟩
      else
        match tryOpenInternalElf host call host.procSelfExePath with
        | some _ => .ok (.mainProgram, internalMainProgramHandleId)
        | none => .error ⟨EINVAL, "rlibc: main-program dlopen handle is unavailable".toList⟩
    | some path =>
      match validateElfImage call.magic with
      | .error errno =>
        if errno = ENOEXEC then
          .error ⟨errno, "rlibc: dlopen target is not a valid ELF image".toList⟩
        else
          .error ⟨errno, withDetail "rlibc: dlopen target path could not be opened".toList
            (some (host.toStringLossy path))⟩
      | .ok () =>
        match tryOpenInternalElf host call path with
        | some handle => .ok (.internal, handle)
        | none =>
          if ¬ host.dlopenAvailable then
            .error ⟨EINVAL, "rlibc: host dlopen resolver unavailable".toList⟩
          else
            let handle := hostDlopen host call
            if handle = nullHandle then
              .error ⟨ioErrorErrno call.lastOsError EINVAL,
                withDetail "rlibc: host dlopen call failed".toList call.hostMessage⟩
            else .ok (.external, handle)

/-! ## Threads -/

variable {Thread : Type} [DecidableEq Thread]

/-- The registry, what each thread has, and the history of the successful calls. -/
structure Loader (Thread : Type) where
  registry : DlHandleRegistry
  /-- The handle that a thread inside `dlopen` has not registered yet. -/
  opening : Thread → Option (OpenOrigin × Handle)
  pendingMessage : Thread → Option (List Char)
  errno : Thread → Int
  history : List (Event Handle OpenOrigin)

namespace Loader

def start : Loader Thread where
  registry := .new
  opening := fun _ => none
  pendingMessage := fun _ => none
  errno := fun _ => 0
  history := []

def setDlerrorMessage (s : Loader Thread) (t : Thread) (message : List Char) : Loader Thread :=
  { s with pendingMessage := Function.update s.pendingMessage t (some message) }

/-- `dlopen` up to the lock: it fails, or the thread has a handle to register. -/
def dlopen (s : Loader Thread) (t : Thread) (call : DlopenCall Path Object) : Loader Thread :=
  match openObject host call with
  | .error failure =>
    { s.setDlerrorMessage t failure.message with
      errno := Function.update s.errno t failure.errno }
  | .ok opened => { s with opening := Function.update s.opening t (some opened) }

/-- The rest of `dlopen`, which returns the handle. -/
def register (s : Loader Thread) (t : Thread) (origin : OpenOrigin) (handle : Handle) :
    Handle × Loader Thread :=
  (handle, { s with
    registry := origin.register s.registry handle
    opening := Function.update s.opening t none
    history := .opened handle origin :: s.history })

def dlclose (s : Loader Thread) (t : Thread) (handle : Handle) : Int × Loader Thread :=
  if handle = nullHandle then
    let s := { s with registry := s.registry.clearTrackableNullHandleEntry }
    (-1, s.setDlerrorMessage t dlerrorInvalidHandle)
  else
    let closing := s.registry.closeHandle handle
    let s := { s with registry := closing.2 }
    match closing.1 with
    | .success => (0, { s with history := .closed handle :: s.history })
    | .alreadyClosed => (-1, s.setDlerrorMessage t dlerrorAlreadyClosed)
    | .invalidHandle => (-1, s.setDlerrorMessage t dlerrorInvalidHandle)

/-- `lookup` is the search for the symbol in what the handle stands for. -/
def dlsym (s : Loader Thread) (t : Thread) (handle : Handle) (symbol : Option Symbol)
    (lookup : DlsymHandleKind → Symbol → Except (List Char) Handle) : Handle × Loader Thread :=
  match classifyDlsymHandle handle s.registry with
  | .error message => (nullHandle, s.setDlerrorMessage t message)
  | .ok handleKind =>
    match symbol with
    | none => (nullHandle, s.setDlerrorMessage t "rlibc: dlsym symbol pointer is null".toList)
    | some symbol =>
      match lookup handleKind symbol with
      | .error message => (nullHandle, s.setDlerrorMessage t message)
      | .ok address => (address, s)

/-- The message of the thread's last failure, which is taken. -/
def dlerror (s : Loader Thread) (t : Thread) : Option (List Char) × Loader Thread :=
  (s.pendingMessage t, { s with pendingMessage := Function.update s.pendingMessage t none })

/-- What a thread can do next. -/
inductive Action (Thread Path Object Symbol : Type) where
  | dlopen (t : Thread) (call : DlopenCall Path Object)
  | register (t : Thread)
  | dlclose (t : Thread) (handle : Handle)
  | dlsym (t : Thread) (handle : Handle) (symbol : Option Symbol)
      (lookup : DlsymHandleKind → Symbol → Except (List Char) Handle)
  | dlerror (t : Thread)

/-- A thread inside `dlopen` registers its handle before it does anything else. -/
def step (s : Loader Thread) : Action Thread Path Object Symbol → Option (Loader Thread)
  | .dlopen t call => if s.opening t = none then some (s.dlopen host t call) else none
  | .register t => (s.opening t).map fun opened => (s.register t opened.1 opened.2).2
  | .dlclose t handle => if s.opening t = none then some (s.dlclose t handle).2 else none
  | .dlsym t handle symbol lookup =>
    if s.opening t = none then some (s.dlsym t handle symbol lookup).2 else none
  | .dlerror t => if s.opening t = none then some (s.dlerror t).2 else none

/-- How often `dlopen` returned the handle. -/
def opens (s : Loader Thread) (handle : Handle) : Nat := RefCounts.opens handle s.history

/-- How often `dlclose` succeeded on it. -/
def closes (s : Loader Thread) (handle : Handle) : Nat := RefCounts.closes handle s.history

/-- By which kind of `dlopen` it was returned last. -/
def origin (s : Loader Thread) (handle : Handle) : Option OpenOrigin :=
  RefCounts.origin handle s.history

end Loader

end Rlibc.Dlfcn
