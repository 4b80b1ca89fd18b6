import Mathlib.Data.List.Dedup
import Mathlib.Data.List.Sort
import Rlibc.Foundations.ByteMem
import Rlibc.Machine

/-!
# The process environment

`getenv` and the four mutators over their three stores: the vector the process was started with,
the owned copy (`OWNED_ENV`) that replaces it at the first mutation, and the list of buffers that
`putenv` aliases (`PUTENV_ALIASES`).  A name or a value is the bytes of its C string, and `none`
is a null pointer; the string given to `putenv` is an address, because it is read again later.
-/

namespace Rlibc.Stdlib

open ByteMem

/-- `b'='`. -/
abbrev equalSign : UInt8 := 61

/-- The C string at an address: its bytes up to the NUL. -/
def cString (m : Mem) (a : Nat) : List UInt8 :=
  untilNul m (0x10000000000000000 - a) a

/-- `bytes.iter().position(|byte| *byte == b'=')`, with what stands before and after it. -/
def splitAtEqual : List UInt8 → Option (List UInt8 × List UInt8)
  | [] => none
  | c :: cs =>
    if c = equalSign then some ([], cs) else (splitAtEqual cs).map fun p => (c :: p.1, p.2)

/-- `env_entry_has_name`. -/
def envEntryHasName (entry name : List UInt8) : Bool :=
  match splitAtEqual entry with
  | some (found, _) => found = name
  | none => false

/-- `build_env_entry`. -/
def buildEnvEntry (name value : List UInt8) : List UInt8 := name ++ equalSign :: value

/-- `validate_name_bytes` accepts the name. -/
abbrev ValidName (name : List UInt8) : Prop := name ≠ [] ∧ equalSign ∉ name

/-! ## What the process was started with -/

/-- The startup vector (`none` for a null `environ`) and what the host environment holds. -/
structure Host where
  startup : Option (List (List UInt8))
  /-- The contents of `/proc/self/environ`, when it can be read. -/
  procEnviron : Option (List UInt8)
  /-- `std::env::vars_os()`. -/
  varsOs : List (List UInt8 × List UInt8)

def copyEntriesFromProcEnviron (h : Host) : List (List UInt8) :=
  match h.procEnviron with
  | none => []
  | some contents =>
    (contents.splitOn 0).filterMap fun entry =>
      match splitAtEqual entry with
      | none => none
      | some (name, value) => if ValidName name then some (buildEnvEntry name value) else none

def copyEntriesFromHostEnv (h : Host) : List (List UInt8) :=
  let procEntries := copyEntriesFromProcEnviron h
  if procEntries ≠ [] then procEntries
  else
    h.varsOs.filterMap fun pair =>
      if ¬ ValidName pair.1 then none
      else if 0 ∈ pair.1 ∨ 0 ∈ pair.2 then none
      else some (buildEnvEntry pair.1 pair.2)

/-! ## State -/

/-- A `CString` on the heap.  No two that are alive at once have the same `id`. -/
structure CString where
  id : Nat
  bytes : List UInt8
  deriving DecidableEq, Repr

/-- A non-null pointer of an environment vector. -/
inductive EntryPtr where
  | startup (index : Nat)
  | owned (id : Nat)
  deriving DecidableEq, Repr

/-- What the variable `environ` points to. -/
inductive EnvironPtr where
  | null
  | startup
  /-- `self.pointers.as_mut_ptr()` of `OWNED_ENV`. -/
  | pointers
  deriving DecidableEq, Repr

structure PutEnvAlias where
  name : List UInt8
  entryAddr : Nat
  deriving DecidableEq, Repr

/-- The memory of the caller, `environ`, `OWNED_ENV`, `PUTENV_ALIASES` and `errno`. -/
structure EnvState where
  mem : Mem
  environ : EnvironPtr
  initialized : Bool
  entries : List CString
  pointers : List (Option EntryPtr)
  aliases : List PutEnvAlias
  errno : Int
  /-- The `id` of the next `CString`. -/
  nextId : Nat

/-- What `getenv` returns: a pointer into an entry, into a buffer of the caller, or to the
thread's `PROC_ENV_FALLBACK_VALUE`. -/
inductive ValuePtr where
  | inEntry (entry : EntryPtr) (offset : Nat)
  | inBuffer (address : Nat)
  | fallback (value : List UInt8)
  deriving DecidableEq, Repr

namespace EnvState

/-- The state before the first call. -/
def initial (h : Host) (mem : Mem) (errno : Int) : EnvState :=
  { mem := mem, environ := if h.startup.isSome then .startup else .null, initialized := false,
    entries := [], pointers := [], aliases := [], errno := errno, nextId := 0 }

/-- The vector that `environ` points to; a null `environ` has no elements. -/
def vector (h : Host) (s : EnvState) : List (Option EntryPtr) :=
  match s.environ with
  | .null => []
  | .startup => (List.range (h.startup.getD []).length).map (some ∘ .startup) ++ [none]
  | .pointers => s.pointers

/-- The string an entry pointer leads to, or `none` if the pointer dangles. -/
def read (h : Host) (s : EnvState) : EntryPtr → Option (List UInt8)
  | .startup index => (h.startup.getD [])[index]?
  | .owned id => (s.entries.find? (·.id = id)).map (·.bytes)

/-- The string a result of `getenv` leads to. -/
def valueAt (h : Host) (s : EnvState) : ValuePtr → Option (List UInt8)
  | .inEntry entry offset => (s.read h entry).map (·.drop offset)
  | .inBuffer address => some (cString s.mem address)
  | .fallback value => some value

/-! ## The owned copy -/

/-- The walk of `copy_entries_from_environ`.  It stops at the null pointer; a vector that ends
without one, or a pointer that dangles, is undefined behaviour that `Inv` excludes. -/
def copyEntriesFromEnviron (read : EntryPtr → Option (List UInt8)) :
    List (Option EntryPtr) → List (List UInt8)
  | some entry :: rest =>
    match read entry with
    | some bytes => bytes :: copyEntriesFromEnviron read rest
    | none => []
  | _ => []

/-- `CString::new` of each, in order. -/
def allocCStrings : Nat → List (List UInt8) → List CString
  | _, [] => []
  | next, bytes :: rest => ⟨next, bytes⟩ :: allocCStrings (next + 1) rest

def publish (s : EnvState) : EnvState :=
  if s.entries = [] then { s with pointers := [], environ := .null }
  else
    { s with pointers := s.entries.map (fun entry => some (.owned entry.id)) ++ [none],
             environ := .pointers }

/-- The entries that `ensure_initialized` copies. -/
def copiedEntries (h : Host) (s : EnvState) : List (List UInt8) :=
  match s.environ with
  | .null => copyEntriesFromHostEnv h
  | _ => copyEntriesFromEnviron (s.read h) (s.vector h)

def ensureInitialized (h : Host) (s : EnvState) : EnvState :=
  if s.initialized then s
  else
    let copied := s.copiedEntries h
    publish { s with entries := allocCStrings s.nextId copied, initialized := true,
                     nextId := s.nextId + copied.length }

def findNameIndex (entries : List CString) (name : List UInt8) : Option Nat :=
  entries.findIdx? fun entry => envEntryHasName entry.bytes name

def containsName (s : EnvState) (name : List UInt8) : Bool :=
  (findNameIndex s.entries name).isSome

/-- The `retain` of `set_name_value`, with its `kept_first`: of the entries for the name the
first one stays. -/
def retainFirst (name : List UInt8) : Bool → List CString → List CString
  | _, [] => []
  | keptFirst, entry :: rest =>
    if ¬ envEntryHasName entry.bytes name then entry :: retainFirst name keptFirst rest
    else if keptFirst then retainFirst name keptFirst rest
    else entry :: retainFirst name true rest

/-- `self.entries` when `set_name_value` is about to publish it. -/
def replaceOrPush (name : List UInt8) (entry : CString) (entries : List CString) : List CString :=
  match findNameIndex entries name with
  | some index => retainFirst name false (entries.set index entry)
  | none => entries ++ [entry]

def setNameValue (s : EnvState) (name value : List UInt8) : EnvState :=
  let entry : CString := ⟨s.nextId, buildEnvEntry name value⟩
  publish { s with entries := replaceOrPush name entry s.entries, nextId := s.nextId + 1 }

def removeName (s : EnvState) (name : List UInt8) : EnvState :=
  let kept := s.entries.filter fun entry => ¬ envEntryHasName entry.bytes name
  if kept.length ≠ s.entries.length then publish { s with entries := kept }
  else { s with entries := kept }

def clear (s : EnvState) : EnvState := publish { s with entries := [] }

def removeOwnedNameIfInitialized (s : EnvState) (name : List UInt8) : EnvState :=
  if ¬ s.initialized then s else s.removeName name

/-! ## The aliases of `putenv` -/

/-- `parse_alias_value_ptr_impl` past its null check: the address of the value when the buffer
reads `NAME=`. -/
def parseAliasValuePtr (m : Mem) (cursor : Nat) : List UInt8 → Option Nat
  | [] => if m cursor = equalSign then some (cursor + 1) else none
  | c :: cs => if m cursor = c then parseAliasValuePtr m (cursor + 1) cs else none

/-- The locals of the loop of `lookup_putenv_alias_value`. -/
structure AliasScan where
  resolved : Option (Nat × Nat)
  removeIndices : List Nat

/-- That loop, from the alias with number `index`. -/
def scanAliases (m : Mem) (name : List UInt8) : Nat → AliasScan → List PutEnvAlias → AliasScan
  | _, scan, [] => scan
  | index, scan, entry :: rest =>
    if entry.name ≠ name then scanAliases m name (index + 1) scan rest
    else
      match (if entry.entryAddr = 0 then none else parseAliasValuePtr m entry.entryAddr name) with
      | some value =>
        scanAliases m name (index + 1)
          { resolved := some (index, value),
            removeIndices := scan.removeIndices ++ (scan.resolved.map (·.1)).toList } rest
      | none =>
        scanAliases m name (index + 1)
          { scan with removeIndices := scan.removeIndices ++ [index] } rest

/-- `lookup_putenv_alias_value`: the value pointer, and the state without the aliases the scan
gave up. -/
def lookupPutenvAliasValue (s : EnvState) (name : List UInt8) : Option Nat × EnvState :=
  let scan := scanAliases s.mem name 0 ⟨none, []⟩ s.aliases
  let removeIndices := (scan.removeIndices.insertionSort (· ≤ ·)).dedup
  let removedStaleAliases := scan.resolved.isNone ∧ removeIndices ≠ []
  let aliases := removeIndices.reverse.foldl (fun aliases index => aliases.eraseIdx index) s.aliases
  let s := { s with aliases := aliases }
  (scan.resolved.map (·.2), if removedStaleAliases then s.removeOwnedNameIfInitialized name else s)

def removePutenvAlias (s : EnvState) (name : List UInt8) : EnvState :=
  { s with aliases := s.aliases.filter fun entry => entry.name ≠ name }

/-- `sort_unstable` and `dedup` of a list of names. -/
def sortedNames (names : List (List UInt8)) : List (List UInt8) :=
  (names.insertionSort (· ≤ ·)).dedup

/-- `remove_putenv_aliases_for_name_or_entry`: the names it removed, and the state after it. -/
def removePutenvAliasesForNameOrEntry (s : EnvState) (name : List UInt8) (entryAddr : Nat) :
    List (List UInt8) × EnvState :=
  let removed := s.aliases.filter fun entry => entry.name = name ∨ entry.entryAddr = entryAddr
  let kept := s.aliases.filter fun entry => ¬ (entry.name = name ∨ entry.entryAddr = entryAddr)
  (sortedNames (removed.map (·.name)), { s with aliases := kept })

/-- `rebind_putenv_alias`: the other names that the buffer was bound to, and the state after. -/
def rebindPutenvAlias (s : EnvState) (name : List UInt8) (entryAddr : Nat) :
    List (List UInt8) × EnvState :=
  let renamed := s.aliases.filter fun entry => entry.name ≠ name ∧ entry.entryAddr = entryAddr
  let kept := s.aliases.filter fun entry => ¬ (entry.name = name ∨ entry.entryAddr = entryAddr)
  (sortedNames (renamed.map (·.name)), { s with aliases := kept ++ [⟨name, entryAddr⟩] })

/-- The loop at the end of `putenv` over the names that lost their buffer. -/
def dropUnresolved (s : EnvState) : List (List UInt8) → EnvState
  | [] => s
  | name :: rest =>
    let looked := s.lookupPutenvAliasValue name
    dropUnresolved
      (if looked.1.isNone then looked.2.removeOwnedNameIfInitialized name else looked.2) rest

/-! ## Entry points -/

def failWithErrno (s : EnvState) (errno : Int) : Int × EnvState := (-1, { s with errno := errno })

/-- `set_errno(previous_errno)` and the return value 0. -/
def succeed (s : EnvState) (previousErrno : Int) : Int × EnvState :=
  (0, { s with errno := previousErrno })

def setenv (h : Host) (s : EnvState) (name value : Option (List UInt8)) (overwrite : Int) :
    Int × EnvState :=
  match name, value with
  | none, _ => s.failWithErrno EINVAL
  | _, none => s.failWithErrno EINVAL
  | some name, some value =>
    if ¬ ValidName name then s.failWithErrno EINVAL
    else
      let previousErrno := s.errno
      let s := s.ensureInitialized h
      if overwrite = 0 then
        let looked := s.lookupPutenvAliasValue name
        if looked.1.isSome ∨ looked.2.containsName name then looked.2.succeed previousErrno
        else ((looked.2.setNameValue name value).removePutenvAlias name).succeed previousErrno
      else ((s.setNameValue name value).removePutenvAlias name).succeed previousErrno

def unsetenv (h : Host) (s : EnvState) (name : Option (List UInt8)) : Int × EnvState :=
  match name with
  | none => s.failWithErrno EINVAL
  | some name =>
    if ¬ ValidName name then s.failWithErrno EINVAL
    else (((s.ensureInitialized h).removeName name).removePutenvAlias name).succeed s.errno

def putenv (h : Host) (s : EnvState) (string : Nat) : Int × EnvState :=
  if string = 0 then s.failWithErrno EINVAL
  else
    let bytes := cString s.mem string
    let previousErrno := s.errno
    let s := s.ensureInitialized h
    match splitAtEqual bytes with
    | some (name, value) =>
      if ¬ ValidName name then s.failWithErrno EINVAL
      else
        let rebound := (s.setNameValue name value).rebindPutenvAlias name string
        (rebound.2.dropUnresolved rebound.1).succeed previousErrno
    | none =>
      if ¬ ValidName bytes then s.failWithErrno EINVAL
      else
        let removed := (s.removeName bytes).removePutenvAliasesForNameOrEntry bytes string
        (removed.2.dropUnresolved removed.1).succeed previousErrno

def clearenv (h : Host) (s : EnvState) : Int × EnvState :=
  let cleared := (s.ensureInitialized h).clear
  ({ cleared with aliases := [] } : EnvState).succeed s.errno

/-- `lookup_environ_value` over the elements of the vector.  Running off its end or reading
through a dangling pointer is undefined behaviour that `Inv` excludes. -/
def lookupEnvironValue (read : EntryPtr → Option (List UInt8)) (name : List UInt8) :
    List (Option EntryPtr) → Option ValuePtr
  | some entry :: rest =>
    match read entry with
    | none => none
    | some bytes =>
      if envEntryHasName bytes name then some (.inEntry entry (name.length + 1))
      else lookupEnvironValue read name rest
  | _ => none

def lookupProcEnvironValue (h : Host) (name : List UInt8) : Option ValuePtr :=
  (h.procEnviron.getD []).splitOn 0 |>.findSome? fun entry =>
    match splitAtEqual entry with
    | some (found, value) => if found = name then some (.fallback value) else none
    | none => none

def getenv (h : Host) (s : EnvState) (name : Option (List UInt8)) : Option ValuePtr × EnvState :=
  match name with
  | none => (none, s)
  | some name =>
    if ¬ ValidName name then (none, s)
    else
      let looked := s.lookupPutenvAliasValue name
      match looked.1 with
      | some address => (some (.inBuffer address), looked.2)
      | none =>
        let s := looked.2
        let s := if s.environ = .null ∧ ¬ s.initialized then s.ensureInitialized h else s
        match lookupEnvironValue (s.read h) name (s.vector h) with
        | some value => (some value, s)
        | none =>
          if s.environ = .null ∧ ¬ s.initialized then (lookupProcEnvironValue h name, s)
          else (none, s)

end EnvState

/-! ## Histories -/

/-- A call, or a byte that the caller writes to its own memory. -/
inductive EnvCall where
  | setenv (name value : Option (List UInt8)) (overwrite : Int)
  | unsetenv (name : Option (List UInt8))
  | putenv (string : Nat)
  | clearenv
  | getenv (name : Option (List UInt8))
  | write (address : Nat) (byte : UInt8)
  deriving DecidableEq, Repr

/-- What the caller sees of a call: its return value, for `getenv` the string it leads to. -/
inductive EnvReply where
  | code (value : Int)
  | value (string : Option (List UInt8))
  | written
  deriving DecidableEq, Repr

namespace EnvState

/-- One call, with what it replies. -/
def call (h : Host) (s : EnvState) : EnvCall → EnvReply × EnvState
  | .setenv name value overwrite =>
    let r := s.setenv h name value overwrite
    (.code r.1, r.2)
  | .unsetenv name =>
    let r := s.unsetenv h name
    (.code r.1, r.2)
  | .putenv string =>
    let r := s.putenv h string
    (.code r.1, r.2)
  | .clearenv =>
    let r := s.clearenv h
    (.code r.1, r.2)
  | .getenv name =>
    let r := s.getenv h name
    (.value (r.1.bind (r.2.valueAt h)), r.2)
  | .write address byte => (.written, { s with mem := store s.mem address byte })

/-- The state after a history. -/
def after (h : Host) (s : EnvState) (calls : List EnvCall) : EnvState :=
  calls.foldl (fun s c => (s.call h c).2) s

/-- The replies of a history, in order. -/
def replies (h : Host) : EnvState → List EnvCall → List EnvReply
  | _, [] => []
  | s, c :: calls => (s.call h c).1 :: replies h (s.call h c).2 calls

end EnvState

end Rlibc.Stdlib
