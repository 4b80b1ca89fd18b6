import Mathlib.Logic.Function.Basic
import Rlibc.Stdio.Streams

/-!
# Critical sections on the map of streams

What each use of the registry does to the records, whatever the order of the list is.
-/

namespace Rlibc.Stdio

open KeyedList (lookup find store ensure replace eraseFirst eraseAll Distinct)

/-- No stream has two records. -/
abbrev StreamRegistry.Distinct (registry : StreamRegistry) : Prop :=
  KeyedList.Distinct streams registry

theorem entryAt_store_eq (registry : StreamRegistry) (s : StreamState) :
    entryAt (store streams registry s) = Function.update (entryAt registry) s.streamKey s := by
  funext key
  by_cases h : key = s.streamKey
  · rw [h, Function.update_self, entryAt_store]
  · rw [Function.update_of_ne h, entryAt_store_of_ne registry h]

theorem entryAt_ensure_eq (registry : StreamRegistry) (key : Nat) :
    entryAt (ensure streams registry key) = entryAt registry :=
  funext fun key' => entryAt_ensure registry key key'

/-- A record says nothing about locks any more. -/
def StreamState.flags (s : StreamState) : StreamState :=
  { s with fileLockOwner := none, fileLockDepth := 0 }

theorem flags_lockedBy (s : StreamState) (current : ThreadId) :
    (s.lockedBy current).flags = s.flags := by
  unfold StreamState.lockedBy
  split
  · rfl
  · rfl

theorem flags_unlocked (s : StreamState) : s.unlocked.flags = s.flags := by
  unfold StreamState.unlocked
  split
  · rfl
  · rfl

theorem lockedBy_streamKey (s : StreamState) (current : ThreadId) :
    (s.lockedBy current).streamKey = s.streamKey := by
  unfold StreamState.lockedBy
  split
  · rfl
  · rfl

theorem unlocked_streamKey (s : StreamState) : s.unlocked.streamKey = s.streamKey := by
  unfold StreamState.unlocked
  split
  · rfl
  · rfl

/-! ## Locks -/

/-- A thread gets a lock that no other thread has; else nothing changes. -/
theorem lockStreamFileInternal_spec (registry : StreamRegistry) (key : Nat) (current : ThreadId)
    (tryOnly : Bool) :
    ((lockStreamFileInternal registry key current tryOnly).1 = .acquired ∧
      ((entryAt registry key).fileLockOwner = none ∨
        (entryAt registry key).fileLockOwner = some current) ∧
      entryAt (lockStreamFileInternal registry key current tryOnly).2 =
        Function.update (entryAt registry) key ((entryAt registry key).lockedBy current)) ∨
    ((lockStreamFileInternal registry key current tryOnly).1 =
        (if tryOnly then .busy else .wait) ∧
      (∃ owner, (entryAt registry key).fileLockOwner = some owner ∧ owner ≠ current) ∧
      entryAt (lockStreamFileInternal registry key current tryOnly).2 = entryAt registry) := by
  have hstore : entryAt (store streams registry ((entryAt registry key).lockedBy current)) =
      Function.update (entryAt registry) key ((entryAt registry key).lockedBy current) := by
    rw [entryAt_store_eq, lockedBy_streamKey, entryAt_streamKey]
  unfold lockStreamFileInternal
  cases howner : (entryAt registry key).fileLockOwner with
  | none => exact Or.inl ⟨rfl, Or.inl rfl, hstore⟩
  | some owner =>
    dsimp only
    by_cases hself : owner = current
    · rw [if_pos hself]
      exact Or.inl ⟨rfl, Or.inr (congrArg some hself), hstore⟩
    · rw [if_neg hself]
      exact Or.inr ⟨rfl, ⟨owner, rfl, hself⟩, entryAt_ensure_eq registry key⟩

theorem lockStreamFileInternal_distinct {registry : StreamRegistry} (h : registry.Distinct)
    (key : Nat) (current : ThreadId) (tryOnly : Bool) :
    (lockStreamFileInternal registry key current tryOnly).2.Distinct := by
  unfold lockStreamFileInternal
  split
  · exact h.store _
  · split
    · exact h.store _
    · exact h.ensure _

/-- Only what a thread holds is unlocked. -/
theorem funlockfile_not_held {registry : StreamRegistry} {key : Nat} {current : ThreadId}
    (h : ¬(entryAt registry key).heldBy current) : funlockfile registry key current = registry := by
  unfold funlockfile
  cases hfind : find streams registry key with
  | none => rfl
  | some s =>
    have hentry : entryAt registry key = s := KeyedList.lookup_of_find hfind
    rw [hentry] at h
    exact if_pos h

/-- A record that is taken out was as good as new. -/
theorem funlockfile_held {registry : StreamRegistry} (hdistinct : registry.Distinct) {key : Nat}
    {current : ThreadId} (h : (entryAt registry key).heldBy current) :
    entryAt (funlockfile registry key current) =
      Function.update (entryAt registry) key (entryAt registry key).unlocked := by
  unfold funlockfile
  cases hfind : find streams registry key with
  | none =>
    have hentry : entryAt registry key = newStreamState key :=
      KeyedList.lookup_of_find_none hfind
    rw [hentry] at h
    exact absurd rfl h.2
  | some s =>
    have hentry : entryAt registry key = s := KeyedList.lookup_of_find hfind
    have hkey : s.unlocked.streamKey = key :=
      (unlocked_streamKey s).trans (KeyedList.key_of_find hfind)
    have hsome : (find streams registry (streams.key s.unlocked)).isSome := by
      rw [show streams.key s.unlocked = key from hkey, hfind]
      rfl
    have hreplace : entryAt (replace streams s.unlocked registry) =
        Function.update (entryAt registry) key s.unlocked := by
      funext key'
      by_cases hne : key' = key
      · rw [hne, Function.update_self, ← hkey]
        exact KeyedList.lookup_replace_self hsome
      · rw [Function.update_of_ne hne]
        exact KeyedList.lookup_replace_of_ne (by
          rw [show streams.key s.unlocked = key from hkey]; exact hne)
    rw [hentry] at h ⊢
    dsimp only
    rw [if_neg (not_not_intro h)]
    -- The last unlock may leave a record that says nothing, which is then dropped from the list.
    by_cases hdepth : s.fileLockDepth > 1
    · rw [if_pos hdepth, hreplace]
    · rw [if_neg hdepth]
      by_cases hprune : streamStateIsPrunable s.unlocked = true
      · rw [if_pos hprune]
        rw [prunable_iff, hkey] at hprune
        funext key'
        by_cases hne : key' = key
        · rw [hne, Function.update_self, hprune]
          exact KeyedList.lookup_eraseFirst_self (hdistinct.replace _)
        · rw [← hreplace]
          exact KeyedList.lookup_eraseFirst_of_ne _ hne
      · rw [if_neg hprune, hreplace]

theorem funlockfile_distinct {registry : StreamRegistry} (h : registry.Distinct) (key : Nat)
    (current : ThreadId) : (funlockfile registry key current).Distinct := by
  unfold funlockfile
  split
  · exact h
  · split
    · exact h
    · split
      · exact h.replace _
      · split
        · exact (h.replace _).eraseFirst _
        · exact h.replace _

/-! ## Buffering and activity -/

/-- Two records of which only what `setvbuf` and `fflush` write may differ. -/
def SameLock (s s' : StreamState) : Prop :=
  s'.streamKey = s.streamKey ∧ s'.fileLockOwner = s.fileLockOwner ∧
    s'.fileLockDepth = s.fileLockDepth

/-- Two records with the same buffering configuration. -/
def SameBuffering (s s' : StreamState) : Prop :=
  s'.bufferingMode = s.bufferingMode ∧ s'.bufferSize = s.bufferSize ∧
    s'.userBufferAddr = s.userBufferAddr ∧
    s'.explicitBufferingConfig = s.explicitBufferingConfig

theorem setvbufUpdate_spec {s s' : StreamState} {buffer size : Nat} {mode : Int}
    {identity : Option Nat} (h : setvbufUpdate s buffer mode size identity = some s') :
    SameLock s s' ∧ s'.bufferingMode = mode ∧
      s'.bufferSize = (if mode = _IONBF then 0 else size) ∧
      s'.userBufferAddr = (if mode = _IONBF then 0 else buffer) ∧
      s'.explicitBufferingConfig = true := by
  unfold setvbufUpdate at h
  dsimp only at h
  split at h
  · cases h
    exact ⟨⟨rfl, rfl, rfl⟩, rfl, rfl, rfl, rfl⟩
  · split at h
    · cases h
    · cases h
      exact ⟨⟨rfl, rfl, rfl⟩, rfl, rfl, rfl, rfl⟩

/-- A `setvbuf` that comes too late changes no record; any other one changes one. -/
theorem setvbufLocked_spec (registry : StreamRegistry) (key buffer : Nat) (mode : Int)
    (size : Nat) (identity : Option Nat) :
    ((setvbufLocked registry key buffer mode size identity).1 = EOF ∧
      entryAt (setvbufLocked registry key buffer mode size identity).2 = entryAt registry) ∨
    ((setvbufLocked registry key buffer mode size identity).1 = 0 ∧
      ∃ s, setvbufUpdate (entryAt registry key) buffer mode size identity = some s ∧
        entryAt (setvbufLocked registry key buffer mode size identity).2 =
          Function.update (entryAt registry) key s) := by
  unfold setvbufLocked
  cases hupdate : setvbufUpdate (entryAt registry key) buffer mode size identity with
  | none => exact Or.inl ⟨rfl, entryAt_ensure_eq registry key⟩
  | some s =>
    have hkey : s.streamKey = key :=
      (setvbufUpdate_spec hupdate).1.1.trans (entryAt_streamKey registry key)
    refine Or.inr ⟨rfl, s, rfl, ?_⟩
    rw [entryAt_store_eq, hkey]

theorem setvbufLocked_distinct {registry : StreamRegistry} (h : registry.Distinct)
    (key buffer : Nat) (mode : Int) (size : Nat) (identity : Option Nat) :
    (setvbufLocked registry key buffer mode size identity).2.Distinct := by
  unfold setvbufLocked
  split
  · exact h.ensure _
  · exact h.store _

theorem activated_spec (s : StreamState) (hostStream : Bool) (identity : Option Nat) :
    SameLock s (s.activated hostStream identity) ∧
      SameBuffering s (s.activated hostStream identity) := by
  unfold StreamState.activated
  split
  · exact ⟨⟨rfl, rfl, rfl⟩, rfl, rfl, rfl, rfl⟩
  · exact ⟨⟨rfl, rfl, rfl⟩, rfl, rfl, rfl, rfl⟩

theorem markStreamAsIoActive_eq (registry : StreamRegistry) (key : Nat) (hostStream : Bool)
    (identity : Option Nat) :
    entryAt (markStreamAsIoActive registry key hostStream identity) =
      Function.update (entryAt registry) key
        ((entryAt registry key).activated hostStream identity) := by
  unfold markStreamAsIoActive
  rw [entryAt_store_eq, (activated_spec _ hostStream identity).1.1, entryAt_streamKey]

/-- What is neither written by `setvbuf` nor by a lock is all that activity changes. -/
def SameSettings (s s' : StreamState) : Prop := SameLock s s' ∧ SameBuffering s s'

theorem SameSettings.refl (s : StreamState) : SameSettings s s :=
  ⟨⟨rfl, rfl, rfl⟩, rfl, rfl, rfl, rfl⟩

theorem SameSettings.trans {s s' s'' : StreamState} (h : SameSettings s s')
    (h' : SameSettings s' s'') : SameSettings s s'' := by
  obtain ⟨⟨h₁, h₂, h₃⟩, h₄, h₅, h₆, h₇⟩ := h
  obtain ⟨⟨h₁', h₂', h₃'⟩, h₄', h₅', h₆', h₇'⟩ := h'
  exact ⟨⟨h₁'.trans h₁, h₂'.trans h₂, h₃'.trans h₃⟩, h₄'.trans h₄, h₅'.trans h₅, h₆'.trans h₆,
    h₇'.trans h₇⟩

theorem markStreamAsIoActive_settings (registry : StreamRegistry) (key : Nat) (hostStream : Bool)
    (identity : Option Nat) (key' : Nat) :
    SameSettings (entryAt registry key')
      (entryAt (markStreamAsIoActive registry key hostStream identity) key') := by
  rw [markStreamAsIoActive_eq]
  by_cases h : key' = key
  · rw [h, Function.update_self]
    exact activated_spec _ hostStream identity
  · rw [Function.update_of_ne h]
    exact .refl _

theorem markHostStreamAsIoActive_settings (registry : StreamRegistry) (stream : Nat)
    (identity : Option Nat) (key : Nat) :
    SameSettings (entryAt registry key)
      (entryAt (markHostStreamAsIoActive registry stream identity) key) := by
  unfold markHostStreamAsIoActive
  split
  · exact .refl _
  · exact markStreamAsIoActive_settings registry stream true identity key

theorem activateAll_settings (registry : StreamRegistry) (key : Nat) :
    SameSettings (entryAt registry key)
      (entryAt (registry.map fun s => s.activated false none) key) := by
  have hkey : ∀ s : StreamState, streams.key (s.activated false none) = streams.key s :=
    fun s => (activated_spec s false none).1.1
  have hfind := KeyedList.find_map hkey registry key
  unfold entryAt lookup
  rw [hfind]
  cases find streams registry key with
  | none => exact .refl _
  | some s => exact activated_spec s false none

/-- `fflush(NULL)` leaves locks and buffering alone. -/
theorem markAllStreamsAsIoActive_settings (host : Host) (registry : StreamRegistry)
    (identity : Nat → Option Nat) (key : Nat) :
    SameSettings (entryAt registry key)
      (entryAt (markAllStreamsAsIoActive host registry identity) key) := by
  unfold markAllStreamsAsIoActive
  exact (((activateAll_settings registry key).trans
    (markHostStreamAsIoActive_settings _ host.stdin _ key)).trans
    (markHostStreamAsIoActive_settings _ host.stdout _ key)).trans
    (markHostStreamAsIoActive_settings _ host.stderr _ key)

theorem markHostStreamAsIoActive_distinct {registry : StreamRegistry} (h : registry.Distinct)
    (stream : Nat) (identity : Option Nat) :
    (markHostStreamAsIoActive registry stream identity).Distinct := by
  unfold markHostStreamAsIoActive
  split
  · exact h
  · exact h.store _

theorem markAllStreamsAsIoActive_distinct {registry : StreamRegistry} (h : registry.Distinct)
    (host : Host) (identity : Nat → Option Nat) :
    (markAllStreamsAsIoActive host registry identity).Distinct := by
  unfold markAllStreamsAsIoActive
  have hall : KeyedList.Distinct streams (registry.map fun s => s.activated false none) :=
    KeyedList.Distinct.map (fun s => (activated_spec s false none).1.1) h
  exact markHostStreamAsIoActive_distinct (markHostStreamAsIoActive_distinct
    (markHostStreamAsIoActive_distinct hall _ _) _ _) _ _

theorem clearStreamTrackingState_eq (registry : StreamRegistry) (key : Nat) :
    entryAt (clearStreamTrackingState registry key) =
      Function.update (entryAt registry) key (newStreamState key) := by
  funext key'
  by_cases h : key' = key
  · rw [h, Function.update_self]
    exact KeyedList.lookup_eraseAll_self registry key
  · rw [Function.update_of_ne h]
    exact KeyedList.lookup_eraseAll_of_ne registry h

end Rlibc.Stdio
