import Rlibc.Stdio.StreamSystem

/-!
# What each step does

One lemma for each kind of step: the records it writes, the lock count it changes, and where the
thread goes.  Nothing else of a state is looked at later.
-/

namespace Rlibc.Stdio

/-- The record of a stream has a depth exactly when it has an owner. -/
def OwnerDepth (e : StreamState) : Prop := 0 < e.fileLockDepth ↔ e.fileLockOwner.isSome

namespace OwnerDepth

variable {e e' : StreamState} {t : ThreadId}

theorem fresh (key : Nat) : OwnerDepth (newStreamState key) := by
  unfold OwnerDepth
  exact iff_of_false (Nat.lt_irrefl 0) Bool.false_ne_true

theorem congr (h : OwnerDepth e) (hsame : SameLock e e') : OwnerDepth e' := by
  obtain ⟨-, howner, hdepth⟩ := hsame
  unfold OwnerDepth
  rw [howner, hdepth]
  exact h

/-- The depth stays positive where it saturates. -/
theorem lockedBy (e : StreamState) (t : ThreadId) : OwnerDepth (e.lockedBy t) := by
  unfold OwnerDepth StreamState.lockedBy
  split
  · exact iff_of_true Nat.one_pos rfl
  · rename_i owner howner
    refine iff_of_true ?_ (by rw [howner]; rfl)
    change 0 < min (e.fileLockDepth + 1) usizeMax
    unfold usizeMax
    omega

theorem unlocked (h : e.heldBy t) : OwnerDepth e.unlocked := by
  unfold OwnerDepth StreamState.unlocked
  by_cases hdeep : e.fileLockDepth > 1
  · rw [if_pos hdeep]
    refine iff_of_true (Nat.sub_pos_of_lt hdeep) ?_
    change e.fileLockOwner.isSome = true
    rw [h.1]
    rfl
  · rw [if_neg hdeep]
    exact iff_of_false (Nat.lt_irrefl 0) Bool.false_ne_true

end OwnerDepth

/-- The record of a stream agrees with the lock counts of all threads on it. -/
structure LockOk (e : StreamState) (nest : ThreadId → Nat) : Prop where
  unowned : e.fileLockOwner = none → e.fileLockDepth = 0 ∧ ∀ t, nest t = 0
  owned : ∀ t, e.fileLockOwner = some t →
    e.fileLockDepth = nest t ∧ 0 < nest t ∧ ∀ t', t' ≠ t → nest t' = 0

namespace LockOk

variable {e e' : StreamState} {nest : ThreadId → Nat} {t : ThreadId}

theorem fresh (key : Nat) : LockOk (newStreamState key) fun _ => 0 where
  unowned := fun _ => ⟨rfl, fun _ => rfl⟩
  owned := fun _ h => by cases h

theorem congr (h : LockOk e nest) (hsame : SameLock e e') : LockOk e' nest := by
  obtain ⟨-, howner, hdepth⟩ := hsame
  constructor
  · intro hnone
    rw [hdepth]
    exact h.unowned (howner ▸ hnone)
  · intro t hsome
    rw [hdepth]
    exact h.owned t (howner ▸ hsome)

/-- Who has taken a lock is its owner. -/
theorem owner_eq (h : LockOk e nest) (hpos : 0 < nest t) :
    e.fileLockOwner = some t ∧ e.fileLockDepth = nest t := by
  cases howner : e.fileLockOwner with
  | none =>
    rw [(h.unowned howner).2 t] at hpos
    exact absurd hpos (Nat.lt_irrefl 0)
  | some owner =>
    obtain ⟨hdepth, -, hothers⟩ := h.owned owner howner
    by_cases hself : t = owner
    · subst hself
      exact ⟨rfl, hdepth⟩
    · rw [hothers t hself] at hpos
      exact absurd hpos (Nat.lt_irrefl 0)

theorem heldBy_iff (h : LockOk e nest) : e.heldBy t ↔ 0 < nest t := by
  constructor
  · rintro ⟨howner, -⟩
    exact (h.owned t howner).2.1
  · intro hpos
    obtain ⟨howner, hdepth⟩ := h.owner_eq hpos
    refine ⟨howner, ?_⟩
    rw [hdepth]
    exact Nat.ne_of_gt hpos

/-- One lock more, as long as the depth does not saturate. -/
theorem lockedBy (h : LockOk e nest)
    (hfree : e.fileLockOwner = none ∨ e.fileLockOwner = some t) (hbound : nest t < usizeMax) :
    LockOk (e.lockedBy t) (Function.update nest t (nest t + 1)) := by
  have hown : (e.lockedBy t).fileLockOwner = some t ∧
      (e.lockedBy t).fileLockDepth = nest t + 1 ∧ ∀ t', t' ≠ t → nest t' = 0 := by
    unfold StreamState.lockedBy
    split
    · rename_i howner
      have hzero := (h.unowned howner).2
      exact ⟨rfl, by rw [hzero t], fun t' _ => hzero t'⟩
    · rename_i owner howner
      have hself : e.fileLockOwner = some t :=
        hfree.resolve_left (by rw [howner]; exact Option.some_ne_none owner)
      obtain ⟨hdepth, -, hothers⟩ := h.owned t hself
      refine ⟨hself, ?_, hothers⟩
      change min (e.fileLockDepth + 1) usizeMax = nest t + 1
      rw [hdepth]
      exact Nat.min_eq_left hbound
  constructor
  · intro hnone
    cases hown.1.symm.trans hnone
  · intro t' hsome
    cases hown.1.symm.trans hsome
    rw [Function.update_self]
    refine ⟨hown.2.1, Nat.succ_pos _, fun t' hne => ?_⟩
    rw [Function.update_of_ne hne]
    exact hown.2.2 t' hne

/-- One lock less. -/
theorem unlocked (h : LockOk e nest) (hheld : e.heldBy t) :
    LockOk e.unlocked (Function.update nest t (nest t - 1)) := by
  obtain ⟨hdepth, hpos, hothers⟩ := h.owned t hheld.1
  have hothers' : ∀ t', t' ≠ t → Function.update nest t (nest t - 1) t' = 0 := by
    intro t' hne
    rw [Function.update_of_ne hne]
    exact hothers t' hne
  unfold StreamState.unlocked
  by_cases hdeep : e.fileLockDepth > 1
  · rw [if_pos hdeep]
    constructor
    · intro hnone
      cases hheld.1.symm.trans hnone
    · intro t' hsome
      cases hheld.1.symm.trans hsome
      rw [Function.update_self]
      rw [hdepth] at hdeep
      exact ⟨congrArg (· - 1) hdepth, Nat.sub_pos_of_lt hdeep, hothers'⟩
  · rw [if_neg hdeep]
    constructor
    · intro _
      refine ⟨rfl, fun t' => ?_⟩
      by_cases hne : t' = t
      · rw [hne, Function.update_self]
        omega
      · exact hothers' t' hne
    · intro t' hsome
      cases hsome

end LockOk

/-- The record has the configuration. -/
def Config.describes (cfg : Config) (e : StreamState) : Prop :=
  e.bufferingMode = cfg.mode ∧ e.bufferSize = cfg.size ∧ e.userBufferAddr = cfg.buffer ∧
    e.explicitBufferingConfig = true

theorem Config.describes.of_buffering {cfg : Config} {e e' : StreamState} (h : cfg.describes e)
    (hsame : SameBuffering e e') : cfg.describes e' := by
  obtain ⟨hmode, hsize, hbuffer, hexplicit⟩ := hsame
  exact ⟨hmode.trans h.1, hsize.trans h.2.1, hbuffer.trans h.2.2.1, hexplicit.trans h.2.2.2⟩

theorem SameBuffering.of_flags {e e' : StreamState} (h : e'.flags = e.flags) :
    SameBuffering e e' := by
  unfold StreamState.flags at h
  rw [StreamState.mk.injEq] at h
  exact ⟨h.2.1, h.2.2.1, h.2.2.2.1, h.2.2.2.2.1⟩

theorem Config.describes.of_flags {cfg : Config} {e e' : StreamState} (h : cfg.describes e)
    (hflags : e'.flags = e.flags) : cfg.describes e' :=
  h.of_buffering (.of_flags hflags)

/-- No thread holds more locks of a stream than its record is able to count. -/
def System.Counts (s : System) : Prop := ∀ t key, s.nest t key ≤ usizeMax

/-! ## Effects on the records -/

/-- Lock counts of all threads on a stream, when those of one thread and one stream change. -/
theorem setNest_column (s : System) (t : ThreadId) (stream count key : Nat) :
    (fun t' => (s.setNest t stream count).nest t' key) =
      if key = stream then Function.update (fun t' => s.nest t' key) t count
      else fun t' => s.nest t' key := by
  funext t'
  change Function.update s.nest t (Function.update (s.nest t) stream count) t' key = _
  by_cases ht : t' = t
  · subst ht
    rw [Function.update_self]
    by_cases hkey : key = stream
    · rw [if_pos hkey, Function.update_self, hkey, Function.update_self]
    · rw [if_neg hkey, Function.update_of_ne hkey]
  · rw [Function.update_of_ne ht]
    split
    · rw [Function.update_of_ne ht]
    · rfl

theorem setNest_self (s : System) (t : ThreadId) (stream count : Nat) :
    (s.setNest t stream count).nest t stream = count := by
  change Function.update s.nest t (Function.update (s.nest t) stream count) t stream = count
  rw [Function.update_self, Function.update_self]

theorem setNest_of_ne (s : System) {t t' : ThreadId} {stream count key : Nat}
    (h : ¬(t' = t ∧ key = stream)) :
    (s.setNest t stream count).nest t' key = s.nest t' key := by
  change Function.update s.nest t (Function.update (s.nest t) stream count) t' key = _
  by_cases ht : t' = t
  · subst ht
    rw [Function.update_self, Function.update_of_ne fun hkey => h ⟨rfl, hkey⟩]
  · rw [Function.update_of_ne ht]

/-- What a turn at the lock of a stream does. -/
inductive LockEffect (s s' : System) (t : ThreadId) (stream : Nat) : Prop
  | same (hentry : entryAt s'.registry = entryAt s.registry) (hnest : s'.nest = s.nest)
  | lock
      (hfree : (entryAt s.registry stream).fileLockOwner = none ∨
        (entryAt s.registry stream).fileLockOwner = some t)
      (hentry : entryAt s'.registry = Function.update (entryAt s.registry) stream
        ((entryAt s.registry stream).lockedBy t))
      (hnest : s'.nest = (s.setNest t stream (s.nest t stream + 1)).nest)
  | unlock
      (hheld : (entryAt s.registry stream).heldBy t)
      (hentry : entryAt s'.registry = Function.update (entryAt s.registry) stream
        (entryAt s.registry stream).unlocked)
      (hnest : s'.nest = (s.setNest t stream (s.nest t stream - 1)).nest)
  | unheld
      (hheld : ¬(entryAt s.registry stream).heldBy t)
      (hregistry : s'.registry = s.registry)
      (hnest : s'.nest = (s.setNest t stream (s.nest t stream - 1)).nest)

/-- What a step inside a call on a stream does. -/
inductive RecordEffect (s s' : System) (t : ThreadId) (stream : Nat) : Prop
  | lock (heffect : LockEffect s s' t stream) (hrecorded : s'.recorded = s.recorded)
  | configure (e : StreamState) (buffer : Nat) (mode : Int) (size : Nat)
      (hpc : s.pc t = .locked (.setvbuf stream buffer mode size)) (hstatus : s'.status t = 0)
      (hsame : SameLock (entryAt s.registry stream) e)
      (hcfg : (Config.of buffer mode size).describes e)
      (hentry : entryAt s'.registry = Function.update (entryAt s.registry) stream e)
      (hnest : s'.nest = s.nest)
      (hrecorded : s'.recorded = Function.update s.recorded stream (some (.of buffer mode size)))
  | activity
      (hpc : s.pc t = .locked (.fflush stream))
      (hsettings : ∀ key, SameSettings (entryAt s.registry key) (entryAt s'.registry key))
      (hnest : s'.nest = s.nest) (hrecorded : s'.recorded = s.recorded)

/-- Locking and unlocking leaves the flags of every stream alone. -/
theorem LockEffect.flags {s s' : System} {t : ThreadId} {stream : Nat}
    (h : LockEffect s s' t stream) (key : Nat) :
    (entryAt s'.registry key).flags = (entryAt s.registry key).flags := by
  cases h with
  | same hentry hnest => rw [hentry]
  | lock hfree hentry hnest =>
    rw [hentry]
    by_cases hkey : key = stream
    · rw [hkey, Function.update_self, flags_lockedBy]
    · rw [Function.update_of_ne hkey]
  | unlock hheld hentry hnest =>
    rw [hentry]
    by_cases hkey : key = stream
    · rw [hkey, Function.update_self, flags_unlocked]
    · rw [Function.update_of_ne hkey]
  | unheld hheld hregistry hnest => rw [hregistry]

/-- Registry and counts agree about a stream. -/
def LocksAt (s : System) (key : Nat) : Prop :=
  LockOk (entryAt s.registry key) fun t => s.nest t key

theorem locksAt_update {s s' : System} {t : ThreadId} {stream count key : Nat} {e : StreamState}
    (h : LocksAt s key)
    (hentry : entryAt s'.registry = Function.update (entryAt s.registry) stream e)
    (hnest : s'.nest = (s.setNest t stream count).nest)
    (hstream : LocksAt s stream →
      LockOk e (Function.update (fun t' => s.nest t' stream) t count)) : LocksAt s' key := by
  unfold LocksAt
  rw [hentry, hnest, setNest_column]
  by_cases hkey : key = stream
  · rw [if_pos hkey, hkey, Function.update_self]
    exact hstream (hkey ▸ h)
  · rw [if_neg hkey, Function.update_of_ne hkey]
    exact h

theorem locksAt_same {s s' : System} {key : Nat} (h : LocksAt s key)
    (hsame : SameLock (entryAt s.registry key) (entryAt s'.registry key))
    (hnest : s'.nest = s.nest) : LocksAt s' key := by
  unfold LocksAt
  rw [hnest]
  exact LockOk.congr h hsame

/-- A thread without a lock on a stream has nothing to count down. -/
theorem setNest_unheld {s : System} {t : ThreadId} {stream : Nat} (h : LocksAt s stream)
    (hheld : ¬(entryAt s.registry stream).heldBy t) :
    (s.setNest t stream (s.nest t stream - 1)).nest = s.nest := by
  have hzero : s.nest t stream = 0 := by
    rw [LockOk.heldBy_iff h] at hheld
    exact Nat.eq_zero_of_not_pos hheld
  change Function.update s.nest t (Function.update (s.nest t) stream (s.nest t stream - 1)) = _
  rw [hzero]
  have hrow : Function.update (s.nest t) stream 0 = s.nest t := by
    rw [← hzero]
    exact Function.update_eq_self stream (s.nest t)
  rw [hrow]
  exact Function.update_eq_self t s.nest

theorem LockEffect.locksAt {s s' : System} {t : ThreadId} {stream key : Nat}
    (heffect : LockEffect s s' t stream) (hbound : s'.nest t stream ≤ usizeMax)
    (h : LocksAt s key) : LocksAt s' key := by
  cases heffect with
  | same hentry hnest =>
    apply locksAt_same h _ hnest
    rw [hentry]
    exact (SameSettings.refl _).1
  | lock hfree hentry hnest =>
    rw [hnest, setNest_self] at hbound
    exact locksAt_update h hentry hnest fun hstream => LockOk.lockedBy hstream hfree hbound
  | unlock hheld hentry hnest =>
    exact locksAt_update h hentry hnest fun hstream => LockOk.unlocked hstream hheld
  | unheld hheld hregistry hnest =>
    -- The count of another stream is out of the way, that of this one is zero.
    unfold LocksAt
    rw [hregistry, hnest]
    by_cases hkey : key = stream
    · subst hkey
      rw [setNest_unheld h hheld]
      exact h
    · rw [setNest_column, if_neg hkey]
      exact h

theorem LockEffect.ownerDepth {s s' : System} {t : ThreadId} {stream key : Nat}
    (heffect : LockEffect s s' t stream) (h : OwnerDepth (entryAt s.registry key)) :
    OwnerDepth (entryAt s'.registry key) := by
  -- Another record than that of the stream is the same after an update.
  have hupdate : ∀ e, OwnerDepth e →
      entryAt s'.registry = Function.update (entryAt s.registry) stream e →
      OwnerDepth (entryAt s'.registry key) := by
    intro e he hentry
    rw [hentry]
    by_cases hkey : key = stream
    · rw [hkey, Function.update_self]
      exact he
    · rw [Function.update_of_ne hkey]
      exact h
  cases heffect with
  | same hentry hnest => rwa [hentry]
  | lock hfree hentry hnest => exact hupdate _ (.lockedBy _ t) hentry
  | unlock hheld hentry hnest => exact hupdate _ (.unlocked hheld) hentry
  | unheld hheld hregistry hnest => rwa [hregistry]

theorem RecordEffect.locksAt {s s' : System} {t : ThreadId} {stream key : Nat}
    (heffect : RecordEffect s s' t stream) (hbound : s'.nest t stream ≤ usizeMax)
    (h : LocksAt s key) : LocksAt s' key := by
  cases heffect with
  | lock heffect hrecorded => exact heffect.locksAt hbound h
  | configure e buffer mode size hpc hstatus hsame hcfg hentry hnest hrecorded =>
    apply locksAt_same h _ hnest
    rw [hentry]
    by_cases hkey : key = stream
    · rw [hkey, Function.update_self]
      exact hsame
    · rw [Function.update_of_ne hkey]
      exact (SameSettings.refl _).1
  | activity hpc hsettings hnest hrecorded => exact locksAt_same h (hsettings key).1 hnest

theorem RecordEffect.ownerDepth {s s' : System} {t : ThreadId} {stream key : Nat}
    (heffect : RecordEffect s s' t stream) (h : OwnerDepth (entryAt s.registry key)) :
    OwnerDepth (entryAt s'.registry key) := by
  cases heffect with
  | lock heffect hrecorded => exact heffect.ownerDepth h
  | configure e buffer mode size hpc hstatus hsame hcfg hentry hnest hrecorded =>
    rw [hentry]
    by_cases hkey : key = stream
    · rw [hkey, Function.update_self]
      exact (hkey ▸ h).congr hsame
    · rw [Function.update_of_ne hkey]
      exact h
  | activity hpc hsettings hnest hrecorded => exact h.congr (hsettings key).1

/-- The recorded configuration of a stream is in its record. -/
def RecordedAt (s : System) (key : Nat) : Prop :=
  ∀ cfg, s.recorded key = some cfg → cfg.describes (entryAt s.registry key)

theorem RecordEffect.recordedAt {s s' : System} {t : ThreadId} {stream key : Nat}
    (heffect : RecordEffect s s' t stream) (h : RecordedAt s key) : RecordedAt s' key := by
  intro cfg hcfg
  cases heffect with
  | lock heffect hrecorded =>
    rw [hrecorded] at hcfg
    exact (h cfg hcfg).of_flags (heffect.flags key)
  | configure e buffer mode size hpc hstatus hsame hdescribes hentry hnest hrecorded =>
    rw [hrecorded] at hcfg
    rw [hentry]
    by_cases hkey : key = stream
    · rw [hkey, Function.update_self] at hcfg ⊢
      cases hcfg
      exact hdescribes
    · rw [Function.update_of_ne hkey] at hcfg ⊢
      exact h cfg hcfg
  | activity hpc hsettings hnest hrecorded =>
    rw [hrecorded] at hcfg
    exact (h cfg hcfg).of_buffering (hsettings key).2

/-- Locks and records of other threads and streams are not looked at. -/
theorem RecordEffect.nest_of_ne {s s' : System} {t t' : ThreadId} {stream key : Nat}
    (heffect : RecordEffect s s' t stream) (hne : ¬(t' = t ∧ key = stream)) :
    s'.nest t' key = s.nest t' key := by
  cases heffect with
  | lock heffect hrecorded =>
    cases heffect with
    | same hentry hnest => rw [hnest]
    | lock hfree hentry hnest => rw [hnest, setNest_of_ne s hne]
    | unlock hheld hentry hnest => rw [hnest, setNest_of_ne s hne]
    | unheld hheld hregistry hnest => rw [hnest, setNest_of_ne s hne]
  | configure e buffer mode size hpc hstatus hsame hcfg hentry hnest hrecorded => rw [hnest]
  | activity hpc hsettings hnest hrecorded => rw [hnest]

/-- No step takes more than one lock. -/
theorem RecordEffect.nest_le {s s' : System} {t : ThreadId} {stream : Nat}
    (heffect : RecordEffect s s' t stream) (t' : ThreadId) (key : Nat) :
    s'.nest t' key ≤ s.nest t' key + 1 := by
  by_cases hat : t' = t ∧ key = stream
  · obtain ⟨rfl, rfl⟩ := hat
    cases heffect with
    | lock heffect hrecorded =>
      cases heffect with
      | same hentry hnest =>
        rw [hnest]
        exact Nat.le_succ _
      | lock hfree hentry hnest => exact Nat.le_of_eq (by rw [hnest, setNest_self])
      | unlock hheld hentry hnest =>
        rw [hnest, setNest_self]
        omega
      | unheld hheld hregistry hnest =>
        rw [hnest, setNest_self]
        omega
    | configure e buffer mode size hpc hstatus hsame hcfg hentry hnest hrecorded =>
      rw [hnest]
      exact Nat.le_succ _
    | activity hpc hsettings hnest hrecorded =>
      rw [hnest]
      exact Nat.le_succ _
  · rw [heffect.nest_of_ne hat]
    exact Nat.le_succ _

theorem RecordEffect.recorded_of_ne {s s' : System} {t : ThreadId} {stream key : Nat}
    (heffect : RecordEffect s s' t stream) (hne : key ≠ stream) :
    s'.recorded key = s.recorded key := by
  cases heffect with
  | lock heffect hrecorded => rw [hrecorded]
  | configure e buffer mode size hpc hstatus hsame hcfg hentry hnest hrecorded =>
    rw [hrecorded, Function.update_of_ne hne]
  | activity hpc hsettings hnest hrecorded => rw [hrecorded]

/-! ## Steps -/

/-- The call that a thread is in. -/
def Pc.call : Pc → Option Call
  | locking c => some c
  | locked c => some c
  | unlocking c => some c
  | _ => none

/-- The call whose lock a thread holds by a guard. -/
def Pc.guards : Pc → Option Call
  | locked c => some c
  | unlocking c => some c
  | _ => none

/-- Calls that return a stream. -/
def Call.opens : Call → Bool
  | fopen => true
  | tmpfile => true
  | _ => false

/-- Who has which stream is the same. -/
structure SameOwners (s s' : System) : Prop where
  hostOpen : s'.hostOpen = s.hostOpen
  opener : s'.opener = s.opener

/-- What a step of a thread does, its label being `l`. -/
inductive Effect (s s' : System) (t : ThreadId) (l : Label) : Prop
  /-- The call returns at once. -/
  | returns
      (hsettings : ∀ key, SameSettings (entryAt s.registry key) (entryAt s'.registry key))
      (hentry : (∃ answer, l = .start t (.fflush 0) answer) ∨
        entryAt s'.registry = entryAt s.registry)
      (hnest : s'.nest = s.nest) (hrecorded : s'.recorded = s.recorded)
      (howners : SameOwners s s') (hpc : s'.pc = Function.update s.pc t .idle)
  /-- A step in a call on a stream, which may be the first or the last one of the call. -/
  | works (c : Call) (pc : Pc)
      (huse : (∃ answer, l = .start t c answer ∧ c.stream ≠ 0) ∨ (s.pc t).call = some c)
      (heffect : RecordEffect s s' t c.stream) (howners : SameOwners s s')
      (hcall : pc = .idle ∨ pc.call = some c)
      (hguard : pc.guards = some c →
        0 < s'.nest t c.stream ∨ (s.pc t).guards = some c ∧ s'.nest = s.nest)
      (hpc : s'.pc = Function.update s.pc t pc)
  /-- The host gives an address out. -/
  | opens (c : Call) (answer : Answer) (hlabel : l = .start t c answer) (hopens : c.opens = true)
      (hclosed : s.hostOpen answer.stream = false)
      (hs' : s' = { s with
        hostOpen := Function.update s.hostOpen answer.stream true
        pc := Function.update s.pc t (.opening answer.stream) })
  /-- `fopen` returns it. -/
  | opened (stream : Nat) (hopening : s.pc t = .opening stream)
      (hs' : s' = { s with
        registry := clearStreamTrackingState s.registry stream
        opener := Function.update s.opener stream (some t)
        pc := Function.update s.pc t .idle })
  /-- The host takes an address back. -/
  | closes (stream : Nat) (status : Int) (hlocked : s.pc t = .locked (.fclose stream))
      (hs' : s' = ({ s with
        hostOpen := Function.update s.hostOpen stream false
        status := Function.update s.status t status
        pc := Function.update s.pc t (.closing stream) } : System).forget stream)
  /-- `fclose` returns. -/
  | closed (stream : Nat) (hclosing : s.pc t = .closing stream)
      (hs' : s' = { s with
        registry := clearStreamTrackingState s.registry stream
        pc := Function.update s.pc t .idle })

theorem lockTurn_acquired {s : System} {t : ThreadId} {c : Call}
    (h : (lockStreamFileInternal s.registry c.stream t false).1 = .acquired) :
    ∃ pc status, (pc = .idle ∨ pc = .locked c) ∧
      lockTurn s t c =
        { s.setNest t c.stream (s.nest t c.stream + 1) with
          registry := (lockStreamFileInternal s.registry c.stream t false).2
          pc := Function.update s.pc t pc
          status := status } := by
  unfold lockTurn
  dsimp only
  rw [if_pos h]
  split
  · exact ⟨.idle, _, Or.inl rfl, rfl⟩
  · exact ⟨.locked _, s.status, Or.inr rfl, rfl⟩

theorem lockTurn_effect {s : System} {t : ThreadId} {c : Call} (l : Label)
    (hpc : s.pc t = .locking c) : Effect s (lockTurn s t c) t l := by
  have hcall : (s.pc t).call = some c := by
    rw [hpc]
    rfl
  rcases lockStreamFileInternal_spec s.registry c.stream t false with
    ⟨hacquired, hfree, hentry⟩ | ⟨hwait, -, hentry⟩
  · obtain ⟨pc, status, hgo, hturn⟩ := lockTurn_acquired hacquired
    rw [hturn]
    have hnest : 0 < (s.setNest t c.stream (s.nest t c.stream + 1)).nest t c.stream := by
      rw [setNest_self]
      exact Nat.succ_pos _
    refine .works c pc (Or.inr hcall) (.lock (.lock hfree hentry rfl) rfl) ⟨rfl, rfl⟩ ?_
      (fun _ => Or.inl hnest) rfl
    exact hgo.imp_right fun hlocked => by
      rw [hlocked]
      rfl
  · have hturn : lockTurn s t c =
        { s with registry := (lockStreamFileInternal s.registry c.stream t false).2 } := by
      unfold lockTurn
      dsimp only
      rw [if_neg]
      rw [hwait]
      decide
    rw [hturn]
    -- The thread stays where it is.
    exact .works c (s.pc t) (Or.inr hcall) (.lock (.same hentry rfl) rfl) ⟨rfl, rfl⟩
      (Or.inr hcall) (fun hguard => Or.inr ⟨hguard, rfl⟩) (Function.update_eq_self t s.pc).symm

theorem lockTurn_distinct {s : System} (t : ThreadId) (c : Call) (h : s.registry.Distinct) :
    (lockTurn s t c).registry.Distinct := by
  have hdistinct := lockStreamFileInternal_distinct h c.stream t false
  unfold lockTurn
  dsimp only
  split
  · split
    · exact hdistinct
    · exact hdistinct
  · exact hdistinct

theorem tryTurn_effect {s : System} {t : ThreadId} {stream : Nat} {answer : Answer}
    (hstream : stream ≠ 0) :
    Effect s (tryTurn s t stream) t (.start t (.ftrylockfile stream) answer) := by
  unfold tryTurn
  dsimp only
  rcases lockStreamFileInternal_spec s.registry stream t true with
    ⟨hacquired, hfree, hentry⟩ | ⟨hbusy, -, hentry⟩
  · rw [if_pos hacquired]
    exact .works (.ftrylockfile stream) .idle (Or.inl ⟨answer, rfl, hstream⟩)
      (.lock (.lock hfree hentry rfl) rfl) ⟨rfl, rfl⟩ (Or.inl rfl) (fun hguard => by cases hguard)
      rfl
  · rw [if_neg (by rw [hbusy]; decide)]
    exact .works (.ftrylockfile stream) .idle (Or.inl ⟨answer, rfl, hstream⟩)
      (.lock (.same hentry rfl) rfl) ⟨rfl, rfl⟩ (Or.inl rfl) (fun hguard => by cases hguard) rfl

theorem tryTurn_distinct {s : System} (t : ThreadId) (stream : Nat) (h : s.registry.Distinct) :
    (tryTurn s t stream).registry.Distinct := by
  have hdistinct := lockStreamFileInternal_distinct h stream t true
  unfold tryTurn
  dsimp only
  split
  · exact hdistinct
  · exact hdistinct

theorem unlockTurn_effect {s : System} (t : ThreadId) (stream : Nat) (status : Int)
    (hdistinct : s.registry.Distinct) : LockEffect s (unlockTurn s t stream status) t stream := by
  by_cases hheld : (entryAt s.registry stream).heldBy t
  · exact .unlock hheld (funlockfile_held hdistinct hheld) rfl
  · exact .unheld hheld (funlockfile_not_held hheld) rfl

/-- A call that returns with the registry as it was. -/
theorem finish_effect (s : System) (t : ThreadId) (status : Int) (l : Label) :
    Effect s (s.finish t status) t l :=
  .returns (fun _ => .refl _) (Or.inr rfl) rfl rfl ⟨rfl, rfl⟩ rfl

/-- A call that goes on to take its lock. -/
theorem goto_locking_effect (s : System) (t : ThreadId) {c : Call} (answer : Answer)
    (hstream : c.stream ≠ 0) :
    Effect s (s.goto t (.locking c)) t (.start t c answer) :=
  .works c (.locking c) (Or.inl ⟨answer, rfl, hstream⟩) (.lock (.same rfl rfl) rfl) ⟨rfl, rfl⟩
    (Or.inr rfl) (fun hguard => by cases hguard) rfl

theorem open_effect {s s' : System} {t : ThreadId} {c : Call} {answer : Answer}
    (hidle : s.pc t = .idle) (hopens : c.opens = true)
    (h : (if answer.stream = 0 then some s
      else if s.hostOpen answer.stream then none
      else some ({ s with hostOpen := Function.update s.hostOpen answer.stream true }.goto t
        (.opening answer.stream))) = some s') :
    Effect s s' t (.start t c answer) ∧ s'.registry = s.registry := by
  split at h
  · cases h
    refine ⟨.returns (fun _ => .refl _) (Or.inr rfl) rfl rfl ⟨rfl, rfl⟩ ?_, rfl⟩
    rw [← hidle]
    exact (Function.update_eq_self t s.pc).symm
  · split at h
    · cases h
    · rename_i hclosed
      cases h
      exact ⟨.opens c answer rfl hopens (eq_false_of_ne_true hclosed) rfl, rfl⟩

theorem startCall_effect {host : Host} {s s' : System} {t : ThreadId} {c : Call} {answer : Answer}
    (hdistinct : s.registry.Distinct) (hidle : s.pc t = .idle)
    (h : startCall host s t c answer = some s') :
    Effect s s' t (.start t c answer) ∧ s'.registry.Distinct := by
  unfold startCall at h
  -- A null stream returns at once; every other call goes to wait for the lock, or opens.
  cases c with
  | flockfile stream =>
    cases h
    split
    · exact ⟨finish_effect s t _ _, hdistinct⟩
    · rename_i hstream
      exact ⟨goto_locking_effect s t answer hstream, hdistinct⟩
  | ftrylockfile stream =>
    cases h
    split
    · exact ⟨finish_effect s t _ _, hdistinct⟩
    · rename_i hstream
      exact ⟨tryTurn_effect hstream, tryTurn_distinct t stream hdistinct⟩
  | funlockfile stream =>
    cases h
    split
    · exact ⟨finish_effect s t _ _, hdistinct⟩
    · rename_i hstream
      exact ⟨.works (.funlockfile stream) .idle (Or.inl ⟨answer, rfl, hstream⟩)
        (.lock (unlockTurn_effect t stream 0 hdistinct) rfl) ⟨rfl, rfl⟩ (Or.inl rfl)
        (fun hguard => by cases hguard) rfl, funlockfile_distinct hdistinct stream t⟩
  | setvbuf stream buffer mode size =>
    cases h
    split
    · exact ⟨finish_effect s t _ _, hdistinct⟩
    · rename_i hvalid
      exact ⟨goto_locking_effect s t answer fun hnull => hvalid (Or.inl hnull), hdistinct⟩
  | fflush stream =>
    cases h
    split
    · rename_i hnull
      exact ⟨.returns (fun key => markAllStreamsAsIoActive_settings host s.registry _ key)
        (Or.inl ⟨answer, hnull ▸ rfl⟩) rfl rfl ⟨rfl, rfl⟩ rfl,
        markAllStreamsAsIoActive_distinct hdistinct host _⟩
    · rename_i hstream
      exact ⟨goto_locking_effect s t answer hstream, hdistinct⟩
  | fopen =>
    obtain ⟨heffect, hregistry⟩ := open_effect (c := .fopen) hidle rfl h
    exact ⟨heffect, hregistry ▸ hdistinct⟩
  | tmpfile =>
    obtain ⟨heffect, hregistry⟩ := open_effect (c := .tmpfile) hidle rfl h
    exact ⟨heffect, hregistry ▸ hdistinct⟩
  | fclose stream =>
    cases h
    split
    · exact ⟨finish_effect s t _ _, hdistinct⟩
    · rename_i hvalid
      exact ⟨goto_locking_effect s t answer fun hnull => hvalid (Or.inl hnull), hdistinct⟩

theorem Config.of_describes {s e : StreamState} {buffer size : Nat} {mode : Int}
    {identity : Option Nat} (h : setvbufUpdate s buffer mode size identity = some e) :
    (Config.of buffer mode size).describes e := by
  obtain ⟨-, hmode, hsize, hbuffer, hexplicit⟩ := setvbufUpdate_spec h
  exact ⟨hmode, hsize, hbuffer, hexplicit⟩

theorem lockedTurn_effect {host : Host} {s s' : System} {t : ThreadId} {c : Call} {answer : Answer}
    (l : Label) (hdistinct : s.registry.Distinct) (hpc : s.pc t = .locked c)
    (h : lockedTurn host s t c answer = some s') : Effect s s' t l ∧ s'.registry.Distinct := by
  have hcall : (s.pc t).call = some c := by
    rw [hpc]
    rfl
  have hguards : (s.pc t).guards = some c := by
    rw [hpc]
    rfl
  unfold lockedTurn at h
  cases c with
  | setvbuf stream buffer mode size =>
    cases h
    refine ⟨.works (.setvbuf stream buffer mode size) (.unlocking _) (Or.inr hcall) ?_ ⟨rfl, rfl⟩
      (Or.inr rfl) (fun _ => Or.inr ⟨hguards, rfl⟩) rfl, setvbufLocked_distinct hdistinct stream buffer mode size _⟩
    rcases setvbufLocked_spec s.registry stream buffer mode size (answer.identity stream) with
      ⟨hlate, hentry⟩ | ⟨hok, e, hupdate, hentry⟩
    · refine .lock (.same hentry rfl) ?_
      exact if_neg (by rw [hlate]; decide)
    · have hsame : SameLock (entryAt s.registry stream) e := (setvbufUpdate_spec hupdate).1
      refine .configure e buffer mode size hpc ?_ hsame (Config.of_describes hupdate) hentry rfl
        (if_pos hok)
      exact (Function.update_self t _ s.status).trans hok
  | fflush stream =>
    cases h
    exact ⟨.works (.fflush stream) (.unlocking _) (Or.inr hcall)
      (.activity hpc (fun key => markStreamAsIoActive_settings s.registry stream _ _ key) rfl rfl)
      ⟨rfl, rfl⟩ (Or.inr rfl) (fun _ => Or.inr ⟨hguards, rfl⟩) rfl, hdistinct.store _⟩
  | fclose stream =>
    cases h
    exact ⟨.closes stream answer.status hpc rfl, hdistinct⟩
  | flockfile stream => cases h
  | ftrylockfile stream => cases h
  | funlockfile stream => cases h
  | fopen => cases h
  | tmpfile => cases h

def Label.thread : Label → ThreadId
  | start t _ _ => t
  | turn t _ => t

/-- What one step does. -/
theorem step_effect {host : Host} {s s' : System} {l : Label} (hdistinct : s.registry.Distinct)
    (h : step host s l = some s') : Effect s s' l.thread l ∧ s'.registry.Distinct := by
  -- A thread starts a call when it is idle, or takes its next turn in one.
  cases l with
  | start t c answer =>
    unfold step at h
    dsimp only at h
    split at h
    · rename_i hidle
      exact startCall_effect hdistinct hidle h
    · cases h
  | turn t answer =>
    unfold step at h
    dsimp only at h
    change Effect s s' t _ ∧ _
    cases hpc : s.pc t with
    | idle =>
      rw [hpc] at h
      cases h
    | locking c =>
      rw [hpc] at h
      cases h
      exact ⟨lockTurn_effect _ hpc, lockTurn_distinct t c hdistinct⟩
    | locked c =>
      rw [hpc] at h
      exact lockedTurn_effect _ hdistinct hpc h
    | unlocking c =>
      rw [hpc] at h
      cases h
      have hcall : (s.pc t).call = some c := by
        rw [hpc]
        rfl
      exact ⟨.works c .idle (Or.inr hcall)
        (.lock (unlockTurn_effect t c.stream (s.status t) hdistinct) rfl) ⟨rfl, rfl⟩ (Or.inl rfl)
        (fun hguard => by cases hguard) rfl, funlockfile_distinct hdistinct c.stream t⟩
    | opening stream =>
      rw [hpc] at h
      cases h
      exact ⟨.opened stream hpc rfl, hdistinct.eraseAll stream⟩
    | closing stream =>
      rw [hpc] at h
      cases h
      exact ⟨.closed stream hpc rfl, hdistinct.eraseAll stream⟩

/-- A step moves its own thread only. -/
theorem Effect.moves {s s' : System} {t : ThreadId} {l : Label} (h : Effect s s' t l) :
    ∃ pc, s'.pc = Function.update s.pc t pc := by
  cases h with
  | returns hsettings hentry hnest hrecorded howners hpc => exact ⟨_, hpc⟩
  | works c pc hcause heffect howners hcall hguard hpc => exact ⟨pc, hpc⟩
  | opens c answer hlabel hopens hclosed hs' => exact ⟨_, by rw [hs']⟩
  | opened stream hopening hs' => exact ⟨_, by rw [hs']⟩
  | closes stream status hlocked hs' =>
    refine ⟨.closing stream, ?_⟩
    rw [hs']
    rfl
  | closed stream hclosing hs' => exact ⟨_, by rw [hs']⟩

theorem forget_nest (s : System) (stream key : Nat) (t : ThreadId) :
    (s.forget stream).nest t key = if key = stream then 0 else s.nest t key := by
  change Function.update (s.nest t) stream 0 key = _
  by_cases hkey : key = stream
  · rw [if_pos hkey, hkey, Function.update_self]
  · rw [if_neg hkey, Function.update_of_ne hkey]

theorem Effect.nest_le {s s' : System} {t : ThreadId} {l : Label} (h : Effect s s' t l)
    (t' : ThreadId) (key : Nat) : s'.nest t' key ≤ s.nest t' key + 1 := by
  cases h with
  | returns hsettings hentry hnest hrecorded howners hpc =>
    rw [hnest]
    exact Nat.le_succ _
  | works c pc hcause heffect howners hcall hguard hpc => exact heffect.nest_le t' key
  | opens c answer hlabel hopens hclosed hs' =>
    rw [hs']
    exact Nat.le_succ _
  | opened stream hopening hs' =>
    rw [hs']
    exact Nat.le_succ _
  | closes stream status hlocked hs' =>
    rw [hs', forget_nest]
    split
    · exact Nat.zero_le _
    · exact Nat.le_succ _
  | closed stream hclosing hs' =>
    rw [hs']
    exact Nat.le_succ _

/-- In `usize::MAX` steps no stream is locked more often than that. -/
theorem counts_of_short {host : Host} {s : System} {labels : List Label} (n : Nat)
    (hdistinct : s.registry.Distinct) (hnest : ∀ t key, s.nest t key ≤ n)
    (hlength : n + labels.length ≤ usizeMax) :
    Lts.Always (step host) System.Counts s labels := by
  induction labels generalizing s n with
  | nil => exact fun t key => Nat.le_trans (hnest t key) hlength
  | cons l labels ih =>
    rw [List.length_cons] at hlength
    refine ⟨fun t key => Nat.le_trans (hnest t key) (by omega), fun s' hstep => ?_⟩
    obtain ⟨heffect, hdistinct'⟩ := step_effect hdistinct hstep
    have hnest' : ∀ t key, s'.nest t key ≤ n + 1 := fun t key =>
      Nat.le_trans (heffect.nest_le t key) (Nat.succ_le_succ (hnest t key))
    exact ih (n + 1) hdistinct' hnest' (by omega)

end Rlibc.Stdio
