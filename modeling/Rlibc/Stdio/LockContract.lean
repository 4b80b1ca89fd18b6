import Rlibc.Stdio.StreamSteps

/-!
# The contract of stream locks

What callers rely on in every state of a run on streams that stay open.  The depth in a record
saturates at `usize::MAX`: what the records promise holds in any run, and what the counts promise
in a run whose threads never hold more locks of one stream.
-/

namespace Rlibc.Stdio

/-- Calls that neither open nor close a stream. -/
def Call.staysOpen : Call → Bool
  | fopen => false
  | tmpfile => false
  | fclose _ => false
  | _ => true

def Label.staysOpen : Label → Bool
  | start _ c _ => c.staysOpen
  | turn _ _ => true

namespace System

/-- The step locks or unlocks a stream, for its caller or for a guard. -/
def atLock (s : System) : Label → Prop
  | .start _ (.flockfile _) _ => True
  | .start _ (.ftrylockfile _) _ => True
  | .start _ (.funlockfile _) _ => True
  | .start _ _ _ => False
  | .turn t _ => ∃ c, s.pc t = .locking c ∨ s.pc t = .unlocking c

/-- What one step leaves alone. -/
structure StepSafe (s : System) (l : Label) (s' : System) : Prop where
  /-- A lock that was given back leaves every stream as it was. -/
  flags : s.atLock l → ∀ key, (entryAt s'.registry key).flags = (entryAt s.registry key).flags
  unlockOther : ∀ t stream answer, l = .start t (.funlockfile stream) answer →
    (entryAt s.registry stream).fileLockOwner ≠ some t → s'.registry = s.registry
  /-- Only a `setvbuf` that succeeds changes how a stream is buffered. -/
  buffering : ∀ key, SameBuffering (entryAt s.registry key) (entryAt s'.registry key) ∨
    ∃ t answer buffer mode size, l = .turn t answer ∧
      s.pc t = .locked (.setvbuf key buffer mode size) ∧ s'.status t = 0

/-- What the records promise. -/
structure StreamsSafe (host : Host) (s : System) : Prop where
  distinct : s.registry.Distinct
  ownerDepth : ∀ e ∈ s.registry, 0 < e.fileLockDepth ↔ e.fileLockOwner.isSome
  steps : ∀ l s', l.staysOpen → step host s l = some s' → StepSafe s l s'

/-- What the counts promise. -/
structure LocksCounted (host : Host) (s : System) : Prop where
  /-- The owner of a record is the thread that has locks, and their number is the depth. -/
  owner : ∀ t key, 0 < s.nest t key ↔ (entryAt s.registry key).fileLockOwner = some t
  depth : ∀ t key, 0 < s.nest t key → (entryAt s.registry key).fileLockDepth = s.nest t key
  exclusive : ∀ t t' key, 0 < s.nest t key → 0 < s.nest t' key → t = t'
  /-- A call under a guard has the lock. -/
  guarded : ∀ t c, (s.pc t).guards = some c → 0 < s.nest t c.stream
  unlockOther : ∀ t stream answer s', step host s (.start t (.funlockfile stream) answer) = some s' →
    (entryAt s.registry stream).fileLockOwner ≠ some t → s'.nest = s.nest

/-- What carries the promises of the records from step to step. -/
structure OpenInv (s : System) : Prop where
  distinct : s.registry.Distinct
  ownerDepth : ∀ key, OwnerDepth (entryAt s.registry key)
  calls : ∀ t, s.pc t = .idle ∨ ∃ c, (s.pc t).call = some c ∧ c.staysOpen

/-- What carries those of the counts. -/
structure LockInv (s : System) : Prop extends s.OpenInv where
  locks : ∀ key, LocksAt s key
  guarded : ∀ t c, (s.pc t).guards = some c → 0 < s.nest t c.stream

end System

theorem initial_openInv (host : Host) : (initial host).OpenInv where
  distinct := List.nodup_nil
  ownerDepth := OwnerDepth.fresh
  calls _ := Or.inl rfl

theorem initial_lockInv (host : Host) : (initial host).LockInv where
  toOpenInv := initial_openInv host
  locks := LockOk.fresh
  guarded _ _ h := by cases h

/-- A guard belongs to the call that the thread is in. -/
theorem Pc.call_of_guards {pc : Pc} {c : Call} (h : pc.guards = some c) : pc.call = some c := by
  cases pc with
  | locked _ => exact h
  | unlocking _ => exact h
  | idle => cases h
  | locking _ => cases h
  | opening _ => cases h
  | closing _ => cases h

/-- The effects that a run on open streams has. -/
theorem effect_of_staysOpen {s s' : System} {l : Label} (hinv : s.OpenInv) (hl : l.staysOpen)
    (heffect : Effect s s' l.thread l) :
    ((∀ key, SameSettings (entryAt s.registry key) (entryAt s'.registry key)) ∧
      s'.nest = s.nest ∧ s'.pc = Function.update s.pc l.thread .idle) ∨
    ∃ c pc, c.staysOpen ∧ RecordEffect s s' l.thread c.stream ∧
      (pc = .idle ∨ pc.call = some c) ∧
      (pc.guards = some c → 0 < s'.nest l.thread c.stream ∨
        (s.pc l.thread).guards = some c ∧ s'.nest = s.nest) ∧
      s'.pc = Function.update s.pc l.thread pc := by
  -- With a call that keeps its stream open, no thread is at a place of opening or closing.
  cases heffect with
  | returns hsettings hentry hnest hrecorded howners hpc => exact Or.inl ⟨hsettings, hnest, hpc⟩
  | works c pc huse heffect howners hcall hguard hpc =>
    refine Or.inr ⟨c, pc, ?_, heffect, hcall, hguard, hpc⟩
    rcases huse with ⟨answer, hlabel, -⟩ | hin
    · rw [hlabel] at hl
      exact hl
    · rcases hinv.calls l.thread with hidle | ⟨c', hc', hstays⟩
      · rw [hidle] at hin
        cases hin
      · cases hin.symm.trans hc'
        exact hstays
  | opens c answer hlabel hopens hclosed hs' =>
    rw [hlabel] at hl
    cases c with
    | fopen => cases hl
    | tmpfile => cases hl
    | flockfile _ => cases hopens
    | ftrylockfile _ => cases hopens
    | funlockfile _ => cases hopens
    | setvbuf _ _ _ _ => cases hopens
    | fflush _ => cases hopens
    | fclose _ => cases hopens
  | opened stream hopening hs' =>
    rcases hinv.calls l.thread with hidle | ⟨c, hc, -⟩
    · cases hidle.symm.trans hopening
    · rw [hopening] at hc
      cases hc
  | closes stream status hlocked hs' =>
    rcases hinv.calls l.thread with hidle | ⟨c, hc, hstays⟩
    · cases hidle.symm.trans hlocked
    · rw [hlocked] at hc
      cases hc
      cases hstays
  | closed stream hclosing hs' =>
    rcases hinv.calls l.thread with hidle | ⟨c, hc, -⟩
    · cases hidle.symm.trans hclosing
    · rw [hclosing] at hc
      cases hc

/-- One step keeps what the records promise. -/
theorem openInv_step {host : Host} {s s' : System} {l : Label} (hinv : s.OpenInv)
    (hl : l.staysOpen) (hstep : step host s l = some s') : s'.OpenInv := by
  obtain ⟨heffect, hdistinct⟩ := step_effect hinv.distinct hstep
  -- The step touches no lock, or it works on the record of one stream for one call.
  rcases effect_of_staysOpen hinv hl heffect with
    ⟨hsettings, -, hpc⟩ | ⟨c, pc, hstays, hrecord, hcall, -, hpc⟩
  · refine ⟨hdistinct, fun key => (hinv.ownerDepth key).congr (hsettings key).1, fun t => ?_⟩
    rw [hpc]
    by_cases ht : t = l.thread
    · rw [ht, Function.update_self]
      exact Or.inl rfl
    · rw [Function.update_of_ne ht]
      exact hinv.calls t
  · refine ⟨hdistinct, fun key => hrecord.ownerDepth (hinv.ownerDepth key), fun t => ?_⟩
    rw [hpc]
    by_cases ht : t = l.thread
    · rw [ht, Function.update_self]
      exact hcall.imp_right fun hc => ⟨c, hc, hstays⟩
    · rw [Function.update_of_ne ht]
      exact hinv.calls t

/-- One step keeps what the counts promise. -/
theorem lockInv_step {host : Host} {s s' : System} {l : Label} (hinv : s.LockInv)
    (hl : l.staysOpen) (hcounts : s'.Counts) (hstep : step host s l = some s') : s'.LockInv := by
  have hopen := openInv_step hinv.toOpenInv hl hstep
  obtain ⟨heffect, -⟩ := step_effect hinv.distinct hstep
  rcases effect_of_staysOpen hinv.toOpenInv hl heffect with
    ⟨hsettings, hnest, hpc⟩ | ⟨c, pc, hstays, hrecord, hcall, hguard, hpc⟩
  · refine ⟨hopen, fun key => locksAt_same (hinv.locks key) (hsettings key).1 hnest, ?_⟩
    intro t c hguards
    rw [hpc] at hguards
    rw [hnest]
    by_cases ht : t = l.thread
    · rw [ht, Function.update_self] at hguards
      cases hguards
    · rw [Function.update_of_ne ht] at hguards
      exact hinv.guarded t c hguards
  · refine ⟨hopen, fun key => hrecord.locksAt (hcounts l.thread c.stream) (hinv.locks key), ?_⟩
    intro t c' hguards
    rw [hpc] at hguards
    by_cases ht : t = l.thread
    · rw [ht, Function.update_self] at hguards
      rw [ht]
      have hc' : pc.call = some c' := Pc.call_of_guards hguards
      rcases hcall with hidle | hc
      · rw [hidle] at hguards
        cases hguards
      · cases hc.symm.trans hc'
        -- The thread has just got the lock, or it had it before and the counts are the same.
        rcases hguard hguards with hpos | ⟨hbefore, hnest⟩
        · exact hpos
        · rw [hnest]
          exact hinv.guarded l.thread c hbefore
    · rw [Function.update_of_ne ht] at hguards
      rw [hrecord.nest_of_ne fun h => ht h.1]
      exact hinv.guarded t c' hguards

/-! ## Steps -/

theorem pc_of_start {host : Host} {s s' : System} {t : ThreadId} {c : Call} {answer : Answer}
    (hstep : step host s (.start t c answer) = some s') : s.pc t = .idle := by
  unfold step at hstep
  dsimp only at hstep
  split at hstep
  · assumption
  · cases hstep

theorem pc_of_atLock {host : Host} {s s' : System} {l : Label} (hat : s.atLock l)
    (hstep : step host s l = some s') :
    s.pc l.thread = .idle ∨ ∃ c, s.pc l.thread = .locking c ∨ s.pc l.thread = .unlocking c := by
  cases l with
  | start t c answer => exact Or.inl (pc_of_start hstep)
  | turn t answer => exact Or.inr hat

theorem flags_step {host : Host} {s s' : System} {l : Label} (hdistinct : s.registry.Distinct)
    (hat : s.atLock l) (hstep : step host s l = some s') (key : Nat) :
    (entryAt s'.registry key).flags = (entryAt s.registry key).flags := by
  have hpc := pc_of_atLock hat hstep
  have hnot : ∀ pc, pc = s.pc l.thread → pc = .idle ∨ ∃ c, pc = .locking c ∨ pc = .unlocking c :=
    fun pc h => h ▸ hpc
  cases (step_effect hdistinct hstep).1 with
  | returns hsettings hentry hnest hrecorded howners hpc' =>
    rcases hentry with ⟨answer, hlabel⟩ | hsame
    · rw [hlabel] at hat
      cases hat
    · rw [hsame]
  | works c pc huse heffect howners hcall hguard hpc' =>
    cases heffect with
    | lock heffect hrecorded => exact heffect.flags key
    | configure e buffer mode size hlocked hstatus hsame hcfg hentry hnest hrecorded =>
      rcases hnot _ hlocked.symm with hidle | ⟨c', hc' | hc'⟩
      · cases hidle
      · cases hc'
      · cases hc'
    | activity hlocked hsettings hnest hrecorded =>
      rcases hnot _ hlocked.symm with hidle | ⟨c', hc' | hc'⟩
      · cases hidle
      · cases hc'
      · cases hc'
  | opens c answer hlabel hopens hclosed hs' => rw [hs']
  | closes stream status hlocked hs' =>
    rw [hs']
    rfl
  | opened stream hopening hs' =>
    rcases hnot _ hopening.symm with hidle | ⟨c', hc' | hc'⟩
    · cases hidle
    · cases hc'
    · cases hc'
  | closed stream hclosing hs' =>
    rcases hnot _ hclosing.symm with hidle | ⟨c', hc' | hc'⟩
    · cases hidle
    · cases hc'
    · cases hc'

theorem unlockOther_step {host : Host} {s s' : System} {t : ThreadId} {stream : Nat}
    {answer : Answer} (hother : (entryAt s.registry stream).fileLockOwner ≠ some t)
    (hstep : step host s (.start t (.funlockfile stream) answer) = some s') :
    s'.registry = s.registry ∧ (LocksAt s stream → s'.nest = s.nest) := by
  have hheld : ¬(entryAt s.registry stream).heldBy t := fun h => hother h.1
  have hnest := fun hlocks => @setNest_unheld s t stream hlocks hheld
  have hidle := pc_of_start hstep
  unfold step at hstep
  dsimp only at hstep
  rw [if_pos hidle] at hstep
  unfold startCall at hstep
  cases hstep
  split
  · exact ⟨rfl, fun _ => rfl⟩
  · exact ⟨funlockfile_not_held hheld, hnest⟩

theorem buffering_step {host : Host} {s s' : System} {l : Label} (hinv : s.OpenInv)
    (hl : l.staysOpen) (hstep : step host s l = some s') (key : Nat) :
    SameBuffering (entryAt s.registry key) (entryAt s'.registry key) ∨
      ∃ t answer buffer mode size, l = .turn t answer ∧
        s.pc t = .locked (.setvbuf key buffer mode size) ∧ s'.status t = 0 := by
  rcases effect_of_staysOpen hinv hl (step_effect hinv.distinct hstep).1 with
    ⟨hsettings, hnest, hpc⟩ | ⟨c, pc, hstays, hrecord, hcall, hguard, hpc⟩
  · exact Or.inl (hsettings key).2
  · cases hrecord with
    | lock heffect hrecorded => exact Or.inl (.of_flags (heffect.flags key))
    | activity hlocked hsettings hnest hrecorded => exact Or.inl (hsettings key).2
    | configure e buffer mode size hlocked hstatus hsame hcfg hentry hnest hrecorded =>
      by_cases hkey : key = c.stream
      · cases l with
        | turn t answer =>
          exact Or.inr ⟨t, answer, buffer, mode, size, rfl, hkey ▸ hlocked, hstatus⟩
        | start t c' answer => cases (pc_of_start hstep).symm.trans hlocked
      · rw [hentry, Function.update_of_ne hkey]
        exact Or.inl (SameSettings.refl _).2

theorem stepSafe {host : Host} {s s' : System} {l : Label} (hinv : s.OpenInv) (hl : l.staysOpen)
    (hstep : step host s l = some s') : s.StepSafe l s' where
  flags hat key := flags_step hinv.distinct hat hstep key
  unlockOther t stream answer hlabel hother := by
    subst hlabel
    exact (unlockOther_step hother hstep).1
  buffering key := buffering_step hinv hl hstep key

/-! ## The contract -/

theorem streamsSafe (host : Host) {s : System} (hinv : s.OpenInv) : s.StreamsSafe host where
  distinct := hinv.distinct
  ownerDepth e he := by
    have hentry : entryAt s.registry e.streamKey = e := KeyedList.lookup_of_mem hinv.distinct he
    have hdepth := hinv.ownerDepth e.streamKey
    rwa [hentry] at hdepth
  steps _ _ hl hstep := stepSafe hinv hl hstep

theorem locksCounted (host : Host) {s : System} (hinv : s.LockInv) : s.LocksCounted host where
  owner t key := by
    constructor
    · intro hpos
      exact ((hinv.locks key).owner_eq hpos).1
    · intro howner
      exact ((hinv.locks key).owned t howner).2.1
  depth t key hpos := ((hinv.locks key).owner_eq hpos).2
  exclusive t t' key hpos hpos' := by
    have howner := ((hinv.locks key).owner_eq hpos).1
    have howner' := ((hinv.locks key).owner_eq hpos').1
    exact Option.some.inj (howner.symm.trans howner')
  guarded := hinv.guarded
  unlockOther t stream answer s' hstep hother :=
    (unlockOther_step hother hstep).2 (hinv.locks stream)

/-- **Stream locks.** -/
theorem streams_safe (host : Host) (labels : List Label)
    (hopen : Lts.EachStep (step host) (fun _ l => l.staysOpen) (initial host) labels) :
    Lts.Always (step host) (System.StreamsSafe host) (initial host) labels ∧
    (Lts.Always (step host) System.Counts (initial host) labels →
      Lts.Always (step host) (System.LocksCounted host) (initial host) labels) := by
  constructor
  · have hinv : Lts.Always (step host) System.OpenInv (initial host) labels :=
      Lts.always_of_eachStep (fun _ _ _ hinv hl hstep => openInv_step hinv hl hstep)
        (initial_openInv host) hopen
    exact hinv.imp fun _ => streamsSafe host
  · intro hcounts
    have hinv : Lts.Always (step host) System.LockInv (initial host) labels :=
      Lts.always_of_gates
        (fun _ _ _ hinv hl hcounts hstep => lockInv_step hinv hl hcounts hstep)
        (initial_lockInv host) hopen hcounts
    exact hinv.imp fun _ => locksCounted host

/-- A lock, a `setbuffer` of another thread that has to wait for it, and the unlock. -/
def waitingRun : List Label :=
  [.start 0 (.flockfile 7) ⟨0, 0, fun _ => none⟩, .turn 0 ⟨0, 0, fun _ => none⟩,
    .start 1 (setbuffer 7 64 16) ⟨0, 0, fun _ => none⟩, .turn 1 ⟨0, 0, fun _ => none⟩,
    .start 0 (.funlockfile 7) ⟨0, 0, fun _ => none⟩, .turn 1 ⟨0, 0, fun _ => none⟩,
    .turn 1 ⟨0, 0, fun _ => none⟩, .turn 1 ⟨0, 0, fun _ => none⟩]

theorem streams_safe_waiting :
    Lts.Always (step ⟨10, 11, 12, true⟩) (System.StreamsSafe ⟨10, 11, 12, true⟩)
      (initial ⟨10, 11, 12, true⟩) waitingRun ∧
    Lts.Always (step ⟨10, 11, 12, true⟩) (System.LocksCounted ⟨10, 11, 12, true⟩)
      (initial ⟨10, 11, 12, true⟩) waitingRun := by
  have hopen : Lts.EachStep (step ⟨10, 11, 12, true⟩) (fun _ l => l.staysOpen)
      (initial ⟨10, 11, 12, true⟩) waitingRun := Lts.eachStep_of_labels _ (by decide)
  obtain ⟨hsafe, hcounted⟩ := streams_safe ⟨10, 11, 12, true⟩ waitingRun hopen
  exact ⟨hsafe, hcounted (counts_of_short 0 List.nodup_nil (fun _ _ => Nat.le_refl 0) (by decide))⟩

/-! ## Locks that are not counted -/

/-- The stream is locked `n` times by thread 0. -/
def NestedBy (s : System) (n : Nat) : Prop :=
  s.pc 0 = .idle ∧ s.nest 0 7 = n ∧ (entryAt s.registry 7).fileLockDepth = min n usizeMax ∧
    (entryAt s.registry 7).fileLockOwner = if n = 0 then none else some 0

theorem nested_step {s : System} {n : Nat} (host : Host) (answer : Answer) (h : NestedBy s n) :
    ∃ s', step host s (.start 0 (.ftrylockfile 7) answer) = some s' ∧ NestedBy s' (n + 1) := by
  obtain ⟨hidle, hnest, hdepth, howner⟩ := h
  have hstep : step host s (.start 0 (.ftrylockfile 7) answer) = some (tryTurn s 0 7) := by
    unfold step
    dsimp only
    rw [if_pos hidle]
    rfl
  refine ⟨tryTurn s 0 7, hstep, ?_⟩
  -- The owner takes the lock once more, and the depth stops at the largest `usize`.
  rcases lockStreamFileInternal_spec s.registry 7 0 true with
    ⟨hacquired, -, hentry⟩ | ⟨-, ⟨owner, hother, hne⟩, -⟩
  · unfold tryTurn
    dsimp only
    rw [if_pos hacquired]
    refine ⟨Function.update_self 0 _ s.pc, ?_, ?_, ?_⟩
    · exact (setNest_self s 0 7 _).trans (congrArg (· + 1) hnest)
    · change (entryAt (lockStreamFileInternal s.registry 7 0 true).2 7).fileLockDepth = _
      rw [hentry, Function.update_self]
      unfold StreamState.lockedBy
      by_cases hn : n = 0
      · rw [if_pos hn] at howner
        rw [howner, hn]
        change 1 = min (0 + 1) usizeMax
        decide
      · rw [if_neg hn] at howner
        rw [howner]
        change min ((entryAt s.registry 7).fileLockDepth + 1) usizeMax = _
        rw [hdepth]
        omega
    · change (entryAt (lockStreamFileInternal s.registry 7 0 true).2 7).fileLockOwner = _
      rw [hentry, Function.update_self, if_neg (Nat.succ_ne_zero n)]
      unfold StreamState.lockedBy
      by_cases hn : n = 0
      · rw [if_pos hn] at howner
        rw [howner]
      · rw [if_neg hn] at howner
        rw [howner]
  · rw [howner] at hother
    split at hother
    · cases hother
    · cases hother
      exact absurd rfl hne

theorem nested_run (host : Host) (answer : Answer) (n : Nat) {s : System} {m : Nat}
    (h : NestedBy s m) :
    ∃ s', Lts.run (step host) s (List.replicate n (.start 0 (.ftrylockfile 7) answer)) = some s' ∧
      NestedBy s' (m + n) := by
  induction n generalizing s m with
  | zero => exact ⟨s, rfl, h⟩
  | succ n ih =>
    obtain ⟨s', hstep, hs'⟩ := nested_step host answer h
    obtain ⟨s'', hrun, hs''⟩ := ih hs'
    refine ⟨s'', ?_, ?_⟩
    · rw [List.replicate_succ, Lts.run_cons, hstep]
      exact hrun
    · rw [show m + (n + 1) = m + 1 + n by omega]
      exact hs''

/-- A depth of `usize::MAX` stands for any number of locks from there on. -/
theorem nesting_not_counted :
    ∃ s, Lts.run (step ⟨10, 11, 12, true⟩) (initial ⟨10, 11, 12, true⟩)
        (List.replicate (usizeMax + 1)
          (.start 0 (.ftrylockfile 7) ⟨0, 0, fun _ => none⟩)) = some s ∧
      s.nest 0 7 = usizeMax + 1 ∧ (entryAt s.registry 7).fileLockDepth = usizeMax := by
  have hinit : NestedBy (initial ⟨10, 11, 12, true⟩) 0 := ⟨rfl, rfl, rfl, rfl⟩
  obtain ⟨s, hrun, -, hnest, hdepth, -⟩ :=
    nested_run ⟨10, 11, 12, true⟩ ⟨0, 0, fun _ => none⟩ (usizeMax + 1) hinit
  refine ⟨s, hrun, ?_, ?_⟩
  · rw [hnest, Nat.zero_add]
  · rw [hdepth, Nat.zero_add]
    exact Nat.min_eq_right (Nat.le_succ usizeMax)

/-! ## A call that nothing disturbs -/

/-- `setvbuf` refuses the arguments before it takes a lock. -/
def Refused (stream : Nat) (mode : Int) (size : Nat) : Prop :=
  stream = 0 ∨ ¬isValidBufferingMode mode ∨ (mode ≠ _IONBF ∧ size = 0)

theorem setvbufUpdate_of_quiet {e : StreamState} (h : e.ioActive = false) (buffer : Nat)
    (mode : Int) (size : Nat) (identity : Option Nat) :
    ∃ e', setvbufUpdate e buffer mode size identity = some e' := by
  have hnot : ¬(e.ioActive = true ∧ e.hostBackedIo = true ∧
      recycled e.hostStreamIdentity identity = true) := by
    rw [h]
    exact fun hactive => Bool.false_ne_true hactive.1
  unfold setvbufUpdate
  dsimp only
  rw [if_neg hnot, if_neg (by rw [h]; exact Bool.false_ne_true)]
  exact ⟨_, rfl⟩

theorem lockedBy_ioActive (e : StreamState) (t : ThreadId) :
    (e.lockedBy t).ioActive = e.ioActive := by
  unfold StreamState.lockedBy
  split <;> rfl

section Undisturbed

variable (host : Host) {s : System} {t : ThreadId} {stream buffer size : Nat} {mode : Int}
  (answer : Answer)

/-- The turn of a `setvbuf` at a lock that no other thread has. -/
theorem lock_undisturbed (hdistinct : s.registry.Distinct)
    (hpc : s.pc t = .locking (.setvbuf stream buffer mode size))
    (hfree : ∀ owner, (entryAt s.registry stream).fileLockOwner = some owner → owner = t) :
    ∃ s', step host s (.turn t answer) = some s' ∧ s'.registry.Distinct ∧
      s'.pc t = .locked (.setvbuf stream buffer mode size) ∧
      (entryAt s'.registry stream).ioActive = (entryAt s.registry stream).ioActive := by
  rcases lockStreamFileInternal_spec s.registry stream t false with
    ⟨hacquired, -, hentry⟩ | ⟨-, ⟨owner, howner, hne⟩, -⟩
  · have hstep : step host s (.turn t answer) =
        some (({ s with registry := (lockStreamFileInternal s.registry stream t false).2 }.setNest t
          stream (s.nest t stream + 1)).goto t (.locked (.setvbuf stream buffer mode size))) := by
      unfold step
      dsimp only
      rw [hpc]
      exact congrArg some (if_pos hacquired)
    refine ⟨_, hstep, lockStreamFileInternal_distinct hdistinct _ _ _,
      Function.update_self t _ s.pc, ?_⟩
    change (entryAt (lockStreamFileInternal s.registry stream t false).2 stream).ioActive = _
    rw [hentry, Function.update_self, lockedBy_ioActive]
  · exact absurd (hfree owner howner) hne

/-- The turn of a `setvbuf` under its lock, before any I/O. -/
theorem configure_undisturbed (hdistinct : s.registry.Distinct)
    (hpc : s.pc t = .locked (.setvbuf stream buffer mode size))
    (hquiet : (entryAt s.registry stream).ioActive = false) :
    ∃ s', step host s (.turn t answer) = some s' ∧ s'.registry.Distinct ∧
      s'.pc t = .unlocking (.setvbuf stream buffer mode size) ∧ s'.status t = 0 ∧
      (Config.of buffer mode size).describes (entryAt s'.registry stream) := by
  have hstep : step host s (.turn t answer) =
      lockedTurn host s t (.setvbuf stream buffer mode size) answer := by
    unfold step
    dsimp only
    rw [hpc]
  obtain ⟨e, hupdate⟩ :=
    setvbufUpdate_of_quiet hquiet buffer mode size (answer.identity stream)
  obtain ⟨-, hmode, hsize, hbuffer, hexplicit⟩ := setvbufUpdate_spec hupdate
  rcases setvbufLocked_spec s.registry stream buffer mode size (answer.identity stream) with
    ⟨hlate, -⟩ | ⟨hstatus, e', hupdate', hentry⟩
  · unfold setvbufLocked at hlate
    rw [hupdate] at hlate
    cases hlate
  · cases hupdate.symm.trans hupdate'
    refine ⟨_, hstep, setvbufLocked_distinct hdistinct _ _ _ _ _, Function.update_self t _ s.pc,
      (Function.update_self t _ s.status).trans hstatus, ?_⟩
    change (Config.of buffer mode size).describes
      (entryAt (setvbufLocked s.registry stream buffer mode size _).2 stream)
    rw [hentry, Function.update_self]
    exact ⟨hmode, hsize, hbuffer, hexplicit⟩

/-- A thread that is alone with a stream without I/O gets the configuration that it asks for. -/
theorem setvbuf_undisturbed (hdistinct : s.registry.Distinct) (hidle : s.pc t = .idle)
    (hargs : ¬Refused stream mode size)
    (hfree : ∀ owner, (entryAt s.registry stream).fileLockOwner = some owner → owner = t)
    (hquiet : (entryAt s.registry stream).ioActive = false) :
    ∃ s', Lts.run (step host) s [.start t (.setvbuf stream buffer mode size) answer,
        .turn t answer, .turn t answer, .turn t answer] = some s' ∧
      s'.pc t = .idle ∧ s'.status t = 0 ∧
      (Config.of buffer mode size).describes (entryAt s'.registry stream) := by
  have hstart : step host s (.start t (.setvbuf stream buffer mode size) answer) =
      some (s.goto t (.locking (.setvbuf stream buffer mode size))) := by
    unfold step startCall
    dsimp only
    rw [if_pos hidle]
    exact congrArg some (if_neg hargs)
  obtain ⟨s₂, hlock, hdistinct₂, hpc₂, hquiet₂⟩ := lock_undisturbed host answer
    (s := s.goto t (.locking (.setvbuf stream buffer mode size))) hdistinct
    (Function.update_self t _ s.pc) hfree
  obtain ⟨s₃, hconfigure, hdistinct₃, hpc₃, hstatus, hdescribes⟩ :=
    configure_undisturbed host answer hdistinct₂ hpc₂ (hquiet₂.trans hquiet)
  have hunlock : step host s₃ (.turn t answer) = some (unlockTurn s₃ t stream 0) := by
    unfold step
    dsimp only
    rw [hpc₃, hstatus]
    rfl
  refine ⟨unlockTurn s₃ t stream 0, ?_, Function.update_self t _ _, Function.update_self t _ _,
    hdescribes.of_flags ((unlockTurn_effect t stream 0 hdistinct₃).flags stream)⟩
  rw [Lts.run_cons_of_step hstart, Lts.run_cons_of_step hlock, Lts.run_cons_of_step hconfigure,
    Lts.run_cons_of_step hunlock]
  rfl

end Undisturbed

/-- What `setbuffer`, `setbuf` and `setlinebuf` ask for; they have no status that could say that it
was refused. -/
theorem wrappers_undisturbed (host : Host) {s : System} {t : ThreadId} {stream : Nat}
    (answer : Answer) (hdistinct : s.registry.Distinct) (hidle : s.pc t = .idle)
    (hstream : stream ≠ 0)
    (hfree : ∀ owner, (entryAt s.registry stream).fileLockOwner = some owner → owner = t)
    (hquiet : (entryAt s.registry stream).ioActive = false) :
    (∀ buffer size, buffer = 0 ∨ size ≠ 0 → ∃ s', Lts.run (step host) s
        [.start t (setbuffer stream buffer size) answer, .turn t answer, .turn t answer,
          .turn t answer] = some s' ∧
      (if buffer = 0 then Config.mk _IONBF 0 0 else ⟨_IOFBF, size, buffer⟩).describes
        (entryAt s'.registry stream)) ∧
    (∀ buffer, ∃ s', Lts.run (step host) s
        [.start t (setbuf stream buffer) answer, .turn t answer, .turn t answer,
          .turn t answer] = some s' ∧
      (if buffer = 0 then Config.mk _IONBF 0 0 else ⟨_IOFBF, BUFSIZ, buffer⟩).describes
        (entryAt s'.registry stream)) ∧
    ∃ s', Lts.run (step host) s
        [.start t (setlinebuf stream) answer, .turn t answer, .turn t answer, .turn t answer] =
          some s' ∧
      (Config.mk _IOLBF BUFSIZ 0).describes (entryAt s'.registry stream) := by
  have hasks : ∀ buffer mode size, isValidBufferingMode mode = true → mode = _IONBF ∨ size ≠ 0 →
      ∃ s', Lts.run (step host) s [.start t (.setvbuf stream buffer mode size) answer,
          .turn t answer, .turn t answer, .turn t answer] = some s' ∧
        (Config.of buffer mode size).describes (entryAt s'.registry stream) := by
    intro buffer mode size hmode hsize
    have hargs : ¬Refused stream mode size := by
      rintro (h | h | h)
      · exact hstream h
      · exact h hmode
      · exact hsize.elim h.1 fun hsize => hsize h.2
    obtain ⟨s', hrun, -, -, hdescribes⟩ :=
      setvbuf_undisturbed host answer hdistinct hidle hargs hfree hquiet
    exact ⟨s', hrun, hdescribes⟩
  -- A buffer of its own size, which is `BUFSIZ` for `setbuf`.
  have hbuffer : ∀ buffer size, buffer = 0 ∨ size ≠ 0 → ∃ s', Lts.run (step host) s
      [.start t (setbuffer stream buffer size) answer, .turn t answer, .turn t answer,
        .turn t answer] = some s' ∧
      (if buffer = 0 then Config.mk _IONBF 0 0 else ⟨_IOFBF, size, buffer⟩).describes
        (entryAt s'.registry stream) := by
    intro buffer size hsize
    unfold setbuffer
    by_cases hnull : buffer = 0
    · rw [if_pos hnull, if_pos hnull, if_pos hnull]
      exact hasks buffer _IONBF 0 (by decide) (Or.inl rfl)
    · rw [if_neg hnull, if_neg hnull, if_neg hnull]
      exact hasks buffer _IOFBF size (by decide) (Or.inr (hsize.resolve_left hnull))
  exact ⟨hbuffer, fun buffer => hbuffer buffer BUFSIZ (Or.inr (by decide)),
    hasks 0 _IOLBF BUFSIZ (by decide) (Or.inr (by decide))⟩

end Rlibc.Stdio
