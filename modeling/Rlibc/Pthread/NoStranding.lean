import Rlibc.Pthread.MutexContract
import Rlibc.Pthread.NotificationCredit
import Rlibc.Pthread.RwlockSafety

/-!
# No waiter is forgotten

Threads run on mutexes, on condition variables and on a read-write lock, and sleep until a
notification, a timeout or a spurious wakeup.  When all notifications are delivered and everybody
who has been woken has run, a thread sleeps only where it has to.
-/

namespace Rlibc.Pthread

namespace RwlockSystem

variable {T M C : Type*} [DecidableEq T] {s s' : RwlockSystem T} {t : T}

theorem finish_lock (s : RwlockSystem T) (t : T) (call : RwlockCall) (blocked : RwlockPc)
    (turn : RwlockLockState T × Option Int) : (s.finish t call blocked turn).lock = turn.1 := by
  unfold finish
  split <;> rfl

/-- A call that is blocked after its turn waits. -/
theorem finish_waits {call : RwlockCall} {blocked pc : RwlockPc}
    {turn : RwlockLockState T × Option Int} (hidle : pc ≠ .idle)
    (h : (s.finish t call blocked turn).pc t = pc) : turn.2 = none ∧ pc = blocked := by
  unfold finish at h
  split at h
  · simp only [return_, Function.update_self] at h
    exact absurd h.symm hidle
  · rename_i hnone
    simp only [Function.update_self] at h
    exact ⟨hnone, h.symm⟩

/-- The thread `t` does not wait in front of an open gate. -/
def Blocks (s : RwlockSystem T) (t : T) : Prop :=
  (s.pc t = .blockedReader → ¬ s.lock.ReadersMayGo) ∧
    (s.pc t = .blockedWriter → ¬ s.lock.WritersMayGo)

theorem blocks_rdlock (s : RwlockSystem T) (t : T) (call : RwlockCall)
    (tryOnly registeredWaiter : Bool) :
    (s.finish t call .blockedReader (s.lock.rdlockTurn t tryOnly registeredWaiter)).Blocks t := by
  refine ⟨fun hpc => ?_, fun hpc => ?_⟩
  · rw [finish_lock]
    exact RwlockLockState.rdlockTurn_waits (finish_waits (by simp) hpc).1
  · have hblocked := (finish_waits (by simp) hpc).2
    cases hblocked

theorem blocks_wrlock (s : RwlockSystem T) (t : T) (call : RwlockCall)
    (tryOnly registeredWaiter : Bool) :
    (s.finish t call .blockedWriter (s.lock.wrlockTurn t tryOnly registeredWaiter)).Blocks t := by
  refine ⟨fun hpc => ?_, fun hpc => ?_⟩
  · have hblocked := (finish_waits (by simp) hpc).2
    cases hblocked
  · rw [finish_lock]
    exact RwlockLockState.wrlockTurn_waits (finish_waits (by simp) hpc).1

omit [DecidableEq T] in
theorem blocks_of_pc {pc : RwlockPc} (hpc : s.pc t = pc) (hreader : pc ≠ .blockedReader)
    (hwriter : pc ≠ .blockedWriter) : s.Blocks t :=
  ⟨fun h => absurd (hpc.symm.trans h) hreader, fun h => absurd (hpc.symm.trans h) hwriter⟩

/-- Nobody begins to wait in front of an open gate. -/
theorem step_blocks {label : RwlockLabel T} (hs : s.step label = some s') :
    s'.Blocks label.thread := by
  have hidle : ∀ {u : T} {l : RwlockLockState T} (call : RwlockCall) (code : Int),
      ({ s with lock := l }.return_ u call code).Blocks u := fun call code =>
    blocks_of_pc (Function.update_self _ _ _) (by simp) (by simp)
  cases label with
  | call t call =>
    simp only [step, Option.ite_none_right_eq_some] at hs
    obtain ⟨_, hs⟩ := hs
    split at hs
    · rw [← Option.some.inj hs]
      exact blocks_of_pc (Function.update_self _ _ _) (by simp) (by simp)
    · rw [← Option.some.inj hs]
      exact hidle _ _
  | enter t =>
    simp only [step] at hs
    split at hs
    · rename_i call hpc
      rw [← Option.some.inj hs]
      cases call with
      | rdlock => exact blocks_rdlock s t _ false false
      | tryrdlock => exact blocks_rdlock s t _ true false
      | wrlock => exact blocks_wrlock s t _ false false
      | trywrlock => exact blocks_wrlock s t _ true false
      | unlock => exact hidle _ _
      | destroy =>
        unfold enter
        dsimp only
        split
        · exact hidle _ _
        · exact blocks_of_pc (Function.update_self _ _ _) (by simp) (by simp)
    · exact absurd hs (by simp)
  | wake t =>
    simp only [step] at hs
    split at hs
    · exact Option.some.inj hs ▸ blocks_rdlock s t _ false true
    · exact Option.some.inj hs ▸ blocks_wrlock s t _ false true
    · exact absurd hs (by simp)
  | unregister t =>
    simp only [step, Option.ite_none_right_eq_some, Option.some.injEq] at hs
    obtain ⟨_, rfl⟩ := hs
    exact blocks_of_pc (Function.update_self _ _ _) (by simp) (by simp)

/-- The gates that a step opens, it opens with a notification. -/
def Opens (l l' : RwlockLockState T) (notifies : Prop) : Prop :=
  (l'.ReadersMayGo → l.ReadersMayGo ∨ notifies) ∧ (l'.WritersMayGo → l.WritersMayGo ∨ notifies)

theorem opens_rdlock (call : RwlockCall) (tryOnly registeredWaiter : Bool) {notifies : Prop} :
    Opens s.lock (s.finish t call .blockedReader
      (s.lock.rdlockTurn t tryOnly registeredWaiter)).lock notifies := by
  have hturn := s.lock.rdlockTurn_writers t tryOnly registeredWaiter
  rw [finish_lock]
  refine ⟨fun h => Or.inl ⟨?_, ?_⟩, fun h => Or.inl ⟨?_, ?_⟩⟩
  · exact hturn.1.symm.trans h.1
  · exact hturn.2.1.symm.trans h.2
  · exact hturn.1.symm.trans h.1
  · have hzero := h.2
    omega

theorem opens_wrlock (call : RwlockCall) (tryOnly : Bool) {registeredWaiter : Bool}
    (halive : s.lock.destroyed = true → registeredWaiter = false) {notifies : Prop} :
    Opens s.lock (s.finish t call .blockedWriter
      (s.lock.wrlockTurn t tryOnly registeredWaiter)).lock notifies := by
  have hturn := s.lock.wrlockTurn_gates t tryOnly halive
  rw [finish_lock]
  exact ⟨fun h => Or.inl (hturn.1 h), fun h => Or.inl (hturn.2 h)⟩

/-- A gate opens only in a step that notifies. -/
theorem step_opens [Fintype T] (h : Invariant s) {label : RwlockLabel T}
    (hs : s.step label = some s') :
    Opens s.lock s'.lock (s.notifies label = some (⟨.rwlock, true⟩ : Notification M C)) := by
  cases label with
  | call t call =>
    simp only [step, Option.ite_none_right_eq_some] at hs
    obtain ⟨_, hs⟩ := hs
    split at hs <;> exact Option.some.inj hs ▸ ⟨Or.inl, Or.inl⟩
  | enter t =>
    simp only [step] at hs
    split at hs
    · rename_i call hpc
      rw [← Option.some.inj hs]
      cases call with
      | rdlock => exact opens_rdlock _ false false
      | tryrdlock => exact opens_rdlock _ true false
      | wrlock => exact opens_wrlock _ false fun _ => rfl
      | trywrlock => exact opens_wrlock _ true fun _ => rfl
      | unlock =>
        have hgates := s.lock.unlockInternal_gates t
        have hnotifies : s.lock.UnlockNotifies t →
            s.notifies (.enter t) = some (⟨.rwlock, true⟩ : Notification M C) :=
          fun hn => if_pos ⟨hpc, hn⟩
        exact ⟨fun ho => (hgates.1 ho).imp id hnotifies, fun ho => (hgates.2 ho).imp id hnotifies⟩
      | destroy =>
        unfold enter
        dsimp only
        split
        · exact ⟨Or.inl, Or.inl⟩
        · unfold RwlockLockState.markDestroyed
          split_ifs <;> exact ⟨Or.inl, Or.inl⟩
    · exact absurd hs (by simp)
  | wake t =>
    simp only [step] at hs
    split at hs
    · exact Option.some.inj hs ▸ opens_rdlock _ false true
    · rename_i hpc
      refine Option.some.inj hs ▸ opens_wrlock _ false fun hdestroyed => ?_
      exact absurd hpc ((h.destroyedFree hdestroyed).2.2 t).2
    · exact absurd hs (by simp)
  | unregister t =>
    simp only [step, Option.ite_none_right_eq_some, Option.some.injEq] at hs
    obtain ⟨_, rfl⟩ := hs
    exact ⟨Or.inl, Or.inl⟩

theorem step_pc {label : RwlockLabel T} (hs : s.step label = some s') {u : T}
    (hu : u ≠ label.thread) : s'.pc u = s.pc u := by
  have hfinish : ∀ {v : T} (call : RwlockCall) (blocked : RwlockPc)
      (turn : RwlockLockState T × Option Int), u ≠ v →
      (s.finish v call blocked turn).pc u = s.pc u := by
    intro v call blocked turn hv
    unfold finish
    split <;> exact Function.update_of_ne hv _ _
  cases label with
  | call t call =>
    simp only [step, Option.ite_none_right_eq_some] at hs
    obtain ⟨_, hs⟩ := hs
    split at hs <;> exact Option.some.inj hs ▸ Function.update_of_ne hu _ _
  | enter t =>
    simp only [step] at hs
    split at hs
    · rename_i call hpc
      rw [← Option.some.inj hs]
      cases call with
      | rdlock => exact hfinish _ _ _ hu
      | tryrdlock => exact hfinish _ _ _ hu
      | wrlock => exact hfinish _ _ _ hu
      | trywrlock => exact hfinish _ _ _ hu
      | unlock => exact Function.update_of_ne hu _ _
      | destroy =>
        unfold enter
        dsimp only
        split <;> exact Function.update_of_ne hu _ _
    · exact absurd hs (by simp)
  | wake t =>
    simp only [step] at hs
    split at hs
    · exact Option.some.inj hs ▸ hfinish _ _ _ hu
    · exact Option.some.inj hs ▸ hfinish _ _ _ hu
    · exact absurd hs (by simp)
  | unregister t =>
    simp only [step, Option.ite_none_right_eq_some, Option.some.injEq] at hs
    obtain ⟨_, rfl⟩ := hs
    exact Function.update_of_ne hu _ _

end RwlockSystem

namespace LockSystem

open Condvars (Pays)

variable {T M C : Type*} [DecidableEq T] [DecidableEq M] [DecidableEq C] [Fintype T]
  {mutexType : M → MutexType} {s s' : LockSystem T M C}

structure Invariant (mutexType : M → MutexType) (s : LockSystem T M C) : Prop where
  mutexOk : ∀ m, s.sync.MutexOk mutexType m
  holderOk : s.sync.HolderOk
  countsOk : ∀ c, s.sync.CountsOk c
  rwlock : s.rwlock.Invariant
  oneCall : ∀ u, s.sync.pc u = .idle ∨ s.rwlock.pc u = .idle

omit [Fintype T] in
/-- A step of one of the two halves, whose thread is in no call of the other. -/
theorem step_halves {label : LockLabel T M C} (hs : s.step mutexType label = some s') :
    (∃ l sync, label = .sync l ∧ s.rwlock.pc l.thread = .idle ∧
        s.sync.step mutexType l = some sync ∧ s' = { s with sync := sync }) ∨
      ∃ l rwlock, label = .rwlock l ∧ s.sync.pc l.thread = .idle ∧
        s.rwlock.step l = some rwlock ∧ s' = { s with rwlock := rwlock } := by
  cases label with
  | sync l =>
    simp only [step, Option.ite_none_right_eq_some, Option.map_eq_some_iff] at hs
    obtain ⟨hpc, sync, hstep, rfl⟩ := hs
    exact Or.inl ⟨l, sync, rfl, hpc, hstep, rfl⟩
  | rwlock l =>
    simp only [step, Option.ite_none_right_eq_some, Option.map_eq_some_iff] at hs
    obtain ⟨hpc, rwlock, hstep, rfl⟩ := hs
    exact Or.inr ⟨l, rwlock, rfl, hpc, hstep, rfl⟩

theorem step_invariant (hcard : Fintype.card T ≤ usizeMax) (h : Invariant mutexType s)
    {label : LockLabel T M C} (hs : s.step mutexType label = some s') :
    Invariant mutexType s' := by
  rcases step_halves hs with ⟨l, sync, rfl, hpc, hstep, rfl⟩ | ⟨l, rwlock, rfl, hpc, hstep, rfl⟩
  · have hmoves := SyncSystem.step_condMoves h.holderOk hstep
    refine ⟨SyncSystem.step_mutexOk hcard h.mutexOk hstep,
      SyncSystem.step_holderOk h.holderOk hmoves,
      fun c => SyncSystem.step_countsOk hcard (h.countsOk c) h.holderOk (hmoves c), h.rwlock,
      fun u => ?_⟩
    by_cases hu : u = l.thread
    · exact Or.inr (hu ▸ hpc)
    · change sync.pc u = .idle ∨ _
      rw [SyncSystem.step_pc hstep hu]
      exact h.oneCall u
  · refine ⟨h.mutexOk, h.holderOk, h.countsOk, RwlockSystem.step_invariant hcard h.rwlock hstep,
      fun u => ?_⟩
    by_cases hu : u = l.thread
    · exact Or.inl (hu ▸ hpc)
    · change _ ∨ rwlock.pc u = .idle
      rw [RwlockSystem.step_pc hstep hu]
      exact h.oneCall u

theorem initial_invariant (initialised : C → Bool) :
    Invariant mutexType (initial initialised : LockSystem T M C) where
  mutexOk := SyncSystem.initial_mutexOk initialised
  holderOk := SyncSystem.initial_holderOk initialised
  countsOk := fun c =>
    ⟨(SyncSystem.initial_condOk initialised c).waiters,
      (SyncSystem.initial_condOk initialised c).pendingLe⟩
  rwlock := RwlockSystem.initial_invariant
  oneCall := fun _ => Or.inl rfl

/-! ## The rules apply -/

omit [Fintype T] in
theorem step_waitCv {label : LockLabel T M C} (hs : s.step mutexType label = some s') {u : T}
    (hu : u ≠ label.thread) : s'.waitCv u = s.waitCv u := by
  unfold waitCv
  rcases step_halves hs with ⟨l, sync, rfl, _, hstep, rfl⟩ | ⟨l, rwlock, rfl, _, hstep, rfl⟩
  · rw [SyncSystem.step_pc hstep hu]
  · rw [RwlockSystem.step_pc hstep hu]

omit [DecidableEq T] [DecidableEq M] [DecidableEq C] [Fintype T] in
theorem waitCv_of_rwlock_idle {u : T} (h : s.rwlock.pc u = .idle) :
    s.waitCv u = (s.sync.pc u).waitCv := by
  unfold waitCv
  rw [h]
  exact Option.or_none

omit [DecidableEq T] [DecidableEq M] [DecidableEq C] [Fintype T] in
theorem waitCv_of_sync_idle {u : T} (h : s.sync.pc u = .idle) :
    s.waitCv u = (s.rwlock.pc u).waitCv := by
  unfold waitCv
  rw [h]
  rfl

theorem waitCv_rwlock_ne {M C : Type*} {v : WaitCv M C} (hv : v ≠ .rwlock) (pc : RwlockPc) :
    pc.waitCv ≠ some v := by
  cases pc <;> simp [RwlockPc.waitCv, Ne.symm hv]

/-- A condition variable outside the read-write lock, with tokens that its steps leave alone. -/
theorem tokens_of_sync {v : WaitCv M C} (hv : v ≠ .rwlock) {credit : SyncSystem T M C → ℕ}
    (hpays : ∀ (b : SyncSystem T M C) l b', b.step mutexType l = some b' →
      Pays v (b.pc l.thread).waitCv (b'.pc l.thread).waitCv (credit b) (credit b')
        (b.notifies mutexType l)) :
    (monitor mutexType).Tokens (Invariant mutexType) v fun s => credit s.sync where
  elsewhere := fun b l b' hstep u hu => step_waitCv hstep hu
  pays := fun b label b' _ hstep => by
    change Pays v (b.waitCv label.thread) (b'.waitCv label.thread) _ _ (b.notifies mutexType label)
    rcases step_halves hstep with ⟨l, sync, rfl, hpc, hs, rfl⟩ | ⟨l, rwlock, rfl, hpc, hs, rfl⟩
    · change Pays v (b.waitCv l.thread) (waitCv { b with sync := sync } l.thread) _ _ _
      rw [waitCv_of_rwlock_idle hpc, waitCv_of_rwlock_idle (s := { b with sync := sync }) hpc]
      exact hpays b.sync l sync hs
    · change Pays v (b.waitCv l.thread) (waitCv { b with rwlock := rwlock } l.thread) _ _ _
      rw [waitCv_of_sync_idle hpc, waitCv_of_sync_idle (s := { b with rwlock := rwlock }) hpc]
      exact .kept (waitCv_rwlock_ne hv _) (waitCv_rwlock_ne hv _) (Nat.le_refl _)

theorem tokens_mutex (mutexType : M → MutexType) (m : M) :
    (monitor (T := T) (C := C) mutexType).Tokens (Invariant mutexType) (.mutex m)
      fun s => s.sync.mutexTokens m :=
  tokens_of_sync (by simp) fun _ _ _ hs => SyncSystem.step_paysMutex hs m

theorem tokens_cond (mutexType : M → MutexType) (c : C) :
    (monitor (T := T) mutexType).Tokens (Invariant mutexType) (.cond c)
      fun s => (s.sync.condState c).pendingWakeups :=
  tokens_of_sync (by simp) fun _ _ _ hs => SyncSystem.step_paysCond hs c

/-- One of the two gates of the read-write lock. -/
theorem gate_rwlock {pc : RwlockPc} {MayGo : RwlockLockState T → Prop}
    (hpc : pc.waitCv (M := M) (C := C) = some .rwlock)
    (hblocks : ∀ (b : RwlockSystem T) l b', b.step l = some b' → b'.pc l.thread = pc →
      ¬ MayGo b'.lock)
    (hopens : ∀ (b : RwlockSystem T) l b', b.Invariant → b.step l = some b' → MayGo b'.lock →
      MayGo b.lock ∨ b.notifies l = some (⟨.rwlock, true⟩ : Notification M C)) :
    (monitor (C := C) mutexType).Gate (Invariant mutexType) .rwlock (fun s u => s.rwlock.pc u = pc)
      fun s => MayGo s.rwlock.lock where
  waits := fun b u hI hK => by
    change b.waitCv u = _
    have hbusy : b.rwlock.pc u ≠ .idle := by
      intro hidle
      rw [← hK, hidle] at hpc
      cases hpc
    rw [waitCv_of_sync_idle ((hI.oneCall u).resolve_right hbusy), hK]
    exact hpc
  elsewhere := fun b label b' hstep u hu hK => by
    rcases step_halves hstep with ⟨l, sync, rfl, _, hs, rfl⟩ | ⟨l, rwlock, rfl, _, hs, rfl⟩
    · exact hK
    · rwa [← RwlockSystem.step_pc hs hu]
  begins := fun b label b' hI hstep hK => by
    rcases step_halves hstep with ⟨l, sync, rfl, hidle, hs, rfl⟩ | ⟨l, rwlock, rfl, _, hs, rfl⟩
    · change b.rwlock.pc l.thread = pc at hK
      rw [← hK, hidle] at hpc
      cases hpc
    · exact hblocks b.rwlock l rwlock hs hK
  opens := fun b label b' hI hstep hopen => by
    rcases step_halves hstep with ⟨l, sync, rfl, _, hs, rfl⟩ | ⟨l, rwlock, rfl, _, hs, rfl⟩
    · exact Or.inl hopen
    · exact hopens b.rwlock l rwlock hI.rwlock hs hopen

theorem gate_readers (mutexType : M → MutexType) :
    (monitor (T := T) (C := C) mutexType).Gate (Invariant mutexType) .rwlock
      (fun s u => s.rwlock.pc u = .blockedReader) fun s => s.rwlock.lock.ReadersMayGo :=
  gate_rwlock rfl (fun _ _ _ hs => (RwlockSystem.step_blocks hs).1)
    fun _ _ _ hI hs => (RwlockSystem.step_opens hI hs).1

theorem gate_writers (mutexType : M → MutexType) :
    (monitor (T := T) (C := C) mutexType).Gate (Invariant mutexType) .rwlock
      (fun s u => s.rwlock.pc u = .blockedWriter) fun s => s.rwlock.lock.WritersMayGo :=
  gate_rwlock rfl (fun _ _ _ hs => (RwlockSystem.step_blocks hs).2)
    fun _ _ _ hI hs => (RwlockSystem.step_opens hI hs).2

/-! ## No waiter is forgotten -/

/-- Each sleeper has somebody to wait for. -/
structure NotStranded (s : LockSystem T M C) (asleep : T → Bool) : Prop where
  lock : ∀ t m, asleep t = true → (s.sync.pc t).BlockedOn m →
    ∃ l, s.sync.mutexes m = some l ∧ l.owner ≠ none
  rdlock : ∀ t, asleep t = true → s.rwlock.pc t = .blockedReader →
    s.rwlock.lock.writerOwner ≠ none ∨ 0 < s.rwlock.lock.waitingWriters
  wrlock : ∀ t, asleep t = true → s.rwlock.pc t = .blockedWriter →
    s.rwlock.lock.writerOwner ≠ none ∨ 0 < s.rwlock.lock.totalReaders
  wait : ∀ t c, asleep t = true → (s.sync.pc t).SleepsOn c →
    (s.sync.condState c).pendingWakeups = 0

abbrev WithSleepers (T M C : Type*) := Condvars.State T (WaitCv M C) (LockSystem T M C)

/-- Two states that only the log of the calls tells apart. -/
structure SameButLog (s s' : WithSleepers T M C) : Prop where
  mutexes : s'.inner.sync.mutexes = s.inner.sync.mutexes
  conds : s'.inner.sync.conds = s.inner.sync.conds
  registering : s'.inner.sync.registering = s.inner.sync.registering
  pc : s'.inner.sync.pc = s.inner.sync.pc
  rwlock : s'.inner.rwlock = s.inner.rwlock
  asleep : s'.asleep = s.asleep
  notifying : s'.notifying = s.notifying

/-- What the condition variables owe. -/
structure WakeupsAccounted (mutexType : M → MutexType) (s : WithSleepers T M C) : Prop where
  pendingLe : ∀ c, (s.inner.sync.condState c).pendingWakeups ≤
    (s.inner.sync.condState c).waiterCount
  /-- Without a waiter, a signal or a broadcast is lost. -/
  unheard : ∀ t c l s', l = .signal t c ∨ l = .broadcast t c →
    (s.inner.sync.condState c).waiterCount = 0 →
    (monitor mutexType).step s (.act (.sync l)) = some s' →
    SameButLog s s' ∧ (s'.inner.sync.condState c).pendingWakeups = 0

/-- What every step of the calls with their sleepers preserves. -/
structure Kept (mutexType : M → MutexType) (s : WithSleepers T M C) : Prop where
  inner : Invariant mutexType s.inner
  mutex : ∀ m, Condvars.Monitor.Tokens.Kept (monitor mutexType) (.mutex m)
    (fun b => b.sync.mutexTokens m) s
  cond : ∀ c, Condvars.Monitor.Tokens.Kept (monitor mutexType) (.cond c)
    (fun b => (b.sync.condState c).pendingWakeups) s
  readers : Condvars.Monitor.Gate.Kept .rwlock (fun b u => b.rwlock.pc u = .blockedReader)
    (fun b => b.rwlock.lock.ReadersMayGo) s
  writers : Condvars.Monitor.Gate.Kept .rwlock (fun b u => b.rwlock.pc u = .blockedWriter)
    (fun b => b.rwlock.lock.WritersMayGo) s

theorem step_kept (hcard : Fintype.card T ≤ usizeMax) {s s' : WithSleepers T M C}
    (h : Kept mutexType s) {label : Condvars.Label T (LockLabel T M C)}
    (hs : (monitor mutexType).step s label = some s') : Kept mutexType s' where
  inner := Condvars.Monitor.step_inner (m := monitor mutexType)
    (fun _ _ _ hI hstep => step_invariant hcard hI hstep) h.inner hs
  mutex := fun m => (tokens_mutex mutexType m).step h.inner (h.mutex m) hs
  cond := fun c => (tokens_cond mutexType c).step h.inner (h.cond c) hs
  readers := (gate_readers mutexType).step h.inner h.readers hs
  writers := (gate_writers mutexType).step h.inner h.writers hs

theorem start_kept (mutexType : M → MutexType) (initialised : C → Bool) :
    Kept mutexType (.start (initial initialised) : WithSleepers T M C) where
  inner := initial_invariant initialised
  mutex := fun m u hu => absurd hu.1 (by simp [Condvars.State.start])
  cond := fun c u hu => absurd hu.1 (by simp [Condvars.State.start])
  readers := fun _ u hu => absurd hu (by simp [Condvars.State.start])
  writers := fun _ u hu => absurd hu (by simp [Condvars.State.start])

theorem waitCv_of_blockedOn {M C : Type*} {pc : SyncPc M C} {m : M} (h : pc.BlockedOn m) :
    pc.waitCv = some (.mutex m) := by
  cases pc with
  | locking m' => exact congrArg (fun m => some (WaitCv.mutex m)) h
  | relocking w depth timedOut restored blocked =>
    obtain ⟨rfl, rfl⟩ := h
    rfl
  | _ => exact absurd h id

theorem waitCv_of_sleepsOn {M C : Type*} {pc : SyncPc M C} {c : C} (h : pc.SleepsOn c) :
    pc.waitCv = some (.cond c) := by
  cases pc with
  | asleep w depth => exact congrArg (fun c => some (WaitCv.cond c)) h
  | _ => exact absurd h id

theorem Kept.notStranded {s : WithSleepers T M C} (h : Kept mutexType s)
    (hquiet : (monitor mutexType).Quiet s) : NotStranded s.inner s.asleep where
  lock := fun t m hasleep hblocked => by
    have hcv : s.inner.waitCv t = some (.mutex m) := by
      unfold waitCv
      rw [waitCv_of_blockedOn hblocked]
      rfl
    have hzero := Condvars.Monitor.Tokens.none_left (h.mutex m) hquiet ⟨hasleep, hcv⟩
    cases hl : s.inner.sync.mutexes m with
    | none => exact absurd hblocked ((h.inner.mutexOk m).freed hl t).1
    | some l =>
      refine ⟨l, rfl, fun hfree => ?_⟩
      simp [SyncSystem.mutexTokens, hl, hfree] at hzero
  rdlock := fun t hasleep hpc => by
    have hclosed := Condvars.Monitor.Gate.closed h.readers hquiet hasleep hpc
    by_cases hwriter : s.inner.rwlock.lock.writerOwner = none
    · exact Or.inr (Nat.pos_of_ne_zero fun hzero => hclosed ⟨hwriter, hzero⟩)
    · exact Or.inl hwriter
  wrlock := fun t hasleep hpc => by
    have hclosed := Condvars.Monitor.Gate.closed h.writers hquiet hasleep hpc
    by_cases hwriter : s.inner.rwlock.lock.writerOwner = none
    · exact Or.inr (Nat.pos_of_ne_zero fun hzero => hclosed ⟨hwriter, hzero⟩)
    · exact Or.inl hwriter
  wait := fun t c hasleep hsleeps => by
    have hcv : s.inner.waitCv t = some (.cond c) := by
      unfold waitCv
      rw [waitCv_of_sleepsOn hsleeps]
      rfl
    exact Condvars.Monitor.Tokens.none_left (h.cond c) hquiet ⟨hasleep, hcv⟩

omit [Fintype T] in
/-- The critical section of a signal that nobody waits for. -/
theorem step_unheard {s s' : SyncSystem T M C} {t : T} {c : C} {l : SyncLabel T M C}
    (hl : l = .signal t c ∨ l = .broadcast t c) (hzero : (s.condState c).waiterCount = 0)
    (hs : s.step mutexType l = some s') :
    s'.mutexes = s.mutexes ∧ s'.conds = s.conds ∧ s'.registering = s.registering ∧
      s'.pc = s.pc ∧ s.pc t = .idle ∧ s.notifies mutexType l = none := by
  have hset : ∀ {w : CondWaitState}, s.conds c = some w →
      Function.update s.conds c (some w) = s.conds := by
    intro w hw
    rw [← hw]
    exact Function.update_eq_self _ _
  have hidle : s.pc t = .idle → Function.update s.pc t .idle = s.pc := by
    intro hpc
    rw [← hpc]
    exact Function.update_eq_self _ _
  cases hl with
  | inl hl =>
    subst hl
    simp only [SyncSystem.step, Option.ite_none_right_eq_some, Option.some.injEq] at hs
    obtain ⟨⟨hpc, _⟩, rfl⟩ := hs
    simp only [SyncSystem.signal, SyncSystem.notifies]
    cases hw : s.conds c with
    | none => exact ⟨rfl, rfl, rfl, hidle hpc, hpc, rfl⟩
    | some w =>
      rw [SyncSystem.condState_of_some hw] at hzero
      have hsignal : w.signal = w := if_pos hzero
      refine ⟨rfl, ?_, rfl, hidle hpc, hpc, if_pos hzero⟩
      change Function.update s.conds c (some w.signal) = s.conds
      rw [hsignal]
      exact hset hw
  | inr hl =>
    subst hl
    simp only [SyncSystem.step, Option.ite_none_right_eq_some, Option.some.injEq] at hs
    obtain ⟨⟨hpc, _⟩, rfl⟩ := hs
    simp only [SyncSystem.broadcast, SyncSystem.notifies]
    cases hw : s.conds c with
    | none => exact ⟨rfl, rfl, rfl, hidle hpc, hpc, rfl⟩
    | some w =>
      rw [SyncSystem.condState_of_some hw] at hzero
      have hbroadcast : w.broadcast = w := if_pos hzero
      refine ⟨rfl, ?_, rfl, hidle hpc, hpc, if_pos hzero⟩
      change Function.update s.conds c (some w.broadcast) = s.conds
      rw [hbroadcast]
      exact hset hw

theorem Kept.pendingLe {s : WithSleepers T M C} (h : Kept mutexType s) (c : C) :
    (s.inner.sync.condState c).pendingWakeups ≤ (s.inner.sync.condState c).waiterCount := by
  have hcounts := h.inner.countsOk c
  rw [hcounts.waiters]
  exact hcounts.pendingLe.trans (Census.count_mono (fun _ => Or.inl) _)

theorem Kept.unheard {s s' : WithSleepers T M C} (h : Kept mutexType s) {t : T} {c : C}
    {l : SyncLabel T M C} (hl : l = .signal t c ∨ l = .broadcast t c)
    (hzero : (s.inner.sync.condState c).waiterCount = 0)
    (hs : (monitor mutexType).step s (.act (.sync l)) = some s') :
    SameButLog s s' ∧ (s'.inner.sync.condState c).pendingWakeups = 0 := by
  have hthread : l.thread = t := by
    cases hl with
    | inl hl => rw [hl]; rfl
    | inr hl => rw [hl]; rfl
  obtain ⟨hawake, hquiet, inner, hinner, rfl⟩ := Condvars.Monitor.acted_of_step hs
  change step mutexType s.inner (.sync l) = some inner at hinner
  simp only [step, Option.ite_none_right_eq_some, Option.map_eq_some_iff] at hinner
  obtain ⟨hidle, sync, hstep, rfl⟩ := hinner
  obtain ⟨hmutexes, hconds, hregistering, hpc, hpc₀, hnotifies⟩ := step_unheard hl hzero hstep
  have hwaits : waitCv { s.inner with sync := sync } l.thread = none := by
    rw [waitCv_of_rwlock_idle (s := { s.inner with sync := sync }) hidle]
    change (sync.pc l.thread).waitCv = none
    rw [hpc, hthread, hpc₀]
    rfl
  have hsilent := Condvars.Monitor.acted_silent (m := monitor mutexType) hawake hquiet hwaits
    hnotifies
  refine ⟨⟨hmutexes, hconds, hregistering, hpc, rfl, hsilent.1, hsilent.2⟩, ?_⟩
  have hstate : sync.condState c = s.inner.sync.condState c :=
    SyncSystem.condState_of_eq (congrFun hconds c)
  change (sync.condState c).pendingWakeups = 0
  rw [hstate]
  have hle := h.pendingLe c
  omega

/-- **No waiter is stranded.**  In every state of every run, what is pending on a condition
variable has a waiter; and once all notifications are delivered and all woken threads have run on,
whoever sleeps has somebody to wait for. -/
theorem no_waiter_stranded (mutexType : M → MutexType) (initialised : C → Bool)
    (ls : List (Condvars.Label ThreadId (LockLabel ThreadId M C))) :
    Lts.Always (monitor mutexType).step
      (fun s => WakeupsAccounted mutexType s ∧
        ((monitor mutexType).Quiet s → NotStranded s.inner s.asleep))
      (.start (initial initialised)) ls := by
  have hkept : Lts.Always (monitor mutexType).step (Kept mutexType)
      (.start (initial initialised) : WithSleepers ThreadId M C) ls :=
    Lts.always_of_invariant (fun _ _ _ h hs => step_kept threadId_card_le h hs)
      (start_kept mutexType initialised)
  refine hkept.imp fun s h => ⟨⟨h.pendingLe, ?_⟩, h.notStranded⟩
  intro t c l s' hl hzero hs
  exact h.unheard hl hzero hs

end LockSystem

end Rlibc.Pthread
