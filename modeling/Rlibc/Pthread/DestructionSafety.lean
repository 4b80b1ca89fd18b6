import Rlibc.Pthread.CondContract
import Rlibc.Pthread.Destruction
import Rlibc.Pthread.MutexContract

/-!
# What the counters of a destroy cover

The counters that `pthread_mutex_destroy` and `pthread_cond_destroy` read cover every position of
a call but two: an unlock that has yet to notify, and a condition wait that has yet to find out
that it does not own its mutex.  The lazy-init lock covers condition variables altogether.
-/

namespace Rlibc.Pthread

namespace SyncSystem

variable {T M C : Type*} [DecidableEq T] [DecidableEq M] [DecidableEq C]
  {mutexType : M → MutexType} {s s' : SyncSystem T M C} {m : M}

/-- A step that does not take the lazy-init lock begins no registration. -/
theorem step_registering {label : SyncLabel T M C} (hs : s.step mutexType label = some s')
    (hinit : label.locksInit = false) (hfree : s.registering = none) : s'.registering = none := by
  have hfinish : ∀ (u : T) (m : M) (call : SyncCall M C) (turn : MutexLockState T × Option Int),
      (s.finishLock u m call turn).registering = none := by
    intro u m call turn
    unfold finishLock
    split <;> exact hfree
  cases label with
  | lock t m =>
    simp only [step, Option.ite_none_right_eq_some, Option.some.injEq] at hs
    obtain ⟨_, rfl⟩ := hs
    unfold lock
    split
    · exact hfree
    · exact hfinish _ _ _ _
  | trylock t m =>
    simp only [step, Option.ite_none_right_eq_some, Option.some.injEq] at hs
    obtain ⟨_, rfl⟩ := hs
    unfold trylock
    split
    · exact hfree
    · exact hfinish _ _ _ _
  | wakeLock t =>
    simp only [step] at hs
    split at hs
    · rw [Option.map_eq_some_iff] at hs
      obtain ⟨l, _, rfl⟩ := hs
      exact hfinish _ _ _ _
    · exact absurd hs (by simp)
  | unlock t m =>
    simp only [step, Option.ite_none_right_eq_some, Option.some.injEq] at hs
    obtain ⟨_, rfl⟩ := hs
    unfold unlock
    split <;> exact hfree
  | destroy t m =>
    simp only [step, Option.ite_none_right_eq_some, Option.some.injEq] at hs
    obtain ⟨_, rfl⟩ := hs
    unfold destroy
    split
    · exact hfree
    · split <;> exact hfree
  | wait t w abstimeOk =>
    simp only [step, Option.ite_none_right_eq_some] at hs
    obtain ⟨_, hs⟩ := hs
    have hearly : w.timed = true ∧ (!abstimeOk) = true := by
      simpa [SyncLabel.locksInit] using hinit
    unfold wait at hs
    rw [if_pos hearly] at hs
    exact Option.some.inj hs ▸ hfree
  | addReference t =>
    simp only [step] at hs
    split at hs
    · unfold addReference at hs
      rw [Option.map_eq_some_iff] at hs
      obtain ⟨l, _, rfl⟩ := hs
      dsimp only
      split
      · rfl
      · exact hfree
    · exact absurd hs (by simp)
  | release t =>
    simp only [step] at hs
    split at hs
    · unfold release at hs
      rw [Option.map_eq_some_iff] at hs
      obtain ⟨l, _, rfl⟩ := hs
      dsimp only
      split
      · rfl
      · exact hfree
    · exact absurd hs (by simp)
  | test t which =>
    simp only [step] at hs
    split at hs
    · rw [← Option.some.inj hs]
      unfold test
      dsimp only
      split <;> rfl
    · exact absurd hs (by simp)
  | wakeWait t expired which =>
    simp only [step] at hs
    split at hs
    · unfold wakeWait at hs
      split_ifs at hs <;> exact Option.some.inj hs ▸ hfree
    · exact absurd hs (by simp)
  | relock t =>
    simp only [step] at hs
    split at hs
    · unfold relock at hs
      rw [Option.map_eq_some_iff] at hs
      obtain ⟨l, _, rfl⟩ := hs
      dsimp only
      split
      · exact hfree
      · split
        · exact hfree
        · split <;> exact hfree
    · exact absurd hs (by simp)
  | unreference t =>
    simp only [step] at hs
    split at hs
    · unfold unreference at hs
      rw [Option.map_eq_some_iff] at hs
      obtain ⟨l, _, rfl⟩ := hs
      exact hfree
    · exact absurd hs (by simp)
  | signal t c => cases hinit
  | broadcast t c => cases hinit

/-- A notification of a condition variable is left by a step under the lazy-init lock. -/
theorem notifies_underInit {label : SyncLabel T M C} (hs : s.step mutexType label = some s')
    (h : (s.notifies mutexType label).any (fun n => n.condvar.underInit) = true) :
    label.locksInit = true ∧ s'.registering = none := by
  cases label with
  | unlock t m =>
    simp only [notifies] at h
    split at h
    · split at h <;> cases h
    · cases h
  | release t =>
    simp only [notifies] at h
    split at h
    · split at h
      · split at h <;> cases h
      · cases h
    · cases h
  | signal t c =>
    simp only [step, Option.ite_none_right_eq_some, Option.some.injEq] at hs
    obtain ⟨⟨_, hfree⟩, rfl⟩ := hs
    refine ⟨rfl, ?_⟩
    unfold signal
    split <;> exact hfree
  | broadcast t c =>
    simp only [step, Option.ite_none_right_eq_some, Option.some.injEq] at hs
    obtain ⟨⟨_, hfree⟩, rfl⟩ := hs
    refine ⟨rfl, ?_⟩
    unfold broadcast
    split <;> exact hfree
  | _ => cases h

variable [Fintype T]

/-- A step on a mutex that is not busy acquires it, or leaves it alone. -/
theorem step_unused (h : MutexOk mutexType s m) {l : MutexLockState T}
    (hl : s.mutexes m = some l) (hbusy : ¬ l.Busy) {label : SyncLabel T M C}
    (hdestroy : label.isDestroy = false) (hs : s.step mutexType label = some s') :
    s'.mutexes m = some l ∨ s'.ownerOf m = some label.thread := by
  obtain ⟨howner, hplaces⟩ := h.unused hl hbusy
  -- a step that sets the lock state of `m₀`
  have hset : ∀ {u : T} {s₁ : SyncSystem T M C} {m₀ : M} {l₁ : MutexLockState T},
      s₁.mutexes = Function.update s.mutexes m₀ (some l₁) →
      (m = m₀ → l₁ = l ∨ l₁.owner = some u) →
      s₁.mutexes m = some l ∨ s₁.ownerOf m = some u := by
    intro u s₁ m₀ l₁ hm hself
    unfold ownerOf
    rw [hm]
    by_cases he : m = m₀
    · rw [he, Function.update_self]
      exact (hself he).imp (fun h₁ => by rw [h₁]) id
    · rw [Function.update_of_ne he]
      exact Or.inl hl
  have hlock : ∀ {u : T} {m₀ : M} {l₀ : MutexLockState T} (call : SyncCall M C) (tryOnly : Bool),
      s.mutexes m₀ = some l₀ →
      (s.finishLock u m₀ call (l₀.lockTurn (mutexType m₀) u tryOnly)).mutexes m = some l ∨
        (s.finishLock u m₀ call (l₀.lockTurn (mutexType m₀) u tryOnly)).ownerOf m = some u := by
    intro u m₀ l₀ call tryOnly hl₀
    have hturn : m = m₀ → (l₀.lockTurn (mutexType m₀) u tryOnly).1 = l ∨
        (l₀.lockTurn (mutexType m₀) u tryOnly).1.owner = some u := by
      intro he
      rw [← he, hl, Option.some.injEq] at hl₀
      refine Or.inr ?_
      rw [← hl₀]
      unfold MutexLockState.lockTurn
      rw [howner]
    unfold finishLock
    split <;> exact hset rfl hturn
  -- the thread stands in a condition wait on another mutex
  have hrefers : ∀ {u : T} {w : WaitCall M C}, (s.pc u).Refers w.mutex → m ≠ w.mutex :=
    fun hr he => (hplaces _).2 (he ▸ hr)
  cases label with
  | lock t m₀ =>
    simp only [step, Option.ite_none_right_eq_some, Option.some.injEq] at hs
    obtain ⟨_, rfl⟩ := hs
    unfold lock
    split
    · exact Or.inl hl
    · rename_i l₀ hl₀
      exact hlock _ _ hl₀
  | trylock t m₀ =>
    simp only [step, Option.ite_none_right_eq_some, Option.some.injEq] at hs
    obtain ⟨_, rfl⟩ := hs
    unfold trylock
    split
    · exact Or.inl hl
    · rename_i l₀ hl₀
      exact hlock _ _ hl₀
  | wakeLock t =>
    simp only [step] at hs
    split at hs
    · rename_i m₀ hpc
      rw [Option.map_eq_some_iff] at hs
      obtain ⟨l₀, _, rfl⟩ := hs
      have hne : m = m₀ → False := fun he => (hplaces t).1 (by rw [hpc]; exact he.symm)
      unfold finishLock
      split <;> exact hset rfl fun he => (hne he).elim
    · exact absurd hs (by simp)
  | unlock t m₀ =>
    simp only [step, Option.ite_none_right_eq_some, Option.some.injEq] at hs
    obtain ⟨_, rfl⟩ := hs
    unfold unlock
    split
    · exact Or.inl hl
    · rename_i l₀ hl₀
      refine hset rfl fun he => Or.inl ?_
      rw [← he, hl, Option.some.injEq] at hl₀
      rw [← hl₀, MutexLockState.unlockInternal, if_pos (by simp [howner])]
  | destroy t m₀ => cases hdestroy
  | wait t w abstimeOk =>
    simp only [step, Option.ite_none_right_eq_some] at hs
    obtain ⟨_, hs⟩ := hs
    unfold wait at hs
    split at hs
    · exact Option.some.inj hs ▸ Or.inl hl
    · split at hs
      · exact absurd hs (by simp)
      · split at hs <;> exact Option.some.inj hs ▸ Or.inl hl
  | addReference t =>
    simp only [step] at hs
    split at hs
    · rename_i w _
      unfold addReference at hs
      rw [Option.map_eq_some_iff] at hs
      obtain ⟨l₀, hl₀, rfl⟩ := hs
      dsimp only
      split
      · exact Or.inl hl
      · refine hset rfl fun he => Or.inl ?_
        rw [← he, hl, Option.some.injEq] at hl₀
        rw [← hl₀, MutexLockState.addCondWaiterReference, if_pos (by simp [howner])]
    · exact absurd hs (by simp)
  | release t =>
    simp only [step] at hs
    split at hs
    · rename_i w depth hpc
      have hne := hrefers (w := w) (by rw [hpc]; rfl)
      unfold release at hs
      rw [Option.map_eq_some_iff] at hs
      obtain ⟨l₀, _, rfl⟩ := hs
      dsimp only
      split
      · exact Or.inl hl
      · exact hset rfl fun he => absurd he hne
    · exact absurd hs (by simp)
  | test t which =>
    simp only [step] at hs
    split at hs
    · rw [← Option.some.inj hs]
      unfold test
      dsimp only
      split <;> exact Or.inl hl
    · exact absurd hs (by simp)
  | wakeWait t expired which =>
    simp only [step] at hs
    split at hs
    · unfold wakeWait at hs
      split_ifs at hs <;> exact Option.some.inj hs ▸ Or.inl hl
    · exact absurd hs (by simp)
  | relock t =>
    simp only [step] at hs
    split at hs
    · rename_i w depth timedOut restored blocked hpc
      have hne := hrefers (w := w) (by rw [hpc]; rfl)
      unfold relock at hs
      rw [Option.map_eq_some_iff] at hs
      obtain ⟨l₀, _, rfl⟩ := hs
      dsimp only
      split
      · exact hset rfl fun he => absurd he hne
      · split
        · exact hset rfl fun he => absurd he hne
        · split <;> exact hset rfl fun he => absurd he hne
    · exact absurd hs (by simp)
  | unreference t =>
    simp only [step] at hs
    split at hs
    · rename_i w depth code hpc
      have hne := hrefers (w := w) (by rw [hpc]; rfl)
      unfold unreference at hs
      rw [Option.map_eq_some_iff] at hs
      obtain ⟨l₀, _, rfl⟩ := hs
      exact hset rfl fun he => absurd he hne
    · exact absurd hs (by simp)
  | signal t c =>
    simp only [step, Option.ite_none_right_eq_some, Option.some.injEq] at hs
    obtain ⟨_, rfl⟩ := hs
    unfold signal
    split <;> exact Or.inl hl
  | broadcast t c =>
    simp only [step, Option.ite_none_right_eq_some, Option.some.injEq] at hs
    obtain ⟨_, rfl⟩ := hs
    unfold broadcast
    split <;> exact Or.inl hl

omit [DecidableEq M] in
/-- Without a waiter and without a registration, a condition variable gets no waiter. -/
theorem condMoves_unused {t : T} {c : C} (h : CountsOk s c) (hmove : CondMoves t c s s')
    (hfree : s'.registering = none) (hzero : (s.condState c).waiterCount = 0) : (s'.condState c).waiterCount = 0 := by
  have hnone := (Census.count_eq_zero_iff _ _).mp (h.waiters.symm.trans hzero)
  cases hmove with
  | frame p' hpc hsleeps hregisters hholder' hcond hhistory => rwa [hcond]
  | registers p' hpc hfrom hp' hfree₀ hholder' hcond hhistory =>
    exact absurd (hholder'.symm.trans hfree) (by simp)
  | unregisters p' hpc hfrom hp' hholder' hcond hhistory => exact absurd (Or.inr hfrom) (hnone t)
  | sleeps p' hpc hfrom hp' hholder' hpending hcond hhistory =>
    exact absurd (Or.inr hfrom) (hnone t)
  | begins p' which hpc hfrom hp' hholder' hsome hcond hhistory =>
    rw [hcond]
    change (s.condState c).waiterCount - 1 = 0
    omega
  | wakes p' which hpc hfrom hp' hholder' hsome hcond hhistory =>
    exact absurd (Or.inl hfrom) (hnone t)
  | expires p' hpc hfrom hp' hholder' hpending hcond hhistory =>
    exact absurd (Or.inl hfrom) (hnone t)
  | signals hpc hfree₀ hholder' hcond hhistory => rw [hcond, CondWaitState.signal, if_pos hzero, hzero]
  | broadcasts hpc hfree₀ hholder' hcond hhistory =>
    rw [hcond, CondWaitState.broadcast, if_pos hzero, hzero]

end SyncSystem

namespace DestroySystem

variable {T M C : Type*} [DecidableEq T] [DecidableEq M] [DecidableEq C] [Fintype T]
  {mutexType : M → MutexType} {s s' : DestroySystem T M C}

structure Invariant (mutexType : M → MutexType) (s : DestroySystem T M C) : Prop where
  mutexOk : ∀ m, s.sync.MutexOk mutexType m
  holderOk : s.sync.HolderOk
  countsOk : ∀ c, s.sync.CountsOk c
  guard : s.initGuard ≠ none → s.sync.registering = none
  notifyingCond : ∀ t c all, s.notifying t = some ⟨.cond c, all⟩ → s.initGuard = some t
  freeingIdle : ∀ t box, s.freeing t = some box → s.sync.pc t = .idle ∧ s.notifying t = none
  freeingMutex : ∀ t m, s.freeing t = some (.mutex m) → s.acquirer m = some t ∧
    ∃ l, s.sync.mutexes m = some l ∧ ¬ l.Busy
  freeingCond : ∀ t c, s.freeing t = some (.cond c) → s.initGuard = some t ∧
    (s.sync.condState c).waiterCount = 0

theorem initial_invariant (initialised : C → Bool) :
    Invariant mutexType (initial initialised : DestroySystem T M C) where
  mutexOk := SyncSystem.initial_mutexOk initialised
  holderOk := SyncSystem.initial_holderOk initialised
  countsOk := fun c =>
    ⟨(SyncSystem.initial_condOk initialised c).waiters,
      (SyncSystem.initial_condOk initialised c).pendingLe⟩
  guard := fun h => absurd rfl h
  notifyingCond := fun _ _ _ h => absurd h (by simp [initial])
  freeingIdle := fun _ _ h => absurd h (by simp [initial])
  freeingMutex := fun _ _ h => absurd h (by simp [initial])
  freeingCond := fun _ _ h => absurd h (by simp [initial])

/-! ## Steps inside the calls -/

/-- An idle thread returns at once. -/
theorem Invariant.returned (h : Invariant mutexType s) {t : T} (hpc : s.sync.pc t = .idle)
    (call : SyncCall M C) {code : Int} (hcode : code ≠ 0) :
    Invariant mutexType { s with sync := s.sync.return_ t call code } := by
  have hsame : (s.sync.return_ t call code).pc = s.sync.pc := by
    change Function.update s.sync.pc t .idle = _
    rw [← hpc]
    exact Function.update_eq_self _ _
  have hplace : ∀ m, ¬ (s.sync.pc t).BlockedOn m ∧ ¬ (s.sync.pc t).Refers m := by
    intro m
    rw [hpc]
    exact ⟨id, id⟩
  refine ⟨?_, ?_, fun c => ?_, h.guard, h.notifyingCond, fun u box hu => ?_, h.freeingMutex,
    h.freeingCond⟩
  · exact SyncSystem.mutexOk_return h.mutexOk rfl rfl rfl hplace (Or.inl hcode)
  · intro c u
    change ((s.sync.return_ t call code).pc u).RegistersOn c ↔ _
    rw [hsame]
    exact h.holderOk c u
  · have hcounts := h.countsOk c
    refine ⟨?_, ?_⟩
    · change _ = Census.count _ (s.sync.return_ t call code).pc
      rw [hsame]
      exact hcounts.waiters
    · change _ ≤ Census.count _ (s.sync.return_ t call code).pc
      rw [hsame]
      exact hcounts.pendingLe
  · change (s.sync.return_ t call code).pc u = .idle ∧ _
    rw [hsame]
    exact h.freeingIdle u box hu

theorem Invariant.advance (hcard : Fintype.card T ≤ usizeMax) (h : Invariant mutexType s)
    {l : SyncLabel T M C} {sync : SyncSystem T M C} (hdestroy : l.isDestroy = false)
    (hfreeing : s.freeing l.thread = none) (hinit : l.locksInit = true → s.initGuard = none)
    (hs : s.sync.step mutexType l = some sync)
    (hposix : ∀ t m, s.freeing t = some (.mutex m) → ¬ Acquires s.sync sync l.thread m) :
    Invariant mutexType (s.advance mutexType l sync) := by
  have hmoves := SyncSystem.step_condMoves h.holderOk hs
  -- while a destroy holds the lazy-init lock, the step leaves that lock alone
  have hguard : ∀ {u : T}, s.initGuard = some u →
      l.locksInit = false ∧ (s.advance mutexType l sync).initGuard = some u := by
    intro u hu
    have hlocks : l.locksInit = false := by
      cases hl : l.locksInit with
      | false => rfl
      | true => exact absurd ((hinit hl).symm.trans hu) (by simp)
    refine ⟨hlocks, (if_neg fun hany => ?_).trans hu⟩
    rw [(SyncSystem.notifies_underInit hs hany).1] at hlocks
    cases hlocks
  refine ⟨SyncSystem.step_mutexOk hcard h.mutexOk hs,
    SyncSystem.step_holderOk h.holderOk hmoves,
    fun c => SyncSystem.step_countsOk hcard (h.countsOk c) h.holderOk (hmoves c),
    fun hsome => ?_, fun u c all hn => ?_, fun u box hu => ?_, fun u m hu => ?_, fun u c hu => ?_⟩
  · by_cases hany : (s.sync.notifies mutexType l).any (fun n => n.condvar.underInit) = true
    · exact (SyncSystem.notifies_underInit hs hany).2
    · have hbefore : s.initGuard ≠ none := fun he => hsome ((if_neg hany).trans he)
      obtain ⟨u, hu⟩ := Option.ne_none_iff_exists'.mp hbefore
      exact SyncSystem.step_registering hs (hguard hu).1 (h.guard hbefore)
  · by_cases hthread : u = l.thread
    · subst hthread
      change Function.update s.notifying l.thread (s.sync.notifies mutexType l) l.thread = _ at hn
      rw [Function.update_self] at hn
      exact if_pos (by rw [hn]; rfl)
    · change Function.update s.notifying l.thread _ u = _ at hn
      rw [Function.update_of_ne hthread] at hn
      exact (hguard (h.notifyingCond u c all hn)).2
  · have hne : u ≠ l.thread := by
      intro he
      rw [he] at hu
      exact absurd (hu.symm.trans hfreeing) (by simp)
    change sync.pc u = .idle ∧ Function.update s.notifying l.thread _ u = none
    rw [SyncSystem.step_pc hs hne, Function.update_of_ne hne]
    exact h.freeingIdle u box hu
  · obtain ⟨hacquirer, x, hx, hbusy⟩ := h.freeingMutex u m hu
    have hacquires := hposix u m hu
    refine ⟨(if_neg hacquires).trans hacquirer, x, ?_, hbusy⟩
    refine (SyncSystem.step_unused (h.mutexOk m) hx hbusy hdestroy hs).resolve_right fun howner => ?_
    -- the mutex had no owner, so that its new owner acquires it
    refine hacquires ⟨howner, ?_⟩
    have hfree := ((h.mutexOk m).unused hx hbusy).1
    simp [SyncSystem.ownerOf, hx, hfree]
  · obtain ⟨hsome, hzero⟩ := h.freeingCond u c hu
    obtain ⟨hlocks, hsome'⟩ := hguard hsome
    refine ⟨hsome', ?_⟩
    have hregistering := SyncSystem.step_registering hs hlocks (h.guard (by rw [hsome]; simp))
    exact SyncSystem.condMoves_unused (h.countsOk c) (hmoves c) hregistering hzero

theorem Invariant.notified (h : Invariant mutexType s) {t : T} {n : Notification M C}
    (hn : s.notifying t = some n) : Invariant mutexType (s.notified t n) := by
  have hguard : ∀ {u : T}, u ≠ t → s.initGuard = some u →
      (s.notified t n).initGuard = some u := by
    intro u hu hsome
    refine (if_neg fun hcond => ?_).trans hsome
    obtain ⟨v, all⟩ := n
    cases v with
    | cond c => exact hu (Option.some.inj (hsome.symm.trans (h.notifyingCond t c all hn)))
    | mutex m => cases hcond
    | rwlock => cases hcond
  have hfreeing : ∀ {u : T} {box : StateBox M C}, s.freeing u = some box → u ≠ t := by
    intro u box hu he
    rw [he] at hu
    exact absurd (hn.symm.trans (h.freeingIdle t box hu).2) (by simp)
  refine ⟨h.mutexOk, h.holderOk, h.countsOk, fun hsome => ?_, fun u c all hu => ?_,
    fun u box hu => ⟨(h.freeingIdle u box hu).1, ?_⟩, h.freeingMutex, fun u c hu => ?_⟩
  · apply h.guard
    intro hnone
    apply hsome
    change (if _ then none else s.initGuard) = none
    rw [hnone, ite_self]
  · change Function.update s.notifying t none u = _ at hu
    by_cases he : u = t
    · rw [he, Function.update_self] at hu
      cases hu
    · rw [Function.update_of_ne he] at hu
      exact hguard he (h.notifyingCond u c all hu)
  · change Function.update s.notifying t none u = none
    rw [Function.update_of_ne (hfreeing hu)]
    exact (h.freeingIdle u box hu).2
  · have hcond := h.freeingCond u c hu
    exact ⟨hguard (hfreeing hu) hcond.1, hcond.2⟩

/-! ## Destroying -/

omit [DecidableEq M] [DecidableEq C] [Fintype T] in
theorem freeing_update {t u : T} {box : StateBox M C} {o : Option (StateBox M C)}
    (h : Function.update s.freeing t o u = some box) :
    u = t ∧ o = some box ∨ u ≠ t ∧ s.freeing u = some box := by
  by_cases he : u = t
  · rw [he, Function.update_self] at h
    exact Or.inl ⟨he, h⟩
  · rw [Function.update_of_ne he] at h
    exact Or.inr ⟨he, h⟩

theorem Invariant.destroyMutex (h : Invariant mutexType s) {t : T} (hidle : s.Idle t) {m : M}
    (hacquirer : s.acquirer m = some t) : Invariant mutexType (s.destroyMutex t m) := by
  unfold DestroySystem.destroyMutex
  split
  · exact h.returned hidle.1 _ (by decide)
  · rename_i l hl
    split
    · exact h.returned hidle.1 _ (by decide)
    · rename_i hbusy
      refine ⟨h.mutexOk, h.holderOk, h.countsOk, h.guard, h.notifyingCond, fun u box hu => ?_,
        fun u m' hu => ?_, fun u c hu => ?_⟩
      · rcases freeing_update hu with ⟨rfl, _⟩ | ⟨_, hu⟩
        · exact ⟨hidle.1, hidle.2.1⟩
        · exact h.freeingIdle u box hu
      · rcases freeing_update hu with ⟨rfl, hbox⟩ | ⟨_, hu⟩
        · cases hbox
          exact ⟨hacquirer, l, hl, hbusy⟩
        · exact h.freeingMutex u m' hu
      · rcases freeing_update hu with ⟨_, hbox⟩ | ⟨_, hu⟩
        · cases hbox
        · exact h.freeingCond u c hu

theorem Invariant.destroyCond (h : Invariant mutexType s) {t : T} (hidle : s.Idle t)
    (hinit : s.InitFree) (c : C) : Invariant mutexType (s.destroyCond t c) := by
  unfold DestroySystem.destroyCond
  split
  · exact ⟨h.mutexOk, h.holderOk, h.countsOk, h.guard, h.notifyingCond, h.freeingIdle,
      h.freeingMutex, h.freeingCond⟩
  · split
    · exact ⟨h.mutexOk, h.holderOk, h.countsOk, h.guard, h.notifyingCond, h.freeingIdle,
        h.freeingMutex, h.freeingCond⟩
    · rename_i w hw
      split
      · exact ⟨h.mutexOk, h.holderOk, h.countsOk, h.guard, h.notifyingCond, h.freeingIdle,
          h.freeingMutex, h.freeingCond⟩
      · rename_i hzero
        -- nobody has been holding the lazy-init lock
        have hnobody : ∀ {u : T}, s.initGuard ≠ some u := by simp [hinit.1]
        refine ⟨h.mutexOk, h.holderOk, h.countsOk, fun _ => hinit.2,
          fun u c' all hu => absurd (h.notifyingCond u c' all hu) hnobody, fun u box hu => ?_,
          fun u m hu => ?_, fun u c' hu => ?_⟩
        · rcases freeing_update hu with ⟨rfl, _⟩ | ⟨_, hu⟩
          · exact ⟨hidle.1, hidle.2.1⟩
          · exact h.freeingIdle u box hu
        · rcases freeing_update hu with ⟨_, hbox⟩ | ⟨_, hu⟩
          · cases hbox
          · exact h.freeingMutex u m hu
        · rcases freeing_update hu with ⟨rfl, hbox⟩ | ⟨_, hu⟩
          · cases hbox
            refine ⟨rfl, ?_⟩
            change (s.sync.condState c).waiterCount = 0
            rw [SyncSystem.condState_of_some hw]
            exact not_not.mp hzero
          · exact absurd (h.freeingCond u c' hu).1 hnobody

/-- The mutex state that is freed is not busy, so that it goes as in an undivided destroy. -/
theorem Invariant.freedMutex (h : Invariant mutexType s) {t : T} {m : M}
    (hfreeing : s.freeing t = some (.mutex m)) :
    Invariant mutexType (s.freed t (.mutex m)) := by
  obtain ⟨hacquirer, l, hl, hbusy⟩ := h.freeingMutex t m hfreeing
  have hidle := h.freeingIdle t _ hfreeing
  have hdestroy : s.sync.destroy t m = (s.freed t (.mutex m)).sync := by
    unfold SyncSystem.destroy
    rw [hl]
    exact if_neg hbusy
  have hpc : (s.freed t (.mutex m)).sync.pc = s.sync.pc := by
    change Function.update s.sync.pc t .idle = _
    rw [← hidle.1]
    exact Function.update_eq_self _ _
  have hother : ∀ {u : T} {box : StateBox M C}, (s.freed t (.mutex m)).freeing u = some box →
      u ≠ t ∧ s.freeing u = some box := fun hu =>
    (freeing_update hu).resolve_left fun hnone => absurd hnone.2 (by simp)
  refine ⟨?_, ?_, fun c => ?_, h.guard, h.notifyingCond, fun u box hu => ?_, fun u m' hu => ?_,
    fun u c hu => h.freeingCond u c (hother hu).2⟩
  · rw [← hdestroy]
    exact SyncSystem.destroy_mutexOk h.mutexOk hidle.1 m
  · intro c u
    rw [hpc]
    exact h.holderOk c u
  · have hcounts := h.countsOk c
    exact ⟨by rw [hpc]; exact hcounts.waiters, by rw [hpc]; exact hcounts.pendingLe⟩
  · rw [hpc]
    exact h.freeingIdle u box (hother hu).2
  · obtain ⟨hne, hu'⟩ := hother hu
    obtain ⟨hacquirer', hstate⟩ := h.freeingMutex u m' hu'
    refine ⟨hacquirer', ?_⟩
    -- one thread at most has acquired `m` last
    have hm : m' ≠ m := by
      intro he
      rw [he, hacquirer, Option.some.injEq] at hacquirer'
      exact hne hacquirer'.symm
    change ∃ l, Function.update s.sync.mutexes m none m' = some l ∧ _
    rw [Function.update_of_ne hm]
    exact hstate

theorem Invariant.freedCond (h : Invariant mutexType s) {t : T} {c : C}
    (hfreeing : s.freeing t = some (.cond c)) : Invariant mutexType (s.freed t (.cond c)) := by
  obtain ⟨hguard, hzero⟩ := h.freeingCond t c hfreeing
  have hidle := h.freeingIdle t _ hfreeing
  -- the lazy-init lock is held by `t` alone
  have honly : ∀ {u : T}, s.initGuard = some u → u = t := fun hu =>
    Option.some.inj (hu.symm.trans hguard)
  have hother : ∀ {u : T} {box : StateBox M C}, (s.freed t (.cond c)).freeing u = some box →
      u ≠ t ∧ s.freeing u = some box := fun hu =>
    (freeing_update hu).resolve_left fun hnone => absurd hnone.2 (by simp)
  refine ⟨fun m => ?_, h.holderOk, fun c' => ?_, fun hsome => absurd rfl hsome,
    fun u c' all hu => ?_, fun u box hu => h.freeingIdle u box (hother hu).2,
    fun u m hu => h.freeingMutex u m (hother hu).2, fun u c' hu => ?_⟩
  · have hm := h.mutexOk m
    exact ⟨hm.lockOk, hm.waiters, hm.references, hm.freed, hm.pcs, hm.levels⟩
  · have hcounts := h.countsOk c'
    by_cases hc : c' = c
    · subst hc
      have hnull : (s.freed t (.cond c')).sync.condState c' = .default := by
        change (Function.update s.sync.conds c' none c').getD .default = _
        rw [Function.update_self]
        rfl
      refine ⟨?_, ?_⟩
      · rw [hnull]
        exact (hcounts.waiters.symm.trans hzero).symm
      · rw [hnull]
        exact Nat.zero_le _
    · have hsame : (s.freed t (.cond c)).sync.condState c' = s.sync.condState c' :=
        SyncSystem.condState_of_eq (Function.update_of_ne hc _ _)
      exact ⟨by rw [hsame]; exact hcounts.waiters, by rw [hsame]; exact hcounts.pendingLe⟩
  · have he := honly (h.notifyingCond u c' all hu)
    rw [he] at hu
    exact absurd (hu.symm.trans hidle.2) (by simp)
  · obtain ⟨hne, hu'⟩ := hother hu
    exact absurd (honly (h.freeingCond u c' hu').1) hne

theorem step_invariant (hcard : Fintype.card T ≤ usizeMax) (h : Invariant mutexType s)
    {label : DestroyLabel T M C} (hposix : Posix mutexType s label)
    (hs : s.step mutexType label = some s') : Invariant mutexType s' := by
  cases label with
  | call l =>
    simp only [step, call, Option.ite_none_left_eq_some, not_or, not_and, ne_eq, not_not,
      Bool.not_eq_true] at hs
    obtain ⟨⟨hdestroy, _, hfreeing⟩, hinit, hs⟩ := hs
    split at hs
    · simp only [Option.ite_none_right_eq_some, Option.some.injEq] at hs
      obtain ⟨hidle, rfl⟩ := hs
      exact h.returned hidle.1 _ (by decide)
    · rw [Option.map_eq_some_iff] at hs
      obtain ⟨sync, hsync, rfl⟩ := hs
      exact h.advance hcard hdestroy hfreeing hinit hsync (hposix sync hsync)
  | notify t =>
    simp only [step, Option.map_eq_some_iff] at hs
    obtain ⟨n, hn, rfl⟩ := hs
    exact h.notified hn
  | destroyMutex t m =>
    simp only [step, Option.ite_none_right_eq_some, Option.some.injEq] at hs
    obtain ⟨hidle, rfl⟩ := hs
    exact h.destroyMutex hidle hposix.1
  | destroyCond t c =>
    simp only [step, Option.ite_none_right_eq_some, Option.some.injEq] at hs
    obtain ⟨hidle, rfl⟩ := hs
    exact h.destroyCond hidle.1 hidle.2 c
  | free t =>
    simp only [step, Option.map_eq_some_iff] at hs
    obtain ⟨box, hbox, rfl⟩ := hs
    cases box with
    | mutex m => exact h.freedMutex hbox
    | cond c => exact h.freedCond hbox

/-! ## What is used after it is freed -/

/-- The lazy-init lock and `waiter_count` cover every use of a condition variable. -/
theorem Invariant.cond_unused (h : Invariant mutexType s) {t u : T} {c : C}
    (hfreeing : s.freeing t = some (.cond c)) (hu : u ≠ t) : ¬ s.Uses u (.cond c) := by
  obtain ⟨hguard, hzero⟩ := h.freeingCond t c hfreeing
  have honly : s.initGuard ≠ some u := by
    rw [hguard]
    simp [Ne.symm hu]
  rintro (hwaits | ⟨all, hnotifying⟩ | hfreeing')
  · exact (Census.count_eq_zero_iff _ _).mp ((h.countsOk c).waiters.symm.trans hzero) u hwaits
  · exact honly (h.notifyingCond u c all hnotifying)
  · exact honly (h.freeingCond u c hfreeing').1

theorem Invariant.freesUnused_iff (h : Invariant mutexType s) (label : DestroyLabel T M C) :
    s.FreesUnused label ↔ s.NobodyLate label := by
  cases label with
  | free t =>
    refine ⟨fun hfrees m hfreeing u hu => ?_, fun hlate box hfreeing u hu => ?_⟩
    · have hunused := hfrees _ hfreeing u hu
      refine ⟨fun all hn => ?_, fun w hpc hw => ?_⟩
      · exact hunused (Or.inr (Or.inr (Or.inr (Or.inl ⟨all, hn⟩))))
      · exact hunused (Or.inr (Or.inr (Or.inl ⟨w, hpc, hw⟩)))
    · cases box with
      | cond c => exact h.cond_unused hfreeing hu
      | mutex m =>
        obtain ⟨hacquirer, l, hl, hbusy⟩ := h.freeingMutex t m hfreeing
        have hplaces := ((h.mutexOk m).unused hl hbusy).2 u
        have hnotLate := hlate m hfreeing u hu
        rintro (hblocked | hrefers | ⟨w, hpc, hw⟩ | ⟨all, hn⟩ | hfreeing')
        · exact hplaces.1 hblocked
        · exact hplaces.2 hrefers
        · exact hnotLate.2 w hpc hw
        · exact hnotLate.1 all hn
        · have hacquirer' := (h.freeingMutex u m hfreeing').1
          exact hu (Option.some.inj (hacquirer'.symm.trans hacquirer))
  | _ => exact Iff.rfl

/-- **Nothing is used after it is freed, in exactly the runs in which nobody is late.**  The runs
are those that destroy a mutex as POSIX allows it. -/
theorem freesUnused_iff_nobodyLate (mutexType : M → MutexType) (initialised : C → Bool)
    (ls : List (DestroyLabel ThreadId M C))
    (hposix : Lts.EachStep (step mutexType) (Posix mutexType) (initial initialised) ls) :
    Lts.EachStep (step mutexType) FreesUnused (initial initialised) ls ↔
      Lts.EachStep (step mutexType) NobodyLate (initial initialised) ls :=
  Lts.eachStep_congr (P := Invariant mutexType)
    (fun _ _ _ h hgate hs => step_invariant threadId_card_le h hgate hs)
    (fun _ label h => h.freesUnused_iff label) (initial_invariant initialised) hposix

omit [Fintype T] in
theorem posix_call (l : SyncLabel T M C) (hfreeing : ∀ t, s.freeing t = none) :
    Posix mutexType s (.call l) := by
  intro sync _ t m h
  rw [hfreeing t] at h
  cases h

def first : ThreadId := ⟨⟨1, by decide⟩, by decide⟩

def second : ThreadId := ⟨⟨2, by decide⟩, by decide⟩

/-- One thread locks and unlocks a mutex, and behind it another one does so and destroys it. -/
def lockAndDestroy (earlier t : ThreadId) : List (DestroyLabel ThreadId Unit Unit) :=
  [.call (.lock earlier ()), .call (.unlock earlier ()), .notify earlier, .call (.lock t ()),
    .call (.unlock t ()), .notify t, .destroyMutex t (), .free t]

theorem lockAndDestroy_unused :
    Lts.EachStep (step fun _ => .normal) FreesUnused
      (initial fun _ => false : DestroySystem ThreadId Unit Unit) (lockAndDestroy second first) := by
  refine (freesUnused_iff_nobodyLate _ _ _ ?_).mpr ?_
  · refine (Lts.eachStep_cons rfl).mpr ⟨posix_call _ fun _ => rfl, ?_⟩
    refine (Lts.eachStep_cons rfl).mpr ⟨posix_call _ fun _ => rfl, ?_⟩
    refine (Lts.eachStep_cons rfl).mpr ⟨trivial, ?_⟩
    refine (Lts.eachStep_cons rfl).mpr ⟨posix_call _ fun _ => rfl, ?_⟩
    refine (Lts.eachStep_cons rfl).mpr ⟨posix_call _ fun _ => rfl, ?_⟩
    refine (Lts.eachStep_cons rfl).mpr ⟨trivial, ?_⟩
    refine (Lts.eachStep_cons rfl).mpr ⟨⟨rfl, by decide⟩, ?_⟩
    exact (Lts.eachStep_cons rfl).mpr ⟨trivial, trivial⟩
  · refine (Lts.eachStep_cons rfl).mpr ⟨trivial, ?_⟩
    refine (Lts.eachStep_cons rfl).mpr ⟨trivial, ?_⟩
    refine (Lts.eachStep_cons rfl).mpr ⟨trivial, ?_⟩
    refine (Lts.eachStep_cons rfl).mpr ⟨trivial, ?_⟩
    refine (Lts.eachStep_cons rfl).mpr ⟨trivial, ?_⟩
    refine (Lts.eachStep_cons rfl).mpr ⟨trivial, ?_⟩
    refine (Lts.eachStep_cons rfl).mpr ⟨trivial, ?_⟩
    refine (Lts.eachStep_cons rfl).mpr ⟨fun m _ u hu => ⟨fun all hn => ?_, fun w hpc => ?_⟩, trivial⟩
    · -- `u` has notified, or has done nothing
      have hnone : Function.update (Function.update (Function.update
          (Function.update (Function.update (Function.update
            (fun _ => (none : Option (Notification Unit Unit))) second none)
              second (some ⟨.mutex (), false⟩)) second none) first none)
            first (some ⟨.mutex (), false⟩)) first none u = none := by
        rw [Function.update_of_ne hu, Function.update_of_ne hu, Function.update_of_ne hu]
        by_cases hsecond : u = second
        · rw [hsecond, Function.update_self]
        · rw [Function.update_of_ne hsecond, Function.update_of_ne hsecond,
            Function.update_of_ne hsecond]
      exact absurd (hn.symm.trans hnone) (by simp)
    · have hidle : Function.update (Function.update (Function.update (Function.update
          (fun _ => (.idle : SyncPc Unit Unit)) second .idle) second .idle) first .idle)
            first .idle u = .idle := by
        rw [Function.update_of_ne hu, Function.update_of_ne hu]
        by_cases hsecond : u = second
        · rw [hsecond, Function.update_self]
        · rw [Function.update_of_ne hsecond, Function.update_of_ne hsecond]
      exact absurd (hpc.symm.trans hidle) (by simp)

/-- The second thread destroys the mutex before the first one has notified. -/
def lateNotification : List (DestroyLabel ThreadId Unit Unit) :=
  [.call (.lock first ()), .call (.unlock first ()), .call (.lock second ()),
    .call (.unlock second ()), .notify second, .destroyMutex second (), .free second]

theorem lateNotification_used :
    ¬ ∀ ls : List (DestroyLabel ThreadId Unit Unit),
      Lts.EachStep (step fun _ => .normal) (Posix fun _ => .normal) (initial fun _ => false) ls →
      Lts.EachStep (step fun _ => .normal) FreesUnused (initial fun _ => false) ls := by
  intro hall
  have hposix : Lts.EachStep (step fun _ => .normal) (Posix fun _ => .normal)
      (initial fun _ => false) lateNotification := by
    refine (Lts.eachStep_cons rfl).mpr ⟨posix_call _ fun _ => rfl, ?_⟩
    refine (Lts.eachStep_cons rfl).mpr ⟨posix_call _ fun _ => rfl, ?_⟩
    refine (Lts.eachStep_cons rfl).mpr ⟨posix_call _ fun _ => rfl, ?_⟩
    refine (Lts.eachStep_cons rfl).mpr ⟨posix_call _ fun _ => rfl, ?_⟩
    refine (Lts.eachStep_cons rfl).mpr ⟨trivial, ?_⟩
    refine (Lts.eachStep_cons rfl).mpr ⟨⟨rfl, by decide⟩, ?_⟩
    exact (Lts.eachStep_cons rfl).mpr ⟨trivial, trivial⟩
  have hlast := hall lateNotification hposix
  iterate 6 replace hlast := ((Lts.eachStep_cons rfl).mp hlast).2
  have hfree := ((Lts.eachStep_cons rfl).mp hlast).1
  exact hfree (.mutex ()) rfl first (by decide)
    (Or.inr (Or.inr (Or.inr (Or.inl ⟨false, rfl⟩))))

end DestroySystem

end Rlibc.Pthread
