import Rlibc.Pthread.MutexSafety

/-!
# The contract of a mutex

`MutexSafe` is what the callers of a mutex rely on, in every state of every run.  Locks and
unlocks are counted over the calls that have returned.  The recursion depth of the code saturates
at `usize::MAX`, so that the two clauses which count locks speak about runs in which the thread
never had more locks outstanding.
-/

namespace Rlibc.Pthread

/-- The place and the saved depth of a condition wait that has its reference. -/
def SyncPc.saved {M C : Type*} : SyncPc M C → Option (WaitCall M C × Nat)
  | .releasing w depth | .testing w depth | .asleep w depth | .relocking w depth _ _ _
  | .unreferencing w depth _ => some (w, depth)
  | _ => none

/-- The thread is inside a condition wait on `m`, without the mutex. -/
def SyncPc.WithoutMutex {M C : Type*} (m : M) : SyncPc M C → Prop
  | .testing w _ | .asleep w _ => w.mutex = m
  | .relocking w _ _ restored _ => w.mutex = m ∧ restored = 0
  | _ => False

namespace SyncSystem

variable {T M C : Type*} [DecidableEq T] [DecidableEq M] [DecidableEq C]

/-- `t` is between a successful acquisition of `m` and its release. -/
def Between (s : SyncSystem T M C) (t : T) (m : M) : Prop :=
  unlocks s.returns t m < locks s.returns t m ∧ ¬ (s.pc t).WithoutMutex m

/-- What one step leaves alone, and what it needs in order to return a success. -/
structure StepSafe (s : SyncSystem T M C) (label : SyncLabel T M C) (s' : SyncSystem T M C) :
    Prop where
  /-- Another thread's step leaves an owner and its depth alone. -/
  owned : ∀ m l u, s.mutexes m = some l → l.owner = some u → u ≠ label.thread →
    ∃ l', s'.mutexes m = some l' ∧ l'.owner = some u ∧ l'.recursionDepth = l.recursionDepth
  unlockOther : ∀ t m l, label = .unlock t m → s.mutexes m = some l → l.owner ≠ some t →
    s'.mutexes = s.mutexes ∧ s'.returns = ⟨t, .unlock m, EPERM⟩ :: s.returns
  destroyFree : ∀ t m, label = .destroy t m → s'.returns = ⟨t, .destroy m, 0⟩ :: s.returns →
    ∃ l, s.mutexes m = some l ∧ l.owner = none ∧
      ∀ u, ¬ (s.pc u).BlockedOn m ∧ ¬ (s.pc u).Refers m
  waitKeepsDepth : ∀ t p, (s.pc t).saved = some p → (s'.pc t).saved = some p ∨ s'.pc t = .idle
  waitReturns : ∀ t w w' depth code, (s.pc t).saved = some (w', depth) →
    s'.returns = ⟨t, .wait w, code⟩ :: s.returns →
    w' = w ∧ (code = 0 ∨ code = ETIMEDOUT) ∧
      ∃ l, s'.mutexes w.mutex = some l ∧ l.owner = some t ∧ l.recursionDepth = depth

variable [Fintype T]

structure MutexSafe (mutexType : M → MutexType) (s : SyncSystem T M C) : Prop where
  ownerDepth : ∀ m l, s.mutexes m = some l → (l.owner = none ↔ l.recursionDepth = 0)
  exclusive : ∀ m t t', NeverSaturated s.returns t m → NeverSaturated s.returns t' m →
    s.Between t m → s.Between t' m → t = t'
  /-- The depth counts the owner's locks, unless its condition wait is restoring them. -/
  outstanding : ∀ m l t, s.mutexes m = some l → l.owner = some t →
    (s.pc t).released m = none → NeverSaturated s.returns t m →
    locks s.returns t m = unlocks s.returns t m + l.recursionDepth
  /-- What a condition wait will restore are the locks of its thread. -/
  restores : ∀ m t depth, (s.pc t).released m = some depth → NeverSaturated s.returns t m →
    locks s.returns t m = unlocks s.returns t m + depth
  waiters : ∀ m l, s.mutexes m = some l →
    l.waiterCount = Census.count (SyncPc.BlockedOn m) s.pc
  condWaiters : ∀ m l, s.mutexes m = some l →
    l.condWaiterCount = Census.count (SyncPc.Refers m) s.pc
  /-- A condition wait saves the depth at which its thread owns the mutex. -/
  saves : ∀ t w depth, s.pc t = .releasing w depth →
    ∃ l, s.mutexes w.mutex = some l ∧ l.owner = some t ∧ l.recursionDepth = depth
  steps : ∀ label s', s.step mutexType label = some s' → StepSafe s label s'

variable {mutexType : M → MutexType} {s s' : SyncSystem T M C} {m : M} {t : T}

/-! ## Owners -/

/-- How the lock state of one mutex can change in a step of `t`. -/
inductive Evolves (t : T) : Option (MutexLockState T) → Option (MutexLockState T) → Prop where
  | same (l : Option (MutexLockState T)) : Evolves t l l
  | keeps {l l' : MutexLockState T} (h : OthersKeep t l l') : Evolves t (some l) (some l')
  | freed {l : MutexLockState T} (h : l.owner = none) : Evolves t (some l) none

omit [DecidableEq T] [DecidableEq C] [Fintype T] in
theorem evolves_setMutex {l l' : MutexLockState T} (hl : s.mutexes m = some l)
    (h : OthersKeep t l l') (x : M) : Evolves t (s.mutexes x) ((s.setMutex m l').mutexes x) := by
  by_cases he : x = m
  · subst he
    rw [hl, show (s.setMutex x l').mutexes x = some l' from Function.update_self _ _ _]
    exact .keeps h
  · rw [show (s.setMutex m l').mutexes x = s.mutexes x from Function.update_of_ne he _ _]
    exact .same _

omit [DecidableEq T] [DecidableEq M] [DecidableEq C] [Fintype T] in
theorem unlock_othersKeep {ty : MutexType} {l : MutexLockState T} {forCondWait : Bool}
    {result : MutexLockState T × Int} (h : l.Unlock ty t forCondWait result) :
    OthersKeep t l result.1 := by
  cases h with
  | fails howner => exact fun u _ => ⟨Iff.rfl, fun _ => rfl⟩
  | lowers howner hdepth hwait => exact othersKeep_of_own (Or.inr howner) (Or.inr howner)
  | releases howner hdepth => exact othersKeep_of_own (Or.inr howner) (Or.inl rfl)

omit [Fintype T] in
theorem step_evolves {label : SyncLabel T M C} (hs : s.step mutexType label = some s') (x : M) :
    Evolves label.thread (s.mutexes x) (s'.mutexes x) := by
  have hfinish : ∀ {u : T} {m : M} {l : MutexLockState T} (blocked tryOnly : Bool)
      (call : SyncCall M C), s.mutexes m = some l →
      Evolves u (s.mutexes x) ((s.finishLock u m call
        ((wokenState l blocked).lockTurn (mutexType m) u tryOnly)).mutexes x) := by
    intro u m l blocked tryOnly call hl
    have hkeep := (lockTurn_effect ((wokenState l blocked).lockTurn_spec (mutexType m) u
      tryOnly)).othersKeep
    unfold finishLock
    split <;> exact evolves_setMutex hl hkeep x
  cases label with
  | lock t m =>
    simp only [step, Option.ite_none_right_eq_some, Option.some.injEq] at hs
    obtain ⟨_, rfl⟩ := hs
    unfold lock
    split
    · exact .same _
    · rename_i l hl
      exact hfinish false false _ hl
  | trylock t m =>
    simp only [step, Option.ite_none_right_eq_some, Option.some.injEq] at hs
    obtain ⟨_, rfl⟩ := hs
    unfold trylock
    split
    · exact .same _
    · rename_i l hl
      exact hfinish false true _ hl
  | wakeLock t =>
    simp only [step] at hs
    split at hs
    · rw [Option.map_eq_some_iff] at hs
      obtain ⟨l, hl, rfl⟩ := hs
      exact hfinish true false _ hl
    · exact absurd hs (by simp)
  | unlock t m =>
    simp only [step, Option.ite_none_right_eq_some, Option.some.injEq] at hs
    obtain ⟨_, rfl⟩ := hs
    unfold unlock
    split
    · exact .same _
    · rename_i l hl
      exact evolves_setMutex hl (unlock_othersKeep (l.unlockInternal_spec (mutexType m) t false)) x
  | destroy t m =>
    simp only [step, Option.ite_none_right_eq_some, Option.some.injEq] at hs
    obtain ⟨_, rfl⟩ := hs
    unfold destroy
    split
    · exact .same _
    · rename_i l hl
      split
      · exact .same _
      · rename_i hbusy
        by_cases he : x = m
        · subst he
          change Evolves t (s.mutexes x) (Function.update s.mutexes x none x)
          rw [Function.update_self, hl]
          simp only [MutexLockState.Busy, not_or, Bool.not_eq_true,
            Option.isSome_eq_false_iff, Option.isNone_iff_eq_none] at hbusy
          exact .freed hbusy.1
        · change Evolves t (s.mutexes x) (Function.update s.mutexes m none x)
          rw [Function.update_of_ne he]
          exact .same _
  | wait t w abstimeOk =>
    simp only [step, Option.ite_none_right_eq_some] at hs
    obtain ⟨_, hs⟩ := hs
    unfold wait at hs
    split at hs
    · exact Option.some.inj hs ▸ .same _
    · split at hs
      · exact absurd hs (by simp)
      · split at hs <;> exact Option.some.inj hs ▸ .same _
  | addReference t =>
    simp only [step] at hs
    split at hs
    · rename_i w _
      unfold addReference at hs
      rw [Option.map_eq_some_iff] at hs
      obtain ⟨l, hl, rfl⟩ := hs
      dsimp only
      split
      · exact .same _
      · refine evolves_setMutex hl ?_ x
        unfold MutexLockState.addCondWaiterReference
        split <;> exact fun u _ => ⟨Iff.rfl, fun _ => rfl⟩
    · exact absurd hs (by simp)
  | release t =>
    simp only [step] at hs
    split at hs
    · rename_i w _ _
      unfold release at hs
      rw [Option.map_eq_some_iff] at hs
      obtain ⟨l, hl, rfl⟩ := hs
      dsimp only
      split
      · exact .same _
      · exact evolves_setMutex hl
          (unlock_othersKeep (l.unlockInternal_spec (mutexType w.mutex) t true)) x
    · exact absurd hs (by simp)
  | test t which =>
    simp only [step] at hs
    split at hs
    · rw [← Option.some.inj hs]
      unfold test
      dsimp only
      split <;> exact .same _
    · exact absurd hs (by simp)
  | wakeWait t expired which =>
    simp only [step] at hs
    split at hs
    · unfold wakeWait at hs
      split_ifs at hs <;> exact Option.some.inj hs ▸ .same _
    · exact absurd hs (by simp)
  | relock t =>
    simp only [step] at hs
    split at hs
    · rename_i w _ _ _ blocked _
      unfold relock at hs
      rw [Option.map_eq_some_iff] at hs
      obtain ⟨l, hl, rfl⟩ := hs
      have hkeep := (lockTurn_effect ((wokenState l blocked).lockTurn_spec (mutexType w.mutex) t
        false)).othersKeep
      dsimp only
      split
      · exact evolves_setMutex hl hkeep x
      · split
        · exact evolves_setMutex hl hkeep x
        · split <;> exact evolves_setMutex hl hkeep x
    · exact absurd hs (by simp)
  | unreference t =>
    simp only [step] at hs
    split at hs
    · unfold unreference at hs
      rw [Option.map_eq_some_iff] at hs
      obtain ⟨l, hl, rfl⟩ := hs
      have hkeep : OthersKeep t l l.removeCondWaiterReference := fun u _ => ⟨Iff.rfl, fun _ => rfl⟩
      exact evolves_setMutex hl hkeep x
    · exact absurd hs (by simp)
  | signal t c =>
    simp only [step, Option.ite_none_right_eq_some, Option.some.injEq] at hs
    obtain ⟨_, rfl⟩ := hs
    unfold signal
    split <;> exact .same _
  | broadcast t c =>
    simp only [step, Option.ite_none_right_eq_some, Option.some.injEq] at hs
    obtain ⟨_, rfl⟩ := hs
    unfold broadcast
    split <;> exact .same _

/-! ## Places -/

/-- How a step of `t` moves it: on in its call, or out of it. -/
inductive Places (t : T) (s s' : SyncSystem T M C) : Prop where
  | stays (p' : SyncPc M C) (hpc : s'.pc = Function.update s.pc t p')
      (hsaved : (s.pc t).saved = none ∨ p'.saved = (s.pc t).saved)
      (hlog : s'.returns = s.returns)
  | returns (call : SyncCall M C) (code : Int) (hpc : s'.pc = Function.update s.pc t .idle)
      (hlog : s'.returns = ⟨t, call, code⟩ :: s.returns)
      (hfrom : (s.pc t).saved = none ∨
        ∃ w depth, s.pc t = .unreferencing w depth code ∧ call = .wait w ∧
          s.unreference t w code = some s')

omit [Fintype T] in
theorem step_places {label : SyncLabel T M C} (hs : s.step mutexType label = some s') :
    Places label.thread s s' := by
  have hidle : ∀ {u : T}, s.pc u = .idle → (s.pc u).saved = none := by
    intro u hpc
    rw [hpc]
    rfl
  have hfinish : ∀ (u : T) (m : M) (call : SyncCall M C)
      (turn : MutexLockState T × Option Int), (s.pc u).saved = none →
      Places u s (s.finishLock u m call turn) := by
    intro u m call turn hpc
    unfold finishLock
    split
    · exact .returns _ _ rfl rfl (Or.inl hpc)
    · exact .stays (.locking m) rfl (Or.inl hpc) rfl
  cases label with
  | lock t m =>
    simp only [step, Option.ite_none_right_eq_some, Option.some.injEq] at hs
    obtain ⟨hpc, rfl⟩ := hs
    unfold lock
    split
    · exact .returns _ _ rfl rfl (Or.inl (hidle hpc))
    · exact hfinish t m _ _ (hidle hpc)
  | trylock t m =>
    simp only [step, Option.ite_none_right_eq_some, Option.some.injEq] at hs
    obtain ⟨hpc, rfl⟩ := hs
    unfold trylock
    split
    · exact .returns _ _ rfl rfl (Or.inl (hidle hpc))
    · exact hfinish t m _ _ (hidle hpc)
  | wakeLock t =>
    simp only [step] at hs
    split at hs
    · rename_i m hpc
      rw [Option.map_eq_some_iff] at hs
      obtain ⟨l, _, rfl⟩ := hs
      exact hfinish t m _ _ (by rw [hpc]; rfl)
    · exact absurd hs (by simp)
  | unlock t m =>
    simp only [step, Option.ite_none_right_eq_some, Option.some.injEq] at hs
    obtain ⟨hpc, rfl⟩ := hs
    unfold unlock
    split <;> exact .returns _ _ rfl rfl (Or.inl (hidle hpc))
  | destroy t m =>
    simp only [step, Option.ite_none_right_eq_some, Option.some.injEq] at hs
    obtain ⟨hpc, rfl⟩ := hs
    unfold destroy
    split
    · exact .returns _ _ rfl rfl (Or.inl (hidle hpc))
    · split <;> exact .returns _ _ rfl rfl (Or.inl (hidle hpc))
  | wait t w abstimeOk =>
    simp only [step, Option.ite_none_right_eq_some] at hs
    obtain ⟨hpc, hs⟩ := hs
    unfold wait at hs
    split at hs
    · rw [← Option.some.inj hs]
      exact .returns _ _ rfl rfl (Or.inl (hidle hpc))
    · split at hs
      · exact absurd hs (by simp)
      · split at hs
        · rw [← Option.some.inj hs]
          exact .returns _ _ rfl rfl (Or.inl (hidle hpc))
        · rw [← Option.some.inj hs]
          exact .stays (.registering w) rfl (Or.inl (hidle hpc)) rfl
  | addReference t =>
    simp only [step] at hs
    split at hs
    · rename_i w hpc
      have hsaved : (s.pc t).saved = none := by rw [hpc]; rfl
      unfold addReference at hs
      rw [Option.map_eq_some_iff] at hs
      obtain ⟨l, _, rfl⟩ := hs
      dsimp only
      split
      · exact .returns _ _ rfl rfl (Or.inl hsaved)
      · exact .stays (.releasing w _) rfl (Or.inl hsaved) rfl
    · exact absurd hs (by simp)
  | release t =>
    simp only [step] at hs
    split at hs
    · rename_i w depth hpc
      have hsaved : (s.pc t).saved = some (w, depth) := by rw [hpc]; rfl
      unfold release at hs
      rw [Option.map_eq_some_iff] at hs
      obtain ⟨l, _, rfl⟩ := hs
      dsimp only
      split
      · exact .stays (.unreferencing w depth _) rfl (Or.inr hsaved.symm) rfl
      · exact .stays (.testing w depth) rfl (Or.inr hsaved.symm) rfl
    · exact absurd hs (by simp)
  | test t which =>
    simp only [step] at hs
    split at hs
    · rename_i w depth hpc
      have hsaved : (s.pc t).saved = some (w, depth) := by rw [hpc]; rfl
      rw [← Option.some.inj hs]
      unfold test
      dsimp only
      split
      · exact .stays (.asleep w depth) rfl (Or.inr hsaved.symm) rfl
      · exact .stays (.relocking w depth false 0 false) rfl (Or.inr hsaved.symm) rfl
    · exact absurd hs (by simp)
  | wakeWait t expired which =>
    simp only [step] at hs
    split at hs
    · rename_i w depth hpc
      have hsaved : (s.pc t).saved = some (w, depth) := by rw [hpc]; rfl
      unfold wakeWait at hs
      split_ifs at hs
      · rw [← Option.some.inj hs]
        exact .stays (.relocking w depth false 0 false) rfl (Or.inr hsaved.symm) rfl
      · rw [← Option.some.inj hs]
        exact .stays (.relocking w depth true 0 false) rfl (Or.inr hsaved.symm) rfl
      · rw [← Option.some.inj hs]
        exact .stays (s.pc t) (Function.update_eq_self t s.pc).symm (Or.inr rfl) rfl
    · exact absurd hs (by simp)
  | relock t =>
    simp only [step] at hs
    split at hs
    · rename_i w depth timedOut restored blocked hpc
      unfold relock at hs
      rw [Option.map_eq_some_iff] at hs
      obtain ⟨l, _, rfl⟩ := hs
      have hstays : ∀ (r : SyncSystem T M C) (p' : SyncPc M C), r.pc = s.pc →
          r.returns = s.returns → p'.saved = some (w, depth) → Places t s (r.goto t p') := by
        intro r p' hr hlog hp'
        refine .stays p' (by rw [← hr]; rfl) (Or.inr ?_) hlog
        rw [hp', hpc]
        rfl
      dsimp only
      split
      · exact hstays _ _ rfl rfl rfl
      · split
        · exact hstays _ _ rfl rfl rfl
        · split
          · exact hstays _ _ rfl rfl rfl
          · exact hstays _ _ rfl rfl rfl
    · exact absurd hs (by simp)
  | unreference t =>
    simp only [step] at hs
    split at hs
    · rename_i w depth code hpc
      have hunreference := hs
      unfold unreference at hs
      rw [Option.map_eq_some_iff] at hs
      obtain ⟨l, _, rfl⟩ := hs
      exact .returns _ _ rfl rfl (Or.inr ⟨w, depth, hpc, rfl, hunreference⟩)
    · exact absurd hs (by simp)
  | signal t c =>
    simp only [step, Option.ite_none_right_eq_some, Option.some.injEq] at hs
    obtain ⟨hpc, rfl⟩ := hs
    unfold signal
    split <;> exact .returns _ _ rfl rfl (Or.inl (hidle hpc.1))
  | broadcast t c =>
    simp only [step, Option.ite_none_right_eq_some, Option.some.injEq] at hs
    obtain ⟨hpc, rfl⟩ := hs
    unfold broadcast
    split <;> exact .returns _ _ rfl rfl (Or.inl (hidle hpc.1))

omit [Fintype T] in
theorem step_pc {label : SyncLabel T M C} (hs : s.step mutexType label = some s') {u : T}
    (hu : u ≠ label.thread) : s'.pc u = s.pc u := by
  cases step_places hs with
  | stays p' hpc hsaved hlog =>
    rw [hpc]
    exact Function.update_of_ne hu _ _
  | returns call code hpc hlog hfrom =>
    rw [hpc]
    exact Function.update_of_ne hu _ _

/-! ## The contract -/

omit [Fintype T] in
theorem step_owned {label : SyncLabel T M C} (hs : s.step mutexType label = some s')
    {l : MutexLockState T} {u : T} (hl : s.mutexes m = some l) (hown : l.owner = some u)
    (hu : u ≠ label.thread) :
    ∃ l', s'.mutexes m = some l' ∧ l'.owner = some u ∧ l'.recursionDepth = l.recursionDepth := by
  have hevolves := step_evolves hs m
  rw [hl] at hevolves
  generalize hm : s'.mutexes m = after at hevolves
  cases hevolves with
  | same => exact ⟨l, rfl, hown, rfl⟩
  | keeps h => exact ⟨_, rfl, (h u hu).1.mpr hown, (h u hu).2 hown⟩
  | freed h => exact absurd (h.symm.trans hown) (by simp)

omit [DecidableEq T] [DecidableEq C] [Fintype T] in
theorem setMutex_self {l : MutexLockState T} (hl : s.mutexes m = some l) :
    (s.setMutex m l).mutexes = s.mutexes := by
  unfold setMutex
  rw [← hl]
  exact Function.update_eq_self m s.mutexes

theorem step_stepSafe (h : ∀ x, MutexOk mutexType s x)
    {label : SyncLabel T M C} (hs : s.step mutexType label = some s') : StepSafe s label s' where
  owned := fun m l u hl hown hu => step_owned hs hl hown hu
  unlockOther := by
    intro t m l he hl howner
    subst he
    simp only [step, Option.ite_none_right_eq_some, Option.some.injEq] at hs
    obtain ⟨_, rfl⟩ := hs
    have hunlock : l.unlockInternal (mutexType m) t false = (l, EPERM) := by
      unfold MutexLockState.unlockInternal
      rw [if_pos howner]
    simp only [unlock, hl, hunlock]
    exact ⟨setMutex_self hl, rfl⟩
  destroyFree := by
    intro t m he hret
    subst he
    simp only [step, Option.ite_none_right_eq_some, Option.some.injEq] at hs
    obtain ⟨_, rfl⟩ := hs
    unfold destroy at hret
    split at hret
    · simp [return_, EINVAL] at hret
    · rename_i l hl
      split at hret
      · simp [return_, EBUSY] at hret
      · rename_i hbusy
        have hunused := (h m).unused hl hbusy
        exact ⟨l, hl, hunused.1, hunused.2⟩
  waitKeepsDepth := by
    intro t p hp
    by_cases ht : t = label.thread
    · subst ht
      cases step_places hs with
      | stays p' hpc hsaved hlog =>
        have hp' := hsaved.resolve_left (by rw [hp]; simp)
        rw [hpc, Function.update_self, hp']
        exact Or.inl hp
      | returns call code hpc hlog hfrom =>
        rw [hpc, Function.update_self]
        exact Or.inr rfl
    · cases step_places hs with
      | stays p' hpc hsaved hlog =>
        rw [hpc, Function.update_of_ne ht]
        exact Or.inl hp
      | returns call code hpc hlog hfrom =>
        rw [hpc, Function.update_of_ne ht]
        exact Or.inl hp
  waitReturns := by
    intro t w w' depth code hsaved hret
    cases step_places hs with
    | stays p' hpc hsaved' hlog => exact absurd (hlog.symm.trans hret) (by simp)
    | returns call code' hpc hlog hfrom =>
      have hcons := hlog.symm.trans hret
      simp only [List.cons.injEq, SyncReturn.mk.injEq, and_true] at hcons
      obtain ⟨ht, hcall, hcode⟩ := hcons
      rw [ht] at hfrom
      have hun := hfrom.resolve_left (by rw [hsaved]; simp)
      obtain ⟨w₀, depth₀, hpc₀, hcall₀, hstep⟩ := hun
      rw [hpc₀] at hsaved
      simp only [SyncPc.saved, Option.some.injEq, Prod.mk.injEq] at hsaved
      rw [hcall] at hcall₀
      simp only [SyncCall.wait.injEq] at hcall₀
      rw [← hcall₀] at hsaved hpc₀ hstep
      rw [hsaved.2, hcode] at hpc₀
      refine ⟨hsaved.1.symm, ?_⟩
      have hrefers : (s.pc t).Refers w.mutex := by rw [hpc₀]; rfl
      unfold unreference at hstep
      rw [Option.map_eq_some_iff] at hstep
      obtain ⟨l, hl, rfl⟩ := hstep
      have hpcs := (h w.mutex).pcs l hl t hrefers
      rw [hpc₀] at hpcs
      refine ⟨hpcs.2.2, l.removeCondWaiterReference, ?_, hpcs.1, hpcs.2.1⟩
      exact Function.update_self _ _ _

theorem between_owner {l : MutexLockState T} (h : MutexOk mutexType s m)
    (hl : s.mutexes m = some l) (hnever : NeverSaturated s.returns t m) (hb : s.Between t m) :
    l.owner = some t := by
  have hlevels := h.levels t hnever
  have hpositive : 0 < s.level t m := by
    have hlt := hb.1
    omega
  cases hreleased : (s.pc t).released m with
  | none =>
    rw [level_eq_heldDepth hl hreleased, MutexLockState.heldDepth] at hpositive
    by_cases ho : l.owner = some t
    · exact ho
    · rw [if_neg ho] at hpositive
      exact absurd hpositive (by simp)
  | some depth =>
    -- a condition wait that has the mutex back restores its depth
    have hpcs := h.pcs l hl t
    cases hpc : s.pc t with
    | relocking w d timedOut restored blocked =>
      have hb2 := hb.2
      rw [hpc] at hreleased hpcs hb2
      have hm : w.mutex = m := by
        by_contra hne
        simp [SyncPc.released, hne] at hreleased
      exact ((hpcs hm).2.2 fun hz => hb2 ⟨hm, hz⟩).1
    | testing w d =>
      have hb2 := hb.2
      rw [hpc] at hreleased hb2
      have hm : w.mutex = m := by
        by_contra hne
        simp [SyncPc.released, hne] at hreleased
      exact absurd hm hb2
    | asleep w d =>
      have hb2 := hb.2
      rw [hpc] at hreleased hb2
      have hm : w.mutex = m := by
        by_contra hne
        simp [SyncPc.released, hne] at hreleased
      exact absurd hm hb2
    | _ => simp [hpc, SyncPc.released] at hreleased

theorem between_live (h : MutexOk mutexType s m) (hnever : NeverSaturated s.returns t m)
    (hb : s.Between t m) : ∃ l, s.mutexes m = some l := by
  cases hl : s.mutexes m with
  | some l => exact ⟨l, rfl⟩
  | none =>
    have hlevels := h.levels t hnever
    rw [level_of_freed hl (SyncPc.released_eq_none (h.freed hl t).2)] at hlevels
    have hlt := hb.1
    omega

theorem mutexSafe_of_mutexOk (h : ∀ x, MutexOk mutexType s x) : MutexSafe mutexType s where
  ownerDepth := fun m l hl => ((h m).lockOk l hl).free
  exclusive := by
    intro m t t' hnever hnever' hb hb'
    obtain ⟨l, hl⟩ := between_live (h m) hnever hb
    have howner := between_owner (h m) hl hnever hb
    have howner' := between_owner (h m) hl hnever' hb'
    exact Option.some.inj (howner.symm.trans howner')
  outstanding := by
    intro m l t hl howner hreleased hnever
    have hlevels := (h m).levels t hnever
    rwa [level_eq_heldDepth hl hreleased, MutexLockState.heldDepth, if_pos howner] at hlevels
  restores := by
    intro m t depth hreleased hnever
    have hlevels := (h m).levels t hnever
    rwa [level_of_released hreleased] at hlevels
  waiters := fun m => (h m).waiters
  condWaiters := fun m => (h m).references
  saves := by
    intro t w depth hpc
    have hrefers : (s.pc t).Refers w.mutex := by rw [hpc]; rfl
    cases hl : s.mutexes w.mutex with
    | none => exact absurd hrefers ((h w.mutex).freed hl t).2
    | some l =>
      have hpcs := (h w.mutex).pcs l hl t hrefers
      rw [hpc] at hpcs
      exact ⟨l, rfl, hpcs⟩
  steps := fun label s' hs => step_stepSafe h hs

/-- **The contract of a mutex**, in every state of every run. -/
theorem mutex_safe (mutexType : M → MutexType) (initialised : C → Bool)
    (ls : List (SyncLabel ThreadId M C)) :
    Lts.Always (step mutexType) (MutexSafe mutexType) (initial initialised) ls := by
  have hok : Lts.Always (step mutexType) (fun s => ∀ x, MutexOk mutexType s x)
      (initial initialised) ls :=
    Lts.always_of_invariant (fun s label s' h hs => step_mutexOk threadId_card_le h hs)
      (initial_mutexOk initialised)
  exact hok.imp fun s h => mutexSafe_of_mutexOk h

/-! ## Saturation -/

/-- `t` has locked the recursive mutex `m` for `n` times and never unlocked it. -/
structure Stacked (s : SyncSystem T M C) (t : T) (m : M) (n : Nat) : Prop where
  idle : s.pc t = .idle
  depth : ∃ l, s.mutexes m = some l ∧ l.owner = some t ∧ l.recursionDepth = min n usizeMax
  locks : locks s.returns t m = n
  unlocks : unlocks s.returns t m = 0

omit [Fintype T] in
/-- One more lock succeeds, and raises the depth up to `usize::MAX` only. -/
theorem Stacked.lock {n : Nat} (h : Stacked s t m n) (htype : mutexType m = .recursive) :
    ∃ s', s.step mutexType (.lock t m) = some s' ∧ Stacked s' t m (n + 1) := by
  obtain ⟨l, hl, howner, hdepth⟩ := h.depth
  have hturn : l.lockTurn (mutexType m) t false =
      ({ l with recursionDepth := saturatingAdd l.recursionDepth 1 }, some 0) := by
    unfold MutexLockState.lockTurn
    rw [howner, htype]
    simp
  refine ⟨_, if_pos h.idle, ?_⟩
  simp only [SyncSystem.lock, hl, hturn, finishLock]
  refine ⟨Function.update_self _ _ _, ⟨_, Function.update_self _ _ _, howner, ?_⟩, ?_, ?_⟩
  · change saturatingAdd l.recursionDepth 1 = min (n + 1) usizeMax
    rw [hdepth]
    unfold saturatingAdd
    omega
  · change Pthread.locks (⟨t, .lock m, 0⟩ :: s.returns) t m = n + 1
    rw [locks_cons, h.locks]
    simp
  · change Pthread.unlocks (⟨t, .lock m, 0⟩ :: s.returns) t m = 0
    rw [unlocks_cons, h.unlocks]
    simp

omit [Fintype T] in
theorem stacked_run (htype : mutexType m = .recursive) (initialised : C → Bool) (t : T) (n : Nat) :
    ∃ s, Lts.run (step mutexType) (initial initialised) (List.replicate (n + 1) (.lock t m)) =
      some s ∧ Stacked s t m (n + 1) := by
  induction n with
  | zero =>
    have hstep : (initial initialised : SyncSystem T M C).step mutexType (.lock t m) =
        some ((initial initialised).lock mutexType t m) := by
      simp only [step]
      exact if_pos rfl
    refine ⟨(initial initialised).lock mutexType t m, ?_, ?_⟩
    · rw [List.replicate_one, Lts.run_cons, hstep]
      rfl
    · refine ⟨Function.update_self _ _ _, ⟨_, Function.update_self _ _ _, rfl, rfl⟩, ?_, ?_⟩
      · change Pthread.locks [⟨t, .lock m, 0⟩] t m = 1
        simp [Pthread.locks]
      · change Pthread.unlocks [⟨t, .lock m, 0⟩] t m = 0
        simp [Pthread.unlocks]
  | succ n ih =>
    obtain ⟨s, hrun, hs⟩ := ih
    obtain ⟨s', hstep, hs'⟩ := hs.lock htype
    refine ⟨s', ?_, hs'⟩
    rw [List.replicate_succ', Lts.run_append, hrun, Option.bind_some, Lts.run_cons, hstep]
    rfl

/-- After `2 ^ 64` locks the depth is one less than the number of locks. -/
theorem depth_saturates :
    ¬ ∀ ls : List (SyncLabel ThreadId Unit Unit),
      Lts.Always (step fun _ => .recursive) (fun s => ∀ l t, s.mutexes () = some l →
        l.owner = some t → (s.pc t).released () = none →
        locks s.returns t () = unlocks s.returns t () + l.recursionDepth)
        (initial fun _ => false) ls := by
  intro hall
  let mutexType : Unit → MutexType := fun _ => .recursive
  have hrecursive : mutexType () = .recursive := rfl
  obtain ⟨s, hrun, hs⟩ := stacked_run hrecursive (fun _ : Unit => false)
    (⟨1, by decide⟩ : ThreadId) usizeMax
  have hlast := (hall _).last hrun
  obtain ⟨l, hl, howner, hdepth⟩ := hs.depth
  have hcount := hlast l _ hl howner (by rw [hs.idle]; rfl)
  rw [hs.locks, hs.unlocks, hdepth] at hcount
  omega

end SyncSystem

end Rlibc.Pthread
