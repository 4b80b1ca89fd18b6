import Rlibc.Pthread.SyncSystem

/-!
# What a step on a mutex or a condition variable can do

A step begins a call of an idle thread, or it is the next section of the call in which its thread
stands.  The sections of a condition wait are taken apart into their outcomes here, once for all
the invariants that rest on them.
-/

namespace Rlibc.Pthread

namespace SyncSystem

variable {T M C : Type*} [DecidableEq T] [DecidableEq M] [DecidableEq C]

/-- A step, with the place at which it finds its thread. -/
inductive Stepped (mutexType : M → MutexType) (s : SyncSystem T M C) :
    SyncLabel T M C → SyncSystem T M C → Prop where
  | lock {t : T} {m : M} (hpc : s.pc t = .idle) :
      Stepped mutexType s (.lock t m) (s.lock mutexType t m)
  | trylock {t : T} {m : M} (hpc : s.pc t = .idle) :
      Stepped mutexType s (.trylock t m) (s.trylock mutexType t m)
  | wakeLock {t : T} {m : M} {l : MutexLockState T} (hpc : s.pc t = .locking m)
      (hl : s.mutexes m = some l) :
      Stepped mutexType s (.wakeLock t)
        (s.finishLock t m (.lock m) (l.unregisterWaiter.lockTurn (mutexType m) t false))
  | unlock {t : T} {m : M} (hpc : s.pc t = .idle) :
      Stepped mutexType s (.unlock t m) (s.unlock mutexType t m)
  | destroy {t : T} {m : M} (hpc : s.pc t = .idle) :
      Stepped mutexType s (.destroy t m) (s.destroy t m)
  | wait {t : T} {w : WaitCall M C} {abstimeOk : Bool} {s' : SyncSystem T M C}
      (hpc : s.pc t = .idle) (hs : s.wait t w abstimeOk = some s') :
      Stepped mutexType s (.wait t w abstimeOk) s'
  | addReference {t : T} {w : WaitCall M C} {s' : SyncSystem T M C}
      (hpc : s.pc t = .registering w) (hs : s.addReference t w = some s') :
      Stepped mutexType s (.addReference t) s'
  | release {t : T} {w : WaitCall M C} {depth : Nat} {s' : SyncSystem T M C}
      (hpc : s.pc t = .releasing w depth) (hs : s.release mutexType t w depth = some s') :
      Stepped mutexType s (.release t) s'
  | test {t : T} {w : WaitCall M C} {depth which : Nat} (hpc : s.pc t = .testing w depth) :
      Stepped mutexType s (.test t which) (s.test t w depth which)
  | wakeWait {t : T} {w : WaitCall M C} {depth which : Nat} {expired : Bool}
      {s' : SyncSystem T M C} (hpc : s.pc t = .asleep w depth)
      (hs : s.wakeWait t w depth expired which = some s') :
      Stepped mutexType s (.wakeWait t expired which) s'
  | relock {t : T} {w : WaitCall M C} {depth restored : Nat} {timedOut blocked : Bool}
      {s' : SyncSystem T M C} (hpc : s.pc t = .relocking w depth timedOut restored blocked)
      (hs : s.relock mutexType t w depth timedOut restored blocked = some s') :
      Stepped mutexType s (.relock t) s'
  | unreference {t : T} {w : WaitCall M C} {depth : Nat} {code : Int} {s' : SyncSystem T M C}
      (hpc : s.pc t = .unreferencing w depth code) (hs : s.unreference t w code = some s') :
      Stepped mutexType s (.unreference t) s'
  | signal {t : T} {c : C} (hpc : s.pc t = .idle) (hfree : s.registering = none) :
      Stepped mutexType s (.signal t c) (s.signal t c)
  | broadcast {t : T} {c : C} (hpc : s.pc t = .idle) (hfree : s.registering = none) :
      Stepped mutexType s (.broadcast t c) (s.broadcast t c)

/-- The outcomes of the section that registers a condition wait. -/
inductive Waited (s : SyncSystem T M C) (t : T) (w : WaitCall M C) (abstimeOk : Bool) :
    SyncSystem T M C → Prop where
  | untimely (hearly : w.timed = true ∧ (!abstimeOk) = true) :
      Waited s t w abstimeOk (s.return_ t (.wait w) EINVAL)
  | noMutex (hlate : ¬ (w.timed = true ∧ (!abstimeOk) = true)) (hfree : s.registering = none) :
      Waited s t w abstimeOk
        ((s.setCond w.cond (s.condState w.cond) (s.histories w.cond)).return_ t (.wait w) EINVAL)
  | registers (hlate : ¬ (w.timed = true ∧ (!abstimeOk) = true)) (hfree : s.registering = none) :
      Waited s t w abstimeOk
        { s.setCond w.cond (s.condState w.cond).registerWaiter (s.histories w.cond) with
          registering := some (t, w.cond)
          pc := Function.update s.pc t (.registering w) }

/-- The outcomes of `mutex_add_cond_waiter_reference` on the lock state `l`. -/
inductive Referenced (s : SyncSystem T M C) (t : T) (w : WaitCall M C) (l : MutexLockState T) :
    SyncSystem T M C → Prop where
  | notOwner (howner : l.owner ≠ some t) :
      Referenced s t w l ((s.unregister w.cond).return_ t (.wait w) EPERM)
  | owner (howner : l.owner = some t) :
      Referenced s t w l
        ((s.setMutex w.mutex
          { l with condWaiterCount := saturatingAdd l.condWaiterCount 1 }).goto t
            (.releasing w l.recursionDepth))

/-- The outcomes of the release of the mutex, with the result of `mutex_unlock_internal`. -/
inductive Released (s : SyncSystem T M C) (t : T) (w : WaitCall M C) (depth : Nat)
    (result : MutexLockState T × Int) : SyncSystem T M C → Prop where
  | fails (hcode : result.2 ≠ 0) :
      Released s t w depth result
        ((s.unregister w.cond).goto t (.unreferencing w depth result.2))
  | succeeds (hcode : result.2 = 0) :
      Released s t w depth result ((s.setMutex w.mutex result.1).goto t (.testing w depth))

/-- The outcomes of a wake-up in `wait_while` or `wait_timeout_while`. -/
inductive Woken (s : SyncSystem T M C) (t : T) (w : WaitCall M C) (depth which : Nat) :
    SyncSystem T M C → Prop where
  | consumes (hsome : (s.condState w.cond).pendingWakeups ≠ 0) :
      Woken s t w depth which (s.consume t w depth which)
  | expires (hnone : (s.condState w.cond).pendingWakeups = 0) (htimed : w.timed = true) :
      Woken s t w depth which
        ((s.setCond w.cond (s.condState w.cond).unregisterWaiter
          ((s.histories w.cond).leave t)).goto t (.relocking w depth true 0 false))
  | sleeps (hnone : (s.condState w.cond).pendingWakeups = 0) : Woken s t w depth which s

/-- Where a turn of `mutex_restore_cond_wait_lock_depth` leaves its thread, by the result of the
turn. -/
inductive Relocked (w : WaitCall M C) (depth : Nat) (timedOut : Bool) (restored : Nat)
    (recursive : Prop) : Option Int → SyncPc M C → Prop where
  | blocks : Relocked w depth timedOut restored recursive none
      (.relocking w depth timedOut restored true)
  | fails {code : Int} (hcode : code ≠ 0) : Relocked w depth timedOut restored recursive (some code)
      (.unreferencing w depth code)
  | again (hmore : recursive ∧ restored + 1 < depth) :
      Relocked w depth timedOut restored recursive (some 0)
        (.relocking w depth timedOut (restored + 1) false)
  | done (hlast : ¬ (recursive ∧ restored + 1 < depth)) :
      Relocked w depth timedOut restored recursive (some 0)
        (.unreferencing w depth (waitResult timedOut))

variable {mutexType : M → MutexType} {s s' : SyncSystem T M C} {t : T} {w : WaitCall M C}
  {depth : Nat}

theorem stepped_of_step {label : SyncLabel T M C} (hs : s.step mutexType label = some s') :
    Stepped mutexType s label s' := by
  cases label with
  | lock t m =>
    simp only [step, Option.ite_none_right_eq_some, Option.some.injEq] at hs
    exact hs.2 ▸ .lock hs.1
  | trylock t m =>
    simp only [step, Option.ite_none_right_eq_some, Option.some.injEq] at hs
    exact hs.2 ▸ .trylock hs.1
  | wakeLock t =>
    simp only [step] at hs
    split at hs
    · rename_i m hpc
      rw [Option.map_eq_some_iff] at hs
      obtain ⟨l, hl, rfl⟩ := hs
      exact .wakeLock hpc hl
    · cases hs
  | unlock t m =>
    simp only [step, Option.ite_none_right_eq_some, Option.some.injEq] at hs
    exact hs.2 ▸ .unlock hs.1
  | destroy t m =>
    simp only [step, Option.ite_none_right_eq_some, Option.some.injEq] at hs
    exact hs.2 ▸ .destroy hs.1
  | wait t w abstimeOk =>
    simp only [step, Option.ite_none_right_eq_some] at hs
    exact .wait hs.1 hs.2
  | addReference t =>
    simp only [step] at hs
    split at hs
    · rename_i w hpc
      exact .addReference hpc hs
    · cases hs
  | release t =>
    simp only [step] at hs
    split at hs
    · rename_i w depth hpc
      exact .release hpc hs
    · cases hs
  | test t which =>
    simp only [step] at hs
    split at hs
    · rename_i w depth hpc
      exact Option.some.inj hs ▸ .test hpc
    · cases hs
  | wakeWait t expired which =>
    simp only [step] at hs
    split at hs
    · rename_i w depth hpc
      exact .wakeWait hpc hs
    · cases hs
  | relock t =>
    simp only [step] at hs
    split at hs
    · rename_i w depth timedOut restored blocked hpc
      exact .relock hpc hs
    · cases hs
  | unreference t =>
    simp only [step] at hs
    split at hs
    · rename_i w depth code hpc
      exact .unreference hpc hs
    · cases hs
  | signal t c =>
    simp only [step, Option.ite_none_right_eq_some, Option.some.injEq] at hs
    exact hs.2 ▸ .signal hs.1.1 hs.1.2
  | broadcast t c =>
    simp only [step, Option.ite_none_right_eq_some, Option.some.injEq] at hs
    exact hs.2 ▸ .broadcast hs.1.1 hs.1.2

omit [DecidableEq M] in
theorem wait_spec {abstimeOk : Bool} (hs : s.wait t w abstimeOk = some s') :
    Waited s t w abstimeOk s' := by
  unfold wait at hs
  split at hs
  · rename_i hearly
    exact Option.some.inj hs ▸ .untimely hearly
  · rename_i hlate
    split at hs
    · cases hs
    · rename_i hfree
      rw [Bool.not_eq_true, Option.isSome_eq_false_iff, Option.isNone_iff_eq_none] at hfree
      split at hs
      · exact Option.some.inj hs ▸ .noMutex hlate hfree
      · exact Option.some.inj hs ▸ .registers hlate hfree

/-- A mutex that is freed leaves the step without an outcome. -/
theorem addReference_spec (hs : s.addReference t w = some s') :
    ∃ l, s.mutexes w.mutex = some l ∧ Referenced s t w l s' := by
  unfold addReference at hs
  rw [Option.map_eq_some_iff] at hs
  obtain ⟨l, hl, hs⟩ := hs
  refine ⟨l, hl, ?_⟩
  dsimp only [MutexLockState.addCondWaiterReference] at hs
  split_ifs at hs with howner
  · exact hs ▸ .notOwner howner
  · exact hs ▸ .owner (not_not.mp howner)

theorem release_spec (hs : s.release mutexType t w depth = some s') :
    ∃ l, s.mutexes w.mutex = some l ∧
      Released s t w depth (l.unlockInternal (mutexType w.mutex) t true) s' := by
  unfold release at hs
  rw [Option.map_eq_some_iff] at hs
  obtain ⟨l, hl, hs⟩ := hs
  refine ⟨l, hl, ?_⟩
  dsimp only at hs
  split_ifs at hs with hcode
  · exact hs ▸ .fails hcode
  · exact hs ▸ .succeeds (not_not.mp hcode)

omit [DecidableEq M] in
theorem wakeWait_spec {expired : Bool} {which : Nat}
    (hs : s.wakeWait t w depth expired which = some s') : Woken s t w depth which s' := by
  unfold wakeWait at hs
  split_ifs at hs with _ hsome htimed
  · exact Option.some.inj hs ▸ .consumes hsome
  · exact Option.some.inj hs ▸ .expires (not_not.mp hsome) htimed.1
  · exact Option.some.inj hs ▸ .sleeps (not_not.mp hsome)

omit [DecidableEq C] in
theorem relock_spec {restored : Nat} {timedOut blocked : Bool}
    (hs : s.relock mutexType t w depth timedOut restored blocked = some s') :
    ∃ l, s.mutexes w.mutex = some l ∧ ∃ l' result p',
      (if blocked then l.unregisterWaiter else l).lockTurn (mutexType w.mutex) t false =
        (l', result) ∧
      Relocked w depth timedOut restored (mutexType w.mutex = .recursive) result p' ∧
      s' = (s.setMutex w.mutex l').goto t p' := by
  unfold relock at hs
  rw [Option.map_eq_some_iff] at hs
  obtain ⟨l, hl, hs⟩ := hs
  dsimp only at hs
  generalize hturn : (if blocked then l.unregisterWaiter else l).lockTurn (mutexType w.mutex) t
    false = turn at hs
  obtain ⟨l', result⟩ := turn
  cases result with
  | none => exact ⟨l, hl, l', _, _, hturn, .blocks, hs.symm⟩
  | some code =>
    dsimp only at hs
    by_cases hcode : code ≠ 0
    · rw [if_pos hcode] at hs
      exact ⟨l, hl, l', _, _, hturn, .fails hcode, hs.symm⟩
    · rw [if_neg hcode] at hs
      cases not_not.mp hcode
      by_cases hmore : mutexType w.mutex = .recursive ∧ restored + 1 < depth
      · rw [if_pos hmore] at hs
        exact ⟨l, hl, l', _, _, hturn, .again hmore, hs.symm⟩
      · rw [if_neg hmore] at hs
        exact ⟨l, hl, l', _, _, hturn, .done hmore, hs.symm⟩

end SyncSystem

end Rlibc.Pthread
