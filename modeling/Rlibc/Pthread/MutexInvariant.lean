import Rlibc.Foundations.Census
import Rlibc.Pthread.SyncSteps

/-!
# What a mutex says about its threads

`MutexOk` relates the lock state of one mutex to the places of the threads and to the calls that
have returned.  It is preserved by a change of the lock state that its own thread answers for
(`MutexOk.move`), and by any step elsewhere (`MutexOk.frame`).
-/

namespace Rlibc.Pthread

section Places

variable {M C : Type*} [DecidableEq M]

/-- The thread is blocked in `mutex_lock_internal`, called by a lock or by a condition wait. -/
def SyncPc.BlockedOn (m : M) : SyncPc M C → Prop
  | .locking m' => m' = m
  | .relocking w _ _ _ blocked => blocked = true ∧ w.mutex = m
  | _ => False

/-- The thread is inside a condition wait on `m`, from its reference to the end. -/
def SyncPc.Refers (m : M) : SyncPc M C → Prop
  | .releasing w _ | .testing w _ | .asleep w _ | .relocking w _ _ _ _ | .unreferencing w _ _ =>
    w.mutex = m
  | _ => False

/-- The depth that a condition wait on `m` has released, and has not yet restored. -/
def SyncPc.released (m : M) : SyncPc M C → Option Nat
  | .testing w depth | .asleep w depth | .relocking w depth _ _ _ =>
    if w.mutex = m then some depth else none
  | _ => none

instance (m : M) : DecidablePred (SyncPc.BlockedOn (C := C) m)
  | .locking m' => inferInstanceAs (Decidable (m' = m))
  | .relocking w _ _ _ blocked => inferInstanceAs (Decidable (blocked = true ∧ w.mutex = m))
  | .idle | .registering _ | .releasing _ _ | .testing _ _ | .asleep _ _
  | .unreferencing _ _ _ => inferInstanceAs (Decidable False)

instance (m : M) : DecidablePred (SyncPc.Refers (C := C) m)
  | .releasing w _ | .testing w _ | .asleep w _ | .relocking w _ _ _ _
  | .unreferencing w _ _ => inferInstanceAs (Decidable (w.mutex = m))
  | .idle | .locking _ | .registering _ => inferInstanceAs (Decidable False)

omit [DecidableEq M] in
theorem SyncPc.not_refers_idle (m : M) : ¬ (SyncPc.idle : SyncPc M C).Refers m := id

theorem SyncPc.released_eq_none {m : M} {pc : SyncPc M C} (h : ¬ pc.Refers m) :
    pc.released m = none := by
  cases pc <;> simp_all [SyncPc.Refers, SyncPc.released]

end Places

section Log

variable {T M C : Type*} [DecidableEq T] [DecidableEq M] [DecidableEq C]

/-- The successful calls of `t` that locked `m`. -/
def locks (log : List (SyncReturn T M C)) (t : T) (m : M) : Nat :=
  log.countP fun r => r.thread = t ∧ r.code = 0 ∧ (r.call = .lock m ∨ r.call = .trylock m)

/-- The successful calls of `t` that unlocked `m`. -/
def unlocks (log : List (SyncReturn T M C)) (t : T) (m : M) : Nat :=
  log.countP fun r => r.thread = t ∧ r.code = 0 ∧ r.call = .unlock m

/-- At no time did `t` have more than `usize::MAX` locks of `m` outstanding. -/
def NeverSaturated (log : List (SyncReturn T M C)) (t : T) (m : M) : Prop :=
  ∀ past, past <:+ log → locks past t m ≤ unlocks past t m + usizeMax

theorem NeverSaturated.tail {log : List (SyncReturn T M C)} {r : SyncReturn T M C} {t : T} {m : M}
    (h : NeverSaturated (r :: log) t m) : NeverSaturated log t m :=
  fun past hpast => h past (hpast.trans (List.suffix_cons r log))

theorem locks_cons (r : SyncReturn T M C) (log : List (SyncReturn T M C)) (t : T) (m : M) :
    locks (r :: log) t m = locks log t m +
      if r.thread = t ∧ r.code = 0 ∧ (r.call = .lock m ∨ r.call = .trylock m) then 1 else 0 := by
  unfold locks
  rw [List.countP_cons]
  simp only [decide_eq_true_eq]

theorem unlocks_cons (r : SyncReturn T M C) (log : List (SyncReturn T M C)) (t : T) (m : M) :
    unlocks (r :: log) t m = unlocks log t m +
      if r.thread = t ∧ r.code = 0 ∧ r.call = .unlock m then 1 else 0 := by
  unfold unlocks
  rw [List.countP_cons]
  simp only [decide_eq_true_eq]

/-- A log that grows by at most one return of `t`. -/
def Extends (t : T) (log log' : List (SyncReturn T M C)) : Prop :=
  log' = log ∨ ∃ call code, log' = ⟨t, call, code⟩ :: log

theorem Extends.neverSaturated {t : T} {log log' : List (SyncReturn T M C)} (h : Extends t log log')
    {u : T} {m : M} (hn : NeverSaturated log' u m) : NeverSaturated log u m := by
  cases h with
  | inl he => rwa [he] at hn
  | inr he =>
    obtain ⟨call, code, rfl⟩ := he
    exact hn.tail

/-- Another thread's counts stay as they are. -/
theorem Extends.other {t : T} {log log' : List (SyncReturn T M C)} (h : Extends t log log') {u : T}
    (hu : u ≠ t) (m : M) : locks log' u m = locks log u m ∧ unlocks log' u m = unlocks log u m := by
  cases h with
  | inl he => rw [he]; exact ⟨rfl, rfl⟩
  | inr he =>
    obtain ⟨call, code, rfl⟩ := he
    rw [locks_cons, unlocks_cons]
    simp [Ne.symm hu]

end Log

namespace SyncSystem

variable {T M C : Type*} [DecidableEq T] [DecidableEq M] [DecidableEq C]

/-- How many levels of `m` belong to `t`: those it owns, or those its condition wait has released
and will restore. -/
def level (s : SyncSystem T M C) (t : T) (m : M) : Nat :=
  match (s.pc t).released m with
  | some depth => depth
  | none =>
    match s.mutexes m with
    | some l => l.heldDepth t
    | none => 0

/-- The owner fields of a lock state. -/
structure LockOk (mutexType : MutexType) (l : MutexLockState T) : Prop where
  free : l.owner = none ↔ l.recursionDepth = 0
  bounded : l.recursionDepth ≤ usizeMax
  flat : mutexType ≠ .recursive → l.recursionDepth ≤ 1

/-- A depth that a condition wait can have saved. -/
structure SavedOk (mutexType : MutexType) (depth : Nat) : Prop where
  pos : 0 < depth
  bounded : depth ≤ usizeMax
  flat : mutexType ≠ .recursive → depth = 1

/-- What the place of `t` in a condition wait says about its mutex. -/
def PcOk (mutexType : MutexType) (t : T) (l : MutexLockState T) : SyncPc M C → Prop
  | .releasing _ depth => l.owner = some t ∧ l.recursionDepth = depth
  | .testing _ depth | .asleep _ depth => l.owner ≠ some t ∧ SavedOk mutexType depth
  | .relocking _ depth _ restored _ =>
    SavedOk mutexType depth ∧ (restored = 0 → l.owner ≠ some t) ∧
      (restored ≠ 0 → l.owner = some t ∧ l.recursionDepth = restored ∧
        mutexType = .recursive ∧ restored < depth)
  | .unreferencing _ depth code =>
    l.owner = some t ∧ l.recursionDepth = depth ∧ (code = 0 ∨ code = ETIMEDOUT)
  | _ => True

/-- The owner fields as seen by all threads but `t`. -/
def OthersKeep (t : T) (l l' : MutexLockState T) : Prop :=
  ∀ u, u ≠ t → (l'.owner = some u ↔ l.owner = some u) ∧
    (l.owner = some u → l'.recursionDepth = l.recursionDepth)

variable [Fintype T]

structure MutexOk (mutexType : M → MutexType) (s : SyncSystem T M C) (m : M) : Prop where
  lockOk : ∀ l, s.mutexes m = some l → LockOk (mutexType m) l
  waiters : ∀ l, s.mutexes m = some l →
    l.waiterCount = Census.count (SyncPc.BlockedOn m) s.pc
  references : ∀ l, s.mutexes m = some l →
    l.condWaiterCount = Census.count (SyncPc.Refers m) s.pc
  freed : s.mutexes m = none → ∀ t, ¬ (s.pc t).BlockedOn m ∧ ¬ (s.pc t).Refers m
  pcs : ∀ l, s.mutexes m = some l → ∀ t, (s.pc t).Refers m → PcOk (mutexType m) t l (s.pc t)
  levels : ∀ t, NeverSaturated s.returns t m →
    locks s.returns t m = unlocks s.returns t m + s.level t m

variable {mutexType : M → MutexType} {s s' : SyncSystem T M C} {m : M} {t : T}

omit [DecidableEq T] [DecidableEq M] [DecidableEq C] [Fintype T] in
theorem PcOk.others {ty : MutexType} {l l' : MutexLockState T} (hkeep : OthersKeep t l l') {u : T}
    (hu : u ≠ t) {pc : SyncPc M C} (h : PcOk ty u l pc) : PcOk ty u l' pc := by
  have hk := hkeep u hu
  cases pc with
  | releasing w depth => exact ⟨hk.1.mpr h.1, (hk.2 h.1).trans h.2⟩
  | testing w depth => exact ⟨fun ho => h.1 (hk.1.mp ho), h.2⟩
  | asleep w depth => exact ⟨fun ho => h.1 (hk.1.mp ho), h.2⟩
  | relocking w depth timedOut restored blocked =>
    refine ⟨h.1, fun hz ho => h.2.1 hz (hk.1.mp ho), fun hr => ?_⟩
    have hown := h.2.2 hr
    exact ⟨hk.1.mpr hown.1, (hk.2 hown.1).trans hown.2.1, hown.2.2⟩
  | unreferencing w depth code => exact ⟨hk.1.mpr h.1, (hk.2 h.1).trans h.2.1, h.2.2⟩
  | _ => trivial

omit [DecidableEq C] [Fintype T] in
theorem level_of_freed {u : T} (hm : s.mutexes m = none) (hreleased : (s.pc u).released m = none) :
    s.level u m = 0 := by
  unfold level
  simp only [hreleased, hm]

omit [DecidableEq C] [Fintype T] in
theorem level_eq_heldDepth {l : MutexLockState T} {u : T} (hl : s.mutexes m = some l)
    (hreleased : (s.pc u).released m = none) : s.level u m = l.heldDepth u := by
  unfold level
  simp only [hreleased, hl]

omit [DecidableEq C] [Fintype T] in
theorem level_of_released {u : T} {depth : Nat} (hreleased : (s.pc u).released m = some depth) :
    s.level u m = depth := by
  unfold level
  simp only [hreleased]

omit [DecidableEq C] [Fintype T] in
theorem level_other {l l' : MutexLockState T} {p' : SyncPc M C} (hl : s.mutexes m = some l)
    (hl' : s'.mutexes m = some l') (hpc : s'.pc = Function.update s.pc t p')
    (hkeep : OthersKeep t l l') {u : T} (hu : u ≠ t) : s'.level u m = s.level u m := by
  have hk := hkeep u hu
  unfold level
  rw [hpc, Function.update_of_ne hu, hl, hl']
  cases (s.pc u).released m with
  | some depth => rfl
  | none =>
    unfold MutexLockState.heldDepth
    by_cases ho : l.owner = some u
    · simp only [hk.1.mpr ho, ho, if_true, hk.2 ho]
    · simp only [hk.1, ho, if_false]

/-- A step of `t` on `m`. -/
theorem MutexOk.move (h : MutexOk mutexType s m) {l l' : MutexLockState T} {p' : SyncPc M C}
    (hl : s.mutexes m = some l) (hl' : s'.mutexes m = some l')
    (hpc : s'.pc = Function.update s.pc t p') (hlog : Extends t s.returns s'.returns)
    (hok : LockOk (mutexType m) l') (hkeep : OthersKeep t l l')
    (hwaiters : l'.waiterCount + (if (s.pc t).BlockedOn m then 1 else 0) =
      l.waiterCount + if p'.BlockedOn m then 1 else 0)
    (hreferences : l'.condWaiterCount + (if (s.pc t).Refers m then 1 else 0) =
      l.condWaiterCount + if p'.Refers m then 1 else 0)
    (hp : p'.Refers m → PcOk (mutexType m) t l' p')
    (hlevel : NeverSaturated s'.returns t m →
      locks s.returns t m = unlocks s.returns t m + s.level t m →
      locks s'.returns t m = unlocks s'.returns t m + s'.level t m) : MutexOk mutexType s' m where
  lockOk := fun x hx => by
    rw [hl', Option.some.injEq] at hx
    exact hx ▸ hok
  waiters := fun x hx => by
    rw [hl', Option.some.injEq] at hx
    have hu := Census.count_update (SyncPc.BlockedOn m) s.pc t p'
    have hw := h.waiters l hl
    rw [← hx, hpc]
    omega
  references := fun x hx => by
    rw [hl', Option.some.injEq] at hx
    have hu := Census.count_update (SyncPc.Refers m) s.pc t p'
    have hr := h.references l hl
    rw [← hx, hpc]
    omega
  freed := fun hx => absurd (hl'.symm.trans hx) (by simp)
  pcs := fun x hx u hu => by
    rw [hl', Option.some.injEq] at hx
    rw [← hx]
    rw [hpc] at hu ⊢
    by_cases he : u = t
    · subst he
      rw [Function.update_self] at hu ⊢
      exact hp hu
    · rw [Function.update_of_ne he] at hu ⊢
      exact (h.pcs l hl u hu).others hkeep he
  levels := fun u hu => by
    by_cases he : u = t
    · subst he
      exact hlevel hu (h.levels u (hlog.neverSaturated hu))
    · have hcounts := hlog.other he m
      rw [hcounts.1, hcounts.2, level_other hl hl' hpc hkeep he]
      exact h.levels u (hlog.neverSaturated hu)

/-- A step of `t` that leaves the lock state of `m` alone. -/
theorem MutexOk.frame (h : MutexOk mutexType s m) {p' : SyncPc M C}
    (hm : s'.mutexes m = s.mutexes m) (hpc : s'.pc = Function.update s.pc t p')
    (hlog : Extends t s.returns s'.returns)
    (hblocked : p'.BlockedOn m ↔ (s.pc t).BlockedOn m)
    (hrefers : p'.Refers m ↔ (s.pc t).Refers m)
    (hp : ∀ l, s.mutexes m = some l → p'.Refers m → PcOk (mutexType m) t l p')
    (hreleased : p'.released m = (s.pc t).released m)
    (hcounts : locks s'.returns t m = locks s.returns t m ∧
      unlocks s'.returns t m = unlocks s.returns t m) : MutexOk mutexType s' m := by
  have hlevel : s'.level t m = s.level t m := by
    unfold level
    rw [hpc, Function.update_self, hreleased, hm]
  cases hl : s.mutexes m with
  | some l =>
    refine h.move hl (hm.trans hl) hpc hlog (h.lockOk l hl) (fun u _ => ⟨Iff.rfl, fun _ => rfl⟩)
      ?_ ?_ (hp l hl) fun _ hbefore => ?_
    · simp only [hblocked]
    · simp only [hrefers]
    · rw [hcounts.1, hcounts.2, hlevel]
      exact hbefore
  | none =>
    have hfreed : ∀ u, ¬ (s'.pc u).BlockedOn m ∧ ¬ (s'.pc u).Refers m := by
      intro u
      rw [hpc]
      by_cases he : u = t
      · rw [he, Function.update_self, hblocked, hrefers]
        exact h.freed hl t
      · rw [Function.update_of_ne he]
        exact h.freed hl u
    have hm' := hm.trans hl
    refine ⟨fun l hx => ?_, fun l hx => ?_, fun l hx => ?_, fun _ => hfreed, fun l hx => ?_,
      fun u hu => ?_⟩
    · exact absurd (hm'.symm.trans hx) (by simp)
    · exact absurd (hm'.symm.trans hx) (by simp)
    · exact absurd (hm'.symm.trans hx) (by simp)
    · exact absurd (hm'.symm.trans hx) (by simp)
    · have hbefore := h.levels u (hlog.neverSaturated hu)
      rw [level_of_freed hl (SyncPc.released_eq_none (h.freed hl u).2)] at hbefore
      rw [level_of_freed hm' (SyncPc.released_eq_none (hfreed u).2)]
      by_cases he : u = t
      · rw [he, hcounts.1, hcounts.2, ← he]
        exact hbefore
      · have hother := hlog.other he m
        rw [hother.1, hother.2]
        exact hbefore

end SyncSystem

end Rlibc.Pthread
