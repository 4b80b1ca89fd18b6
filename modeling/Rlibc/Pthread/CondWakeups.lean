import Rlibc.Pthread.CondLedger
import Rlibc.Pthread.SyncSteps

/-!
# Who gets the wakeups of a condition variable

A wakeup is only counted in `pending_wakeups`, so nothing ties it to the threads that were waiting
when it was produced.  A wait that begins while wakeups are pending takes one of them at once, and
a thread that a broadcast should have woken sleeps on.  `WakeupsKept` is what the waiters expect,
and `BeginsFresh` says which runs provide it.
-/

namespace Rlibc.Pthread

section Places

variable {M C : Type*} [DecidableEq C]

def SyncPc.SleepsOn (c : C) : SyncPc M C → Prop
  | .asleep w _ => w.cond = c
  | _ => False

/-- The thread holds the lock of `c` between its registration and its first test. -/
def SyncPc.RegistersOn (c : C) : SyncPc M C → Prop
  | .registering w | .releasing w _ | .testing w _ => w.cond = c
  | _ => False

instance (c : C) : DecidablePred (SyncPc.SleepsOn (M := M) c)
  | .asleep w _ => inferInstanceAs (Decidable (w.cond = c))
  | .idle | .locking _ | .registering _ | .releasing _ _ | .testing _ _ | .relocking _ _ _ _ _
  | .unreferencing _ _ _ => inferInstanceAs (Decidable False)

instance (c : C) : DecidablePred (SyncPc.RegistersOn (M := M) c)
  | .registering w | .releasing w _ | .testing w _ => inferInstanceAs (Decidable (w.cond = c))
  | .idle | .locking _ | .asleep _ _ | .relocking _ _ _ _ _ | .unreferencing _ _ _ =>
    inferInstanceAs (Decidable False)

/-- Counted in `waiter_count`. -/
def SyncPc.WaitsOn (c : C) (pc : SyncPc M C) : Prop :=
  pc.SleepsOn c ∨ pc.RegistersOn c

instance (c : C) : DecidablePred (SyncPc.WaitsOn (M := M) c) :=
  fun _ => inferInstanceAs (Decidable (_ ∨ _))

omit [DecidableEq C] in
theorem SyncPc.not_sleeps_of_registers {c : C} {pc : SyncPc M C} (h : pc.RegistersOn c) :
    ¬ pc.SleepsOn c := by
  cases pc <;> first | exact id | exact h.elim

omit [DecidableEq C] in
theorem SyncPc.not_waitsOn_idle (c : C) : ¬ (SyncPc.idle : SyncPc M C).WaitsOn c :=
  fun h => h.elim id id

omit [DecidableEq C] in
theorem SyncPc.not_waitsOn_locking (m : M) (c : C) : ¬ (SyncPc.locking m : SyncPc M C).WaitsOn c :=
  fun h => h.elim id id

omit [DecidableEq C] in
theorem SyncPc.not_waitsOn_unreferencing (w : WaitCall M C) (depth : Nat) (code : Int) (c : C) :
    ¬ (SyncPc.unreferencing w depth code).WaitsOn c :=
  fun h => h.elim id id

omit [DecidableEq C] in
theorem SyncPc.not_waitsOn_relocking (w : WaitCall M C) (depth : Nat) (timedOut : Bool)
    {restored : Nat} {blocked : Bool} (c : C) :
    ¬ (SyncPc.relocking w depth timedOut restored blocked).WaitsOn c :=
  fun h => h.elim id id

end Places

namespace SyncSystem

variable {T M C : Type*} [DecidableEq T] [DecidableEq M] [DecidableEq C]

/-- How a step of `t` looks from the condition variable `c`. -/
inductive CondMoves (t : T) (c : C) (s s' : SyncSystem T M C) : Prop where
  | frame (p' : SyncPc M C) (hpc : s'.pc = Function.update s.pc t p')
      (hsleeps : p'.SleepsOn c ↔ (s.pc t).SleepsOn c)
      (hregisters : p'.RegistersOn c ↔ (s.pc t).RegistersOn c)
      (hholder : ∀ u, s'.registering = some (u, c) ↔ s.registering = some (u, c))
      (hcond : s'.condState c = s.condState c) (hhistory : s'.histories c = s.histories c)
  | registers (p' : SyncPc M C) (hpc : s'.pc = Function.update s.pc t p')
      (hfrom : ¬ (s.pc t).WaitsOn c) (hp' : p'.RegistersOn c) (hfree : s.registering = none)
      (hholder : s'.registering = some (t, c))
      (hcond : s'.condState c = (s.condState c).registerWaiter)
      (hhistory : s'.histories c = s.histories c)
  | unregisters (p' : SyncPc M C) (hpc : s'.pc = Function.update s.pc t p')
      (hfrom : (s.pc t).RegistersOn c) (hp' : ¬ p'.WaitsOn c) (hholder : s'.registering = none)
      (hcond : s'.condState c = (s.condState c).unregisterWaiter)
      (hhistory : s'.histories c = s.histories c)
  | sleeps (p' : SyncPc M C) (hpc : s'.pc = Function.update s.pc t p')
      (hfrom : (s.pc t).RegistersOn c) (hp' : p'.SleepsOn c) (hholder : s'.registering = none)
      (hnone : (s.condState c).pendingWakeups = 0) (hcond : s'.condState c = s.condState c)
      (hhistory : s'.histories c = (s.histories c).begin t)
  /-- A wait that begins with a wakeup. -/
  | begins (p' : SyncPc M C) (which : Nat) (hpc : s'.pc = Function.update s.pc t p')
      (hfrom : ∃ w depth, s.pc t = .testing w depth ∧ w.cond = c) (hp' : ¬ p'.WaitsOn c)
      (hholder : s'.registering = none) (hsome : (s.condState c).pendingWakeups ≠ 0)
      (hcond : s'.condState c = (s.condState c).consumeWakeup)
      (hhistory : s'.histories c = ((s.histories c).begin t).consume t which)
  | wakes (p' : SyncPc M C) (which : Nat) (hpc : s'.pc = Function.update s.pc t p')
      (hfrom : (s.pc t).SleepsOn c) (hp' : ¬ p'.WaitsOn c)
      (hholder : s'.registering = s.registering) (hsome : (s.condState c).pendingWakeups ≠ 0)
      (hcond : s'.condState c = (s.condState c).consumeWakeup)
      (hhistory : s'.histories c = (s.histories c).consume t which)
  | expires (p' : SyncPc M C) (hpc : s'.pc = Function.update s.pc t p')
      (hfrom : (s.pc t).SleepsOn c) (hp' : ¬ p'.WaitsOn c)
      (hholder : s'.registering = s.registering) (hnone : (s.condState c).pendingWakeups = 0)
      (hcond : s'.condState c = (s.condState c).unregisterWaiter)
      (hhistory : s'.histories c = (s.histories c).leave t)
  | signals (hpc : s'.pc = s.pc) (hfree : s.registering = none) (hholder : s'.registering = none)
      (hcond : s'.condState c = (s.condState c).signal)
      (hhistory : s'.histories c = (s.histories c).issue
        ((s.condState c).signal.pendingWakeups - (s.condState c).pendingWakeups))
  | broadcasts (hpc : s'.pc = s.pc) (hfree : s.registering = none)
      (hholder : s'.registering = none)
      (hcond : s'.condState c = (s.condState c).broadcast)
      (hhistory : s'.histories c = ((s.histories c).issue
        ((s.condState c).broadcast.pendingWakeups - (s.condState c).pendingWakeups)).owe
          (s.sleepers c))

/-- `registering` names the thread that holds the lock of `c`. -/
def HolderOk (s : SyncSystem T M C) : Prop :=
  ∀ c t, (s.pc t).RegistersOn c ↔ s.registering = some (t, c)

variable {mutexType : M → MutexType} {s s' : SyncSystem T M C} {t : T} {c : C}

omit [DecidableEq T] [DecidableEq M] in
theorem condState_self {w : CondWaitState} {f : C → Option CondWaitState}
    (h : s'.conds = Function.update f c (some w)) : s'.condState c = w := by
  unfold condState
  rw [h, Function.update_self]
  rfl

omit [DecidableEq T] [DecidableEq M] [DecidableEq C] in
theorem condState_of_eq (h : s'.conds c = s.conds c) : s'.condState c = s.condState c := by
  unfold condState
  rw [h]

omit [DecidableEq T] [DecidableEq M] [DecidableEq C] in
theorem condState_of_some {w : CondWaitState} (h : s.conds c = some w) : s.condState c = w := by
  unfold condState
  rw [h]
  rfl

omit [DecidableEq M] in
/-- A step outside the condition variables. -/
theorem condMoves_outside {p' : SyncPc M C} (hpc : s'.pc = Function.update s.pc t p')
    (hfrom : ∀ c, ¬ (s.pc t).WaitsOn c) (hp' : ∀ c, ¬ p'.WaitsOn c)
    (hholder : s'.registering = s.registering) (hconds : s'.conds = s.conds)
    (hhistories : s'.histories = s.histories) : CondMoves t c s s' := by
  refine .frame p' hpc ?_ ?_ (fun u => by rw [hholder]) ?_ (congrFun hhistories c)
  · exact ⟨fun h => absurd (Or.inl h) (hp' c), fun h => absurd (Or.inl h) (hfrom c)⟩
  · exact ⟨fun h => absurd (Or.inr h) (hp' c), fun h => absurd (Or.inr h) (hfrom c)⟩
  · unfold condState
    rw [hconds]

omit [DecidableEq M] in
/-- A step on another condition variable, which `t` registers on or leaves. -/
theorem condMoves_elsewhere {w : WaitCall M C} {p' : SyncPc M C} (hne : c ≠ w.cond)
    (hpc : s'.pc = Function.update s.pc t p')
    (hfrom : ∀ c', (s.pc t).WaitsOn c' → c' = w.cond) (hp' : ∀ c', p'.WaitsOn c' → c' = w.cond)
    (hholder : ∀ u, s'.registering = some (u, c) ↔ s.registering = some (u, c))
    (hcond : s'.condState c = s.condState c) (hhistory : s'.histories c = s.histories c) :
    CondMoves t c s s' := by
  refine .frame p' hpc ?_ ?_ hholder hcond hhistory
  · exact ⟨fun h => absurd (hp' c (Or.inl h)) hne, fun h => absurd (hfrom c (Or.inl h)) hne⟩
  · exact ⟨fun h => absurd (hp' c (Or.inr h)) hne, fun h => absurd (hfrom c (Or.inr h)) hne⟩

omit [DecidableEq T] [DecidableEq M] [DecidableEq C] in
theorem waitsOn_eq {w : WaitCall M C} {d : Nat} {pc : SyncPc M C}
    (hpc : pc = .registering w ∨ pc = .releasing w d ∨ pc = .testing w d ∨
      pc = .asleep w d) {c' : C} (h : pc.WaitsOn c') : c' = w.cond := by
  rcases hpc with rfl | rfl | rfl | rfl
  · exact h.elim (fun h => h.elim) Eq.symm
  · exact h.elim (fun h => h.elim) Eq.symm
  · exact h.elim (fun h => h.elim) Eq.symm
  · exact h.elim Eq.symm fun h => h.elim

omit [DecidableEq M] in
/-- A registration that fails. -/
theorem condMoves_unregister (hholder : HolderOk s) {w : WaitCall M C} {d : Nat}
    (hpc : s.pc t = .registering w ∨ s.pc t = .releasing w d) {p' : SyncPc M C}
    (hpc' : s'.pc = Function.update s.pc t p') (hp' : ∀ c, ¬ p'.WaitsOn c)
    (hregistering : s'.registering = none) (hconds : s'.conds = (s.unregister w.cond).conds)
    (hhistories : s'.histories = (s.unregister w.cond).histories) : CondMoves t c s s' := by
  have hregisters : (s.pc t).RegistersOn w.cond := by
    cases hpc with
    | inl he => rw [he]; rfl
    | inr he => rw [he]; rfl
  have hcondState : ∀ c', s'.condState c' = (s.unregister w.cond).condState c' := by
    intro c'
    unfold condState
    rw [hconds]
  by_cases hc : c = w.cond
  · subst hc
    refine .unregisters p' hpc' hregisters (hp' _) hregistering ?_ ?_
    · rw [hcondState]
      exact condState_self rfl
    · rw [hhistories]
      exact Function.update_self _ _ _
  · refine condMoves_elsewhere hc hpc' (fun c' => waitsOn_eq (d := d) ?_)
      (fun c' h => absurd h (hp' c')) (fun u => ?_) ?_ ?_
    · cases hpc with
      | inl he => exact Or.inl he
      | inr he => exact Or.inr (Or.inl he)
    · rw [hregistering, (hholder w.cond t).mp hregisters]
      simp [Ne.symm hc]
    · rw [hcondState]
      exact condState_of_eq (Function.update_of_ne hc _ _)
    · rw [hhistories]
      exact Function.update_of_ne hc _ _

omit [DecidableEq M] in
theorem wait_condMoves (hpc : s.pc t = .idle) {w : WaitCall M C} {abstimeOk : Bool}
    (hs : s.wait t w abstimeOk = some s') (c : C) : CondMoves t c s s' := by
  have hfrom : ∀ c, ¬ (s.pc t).WaitsOn c := fun c h => by
    rw [hpc] at h
    exact h.elim id id
  have hidle := SyncPc.not_waitsOn_idle (M := M) (C := C)
  cases wait_spec hs with
  | untimely hearly => exact condMoves_outside rfl hfrom hidle rfl rfl rfl
  | noMutex hlate hfree =>
    by_cases hc : c = w.cond
    · subst hc
      refine .frame .idle rfl ?_ ?_ (fun _ => Iff.rfl) ?_ ?_
      · rw [hpc]
      · rw [hpc]
      · exact condState_self rfl
      · exact Function.update_self _ _ _
    · refine condMoves_elsewhere hc rfl (fun c' h => absurd h (hfrom c'))
        (fun c' h => absurd h (hidle c')) (fun _ => Iff.rfl) ?_ ?_
      · exact condState_of_eq (Function.update_of_ne hc _ _)
      · exact Function.update_of_ne hc _ _
  | registers hlate hfree =>
    by_cases hc : c = w.cond
    · subst hc
      refine .registers (.registering w) rfl (hfrom _) rfl hfree rfl ?_ ?_
      · exact condState_self rfl
      · exact Function.update_self _ _ _
    · refine condMoves_elsewhere hc rfl (fun c' h => absurd h (hfrom c'))
        (fun c' => waitsOn_eq (d := 0) (Or.inl rfl)) (fun u => ?_) ?_ ?_
      · rw [hfree]
        simp [Ne.symm hc]
      · exact condState_of_eq (Function.update_of_ne hc _ _)
      · exact Function.update_of_ne hc _ _

theorem addReference_condMoves (hholder : HolderOk s) {w : WaitCall M C}
    (hpc : s.pc t = .registering w) (hs : s.addReference t w = some s') (c : C) :
    CondMoves t c s s' := by
  obtain ⟨l, _, hout⟩ := addReference_spec hs
  cases hout with
  | notOwner howner =>
    exact condMoves_unregister hholder (d := 0) (Or.inl hpc) rfl SyncPc.not_waitsOn_idle rfl rfl rfl
  | owner howner =>
    refine .frame (.releasing w _) rfl ?_ ?_ (fun _ => Iff.rfl) rfl rfl
    · rw [hpc]
      exact Iff.rfl
    · rw [hpc]
      exact Iff.rfl

theorem release_condMoves (hholder : HolderOk s) {w : WaitCall M C} {depth : Nat}
    (hpc : s.pc t = .releasing w depth) (hs : s.release mutexType t w depth = some s') (c : C) :
    CondMoves t c s s' := by
  obtain ⟨l, _, hout⟩ := release_spec hs
  cases hout with
  | fails hcode =>
    exact condMoves_unregister hholder (Or.inr hpc) rfl (SyncPc.not_waitsOn_unreferencing w depth _)
      rfl rfl rfl
  | succeeds hcode =>
    refine .frame (.testing w depth) rfl ?_ ?_ (fun _ => Iff.rfl) rfl rfl
    · rw [hpc]
      exact Iff.rfl
    · rw [hpc]
      exact Iff.rfl

omit [DecidableEq M] in
theorem test_condMoves (hholder : HolderOk s) {w : WaitCall M C} {depth : Nat}
    (hpc : s.pc t = .testing w depth) (which : Nat) (c : C) :
    CondMoves t c s (s.test t w depth which) := by
  have hregisters : (s.pc t).RegistersOn w.cond := by rw [hpc]; rfl
  have hfrom : ∀ c', (s.pc t).WaitsOn c' → c' = w.cond := fun c' =>
    waitsOn_eq (Or.inr (Or.inr (Or.inl hpc)))
  have hcond : (s.setCond w.cond (s.condState w.cond) ((s.histories w.cond).begin t)).condState
      w.cond = s.condState w.cond := condState_self rfl
  have hhistory : (s.setCond w.cond (s.condState w.cond) ((s.histories w.cond).begin t)).histories
      w.cond = (s.histories w.cond).begin t := Function.update_self _ _ _
  unfold test
  dsimp only
  split
  · rename_i hnone
    by_cases hc : c = w.cond
    · subst hc
      refine .sleeps (.asleep w depth) rfl hregisters rfl rfl ?_ hcond hhistory
      rw [← hcond]
      exact hnone
    · refine condMoves_elsewhere hc rfl hfrom
        (fun c' => waitsOn_eq (Or.inr (Or.inr (Or.inr rfl)))) (fun u => ?_) ?_ ?_
      · rw [(hholder w.cond t).mp hregisters]
        simp [goto, Ne.symm hc]
      · exact condState_of_eq (Function.update_of_ne hc _ _)
      · exact Function.update_of_ne hc _ _
  · rename_i hsome
    have hsome' : (s.condState w.cond).pendingWakeups ≠ 0 := by
      rw [← hcond]
      exact hsome
    unfold consume
    by_cases hc : c = w.cond
    · subst hc
      refine .begins (.relocking w depth false 0 false) which rfl ⟨w, depth, hpc, rfl⟩
        (SyncPc.not_waitsOn_relocking w depth false _) rfl hsome' ?_ ?_
      · exact (condState_self rfl).trans (congrArg CondWaitState.consumeWakeup hcond)
      · refine (Function.update_self _ _ _).trans ?_
        exact congrArg (fun h => h.consume t which) hhistory
    · refine condMoves_elsewhere hc rfl hfrom 
        (fun c' h => absurd h (SyncPc.not_waitsOn_relocking w depth false c')) (fun u => ?_) ?_ ?_
      · rw [(hholder w.cond t).mp hregisters]
        simp [goto, setCond, Ne.symm hc]
      · refine condState_of_eq ((Function.update_of_ne hc _ _).trans ?_)
        exact Function.update_of_ne hc _ _
      · refine (Function.update_of_ne hc _ _).trans ?_
        exact Function.update_of_ne hc _ _

omit [DecidableEq M] in
theorem wakeWait_condMoves {w : WaitCall M C} {depth : Nat} (hpc : s.pc t = .asleep w depth)
    {expired : Bool} {which : Nat} (hs : s.wakeWait t w depth expired which = some s') (c : C) :
    CondMoves t c s s' := by
  have hsleeps : (s.pc t).SleepsOn w.cond := by rw [hpc]; rfl
  have hfrom : ∀ c', (s.pc t).WaitsOn c' → c' = w.cond := fun c' =>
    waitsOn_eq (Or.inr (Or.inr (Or.inr hpc)))
  have hgone := SyncPc.not_waitsOn_relocking w depth
  cases wakeWait_spec hs with
  | consumes hsome =>
    by_cases hc : c = w.cond
    · subst hc
      exact .wakes _ which rfl hsleeps (hgone false _) rfl hsome (condState_self rfl)
        (Function.update_self _ _ _)
    · exact condMoves_elsewhere hc rfl hfrom (fun c' h => absurd h (hgone false c'))
        (fun _ => Iff.rfl) (condState_of_eq (Function.update_of_ne hc _ _))
        (Function.update_of_ne hc _ _)
  | expires hnone htimed =>
    by_cases hc : c = w.cond
    · subst hc
      exact .expires _ rfl hsleeps (hgone true _) rfl hnone (condState_self rfl)
        (Function.update_self _ _ _)
    · exact condMoves_elsewhere hc rfl hfrom (fun c' h => absurd h (hgone true c'))
        (fun _ => Iff.rfl) (condState_of_eq (Function.update_of_ne hc _ _))
        (Function.update_of_ne hc _ _)
  | sleeps hnone =>
    exact .frame (s.pc t) (Function.update_eq_self t s.pc).symm Iff.rfl Iff.rfl (fun _ => Iff.rfl)
      rfl rfl

end SyncSystem

end Rlibc.Pthread
