import Rlibc.Pthread.MutexInvariant

/-!
# Safety of a mutex

Every critical section of a mutex keeps its lock state in agreement with its threads, whether it
was run by an ordinary locker or by a condition wait.
-/

namespace Rlibc.Pthread

/-- No place in the code of a mutex other than `m`. -/
def SyncPc.Only {M C : Type*} (m : M) (pc : SyncPc M C) : Prop :=
  ∀ m', m' ≠ m → ¬ pc.BlockedOn m' ∧ ¬ pc.Refers m'

theorem SyncPc.only_idle {M C : Type*} (m : M) : (SyncPc.idle : SyncPc M C).Only m :=
  fun _ _ => ⟨id, id⟩

theorem SyncPc.only_locking {M C : Type*} (m : M) : (SyncPc.locking m : SyncPc M C).Only m :=
  fun _ hne => ⟨fun he => hne (Eq.symm he), id⟩

/-- The condition wait that holds a reference to its mutex. -/
def SyncPc.waitCall {M C : Type*} : SyncPc M C → Option (WaitCall M C)
  | .releasing w _ | .testing w _ | .asleep w _ | .relocking w _ _ _ _ | .unreferencing w _ _ =>
    some w
  | _ => none

theorem SyncPc.only_of_waitCall {M C : Type*} {w : WaitCall M C} (pc : SyncPc M C)
    (h : pc.waitCall = some w) : pc.Only w.mutex := by
  intro x hne
  cases pc <;> simp_all [SyncPc.waitCall, SyncPc.BlockedOn, SyncPc.Refers, Ne.symm hne]

theorem SyncPc.refers_of_waitCall {M C : Type*} {w : WaitCall M C} {pc : SyncPc M C}
    (h : pc.waitCall = some w) : pc.Refers w.mutex := by
  cases pc <;> simp_all [SyncPc.waitCall, SyncPc.Refers]

namespace SyncSystem

variable {T M C : Type*} [DecidableEq T] [DecidableEq M] [DecidableEq C] [Fintype T]
variable {mutexType : M → MutexType} {s s' : SyncSystem T M C} {m : M} {t : T}

/-- A step of `t` on one mutex, seen from all of them. -/
theorem mutexOk_all (h : ∀ x, MutexOk mutexType s x) (hm : MutexOk mutexType s' m)
    {p' : SyncPc M C} (hmutexes : ∀ x, x ≠ m → s'.mutexes x = s.mutexes x)
    (hpc : s'.pc = Function.update s.pc t p') (hlog : Extends t s.returns s'.returns)
    (honly : (s.pc t).Only m) (honly' : p'.Only m)
    (hcounts : ∀ x, x ≠ m → locks s'.returns t x = locks s.returns t x ∧
      unlocks s'.returns t x = unlocks s.returns t x) (x : M) : MutexOk mutexType s' x := by
  by_cases he : x = m
  · exact he ▸ hm
  · have hold := honly x he
    have hnew := honly' x he
    refine (h x).frame (hmutexes x he) hpc hlog ?_ ?_ (fun l _ hr => absurd hr hnew.2) ?_
      (hcounts x he)
    · simp only [hold.1, hnew.1]
    · simp only [hold.2, hnew.2]
    · rw [SyncPc.released_eq_none hold.2, SyncPc.released_eq_none hnew.2]

/-- A call that has nothing to do with mutexes, or that failed, returns from a place outside
them. -/
theorem mutexOk_return (h : ∀ x, MutexOk mutexType s x) {call : SyncCall M C} {code : Int}
    (hmutexes : s'.mutexes = s.mutexes) (hpc : s'.pc = Function.update s.pc t .idle)
    (hlog : s'.returns = ⟨t, call, code⟩ :: s.returns)
    (hplace : ∀ x, ¬ (s.pc t).BlockedOn x ∧ ¬ (s.pc t).Refers x)
    (hcode : code ≠ 0 ∨ ∀ x, call ≠ .lock x ∧ call ≠ .trylock x ∧ call ≠ .unlock x) (x : M) :
    MutexOk mutexType s' x := by
  refine (h x).frame (congrFun hmutexes x) hpc (Or.inr ⟨call, code, hlog⟩) ?_ ?_
    (fun l _ hr => hr.elim) ?_ ?_
  · exact ⟨fun hb => hb.elim, fun hb => absurd hb (hplace x).1⟩
  · exact ⟨fun hr => hr.elim, fun hr => absurd hr (hplace x).2⟩
  · rw [SyncPc.released_eq_none (hplace x).2]
    rfl
  · rw [hlog, locks_cons, unlocks_cons]
    cases hcode with
    | inl hcode => simp [hcode]
    | inr hcall => simp [hcall x]

/-! ## Lock and unlock -/

omit [Fintype T] [DecidableEq T] in
theorem LockOk.depth_pos {ty : MutexType} {l : MutexLockState T} (h : LockOk ty l)
    (howner : l.owner = some t) : 0 < l.recursionDepth := by
  apply Nat.pos_of_ne_zero
  intro hz
  rw [h.free.mpr hz] at howner
  exact absurd howner (by simp)

omit [DecidableEq T] [Fintype T] in
/-- The owner changes between nobody and `t`. -/
theorem othersKeep_of_own {l l' : MutexLockState T}
    (hown : l.owner = none ∨ l.owner = some t) (hown' : l'.owner = none ∨ l'.owner = some t) :
    OthersKeep t l l' := by
  intro u hu
  have hne : ∀ x : MutexLockState T, x.owner = none ∨ x.owner = some t → x.owner ≠ some u := by
    intro x hx he
    cases hx with
    | inl hx => rw [hx] at he; exact absurd he (by simp)
    | inr hx => exact hu (Option.some.inj (he.symm.trans hx))
  have h1 := hne l hown
  have h2 := hne l' hown'
  exact ⟨by simp [h1, h2], fun he => absurd he h1⟩

/-- The lock state that a turn starts from: a woken waiter has left the counter. -/
def wokenState (l : MutexLockState T) (blocked : Bool) : MutexLockState T :=
  if blocked then l.unregisterWaiter else l

/-- What a turn of `mutex_lock_internal` does to the owner fields: it locks one level for `t`, or
it leaves them alone. -/
inductive TurnEffect (ty : MutexType) (l : MutexLockState T) (t : T) (tryOnly : Bool) :
    MutexLockState T → Option Int → Prop where
  | locked {l' : MutexLockState T} (howner : l'.owner = some t)
      (hdepth : l'.recursionDepth = saturatingAdd (l.heldDepth t) 1)
      (hbefore : l.owner = none ∨ (l.owner = some t ∧ ty = .recursive)) :
      TurnEffect ty l t tryOnly l' (some 0)
  | same {l' : MutexLockState T} {out : Option Int} (howner : l'.owner = l.owner)
      (hdepth : l'.recursionDepth = l.recursionDepth) (hout : out ≠ some 0)
      (hfails : out ≠ none → tryOnly = true ∨ (l.owner = some t ∧ ty ≠ .recursive))
      (hwaits : out = none → l.owner = some t → ty = .normal) :
      TurnEffect ty l t tryOnly l' out

omit [Fintype T] in
theorem lockTurn_effect {ty : MutexType} {l : MutexLockState T} {blocked tryOnly : Bool}
    {turn : MutexLockState T × Option Int}
    (hturn : (wokenState l blocked).LockTurn ty t tryOnly turn) :
    TurnEffect ty l t tryOnly turn.1 turn.2 := by
  have howner : (wokenState l blocked).owner = l.owner := by cases blocked <;> rfl
  have hdepth : (wokenState l blocked).recursionDepth = l.recursionDepth := by
    cases blocked <;> rfl
  cases hturn with
  | fails code hcode hcause =>
    rw [howner] at hcause
    exact .same howner hdepth (by simpa using hcode) (fun _ => hcause) (by simp)
  | acquires hfree =>
    rw [howner] at hfree
    refine .locked rfl ?_ (Or.inl hfree)
    unfold MutexLockState.heldDepth
    rw [hfree]
    rfl
  | deepens hself htype =>
    rw [howner] at hself
    refine .locked (howner.trans hself) ?_ (Or.inr ⟨hself, htype⟩)
    unfold MutexLockState.heldDepth
    rw [if_pos hself, hdepth]
  | waits htry howned hself =>
    rw [howner] at hself
    exact .same howner hdepth (by simp) (by simp) fun _ => hself

/-- The counters after a turn. -/
theorem MutexOk.turn_counts (h : MutexOk mutexType s m) (hcard : Fintype.card T ≤ usizeMax)
    {l : MutexLockState T} (hl : s.mutexes m = some l) {blocked tryOnly : Bool}
    (hblocked : (s.pc t).BlockedOn m ↔ blocked = true)
    {turn : MutexLockState T × Option Int}
    (hturn : (wokenState l blocked).LockTurn (mutexType m) t tryOnly turn) :
    turn.1.waiterCount + (if (s.pc t).BlockedOn m then 1 else 0) =
      l.waiterCount + (if turn.2 = none then 1 else 0) ∧
    turn.1.condWaiterCount = l.condWaiterCount := by
  have hw := h.waiters l hl
  have hcond : (wokenState l blocked).condWaiterCount = l.condWaiterCount := by
    cases blocked <;> rfl
  have hwoken : (wokenState l blocked).waiterCount +
      (if (s.pc t).BlockedOn m then 1 else 0) = l.waiterCount := by
    cases blocked with
    | false => simp [hblocked, wokenState]
    | true =>
      have hyes : (s.pc t).BlockedOn m := hblocked.mpr rfl
      have hpos := Census.count_pos _ _ hyes
      simp only [wokenState, hyes, if_true, MutexLockState.unregisterWaiter]
      omega
  have hroom : (wokenState l blocked).waiterCount + 1 ≤ usizeMax := by
    by_cases hb : (s.pc t).BlockedOn m
    · have hle := Census.count_le_card (SyncPc.BlockedOn m) s.pc
      rw [if_pos hb] at hwoken
      omega
    · have hlt := Census.count_lt_card (SyncPc.BlockedOn m) s.pc hb
      rw [if_neg hb] at hwoken
      omega
  cases hturn with
  | fails code hcode hcause => exact ⟨by simpa using hwoken, hcond⟩
  | acquires hfree => exact ⟨by simpa using hwoken, hcond⟩
  | deepens hself htype => exact ⟨by simpa using hwoken, hcond⟩
  | waits htry howned hself =>
    refine ⟨?_, hcond⟩
    simp only [MutexLockState.registerWaiter, if_true]
    rw [saturatingAdd_of_le hroom]
    omega

omit [Fintype T] in
theorem TurnEffect.lockOk {ty : MutexType} {l l' : MutexLockState T} {tryOnly : Bool}
    {out : Option Int} (h : TurnEffect ty l t tryOnly l' out) (hok : LockOk ty l) :
    LockOk ty l' := by
  cases h with
  | locked howner hdepth hbefore =>
    have hpos : 0 < l'.recursionDepth := by
      rw [hdepth]
      unfold saturatingAdd usizeMax
      omega
    refine ⟨?_, hdepth ▸ Nat.min_le_right _ _, fun hty => ?_⟩
    · simp only [howner, reduceCtorEq, false_iff]
      omega
    · have hfree := hbefore.resolve_right fun hr => hty hr.2
      rw [hdepth, MutexLockState.heldDepth, hfree, if_neg (by simp)]
      decide
  | same howner hdepth _ _ _ =>
    exact ⟨by rw [howner, hdepth]; exact hok.free, by rw [hdepth]; exact hok.bounded,
      by rw [hdepth]; exact hok.flat⟩

omit [Fintype T] in
theorem TurnEffect.othersKeep {ty : MutexType} {l l' : MutexLockState T} {tryOnly : Bool}
    {out : Option Int} (h : TurnEffect ty l t tryOnly l' out) : OthersKeep t l l' := by
  cases h with
  | locked howner hdepth hbefore =>
    exact othersKeep_of_own (hbefore.imp_right fun hr => hr.1) (Or.inr howner)
  | same howner hdepth _ _ _ =>
    intro u _
    rw [howner, hdepth]
    exact ⟨Iff.rfl, fun _ => rfl⟩

/-- A turn of `pthread_mutex_lock` or `pthread_mutex_trylock`. -/
theorem finishLock_mutexOk (hcard : Fintype.card T ≤ usizeMax)
    (h : ∀ x, MutexOk mutexType s x) {l : MutexLockState T} (hl : s.mutexes m = some l)
    {blocked tryOnly : Bool} (hpc : s.pc t = if blocked then .locking m else .idle)
    {call : SyncCall M C} (hcall : call = .lock m ∨ call = .trylock m)
    {turn : MutexLockState T × Option Int}
    (hturn : (wokenState l blocked).LockTurn (mutexType m) t tryOnly turn) :
    ∀ x, MutexOk mutexType (s.finishLock t m call turn) x := by
  have hblocked : (s.pc t).BlockedOn m ↔ blocked = true := by
    rw [hpc]
    cases blocked <;> simp [SyncPc.BlockedOn]
  have hrefers : ∀ y, ¬ (s.pc t).Refers y := by
    intro y
    rw [hpc]
    cases blocked <;> simp [SyncPc.Refers]
  have honly : (s.pc t).Only m := by
    intro y hy
    refine ⟨?_, hrefers y⟩
    rw [hpc]
    cases blocked <;> simp [SyncPc.BlockedOn, Ne.symm hy]
  have hreleased := SyncPc.released_eq_none (hrefers m)
  have hcounts := (h m).turn_counts hcard hl hblocked hturn
  have heffect := lockTurn_effect hturn
  have hmutex : (s.setMutex m turn.1).mutexes m = some turn.1 := Function.update_self _ _ _
  have hok := heffect.lockOk ((h m).lockOk l hl)
  have hkeep := heffect.othersKeep
  unfold finishLock
  cases hout : turn.2 with
  | none =>
    rw [hout] at hcounts heffect
    refine mutexOk_all h (m := m) (t := t) ?_
      (fun y hy => Function.update_of_ne hy _ _) rfl (Or.inl rfl) honly
      (SyncPc.only_locking m) (fun _ _ => ⟨rfl, rfl⟩)
    refine (h m).move hl hmutex rfl (Or.inl rfl) hok hkeep ?_ ?_
      (fun hr => hr.elim) fun _ hbefore => ?_
    · simpa [SyncPc.BlockedOn] using hcounts.1
    · rw [hcounts.2, if_neg (hrefers m)]
      rfl
    · rw [level_eq_heldDepth hl hreleased] at hbefore
      rw [level_eq_heldDepth (s := (s.setMutex m turn.1).goto t (.locking m)) hmutex
        (by simp [goto, SyncPc.released])]
      cases heffect with
      | same howner hdepth _ _ _ =>
        unfold MutexLockState.heldDepth at hbefore ⊢
        rw [howner, hdepth]
        exact hbefore
  | some code =>
    rw [hout] at hcounts heffect
    have hcountsOther : ∀ y, y ≠ m →
        locks (⟨t, call, code⟩ :: s.returns) t y = locks s.returns t y ∧
          unlocks (⟨t, call, code⟩ :: s.returns) t y = unlocks s.returns t y := by
      intro y hy
      rw [locks_cons, unlocks_cons]
      cases hcall with
      | inl he => simp [he, Ne.symm hy]
      | inr he => simp [he, Ne.symm hy]
    refine mutexOk_all h (m := m) (t := t) ?_
      (fun y hy => Function.update_of_ne hy _ _) rfl
      (Or.inr ⟨call, code, rfl⟩) honly (SyncPc.only_idle m) hcountsOther
    refine (h m).move hl hmutex rfl (Or.inr ⟨call, code, rfl⟩) hok hkeep ?_ ?_
      (fun hr => hr.elim) fun hnever hbefore => ?_
    · simpa [SyncPc.BlockedOn] using hcounts.1
    · rw [hcounts.2, if_neg (hrefers m)]
      rfl
    · rw [level_eq_heldDepth hl hreleased] at hbefore
      rw [level_eq_heldDepth (s := (s.setMutex m turn.1).return_ t call code) hmutex
        (by simp [return_, SyncPc.released])]
      change locks (⟨t, call, code⟩ :: s.returns) t m =
        unlocks (⟨t, call, code⟩ :: s.returns) t m + _
      have hnow := hnever _ (List.suffix_refl _)
      change locks (⟨t, call, code⟩ :: s.returns) t m ≤
        unlocks (⟨t, call, code⟩ :: s.returns) t m + usizeMax at hnow
      cases heffect with
      | locked howner hdepth hbefore' =>
        -- the call that succeeds is the one more lock
        have hlocked : locks (⟨t, call, 0⟩ :: s.returns) t m = locks s.returns t m + 1 ∧
            unlocks (⟨t, call, 0⟩ :: s.returns) t m = unlocks s.returns t m := by
          rw [locks_cons, unlocks_cons]
          cases hcall with
          | inl he => simp [he]
          | inr he => simp [he]
        rw [hlocked.1, hlocked.2] at hnow ⊢
        rw [MutexLockState.heldDepth, if_pos howner, hdepth, saturatingAdd_of_le (by omega)]
        omega
      | same howner hdepth hfail _ _ =>
        have hcode : code ≠ 0 := by simpa using hfail
        rw [locks_cons, unlocks_cons]
        simp only [hcode, false_and, and_false, if_false, Nat.add_zero]
        unfold MutexLockState.heldDepth at hbefore ⊢
        rw [howner, hdepth]
        exact hbefore

theorem unlock_mutexOk (h : ∀ x, MutexOk mutexType s x) (hpc : s.pc t = .idle) (m : M) :
    ∀ x, MutexOk mutexType (s.unlock mutexType t m) x := by
  have hplace : ∀ x, ¬ (s.pc t).BlockedOn x ∧ ¬ (s.pc t).Refers x := by
    intro x
    rw [hpc]
    exact ⟨id, id⟩
  have hreleased := SyncPc.released_eq_none (hplace m).2
  unfold unlock
  split
  · exact mutexOk_return h rfl rfl rfl hplace (Or.inl (by decide))
  · rename_i l hl
    have hlock := (h m).lockOk l hl
    have hspec := l.unlockInternal_spec (mutexType m) t false
    dsimp only
    generalize l.unlockInternal (mutexType m) t false = result at hspec
    have hcounts : ∀ code y, y ≠ m →
        locks (⟨t, .unlock m, code⟩ :: s.returns) t y = locks s.returns t y ∧
          unlocks (⟨t, .unlock m, code⟩ :: s.returns) t y = unlocks s.returns t y := by
      intro code y hy
      rw [locks_cons, unlocks_cons]
      simp [Ne.symm hy]
    refine mutexOk_all h (m := m) (t := t) ?_ (fun y hy => Function.update_of_ne hy _ _) rfl
      (Or.inr ⟨_, _, rfl⟩) (hpc ▸ SyncPc.only_idle m) (SyncPc.only_idle m) (hcounts _)
    have hmutex : (s.setMutex m result.1).mutexes m = some result.1 := Function.update_self _ _ _
    refine (h m).move hl hmutex rfl (Or.inr ⟨_, _, rfl⟩) ?_ ?_ ?_ ?_
      (fun hr => absurd hr (SyncPc.not_refers_idle m)) fun _ hbefore => ?_
    · cases hspec with
      | fails howner => exact hlock
      | lowers howner hdepth hwait =>
        refine ⟨?_, ?_, fun hty => ?_⟩
        · simp only [howner, reduceCtorEq, false_iff]
          omega
        · exact le_trans (Nat.sub_le _ _) hlock.bounded
        · have hflat := hlock.flat hty
          change l.recursionDepth - 1 ≤ 1
          omega
      | releases howner hdepth => exact ⟨by simp, Nat.zero_le _, fun _ => Nat.zero_le _⟩
    · cases hspec with
      | fails howner => exact fun u _ => ⟨Iff.rfl, fun _ => rfl⟩
      | lowers howner hdepth hwait => exact othersKeep_of_own (Or.inr howner) (Or.inr howner)
      | releases howner hdepth => exact othersKeep_of_own (Or.inr howner) (Or.inl rfl)
    · rw [hpc]
      cases hspec <;> rfl
    · rw [hpc]
      cases hspec <;> rfl
    · rw [level_eq_heldDepth hl hreleased] at hbefore
      rw [level_eq_heldDepth (s := (s.setMutex m result.1).return_ t (.unlock m) result.2) hmutex
        (by simp [return_, SyncPc.released])]
      change locks (⟨t, .unlock m, result.2⟩ :: s.returns) t m =
        unlocks (⟨t, .unlock m, result.2⟩ :: s.returns) t m + _
      rw [locks_cons, unlocks_cons]
      unfold MutexLockState.heldDepth at hbefore ⊢
      cases hspec with
      | fails howner => simpa [howner] using hbefore
      | lowers howner hdepth hwait =>
        rw [if_pos howner] at hbefore ⊢
        simp only [reduceCtorEq, or_self, and_false, if_false, true_and, if_true]
        omega
      | releases howner hdepth =>
        rw [if_pos howner] at hbefore
        have hone : l.recursionDepth = 1 := by
          have hpos := hlock.depth_pos howner
          have hle : l.recursionDepth ≤ 1 := by
            cases hdepth with
            | inl hw => exact absurd hw (by simp)
            | inr hr => exact hr.elim (fun hty => hlock.flat hty) id
          omega
        simp only [reduceCtorEq, or_self, and_false, if_false, true_and, if_true]
        omega

/-- The test of `pthread_mutex_destroy` covers the owner, the blocked threads and the condition
waits. -/
theorem MutexOk.unused (h : MutexOk mutexType s m) {l : MutexLockState T}
    (hl : s.mutexes m = some l) (hbusy : ¬ l.Busy) :
    l.owner = none ∧ ∀ u, ¬ (s.pc u).BlockedOn m ∧ ¬ (s.pc u).Refers m := by
  simp only [MutexLockState.Busy, not_or, Bool.not_eq_true, Option.isSome_eq_false_iff,
    Option.isNone_iff_eq_none, not_not] at hbusy
  have hblocked := (Census.count_eq_zero_iff _ _).mp ((h.waiters l hl).symm.trans hbusy.2.1)
  have hrefers := (Census.count_eq_zero_iff _ _).mp ((h.references l hl).symm.trans hbusy.2.2)
  exact ⟨hbusy.1, fun u => ⟨hblocked u, hrefers u⟩⟩

/-- `destroy` frees a lock state to which no thread refers. -/
theorem destroy_mutexOk (h : ∀ x, MutexOk mutexType s x) (hpc : s.pc t = .idle) (m : M) :
    ∀ x, MutexOk mutexType (s.destroy t m) x := by
  have hplace : ∀ x, ¬ (s.pc t).BlockedOn x ∧ ¬ (s.pc t).Refers x := by
    intro x
    rw [hpc]
    exact ⟨id, id⟩
  unfold destroy
  split
  · exact mutexOk_return h rfl rfl rfl hplace (Or.inl (by decide))
  · rename_i l hl
    split
    · exact mutexOk_return h rfl rfl rfl hplace (Or.inl (by decide))
    · rename_i hbusy
      have hunused := (h m).unused hl hbusy
      have hcounts : ∀ y, locks (⟨t, .destroy m, 0⟩ :: s.returns) y m = locks s.returns y m ∧
          unlocks (⟨t, .destroy m, 0⟩ :: s.returns) y m = unlocks s.returns y m := by
        intro y
        rw [locks_cons, unlocks_cons]
        simp
      have hcounts' : ∀ y, y ≠ m →
          locks (⟨t, .destroy m, 0⟩ :: s.returns) t y = locks s.returns t y ∧
            unlocks (⟨t, .destroy m, 0⟩ :: s.returns) t y = unlocks s.returns t y := by
        intro y _
        rw [locks_cons, unlocks_cons]
        simp
      refine mutexOk_all h (m := m) (t := t) ?_ (fun y hy => Function.update_of_ne hy _ _) rfl
        (Or.inr ⟨_, _, rfl⟩) (hpc ▸ SyncPc.only_idle m) (SyncPc.only_idle m) hcounts'
      have hfreed : ∀ u, ¬ (Function.update s.pc t .idle u).BlockedOn m ∧
          ¬ (Function.update s.pc t .idle u).Refers m := by
        intro u
        by_cases he : u = t
        · rw [he, Function.update_self]
          exact ⟨id, id⟩
        · rw [Function.update_of_ne he]
          exact hunused.2 u
      have hnull : Function.update s.mutexes m none m = none := Function.update_self _ _ _
      refine ⟨fun x hx => ?_, fun x hx => ?_, fun x hx => ?_, fun _ => hfreed, fun x hx => ?_,
        fun u hu => ?_⟩
      · exact absurd (hnull.symm.trans hx) (by simp)
      · exact absurd (hnull.symm.trans hx) (by simp)
      · exact absurd (hnull.symm.trans hx) (by simp)
      · exact absurd (hnull.symm.trans hx) (by simp)
      · have hbefore := (h m).levels u hu.tail
        rw [level_eq_heldDepth hl (SyncPc.released_eq_none (hunused.2 u).2),
          MutexLockState.heldDepth, hunused.1, if_neg (by simp)] at hbefore
        rw [level_of_freed hnull (SyncPc.released_eq_none (hfreed u).2)]
        change locks (⟨t, .destroy m, 0⟩ :: s.returns) u m =
          unlocks (⟨t, .destroy m, 0⟩ :: s.returns) u m + 0
        rw [(hcounts u).1, (hcounts u).2]
        exact hbefore

/-! ## The sections of a condition wait -/

theorem wait_mutexOk (h : ∀ x, MutexOk mutexType s x) (hpc : s.pc t = .idle) {w : WaitCall M C}
    {abstimeOk : Bool} (hs : s.wait t w abstimeOk = some s') : ∀ x, MutexOk mutexType s' x := by
  have hplace : ∀ x, ¬ (s.pc t).BlockedOn x ∧ ¬ (s.pc t).Refers x := by
    intro x
    rw [hpc]
    exact ⟨id, id⟩
  cases wait_spec hs with
  | untimely hearly => exact mutexOk_return h rfl rfl rfl hplace (Or.inl (by decide))
  | noMutex hlate hfree => exact mutexOk_return h rfl rfl rfl hplace (Or.inl (by decide))
  | registers hlate hfree =>
    intro x
    refine (h x).frame rfl rfl (Or.inl rfl) ?_ ?_ (fun _ _ hr => hr.elim) ?_ ⟨rfl, rfl⟩
    · exact ⟨fun hb => hb.elim, fun hb => absurd hb (hplace x).1⟩
    · exact ⟨fun hr => hr.elim, fun hr => absurd hr (hplace x).2⟩
    · rw [SyncPc.released_eq_none (hplace x).2]
      rfl

theorem addReference_mutexOk (hcard : Fintype.card T ≤ usizeMax)
    (h : ∀ x, MutexOk mutexType s x) {w : WaitCall M C} (hpc : s.pc t = .registering w)
    (hs : s.addReference t w = some s') : ∀ x, MutexOk mutexType s' x := by
  have hplace : ∀ x, ¬ (s.pc t).BlockedOn x ∧ ¬ (s.pc t).Refers x := by
    intro x
    rw [hpc]
    exact ⟨id, id⟩
  obtain ⟨l, hl, hout⟩ := addReference_spec hs
  cases hout with
  | notOwner howner => exact mutexOk_return h rfl rfl rfl hplace (Or.inl (by decide))
  | owner howner =>
    have hroom := Census.count_lt_card (SyncPc.Refers w.mutex) s.pc (hplace w.mutex).2
    have hrefs := (h w.mutex).references l hl
    refine mutexOk_all h (m := w.mutex) (t := t) ?_
      (fun y hy => Function.update_of_ne hy _ _) rfl (Or.inl rfl)
      (fun y _ => hplace y) (SyncPc.only_of_waitCall (.releasing w l.recursionDepth) rfl)
      (fun _ _ => ⟨rfl, rfl⟩)
    have hmutex : (s.setMutex w.mutex
        { l with condWaiterCount := saturatingAdd l.condWaiterCount 1 }).mutexes w.mutex =
        some { l with condWaiterCount := saturatingAdd l.condWaiterCount 1 } :=
      Function.update_self _ _ _
    have hlock := (h w.mutex).lockOk l hl
    refine (h w.mutex).move hl hmutex rfl (Or.inl rfl)
      ⟨hlock.free, hlock.bounded, hlock.flat⟩ (fun u _ => ⟨Iff.rfl, fun _ => rfl⟩) ?_ ?_
      (fun _ => ⟨howner, rfl⟩) fun _ hbefore => ?_
    · rw [if_neg (hplace w.mutex).1]
      rfl
    · have hnew : (SyncPc.releasing w l.recursionDepth).Refers w.mutex := rfl
      rw [if_neg (hplace w.mutex).2, if_pos hnew]
      change saturatingAdd l.condWaiterCount 1 + 0 = l.condWaiterCount + 1
      rw [saturatingAdd_of_le (by omega)]
    · rw [level_eq_heldDepth hl (SyncPc.released_eq_none (hplace w.mutex).2)] at hbefore
      rw [level_eq_heldDepth (s := (s.setMutex w.mutex _).goto t (.releasing w l.recursionDepth))
        hmutex (by simp [goto, SyncPc.released])]
      exact hbefore

/-- The release of a condition wait always succeeds: the thread has kept the mutex. -/
theorem release_mutexOk (h : ∀ x, MutexOk mutexType s x) {w : WaitCall M C} {depth : Nat}
    (hpc : s.pc t = .releasing w depth) (hs : s.release mutexType t w depth = some s') :
    ∀ x, MutexOk mutexType s' x := by
  obtain ⟨l, hl, hout⟩ := release_spec hs
  have hrefers : (s.pc t).Refers w.mutex := by rw [hpc]; rfl
  have hown : l.owner = some t ∧ l.recursionDepth = depth := by
    have hpcs := (h w.mutex).pcs l hl t hrefers
    rwa [hpc] at hpcs
  have hunlock : l.unlockInternal (mutexType w.mutex) t true =
      ({ l with owner := none, recursionDepth := 0 }, 0) := by
    unfold MutexLockState.unlockInternal
    rw [if_neg (not_not.mpr hown.1), if_neg (by simp)]
  rw [hunlock] at hout
  obtain rfl : s' = (s.setMutex w.mutex { l with owner := none, recursionDepth := 0 }).goto t
      (.testing w depth) := by
    cases hout with
    | fails hcode => exact absurd rfl hcode
    | succeeds hcode => rfl
  have hlock := (h w.mutex).lockOk l hl
  have hpos := hlock.depth_pos hown.1
  refine mutexOk_all h (m := w.mutex) (t := t) ?_ (fun y hy => Function.update_of_ne hy _ _) rfl
    (Or.inl rfl) (SyncPc.only_of_waitCall _ (hpc ▸ rfl))
    (SyncPc.only_of_waitCall (.testing w depth) rfl) (fun _ _ => ⟨rfl, rfl⟩)
  have hmutex : (s.setMutex w.mutex { l with owner := none, recursionDepth := 0 }).mutexes
      w.mutex = some { l with owner := none, recursionDepth := 0 } := Function.update_self _ _ _
  refine (h w.mutex).move hl hmutex rfl (Or.inl rfl)
    ⟨by simp, Nat.zero_le _, fun _ => Nat.zero_le _⟩
    (othersKeep_of_own (Or.inr hown.1) (Or.inl rfl)) ?_ ?_ (fun _ => ⟨by simp, ?_⟩)
    fun _ hbefore => ?_
  · rw [hpc]
    rfl
  · have hnew : (SyncPc.testing w depth).Refers w.mutex := rfl
    rw [if_pos hrefers, if_pos hnew]
  · rw [← hown.2]
    refine ⟨hpos, hlock.bounded, fun hty => ?_⟩
    have hflat := hlock.flat hty
    omega
  · rw [level_eq_heldDepth hl (by rw [hpc]; rfl), MutexLockState.heldDepth, if_pos hown.1,
      hown.2] at hbefore
    have hafter : ((s.setMutex w.mutex { l with owner := none, recursionDepth := 0 }).goto t
        (.testing w depth)).level t w.mutex = depth :=
      level_of_released (by simp [goto, SyncPc.released])
    rw [hafter]
    exact hbefore

/-- A sleep, or the end of one, leaves every lock state alone. -/
theorem sleep_mutexOk (h : ∀ x, MutexOk mutexType s x) {w : WaitCall M C} {depth : Nat}
    (hpc : s.pc t = .testing w depth ∨ s.pc t = .asleep w depth) {p' : SyncPc M C}
    (hp' : p' = .asleep w depth ∨ ∃ timedOut, p' = .relocking w depth timedOut 0 false)
    (hmutexes : s'.mutexes = s.mutexes) (hpc' : s'.pc = Function.update s.pc t p')
    (hreturns : s'.returns = s.returns) : ∀ x, MutexOk mutexType s' x := by
  intro x
  have hold : (¬ (s.pc t).BlockedOn x) ∧ ((s.pc t).Refers x ↔ w.mutex = x) ∧
      (s.pc t).released x = if w.mutex = x then some depth else none := by
    cases hpc with
    | inl he => rw [he]; exact ⟨id, Iff.rfl, rfl⟩
    | inr he => rw [he]; exact ⟨id, Iff.rfl, rfl⟩
  have hnew : (¬ p'.BlockedOn x) ∧ (p'.Refers x ↔ w.mutex = x) ∧
      p'.released x = if w.mutex = x then some depth else none := by
    cases hp' with
    | inl he => rw [he]; exact ⟨id, Iff.rfl, rfl⟩
    | inr he =>
      obtain ⟨timedOut, rfl⟩ := he
      exact ⟨fun hb => absurd hb.1 (by decide), Iff.rfl, rfl⟩
  refine (h x).frame (congrFun hmutexes x) hpc' (Or.inl hreturns) ?_ ?_ ?_ ?_ ?_
  · simp only [hold.1, hnew.1]
  · rw [hold.2.1, hnew.2.1]
  · intro l hl hr
    have hok : l.owner ≠ some t ∧ SavedOk (mutexType x) depth := by
      have hpcs := (h x).pcs l hl t (hold.2.1.mpr (hnew.2.1.mp hr))
      cases hpc with
      | inl he => rwa [he] at hpcs
      | inr he => rwa [he] at hpcs
    cases hp' with
    | inl he => rw [he]; exact hok
    | inr he =>
      obtain ⟨timedOut, rfl⟩ := he
      exact ⟨hok.2, fun _ => hok.1, fun hne => absurd rfl hne⟩
  · rw [hold.2.2, hnew.2.2]
  · rw [hreturns]
    exact ⟨rfl, rfl⟩

theorem test_mutexOk (h : ∀ x, MutexOk mutexType s x) {w : WaitCall M C} {depth : Nat}
    (hpc : s.pc t = .testing w depth) (which : Nat) :
    ∀ x, MutexOk mutexType (s.test t w depth which) x := by
  unfold test
  dsimp only
  split
  · exact sleep_mutexOk h (Or.inl hpc) (Or.inl rfl) rfl rfl rfl
  · exact sleep_mutexOk h (Or.inl hpc) (Or.inr ⟨false, rfl⟩) rfl rfl rfl

theorem wakeWait_mutexOk (h : ∀ x, MutexOk mutexType s x) {w : WaitCall M C} {depth : Nat}
    (hpc : s.pc t = .asleep w depth) {expired : Bool} {which : Nat}
    (hs : s.wakeWait t w depth expired which = some s') : ∀ x, MutexOk mutexType s' x := by
  cases wakeWait_spec hs with
  | consumes hsome => exact sleep_mutexOk h (Or.inr hpc) (Or.inr ⟨false, rfl⟩) rfl rfl rfl
  | expires hnone htimed => exact sleep_mutexOk h (Or.inr hpc) (Or.inr ⟨true, rfl⟩) rfl rfl rfl
  | sleeps hnone => exact h

/-- A turn of the restoring loop locks one level, or waits for the first one. -/
theorem relock_mutexOk (hcard : Fintype.card T ≤ usizeMax) (h : ∀ x, MutexOk mutexType s x)
    {w : WaitCall M C} {depth restored : Nat} {timedOut blocked : Bool}
    (hpc : s.pc t = .relocking w depth timedOut restored blocked)
    (hs : s.relock mutexType t w depth timedOut restored blocked = some s') :
    ∀ x, MutexOk mutexType s' x := by
  obtain ⟨l, hl, l', result, p', hturn, hout, rfl⟩ := relock_spec hs
  have hcall : (s.pc t).waitCall = some w := by rw [hpc]; rfl
  have hrefers := SyncPc.refers_of_waitCall hcall
  have honly := SyncPc.only_of_waitCall _ hcall
  have hplace : SavedOk (mutexType w.mutex) depth ∧ (restored = 0 → l.owner ≠ some t) ∧
      (restored ≠ 0 → l.owner = some t ∧ l.recursionDepth = restored ∧
        mutexType w.mutex = .recursive ∧ restored < depth) := by
    have hpcs := (h w.mutex).pcs l hl t hrefers
    rwa [hpc] at hpcs
  have hblocked : (s.pc t).BlockedOn w.mutex ↔ blocked = true := by
    rw [hpc]
    exact ⟨fun hb => hb.1, fun hb => ⟨hb, rfl⟩⟩
  have hspec := (wokenState l blocked).lockTurn_spec (mutexType w.mutex) t false
  have hwoken : (wokenState l blocked).lockTurn (mutexType w.mutex) t false = (l', result) := hturn
  rw [hwoken] at hspec
  have hcounts := (h w.mutex).turn_counts hcard hl hblocked hspec
  have heffect := lockTurn_effect hspec
  have hlevel : s.level t w.mutex = depth := level_of_released (by rw [hpc]; simp [SyncPc.released])
  have hmutex : (s.setMutex w.mutex l').mutexes w.mutex = some l' := Function.update_self _ _ _
  have hok := heffect.lockOk ((h w.mutex).lockOk l hl)
  have hkeep := heffect.othersKeep
  -- the place after the turn decides the rest
  have hfinish : p'.waitCall = some w → (p'.BlockedOn w.mutex ↔ result = none) →
      PcOk (mutexType w.mutex) t l' p' →
      ((s.setMutex w.mutex l').goto t p').level t w.mutex = depth →
      ∀ x, MutexOk mutexType ((s.setMutex w.mutex l').goto t p') x := by
    intro hcall' hblocked' hpc' hlevel'
    refine mutexOk_all h (m := w.mutex) (t := t) ?_ (fun y hy => Function.update_of_ne hy _ _) rfl
      (Or.inl rfl) honly (SyncPc.only_of_waitCall _ hcall') (fun _ _ => ⟨rfl, rfl⟩)
    refine (h w.mutex).move hl hmutex rfl (Or.inl rfl) hok hkeep ?_ ?_ (fun _ => hpc')
      fun _ hbefore => ?_
    · simp only [hblocked']
      exact hcounts.1
    · rw [hcounts.2, if_pos hrefers, if_pos (SyncPc.refers_of_waitCall hcall')]
    · rw [hlevel']
      exact hlevel ▸ hbefore
  have hlocked : ∀ code, result = some code →
      code = 0 ∧ l'.owner = some t ∧ l'.recursionDepth = restored + 1 := by
    intro code hcode
    rw [hcode] at heffect
    cases heffect with
    | same howner _ hfail hfails _ =>
      -- a blocking turn fails only for an owner whose mutex is not recursive
      have hcause := (hfails (by simp)).resolve_left (by simp)
      by_cases hz : restored = 0
      · exact absurd hcause.1 (hplace.2.1 hz)
      · exact absurd (hplace.2.2 hz).2.2.1 hcause.2
    | locked howner hdepth hbefore =>
      have hheld : l.heldDepth t = restored := by
        unfold MutexLockState.heldDepth
        by_cases hz : restored = 0
        · rw [if_neg (hplace.2.1 hz), hz]
        · rw [if_pos (hplace.2.2 hz).1, (hplace.2.2 hz).2.1]
      have hlt : restored < depth := by
        by_cases hz : restored = 0
        · exact hz ▸ hplace.1.pos
        · exact (hplace.2.2 hz).2.2.2
      have hbounded := hplace.1.bounded
      rw [hheld, saturatingAdd_of_le (by omega)] at hdepth
      exact ⟨rfl, howner, hdepth⟩
  cases hout with
  | blocks =>
    refine hfinish rfl ?_ ?_ (level_of_released (by simp [goto, SyncPc.released]))
    · simp [SyncPc.BlockedOn]
    · cases heffect with
      | same howner _ _ _ hwaits =>
        refine ⟨hplace.1, fun hz => howner ▸ hplace.2.1 hz, fun hne => ?_⟩
        have hown := hplace.2.2 hne
        have hnormal := hwaits rfl hown.1
        rw [hown.2.2.1] at hnormal
        exact absurd hnormal (by decide)
  | fails hcode => exact absurd (hlocked _ rfl).1 hcode
  | again hmore =>
    obtain ⟨_, howner, hdepth⟩ := hlocked 0 rfl
    refine hfinish rfl ?_ ?_ (level_of_released (by simp [goto, SyncPc.released]))
    · simp [SyncPc.BlockedOn]
    · exact ⟨hplace.1, fun hz => absurd hz (by omega), fun _ => ⟨howner, hdepth, hmore.1, hmore.2⟩⟩
  | done hlast =>
    obtain ⟨_, howner, hdepth⟩ := hlocked 0 rfl
    have hfull : restored + 1 = depth := by
      by_cases hty : mutexType w.mutex = .recursive
      · have hle := not_and.mp hlast hty
        by_cases hz : restored = 0
        · have hpos := hplace.1.pos
          omega
        · have hlt := (hplace.2.2 hz).2.2.2
          omega
      · have hone := hplace.1.flat hty
        have hpos := hplace.1.pos
        by_cases hz : restored = 0
        · omega
        · exact absurd (hplace.2.2 hz).2.2.1 hty
    refine hfinish rfl ?_ ?_ ?_
    · simp [SyncPc.BlockedOn]
    · refine ⟨howner, hdepth.trans hfull, ?_⟩
      cases timedOut
      · exact Or.inl rfl
      · exact Or.inr rfl
    · rw [level_eq_heldDepth (s := (s.setMutex w.mutex l').goto t _) hmutex
        (by simp [goto, SyncPc.released]), MutexLockState.heldDepth, if_pos howner, hdepth,
        hfull]

/-- The end of a condition wait gives up its reference. -/
theorem unreference_mutexOk (h : ∀ x, MutexOk mutexType s x) {w : WaitCall M C} {depth : Nat}
    {code : Int} (hpc : s.pc t = .unreferencing w depth code)
    (hs : s.unreference t w code = some s') : ∀ x, MutexOk mutexType s' x := by
  unfold unreference at hs
  rw [Option.map_eq_some_iff] at hs
  obtain ⟨l, hl, rfl⟩ := hs
  have hcall : (s.pc t).waitCall = some w := by rw [hpc]; rfl
  have hrefers := SyncPc.refers_of_waitCall hcall
  have hpos := Census.count_pos _ _ hrefers
  have hrefs := (h w.mutex).references l hl
  have hlock := (h w.mutex).lockOk l hl
  have hcounts : ∀ y, locks (⟨t, .wait w, code⟩ :: s.returns) t y = locks s.returns t y ∧
      unlocks (⟨t, .wait w, code⟩ :: s.returns) t y = unlocks s.returns t y := by
    intro y
    rw [locks_cons, unlocks_cons]
    simp
  refine mutexOk_all h (m := w.mutex) (t := t) ?_ (fun y hy => Function.update_of_ne hy _ _) rfl
    (Or.inr ⟨_, _, rfl⟩) (SyncPc.only_of_waitCall _ hcall) (SyncPc.only_idle w.mutex)
    (fun y _ => hcounts y)
  have hmutex : (s.setMutex w.mutex l.removeCondWaiterReference).mutexes w.mutex =
      some l.removeCondWaiterReference := Function.update_self _ _ _
  refine (h w.mutex).move hl hmutex rfl (Or.inr ⟨_, _, rfl⟩)
    ⟨hlock.free, hlock.bounded, hlock.flat⟩ (fun u _ => ⟨Iff.rfl, fun _ => rfl⟩) ?_ ?_
    (fun hr => absurd hr (SyncPc.not_refers_idle w.mutex)) fun _ hbefore => ?_
  · rw [hpc]
    rfl
  · rw [if_pos hrefers, if_neg (SyncPc.not_refers_idle w.mutex)]
    change l.condWaiterCount - 1 + 1 = l.condWaiterCount + 0
    omega
  · rw [level_eq_heldDepth hl (by rw [hpc]; rfl)] at hbefore
    rw [level_eq_heldDepth
      (s := (s.setMutex w.mutex l.removeCondWaiterReference).return_ t (.wait w) code) hmutex
      (by simp [return_, SyncPc.released])]
    change locks (⟨t, .wait w, code⟩ :: s.returns) t w.mutex =
      unlocks (⟨t, .wait w, code⟩ :: s.returns) t w.mutex + l.heldDepth t
    rw [(hcounts w.mutex).1, (hcounts w.mutex).2]
    exact hbefore

/-! ## Whole runs -/

theorem step_mutexOk (hcard : Fintype.card T ≤ usizeMax) (h : ∀ x, MutexOk mutexType s x)
    {label : SyncLabel T M C} (hs : s.step mutexType label = some s') :
    ∀ x, MutexOk mutexType s' x := by
  have hidle : ∀ {u : T}, s.pc u = .idle → ∀ x, ¬ (s.pc u).BlockedOn x ∧ ¬ (s.pc u).Refers x := by
    intro u hpc x
    rw [hpc]
    exact ⟨id, id⟩
  cases stepped_of_step hs with
  | lock hpc =>
    unfold lock
    split
    · exact mutexOk_return h rfl rfl rfl (hidle hpc) (Or.inl (by decide))
    · rename_i l hl
      exact finishLock_mutexOk hcard h hl hpc (Or.inl rfl)
        ((wokenState l false).lockTurn_spec (mutexType _) _ false)
  | trylock hpc =>
    unfold trylock
    split
    · exact mutexOk_return h rfl rfl rfl (hidle hpc) (Or.inl (by decide))
    · rename_i l hl
      exact finishLock_mutexOk hcard h hl hpc (Or.inr rfl)
        ((wokenState l false).lockTurn_spec (mutexType _) _ true)
  | @wakeLock t m l hpc hl =>
    exact finishLock_mutexOk hcard h hl hpc (Or.inl rfl)
      ((wokenState l true).lockTurn_spec (mutexType m) t false)
  | unlock hpc => exact unlock_mutexOk h hpc _
  | destroy hpc => exact destroy_mutexOk h hpc _
  | wait hpc hs => exact wait_mutexOk h hpc hs
  | addReference hpc hs => exact addReference_mutexOk hcard h hpc hs
  | release hpc hs => exact release_mutexOk h hpc hs
  | test hpc => exact test_mutexOk h hpc _
  | wakeWait hpc hs => exact wakeWait_mutexOk h hpc hs
  | relock hpc hs => exact relock_mutexOk hcard h hpc hs
  | unreference hpc hs => exact unreference_mutexOk h hpc hs
  | signal hpc hfree =>
    unfold signal
    split <;> exact mutexOk_return h rfl rfl rfl (hidle hpc) (Or.inr fun _ => by simp)
  | broadcast hpc hfree =>
    unfold broadcast
    split <;> exact mutexOk_return h rfl rfl rfl (hidle hpc) (Or.inr fun _ => by simp)

theorem initial_mutexOk (initialised : C → Bool) (x : M) :
    MutexOk mutexType (initial initialised : SyncSystem T M C) x where
  lockOk := fun l hl => by
    rw [← Option.some.inj hl]
    exact ⟨by simp [MutexLockState.default], Nat.zero_le _, fun _ => Nat.zero_le _⟩
  waiters := fun l hl => by
    rw [← Option.some.inj hl]
    exact ((Census.count_eq_zero_iff _ _).mpr fun _ => id).symm
  references := fun l hl => by
    rw [← Option.some.inj hl]
    exact ((Census.count_eq_zero_iff _ _).mpr fun _ => id).symm
  freed := fun hm => absurd hm (by simp [initial])
  pcs := fun _ _ _ hr => hr.elim
  levels := fun _ _ => rfl

end SyncSystem

end Rlibc.Pthread
