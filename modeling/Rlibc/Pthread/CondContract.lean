import Rlibc.Pthread.CondWakeups

/-!
# When a broadcast keeps its promise

A run keeps every wakeup for the threads that were waiting when it was produced if and only if no
wait begins while a wakeup is pending.
-/

namespace Rlibc.Pthread

namespace SyncSystem

variable {T M C : Type*} [DecidableEq T] [DecidableEq M] [DecidableEq C]
variable {mutexType : M → MutexType} {s s' : SyncSystem T M C} {t : T} {c : C}

/-- The gate: the first test of a condition wait finds no wakeup pending.  A wait tests in the
critical section in which it has registered, so that this is the number at its beginning. -/
def BeginsFresh (c : C) (s : SyncSystem T M C) : SyncLabel T M C → Prop
  | .test t _ => ∀ w depth, s.pc t = .testing w depth → w.cond = c →
      (s.condState c).pendingWakeups = 0
  | _ => True

/-! ## Every step as a move on the condition variable -/

theorem finishLock_condMoves {m : M} (hpc : s.pc t = .idle ∨ s.pc t = .locking m)
    {call : SyncCall M C} {turn : MutexLockState T × Option Int} :
    CondMoves t c s (s.finishLock t m call turn) := by
  have hfrom : ∀ c, ¬ (s.pc t).WaitsOn c := by
    intro c
    cases hpc with
    | inl he => rw [he]; exact SyncPc.not_waitsOn_idle c
    | inr he => rw [he]; exact SyncPc.not_waitsOn_locking m c
  unfold finishLock
  split
  · exact condMoves_outside rfl hfrom SyncPc.not_waitsOn_idle rfl rfl rfl
  · exact condMoves_outside rfl hfrom (SyncPc.not_waitsOn_locking m) rfl rfl rfl

theorem relock_condMoves {w : WaitCall M C} {depth restored : Nat} {timedOut blocked : Bool}
    (hpc : s.pc t = .relocking w depth timedOut restored blocked)
    (hs : s.relock mutexType t w depth timedOut restored blocked = some s') :
    CondMoves t c s s' := by
  have hfrom : ∀ c, ¬ (s.pc t).WaitsOn c := by
    intro c
    rw [hpc]
    exact SyncPc.not_waitsOn_relocking w depth timedOut c
  obtain ⟨l, _, l', result, p', _, hout, rfl⟩ := relock_spec hs
  have hp' : ∀ c, ¬ p'.WaitsOn c := by
    cases hout with
    | blocks | again hmore => exact SyncPc.not_waitsOn_relocking w depth timedOut
    | fails hcode | done hlast => exact SyncPc.not_waitsOn_unreferencing w depth _
  exact condMoves_outside rfl hfrom hp' rfl rfl rfl

theorem step_condMoves (hholder : HolderOk s) {label : SyncLabel T M C}
    (hs : s.step mutexType label = some s') (c : C) : CondMoves label.thread c s s' := by
  have hidle : ∀ {u : T}, s.pc u = .idle → ∀ c, ¬ (s.pc u).WaitsOn c := by
    intro u hpc c
    rw [hpc]
    exact SyncPc.not_waitsOn_idle c
  have hstay : ∀ {u : T}, s.pc u = .idle → Function.update s.pc u .idle = s.pc := by
    intro u hpc
    rw [← hpc]
    exact Function.update_eq_self u s.pc
  cases stepped_of_step hs with
  | lock hpc =>
    unfold lock
    split
    · exact condMoves_outside rfl (hidle hpc) SyncPc.not_waitsOn_idle rfl rfl rfl
    · exact finishLock_condMoves (Or.inl hpc)
  | trylock hpc =>
    unfold trylock
    split
    · exact condMoves_outside rfl (hidle hpc) SyncPc.not_waitsOn_idle rfl rfl rfl
    · exact finishLock_condMoves (Or.inl hpc)
  | wakeLock hpc hl => exact finishLock_condMoves (Or.inr hpc)
  | unlock hpc =>
    unfold unlock
    split <;> exact condMoves_outside rfl (hidle hpc) SyncPc.not_waitsOn_idle rfl rfl rfl
  | destroy hpc =>
    unfold destroy
    split
    · exact condMoves_outside rfl (hidle hpc) SyncPc.not_waitsOn_idle rfl rfl rfl
    · split <;> exact condMoves_outside rfl (hidle hpc) SyncPc.not_waitsOn_idle rfl rfl rfl
  | wait hpc hs => exact wait_condMoves hpc hs c
  | addReference hpc hs => exact addReference_condMoves hholder hpc hs c
  | release hpc hs => exact release_condMoves hholder hpc hs c
  | test hpc => exact test_condMoves hholder hpc _ c
  | wakeWait hpc hs => exact wakeWait_condMoves hpc hs c
  | relock hpc hs => exact relock_condMoves hpc hs
  | @unreference t w depth code s' hpc hs =>
    unfold unreference at hs
    rw [Option.map_eq_some_iff] at hs
    obtain ⟨l, _, rfl⟩ := hs
    refine condMoves_outside rfl (fun c => ?_) SyncPc.not_waitsOn_idle rfl rfl rfl
    change ¬ (s.pc t).WaitsOn c
    rw [hpc]
    exact SyncPc.not_waitsOn_unreferencing w depth code c
  | @signal t c' hpc hfree =>
    unfold signal
    split
    · exact condMoves_outside rfl (hidle hpc) SyncPc.not_waitsOn_idle rfl rfl rfl
    · rename_i w hw
      by_cases hc : c = c'
      · subst hc
        have hstate : s.condState c = w := by simp [condState, hw]
        exact .signals (hstay hpc) hfree hfree (hstate ▸ condState_self rfl)
          (hstate ▸ Function.update_self _ _ _)
      · exact .frame .idle rfl (by rw [← hpc]; rfl) (by rw [← hpc]; rfl) (fun _ => Iff.rfl)
          (condState_of_eq (Function.update_of_ne hc _ _)) (Function.update_of_ne hc _ _)
  | @broadcast t c' hpc hfree =>
    unfold broadcast
    split
    · exact condMoves_outside rfl (hidle hpc) SyncPc.not_waitsOn_idle rfl rfl rfl
    · rename_i w hw
      by_cases hc : c = c'
      · subst hc
        have hstate : s.condState c = w := by simp [condState, hw]
        exact .broadcasts (hstay hpc) hfree hfree (hstate ▸ condState_self rfl)
          (hstate ▸ Function.update_self _ _ _)
      · exact .frame .idle rfl (by rw [← hpc]; rfl) (by rw [← hpc]; rfl) (fun _ => Iff.rfl)
          (condState_of_eq (Function.update_of_ne hc _ _)) (Function.update_of_ne hc _ _)

/-! ## The invariant -/

variable [Fintype T]

/-- What `waiter_count` and `pending_wakeups` count. -/
structure CountsOk (s : SyncSystem T M C) (c : C) : Prop where
  waiters : (s.condState c).waiterCount = Census.count (SyncPc.WaitsOn c) s.pc
  pendingLe : (s.condState c).pendingWakeups ≤ Census.count (SyncPc.SleepsOn c) s.pc

structure CondOk (s : SyncSystem T M C) (c : C) : Prop where
  waiters : (s.condState c).waiterCount = Census.count (SyncPc.WaitsOn c) s.pc
  pendingLe : (s.condState c).pendingWakeups ≤ Census.count (SyncPc.SleepsOn c) s.pc
  ledger : (s.histories c).Ok (fun u => (s.pc u).SleepsOn c) (s.condState c).pendingWakeups

/-- What the waiters of a condition variable expect: nobody consumes a wakeup that was produced
before its own wait began, and of the threads that a broadcast found waiting, those that wait
still have a pending wakeup each. -/
structure WakeupsKept (s : SyncSystem T M C) (c : C) : Prop where
  fresh : ∀ x ∈ (s.histories c).consumed, x.began ≤ x.issued
  kept : ∀ waiting ∈ (s.histories c).owed,
    Census.count (fun b => b = true) waiting ≤ (s.condState c).pendingWakeups

omit [DecidableEq T] [DecidableEq M] in
theorem CondOk.wakeupsKept (h : CondOk s c) : WakeupsKept s c :=
  ⟨h.ledger.consumed, h.ledger.owedKept⟩

omit [DecidableEq T] [DecidableEq M] [DecidableEq C] [Fintype T] in
theorem not_registers_of_sleeps {pc : SyncPc M C} (h : pc.SleepsOn c) : ¬ pc.RegistersOn c :=
  fun hr => SyncPc.not_sleeps_of_registers hr h

omit [DecidableEq M] [DecidableEq C] [Fintype T] in
/-- Who sleeps once `t` has moved. -/
theorem sleeps_update {p' : SyncPc M C} (hp' : ¬ p'.SleepsOn c) (u : T) :
    (Function.update s.pc t p' u).SleepsOn c ↔ u ≠ t ∧ (s.pc u).SleepsOn c := by
  by_cases he : u = t
  · rw [he, Function.update_self]
    simp [hp']
  · rw [Function.update_of_ne he]
    simp [he]

omit [DecidableEq M] [Fintype T] in
theorem step_holderOk (h : HolderOk s) (hmoves : ∀ c, CondMoves t c s s') : HolderOk s' := by
  intro c u
  have hbefore := h c
  cases hmoves c with
  | frame p' hpc hsleeps hregisters hholder hcond hhistory =>
    rw [hholder u, ← hbefore u, hpc]
    by_cases he : u = t
    · rw [he, Function.update_self]
      exact hregisters
    · rw [Function.update_of_ne he]
  | registers p' hpc hfrom hp' hfree hholder hcond hhistory =>
    rw [hholder, hpc]
    by_cases he : u = t
    · rw [he, Function.update_self]
      simp [hp']
    · rw [Function.update_of_ne he, hbefore u, hfree]
      simp [Ne.symm he]
  | unregisters p' hpc hfrom hp' hholder hcond hhistory =>
    rw [hholder, hpc]
    by_cases he : u = t
    · rw [he, Function.update_self]
      have hnot : ¬ p'.RegistersOn c := fun hr => hp' (Or.inr hr)
      simp [hnot]
    · rw [Function.update_of_ne he, hbefore u, (hbefore t).mp hfrom]
      simp [Ne.symm he]
  | sleeps p' hpc hfrom hp' hholder hnone hcond hhistory =>
    rw [hholder, hpc]
    by_cases he : u = t
    · rw [he, Function.update_self]
      simp [not_registers_of_sleeps hp']
    · rw [Function.update_of_ne he, hbefore u, (hbefore t).mp hfrom]
      simp [Ne.symm he]
  | begins p' which hpc hfrom hp' hholder hsome hcond hhistory =>
    obtain ⟨w, depth, hpc₀, hw⟩ := hfrom
    have hfrom : (s.pc t).RegistersOn c := by rw [hpc₀]; exact hw
    rw [hholder, hpc]
    by_cases he : u = t
    · rw [he, Function.update_self]
      have hnot : ¬ p'.RegistersOn c := fun hr => hp' (Or.inr hr)
      simp [hnot]
    · rw [Function.update_of_ne he, hbefore u, (hbefore t).mp hfrom]
      simp [Ne.symm he]
  | wakes p' which hpc hfrom hp' hholder hsome hcond hhistory =>
    rw [hholder, hpc, ← hbefore u]
    by_cases he : u = t
    · rw [he, Function.update_self]
      have hnot : ¬ p'.RegistersOn c := fun hr => hp' (Or.inr hr)
      simp [hnot, not_registers_of_sleeps hfrom]
    · rw [Function.update_of_ne he]
  | expires p' hpc hfrom hp' hholder hnone hcond hhistory =>
    rw [hholder, hpc, ← hbefore u]
    by_cases he : u = t
    · rw [he, Function.update_self]
      have hnot : ¬ p'.RegistersOn c := fun hr => hp' (Or.inr hr)
      simp [hnot, not_registers_of_sleeps hfrom]
    · rw [Function.update_of_ne he]
  | signals hpc hfree hholder hcond hhistory => rw [hpc, hbefore u, hholder, hfree]
  | broadcasts hpc hfree hholder hcond hhistory => rw [hpc, hbefore u, hholder, hfree]

omit [DecidableEq T] [DecidableEq M] in
/-- Without a registration, the waiters are the sleepers. -/
theorem CountsOk.sleepers_eq (h : CountsOk s c) (hholder : HolderOk s) (hfree : s.registering = none) :
    (s.condState c).waiterCount = Census.count (SyncPc.SleepsOn c) s.pc := by
  rw [h.waiters]
  apply Census.count_congr
  intro u
  have hnot : ¬ (s.pc u).RegistersOn c := by
    rw [hholder c u, hfree]
    simp
  simp [SyncPc.WaitsOn, hnot]

theorem CondWaitState.pending_le_signal {w : CondWaitState} (h : w.pendingWakeups ≤ w.waiterCount)
    (hbound : w.waiterCount ≤ usizeMax) :
    w.pendingWakeups ≤ w.signal.pendingWakeups ∧ w.signal.pendingWakeups ≤ w.waiterCount ∧
      w.signal.waiterCount = w.waiterCount := by
  unfold CondWaitState.signal
  split
  · exact ⟨Nat.le_refl _, h, rfl⟩
  · refine ⟨?_, Nat.min_le_right _ _, rfl⟩
    change w.pendingWakeups ≤ min (min (w.pendingWakeups + 1) usizeMax) w.waiterCount
    omega

theorem CondWaitState.pending_broadcast {w : CondWaitState}
    (h : w.pendingWakeups ≤ w.waiterCount) :
    w.broadcast.pendingWakeups = w.waiterCount ∧ w.broadcast.waiterCount = w.waiterCount := by
  unfold CondWaitState.broadcast
  split
  · rename_i hzero
    exact ⟨by omega, rfl⟩
  · exact ⟨rfl, rfl⟩

omit [DecidableEq T] [DecidableEq M] [Fintype T] in
theorem sleepers_iff (u : T) : s.sleepers c u = true ↔ (s.pc u).SleepsOn c := by
  unfold sleepers
  cases s.pc u <;> simp [SyncPc.SleepsOn]

omit [DecidableEq M] in
/-- Every move keeps the counts. -/
theorem step_countsOk (hcard : Fintype.card T ≤ usizeMax) (h : CountsOk s c) (hholder : HolderOk s)
    (hmove : CondMoves t c s s') : CountsOk s' c := by
  have hwaiters := h.waiters
  have hle := h.pendingLe
  cases hmove with
  | frame p' hpc hsleeps hregisters _ hcond hhistory =>
    have hwaits : p'.WaitsOn c ↔ (s.pc t).WaitsOn c := or_congr hsleeps hregisters
    refine ⟨?_, ?_⟩
    · rw [hcond, hpc, Census.count_update_of_iff _ _ _ _ hwaits]
      exact hwaiters
    · rw [hcond, hpc, Census.count_update_of_iff _ _ _ _ hsleeps]
      exact hle
  | registers p' hpc hfrom hp' _ _ hcond hhistory =>
    have hlt := Census.count_lt_card (SyncPc.WaitsOn c) s.pc hfrom
    have hcount := Census.count_update (SyncPc.WaitsOn c) s.pc t p'
    have hsame : p'.SleepsOn c ↔ (s.pc t).SleepsOn c :=
      ⟨fun hs => absurd hs (SyncPc.not_sleeps_of_registers hp'), fun hs => absurd (Or.inl hs) hfrom⟩
    have hwaits : p'.WaitsOn c := Or.inr hp'
    rw [if_neg hfrom, if_pos hwaits] at hcount
    refine ⟨?_, ?_⟩
    · rw [hcond, hpc]
      change saturatingAdd (s.condState c).waiterCount 1 = _
      rw [saturatingAdd_of_le (by omega)]
      omega
    · rw [hcond, hpc, Census.count_update_of_iff _ _ _ _ hsame]
      exact hle
  | unregisters p' hpc hfrom hp' _ hcond hhistory =>
    have hcount := Census.count_update (SyncPc.WaitsOn c) s.pc t p'
    have hsame : p'.SleepsOn c ↔ (s.pc t).SleepsOn c :=
      ⟨fun hs => absurd (Or.inl hs) hp', fun hs => absurd hs (SyncPc.not_sleeps_of_registers hfrom)⟩
    have hwaits : (s.pc t).WaitsOn c := Or.inr hfrom
    rw [if_pos hwaits, if_neg hp'] at hcount
    refine ⟨?_, ?_⟩
    · rw [hcond, hpc]
      change (s.condState c).waiterCount - 1 = _
      omega
    · rw [hcond, hpc, Census.count_update_of_iff _ _ _ _ hsame]
      exact hle
  | sleeps p' hpc hfrom hp' _ hnone hcond hhistory =>
    have hsame : p'.WaitsOn c ↔ (s.pc t).WaitsOn c :=
      ⟨fun _ => Or.inr hfrom, fun _ => Or.inl hp'⟩
    refine ⟨?_, ?_⟩
    · rw [hcond, hpc, Census.count_update_of_iff _ _ _ _ hsame]
      exact hwaiters
    · rw [hcond, hnone]
      exact Nat.zero_le _
  | begins p' which hpc hfrom hp' _ hsome hcond hhistory =>
    obtain ⟨w, depth, hpc₀, hw⟩ := hfrom
    have hregisters : (s.pc t).RegistersOn c := by
      rw [hpc₀]
      exact hw
    have hcount := Census.count_update (SyncPc.WaitsOn c) s.pc t p'
    have hsame : p'.SleepsOn c ↔ (s.pc t).SleepsOn c :=
      ⟨fun hs => absurd (Or.inl hs) hp',
        fun hs => absurd hs (SyncPc.not_sleeps_of_registers hregisters)⟩
    have hwaits : (s.pc t).WaitsOn c := Or.inr hregisters
    rw [if_pos hwaits, if_neg hp'] at hcount
    refine ⟨?_, ?_⟩
    · rw [hcond, hpc]
      change (s.condState c).waiterCount - 1 = _
      omega
    · rw [hcond, hpc, Census.count_update_of_iff _ _ _ _ hsame]
      exact (Nat.sub_le _ _).trans hle
  | wakes p' which hpc hfrom hp' _ hsome hcond hhistory =>
    have hwaits := Census.count_update (SyncPc.WaitsOn c) s.pc t p'
    have hsleeps := Census.count_update (SyncPc.SleepsOn c) s.pc t p'
    have hp'' : ¬ p'.SleepsOn c := fun hs => hp' (Or.inl hs)
    have hwaiting : (s.pc t).WaitsOn c := Or.inl hfrom
    rw [if_pos hwaiting, if_neg hp'] at hwaits
    rw [if_pos hfrom, if_neg hp''] at hsleeps
    refine ⟨?_, ?_⟩
    · rw [hcond, hpc]
      change (s.condState c).waiterCount - 1 = _
      omega
    · rw [hcond, hpc]
      change (s.condState c).pendingWakeups - 1 ≤ _
      omega
  | expires p' hpc hfrom hp' _ hnone hcond hhistory =>
    have hwaits := Census.count_update (SyncPc.WaitsOn c) s.pc t p'
    have hwaiting : (s.pc t).WaitsOn c := Or.inl hfrom
    rw [if_pos hwaiting, if_neg hp'] at hwaits
    refine ⟨?_, ?_⟩
    · rw [hcond, hpc]
      change (s.condState c).waiterCount - 1 = _
      omega
    · rw [hcond]
      change (s.condState c).pendingWakeups ≤ _
      rw [hnone]
      exact Nat.zero_le _
  | signals hpc hfree _ hcond hhistory =>
    have hsleepers := h.sleepers_eq hholder hfree
    have hbound := le_trans (Census.count_le_card (SyncPc.SleepsOn c) s.pc) hcard
    have hsignal := CondWaitState.pending_le_signal (w := s.condState c) (by omega) (by omega)
    refine ⟨?_, ?_⟩
    · rw [hcond, hpc, hsignal.2.2]
      exact hwaiters
    · rw [hcond, hpc]
      omega
  | broadcasts hpc hfree _ hcond hhistory =>
    have hsleepers := h.sleepers_eq hholder hfree
    have hbroadcast := CondWaitState.pending_broadcast (w := s.condState c) (by omega)
    refine ⟨?_, ?_⟩
    · rw [hcond, hpc, hbroadcast.2]
      exact hwaiters
    · rw [hcond, hpc]
      omega

omit [DecidableEq M] [DecidableEq C] [Fintype T] in
/-- The threads that sleep are the same after a move that neither begins nor ends a sleep. -/
theorem sleeps_same {p' : SyncPc M C} (hsame : p'.SleepsOn c ↔ (s.pc t).SleepsOn c) (u : T) :
    (Function.update s.pc t p' u).SleepsOn c ↔ (s.pc u).SleepsOn c := by
  by_cases he : u = t
  · rw [he, Function.update_self]
    exact hsame
  · rw [Function.update_of_ne he]

omit [DecidableEq M] in
/-- A move that is not the beginning of a wait with a pending wakeup keeps the invariant. -/
theorem step_condOk (hcard : Fintype.card T ≤ usizeMax) (h : CondOk s c) (hholder : HolderOk s)
    (hmove : CondMoves t c s s')
    (hfresh : ∀ w depth, s.pc t = .testing w depth → w.cond = c →
      (s.condState c).pendingWakeups = 0) : CondOk s' c := by
  have hbefore : CountsOk s c := ⟨h.waiters, h.pendingLe⟩
  have hcounts := step_countsOk hcard hbefore hholder hmove
  refine ⟨hcounts.waiters, hcounts.pendingLe, ?_⟩
  have hwaiters := h.waiters
  have hle := h.pendingLe
  have hledger := h.ledger
  cases hmove with
  | frame p' hpc hsleeps hregisters _ hcond hhistory =>
    rw [hcond, hhistory, hpc]
    exact hledger.congr (sleeps_same hsleeps)
  | registers p' hpc hfrom hp' _ _ hcond hhistory =>
    have hsame : p'.SleepsOn c ↔ (s.pc t).SleepsOn c :=
      ⟨fun hs => absurd hs (SyncPc.not_sleeps_of_registers hp'), fun hs => absurd (Or.inl hs) hfrom⟩
    rw [hcond, hhistory, hpc]
    exact hledger.congr (sleeps_same hsame)
  | unregisters p' hpc hfrom hp' _ hcond hhistory =>
    have hsame : p'.SleepsOn c ↔ (s.pc t).SleepsOn c :=
      ⟨fun hs => absurd (Or.inl hs) hp', fun hs => absurd hs (SyncPc.not_sleeps_of_registers hfrom)⟩
    rw [hcond, hhistory, hpc]
    exact hledger.congr (sleeps_same hsame)
  | sleeps p' hpc hfrom hp' _ hnone hcond hhistory =>
    rw [hnone] at hledger
    rw [hcond, hhistory, hpc, hnone]
    apply hledger.begin
    intro u hu
    by_cases he : u = t
    · rw [he, Function.update_self]
      exact hp'
    · rw [Function.update_of_ne he]
      exact hu
  | begins p' which hpc hfrom hp' _ hsome hcond hhistory =>
    obtain ⟨w, depth, hpc₀, hw⟩ := hfrom
    exact absurd (hfresh w depth hpc₀ hw) hsome
  | wakes p' which hpc hfrom hp' _ hsome hcond hhistory =>
    have hp'' : ¬ p'.SleepsOn c := fun hs => hp' (Or.inl hs)
    rw [hcond, hhistory, hpc]
    exact hledger.consume hsome hfrom (sleeps_update hp'') which
  | expires p' hpc hfrom hp' _ hnone hcond hhistory =>
    have hp'' : ¬ p'.SleepsOn c := fun hs => hp' (Or.inl hs)
    rw [hnone] at hledger
    rw [hcond, hhistory, hpc]
    change (CondHistory.leave _ t).Ok _ (s.condState c).pendingWakeups
    rw [hnone]
    exact hledger.leave (sleeps_update hp'')
  | signals hpc hfree _ hcond hhistory =>
    have hsleepers := hbefore.sleepers_eq hholder hfree
    have hbound := le_trans (Census.count_le_card (SyncPc.SleepsOn c) s.pc) hcard
    have hsignal := CondWaitState.pending_le_signal (w := s.condState c) (by omega) (by omega)
    rw [hcond, hhistory, hpc]
    have hissue := hledger.issue
      ((s.condState c).signal.pendingWakeups - (s.condState c).pendingWakeups)
    rwa [Nat.add_sub_cancel' hsignal.1] at hissue
  | broadcasts hpc hfree _ hcond hhistory =>
    have hsleepers := hbefore.sleepers_eq hholder hfree
    have hbroadcast := CondWaitState.pending_broadcast (w := s.condState c) (by omega)
    rw [hcond, hhistory, hpc]
    have hissue := hledger.issue
      ((s.condState c).broadcast.pendingWakeups - (s.condState c).pendingWakeups)
    rw [Nat.add_sub_cancel' (by omega)] at hissue
    apply hissue.owe sleepers_iff
    have hcount : Census.count (fun b => b = true) (s.sleepers c) =
        Census.count (SyncPc.SleepsOn c) s.pc := Census.count_congr sleepers_iff
    omega

omit [DecidableEq M] in
/-- A wait that begins with a pending wakeup breaks the promise at once. -/
theorem fresh_of_wakeupsKept {w : WaitCall M C} {depth which : Nat} (h : CondOk s w.cond)
    (hkept : WakeupsKept (s.test t w depth which) w.cond) :
    (s.condState w.cond).pendingWakeups = 0 := by
  by_contra hsome
  have hbegin : (s.setCond w.cond (s.condState w.cond) ((s.histories w.cond).begin t)).histories
      w.cond = (s.histories w.cond).begin t := Function.update_self _ _ _
  have hstate : (s.setCond w.cond (s.condState w.cond) ((s.histories w.cond).begin t)).condState
      w.cond = s.condState w.cond := condState_self rfl
  have hhistory : (s.test t w depth which).histories w.cond =
      ((s.histories w.cond).begin t).consume t which := by
    unfold test
    dsimp only
    split
    · rename_i hnone
      exact absurd ((congrArg CondWaitState.pendingWakeups hstate).symm.trans hnone) hsome
    · refine (Function.update_self _ _ _).trans ?_
      exact congrArg (fun h => h.consume t which) hbegin
  obtain ⟨x, hx, _, hstale⟩ := h.ledger.begin_consume_stale hsome which (t := t)
  have hfresh := hkept.fresh x (hhistory ▸ hx)
  omega

omit [Fintype T] in
/-- Only its first test takes a thread on. -/
theorem step_testing {w : WaitCall M C} {depth : Nat} {label : SyncLabel T M C}
    (hpc : s.pc label.thread = .testing w depth) (hs : s.step mutexType label = some s') :
    ∃ which, label = .test label.thread which := by
  cases label with
  | test t which => exact ⟨which, rfl⟩
  | _ => simp_all [step, SyncLabel.thread]

omit [Fintype T] [DecidableEq T] [DecidableEq M] [DecidableEq C] in
theorem initial_holderOk (initialised : C → Bool) :
    HolderOk (initial initialised : SyncSystem T M C) := by
  intro c t
  simp [initial, SyncPc.RegistersOn]

omit [DecidableEq T] [DecidableEq M] in
theorem initial_condOk (initialised : C → Bool) (c : C) :
    CondOk (initial initialised : SyncSystem T M C) c := by
  have hstate : (initial initialised : SyncSystem T M C).condState c = .default := by
    unfold condState initial
    dsimp only
    split <;> rfl
  refine ⟨?_, ?_, ?_⟩
  · rw [hstate]
    exact ((Census.count_eq_zero_iff _ _).mpr fun _ => SyncPc.not_waitsOn_idle c).symm
  · rw [hstate]
    exact Nat.zero_le _
  · rw [hstate]
    exact CondHistory.ok_empty

/-- **Wakeups are kept in exactly the runs in which every wait begins fresh.** -/
theorem wakeupsKept_iff_beginsFresh (mutexType : M → MutexType) (initialised : C → Bool) (c : C)
    (ls : List (SyncLabel ThreadId M C)) :
    Lts.Always (step mutexType) (fun s => WakeupsKept s c) (initial initialised) ls ↔
      Lts.EachStep (step mutexType) (BeginsFresh c) (initial initialised) ls := by
  apply Lts.always_iff_eachStep (P := fun s => CondOk s c ∧ HolderOk s)
  · exact fun s h => h.1.wakeupsKept
  · intro s label s' h hgate hs
    have hmoves := step_condMoves h.2 hs
    refine ⟨step_condOk threadId_card_le h.1 h.2 (hmoves c) ?_, step_holderOk h.2 hmoves⟩
    intro w depth hpc hc
    obtain ⟨which, hlabel⟩ := step_testing hpc hs
    rw [hlabel] at hgate
    exact hgate w depth hpc hc
  · intro s label s' h hs hkept
    cases label with
    | test t which =>
      intro w depth hpc hc
      simp only [step, hpc, Option.some.injEq] at hs
      subst hc
      rw [← hs] at hkept
      exact fresh_of_wakeupsKept h.1 hkept
    | _ => exact trivial
  · exact ⟨initial_condOk initialised c, initial_holderOk initialised⟩

/-- `waiter` sleeps, the broadcast is for it, and `thief` takes its wakeup. -/
def stolenWakeup (waiter thief : T) (w : WaitCall M C) : List (SyncLabel T M C) :=
  [.lock waiter w.mutex, .wait waiter w true, .addReference waiter, .release waiter,
    .test waiter 0, .broadcast thief w.cond, .lock thief w.mutex, .wait thief w true,
    .addReference thief, .release thief, .test thief 0]

theorem stolenWakeup_not_kept :
    ¬ ∀ ls : List (SyncLabel ThreadId Unit Unit), Lts.Always (step fun _ => .normal)
      (fun s => WakeupsKept s ()) (initial fun _ => false) ls := by
  intro hall
  have hrun : ∃ s, Lts.run (step fun _ => .normal) (initial fun _ => false)
      (stolenWakeup (⟨1, by decide⟩ : ThreadId) ⟨2, by decide⟩
        { cond := (), mutex := (), timed := false }) = some s ∧
      (s.histories ()).consumed = [⟨⟨2, by decide⟩, 2, 1⟩] := ⟨_, rfl, rfl⟩
  obtain ⟨s, hs, hconsumed⟩ := hrun
  have hkept := (hall _).last hs
  have hfresh := hkept.fresh ⟨⟨2, by decide⟩, 2, 1⟩
    (by rw [hconsumed]; exact List.mem_singleton_self _)
  exact absurd hfresh (by decide)

end SyncSystem

end Rlibc.Pthread
