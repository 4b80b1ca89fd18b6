import Rlibc.Pthread.RwlockSystem

/-!
# Safety of the read-write lock

Each critical section keeps the owners of the lock consistent, changes the holdings of its own
thread only, and keeps the two waiter counters equal to the numbers of blocked threads.
-/

namespace Rlibc.Pthread

namespace RwlockLockState

variable {T : Type*} [DecidableEq T] [Fintype T] {l : RwlockLockState T}

/-! ## The owners -/

/-- The owner fields agree with each other. -/
structure OwnersOk (l : RwlockLockState T) : Prop where
  total : l.totalReaders = Census.total (fun d => d.getD 0) l.readerOwners
  positive : ∀ t, l.readerOwners t ≠ some 0
  exclusive : l.writerOwner ≠ none → ∀ t, l.readerOwners t = none

omit [DecidableEq T] in
theorem OwnersOk.no_readers (h : l.OwnersOk) (hzero : l.totalReaders = 0) (t : T) :
    l.readerOwners t = none := by
  have hall := (Census.total_eq_zero_iff _ _).mp (h.total ▸ hzero) t
  cases hd : l.readerOwners t with
  | none => rfl
  | some d =>
    rw [hd] at hall
    exact absurd (by rw [hd, show d = 0 from hall]) (h.positive t)

omit [DecidableEq T] in
theorem OwnersOk.readers_pos (h : l.OwnersOk) {t : T} {d : Nat} (hd : l.readerOwners t = some d) :
    0 < d ∧ d ≤ l.totalReaders := by
  have hle := Census.weight_le_total (fun d : Option Nat => d.getD 0) l.readerOwners t
  rw [← h.total, hd] at hle
  refine ⟨Nat.pos_of_ne_zero fun hz => ?_, hle⟩
  exact h.positive t (hz ▸ hd)

theorem OwnersOk.acquireReader (h : l.OwnersOk) (hwriter : l.writerOwner = none) (current : T)
    (l' : RwlockLockState T)
    (hreaders : l'.readerOwners = Function.update l.readerOwners current
      (some ((l.readerOwners current).getD 0 + 1)))
    (htotal : l'.totalReaders = l.totalReaders + 1) (hwriter' : l'.writerOwner = l.writerOwner) :
    l'.OwnersOk where
  total := by
    have hu := Census.total_update (fun d : Option Nat => d.getD 0) l.readerOwners current
      (some ((l.readerOwners current).getD 0 + 1))
    rw [hreaders, htotal, h.total]
    simp only [Option.getD_some] at hu
    omega
  positive := by
    intro t
    rw [hreaders]
    by_cases he : t = current
    · rw [he, Function.update_self]
      simp
    · rw [Function.update_of_ne he]
      exact h.positive t
  exclusive := fun hw => absurd (hwriter'.trans hwriter) hw

theorem OwnersOk.releaseReader (h : l.OwnersOk) {current : T} {readerDepth : Nat}
    (hdepth : l.readerOwners current = some readerDepth) :
    OwnersOk { l with
      readerOwners := Function.update l.readerOwners current
        (if readerDepth - 1 = 0 then none else some (readerDepth - 1))
      totalReaders := l.totalReaders - 1 } where
  total := by
    have hpos := h.readers_pos hdepth
    have hu := Census.total_update (fun d : Option Nat => d.getD 0) l.readerOwners current
      (if readerDepth - 1 = 0 then none else some (readerDepth - 1))
    have hnew : (if readerDepth - 1 = 0 then none else some (readerDepth - 1)).getD 0 =
        readerDepth - 1 := by
      split
      · rename_i hz
        exact hz.symm
      · rfl
    simp only [hnew, hdepth, Option.getD_some, ← h.total] at hu
    change l.totalReaders - 1 = Census.total _ (Function.update l.readerOwners current
      (if readerDepth - 1 = 0 then none else some (readerDepth - 1)))
    omega
  positive := by
    intro t
    by_cases he : t = current
    · change Function.update _ _ _ _ ≠ _
      rw [he, Function.update_self]
      split <;> simp_all
    · change Function.update _ _ _ _ ≠ _
      rw [Function.update_of_ne he]
      exact h.positive t
  exclusive := by
    intro hw t
    rw [h.exclusive hw current] at hdepth
    exact absurd hdepth (by simp)

end RwlockLockState

namespace RwlockSystem

variable {T : Type*} [DecidableEq T] [Fintype T] {s : RwlockSystem T}

open RwlockLockState

omit [DecidableEq T] in
theorem Invariant.ownersOk [DecidableEq T] (h : Invariant s) : s.lock.OwnersOk :=
  ⟨h.total, h.positive, h.exclusive⟩

/-! ## Returns and waits -/

omit [Fintype T] in
theorem acquisitions_return (s : RwlockSystem T) (t x : T) (call : RwlockCall) (code : Int) :
    (s.return_ t call code).acquisitions x =
      s.acquisitions x + if t = x ∧ code = 0 ∧ call.acquiring then 1 else 0 := by
  unfold acquisitions return_
  rw [List.countP_cons]
  simp only [decide_eq_true_eq]

omit [Fintype T] in
theorem releases_return (s : RwlockSystem T) (t x : T) (call : RwlockCall) (code : Int) :
    (s.return_ t call code).releases x =
      s.releases x + if t = x ∧ code = 0 ∧ call = .unlock then 1 else 0 := by
  unfold releases return_
  rw [List.countP_cons]
  simp only [decide_eq_true_eq]

/-- A call of `t` returns, leaving the lock at `l`. -/
theorem Invariant.return_ (h : Invariant s) {t : T} {call : RwlockCall} {code : Int}
    {l : RwlockLockState T} (howners : l.OwnersOk)
    (hreaders : l.waitingReaders + (if s.pc t = .blockedReader then 1 else 0) =
      s.lock.waitingReaders)
    (hwriters : l.waitingWriters + (if s.pc t = .blockedWriter then 1 else 0) =
      s.lock.waitingWriters)
    (hholds : ∀ x, holds l x + (if t = x ∧ code = 0 ∧ call = .unlock then 1 else 0) =
      holds s.lock x + if t = x ∧ code = 0 ∧ call.acquiring then 1 else 0)
    (hdestroyed : l.destroyed = true → s.lock.destroyed = true ∧ l.writerOwner = none ∧
      ∀ x, l.readerOwners x = none) :
    Invariant (RwlockSystem.return_ { s with lock := l } t call code) where
  total := howners.total
  positive := howners.positive
  exclusive := howners.exclusive
  waitingReaders := by
    have hu := Census.count_update (fun pc => pc = .blockedReader) s.pc t .idle
    have hr := h.waitingReaders
    simp only [reduceCtorEq, if_false] at hu
    change l.waitingReaders = Census.count _ (Function.update s.pc t .idle)
    omega
  waitingWriters := by
    have hu := Census.count_update (fun pc => pc = .blockedWriter) s.pc t .idle
    have hr := h.waitingWriters
    simp only [reduceCtorEq, if_false] at hu
    change l.waitingWriters = Census.count _ (Function.update s.pc t .idle)
    omega
  balance := by
    intro x
    have hb := h.balance x
    have hx := hholds x
    rw [acquisitions_return, releases_return]
    change holds l x + (s.releases x + _) = s.acquisitions x + _
    omega
  destroyedFree := by
    intro hd
    have hl := hdestroyed hd
    refine ⟨hl.2.1, hl.2.2, fun x => ?_⟩
    change Function.update s.pc t .idle x ≠ _ ∧ Function.update s.pc t .idle x ≠ _
    by_cases he : x = t
    · rw [he, Function.update_self]
      decide
    · rw [Function.update_of_ne he]
      exact (h.destroyedFree hl.1).2.2 x

/-- A call of `t` waits; only the waiter counters change. -/
theorem Invariant.wait (h : Invariant s) {t : T} {blocked : RwlockPc} {l : RwlockLockState T}
    (hreadersEq : l.readerOwners = s.lock.readerOwners)
    (htotal : l.totalReaders = s.lock.totalReaders)
    (hwriterEq : l.writerOwner = s.lock.writerOwner)
    (hreaders : l.waitingReaders + (if s.pc t = .blockedReader then 1 else 0) =
      s.lock.waitingReaders + if blocked = .blockedReader then 1 else 0)
    (hwriters : l.waitingWriters + (if s.pc t = .blockedWriter then 1 else 0) =
      s.lock.waitingWriters + if blocked = .blockedWriter then 1 else 0)
    (halive : l.destroyed = false) :
    Invariant { s with lock := l, pc := Function.update s.pc t blocked } where
  total := by
    change l.totalReaders = Census.total _ l.readerOwners
    rw [htotal, hreadersEq]
    exact h.total
  positive := fun x => by
    change l.readerOwners x ≠ _
    rw [hreadersEq]
    exact h.positive x
  exclusive := fun hw x => by
    change l.writerOwner ≠ none at hw
    change l.readerOwners x = none
    rw [hwriterEq] at hw
    rw [hreadersEq]
    exact h.exclusive hw x
  waitingReaders := by
    have hu := Census.count_update (fun pc => pc = .blockedReader) s.pc t blocked
    have hr := h.waitingReaders
    change l.waitingReaders = Census.count _ (Function.update s.pc t blocked)
    omega
  waitingWriters := by
    have hu := Census.count_update (fun pc => pc = .blockedWriter) s.pc t blocked
    have hr := h.waitingWriters
    change l.waitingWriters = Census.count _ (Function.update s.pc t blocked)
    omega
  balance := fun x => by
    have hb := h.balance x
    unfold holds at hb ⊢
    change (l.readerOwners x).getD 0 + (if l.writerOwner = some x then 1 else 0) +
      s.releases x = s.acquisitions x
    rwa [hreadersEq, hwriterEq]
  destroyedFree := fun hd => absurd (halive.symm.trans hd) (by decide)

/-! ## The calls -/

variable (hcard : Fintype.card T ≤ usizeMax)

include hcard in
/-- The waiter counters never saturate: the caller itself is not counted. -/
theorem saturatingAdd_waiting {p : RwlockPc → Prop} [DecidablePred p] {t : T} (ht : ¬ p (s.pc t)) :
    saturatingAdd (Census.count p s.pc) 1 = Census.count p s.pc + 1 := by
  apply saturatingAdd_of_le
  have hlt := Census.count_lt_card p s.pc ht
  omega

include hcard in
theorem Invariant.rdlockTurn (h : Invariant s) {t : T} {call : RwlockCall}
    (hcall : call = .rdlock ∨ call = .tryrdlock) {registeredWaiter : Bool}
    (hpc : s.pc t = if registeredWaiter then .blockedReader else .entering call)
    {turn : RwlockLockState T × Option Int} (hturn : s.lock.RdlockTurn t registeredWaiter turn) :
    Invariant (s.finish t call .blockedReader turn) := by
  have hacquiring : call.acquiring = true ∧ call ≠ .unlock := by
    cases hcall with
    | inl he => rw [he]; decide
    | inr he => rw [he]; decide
  -- a registered caller is one of the blocked readers
  have hregistered : registeredWaiter = true → 0 < s.lock.waitingReaders := by
    intro hr
    rw [h.waitingReaders]
    exact Census.count_pos _ _ (i := t) (by rw [hpc, hr]; rfl)
  have hreaders : (if registeredWaiter then s.lock.waitingReaders - 1
      else s.lock.waitingReaders) + (if s.pc t = .blockedReader then 1 else 0) =
      s.lock.waitingReaders := by
    cases registeredWaiter with
    | false => simp [hpc]
    | true =>
      have hpos := hregistered rfl
      simp only [hpc, if_true]
      omega
  have hwriters : s.lock.waitingWriters + (if s.pc t = .blockedWriter then 1 else 0) =
      s.lock.waitingWriters := by
    cases registeredWaiter <;> simp [hpc]
  cases hturn with
  | fails code hcode =>
    refine h.return_ (l := s.lock.unregisterReader registeredWaiter)
      ⟨h.total, h.positive, h.exclusive⟩ hreaders hwriters (fun x => ?_) fun hd => ?_
    · simp only [hcode, false_and, and_false, if_false]
      rfl
    · exact ⟨hd, (h.destroyedFree hd).1, (h.destroyedFree hd).2.1⟩
  | acquires halive hwriter =>
    refine h.return_ (h.ownersOk.acquireReader hwriter t _ rfl rfl rfl) hreaders hwriters
      (fun x => ?_) fun hd => absurd (halive.symm.trans hd) (by decide)
    simp only [hacquiring.1, hacquiring.2, and_false, and_true, if_false]
    unfold holds
    change (Function.update s.lock.readerOwners t _ x).getD 0 +
      (if s.lock.writerOwner = some x then 1 else 0) + 0 = _
    by_cases he : t = x
    · rw [← he, Function.update_self, if_pos rfl, Option.getD_some]
      omega
    · rw [Function.update_of_ne (Ne.symm he), if_neg he]
  | waits halive =>
    refine h.wait (l := s.lock.registerReader registeredWaiter) rfl rfl rfl ?_ ?_ halive
    · unfold registerReader
      cases registeredWaiter with
      | false =>
        have hsat := saturatingAdd_waiting hcard (s := s) (p := fun pc => pc = .blockedReader)
          (t := t) (by simp [hpc])
        rw [← h.waitingReaders] at hsat
        simp only [Bool.false_eq_true, if_false] at hpc ⊢
        rw [hsat, hpc]
        simp
      | true => simp [hpc]
    · simp only [reduceCtorEq, if_false, Nat.add_zero]
      exact hwriters

include hcard in
theorem Invariant.wrlockTurn (h : Invariant s) {t : T} {call : RwlockCall}
    (hcall : call = .wrlock ∨ call = .trywrlock) {registeredWaiter : Bool}
    (hpc : s.pc t = if registeredWaiter then .blockedWriter else .entering call)
    {turn : RwlockLockState T × Option Int} (hturn : s.lock.WrlockTurn t registeredWaiter turn) :
    Invariant (s.finish t call .blockedWriter turn) := by
  have hacquiring : call.acquiring = true ∧ call ≠ .unlock := by
    cases hcall with
    | inl he => rw [he]; decide
    | inr he => rw [he]; decide
  have hregistered : registeredWaiter = true → 0 < s.lock.waitingWriters := by
    intro hr
    rw [h.waitingWriters]
    exact Census.count_pos _ _ (i := t) (by rw [hpc, hr]; rfl)
  have hwriters : (if registeredWaiter then s.lock.waitingWriters - 1
      else s.lock.waitingWriters) + (if s.pc t = .blockedWriter then 1 else 0) =
      s.lock.waitingWriters := by
    cases registeredWaiter with
    | false => simp [hpc]
    | true =>
      have hpos := hregistered rfl
      simp only [hpc, if_true]
      omega
  have hreaders : s.lock.waitingReaders + (if s.pc t = .blockedReader then 1 else 0) =
      s.lock.waitingReaders := by
    cases registeredWaiter <;> simp [hpc]
  cases hturn with
  | fails code hcode =>
    refine h.return_ (l := s.lock.unregisterWriter registeredWaiter)
      ⟨h.total, h.positive, h.exclusive⟩ hreaders hwriters (fun x => ?_) fun hd => ?_
    · simp only [hcode, false_and, and_false, if_false]
      rfl
    · exact ⟨hd, (h.destroyedFree hd).1, (h.destroyedFree hd).2.1⟩
  | acquires halive hwriter hzero =>
    have hnone := h.ownersOk.no_readers hzero
    refine h.return_ ⟨h.total, h.positive, fun _ => hnone⟩ hreaders hwriters
      (fun x => ?_) fun hd => absurd (halive.symm.trans hd) (by decide)
    simp only [hacquiring.1, hacquiring.2, and_false, and_true, if_false]
    unfold holds
    change (s.lock.readerOwners x).getD 0 + (if some t = some x then 1 else 0) + 0 = _
    rw [hwriter]
    simp
  | waits halive =>
    refine h.wait (l := s.lock.registerWriter registeredWaiter) rfl rfl rfl ?_ ?_ halive
    · simp only [reduceCtorEq, if_false, Nat.add_zero]
      exact hreaders
    · unfold registerWriter
      cases registeredWaiter with
      | false =>
        have hsat := saturatingAdd_waiting hcard (s := s) (p := fun pc => pc = .blockedWriter)
          (t := t) (by simp [hpc])
        rw [← h.waitingWriters] at hsat
        simp only [Bool.false_eq_true, if_false] at hpc ⊢
        rw [hsat, hpc]
        simp
      | true => simp [hpc]

theorem Invariant.unlock (h : Invariant s) {t : T} (hpc : s.pc t = .entering .unlock)
    {turn : RwlockLockState T × Int} (hturn : s.lock.Unlock t turn) :
    Invariant (RwlockSystem.return_ { s with lock := turn.1 } t .unlock turn.2) := by
  have hreaders : s.lock.waitingReaders + (if s.pc t = .blockedReader then 1 else 0) =
      s.lock.waitingReaders := by simp [hpc]
  have hwriters : s.lock.waitingWriters + (if s.pc t = .blockedWriter then 1 else 0) =
      s.lock.waitingWriters := by simp [hpc]
  cases hturn with
  | fails code hcode =>
    refine h.return_ h.ownersOk hreaders hwriters (fun x => ?_) fun hd => ?_
    · simp only [hcode, false_and, and_false, if_false]
    · exact ⟨hd, (h.destroyedFree hd).1, (h.destroyedFree hd).2.1⟩
  | writer halive hwriter =>
    have hnone := h.exclusive (by rw [hwriter]; simp)
    refine h.return_ ⟨h.total, h.positive, fun _ => hnone⟩ hreaders hwriters (fun x => ?_)
      fun hd => absurd (halive.symm.trans hd) (by decide)
    simp [holds, hwriter, RwlockCall.acquiring]
  | reader readerDepth halive hwriter hdepth =>
    have hpos := h.ownersOk.readers_pos hdepth
    refine h.return_ (h.ownersOk.releaseReader hdepth) hreaders hwriters (fun x => ?_)
      fun hd => absurd (halive.symm.trans hd) (by decide)
    simp only [RwlockCall.acquiring, Bool.false_eq_true, and_false, and_true, if_false]
    unfold holds
    change (Function.update s.lock.readerOwners t _ x).getD 0 +
      (if s.lock.writerOwner = some x then 1 else 0) + _ = _
    by_cases he : t = x
    · rw [← he, Function.update_self, if_pos rfl, hdepth, Option.getD_some]
      split
      · rename_i hz
        rw [Option.getD_none]
        omega
      · rw [Option.getD_some]
        omega
    · rw [Function.update_of_ne (Ne.symm he), if_neg he]

/-- `destroy` marks the lock only where no thread holds it or waits for it. -/
theorem Invariant.destroy (h : Invariant s) {t : T} (hpc : s.pc t = .entering .destroy) :
    Invariant (s.enter t .destroy) := by
  have hreturn : ∀ code, Invariant (s.return_ t .destroy code) := by
    intro code
    refine h.return_ (l := s.lock) h.ownersOk (by simp [hpc]) (by simp [hpc])
      (fun x => by simp [RwlockCall.acquiring]) fun hd => ?_
    exact ⟨hd, (h.destroyedFree hd).1, (h.destroyedFree hd).2.1⟩
  simp only [RwlockSystem.enter]
  split
  · exact hreturn _
  · rename_i hmark
    unfold markDestroyed at hmark ⊢
    split_ifs at hmark ⊢ with hdestroyed hbusy
    · exact absurd (show EINVAL ≠ 0 by decide) hmark
    · exact absurd (show EBUSY ≠ 0 by decide) hmark
    · simp only [not_or, not_not, Bool.not_eq_true, Option.isSome_eq_false_iff,
        Option.isNone_iff_eq_none] at hbusy
      have hpc' : ∀ c : RwlockPc, c ≠ .unregistering → c ≠ .entering .destroy →
          Census.count (fun pc => pc = c) (Function.update s.pc t .unregistering) =
            Census.count (fun pc => pc = c) s.pc := fun c hc hc' =>
        Census.count_update_of_iff _ _ _ _ (by simp [hpc, hc.symm, hc'.symm])
      have hzeroR := hpc' .blockedReader (by decide) (by decide)
      have hzeroW := hpc' .blockedWriter (by decide) (by decide)
      rw [← h.waitingReaders, hbusy.2.2.1] at hzeroR
      rw [← h.waitingWriters, hbusy.2.2.2] at hzeroW
      refine ⟨h.total, h.positive, h.exclusive, hbusy.2.2.1.trans hzeroR.symm,
        hbusy.2.2.2.trans hzeroW.symm, h.balance, fun _ => ⟨hbusy.1, ?_, fun x => ⟨?_, ?_⟩⟩⟩
      · exact h.ownersOk.no_readers hbusy.2.1
      · exact (Census.count_eq_zero_iff _ _).mp hzeroR x
      · exact (Census.count_eq_zero_iff _ _).mp hzeroW x

/-- A step between two critical sections. -/
theorem Invariant.move (h : Invariant s) {t : T} {pc : RwlockPc} {registered : Bool}
    (hold : s.pc t ≠ .blockedReader ∧ s.pc t ≠ .blockedWriter)
    (hnew : pc ≠ .blockedReader ∧ pc ≠ .blockedWriter) :
    Invariant { s with registered := registered, pc := Function.update s.pc t pc } where
  total := h.total
  positive := h.positive
  exclusive := h.exclusive
  waitingReaders := by
    rw [h.waitingReaders]
    exact (Census.count_update_of_iff _ _ _ _ (by simp [hold.1, hnew.1])).symm
  waitingWriters := by
    rw [h.waitingWriters]
    exact (Census.count_update_of_iff _ _ _ _ (by simp [hold.2, hnew.2])).symm
  balance := h.balance
  destroyedFree := fun hd => by
    have hfree := h.destroyedFree hd
    refine ⟨hfree.1, hfree.2.1, fun x => ?_⟩
    change Function.update s.pc t pc x ≠ _ ∧ Function.update s.pc t pc x ≠ _
    by_cases he : x = t
    · rwa [he, Function.update_self]
    · rw [Function.update_of_ne he]
      exact hfree.2.2 x

theorem initial_invariant : Invariant (initial : RwlockSystem T) where
  total := ((Census.total_eq_zero_iff _ _).mpr fun _ => rfl).symm
  positive := fun t => by simp [initial, RwlockLockState.default]
  exclusive := fun h => absurd rfl h
  waitingReaders := ((Census.count_eq_zero_iff _ _).mpr fun _ => by simp [initial]).symm
  waitingWriters := ((Census.count_eq_zero_iff _ _).mpr fun _ => by simp [initial]).symm
  balance := fun t => rfl
  destroyedFree := fun h => absurd h (by simp [initial, RwlockLockState.default])

include hcard in
theorem step_invariant (h : Invariant s) {s' : RwlockSystem T} {label : RwlockLabel T}
    (hs : s.step label = some s') : Invariant s' := by
  cases label with
  | call t call =>
    simp only [step, Option.ite_none_right_eq_some] at hs
    obtain ⟨hpc, hs⟩ := hs
    split at hs
    · rw [← Option.some.inj hs]
      exact h.move (by simp [hpc]) (by simp)
    · rw [← Option.some.inj hs]
      refine h.return_ (l := s.lock) h.ownersOk (by simp [hpc]) (by simp [hpc])
        (fun x => by simp [EINVAL]) fun hd => ?_
      exact ⟨hd, (h.destroyedFree hd).1, (h.destroyedFree hd).2.1⟩
  | enter t =>
    simp only [step] at hs
    split at hs
    · rename_i call hpc
      rw [← Option.some.inj hs]
      cases call with
      | rdlock => exact h.rdlockTurn hcard (Or.inl rfl) hpc (rdlockTurn_spec _ t (by simp))
      | tryrdlock => exact h.rdlockTurn hcard (Or.inr rfl) hpc (rdlockTurn_spec _ t (by simp))
      | wrlock => exact h.wrlockTurn hcard (Or.inl rfl) hpc (wrlockTurn_spec _ t (by simp))
      | trywrlock => exact h.wrlockTurn hcard (Or.inr rfl) hpc (wrlockTurn_spec _ t (by simp))
      | unlock => exact h.unlock hpc (unlockInternal_spec s.lock t)
      | destroy => exact h.destroy hpc
    · exact absurd hs (by simp)
  | wake t =>
    simp only [step] at hs
    split at hs
    · rename_i hpc
      rw [← Option.some.inj hs]
      exact h.rdlockTurn hcard (Or.inl rfl) hpc (rdlockTurn_spec _ t (by simp))
    · rename_i hpc
      rw [← Option.some.inj hs]
      exact h.wrlockTurn hcard (Or.inl rfl) hpc (wrlockTurn_spec _ t (by simp))
    · exact absurd hs (by simp)
  | unregister t =>
    simp only [step, Option.ite_none_right_eq_some, Option.some.injEq] at hs
    obtain ⟨hpc, rfl⟩ := hs
    have hmove : Invariant { s with registered := false, pc := Function.update s.pc t .idle } :=
      h.move (by simp [hpc]) (by simp)
    refine ⟨hmove.total, hmove.positive, hmove.exclusive, hmove.waitingReaders,
      hmove.waitingWriters, fun x => ?_, hmove.destroyedFree⟩
    rw [acquisitions_return, releases_return]
    simp only [RwlockCall.acquiring, Bool.false_eq_true, reduceCtorEq, and_false, if_false]
    exact h.balance x

/-! ## After `destroy` -/

omit [Fintype T] in
/-- A destroyed lock stays destroyed, and is not acquired any more. -/
theorem step_destroyed {s' : RwlockSystem T} (hd : s.lock.destroyed = true)
    {label : RwlockLabel T} (hs : s.step label = some s') :
    s'.lock.destroyed = true ∧ ∀ t, s'.acquisitions t = s.acquisitions t := by
  have hreturn : ∀ (l : RwlockLockState T) (t : T) (call : RwlockCall) (code : Int),
      l.destroyed = true → (code ≠ 0 ∨ call.acquiring = false) →
      (RwlockSystem.return_ { s with lock := l } t call code).lock.destroyed = true ∧
        ∀ x, (RwlockSystem.return_ { s with lock := l } t call code).acquisitions x =
          s.acquisitions x := by
    intro l t call code hl hcode
    refine ⟨hl, fun x => ?_⟩
    rw [acquisitions_return]
    cases hcode with
    | inl hcode => simp [hcode, acquisitions]
    | inr hcall => simp [hcall, acquisitions]
  have hrd : ∀ t call tryOnly registeredWaiter,
      (s.finish t call .blockedReader
        (s.lock.rdlockTurn t tryOnly registeredWaiter)).lock.destroyed = true ∧
      ∀ x, (s.finish t call .blockedReader
        (s.lock.rdlockTurn t tryOnly registeredWaiter)).acquisitions x = s.acquisitions x := by
    intro t call tryOnly registeredWaiter
    unfold rdlockTurn
    rw [if_pos hd]
    exact hreturn _ t call EINVAL hd (Or.inl (by decide))
  have hwr : ∀ t call tryOnly registeredWaiter,
      (s.finish t call .blockedWriter
        (s.lock.wrlockTurn t tryOnly registeredWaiter)).lock.destroyed = true ∧
      ∀ x, (s.finish t call .blockedWriter
        (s.lock.wrlockTurn t tryOnly registeredWaiter)).acquisitions x = s.acquisitions x := by
    intro t call tryOnly registeredWaiter
    unfold wrlockTurn
    rw [if_pos hd]
    exact hreturn _ t call EINVAL hd (Or.inl (by decide))
  cases label with
  | call t call =>
    simp only [step, Option.ite_none_right_eq_some] at hs
    obtain ⟨_, hs⟩ := hs
    split at hs
    · exact Option.some.inj hs ▸ ⟨hd, fun _ => rfl⟩
    · exact Option.some.inj hs ▸ hreturn s.lock t call EINVAL hd (Or.inl (by decide))
  | enter t =>
    simp only [step] at hs
    split at hs
    · rename_i call _
      rw [← Option.some.inj hs]
      cases call with
      | rdlock => exact hrd t _ _ _
      | tryrdlock => exact hrd t _ _ _
      | wrlock => exact hwr t _ _ _
      | trywrlock => exact hwr t _ _ _
      | unlock =>
        have hsame : s.lock.unlockInternal t = (s.lock, EINVAL) := by
          unfold unlockInternal
          rw [if_pos hd]
        simp only [RwlockSystem.enter, hsame]
        exact hreturn s.lock t .unlock EINVAL hd (Or.inl (by decide))
      | destroy =>
        have hsame : s.lock.markDestroyed = (s.lock, EINVAL) := by
          unfold markDestroyed
          rw [if_pos hd]
        simp only [RwlockSystem.enter, hsame]
        exact hreturn s.lock t .destroy EINVAL hd (Or.inl (by decide))
    · exact absurd hs (by simp)
  | wake t =>
    simp only [step] at hs
    split at hs
    · exact Option.some.inj hs ▸ hrd t _ _ _
    · exact Option.some.inj hs ▸ hwr t _ _ _
    · exact absurd hs (by simp)
  | unregister t =>
    simp only [step, Option.ite_none_right_eq_some, Option.some.injEq] at hs
    obtain ⟨_, rfl⟩ := hs
    refine ⟨hd, fun x => ?_⟩
    rw [acquisitions_return]
    simp [RwlockCall.acquiring, acquisitions]

omit [Fintype T] in
/-- From a destroyed lock on, no run acquires it. -/
theorem always_destroyed (hd : s.lock.destroyed = true) (ls : List (RwlockLabel T)) :
    Lts.Always step (fun s' => s'.lock.destroyed = true ∧
      ∀ t, s'.acquisitions t = s.acquisitions t) s ls := by
  apply Lts.always_of_invariant
  · intro m label m' hm hs
    have hstep := step_destroyed hm.1 hs
    exact ⟨hstep.1, fun t => (hstep.2 t).trans (hm.2 t)⟩
  · exact ⟨hd, fun _ => rfl⟩

/-- **Safety of the read-write lock**, in every state of every run: the counters and owners are
consistent, what a thread holds is what it acquired and has not unlocked, and a destroyed lock is
free and never acquired again. -/
theorem rwlock_safe (ls : List (RwlockLabel ThreadId)) :
    Lts.Always step (fun s => Invariant s ∧
      (s.lock.destroyed = true → ∀ later : List (RwlockLabel ThreadId),
        Lts.Always step (fun s' => ∀ t, s'.acquisitions t = s.acquisitions t) s later))
      initial ls := by
  have hinv : Lts.Always step Invariant (initial : RwlockSystem ThreadId) ls :=
    Lts.always_of_invariant (fun s _ s' h hs => step_invariant threadId_card_le h hs)
      initial_invariant
  refine hinv.imp fun s hs => ⟨hs, fun hd later => ?_⟩
  exact (always_destroyed hd later).imp fun s' hs' => hs'.2

end RwlockSystem

end Rlibc.Pthread
