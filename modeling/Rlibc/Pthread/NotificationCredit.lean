import Rlibc.Pthread.CondContract
import Rlibc.Pthread.MutexSafety
import Rlibc.Pthread.Sleepers

/-!
# What a step takes, and what it notifies

A free mutex is a token that one of its waiters could take, and so is each pending wakeup of a
condition variable.  A step after which its thread does not wait has left no token behind, or it
has paid for the one that it leaves: with a notification, or because the token was there before
and the thread has not been waiting for it.  A read-write lock has gates instead, which open only
in a step that notifies everybody.
-/

namespace Rlibc.Pthread

/-! ## Critical sections -/

namespace MutexLockState

variable {T : Type*} [DecidableEq T]

/-- The owner after a turn that does not only try. -/
theorem lockTurn_owned (mutexType : MutexType) (l : MutexLockState T) (current : T) :
    (l.lockTurn mutexType current false).1.owner ≠ none := by
  have hturn := l.lockTurn_spec mutexType current false
  generalize l.lockTurn mutexType current false = turn at hturn ⊢
  cases hturn with
  | fails code hcode hcause =>
    cases hcause with
    | inl htry => cases htry
    | inr hself => simp [hself.1]
  | acquires hfree => simp
  | deepens howner htype => simp [howner]
  | waits htry howned hself => exact howned

/-- A call that only tries does not wait, and leaves a free mutex only where it was free. -/
theorem trylockTurn_owned (mutexType : MutexType) (l : MutexLockState T) (current : T) :
    (l.lockTurn mutexType current true).2 ≠ none ∧
      ((l.lockTurn mutexType current true).1.owner = none → l.owner = none) := by
  have hturn := l.lockTurn_spec mutexType current true
  generalize l.lockTurn mutexType current true = turn at hturn ⊢
  cases hturn with
  | fails code hcode hcause => exact ⟨by simp, id⟩
  | acquires hfree => exact ⟨by simp, fun _ => hfree⟩
  | deepens howner htype => exact ⟨by simp, id⟩
  | waits htry howned hself => cases htry

/-- A mutex that `mutex_unlock_internal` leaves free was free, or is given up. -/
theorem unlockInternal_free {mutexType : MutexType} {l : MutexLockState T} {current : T}
    {forCondWait : Bool} (h : (l.unlockInternal mutexType current forCondWait).1.owner = none) :
    l.owner = none ∨ l.Releases mutexType current forCondWait := by
  unfold unlockInternal at h
  split_ifs at h with howner hdepth
  · exact Or.inl h
  · exact absurd (h.symm.trans (not_not.mp howner)) (by simp)
  · exact Or.inr ⟨not_not.mp howner, hdepth⟩

end MutexLockState

/-- A signal adds one wakeup at most. -/
theorem CondWaitState.signal_pending_le (w : CondWaitState) :
    w.signal.pendingWakeups ≤ w.pendingWakeups + 1 := by
  unfold CondWaitState.signal
  split
  · exact Nat.le_succ _
  · exact (Nat.min_le_left _ _).trans (Nat.min_le_left _ _)

namespace RwlockLockState

variable {T : Type*} [DecidableEq T]

/-- A reader that holds nothing could go on. -/
def ReadersMayGo (l : RwlockLockState T) : Prop :=
  l.writerOwner = none ∧ l.waitingWriters = 0

def WritersMayGo (l : RwlockLockState T) : Prop :=
  l.writerOwner = none ∧ l.totalReaders = 0

theorem rdlockTurn_waits {l : RwlockLockState T} {current : T} {tryOnly registeredWaiter : Bool}
    (h : (l.rdlockTurn current tryOnly registeredWaiter).2 = none) :
    ¬ (l.rdlockTurn current tryOnly registeredWaiter).1.ReadersMayGo := by
  unfold rdlockTurn at h ⊢
  split_ifs at h ⊢ with hdestroyed hfree hself htry
  · dsimp only at h
    split at h
    · exact absurd h (by simp)
    · split at h <;> exact absurd h (by simp)
  · exact fun hgo => hfree ⟨hgo.1, Or.inl hgo.2⟩

theorem wrlockTurn_waits {l : RwlockLockState T} {current : T} {tryOnly registeredWaiter : Bool}
    (h : (l.wrlockTurn current tryOnly registeredWaiter).2 = none) :
    ¬ (l.wrlockTurn current tryOnly registeredWaiter).1.WritersMayGo := by
  unfold wrlockTurn at h ⊢
  split_ifs at h ⊢ with hdestroyed hself hfree htry
  exact hfree

/-- A turn of `rdlock` does not touch the writers. -/
theorem rdlockTurn_writers (l : RwlockLockState T) (current : T)
    (tryOnly registeredWaiter : Bool) :
    (l.rdlockTurn current tryOnly registeredWaiter).1.writerOwner = l.writerOwner ∧
      (l.rdlockTurn current tryOnly registeredWaiter).1.waitingWriters = l.waitingWriters ∧
      l.totalReaders ≤ (l.rdlockTurn current tryOnly registeredWaiter).1.totalReaders := by
  unfold rdlockTurn
  split_ifs with hdestroyed hfree hself hmode htry
  · exact ⟨rfl, rfl, Nat.le_refl _⟩
  · dsimp only [unregisterReader]
    split
    · exact ⟨rfl, rfl, Nat.le_refl _⟩
    · split
      · exact ⟨rfl, rfl, Nat.le_refl _⟩
      · rename_i nextTotalReaders htotal
        refine ⟨rfl, rfl, ?_⟩
        have hnext := (checkedAdd_eq_some.mp htotal).1
        dsimp only
        omega
  · exact ⟨rfl, rfl, Nat.le_refl _⟩
  · exact ⟨rfl, rfl, Nat.le_refl _⟩
  · exact ⟨rfl, rfl, Nat.le_refl _⟩
  · exact ⟨rfl, rfl, Nat.le_refl _⟩

/-- After a turn of `wrlock` the gates are open only if they were before.  A waiting writer does
not find the lock destroyed. -/
theorem wrlockTurn_gates (l : RwlockLockState T) (current : T) (tryOnly : Bool)
    {registeredWaiter : Bool} (halive : l.destroyed = true → registeredWaiter = false) :
    ((l.wrlockTurn current tryOnly registeredWaiter).1.ReadersMayGo → l.ReadersMayGo) ∧
      ((l.wrlockTurn current tryOnly registeredWaiter).1.WritersMayGo → l.WritersMayGo) := by
  have hself : ∀ code : Int, l.writerOwner = some current →
      (((l.unregisterWriter registeredWaiter, some code) : _ × Option Int).1.ReadersMayGo →
        l.ReadersMayGo) ∧
      (((l.unregisterWriter registeredWaiter, some code) : _ × Option Int).1.WritersMayGo →
        l.WritersMayGo) := by
    intro code hwriter
    have howned : (l.unregisterWriter registeredWaiter).writerOwner ≠ none := by
      change l.writerOwner ≠ none
      simp [hwriter]
    exact ⟨fun h => absurd h.1 howned, fun h => absurd h.1 howned⟩
  unfold wrlockTurn
  split_ifs with hdestroyed hwriter hmode hfree htry
  · rw [halive hdestroyed]
    exact ⟨id, id⟩
  · exact hself EBUSY hwriter
  · exact hself EDEADLK hwriter
  · exact ⟨fun h => absurd h.1 (by simp), fun h => absurd h.1 (by simp)⟩
  · exact ⟨id, id⟩
  · refine ⟨fun h => ⟨h.1, ?_⟩, id⟩
    have hzero := h.2
    unfold registerWriter at hzero
    cases registeredWaiter with
    | true => exact hzero
    | false =>
      change saturatingAdd l.waitingWriters 1 = 0 at hzero
      unfold saturatingAdd usizeMax at hzero
      omega

/-- An unlock that opens a gate notifies. -/
theorem unlockInternal_gates (l : RwlockLockState T) (current : T) :
    ((l.unlockInternal current).1.ReadersMayGo → l.ReadersMayGo ∨ l.UnlockNotifies current) ∧
      ((l.unlockInternal current).1.WritersMayGo →
        l.WritersMayGo ∨ l.UnlockNotifies current) := by
  unfold unlockInternal
  split_ifs with hdestroyed hself
  · exact ⟨Or.inl, Or.inl⟩
  · have halive : l.destroyed = false := by simpa using hdestroyed
    exact ⟨fun _ => Or.inr ⟨halive, Or.inl hself⟩, fun _ => Or.inr ⟨halive, Or.inl hself⟩⟩
  · have halive : l.destroyed = false := by simpa using hdestroyed
    split
    · exact ⟨Or.inl, Or.inl⟩
    · rename_i readerDepth hdepth
      refine ⟨Or.inl, fun h => Or.inr ⟨halive, Or.inr ⟨?_, h.2⟩⟩⟩
      rw [hdepth]
      rfl

end RwlockLockState

namespace SyncSystem

open Condvars (Pays)

variable {T M C : Type*} [DecidableEq T] [DecidableEq M] [DecidableEq C]

/-! ## Mutexes -/

/-- A free mutex is one token. -/
def mutexTokens (s : SyncSystem T M C) (m : M) : ℕ :=
  match s.mutexes m with
  | some l => if l.owner = none then 1 else 0
  | none => 0

variable {mutexType : M → MutexType} {s s' : SyncSystem T M C} {t : T} {m m₀ : M}
  {notifies : Option (Notification M C)}

omit [DecidableEq T] [DecidableEq M] [DecidableEq C] in
theorem mutexTokens_eq_zero (h : ∀ l, s.mutexes m = some l → l.owner ≠ none) :
    s.mutexTokens m = 0 := by
  unfold mutexTokens
  cases hl : s.mutexes m with
  | none => rfl
  | some l => exact if_neg (h l hl)

omit [DecidableEq T] [DecidableEq M] [DecidableEq C] in
theorem mutexTokens_le_one : s.mutexTokens m ≤ 1 := by
  unfold mutexTokens
  split
  · split <;> omega
  · omega

omit [DecidableEq T] [DecidableEq M] [DecidableEq C] in
theorem mutexTokens_mono (h : ∀ l', s'.mutexes m = some l' → l'.owner = none →
    ∃ l, s.mutexes m = some l ∧ l.owner = none) : s'.mutexTokens m ≤ s.mutexTokens m := by
  by_cases hfree : ∃ l', s'.mutexes m = some l' ∧ l'.owner = none
  · obtain ⟨l', hl', hnone⟩ := hfree
    obtain ⟨l, hl, hl₀⟩ := h l' hl' hnone
    have hone : s.mutexTokens m = 1 := by
      unfold mutexTokens
      simp only [hl, hl₀, if_true]
    rw [hone]
    exact mutexTokens_le_one
  · rw [mutexTokens_eq_zero fun l' hl' hnone => hfree ⟨l', hl', hnone⟩]
    exact Nat.zero_le _

omit [DecidableEq T] [DecidableEq M] [DecidableEq C] in
/-- A step of a thread that does not wait for `m`, and does not free it. -/
theorem paysMutex_kept (hfrom : (s.pc t).waitCv ≠ some (.mutex m))
    (hto : (s'.pc t).waitCv ≠ some (.mutex m))
    (hfree : ∀ l', s'.mutexes m = some l' → l'.owner = none →
      ∃ l, s.mutexes m = some l ∧ l.owner = none) :
    Pays (.mutex m) (s.pc t).waitCv (s'.pc t).waitCv (s.mutexTokens m) (s'.mutexTokens m)
      notifies :=
  .kept hto hfrom (mutexTokens_mono hfree)

omit [DecidableEq T] [DecidableEq C] in
/-- A step that leaves `m₀` with an owner. -/
theorem paysMutex_owned {l' : MutexLockState T}
    (hmutexes : s'.mutexes = Function.update s.mutexes m₀ (some l')) (howned : l'.owner ≠ none)
    (hfrom : ∀ m, (s.pc t).waitCv = some (.mutex m) → m = m₀)
    (hto : ∀ m, (s'.pc t).waitCv = some (.mutex m) → m = m₀) :
    Pays (.mutex m) (s.pc t).waitCv (s'.pc t).waitCv (s.mutexTokens m) (s'.mutexTokens m)
      notifies := by
  by_cases he : m = m₀
  · refine .spent (mutexTokens_eq_zero fun l hl => ?_)
    rw [hmutexes, he, Function.update_self, Option.some.injEq] at hl
    exact hl ▸ howned
  · refine paysMutex_kept (fun h => he (hfrom m h)) (fun h => he (hto m h)) fun l hl hnone => ?_
    rw [hmutexes, Function.update_of_ne he] at hl
    exact ⟨l, hl, hnone⟩

omit [DecidableEq C] in
/-- `mutex_unlock_internal` on `m₀`, by a thread that does not wait. -/
theorem paysMutex_unlocked {l : MutexLockState T} {forCondWait : Bool}
    (hl : s.mutexes m₀ = some l)
    (hmutexes : s'.mutexes = Function.update s.mutexes m₀
      (some (l.unlockInternal (mutexType m₀) t forCondWait).1))
    (hfrom : (s.pc t).waitCv = none) (hto : (s'.pc t).waitCv = none)
    (hnotifies : l.Releases (mutexType m₀) t forCondWait → notifies = some ⟨.mutex m₀, false⟩) :
    Pays (.mutex m) (s.pc t).waitCv (s'.pc t).waitCv (s.mutexTokens m) (s'.mutexTokens m)
      notifies := by
  have hfrom' : (s.pc t).waitCv ≠ some (.mutex m) := by simp [hfrom]
  have hto' : (s'.pc t).waitCv ≠ some (.mutex m) := by simp [hto]
  by_cases he : m = m₀
  · subst he
    by_cases hreleases : l.Releases (mutexType m) t forCondWait
    · refine .one hto' hfrom' (hnotifies hreleases) ?_
      exact mutexTokens_le_one.trans (Nat.le_add_left _ _)
    · refine paysMutex_kept hfrom' hto' fun l' hl' hnone => ⟨l, hl, ?_⟩
      rw [hmutexes, Function.update_self, Option.some.injEq] at hl'
      rw [← hl'] at hnone
      exact (MutexLockState.unlockInternal_free hnone).resolve_right hreleases
  · refine paysMutex_kept hfrom' hto' fun l' hl' hnone => ?_
    rw [hmutexes, Function.update_of_ne he] at hl'
    exact ⟨l', hl', hnone⟩

omit [DecidableEq C] in
theorem paysMutex_finishLock {call : SyncCall M C} {turn : MutexLockState T × Option Int}
    (hpc : s.pc t = .idle ∨ s.pc t = .locking m₀) (howned : turn.1.owner ≠ none) :
    Pays (.mutex m) (s.pc t).waitCv ((s.finishLock t m₀ call turn).pc t).waitCv
      (s.mutexTokens m) ((s.finishLock t m₀ call turn).mutexTokens m) notifies := by
  have hfrom : ∀ m, (s.pc t).waitCv = some (.mutex m) → m = m₀ := by
    intro m hm
    cases hpc with
    | inl he =>
      rw [he] at hm
      cases hm
    | inr he =>
      rw [he] at hm
      cases hm
      rfl
  unfold finishLock
  split
  · refine paysMutex_owned rfl howned hfrom fun m hm => ?_
    simp [return_, SyncPc.waitCv] at hm
  · refine paysMutex_owned rfl howned hfrom fun m hm => ?_
    simp only [goto, Function.update_self, SyncPc.waitCv, Option.some.injEq, WaitCv.mutex.injEq]
      at hm
    exact hm.symm

theorem step_paysMutex {label : SyncLabel T M C} (hs : s.step mutexType label = some s') (m : M) :
    Pays (.mutex m) (s.pc label.thread).waitCv (s'.pc label.thread).waitCv (s.mutexTokens m)
      (s'.mutexTokens m) (s.notifies mutexType label) := by
  have hidle : ∀ {u : T}, s.pc u = .idle → (s.pc u).waitCv = none := by
    intro u hpc
    rw [hpc]
    rfl
  -- a step that leaves the mutexes alone, by a thread that waits for none
  have hsame : ∀ {u : T} {s' : SyncSystem T M C} {n : Option (Notification M C)},
      (s.pc u).waitCv ≠ some (.mutex m) → (s'.pc u).waitCv ≠ some (.mutex m) →
      s'.mutexes = s.mutexes →
      Pays (.mutex m) (s.pc u).waitCv (s'.pc u).waitCv (s.mutexTokens m) (s'.mutexTokens m) n :=
    fun hfrom hto hm => paysMutex_kept hfrom hto fun l hl hnone => ⟨l, hm ▸ hl, hnone⟩
  -- a step that keeps the owner of the mutex it works on
  have howner : ∀ {u : T} {s' : SyncSystem T M C} {m₀ : M} {l l' : MutexLockState T}
      {n : Option (Notification M C)}, s.mutexes m₀ = some l →
      (s.pc u).waitCv ≠ some (.mutex m) → (s'.pc u).waitCv ≠ some (.mutex m) →
      s'.mutexes = Function.update s.mutexes m₀ (some l') → (l'.owner = none → l.owner = none) →
      Pays (.mutex m) (s.pc u).waitCv (s'.pc u).waitCv (s.mutexTokens m) (s'.mutexTokens m) n := by
    intro u s' m₀ l l' n hl hfrom hto hm hkeep
    refine paysMutex_kept hfrom hto fun x hx hnone => ?_
    by_cases he : m = m₀
    · rw [hm, he, Function.update_self, Option.some.injEq] at hx
      exact ⟨l, he ▸ hl, hkeep (hx ▸ hnone)⟩
    · rw [hm, Function.update_of_ne he] at hx
      exact ⟨x, hx, hnone⟩
  have hto : ∀ {u : T} {p : T → SyncPc M C} {p' : SyncPc M C}, p'.waitCv ≠ some (.mutex m) →
      (Function.update p u p' u).waitCv ≠ some (.mutex m) := by
    intro u p p' h
    rwa [Function.update_self]
  cases label with
  | lock t m₀ =>
    simp only [step, Option.ite_none_right_eq_some, Option.some.injEq] at hs
    obtain ⟨hpc, rfl⟩ := hs
    unfold lock
    split
    · exact hsame (by simp [SyncLabel.thread, hidle hpc]) (hto (by simp [SyncPc.waitCv])) rfl
    · exact paysMutex_finishLock (Or.inl hpc) (MutexLockState.lockTurn_owned _ _ _)
  | trylock t m₀ =>
    simp only [step, Option.ite_none_right_eq_some, Option.some.injEq] at hs
    obtain ⟨hpc, rfl⟩ := hs
    unfold trylock
    split
    · exact hsame (by simp [SyncLabel.thread, hidle hpc]) (hto (by simp [SyncPc.waitCv])) rfl
    · rename_i l hl
      have hturn := l.trylockTurn_owned (mutexType m₀) t
      unfold finishLock
      split
      · exact howner hl (by simp [SyncLabel.thread, hidle hpc]) (hto (by simp [SyncPc.waitCv])) rfl
          hturn.2
      · rename_i hnone
        exact absurd hnone hturn.1
  | wakeLock t =>
    simp only [step] at hs
    split at hs
    · rename_i m₀ hpc
      rw [Option.map_eq_some_iff] at hs
      obtain ⟨l, _, rfl⟩ := hs
      exact paysMutex_finishLock (Or.inr hpc) (MutexLockState.lockTurn_owned _ _ _)
    · exact absurd hs (by simp)
  | unlock t m₀ =>
    simp only [step, Option.ite_none_right_eq_some, Option.some.injEq] at hs
    obtain ⟨hpc, rfl⟩ := hs
    unfold unlock
    split
    · exact hsame (by simp [SyncLabel.thread, hidle hpc]) (hto (by simp [SyncPc.waitCv])) rfl
    · rename_i l hl
      refine paysMutex_unlocked hl rfl (hidle hpc) ?_ fun hreleases => ?_
      · simp [return_, SyncLabel.thread, SyncPc.waitCv]
      · simp only [notifies, hl]
        exact if_pos hreleases
  | destroy t m₀ =>
    simp only [step, Option.ite_none_right_eq_some, Option.some.injEq] at hs
    obtain ⟨hpc, rfl⟩ := hs
    have hfrom : (s.pc t).waitCv ≠ some (.mutex m) := by simp [hidle hpc]
    unfold destroy
    split
    · exact hsame hfrom (hto (by simp [SyncPc.waitCv])) rfl
    · split
      · exact hsame hfrom (hto (by simp [SyncPc.waitCv])) rfl
      · refine paysMutex_kept hfrom (hto (by simp [SyncPc.waitCv])) fun l hl hnone => ⟨l, ?_, hnone⟩
        change Function.update s.mutexes m₀ none m = some l at hl
        by_cases he : m = m₀
        · rw [he, Function.update_self] at hl
          cases hl
        · rwa [Function.update_of_ne he] at hl
  | wait t w abstimeOk =>
    simp only [step, Option.ite_none_right_eq_some] at hs
    obtain ⟨hpc, hs⟩ := hs
    have hfrom : (s.pc t).waitCv ≠ some (.mutex m) := by simp [hidle hpc]
    unfold wait at hs
    split at hs
    · exact Option.some.inj hs ▸ hsame hfrom (hto (by simp [SyncPc.waitCv])) rfl
    · split at hs
      · exact absurd hs (by simp)
      · split at hs <;>
          exact Option.some.inj hs ▸ hsame hfrom (hto (by simp [SyncPc.waitCv])) rfl
  | addReference t =>
    simp only [step] at hs
    split at hs
    · rename_i w hpc
      have hfrom : (s.pc t).waitCv ≠ some (.mutex m) := by simp [hpc, SyncPc.waitCv]
      unfold addReference at hs
      rw [Option.map_eq_some_iff] at hs
      obtain ⟨l, hl, rfl⟩ := hs
      dsimp only
      split
      · exact hsame hfrom (hto (by simp [SyncPc.waitCv])) rfl
      · refine howner hl hfrom (hto (by simp [SyncPc.waitCv])) rfl ?_
        unfold MutexLockState.addCondWaiterReference
        split <;> exact id
    · exact absurd hs (by simp)
  | release t =>
    simp only [step] at hs
    split at hs
    · rename_i w depth hpc
      have hfrom : (s.pc t).waitCv = none := by simp [hpc, SyncPc.waitCv]
      unfold release at hs
      rw [Option.map_eq_some_iff] at hs
      obtain ⟨l, hl, rfl⟩ := hs
      dsimp only
      split
      · exact hsame (by simp [SyncLabel.thread, hfrom]) (hto (by simp [SyncPc.waitCv])) rfl
      · refine paysMutex_unlocked hl rfl hfrom ?_ fun hreleases => ?_
        · simp [goto, SyncLabel.thread, SyncPc.waitCv]
        · simp only [notifies, hpc, hl]
          exact if_pos hreleases
    · exact absurd hs (by simp)
  | test t which =>
    simp only [step] at hs
    split at hs
    · rename_i w depth hpc
      have hfrom : (s.pc t).waitCv ≠ some (.mutex m) := by simp [hpc, SyncPc.waitCv]
      rw [← Option.some.inj hs]
      unfold test
      dsimp only
      split <;> exact hsame hfrom (hto (by simp [SyncPc.waitCv])) rfl
    · exact absurd hs (by simp)
  | wakeWait t expired which =>
    simp only [step] at hs
    split at hs
    · rename_i w depth hpc
      have hfrom : (s.pc t).waitCv ≠ some (.mutex m) := by simp [hpc, SyncPc.waitCv]
      unfold wakeWait at hs
      split_ifs at hs
      · exact Option.some.inj hs ▸ hsame hfrom (hto (by simp [SyncPc.waitCv])) rfl
      · exact Option.some.inj hs ▸ hsame hfrom (hto (by simp [SyncPc.waitCv])) rfl
      · exact Option.some.inj hs ▸ hsame hfrom hfrom rfl
    · exact absurd hs (by simp)
  | relock t =>
    simp only [step] at hs
    split at hs
    · rename_i w depth timedOut restored blocked hpc
      have hfrom : ∀ m, (s.pc t).waitCv = some (.mutex m) → m = w.mutex := by
        intro m hm
        rw [hpc] at hm
        cases blocked <;> cases hm
        rfl
      unfold relock at hs
      rw [Option.map_eq_some_iff] at hs
      obtain ⟨l, hl, rfl⟩ := hs
      have howned := (wokenState l blocked).lockTurn_owned (mutexType w.mutex) t
      dsimp only
      split
      · refine paysMutex_owned rfl howned hfrom fun m hm => ?_
        simp only [goto, SyncLabel.thread, Function.update_self, SyncPc.waitCv, if_true,
          Option.some.injEq, WaitCv.mutex.injEq] at hm
        exact hm.symm
      · split
        · refine paysMutex_owned rfl howned hfrom fun m hm => ?_
          simp [goto, SyncLabel.thread, SyncPc.waitCv] at hm
        · split
          · refine paysMutex_owned rfl howned hfrom fun m hm => ?_
            simp [goto, SyncLabel.thread, SyncPc.waitCv] at hm
          · refine paysMutex_owned rfl howned hfrom fun m hm => ?_
            simp [goto, SyncLabel.thread, SyncPc.waitCv] at hm
    · exact absurd hs (by simp)
  | unreference t =>
    simp only [step] at hs
    split at hs
    · rename_i w depth code hpc
      have hfrom : (s.pc t).waitCv ≠ some (.mutex m) := by simp [hpc, SyncPc.waitCv]
      unfold unreference at hs
      rw [Option.map_eq_some_iff] at hs
      obtain ⟨l, hl, rfl⟩ := hs
      exact howner hl hfrom (hto (by simp [SyncPc.waitCv])) rfl id
    · exact absurd hs (by simp)
  | signal t c =>
    simp only [step, Option.ite_none_right_eq_some, Option.some.injEq] at hs
    obtain ⟨⟨hpc, _⟩, rfl⟩ := hs
    have hfrom : (s.pc t).waitCv ≠ some (.mutex m) := by simp [hidle hpc]
    unfold signal
    split <;> exact hsame hfrom (hto (by simp [SyncPc.waitCv])) rfl
  | broadcast t c =>
    simp only [step, Option.ite_none_right_eq_some, Option.some.injEq] at hs
    obtain ⟨⟨hpc, _⟩, rfl⟩ := hs
    have hfrom : (s.pc t).waitCv ≠ some (.mutex m) := by simp [hidle hpc]
    unfold broadcast
    split <;> exact hsame hfrom (hto (by simp [SyncPc.waitCv])) rfl

/-! ## Condition variables -/

variable {c : C}

omit [DecidableEq M] in
theorem test_paysCond {w : WaitCall M C} {depth : Nat} (hfrom : (s.pc t).waitCv ≠ some (.cond c))
    (which : Nat) :
    Pays (.cond c) (s.pc t).waitCv ((s.test t w depth which).pc t).waitCv
      (s.condState c).pendingWakeups ((s.test t w depth which).condState c).pendingWakeups
      notifies := by
  have hself : (s.setCond w.cond (s.condState w.cond) ((s.histories w.cond).begin t)).condState
      w.cond = s.condState w.cond := condState_self rfl
  have hother : c ≠ w.cond →
      (s.setCond w.cond (s.condState w.cond) ((s.histories w.cond).begin t)).condState c =
        s.condState c := fun hc => condState_of_eq (Function.update_of_ne hc _ _)
  unfold test
  dsimp only
  split
  · rename_i hzero
    by_cases hc : c = w.cond
    · subst hc
      exact .spent hzero
    · refine .kept ?_ hfrom (le_of_eq (congrArg CondWaitState.pendingWakeups (hother hc)))
      simp [goto, SyncPc.waitCv, Ne.symm hc]
  · unfold consume
    refine .kept ?_ hfrom ?_
    · simp [goto, SyncPc.waitCv]
    · by_cases hc : c = w.cond
      · subst hc
        rw [(condState_self rfl : (goto _ _ _ : SyncSystem T M C).condState w.cond = _)]
        change (_ : CondWaitState).pendingWakeups - 1 ≤ _
        exact (Nat.sub_le _ _).trans (le_of_eq (congrArg CondWaitState.pendingWakeups hself))
      · refine le_of_eq (congrArg CondWaitState.pendingWakeups ?_)
        exact (condState_of_eq (Function.update_of_ne hc _ _)).trans (hother hc)

omit [DecidableEq M] in
theorem wakeWait_paysCond {w : WaitCall M C} {depth : Nat} (hpc : s.pc t = .asleep w depth)
    {expired : Bool} {which : Nat} (hs : s.wakeWait t w depth expired which = some s') :
    Pays (.cond c) (s.pc t).waitCv (s'.pc t).waitCv (s.condState c).pendingWakeups
      (s'.condState c).pendingWakeups notifies := by
  have hgone : ∀ {p : T → SyncPc M C} {timedOut : Bool},
      (Function.update p t (.relocking w depth timedOut 0 false) t).waitCv ≠ some (.cond c) := by
    intro p timedOut
    rw [Function.update_self]
    simp [SyncPc.waitCv]
  have hfrom : c ≠ w.cond → (s.pc t).waitCv ≠ some (.cond c) := by
    intro hc
    rw [hpc]
    simp [SyncPc.waitCv, Ne.symm hc]
  unfold wakeWait at hs
  split_ifs at hs with _ hsome hexpired
  · rw [← Option.some.inj hs]
    by_cases hc : c = w.cond
    · subst hc
      refine .took hgone ?_
      rw [consume, (condState_self rfl : (goto _ _ _ : SyncSystem T M C).condState w.cond = _)]
      change (s.condState w.cond).pendingWakeups - 1 + 1 ≤ _
      omega
    · refine .kept hgone (hfrom hc) (le_of_eq (congrArg CondWaitState.pendingWakeups ?_))
      exact condState_of_eq (Function.update_of_ne hc _ _)
  · rw [← Option.some.inj hs]
    by_cases hc : c = w.cond
    · subst hc
      refine .spent ?_
      rw [(condState_self rfl : (goto _ _ _ : SyncSystem T M C).condState w.cond = _)]
      exact not_not.mp hsome
    · refine .kept hgone (hfrom hc) (le_of_eq (congrArg CondWaitState.pendingWakeups ?_))
      exact condState_of_eq (Function.update_of_ne hc _ _)
  · rw [← Option.some.inj hs]
    by_cases hc : c = w.cond
    · subst hc
      exact .spent (not_not.mp hsome)
    · exact .kept (hfrom hc) (hfrom hc) (Nat.le_refl _)

theorem step_paysCond {label : SyncLabel T M C} (hs : s.step mutexType label = some s') (c : C) :
    Pays (.cond c) (s.pc label.thread).waitCv (s'.pc label.thread).waitCv
      (s.condState c).pendingWakeups (s'.condState c).pendingWakeups
      (s.notifies mutexType label) := by
  have hidle : ∀ {u : T}, s.pc u = .idle → (s.pc u).waitCv ≠ some (.cond c) := by
    intro u hpc
    rw [hpc]
    simp [SyncPc.waitCv]
  have hto : ∀ {u : T} {p : T → SyncPc M C} {p' : SyncPc M C}, p'.waitCv ≠ some (.cond c) →
      (Function.update p u p' u).waitCv ≠ some (.cond c) := by
    intro u p p' h
    rwa [Function.update_self]
  -- the wakeups of the condition variable that a step works on
  have hpending : ∀ {s₁ : SyncSystem T M C} {c₀ : C} {w : CondWaitState},
      s₁.conds = Function.update s.conds c₀ (some w) →
      w.pendingWakeups ≤ (s.condState c₀).pendingWakeups →
      (s₁.condState c).pendingWakeups ≤ (s.condState c).pendingWakeups := by
    intro s₁ c₀ w hconds hle
    by_cases hc : c = c₀
    · subst hc
      rwa [condState_self hconds]
    · rw [condState_of_eq (s := s) (by rw [hconds, Function.update_of_ne hc])]
  have hsame : ∀ {u : T} {s₁ : SyncSystem T M C} {n : Option (Notification M C)},
      (s.pc u).waitCv ≠ some (.cond c) → (s₁.pc u).waitCv ≠ some (.cond c) →
      s₁.conds = s.conds →
      Pays (.cond c) (s.pc u).waitCv (s₁.pc u).waitCv (s.condState c).pendingWakeups
        (s₁.condState c).pendingWakeups n := by
    intro u s₁ n hfrom hto hconds
    refine .kept hto hfrom ?_
    rw [condState_of_eq (s := s) (by rw [hconds])]
  have hfinish : ∀ {u : T} (m : M) (call : SyncCall M C)
      (turn : MutexLockState T × Option Int) {n : Option (Notification M C)},
      (s.pc u).waitCv ≠ some (.cond c) →
      Pays (.cond c) (s.pc u).waitCv ((s.finishLock u m call turn).pc u).waitCv
        (s.condState c).pendingWakeups ((s.finishLock u m call turn).condState c).pendingWakeups
        n := by
    intro u m call turn n hfrom
    unfold finishLock
    split <;> exact hsame hfrom (hto (by simp [SyncPc.waitCv])) rfl
  cases label with
  | lock t m =>
    simp only [step, Option.ite_none_right_eq_some, Option.some.injEq] at hs
    obtain ⟨hpc, rfl⟩ := hs
    unfold lock
    split
    · exact hsame (hidle hpc) (hto (by simp [SyncPc.waitCv])) rfl
    · exact hfinish _ _ _ (hidle hpc)
  | trylock t m =>
    simp only [step, Option.ite_none_right_eq_some, Option.some.injEq] at hs
    obtain ⟨hpc, rfl⟩ := hs
    unfold trylock
    split
    · exact hsame (hidle hpc) (hto (by simp [SyncPc.waitCv])) rfl
    · exact hfinish _ _ _ (hidle hpc)
  | wakeLock t =>
    simp only [step] at hs
    split at hs
    · rename_i m hpc
      rw [Option.map_eq_some_iff] at hs
      obtain ⟨l, _, rfl⟩ := hs
      exact hfinish _ _ _ (by simp [SyncLabel.thread, hpc, SyncPc.waitCv])
    · exact absurd hs (by simp)
  | unlock t m =>
    simp only [step, Option.ite_none_right_eq_some, Option.some.injEq] at hs
    obtain ⟨hpc, rfl⟩ := hs
    unfold unlock
    split <;> exact hsame (hidle hpc) (hto (by simp [SyncPc.waitCv])) rfl
  | destroy t m =>
    simp only [step, Option.ite_none_right_eq_some, Option.some.injEq] at hs
    obtain ⟨hpc, rfl⟩ := hs
    unfold destroy
    split
    · exact hsame (hidle hpc) (hto (by simp [SyncPc.waitCv])) rfl
    · split <;> exact hsame (hidle hpc) (hto (by simp [SyncPc.waitCv])) rfl
  | wait t w abstimeOk =>
    simp only [step, Option.ite_none_right_eq_some] at hs
    obtain ⟨hpc, hs⟩ := hs
    unfold wait at hs
    split at hs
    · exact Option.some.inj hs ▸ hsame (hidle hpc) (hto (by simp [SyncPc.waitCv])) rfl
    · split at hs
      · exact absurd hs (by simp)
      · split at hs
        · rw [← Option.some.inj hs]
          exact .kept (hto (by simp [SyncPc.waitCv])) (hidle hpc) (hpending rfl (Nat.le_refl _))
        · rw [← Option.some.inj hs]
          exact .kept (hto (by simp [SyncPc.waitCv])) (hidle hpc) (hpending rfl (Nat.le_refl _))
  | addReference t =>
    simp only [step] at hs
    split at hs
    · rename_i w hpc
      have hfrom : (s.pc t).waitCv ≠ some (.cond c) := by simp [hpc, SyncPc.waitCv]
      unfold addReference at hs
      rw [Option.map_eq_some_iff] at hs
      obtain ⟨l, hl, rfl⟩ := hs
      dsimp only
      split
      · exact .kept (hto (by simp [SyncPc.waitCv])) hfrom (hpending rfl (Nat.le_refl _))
      · exact hsame hfrom (hto (by simp [SyncPc.waitCv])) rfl
    · exact absurd hs (by simp)
  | release t =>
    simp only [step] at hs
    split at hs
    · rename_i w depth hpc
      have hfrom : (s.pc t).waitCv ≠ some (.cond c) := by simp [hpc, SyncPc.waitCv]
      unfold release at hs
      rw [Option.map_eq_some_iff] at hs
      obtain ⟨l, hl, rfl⟩ := hs
      dsimp only
      split
      · exact .kept (hto (by simp [SyncPc.waitCv])) hfrom (hpending rfl (Nat.le_refl _))
      · exact hsame hfrom (hto (by simp [SyncPc.waitCv])) rfl
    · exact absurd hs (by simp)
  | test t which =>
    simp only [step] at hs
    split at hs
    · rename_i w depth hpc
      have hfrom : (s.pc t).waitCv ≠ some (.cond c) := by simp [hpc, SyncPc.waitCv]
      rw [← Option.some.inj hs]
      exact test_paysCond hfrom which
    · exact absurd hs (by simp)
  | wakeWait t expired which =>
    simp only [step] at hs
    split at hs
    · rename_i w depth hpc
      exact wakeWait_paysCond hpc hs
    · exact absurd hs (by simp)
  | relock t =>
    simp only [step] at hs
    split at hs
    · rename_i w depth timedOut restored blocked hpc
      have hfrom : (s.pc t).waitCv ≠ some (.cond c) := by
        rw [hpc]
        cases blocked <;> simp [SyncPc.waitCv]
      unfold relock at hs
      rw [Option.map_eq_some_iff] at hs
      obtain ⟨l, hl, rfl⟩ := hs
      dsimp only
      split
      · exact hsame hfrom (hto (by simp [SyncPc.waitCv])) rfl
      · split
        · exact hsame hfrom (hto (by simp [SyncPc.waitCv])) rfl
        · split <;> exact hsame hfrom (hto (by simp [SyncPc.waitCv])) rfl
    · exact absurd hs (by simp)
  | unreference t =>
    simp only [step] at hs
    split at hs
    · rename_i w depth code hpc
      have hfrom : (s.pc t).waitCv ≠ some (.cond c) := by simp [hpc, SyncPc.waitCv]
      unfold unreference at hs
      rw [Option.map_eq_some_iff] at hs
      obtain ⟨l, hl, rfl⟩ := hs
      exact hsame hfrom (hto (by simp [SyncPc.waitCv])) rfl
    · exact absurd hs (by simp)
  | signal t c₀ =>
    simp only [step, Option.ite_none_right_eq_some, Option.some.injEq] at hs
    obtain ⟨⟨hpc, _⟩, rfl⟩ := hs
    unfold signal
    split
    · exact hsame (hidle hpc) (hto (by simp [SyncPc.waitCv])) rfl
    · rename_i w hw
      by_cases hc : c = c₀
      · subst hc
        have hstate := condState_of_some hw
        have hafter : ((s.setCond c w.signal ((s.histories c).issue
            (w.signal.pendingWakeups - w.pendingWakeups))).return_ t (.signal c) 0).condState c =
            w.signal := condState_self rfl
        simp only [notifies, hw]
        rw [hstate, hafter]
        by_cases hzero : w.waiterCount = 0
        · rw [CondWaitState.signal, if_pos hzero]
          exact .kept (hto (by simp [SyncPc.waitCv])) (hidle hpc) (Nat.le_refl _)
        · exact .one (hto (by simp [SyncPc.waitCv])) (hidle hpc) (if_neg hzero)
            w.signal_pending_le
      · refine .kept (hto (by simp [SyncPc.waitCv])) (hidle hpc) ?_
        rw [condState_of_eq (s := s) (Function.update_of_ne hc _ _)]
  | broadcast t c₀ =>
    simp only [step, Option.ite_none_right_eq_some, Option.some.injEq] at hs
    obtain ⟨⟨hpc, _⟩, rfl⟩ := hs
    unfold broadcast
    split
    · exact hsame (hidle hpc) (hto (by simp [SyncPc.waitCv])) rfl
    · rename_i w hw
      by_cases hc : c = c₀
      · subst hc
        have hstate := condState_of_some hw
        simp only [notifies, hw]
        by_cases hzero : w.waiterCount = 0
        · refine .kept (hto (by simp [SyncPc.waitCv])) (hidle hpc) ?_
          rw [hstate, (condState_self rfl : (return_ _ _ _ _ : SyncSystem T M C).condState c = _),
            CondWaitState.broadcast, if_pos hzero]
        · exact .all (hto (by simp [SyncPc.waitCv])) (if_neg hzero)
      · refine .kept (hto (by simp [SyncPc.waitCv])) (hidle hpc) ?_
        rw [condState_of_eq (s := s) (Function.update_of_ne hc _ _)]

end SyncSystem

end Rlibc.Pthread
