import Mathlib.Data.List.GetD
import Rlibc.Foundations.Census
import Rlibc.Pthread.Cond

/-!
# The ledger of a condition variable

`Ok` relates the history of a condition variable to its sleepers and to `pending_wakeups`: every
pending wakeup is younger than every sleeper's wait, and enough of them are pending for all the
threads that a broadcast found waiting.  The operations of the history keep it, as long as a wait
begins only where nothing is pending.
-/

namespace Rlibc.Pthread

namespace CondHistory

variable {T : Type*} [DecidableEq T] [Fintype T]

structure Ok (h : CondHistory T) (sleeps : T → Prop) (pending : Nat) : Prop where
  length : h.wakeups.length = pending
  past : ∀ i ∈ h.wakeups, i < h.clock
  beganPast : ∀ t, h.began t ≤ h.clock
  began : ∀ t, sleeps t → ∀ i ∈ h.wakeups, h.began t ≤ i
  consumed : ∀ x ∈ h.consumed, x.began ≤ x.issued
  owedSleep : ∀ waiting ∈ h.owed, ∀ t, waiting t = true → sleeps t
  owedKept : ∀ waiting ∈ h.owed, Census.count (fun b => b = true) waiting ≤ pending
  /-- While a broadcast owes a wakeup to someone, all sleepers are among its own. -/
  owedAll : ∀ waiting ∈ h.owed, ∀ t, waiting t = true → ∀ u, sleeps u → waiting u = true

variable {h : CondHistory T} {sleeps sleeps' : T → Prop} {pending : Nat} {t : T}

omit [DecidableEq T] in
theorem ok_empty : (CondHistory.empty : CondHistory T).Ok sleeps 0 where
  length := rfl
  past := fun _ hi => absurd hi (by simp [empty])
  beganPast := fun _ => Nat.le_refl 0
  began := fun _ _ _ hi => absurd hi (by simp [empty])
  consumed := fun _ hx => absurd hx (by simp [empty])
  owedSleep := fun _ hw => absurd hw (by simp [empty])
  owedKept := fun _ hw => absurd hw (by simp [empty])
  owedAll := fun _ hw => absurd hw (by simp [empty])

omit [DecidableEq T] in
theorem Ok.congr (hok : h.Ok sleeps pending) (hs : ∀ u, sleeps' u ↔ sleeps u) :
    h.Ok sleeps' pending := by
  have he : sleeps' = sleeps := funext fun u => propext (hs u)
  rwa [he]

omit [DecidableEq T] in
/-- Where nothing is pending, nothing is owed. -/
theorem Ok.owed_false (hok : h.Ok sleeps 0) {waiting : T → Bool} (hw : waiting ∈ h.owed) (u : T) :
    waiting u = false := by
  have hzero := Nat.le_zero.mp (hok.owedKept waiting hw)
  have hall := (Census.count_eq_zero_iff _ _).mp hzero u
  simpa using hall

/-- A wait begins. -/
theorem Ok.begin (hok : h.Ok sleeps 0) (hs : ∀ u, sleeps u → sleeps' u) :
    (h.begin t).Ok sleeps' 0 where
  length := hok.length
  past := fun i hi => absurd hi (by simp [List.length_eq_zero_iff.mp hok.length, CondHistory.begin])
  beganPast := fun u => by
    change Function.update h.began t h.clock u ≤ h.clock + 1
    by_cases he : u = t
    · rw [he, Function.update_self]
      omega
    · rw [Function.update_of_ne he]
      exact Nat.le_succ_of_le (hok.beganPast u)
  began := fun u _ i hi =>
    absurd hi (by simp [List.length_eq_zero_iff.mp hok.length, CondHistory.begin])
  consumed := hok.consumed
  owedSleep := fun waiting hw u hu => hs u (hok.owedSleep waiting hw u hu)
  owedKept := hok.owedKept
  owedAll := fun waiting hw u hu => absurd (hok.owed_false hw u) (by simp [hu])

omit [Fintype T] in
/-- What is still owed after `t` has left. -/
theorem mem_leave_owed {waiting : T → Bool} (hw : waiting ∈ (h.leave t).owed) :
    ∃ before ∈ h.owed, waiting = Function.update before t false := by
  simp only [leave, List.mem_map] at hw
  obtain ⟨before, hbefore, he⟩ := hw
  exact ⟨before, hbefore, he.symm⟩

theorem count_leave (before : T → Bool) :
    Census.count (fun b => b = true) (Function.update before t false) +
      (if before t = true then 1 else 0) = Census.count (fun b => b = true) before := by
  have hu := Census.count_update (fun b => b = true) before t false
  simpa using hu

/-- A wait ends without a wakeup. -/
theorem Ok.leave (hok : h.Ok sleeps 0) (hs : ∀ u, sleeps' u ↔ u ≠ t ∧ sleeps u) :
    (h.leave t).Ok sleeps' 0 where
  length := hok.length
  past := hok.past
  beganPast := hok.beganPast
  began := fun u hu => hok.began u ((hs u).mp hu).2
  consumed := hok.consumed
  owedSleep := fun waiting hw u hu => by
    obtain ⟨before, hbefore, rfl⟩ := mem_leave_owed hw
    by_cases he : u = t
    · rw [he, Function.update_self] at hu
      exact absurd hu (by simp)
    · rw [Function.update_of_ne he, hok.owed_false hbefore u] at hu
      exact absurd hu (by simp)
  owedKept := fun waiting hw => by
    obtain ⟨before, hbefore, rfl⟩ := mem_leave_owed hw
    have hcount := count_leave (t := t) before
    have hkept := hok.owedKept before hbefore
    omega
  owedAll := fun waiting hw u hu => by
    obtain ⟨before, hbefore, rfl⟩ := mem_leave_owed hw
    by_cases he : u = t
    · rw [he, Function.update_self] at hu
      exact absurd hu (by simp)
    · rw [Function.update_of_ne he, hok.owed_false hbefore u] at hu
      exact absurd hu (by simp)

/-- A sleeper takes a wakeup, whichever one it is. -/
theorem Ok.consume (hok : h.Ok sleeps pending) (hpending : pending ≠ 0) (ht : sleeps t)
    (hs : ∀ u, sleeps' u ↔ u ≠ t ∧ sleeps u) (which : Nat) :
    (h.consume t which).Ok sleeps' (pending - 1) where
  length := by
    change (h.wakeups.eraseIdx (which % h.wakeups.length)).length = pending - 1
    have hlt : which % h.wakeups.length < h.wakeups.length := by
      apply Nat.mod_lt
      rw [hok.length]
      omega
    rw [List.length_eraseIdx_of_lt hlt, hok.length]
  past := fun i hi => hok.past i (List.mem_of_mem_eraseIdx hi)
  beganPast := hok.beganPast
  began := fun u hu i hi => hok.began u ((hs u).mp hu).2 i (List.mem_of_mem_eraseIdx hi)
  consumed := fun x hx => by
    cases List.mem_cons.mp hx with
    | inl he =>
      rw [he]
      have hlt : which % h.wakeups.length < h.wakeups.length := by
        apply Nat.mod_lt
        rw [hok.length]
        omega
      change h.began t ≤ h.wakeups.getD (which % h.wakeups.length) 0
      rw [List.getD_eq_getElem _ _ hlt]
      exact hok.began t ht _ (List.getElem_mem hlt)
    | inr hx => exact hok.consumed x hx
  owedSleep := fun waiting hw u hu => by
    obtain ⟨before, hbefore, rfl⟩ := mem_leave_owed hw
    by_cases he : u = t
    · rw [he, Function.update_self] at hu
      exact absurd hu (by simp)
    · rw [Function.update_of_ne he] at hu
      exact (hs u).mpr ⟨he, hok.owedSleep before hbefore u hu⟩
  owedKept := fun waiting hw => by
    obtain ⟨before, hbefore, rfl⟩ := mem_leave_owed hw
    have hcount := count_leave (t := t) before
    have hkept := hok.owedKept before hbefore
    by_cases hb : before t = true
    · rw [if_pos hb] at hcount
      omega
    · -- nobody is left of that broadcast, or `t` would be among them
      have hnone : Census.count (fun b => b = true) before = 0 := by
        rw [Census.count_eq_zero_iff]
        intro u hu
        exact hb (hok.owedAll before hbefore u hu t ht)
      omega
  owedAll := fun waiting hw u hu v hv => by
    obtain ⟨before, hbefore, rfl⟩ := mem_leave_owed hw
    have hne := ((hs v).mp hv).1
    rw [Function.update_of_ne hne]
    by_cases he : u = t
    · rw [he, Function.update_self] at hu
      exact absurd hu (by simp)
    · rw [Function.update_of_ne he] at hu
      exact hok.owedAll before hbefore u hu v ((hs v).mp hv).2

omit [DecidableEq T] in
/-- New wakeups are pending. -/
theorem Ok.issue (hok : h.Ok sleeps pending) (n : Nat) : (h.issue n).Ok sleeps (pending + n) where
  length := by
    change (h.wakeups ++ List.replicate n h.clock).length = pending + n
    rw [List.length_append, List.length_replicate, hok.length]
  past := fun i hi => by
    change i < h.clock + 1
    cases List.mem_append.mp hi with
    | inl hi => exact Nat.lt_succ_of_lt (hok.past i hi)
    | inr hi =>
      rw [(List.mem_replicate.mp hi).2]
      omega
  beganPast := fun u => Nat.le_succ_of_le (hok.beganPast u)
  began := fun u hu i hi => by
    cases List.mem_append.mp hi with
    | inl hi => exact hok.began u hu i hi
    | inr hi =>
      rw [(List.mem_replicate.mp hi).2]
      exact hok.beganPast u
  consumed := hok.consumed
  owedSleep := hok.owedSleep
  owedKept := fun waiting hw => le_trans (hok.owedKept waiting hw) (Nat.le_add_right _ _)
  owedAll := hok.owedAll

omit [DecidableEq T] in
/-- A broadcast owes a wakeup to each of the sleepers. -/
theorem Ok.owe (hok : h.Ok sleeps pending) {waiting : T → Bool}
    (hw : ∀ u, waiting u = true ↔ sleeps u)
    (hcount : Census.count (fun b => b = true) waiting ≤ pending) :
    (h.owe waiting).Ok sleeps pending where
  length := hok.length
  past := hok.past
  beganPast := hok.beganPast
  began := hok.began
  consumed := hok.consumed
  owedSleep := fun x hx u hu => by
    cases List.mem_cons.mp hx with
    | inl he => exact (hw u).mp (he ▸ hu)
    | inr hx => exact hok.owedSleep x hx u hu
  owedKept := fun x hx => by
    cases List.mem_cons.mp hx with
    | inl he => exact he ▸ hcount
    | inr hx => exact hok.owedKept x hx
  owedAll := fun x hx u hu v hv => by
    cases List.mem_cons.mp hx with
    | inl he => exact he ▸ (hw v).mpr hv
    | inr hx => exact hok.owedAll x hx u hu v hv

/-- A wait that begins while a wakeup is pending, and takes one at once, takes one that was
produced before. -/
theorem Ok.begin_consume_stale (hok : h.Ok sleeps pending) (hpending : pending ≠ 0)
    (which : Nat) :
    ∃ x ∈ ((h.begin t).consume t which).consumed, x.thread = t ∧ x.issued < x.began := by
  have hlt : which % h.wakeups.length < h.wakeups.length := by
    apply Nat.mod_lt
    rw [hok.length]
    omega
  refine ⟨_, List.mem_cons_self, rfl, ?_⟩
  change h.wakeups.getD (which % h.wakeups.length) 0 < Function.update h.began t h.clock t
  rw [Function.update_self, List.getD_eq_getElem _ _ hlt]
  exact hok.past _ (List.getElem_mem hlt)

end CondHistory

end Rlibc.Pthread
