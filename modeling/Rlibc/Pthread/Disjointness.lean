import Rlibc.Pthread.Lifecycle

/-!
# A handle is recorded in one way

The registry keeps a handle in one of its tables at a time, as long as the handles of the host
stay apart from the handles this library gives out.  Nothing in the code keeps them apart: an
unknown handle may be given out, and a handle of the host may be consumed, between the two
critical sections of a join or a detach.  `StepOk` names the steps that are safe.
-/

namespace Rlibc.Pthread

namespace PthreadRegistry

/-! ## Moves between the tables -/

/-- Every record of `r'` is one of `r`. -/
def Shrinks (r r' : PthreadRegistry) : Prop :=
  ∀ k x, r'.Records k x → r.Records k x

/-- `thread` is recorded as `k₀` at most, and no other handle gains a record. -/
def Moves (r r' : PthreadRegistry) (thread : PthreadT) (k₀ : Record) : Prop :=
  ∀ k x, r'.Records k x → (x = thread ∧ k = k₀) ∨ (x ≠ thread ∧ r.Records k x)

theorem Disjoint.of_shrinks {r r' : PthreadRegistry} (h : r.Disjoint) (hs : r.Shrinks r') :
    r'.Disjoint :=
  fun x k k' hk hk' => h x k k' (hs k x hk) (hs k' x hk')

theorem Disjoint.of_moves {r r' : PthreadRegistry} {thread : PthreadT} {k₀ : Record}
    (h : r.Disjoint) (hm : r.Moves r' thread k₀) : r'.Disjoint := by
  intro x k k' hk hk'
  cases hm k x hk with
  | inl hx =>
    cases hm k' x hk' with
    | inl hx' => rw [hx.2, hx'.2]
    | inr hx' => exact absurd hx.1 hx'.1
  | inr hx =>
    cases hm k' x hk' with
    | inl hx' => exact absurd hx'.1 hx.1
    | inr hx' => exact h x k k' hx.2 hx'.2

theorem handleLocalThreadExit_shrinks (r : PthreadRegistry) (thread : PthreadT) :
    r.Shrinks (r.handleLocalThreadExit thread) := by
  intro k x hx
  unfold handleLocalThreadExit at hx
  split at hx
  · cases k with
    | detached => exact Finset.mem_of_mem_erase hx
    | _ => exact hx
  · split at hx
    · cases k <;> exact hx
    · exact hx

theorem clearNativeDetached_shrinks (r : PthreadRegistry) (thread : PthreadT) :
    r.Shrinks (r.clearNativeDetached thread) := by
  intro k x hx
  cases k with
  | nativeDetached =>
    simp only [Records, clearNativeDetached, FifoSet.remove_fst] at hx
    exact Finset.mem_of_mem_erase hx
  | _ => exact hx

theorem clearNativeConsumed_shrinks (r : PthreadRegistry) (thread : PthreadT) :
    r.Shrinks (r.clearNativeConsumed thread) := by
  intro k x hx
  cases k with
  | nativeConsumed =>
    simp only [Records, clearNativeConsumed, FifoSet.remove_fst] at hx
    exact Finset.mem_of_mem_erase hx
  | _ => exact hx

theorem removeNativeJoinable_shrinks (r : PthreadRegistry) (thread : PthreadT) :
    r.Shrinks (r.removeNativeJoinable thread) := by
  intro k x hx
  cases k with
  | nativeJoinable => exact Finset.mem_of_mem_erase hx
  | _ => exact hx

theorem insertNativeJoinable_moves {r : PthreadRegistry} {thread : PthreadT}
    (hlocal : ¬ r.Local thread) (hdetached : thread ∉ r.nativeDetached)
    (hconsumed : thread ∉ r.nativeConsumed) :
    r.Moves (r.insertNativeJoinable thread) thread .nativeJoinable := by
  intro k x hx
  by_cases he : x = thread
  · subst he
    refine Or.inl ⟨rfl, ?_⟩
    cases k with
    | usable => exact absurd (Or.inl hx) hlocal
    | detached => exact absurd (Or.inr hx) hlocal
    | nativeJoinable => rfl
    | nativeDetached => exact absurd hx hdetached
    | nativeConsumed => exact absurd hx hconsumed
  · refine Or.inr ⟨he, ?_⟩
    cases k with
    | nativeJoinable => exact Finset.mem_of_mem_insert_of_ne hx he
    | _ => exact hx

theorem publishNative_moves {r : PthreadRegistry} {thread : PthreadT}
    (hlocal : ¬ r.Local thread) : r.Moves (r.publishNative thread) thread .nativeJoinable := by
  intro k x hx
  by_cases he : x = thread
  · subst he
    refine Or.inl ⟨rfl, ?_⟩
    cases k with
    | usable => exact absurd (Or.inl hx) hlocal
    | detached => exact absurd (Or.inr hx) hlocal
    | nativeJoinable => rfl
    | nativeDetached =>
      simp [Records, publishNative, clearNativeConsumed, clearNativeDetached,
        FifoSet.remove_fst] at hx
    | nativeConsumed =>
      simp [Records, publishNative, clearNativeConsumed, FifoSet.remove_fst] at hx
  · have hx' : (r.insertNativeJoinable thread).Records k x :=
      clearNativeDetached_shrinks _ _ _ _ (clearNativeConsumed_shrinks _ _ _ _ hx)
    refine Or.inr ⟨he, ?_⟩
    cases k with
    | nativeJoinable => exact Finset.mem_of_mem_insert_of_ne hx' he
    | _ => exact hx'

theorem markNativeConsumed_moves {r : PthreadRegistry} {thread : PthreadT}
    (hlocal : ¬ r.Local thread) :
    r.Moves (r.markNativeConsumed thread) thread .nativeConsumed := by
  intro k x hx
  by_cases he : x = thread
  · subst he
    refine Or.inl ⟨rfl, ?_⟩
    cases k with
    | usable => exact absurd (Or.inl hx) hlocal
    | detached => exact absurd (Or.inr hx) hlocal
    | nativeJoinable => exact absurd hx (Finset.notMem_erase x _)
    | nativeDetached =>
      simp [Records, markNativeConsumed, clearNativeDetached, FifoSet.remove_fst] at hx
    | nativeConsumed => rfl
  · refine Or.inr ⟨he, ?_⟩
    cases k with
    | nativeJoinable => exact Finset.mem_of_mem_erase hx
    | nativeDetached =>
      exact clearNativeDetached_shrinks (r.removeNativeJoinable thread) thread .nativeDetached x hx
    | nativeConsumed =>
      have hin := FifoSet.insert_subset _ _ _ hx
      exact Finset.mem_of_mem_insert_of_ne hin he
    | _ => exact hx

theorem markNativeDetached_moves {r : PthreadRegistry} {thread : PthreadT}
    (hlocal : ¬ r.Local thread) :
    r.Moves (r.markNativeDetached thread) thread .nativeDetached := by
  intro k x hx
  by_cases he : x = thread
  · subst he
    refine Or.inl ⟨rfl, ?_⟩
    cases k with
    | usable => exact absurd (Or.inl hx) hlocal
    | detached => exact absurd (Or.inr hx) hlocal
    | nativeJoinable => exact absurd hx (Finset.notMem_erase x _)
    | nativeDetached => rfl
    | nativeConsumed =>
      simp [Records, markNativeDetached, removeNativeJoinable, clearNativeConsumed,
        FifoSet.remove_fst] at hx
  · refine Or.inr ⟨he, ?_⟩
    cases k with
    | nativeJoinable => exact Finset.mem_of_mem_erase hx
    | nativeConsumed => exact clearNativeConsumed_shrinks r thread .nativeConsumed x hx
    | nativeDetached =>
      have hin := FifoSet.insert_subset _ _ _ hx
      exact Finset.mem_of_mem_insert_of_ne hin he
    | _ => exact hx

theorem nativeTarget_shrinks (r : PthreadRegistry) (thread : PthreadT) :
    r.Shrinks (r.nativeTarget thread).1 := by
  unfold nativeTarget
  split
  · exact fun k x hx => hx
  · split
    · exact fun k x hx =>
        removeNativeJoinable_shrinks r thread k x (clearNativeDetached_shrinks _ thread k x hx)
    · exact fun k x hx => hx

theorem joinTarget_shrinks (r : PthreadRegistry) (thread : PthreadT) :
    r.Shrinks (r.joinTarget thread).1 := by
  unfold joinTarget
  split
  · exact fun k x hx => hx
  · split
    · exact fun k x hx => hx
    · split
      · intro k x hx
        cases k with
        | usable =>
          refine hx.imp_left fun hj => ?_
          by_cases he : x = thread
          · simp [containsJoinable, he] at hj
          · simpa [containsJoinable, he] using hj
        | _ => exact hx
      · exact nativeTarget_shrinks r thread

/-- A detached handle leaves `joinable`, and is not pending. -/
theorem detachLocal_moves {r : PthreadRegistry} (hd : r.Disjoint)
    (hpending : ∀ x ∈ r.localPending, r.joinable x = none) {thread : PthreadT}
    {joinHandle : JoinHandle} (hjoin : r.joinable thread = some joinHandle) :
    r.Moves { r with
      joinable := Function.update r.joinable thread none
      finished := r.finished.erase thread
      detached := if thread ∈ r.finished then r.detached else insert thread r.detached }
      thread .detached := by
  have husable : r.Records .usable thread :=
    Or.inl (by rw [containsJoinable, hjoin]; rfl)
  have hnotPending : thread ∉ r.localPending := by
    intro hin
    rw [hpending thread hin] at hjoin
    exact absurd hjoin (by simp)
  intro k x hx
  by_cases he : x = thread
  · subst he
    refine Or.inl ⟨rfl, ?_⟩
    cases k with
    | usable =>
      cases hx with
      | inl hj => simp [containsJoinable] at hj
      | inr hp => exact absurd hp hnotPending
    | detached => rfl
    -- a usable handle had no native record before
    | nativeJoinable => exact absurd (hd x .usable .nativeJoinable husable hx) (by decide)
    | nativeDetached => exact absurd (hd x .usable .nativeDetached husable hx) (by decide)
    | nativeConsumed => exact absurd (hd x .usable .nativeConsumed husable hx) (by decide)
  · refine Or.inr ⟨he, ?_⟩
    cases k with
    | usable =>
      refine hx.imp_left fun hj => ?_
      simpa [containsJoinable, he] using hj
    | detached =>
      change x ∈ (if thread ∈ r.finished then r.detached else insert thread r.detached) at hx
      split at hx
      · exact hx
      · exact Finset.mem_of_mem_insert_of_ne hx he
    | _ => exact hx

theorem detachTarget_disjoint {r : PthreadRegistry} (hd : r.Disjoint)
    (hpending : ∀ x ∈ r.localPending, r.joinable x = none) (thread : PthreadT) :
    (r.detachTarget thread).1.Disjoint := by
  unfold detachTarget
  split
  · exact hd
  · split
    · exact hd
    · split
      · rename_i joinHandle hjoin
        exact hd.of_moves (detachLocal_moves hd hpending hjoin)
      · exact hd.of_shrinks (nativeTarget_shrinks r thread)

/-- The spawn of a new thread puts an unused handle into `local_pending`. -/
theorem insertPending_moves {r : PthreadRegistry} {thread : PthreadT} (hfree : ¬ r.Taken thread) :
    r.Moves { r with localPending := insert thread r.localPending } thread .usable := by
  intro k x hx
  by_cases he : x = thread
  · subst he
    refine Or.inl ⟨rfl, ?_⟩
    simp only [Taken, not_or] at hfree
    cases k with
    | usable => rfl
    | detached => exact absurd hx hfree.2.2.2.1
    | nativeJoinable => exact absurd hx hfree.2.2.2.2.1
    | nativeDetached => exact absurd hx hfree.2.2.2.2.2.1
    | nativeConsumed => exact absurd hx hfree.2.2.2.2.2.2
  · refine Or.inr ⟨he, ?_⟩
    cases k with
    | usable => exact hx.imp_right fun hp => Finset.mem_of_mem_insert_of_ne hp he
    | _ => exact hx

theorem erasePending_shrinks (r : PthreadRegistry) (thread : PthreadT) :
    r.Shrinks { r with localPending := r.localPending.erase thread } := by
  intro k x hx
  cases k with
  | usable => exact hx.imp_right Finset.mem_of_mem_erase
  | _ => exact hx

/-- A pending handle that becomes joinable was usable already. -/
theorem publishLocal_shrinks {r : PthreadRegistry} {thread : PthreadT}
    (hpending : thread ∈ r.localPending) (joinHandle : JoinHandle) :
    r.Shrinks (r.publishLocal thread joinHandle) := by
  intro k x hx
  cases k with
  | usable =>
    by_cases he : x = thread
    · exact Or.inr (he ▸ hpending)
    · cases hx with
      | inl hj => exact Or.inl (by simpa [publishLocal, containsJoinable, he] using hj)
      | inr hp => exact Or.inr (Finset.mem_of_mem_erase hp)
  | _ => exact hx

/-! ## The caches -/

theorem CachesWellFormed.clearNativeDetached {r : PthreadRegistry} (h : r.CachesWellFormed)
    (thread : PthreadT) : (r.clearNativeDetached thread).CachesWellFormed :=
  ⟨FifoSet.remove_wellFormed h.detached thread, h.consumed⟩

theorem CachesWellFormed.clearNativeConsumed {r : PthreadRegistry} (h : r.CachesWellFormed)
    (thread : PthreadT) : (r.clearNativeConsumed thread).CachesWellFormed :=
  ⟨h.detached, FifoSet.remove_wellFormed h.consumed thread⟩

theorem CachesWellFormed.markNativeDetached {r : PthreadRegistry} (h : r.CachesWellFormed)
    (thread : PthreadT) : (r.markNativeDetached thread).CachesWellFormed :=
  ⟨FifoSet.insert_wellFormed h.detached thread, (h.clearNativeConsumed thread).consumed⟩

theorem CachesWellFormed.markNativeConsumed {r : PthreadRegistry} (h : r.CachesWellFormed)
    (thread : PthreadT) : (r.markNativeConsumed thread).CachesWellFormed :=
  ⟨FifoSet.remove_wellFormed h.detached thread, FifoSet.insert_wellFormed h.consumed thread⟩

theorem CachesWellFormed.nativeTarget {r : PthreadRegistry} (h : r.CachesWellFormed)
    (thread : PthreadT) : (r.nativeTarget thread).1.CachesWellFormed := by
  unfold PthreadRegistry.nativeTarget
  split
  · exact h
  · split
    · exact ⟨FifoSet.remove_wellFormed h.detached thread, h.consumed⟩
    · exact h

theorem CachesWellFormed.joinTarget {r : PthreadRegistry} (h : r.CachesWellFormed)
    (thread : PthreadT) : (r.joinTarget thread).1.CachesWellFormed := by
  unfold PthreadRegistry.joinTarget
  split
  · exact h
  · split
    · exact h
    · split
      · exact ⟨h.detached, h.consumed⟩
      · exact h.nativeTarget thread

theorem CachesWellFormed.detachTarget {r : PthreadRegistry} (h : r.CachesWellFormed)
    (thread : PthreadT) : (r.detachTarget thread).1.CachesWellFormed := by
  unfold PthreadRegistry.detachTarget
  split
  · exact h
  · split
    · exact h
    · split
      · exact ⟨h.detached, h.consumed⟩
      · exact h.nativeTarget thread

theorem CachesWellFormed.handleLocalThreadExit {r : PthreadRegistry} (h : r.CachesWellFormed)
    (thread : PthreadT) : (r.handleLocalThreadExit thread).CachesWellFormed := by
  unfold PthreadRegistry.handleLocalThreadExit
  split
  · exact ⟨h.detached, h.consumed⟩
  · split
    · exact ⟨h.detached, h.consumed⟩
    · exact h

/-! ## Results of the host -/

/-- The condition under which the result of a host `pthread_join` or `pthread_detach` can be
recorded: `thread` must not have become local meanwhile, and it must not be restored once
another call has consumed it. -/
def SettleOk (r : PthreadRegistry) (thread : PthreadT) (hostResult : Int) : Prop :=
  if hostResult = 0 ∨ hostResult = EINVAL ∨ hostResult = ESRCH then ¬ r.Local thread
  else thread ∉ r.nativeDetached → ¬ r.Local thread ∧ thread ∉ r.nativeConsumed

/-- What a result of the host does to the registry: it moves the handle into one table, or
changes nothing. -/
inductive Settles (r : PthreadRegistry) (thread : PthreadT) (hostResult : Int) :
    PthreadRegistry → Prop where
  | detached (h : hostResult = 0 ∨ hostResult = EINVAL ∨ hostResult = ESRCH) :
      Settles r thread hostResult (r.markNativeDetached thread)
  | consumed (h : hostResult = 0 ∨ hostResult = EINVAL ∨ hostResult = ESRCH) :
      Settles r thread hostResult (r.markNativeConsumed thread)
  | restored (h : ¬ (hostResult = 0 ∨ hostResult = EINVAL ∨ hostResult = ESRCH))
      (hfree : thread ∉ r.nativeDetached) :
      Settles r thread hostResult (r.insertNativeJoinable thread)
  | kept (h : ¬ (hostResult = 0 ∨ hostResult = EINVAL ∨ hostResult = ESRCH))
      (hkept : thread ∈ r.nativeDetached) : Settles r thread hostResult r

theorem handleForwardedNativeJoinResult_settles (r : PthreadRegistry) (thread : PthreadT)
    (hostResult : Int) :
    r.Settles thread hostResult
      (r.handleForwardedNativeJoinResult thread hostResult true).1 := by
  unfold handleForwardedNativeJoinResult
  split_ifs with h0 hdet hs he hr
  · exact .detached (Or.inl h0)
  · exact .consumed (Or.inl h0)
  · exact .consumed (Or.inr (Or.inr hs))
  · exact .detached (Or.inr (Or.inl he))
  · exact .restored (by simp [h0, hs, he]) hr.2
  · exact .kept (by simp [h0, hs, he]) (by simpa using hr)

theorem handleForwardedNativeDetachResult_settles (r : PthreadRegistry) (thread : PthreadT)
    (hostResult : Int) :
    r.Settles thread hostResult
      (r.handleForwardedNativeDetachResult thread hostResult true).1 := by
  unfold handleForwardedNativeDetachResult
  split_ifs with h0 hs hr
  · exact .detached (by rcases h0 with h | h <;> simp [h])
  · exact .consumed (Or.inr (Or.inr hs))
  · exact .restored (by simp only [not_or] at h0; simp [h0, hs]) hr.2
  · exact .kept (by simp only [not_or] at h0; simp [h0, hs]) (by simpa using hr)

theorem Settles.disjoint {r r' : PthreadRegistry} {thread : PthreadT} {hostResult : Int}
    (h : r.Settles thread hostResult r') (hd : r.Disjoint)
    (hok : r.SettleOk thread hostResult) : r'.Disjoint := by
  unfold SettleOk at hok
  cases h with
  | detached h => exact hd.of_moves (markNativeDetached_moves (by rwa [if_pos h] at hok))
  | consumed h => exact hd.of_moves (markNativeConsumed_moves (by rwa [if_pos h] at hok))
  | restored h hfree =>
    rw [if_neg h] at hok
    exact hd.of_moves (insertNativeJoinable_moves (hok hfree).1 hfree (hok hfree).2)
  | kept h hkept => exact hd

theorem Settles.cachesWellFormed {r r' : PthreadRegistry} {thread : PthreadT} {hostResult : Int}
    (h : r.Settles thread hostResult r') (hc : r.CachesWellFormed) : r'.CachesWellFormed := by
  cases h with
  | detached h => exact hc.markNativeDetached thread
  | consumed h => exact hc.markNativeConsumed thread
  | restored h hfree => exact ⟨hc.detached, hc.consumed⟩
  | kept h hkept => exact hc

/-! ## A local handle cannot be recorded as a native one -/

theorem Disjoint.not_local_of_native {r : PthreadRegistry} (hd : r.Disjoint) {thread : PthreadT}
    {k : Record} (hk : k ≠ .usable ∧ k ≠ .detached) (h : r.Records k thread) :
    ¬ r.Local thread := by
  intro hlocal
  cases hlocal with
  | inl hu => exact hk.1 (hd thread _ _ h hu)
  | inr hdet => exact hk.2 (hd thread _ _ h hdet)

theorem markNativeConsumed_records {r : PthreadRegistry} (hc : r.CachesWellFormed)
    (thread : PthreadT) (hnew : thread ∉ r.nativeConsumed) :
    (r.markNativeConsumed thread).Records .nativeConsumed thread :=
  FifoSet.mem_insert_self (by decide) hc.consumed thread hnew

theorem markNativeDetached_records {r : PthreadRegistry} (hc : r.CachesWellFormed)
    (thread : PthreadT) (hnew : thread ∉ r.nativeDetached) :
    (r.markNativeDetached thread).Records .nativeDetached thread :=
  FifoSet.mem_insert_self (by decide) hc.detached thread hnew

theorem not_local_of_markNativeConsumed {r : PthreadRegistry} (hd : r.Disjoint)
    (hc : r.CachesWellFormed) {thread : PthreadT} (hd' : (r.markNativeConsumed thread).Disjoint) :
    ¬ r.Local thread := by
  by_cases hin : thread ∈ r.nativeConsumed
  · exact hd.not_local_of_native (k := .nativeConsumed) (by decide) hin
  · exact hd'.not_local_of_native (k := .nativeConsumed) (by decide)
      (markNativeConsumed_records hc thread hin)

theorem not_local_of_markNativeDetached {r : PthreadRegistry} (hd : r.Disjoint)
    (hc : r.CachesWellFormed) {thread : PthreadT} (hd' : (r.markNativeDetached thread).Disjoint) :
    ¬ r.Local thread := by
  by_cases hin : thread ∈ r.nativeDetached
  · exact hd.not_local_of_native (k := .nativeDetached) (by decide) hin
  · exact hd'.not_local_of_native (k := .nativeDetached) (by decide)
      (markNativeDetached_records hc thread hin)

theorem not_local_of_publishNative {r : PthreadRegistry} {thread : PthreadT}
    (hd' : (r.publishNative thread).Disjoint) : ¬ r.Local thread :=
  hd'.not_local_of_native (k := .nativeJoinable) (by decide) (Finset.mem_insert_self _ _)

/-- The condition is necessary. -/
theorem Settles.ok {r r' : PthreadRegistry} {thread : PthreadT} {hostResult : Int}
    (h : r.Settles thread hostResult r') (hd : r.Disjoint) (hc : r.CachesWellFormed)
    (hd' : r'.Disjoint) : r.SettleOk thread hostResult := by
  unfold SettleOk
  cases h with
  | detached h =>
    rw [if_pos h]
    exact not_local_of_markNativeDetached hd hc hd'
  | consumed h =>
    rw [if_pos h]
    exact not_local_of_markNativeConsumed hd hc hd'
  | restored h hfree =>
    rw [if_neg h]
    intro _
    have hjoinable : (r.insertNativeJoinable thread).Records .nativeJoinable thread :=
      Finset.mem_insert_self _ _
    refine ⟨hd'.not_local_of_native (k := .nativeJoinable) (by decide) hjoinable, fun hin => ?_⟩
    exact absurd (hd' thread .nativeJoinable .nativeConsumed hjoinable hin) (by decide)
  | kept h hkept =>
    rw [if_neg h]
    exact fun hfree => absurd hkept hfree

end PthreadRegistry

end Rlibc.Pthread
