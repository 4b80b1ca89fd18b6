import Rlibc.Pthread.Disjointness

/-!
# The tables of the registry along a run

The critical sections keep the tables disjoint one by one; here they are put together to whole
runs.  What a run adds is the bookkeeping of spawns in progress: their handles are pending, are
not joinable yet, and belong to one caller each.
-/

namespace Rlibc.Pthread

/-- The handle of a spawn in progress. -/
def Pc.spawn : Pc → Option PthreadT
  | .spawning thread => some thread
  | .spawned thread _ => some thread
  | .spawnFailed thread => some thread
  | _ => none

namespace PthreadRegistry

/-! ## What a critical section leaves alone -/

theorem nativeTarget_local (r : PthreadRegistry) (thread : PthreadT) :
    (r.nativeTarget thread).1.localPending = r.localPending ∧
      (r.nativeTarget thread).1.joinable = r.joinable := by
  unfold nativeTarget
  split
  · exact ⟨rfl, rfl⟩
  · split <;> exact ⟨rfl, rfl⟩

theorem update_none_eq_none {f : PthreadT → Option JoinHandle} (thread x : PthreadT)
    (hx : f x = none) : Function.update f thread none x = none := by
  by_cases he : x = thread
  · rw [he, Function.update_self]
  · rwa [Function.update_of_ne he]

theorem joinTarget_local (r : PthreadRegistry) (thread : PthreadT) :
    (r.joinTarget thread).1.localPending = r.localPending ∧
      ∀ x, r.joinable x = none → (r.joinTarget thread).1.joinable x = none := by
  unfold joinTarget
  split
  · exact ⟨rfl, fun x hx => hx⟩
  · split
    · exact ⟨rfl, fun x hx => hx⟩
    · split
      · exact ⟨rfl, update_none_eq_none thread⟩
      · have hn := nativeTarget_local r thread
        exact ⟨hn.1, fun x hx => hn.2 ▸ hx⟩

theorem detachTarget_local (r : PthreadRegistry) (thread : PthreadT) :
    (r.detachTarget thread).1.localPending = r.localPending ∧
      ∀ x, r.joinable x = none → (r.detachTarget thread).1.joinable x = none := by
  unfold detachTarget
  split
  · exact ⟨rfl, fun x hx => hx⟩
  · split
    · exact ⟨rfl, fun x hx => hx⟩
    · split
      · exact ⟨rfl, update_none_eq_none thread⟩
      · have hn := nativeTarget_local r thread
        exact ⟨hn.1, fun x hx => hn.2 ▸ hx⟩

theorem handleLocalThreadExit_local (r : PthreadRegistry) (thread : PthreadT) :
    (r.handleLocalThreadExit thread).localPending = r.localPending ∧
      (r.handleLocalThreadExit thread).joinable = r.joinable := by
  unfold handleLocalThreadExit
  split
  · exact ⟨rfl, rfl⟩
  · split <;> exact ⟨rfl, rfl⟩

theorem Settles.local {r r' : PthreadRegistry}
    {thread : PthreadT} {hostResult : Int} (h : r.Settles thread hostResult r') :
    r'.localPending = r.localPending ∧ r'.joinable = r.joinable := by
  cases h <;> exact ⟨rfl, rfl⟩

end PthreadRegistry

namespace Lifecycle

variable {T : Type*} [DecidableEq T] {s s' : Lifecycle T}

/-- The handles of the spawns in progress. -/
structure SpawnsPending (s : Lifecycle T) : Prop where
  fresh : ∀ x ∈ s.registry.localPending, s.registry.joinable x = none
  pending : ∀ t x, (s.pc t).spawn = some x → x ∈ s.registry.localPending
  unique : ∀ t t' x, (s.pc t).spawn = some x → (s.pc t').spawn = some x → t = t'

/-- The property of the registry: one record a handle, and well-formed caches. -/
def TablesApart (s : Lifecycle T) : Prop :=
  s.registry.Disjoint ∧ s.registry.CachesWellFormed

/-- A step that records a handle of the host finds that handle unused by this library; the
result of a forwarded call is recorded under `SettleOk`.  All other steps are safe. -/
def StepOk (s : Lifecycle T) : LifecycleLabel T → Prop
  | .publish t => ∀ thread, s.pc t = .publishing thread → ¬ s.registry.Local thread
  | .finishUnknown t => ∀ thread, s.pc t = .unknownNative thread → ¬ s.registry.Local thread
  | .finishNative t hostResult =>
    ∀ thread, s.pc t = .joiningNative thread ∨ s.pc t = .detachingNative thread →
      s.registry.SettleOk thread hostResult
  | _ => True

/-! ## Spawns in progress -/

omit [DecidableEq T] in
/-- A step that leaves `local_pending` alone and starts no spawn. -/
theorem SpawnsPending.frame (h : SpawnsPending s)
    (hpending : s'.registry.localPending = s.registry.localPending)
    (hjoinable : ∀ x, s.registry.joinable x = none → s'.registry.joinable x = none)
    (hpc : ∀ t x, (s'.pc t).spawn = some x → (s.pc t).spawn = some x) : SpawnsPending s' where
  fresh := fun x hx => hjoinable x (h.fresh x (hpending ▸ hx))
  pending := fun t x ht => hpending ▸ h.pending t x (hpc t x ht)
  unique := fun t t' x ht ht' => h.unique t t' x (hpc t x ht) (hpc t' x ht')

/-- A caller that moves without starting a spawn. -/
theorem spawn_update {pc : T → Pc} {t : T} {c : Pc} (hc : c.spawn = none ∨ c.spawn = (pc t).spawn)
    (t' : T) (x : PthreadT) (h : (Function.update pc t c t').spawn = some x) :
    (pc t').spawn = some x := by
  by_cases he : t' = t
  · subst he
    rw [Function.update_self] at h
    cases hc with
    | inl hc => rw [hc] at h; exact absurd h (by simp)
    | inr hc => rw [← hc]; exact h
  · rwa [Function.update_of_ne he] at h

/-- A call that ends with a reply, after a change of the registry. -/
theorem SpawnsPending.reply (h : SpawnsPending s) {r : PthreadRegistry} (t : T) (a : Reply)
    (hpending : r.localPending = s.registry.localPending)
    (hjoinable : ∀ x, s.registry.joinable x = none → r.joinable x = none) :
    SpawnsPending ((s.withRegistry r).reply t a) :=
  h.frame hpending hjoinable (spawn_update (Or.inl rfl))

/-- A call that goes on, after a change of the registry. -/
theorem SpawnsPending.goto (h : SpawnsPending s) {r : PthreadRegistry} (t : T) {c : Pc}
    (hc : c.spawn = none ∨ c.spawn = (s.pc t).spawn)
    (hpending : r.localPending = s.registry.localPending)
    (hjoinable : ∀ x, s.registry.joinable x = none → r.joinable x = none) :
    SpawnsPending ((s.withRegistry r).goto t c) :=
  h.frame hpending hjoinable (spawn_update hc)

theorem spawnLocalThread_spawnsPending (h : SpawnsPending s) {t : T}
    (hs : s.spawnLocalThread t = some s') : SpawnsPending s' := by
  unfold spawnLocalThread at hs
  rw [Option.map_eq_some_iff] at hs
  obtain ⟨⟨thread, next⟩, halloc, rfl⟩ := hs
  have hfree := PthreadRegistry.allocateThreadId_not_taken halloc
  simp only [PthreadRegistry.Taken, not_or, Bool.not_eq_true, Option.isSome_eq_false_iff,
    Option.isNone_iff_eq_none] at hfree
  -- the new handle is no other spawn's, since those are pending
  have hnew : ∀ t' x, (s.pc t').spawn = some x → x ≠ thread := fun t' x ht' he =>
    hfree.2.2.1 (he ▸ h.pending t' x ht')
  have hpc : ∀ t' x, (Function.update s.pc t (.spawning thread) t').spawn = some x →
      (t' = t ∧ x = thread) ∨ (s.pc t').spawn = some x := by
    intro t' x hx
    by_cases he : t' = t
    · rw [he, Function.update_self] at hx
      exact Or.inl ⟨he, (Option.some.inj hx).symm⟩
    · rw [Function.update_of_ne he] at hx
      exact Or.inr hx
  refine ⟨fun x hx => ?_, fun t' x hx => ?_, fun t₁ t₂ x h₁ h₂ => ?_⟩
  · rw [Finset.mem_insert] at hx
    cases hx with
    | inl he =>
      subst he
      exact hfree.2.1
    | inr hx => exact h.fresh x hx
  · cases hpc t' x hx with
    | inl he => exact he.2 ▸ Finset.mem_insert_self _ _
    | inr hx => exact Finset.mem_insert_of_mem (h.pending t' x hx)
  · cases hpc t₁ x h₁ with
    | inl he₁ =>
      cases hpc t₂ x h₂ with
      | inl he₂ => rw [he₁.1, he₂.1]
      | inr h₂ => exact absurd he₁.2 (hnew t₂ x h₂)
    | inr h₁ =>
      cases hpc t₂ x h₂ with
      | inl he₂ => exact absurd he₂.2 (hnew t₁ x h₁)
      | inr h₂ => exact h.unique t₁ t₂ x h₁ h₂

/-- A spawn that ends takes its handle out of `local_pending`. -/
theorem SpawnsPending.finishSpawn (h : SpawnsPending s) {r : PthreadRegistry} {t : T}
    {thread : PthreadT} (a : Reply) (ht : (s.pc t).spawn = some thread)
    (hpending : r.localPending = s.registry.localPending.erase thread)
    (hjoinable : ∀ x, x ≠ thread → r.joinable x = s.registry.joinable x) :
    SpawnsPending ((s.withRegistry r).reply t a) := by
  have hpc : ∀ t' x, (Function.update s.pc t .idle t').spawn = some x →
      t' ≠ t ∧ (s.pc t').spawn = some x := by
    intro t' x hx
    by_cases he : t' = t
    · rw [he, Function.update_self] at hx
      exact absurd hx (by simp [Pc.spawn])
    · rw [Function.update_of_ne he] at hx
      exact ⟨he, hx⟩
  refine ⟨fun x hx => ?_, fun t' x hx => ?_, fun t₁ t₂ x h₁ h₂ => ?_⟩
  · change x ∈ r.localPending at hx
    rw [hpending, Finset.mem_erase] at hx
    exact (hjoinable x hx.1).trans (h.fresh x hx.2)
  · have hx' := hpc t' x hx
    change x ∈ r.localPending
    rw [hpending, Finset.mem_erase]
    refine ⟨fun he => hx'.1 (h.unique t' t x hx'.2 (he ▸ ht)), h.pending t' x hx'.2⟩
  · exact h.unique t₁ t₂ x (hpc t₁ x h₁).2 (hpc t₂ x h₂).2

theorem join_spawnsPending (h : SpawnsPending s) (t : T) (currentThreadId : Option PthreadT)
    (thread : PthreadT) : SpawnsPending (s.join t currentThreadId thread) := by
  have hl := PthreadRegistry.joinTarget_local s.registry thread
  unfold join
  split
  · exact h.reply (r := s.registry) t _ rfl fun x hx => hx
  · dsimp only
    split
    · exact h.reply t _ hl.1 hl.2
    · exact h.goto t (Or.inl rfl) hl.1 hl.2
    · exact h.goto t (Or.inl rfl) hl.1 hl.2
    · exact h.reply t _ hl.1 hl.2
    · exact h.goto t (Or.inl rfl) hl.1 hl.2

theorem detach_spawnsPending (h : SpawnsPending s) (t : T) (thread : PthreadT) :
    SpawnsPending (s.detach t thread) := by
  have hl := PthreadRegistry.detachTarget_local s.registry thread
  unfold detach
  dsimp only
  split
  · exact h.reply t _ hl.1 hl.2
  · exact h.reply t _ hl.1 hl.2
  · exact h.goto t (Or.inl rfl) hl.1 hl.2
  · exact h.reply t _ hl.1 hl.2
  · exact h.goto t (Or.inl rfl) hl.1 hl.2

theorem create_spawnsPending (h : SpawnsPending s) {t : T} {threadIsNull hasStart : Bool}
    {attr : Option (List UInt8)} {hostResult : Int} {hostThread : PthreadT}
    (hs : s.create t threadIsNull hasStart attr hostResult hostThread = some s') :
    SpawnsPending s' := by
  have hreply : ∀ a, SpawnsPending (s.reply t a) := fun a =>
    h.reply (r := s.registry) t a rfl fun x hx => hx
  unfold create at hs
  split at hs
  · exact Option.some.inj hs ▸ hreply _
  · split at hs
    · exact Option.some.inj hs ▸ hreply _
    · split at hs
      · exact spawnLocalThread_spawnsPending h hs
      · split at hs
        · exact spawnLocalThread_spawnsPending h hs
        · split at hs
          · exact Option.some.inj hs ▸
              h.goto (r := s.registry) t (Or.inl rfl) rfl fun x hx => hx
          · exact Option.some.inj hs ▸ hreply _

theorem step_spawnsPending (h : SpawnsPending s) {l : LifecycleLabel T}
    (hs : s.step l = some s') : SpawnsPending s' := by
  cases l with
  | create t threadIsNull hasStart attr hostResult hostThread =>
    simp only [step, Option.ite_none_right_eq_some] at hs
    exact create_spawnsPending h hs.2
  | spawn t ok =>
    simp only [step] at hs
    split at hs
    · rename_i thread hpc
      rw [← Option.some.inj hs]
      unfold spawn
      split
      · exact h.frame rfl (fun x hx => hx) (spawn_update (Or.inr (by rw [hpc]; rfl)))
      · exact h.goto (r := s.registry) t (Or.inr (by rw [hpc]; rfl)) rfl fun x hx => hx
    · exact absurd hs (by simp)
  | finishSpawn t =>
    simp only [step] at hs
    split at hs
    · rename_i thread joinHandle hpc
      rw [← Option.some.inj hs]
      refine h.finishSpawn _ (by rw [hpc]; rfl) rfl fun x hx => ?_
      exact Function.update_of_ne hx _ _
    · rename_i thread hpc
      rw [← Option.some.inj hs]
      exact h.finishSpawn _ (by rw [hpc]; rfl) rfl fun x _ => rfl
    · exact absurd hs (by simp)
  | publish t =>
    simp only [step] at hs
    split at hs
    · rw [← Option.some.inj hs]
      exact h.reply t _ rfl fun x hx => hx
    · exact absurd hs (by simp)
  | exit child value =>
    simp only [step, exit] at hs
    split at hs
    · rename_i thread _
      rw [← Option.some.inj hs]
      have hl := PthreadRegistry.handleLocalThreadExit_local s.registry thread
      exact h.frame hl.1 (fun x hx => hl.2 ▸ hx) fun t x hx => hx
    · exact absurd hs (by simp)
  | join t currentThreadId thread =>
    simp only [step, Option.ite_none_right_eq_some, Option.some.injEq] at hs
    exact hs.2 ▸ join_spawnsPending h t currentThreadId thread
  | detach t thread =>
    simp only [step, Option.ite_none_right_eq_some, Option.some.injEq] at hs
    exact hs.2 ▸ detach_spawnsPending h t thread
  | finishJoinLocal t =>
    simp only [step] at hs
    split at hs
    · unfold finishJoinLocal at hs
      split at hs
      · exact Option.some.inj hs ▸ h.reply (r := s.registry) t _ rfl fun x hx => hx
      · exact absurd hs (by simp)
    · exact absurd hs (by simp)
  | finishNative t hostResult =>
    simp only [step] at hs
    split at hs
    · rename_i thread _
      have hl := (PthreadRegistry.handleForwardedNativeJoinResult_settles s.registry thread
        hostResult).local
      exact Option.some.inj hs ▸ h.reply t _ hl.1 fun x hx => hl.2 ▸ hx
    · rename_i thread _
      have hl := (PthreadRegistry.handleForwardedNativeDetachResult_settles s.registry thread
        hostResult).local
      exact Option.some.inj hs ▸ h.reply t _ hl.1 fun x hx => hl.2 ▸ hx
    · exact absurd hs (by simp)
  | finishUnknown t =>
    simp only [step] at hs
    split at hs
    · rw [← Option.some.inj hs]
      exact h.reply t _ rfl fun x hx => hx
    · exact absurd hs (by simp)

/-! ## The tables stay apart -/

theorem spawnLocalThread_tablesApart (h : TablesApart s) {t : T}
    (hs : s.spawnLocalThread t = some s') : TablesApart s' := by
  unfold spawnLocalThread at hs
  rw [Option.map_eq_some_iff] at hs
  obtain ⟨⟨thread, next⟩, halloc, rfl⟩ := hs
  have hfree := PthreadRegistry.allocateThreadId_not_taken halloc
  exact ⟨h.1.of_moves (PthreadRegistry.insertPending_moves hfree), h.2.detached, h.2.consumed⟩

theorem create_tablesApart (h : TablesApart s) {t : T} {threadIsNull hasStart : Bool}
    {attr : Option (List UInt8)} {hostResult : Int} {hostThread : PthreadT}
    (hs : s.create t threadIsNull hasStart attr hostResult hostThread = some s') :
    TablesApart s' := by
  unfold create at hs
  split at hs
  · exact Option.some.inj hs ▸ h
  · split at hs
    · exact Option.some.inj hs ▸ h
    · split at hs
      · exact spawnLocalThread_tablesApart h hs
      · split at hs
        · exact spawnLocalThread_tablesApart h hs
        · split at hs <;> exact Option.some.inj hs ▸ h

/-- The second half of `pthread_join` leaves the registry as its first critical section did. -/
theorem join_registry (s : Lifecycle T) (t : T) (currentThreadId : Option PthreadT)
    (thread : PthreadT) :
    (s.join t currentThreadId thread).registry = s.registry ∨
      (s.join t currentThreadId thread).registry = (s.registry.joinTarget thread).1 := by
  unfold join
  split
  · exact Or.inl rfl
  · dsimp only
    split <;> exact Or.inr rfl

theorem detach_registry (s : Lifecycle T) (t : T) (thread : PthreadT) :
    (s.detach t thread).registry = (s.registry.detachTarget thread).1 := by
  unfold detach
  dsimp only
  split <;> rfl

theorem join_tablesApart (h : TablesApart s) (t : T) (currentThreadId : Option PthreadT)
    (thread : PthreadT) : TablesApart (s.join t currentThreadId thread) := by
  unfold TablesApart
  cases join_registry s t currentThreadId thread with
  | inl he =>
    rw [he]
    exact h
  | inr he =>
    rw [he]
    exact ⟨h.1.of_shrinks (PthreadRegistry.joinTarget_shrinks _ thread), h.2.joinTarget thread⟩

theorem detach_tablesApart (h : TablesApart s) (hp : SpawnsPending s) (t : T)
    (thread : PthreadT) : TablesApart (s.detach t thread) := by
  unfold TablesApart
  rw [detach_registry]
  exact ⟨PthreadRegistry.detachTarget_disjoint h.1 hp.fresh thread, h.2.detachTarget thread⟩

/-- A safe step keeps the tables apart. -/
theorem step_tablesApart (h : TablesApart s) (hp : SpawnsPending s) {l : LifecycleLabel T}
    (hok : StepOk s l) (hs : s.step l = some s') : TablesApart s' := by
  cases l with
  | create t threadIsNull hasStart attr hostResult hostThread =>
    simp only [step, Option.ite_none_right_eq_some] at hs
    exact create_tablesApart h hs.2
  | spawn t ok =>
    simp only [step] at hs
    split at hs
    · rw [← Option.some.inj hs]
      unfold spawn
      split <;> exact h
    · exact absurd hs (by simp)
  | finishSpawn t =>
    simp only [step] at hs
    split at hs
    · rename_i thread joinHandle hpc
      have hpending := hp.pending t thread (by rw [hpc]; rfl)
      rw [← Option.some.inj hs]
      exact ⟨h.1.of_shrinks (PthreadRegistry.publishLocal_shrinks hpending joinHandle),
        h.2.detached, h.2.consumed⟩
    · rename_i thread _
      rw [← Option.some.inj hs]
      exact ⟨h.1.of_shrinks (PthreadRegistry.erasePending_shrinks s.registry thread),
        h.2.detached, h.2.consumed⟩
    · exact absurd hs (by simp)
  | publish t =>
    simp only [step] at hs
    split at hs
    · rename_i thread hpc
      rw [← Option.some.inj hs]
      refine ⟨h.1.of_moves (PthreadRegistry.publishNative_moves (hok thread hpc)), ?_⟩
      have hinsert : (s.registry.insertNativeJoinable thread).CachesWellFormed :=
        ⟨h.2.detached, h.2.consumed⟩
      exact (hinsert.clearNativeDetached thread).clearNativeConsumed thread
    · exact absurd hs (by simp)
  | exit child value =>
    simp only [step, exit] at hs
    split at hs
    · rename_i thread _
      rw [← Option.some.inj hs]
      exact ⟨h.1.of_shrinks (PthreadRegistry.handleLocalThreadExit_shrinks s.registry thread),
        h.2.handleLocalThreadExit thread⟩
    · exact absurd hs (by simp)
  | join t currentThreadId thread =>
    simp only [step, Option.ite_none_right_eq_some, Option.some.injEq] at hs
    exact hs.2 ▸ join_tablesApart h t currentThreadId thread
  | detach t thread =>
    simp only [step, Option.ite_none_right_eq_some, Option.some.injEq] at hs
    exact hs.2 ▸ detach_tablesApart h hp t thread
  | finishJoinLocal t =>
    simp only [step] at hs
    split at hs
    · unfold finishJoinLocal at hs
      split at hs
      · exact Option.some.inj hs ▸ h
      · exact absurd hs (by simp)
    · exact absurd hs (by simp)
  | finishNative t hostResult =>
    simp only [step] at hs
    split at hs
    · rename_i thread hpc
      have hsettles := PthreadRegistry.handleForwardedNativeJoinResult_settles s.registry thread
        hostResult
      rw [← Option.some.inj hs]
      exact ⟨hsettles.disjoint h.1 (hok thread (Or.inl hpc)), hsettles.cachesWellFormed h.2⟩
    · rename_i thread hpc
      have hsettles := PthreadRegistry.handleForwardedNativeDetachResult_settles s.registry thread
        hostResult
      rw [← Option.some.inj hs]
      exact ⟨hsettles.disjoint h.1 (hok thread (Or.inr hpc)), hsettles.cachesWellFormed h.2⟩
    · exact absurd hs (by simp)
  | finishUnknown t =>
    simp only [step] at hs
    split at hs
    · rename_i thread hpc
      rw [← Option.some.inj hs]
      exact ⟨h.1.of_moves (PthreadRegistry.markNativeConsumed_moves (hok thread hpc)),
        h.2.markNativeConsumed thread⟩
    · exact absurd hs (by simp)

/-- An unsafe step mixes up two tables at once. -/
theorem stepOk_of_tablesApart (h : TablesApart s) {l : LifecycleLabel T}
    (hs : s.step l = some s') (h' : TablesApart s') : StepOk s l := by
  cases l with
  | publish t =>
    intro thread hpc
    simp only [step, hpc, Option.some.injEq] at hs
    rw [← hs] at h'
    exact PthreadRegistry.not_local_of_publishNative h'.1
  | finishUnknown t =>
    intro thread hpc
    simp only [step, hpc, Option.some.injEq] at hs
    rw [← hs] at h'
    exact PthreadRegistry.not_local_of_markNativeConsumed h.1 h.2 h'.1
  | finishNative t hostResult =>
    intro thread hpc
    cases hpc with
    | inl hpc =>
      simp only [step, hpc, Option.some.injEq] at hs
      rw [← hs] at h'
      exact (PthreadRegistry.handleForwardedNativeJoinResult_settles s.registry thread
        hostResult).ok h.1 h.2 h'.1
    | inr hpc =>
      simp only [step, hpc, Option.some.injEq] at hs
      rw [← hs] at h'
      exact (PthreadRegistry.handleForwardedNativeDetachResult_settles s.registry thread
        hostResult).ok h.1 h.2 h'.1
  | _ => exact trivial

omit [DecidableEq T] in
theorem initial_tablesApart : TablesApart (initial : Lifecycle T) := by
  refine ⟨fun x k k' hk _ => ?_, FifoSet.wellFormed_empty, FifoSet.wellFormed_empty⟩
  cases k <;> simp [initial, PthreadRegistry.empty, PthreadRegistry.Records,
    PthreadRegistry.containsJoinable] at hk

omit [DecidableEq T] in
theorem initial_spawnsPending : SpawnsPending (initial : Lifecycle T) where
  fresh := fun x _ => rfl
  pending := fun t x h => absurd h (by simp [initial, Pc.spawn])
  unique := fun t t' x h _ => absurd h (by simp [initial, Pc.spawn])

/-- **The tables stay apart in exactly the runs whose steps are all safe.** -/
theorem tablesApart_iff_stepOk (ls : List (LifecycleLabel T)) :
    Lts.Always step TablesApart initial ls ↔ Lts.EachStep step StepOk initial ls := by
  apply Lts.always_iff_eachStep (P := fun s => TablesApart s ∧ SpawnsPending s)
  · exact fun s h => h.1
  · exact fun s l s' h hok hs => ⟨step_tablesApart h.1 h.2 hok hs, step_spawnsPending h.2 hs⟩
  · exact fun s l s' h hs h' => stepOk_of_tablesApart h.1 hs h'
  · exact ⟨initial_tablesApart, initial_spawnsPending⟩

/-- Two callers join one native thread.  The second finds the handle unknown and consumes it
while the first is still in the host's join; when that join fails, the handle is restored. -/
def restoredAfterConsumed : List (LifecycleLabel (Fin 2)) :=
  [.create 0 false true (some [1]) 0 4096, .publish 0, .join 0 none 4096, .join 1 none 4096,
    .finishUnknown 1, .finishNative 0 EDEADLK]

theorem restoredAfterConsumed_not_tablesApart :
    ¬ ∀ ls : List (LifecycleLabel (Fin 2)), Lts.Always step TablesApart initial ls := by
  intro hall
  have hrun : ∃ s, Lts.run step initial restoredAfterConsumed = some s ∧
      4096 ∈ s.registry.nativeJoinable ∧ 4096 ∈ s.registry.nativeConsumed := by
    refine ⟨_, rfl, ?_, ?_⟩ <;> decide
  obtain ⟨s, hs, hjoinable, hconsumed⟩ := hrun
  have hapart := (hall restoredAfterConsumed).last hs
  exact absurd (hapart.1 4096 .nativeJoinable .nativeConsumed hjoinable hconsumed) (by decide)

end Lifecycle

end Rlibc.Pthread
