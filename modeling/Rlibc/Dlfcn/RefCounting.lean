import Rlibc.Dlfcn.Loader

/-!
# The registry counts references

The registry of a loader says of each handle what a counter that stops at `usize::MAX` knows from
the history, and by which kind of `dlopen` the handle was returned last.
-/

namespace Rlibc.Dlfcn

open RefCounts

/-- The entry of a handle whose counter says `status`. -/
def entry : Status → Option DlHandleState
  | .absent => none
  | .live count => some (.opened count)
  | .released => some .closed

theorem entry_opened (status : Status) :
    entry (status.opened usizeMax) = some (DlHandleRegistry.bumped (entry status)) := by
  cases status <;> rfl

/-- Where the registry says that a handle comes from. -/
structure ComesFrom (registry : DlHandleRegistry) (handle : Handle) (origin : OpenOrigin) :
    Prop where
  internal : handle ∈ registry.internalHandles ↔
    origin = .internal ∨ (origin = .mainProgram ∧ handle = internalMainProgramHandleId)
  mainProgram : handle ∈ registry.mainProgramHandles ↔ origin = .mainProgram

/-- The registry agrees with the history. -/
structure Records (registry : DlHandleRegistry) (history : List (Event Handle OpenOrigin)) :
    Prop where
  untracked : registry.NullUntracked
  tracked : ∀ handle, registry.handles handle = entry (status usizeMax handle history)
  origins : ∀ handle origin, RefCounts.origin handle history = some origin →
    ComesFrom registry handle origin

theorem Records.start : Records .new [] where
  untracked := DlHandleRegistry.new_nullUntracked
  tracked _ := rfl
  origins _ _ h := by cases h

/-- The sets of origins that the three routines ask for. -/
def OpenOrigin.flags (origin : OpenOrigin) (handle : Handle) : Bool × Bool :=
  match origin with
  | .mainProgram => (handle = internalMainProgramHandleId, true)
  | .internal => (true, false)
  | .external => (false, false)

theorem OpenOrigin.register_eq (origin : OpenOrigin) (registry : DlHandleRegistry)
    (handle : Handle) : origin.register registry handle =
      registry.registerOpenHandleWithOrigin handle (origin.flags handle).1
        (origin.flags handle).2 := by
  cases origin <;> rfl

theorem mem_setOrigin_self {s : Finset Handle} {handle : Handle} {flag : Bool} :
    handle ∈ (if flag then insert handle s else s.erase handle) ↔ flag = true := by
  cases flag <;> simp

theorem mem_setOrigin_of_ne {s : Finset Handle} {handle other : Handle} (h : other ≠ handle)
    {flag : Bool} : other ∈ (if flag then insert handle s else s.erase handle) ↔ other ∈ s := by
  cases flag <;> simp [h]

/-- The registry after an open agrees with the history after it. -/
theorem Records.opened {registry : DlHandleRegistry} {history : List (Event Handle OpenOrigin)}
    (h : Records registry history) {handle : Handle} (hnull : handle ≠ nullHandle)
    (hnext : handle ≠ rtldNext) (origin : OpenOrigin) :
    Records (origin.register registry handle) (.opened handle origin :: history) := by
  rcases h.untracked.register_eq hnull hnext (origin.flags handle).1 (origin.flags handle).2 with
    ⟨nextHandleId, hregister⟩
  rw [origin.register_eq, hregister]
  constructor
  · constructor
    · change Function.update registry.handles handle _ nullHandle = none
      rw [Function.update_of_ne hnull.symm]
      exact h.untracked.handles
    · exact (mem_setOrigin_of_ne hnull.symm).not.mpr h.untracked.internalHandles
    · exact (mem_setOrigin_of_ne hnull.symm).not.mpr h.untracked.mainProgramHandles
  · intro other
    change Function.update registry.handles handle _ other = _
    by_cases hother : other = handle
    · rw [hother, Function.update_self, status_opened_self, entry_opened, h.tracked]
    · rw [Function.update_of_ne hother, status_opened_of_ne history (Ne.symm hother)]
      exact h.tracked other
  · intro other who hwho
    by_cases hother : other = handle
    · rw [hother, origin_opened_self, Option.some.injEq] at hwho
      rw [hother, ← hwho]
      constructor
      · refine mem_setOrigin_self.trans ?_
        cases origin <;> simp [OpenOrigin.flags]
      · refine mem_setOrigin_self.trans ?_
        cases origin <;> simp [OpenOrigin.flags]
    · rw [origin_opened_of_ne history (Ne.symm hother)] at hwho
      have hold := h.origins other who hwho
      exact ⟨(mem_setOrigin_of_ne hother).trans hold.internal,
        (mem_setOrigin_of_ne hother).trans hold.mainProgram⟩

/-- The registry after a close agrees with the history after it. -/
theorem Records.closed {registry : DlHandleRegistry} {history : List (Event Handle OpenOrigin)}
    (h : Records registry history) {handle : Handle} (hnull : handle ≠ nullHandle)
    {state : DlHandleState} (hstate : some state = entry (status usizeMax handle history).closed) :
    Records (registry.setHandleState handle state) (.closed handle :: history) := by
  constructor
  · refine ⟨?_, h.untracked.internalHandles, h.untracked.mainProgramHandles⟩
    change Function.update registry.handles handle _ nullHandle = none
    rw [Function.update_of_ne hnull.symm]
    exact h.untracked.handles
  · intro other
    change Function.update registry.handles handle _ other = _
    by_cases hother : other = handle
    · rw [hother, Function.update_self, status_closed_self, hstate]
    · rw [Function.update_of_ne hother, status_closed_of_ne history (Ne.symm hother)]
      exact h.tracked other
  · intro other who hwho
    have hold := h.origins other who hwho
    exact ⟨hold.internal, hold.mainProgram⟩

/-! ## Calls -/

variable {Path Object Symbol Thread : Type} [DecidableEq Path] [DecidableEq Thread]

/-- The three ways a `dlclose` ends. -/
inductive Closing (s : Loader Thread) (t : Thread) (handle : Handle) :
    Int × Loader Thread → Prop where
  | success {count : Nat} {state : DlHandleState} (hnull : handle ≠ nullHandle)
      (hlive : status usizeMax handle s.history = .live count)
      (hstate : some state = entry (status usizeMax handle s.history).closed) :
      Closing s t handle (0, { s with
        registry := s.registry.setHandleState handle state
        history := .closed handle :: s.history })
  | alreadyClosed (hreleased : status usizeMax handle s.history = .released) :
      Closing s t handle (-1, s.setDlerrorMessage t dlerrorAlreadyClosed)
  | invalidHandle (habsent : status usizeMax handle s.history = .absent) :
      Closing s t handle (-1, s.setDlerrorMessage t dlerrorInvalidHandle)

theorem Records.dlclose {s : Loader Thread} (h : Records s.registry s.history) (t : Thread)
    (handle : Handle) : Closing s t handle (s.dlclose t handle) := by
  have htracked := h.tracked handle
  unfold Loader.dlclose
  by_cases hnull : handle = nullHandle
  · rw [if_pos hnull, h.untracked.clear_eq]
    apply Closing.invalidHandle
    rw [hnull, h.untracked.handles] at htracked
    rw [hnull]
    cases hstatus : status usizeMax nullHandle s.history with
    | absent => rfl
    | live count => simp [hstatus, entry] at htracked
    | released => simp [hstatus, entry] at htracked
  · rw [if_neg hnull]
    unfold DlHandleRegistry.closeHandle
    rw [h.untracked.clear_eq]
    dsimp only
    rw [if_neg (show ¬ handle = trackableNullHandleId from hnull), htracked]
    cases hstatus : status usizeMax handle s.history with
    | absent => exact Closing.invalidHandle hstatus
    | released => exact Closing.alreadyClosed hstatus
    | live count =>
      dsimp only [entry]
      by_cases hmore : 1 < count
      · rw [if_pos hmore]
        refine Closing.success hnull hstatus ?_
        rw [hstatus, Status.closed, if_pos hmore]
        rfl
      · rw [if_neg hmore]
        refine Closing.success hnull hstatus ?_
        rw [hstatus, Status.closed, if_neg hmore]
        rfl

section Classify

variable {registry : DlHandleRegistry} {history : List (Event Handle OpenOrigin)}
  {handle : Handle}

theorem Records.classify_absent (h : Records registry history) (hnull : handle ≠ nullHandle)
    (hnext : handle ≠ rtldNext) (hstatus : status usizeMax handle history = .absent) :
    classifyDlsymHandle handle registry = .error dlerrorInvalidHandle := by
  unfold classifyDlsymHandle DlHandleRegistry.validateDlsymHandle
  rw [if_neg hnull, if_neg hnext, h.tracked, hstatus]
  rfl

theorem Records.classify_released (h : Records registry history) (hnull : handle ≠ nullHandle)
    (hnext : handle ≠ rtldNext) (hstatus : status usizeMax handle history = .released) :
    classifyDlsymHandle handle registry = .error dlerrorAlreadyClosed := by
  unfold classifyDlsymHandle DlHandleRegistry.validateDlsymHandle
  rw [if_neg hnull, if_neg hnext, h.tracked, hstatus]
  rfl

/-- A live handle is of the kind of the call that returned it last. -/
theorem Records.classify_live (h : Records registry history) (hnull : handle ≠ nullHandle)
    (hnext : handle ≠ rtldNext) {count : Nat}
    (hstatus : status usizeMax handle history = .live count) :
    ∃ origin, RefCounts.origin handle history = some origin ∧
      classifyDlsymHandle handle registry = .ok origin.kind := by
  have hopens : opens handle history ≠ 0 := by
    rw [Ne, ← @status_eq_absent _ _ _ usizeMax, hstatus]
    simp
  cases horigin : RefCounts.origin handle history with
  | none => exact absurd (origin_eq_none.mp horigin) hopens
  | some origin =>
    have hfrom := h.origins handle origin horigin
    have hopen : registry.isOpenHandle handle = true := by
      unfold DlHandleRegistry.isOpenHandle
      rw [h.tracked, hstatus]
      rfl
    refine ⟨origin, rfl, ?_⟩
    unfold classifyDlsymHandle DlHandleRegistry.validateDlsymHandle
      DlHandleRegistry.isMainProgramOpenHandle DlHandleRegistry.isInternalOpenHandle
    rw [if_neg hnull, if_neg hnext, hopen, h.tracked, hstatus]
    dsimp only [entry]
    simp only [Bool.true_and, decide_eq_true_eq, hfrom.mainProgram, hfrom.internal]
    cases origin <;> simp [OpenOrigin.kind]

end Classify

omit [DecidableEq Path] in
/-- A handle of the host is one that the registry can track. -/
theorem hostDlopen_ne_next {host : Host Path Object} (hhost : host.Regular)
    (call : DlopenCall Path Object) : hostDlopen host call ≠ rtldNext := by
  unfold hostDlopen
  cases call.object with
  | none => exact (by decide : nullHandle ≠ rtldNext)
  | some object => exact hhost.notNext object

/-- `dlopen` never returns null or the handle that stands for the next object. -/
theorem openObject_handle {host : Host Path Object} (hhost : host.Regular)
    {call : DlopenCall Path Object} {opened : OpenOrigin × Handle}
    (h : openObject host call = .ok opened) : opened.2 ≠ nullHandle ∧ opened.2 ≠ rtldNext := by
  have hnext := hostDlopen_ne_next hhost call
  unfold openObject at h
  split at h
  · cases h
  split at h
  · split at h
    · dsimp only at h
      split at h
      · rename_i hnull
        cases h
        exact ⟨hnull, hnext⟩
      · cases h
    · split at h
      · cases h
        exact ⟨by decide, by decide⟩
      · cases h
  · split at h
    · split at h <;> cases h
    · split at h
      · rename_i handle hinternal
        cases h
        unfold tryOpenInternalElf at hinternal
        split at hinternal
        · cases hinternal
          exact ⟨by decide, by decide⟩
        · cases hinternal
      · split at h
        · cases h
        · dsimp only at h
          split at h
          · cases h
          · rename_i hnull
            cases h
            exact ⟨hnull, hnext⟩

/-! ## Runs -/

/-- The registry agrees with the history, and what is being opened can be registered. -/
structure Consistent (s : Loader Thread) : Prop where
  records : Records s.registry s.history
  opening : ∀ t opened, s.opening t = some opened →
    opened.2 ≠ nullHandle ∧ opened.2 ≠ rtldNext

omit [DecidableEq Thread] in
theorem Consistent.start : Consistent (Loader.start : Loader Thread) where
  records := Records.start
  opening _ _ h := by cases h

/-- What a step does to the history. -/
inductive Grows (before : List (Event Handle OpenOrigin)) :
    List (Event Handle OpenOrigin) → Prop where
  | same : Grows before before
  | opened (handle : Handle) (origin : OpenOrigin) : Grows before (.opened handle origin :: before)
  | closed {handle : Handle} {count : Nat} (hlive : status usizeMax handle before = .live count) :
      Grows before (.closed handle :: before)

theorem Consistent.setDlerrorMessage {s : Loader Thread} (h : Consistent s) (t : Thread)
    (message : List Char) : Consistent (s.setDlerrorMessage t message) := ⟨h.records, h.opening⟩

theorem Consistent.step {host : Host Path Object} (hhost : host.Regular) {s s' : Loader Thread}
    (h : Consistent s) {action : Loader.Action Thread Path Object Symbol}
    (hstep : s.step host action = some s') : Consistent s' ∧ Grows s.history s'.history := by
  cases action with
  | dlopen t call =>
    rw [Loader.step] at hstep
    split at hstep
    · cases hstep
      unfold Loader.dlopen
      cases hopen : openObject host call with
      | error failure => exact ⟨⟨h.records, h.opening⟩, Grows.same⟩
      | ok opened =>
        refine ⟨⟨h.records, ?_⟩, Grows.same⟩
        intro u other hother
        change Function.update s.opening t (some opened) u = some other at hother
        by_cases hu : u = t
        · rw [hu, Function.update_self, Option.some.injEq] at hother
          rw [← hother]
          exact openObject_handle hhost hopen
        · rw [Function.update_of_ne hu] at hother
          exact h.opening u other hother
    · cases hstep
  -- The open counts here, when the thread takes the registry lock, not when `dlopen` starts.
  | register t =>
    rw [Loader.step, Option.map_eq_some_iff] at hstep
    rcases hstep with ⟨opened, hopening, hs'⟩
    have hhandle := h.opening t opened hopening
    rw [← hs']
    refine ⟨⟨h.records.opened hhandle.1 hhandle.2 opened.1, ?_⟩, Grows.opened _ _⟩
    intro u other hother
    change Function.update s.opening t none u = some other at hother
    by_cases hu : u = t
    · rw [hu, Function.update_self] at hother
      cases hother
    · rw [Function.update_of_ne hu] at hother
      exact h.opening u other hother
  -- A close that is refused only sets the error message of its thread.
  | dlclose t handle =>
    rw [Loader.step] at hstep
    split at hstep
    · have hclosing := h.records.dlclose t handle
      generalize s.dlclose t handle = result at hclosing hstep
      cases hstep
      cases hclosing with
      | success hnull hlive hstate =>
        exact ⟨⟨h.records.closed hnull hstate, h.opening⟩, Grows.closed hlive⟩
      | alreadyClosed hreleased => exact ⟨h.setDlerrorMessage t _, Grows.same⟩
      | invalidHandle habsent => exact ⟨h.setDlerrorMessage t _, Grows.same⟩
    · cases hstep
  | dlsym t handle symbol lookup =>
    rw [Loader.step] at hstep
    split at hstep
    · cases hstep
      unfold Loader.dlsym
      split
      · exact ⟨h.setDlerrorMessage t _, Grows.same⟩
      · split
        · exact ⟨h.setDlerrorMessage t _, Grows.same⟩
        · split
          · exact ⟨h.setDlerrorMessage t _, Grows.same⟩
          · exact ⟨h, Grows.same⟩
    · cases hstep
  | dlerror t =>
    rw [Loader.step] at hstep
    split at hstep
    · cases hstep
      exact ⟨⟨h.records, h.opening⟩, Grows.same⟩
    · cases hstep

theorem Consistent.run {host : Host Path Object} (hhost : host.Regular)
    {actions : List (Loader.Action Thread Path Object Symbol)} {s : Loader Thread}
    (hrun : Lts.run (Loader.step host) Loader.start actions = some s) : Consistent s :=
  Lts.run_preserves (fun _ _ _ h hstep => (h.step hhost hstep).1) Consistent.start hrun

theorem Grows.opens_le {before history : List (Event Handle OpenOrigin)}
    (h : Grows before history) (handle : Handle) : opens handle history ≤ opens handle before + 1 := by
  cases h with
  | same => exact Nat.le_succ _
  | opened other origin =>
    rw [opens]
    split <;> omega
  | closed hlive => exact Nat.le_succ _

/-- Each step opens a handle once at most, so that a short run keeps the opens within the bound. -/
theorem Consistent.bounded {host : Host Path Object} (hhost : host.Regular) {handle : Handle}
    {actions : List (Loader.Action Thread Path Object Symbol)} {s : Loader Thread}
    (h : Consistent s) (hshort : s.opens handle + actions.length ≤ usizeMax) :
    Lts.Always (Loader.step host) (fun s => s.opens handle ≤ s.closes handle + usizeMax) s
      actions := by
  induction actions generalizing s with
  | nil => exact Nat.le_trans hshort (Nat.le_add_left _ _)
  | cons action actions ih =>
    rw [List.length_cons] at hshort
    refine ⟨by omega, fun s' hstep => ?_⟩
    have hnext := h.step hhost hstep
    have hopens : s'.opens handle ≤ s.opens handle + 1 := hnext.2.opens_le handle
    exact ih hnext.1 (by omega)

/-- As long as the opens are not too far ahead, the counter is exact. -/
theorem exact_of_bounded {host : Host Path Object} (hhost : host.Regular)
    {actions : List (Loader.Action Thread Path Object Symbol)} {s : Loader Thread}
    {handle : Handle} (hrun : Lts.run (Loader.step host) Loader.start actions = some s)
    (hbound : Lts.Always (Loader.step host)
      (fun s => s.opens handle ≤ s.closes handle + usizeMax) Loader.start actions) :
    Exact usizeMax handle s.history := by
  have halways := @Lts.always_of_gates (Loader Thread)
    (Loader.Action Thread Path Object Symbol) (Loader.step host)
    (fun s => Consistent s ∧ Exact usizeMax handle s.history)
    (fun s => s.opens handle ≤ s.closes handle + usizeMax) (fun _ _ => True) ?_ Loader.start actions
    ⟨Consistent.start, Exact.nil⟩ ?_ hbound
  · exact (halways.last hrun).2
  · intro s action s' hs _ hcap hstep
    have hgrows := hs.1.step hhost hstep
    refine ⟨hgrows.1, ?_⟩
    unfold Loader.opens Loader.closes at hcap
    have hexact := hs.2
    have hcases := hgrows.2
    generalize s'.history = history at hcap hcases ⊢
    cases hcases with
    | same => exact hexact
    | opened other origin => exact hexact.opened other origin hcap
    | closed hlive => exact hexact.closed hlive
  · exact Lts.eachStep_of_labels _ fun _ _ => trivial

/-! ## The contract -/

/-- What the calls make of a handle, in the state that a run ends in. -/
structure RefCounted (s : Loader Thread) (handle : Handle) : Prop where
  closes : ∀ t, (s.dlclose t handle).1 = 0 ↔ s.closes handle < s.opens handle
  alreadyClosed : ∀ t, ((s.dlclose t handle).1 = -1 ∧
      (s.dlclose t handle).2.pendingMessage t = some dlerrorAlreadyClosed) ↔
    s.opens handle = s.closes handle ∧ 0 < s.opens handle
  invalid : ∀ t, ((s.dlclose t handle).1 = -1 ∧
      (s.dlclose t handle).2.pendingMessage t = some dlerrorInvalidHandle) ↔ s.opens handle = 0
  accepted : handle ≠ nullHandle → handle ≠ rtldNext →
    ((∃ kind, classifyDlsymHandle handle s.registry = .ok kind) ↔ s.closes handle < s.opens handle)
  kind : handle ≠ nullHandle → handle ≠ rtldNext → ∀ kind,
    classifyDlsymHandle handle s.registry = .ok kind →
      ∃ origin, s.origin handle = some origin ∧ kind = origin.kind

/-- A call that fails leaves the registry and the counts alone, also those of its own handle. -/
structure FailuresHarmless (host : Host Path Object) (s : Loader Thread) : Prop where
  dlopen : ∀ t call failure, openObject host call = .error failure →
    (s.dlopen host t call).registry = s.registry ∧
      (s.dlopen host t call).history = s.history ∧ (s.dlopen host t call).opening = s.opening
  dlclose : ∀ t handle, (s.dlclose t handle).1 ≠ 0 →
    (s.dlclose t handle).2.registry = s.registry ∧ (s.dlclose t handle).2.history = s.history
  dlsym : ∀ (t : Thread) (handle : Handle) (symbol : Option Symbol)
      (lookup : DlsymHandleKind → Symbol → Except (List Char) Handle),
    (s.dlsym t handle symbol lookup).2.registry = s.registry ∧
      (s.dlsym t handle symbol lookup).2.history = s.history

theorem setDlerrorMessage_self (s : Loader Thread) (t : Thread) (message : List Char) :
    (s.setDlerrorMessage t message).pendingMessage t = some message :=
  Function.update_self _ _ _

theorem messages_ne : dlerrorInvalidHandle ≠ dlerrorAlreadyClosed := by decide +kernel

/-- How a `dlclose` ends is decided by the counter. -/
theorem Closing.outcome {s : Loader Thread} {t : Thread} {handle : Handle}
    {result : Int × Loader Thread} (h : Closing s t handle result) :
    (result.1 = 0 ∧ ∃ count, status usizeMax handle s.history = .live count) ∨
    (result.1 = -1 ∧ result.2.pendingMessage t = some dlerrorAlreadyClosed ∧
      status usizeMax handle s.history = .released) ∨
    (result.1 = -1 ∧ result.2.pendingMessage t = some dlerrorInvalidHandle ∧
      status usizeMax handle s.history = .absent) := by
  cases h with
  | success hnull hlive hstate => exact Or.inl ⟨rfl, _, hlive⟩
  | alreadyClosed hreleased =>
    exact Or.inr (Or.inl ⟨rfl, setDlerrorMessage_self s t _, hreleased⟩)
  | invalidHandle habsent => exact Or.inr (Or.inr ⟨rfl, setDlerrorMessage_self s t _, habsent⟩)

theorem Consistent.refCounted {s : Loader Thread} (h : Consistent s) {handle : Handle}
    (hexact : Exact usizeMax handle s.history) : RefCounted s handle := by
  have hstatus := hexact.status_eq
  have hle : s.closes handle ≤ s.opens handle := hexact.closes_le
  -- On an exact history the status is what the two counts say.
  have hlive : (∃ count, status usizeMax handle s.history = .live count) ↔
      s.closes handle < s.opens handle := by
    rw [hstatus]
    exact Status.ofCounts_eq_live
  have hreleased : status usizeMax handle s.history = .released ↔
      s.opens handle = s.closes handle ∧ 0 < s.opens handle := by
    rw [hstatus, Status.ofCounts_eq_released]
    exact ⟨fun h => ⟨Nat.le_antisymm h.1 hle, h.2⟩, fun h => ⟨Nat.le_of_eq h.1, h.2⟩⟩
  have habsent : status usizeMax handle s.history = .absent ↔ s.opens handle = 0 :=
    status_eq_absent
  -- The result of `dlclose` is decided by the status alone.
  have houtcome := fun t => (h.records.dlclose t handle).outcome
  refine ⟨fun t => ?_, fun t => ?_, fun t => ?_, fun hnull hnext => ?_, fun hnull hnext => ?_⟩
  · rw [← hlive]
    rcases houtcome t with ⟨hret, hst⟩ | ⟨hret, _, hst⟩ | ⟨hret, _, hst⟩ <;> simp [hret, hst]
  · rw [← hreleased]
    rcases houtcome t with ⟨hret, _, hst⟩ | ⟨hret, hmsg, hst⟩ | ⟨hret, hmsg, hst⟩ <;>
      simp [hret, hst]
    · exact hmsg
    · rw [hmsg]
      exact fun heq => messages_ne (Option.some.inj heq)
  · rw [← habsent]
    rcases houtcome t with ⟨hret, _, hst⟩ | ⟨hret, hmsg, hst⟩ | ⟨hret, hmsg, hst⟩ <;>
      simp [hret, hst]
    · rw [hmsg]
      exact fun heq => messages_ne (Option.some.inj heq).symm
    · exact hmsg
  · rw [← hlive]
    cases hst : status usizeMax handle s.history with
    | absent => simp [h.records.classify_absent hnull hnext hst]
    | released => simp [h.records.classify_released hnull hnext hst]
    | live count =>
      rcases h.records.classify_live hnull hnext hst with ⟨origin, _, hkind⟩
      simp [hkind]
  · intro kind hkind
    cases hst : status usizeMax handle s.history with
    | absent => simp [h.records.classify_absent hnull hnext hst] at hkind
    | released => simp [h.records.classify_released hnull hnext hst] at hkind
    | live count =>
      rcases h.records.classify_live hnull hnext hst with ⟨origin, horigin, hok⟩
      exact ⟨origin, horigin, Except.ok.inj (hkind.symm.trans hok)⟩

theorem Consistent.failuresHarmless {host : Host Path Object} {s : Loader Thread}
    (h : Consistent s) : @FailuresHarmless Path Object Symbol Thread _ _ host s where
  dlopen t call failure hfailure := by
    unfold Loader.dlopen
    rw [hfailure]
    exact ⟨rfl, rfl, rfl⟩
  dlclose t handle hret := by
    have hclosing := h.records.dlclose t handle
    generalize s.dlclose t handle = result at hclosing hret
    cases hclosing with
    | success hnull hlive hstate => exact absurd rfl hret
    | alreadyClosed hreleased => exact ⟨rfl, rfl⟩
    | invalidHandle habsent => exact ⟨rfl, rfl⟩
  dlsym t handle symbol lookup := by
    unfold Loader.dlsym
    split
    · exact ⟨rfl, rfl⟩
    · split
      · exact ⟨rfl, rfl⟩
      · split <;> exact ⟨rfl, rfl⟩

/-- After every interleaving of calls, each handle is counted as long as its opens have never been
more than `usize::MAX` ahead of its closes, `dlsym` takes the two handles for lookups always, and
failures do no harm. -/
theorem dlHandles_countReferences {host : Host Path Object} (hhost : host.Regular)
    {actions : List (Loader.Action Thread Path Object Symbol)} {s : Loader Thread}
    (hrun : Lts.run (Loader.step host) Loader.start actions = some s) :
    (∀ handle, Lts.Always (Loader.step host)
      (fun s => s.opens handle ≤ s.closes handle + usizeMax) Loader.start actions →
      RefCounted s handle) ∧
    classifyDlsymHandle nullHandle s.registry = .ok .default ∧
    classifyDlsymHandle rtldNext s.registry = .ok .next ∧
    @FailuresHarmless Path Object Symbol Thread _ _ host s := by
  have hconsistent := Consistent.run hhost hrun
  exact ⟨fun handle hbound => hconsistent.refCounted (exact_of_bounded hhost hrun hbound), rfl, rfl,
    hconsistent.failuresHarmless⟩

/-! ## Where the count stops -/

section Saturation

variable {host : Host Path Object} {call : DlopenCall Path Object} {origin : OpenOrigin}
  {handle : Handle}

/-- A thread that opens an object again and again. -/
def openings (t : Thread) (call : DlopenCall Path Object) (n : Nat) :
    List (Loader.Action Thread Path Object Symbol) :=
  (List.replicate n [Loader.Action.dlopen t call, Loader.Action.register t]).flatten

/-- A thread that closes a handle again and again. -/
def closings (t : Thread) (handle : Handle) (n : Nat) :
    List (Loader.Action Thread Path Object Symbol) :=
  List.replicate n (Loader.Action.dlclose t handle)

/-- The count follows the opens up to `usize::MAX`. -/
theorem run_openings (hopen : openObject host call = .ok (origin, handle)) (t : Thread) (n : Nat) :
    ∃ s : Loader Thread,
      Lts.run (Loader.step host) Loader.start
        (openings t call (n + 1) : List (Loader.Action Thread Path Object Symbol)) = some s ∧
      s.opening t = none ∧ s.opens handle = n + 1 ∧ s.closes handle = 0 ∧
      status usizeMax handle s.history = .live (min (n + 1) usizeMax) := by
  -- One open is two steps of the thread: the loader's work and the registration.
  have hpair : ∀ s : Loader Thread, s.opening t = none → ∃ s' : Loader Thread,
      Lts.run (Loader.step host) s
        ([.dlopen t call, .register t] : List (Loader.Action Thread Path Object Symbol)) =
          some s' ∧ s'.opening t = none ∧ s'.history = .opened handle origin :: s.history := by
    intro s hidle
    have hdlopen : Loader.step host s
        (.dlopen t call : Loader.Action Thread Path Object Symbol) =
        some (s.dlopen host t call) := by
      rw [Loader.step, if_pos hidle]
    have hopening : (s.dlopen host t call).opening t = some (origin, handle) := by
      rw [Loader.dlopen, hopen]
      exact Function.update_self _ _ _
    have hregister : Loader.step host (s.dlopen host t call)
        (.register t : Loader.Action Thread Path Object Symbol) =
        some ((s.dlopen host t call).register t origin handle).2 := by
      rw [Loader.step, hopening]
      rfl
    have hhistory : (s.dlopen host t call).history = s.history := by
      rw [Loader.dlopen, hopen]
    rw [Lts.run_cons_of_step hdlopen, Lts.run_cons_of_step hregister]
    exact ⟨_, rfl, Function.update_self _ _ _, congrArg (_ :: ·) hhistory⟩
  -- Induction on the number of opens, with one more at the end of the run.
  induction n with
  | zero =>
    rcases hpair Loader.start rfl with ⟨s, hrun, hidle, hhistory⟩
    refine ⟨s, hrun, hidle, ?_, ?_, ?_⟩
    · rw [Loader.opens, hhistory, opens_opened_self]
      rfl
    · rw [Loader.closes, hhistory]
      rfl
    · rw [hhistory, status_opened_self]
      rfl
  | succ n ih =>
    rcases ih with ⟨s, hrun, hidle, hopens, hcloses, hstatus⟩
    rcases hpair s hidle with ⟨s', hrun', hidle', hhistory⟩
    refine ⟨s', ?_, hidle', ?_, ?_, ?_⟩
    · rw [openings, List.replicate_succ', List.flatten_append, List.flatten_singleton,
        Lts.run_append]
      change (Lts.run (Loader.step host) Loader.start (openings t call (n + 1))).bind _ = some s'
      rw [hrun]
      exact hrun'
    · rw [Loader.opens, hhistory, opens_opened_self]
      exact congrArg (· + 1) hopens
    · rw [Loader.closes, hhistory]
      exact hcloses
    · rw [hhistory, status_opened_self, hstatus, Status.opened]
      congr 1
      omega

/-- A live handle can be closed as often as its count says. -/
theorem run_closings (hhost : host.Regular) (t : Thread) (n : Nat) {s : Loader Thread}
    (hs : Consistent s) (hidle : s.opening t = none)
    (hlive : status usizeMax handle s.history = .live (n + 1)) :
    ∃ s' : Loader Thread,
      Lts.run (Loader.step host) s
        (closings t handle (n + 1) : List (Loader.Action Thread Path Object Symbol)) = some s' ∧
      Consistent s' ∧ s'.opens handle = s.opens handle ∧
      s'.closes handle = s.closes handle + (n + 1) ∧
      status usizeMax handle s'.history = .released := by
  -- Each close of a live handle succeeds and takes one reference away.
  have hclose : ∀ s : Loader Thread, Consistent s → s.opening t = none → ∀ count,
      status usizeMax handle s.history = .live count → ∃ s' : Loader Thread,
        Loader.step host s (.dlclose t handle : Loader.Action Thread Path Object Symbol) =
          some s' ∧ Consistent s' ∧ s'.opening t = none ∧
        s'.history = .closed handle :: s.history := by
    intro s hs hidle count hlive
    have hstep : Loader.step host s
        (.dlclose t handle : Loader.Action Thread Path Object Symbol) =
        some (s.dlclose t handle).2 := by
      rw [Loader.step, if_pos hidle]
    have hnext := (hs.step hhost hstep).1
    have hclosing := hs.records.dlclose t handle
    refine ⟨_, hstep, hnext, ?_⟩
    generalize s.dlclose t handle = result at hclosing
    cases hclosing with
    | success hnull hcount hstate => exact ⟨hidle, rfl⟩
    | alreadyClosed hreleased => simp [hreleased] at hlive
    | invalidHandle habsent => simp [habsent] at hlive
  -- Induction on the references left; the last close releases the handle.
  induction n generalizing s with
  | zero =>
    rcases hclose s hs hidle 1 hlive with ⟨s', hstep, hs', _, hhistory⟩
    refine ⟨s', ?_, hs', ?_, ?_, ?_⟩
    · exact Lts.run_cons_of_step hstep []
    · rw [Loader.opens, hhistory]
      rfl
    · rw [Loader.closes, hhistory, closes_closed_self]
      rfl
    · rw [hhistory, status_closed_self, hlive]
      rfl
  | succ n ih =>
    rcases hclose s hs hidle _ hlive with ⟨s', hstep, hs', hidle', hhistory⟩
    have hlive' : status usizeMax handle s'.history = .live (n + 1) := by
      rw [hhistory, status_closed_self, hlive, Status.closed, if_pos (by omega)]
      rfl
    rcases ih hs' hidle' hlive' with ⟨s'', hrun, hs'', hopens, hcloses, hreleased⟩
    have hopens' : s'.opens handle = s.opens handle := by
      rw [Loader.opens, hhistory]
      rfl
    have hcloses' : s'.closes handle = s.closes handle + 1 := by
      rw [Loader.closes, hhistory, closes_closed_self]
      rfl
    refine ⟨s'', ?_, hs'', hopens.trans hopens', ?_, hreleased⟩
    · rw [closings, List.replicate_succ, Lts.run_cons_of_step hstep]
      exact hrun
    · rw [hcloses, hcloses']
      omega

end Saturation

/-- A host that opens one object, at the path that is not its own. -/
def sampleHost : Host Bool Unit where
  dlopenAvailable := true
  handle _ := 0x1000
  procSelfExePath := false
  toStringLossy _ := []

def sampleCall : DlopenCall Bool Unit where
  filename := some true
  flags := 1
  magic := .ok elfMagic
  canonicalPath _ := none
  object := some ()
  lastOsError := 0
  hostMessage := none

theorem sampleHost_regular : sampleHost.Regular where
  nonnull _ := (by decide : (0x1000 : Handle) ≠ nullHandle)
  notNext _ := (by decide : (0x1000 : Handle) ≠ rtldNext)
  notMainProgram _ := (by decide : (0x1000 : Handle) ≠ internalMainProgramHandleId)
  notProcSelfExe _ := (by decide : (0x1000 : Handle) ≠ internalProcSelfExeHandleId)

theorem openObject_sample : openObject sampleHost sampleCall = .ok (.external, 0x1000) := rfl

/-- The first thread closes the object between the two halves of the second one's open, and opens
it again. -/
def sharedActions : List (Loader.Action Bool Bool Unit Unit) :=
  [.dlopen false sampleCall, .dlopen true sampleCall, .register false, .dlclose false 0x1000,
    .register true, .dlopen false sampleCall, .register false, .dlclose true 0x1000]

theorem dlHandles_countReferences_sample :
    ∃ s, Lts.run (Loader.step sampleHost) Loader.start sharedActions = some s ∧
      RefCounted s 0x1000 ∧ s.opens 0x1000 = 3 ∧ s.closes 0x1000 = 2 := by
  obtain ⟨s, hrun, hopens, hcloses⟩ : ∃ s : Loader Bool,
      Lts.run (Loader.step sampleHost) Loader.start sharedActions = some s ∧
        s.opens 0x1000 = 3 ∧ s.closes 0x1000 = 2 := ⟨_, rfl, rfl, rfl⟩
  have hbound : Lts.Always (Loader.step sampleHost)
      (fun s => s.opens 0x1000 ≤ s.closes 0x1000 + usizeMax) Loader.start sharedActions :=
    Consistent.start.bounded sampleHost_regular (by decide)
  exact ⟨s, hrun, (dlHandles_countReferences sampleHost_regular hrun).1 0x1000 hbound, hopens,
    hcloses⟩

/-- `dlsym` takes null although `dlopen` never returned it; and when `dlopen` has returned a handle
once more than `usize::MAX` times, the last `dlclose` that the counts would still allow fails. -/
theorem dlHandles_sentinels_and_saturation :
    (classifyDlsymHandle nullHandle (Loader.start : Loader Unit).registry = .ok .default ∧
      ¬ (Loader.start : Loader Unit).closes nullHandle <
        (Loader.start : Loader Unit).opens nullHandle) ∧
    ∃ s : Loader Unit, Lts.run (Loader.step sampleHost) Loader.start
        (openings () sampleCall (usizeMax + 1) ++ closings () 0x1000 usizeMax :
          List (Loader.Action Unit Bool Unit Unit)) = some s ∧
      s.closes 0x1000 < s.opens 0x1000 ∧ (s.dlclose () 0x1000).1 = -1 := by
  refine ⟨⟨rfl, Nat.lt_irrefl 0⟩, ?_⟩
  have hmax : ∃ n, usizeMax = n + 1 := ⟨0xfffffffffffffffe, rfl⟩
  rcases hmax with ⟨n, hn⟩
  rw [hn]
  rcases @run_openings Bool Unit Unit Unit _ _ sampleHost sampleCall .external 0x1000
    openObject_sample () (n + 1) with ⟨s, hrun, hidle, hopens, hcloses, hlive⟩
  have hmin : min (n + 1 + 1) usizeMax = n + 1 := by omega
  rw [hmin] at hlive
  rcases @run_closings Bool Unit Unit Unit _ _ sampleHost 0x1000 sampleHost_regular () n s
    (Consistent.run sampleHost_regular hrun) hidle hlive with
    ⟨s', hrun', hs', hopens', hcloses', hreleased⟩
  refine ⟨s', ?_, ?_, ?_⟩
  · rw [Lts.run_append, hrun]
    exact hrun'
  · rw [hopens', hopens, hcloses', hcloses]
    omega
  · rcases (hs'.records.dlclose () 0x1000).outcome with ⟨_, count, hst⟩ | ⟨hret, _⟩ | ⟨hret, _⟩
    · simp [hreleased] at hst
    · exact hret
    · exact hret

end Rlibc.Dlfcn
