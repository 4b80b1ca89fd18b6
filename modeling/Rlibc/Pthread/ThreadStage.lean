import Rlibc.Pthread.LifecycleSafety

/-!
# The stages of one thread

A thread that this library creates is started, opened when its handle is published, and then
joined or detached.  `Stage` is that life, and `Lifecycle.view` is everything the system knows
about one handle: its marks in the registry, the calls about it, and the threads that run under
it.  A handle is *at* a stage when its view is the one the stage prescribes.
-/

namespace Rlibc.Pthread

/-! ## Calls about a handle -/

/-- What a call in progress does with its handle. -/
inductive Doing where
  | starting
  | started
  | claiming
  deriving DecidableEq, Repr

def Pc.doing : Pc → Option (Doing × PthreadT)
  | .idle => none
  | .spawning thread => some (.starting, thread)
  | .spawned thread _ => some (.started, thread)
  | .spawnFailed thread => some (.starting, thread)
  | .publishing _ => none
  | .joiningLocal thread _ => some (.claiming, thread)
  | .joiningNative thread => some (.claiming, thread)
  | .detachingNative thread => some (.claiming, thread)
  | .unknownNative thread => some (.claiming, thread)

/-- The handle that a finished `pthread_create` stored. -/
def Reply.issued : Reply → Option PthreadT
  | .created _ thread => thread
  | .joined _ _ _ => none
  | .detached _ _ => none
  | .unknown _ _ => none

/-- The handle that a finished join or detach was called for. -/
def Reply.claimed : Reply → Option PthreadT
  | .created _ _ => none
  | .joined thread _ _ => some thread
  | .detached thread _ => some thread
  | .unknown thread _ => some thread

/-! ## The views -/

/-- The entries of one handle in the tables of the registry. -/
@[ext] structure Marks where
  pending : Prop
  joinable : Prop
  finished : Prop
  detached : Prop
  native : Prop

/-- The calls about one handle: in progress, answered with the handle, and claiming it. -/
@[ext] structure Calls where
  starting : Prop
  started : Prop
  issued : Nat
  claimed : Prop

@[ext] structure ThreadView where
  marks : Marks
  calls : Calls
  /-- The results of the threads that run under the handle, in the order of their start. -/
  threads : List (Option UInt64)

def PthreadRegistry.marks (r : PthreadRegistry) (x : PthreadT) : Marks :=
  { pending := x ∈ r.localPending
    joinable := r.containsJoinable x
    finished := x ∈ r.finished
    detached := x ∈ r.detached
    native := x ∈ r.nativeJoinable ∨ x ∈ r.nativeDetached ∨ x ∈ r.nativeConsumed }

namespace Lifecycle

variable {T : Type*}

/-- Every handle that a `pthread_create` stored, the latest first. -/
def issued (s : Lifecycle T) : List PthreadT :=
  s.replies.filterMap fun a => a.2.issued

/-- Some call does `d` with the handle. -/
def Does (s : Lifecycle T) (d : Doing) (x : PthreadT) : Prop :=
  ∃ t, (s.pc t).doing = some (d, x)

/-- A join or a detach of the handle is finished. -/
def Replied (s : Lifecycle T) (x : PthreadT) : Prop :=
  ∃ a ∈ s.replies, a.2.claimed = some x

/-- A join or a detach was called for the handle. -/
def Claimed (s : Lifecycle T) (x : PthreadT) : Prop :=
  s.Does .claiming x ∨ s.Replied x

def calls (s : Lifecycle T) (x : PthreadT) : Calls :=
  { starting := s.Does .starting x
    started := s.Does .started x
    issued := s.issued.count x
    claimed := s.Claimed x }

def threads (s : Lifecycle T) (x : PthreadT) : List (Option UInt64) :=
  (s.children.filter fun c => c.threadId == x).map Child.returned

def view (s : Lifecycle T) (x : PthreadT) : ThreadView :=
  ⟨s.registry.marks x, s.calls x, s.threads x⟩

end Lifecycle

/-! ## The stages -/

/-- The stages of a handle; from `started` on, with the result of its thread. -/
inductive Stage where
  | unused
  | starting
  | started (returned : Option UInt64)
  | opened (returned : Option UInt64)
  | joined (returned : Option UInt64)
  | detached (returned : Option UInt64)
  deriving DecidableEq, Repr

namespace Stage

/-- The threads that run under a handle. -/
def threads : Stage → List (Option UInt64)
  | .unused => []
  | .starting => []
  | .started returned => [returned]
  | .opened returned => [returned]
  | .joined returned => [returned]
  | .detached returned => [returned]

def marks : Stage → Marks
  | .unused => ⟨False, False, False, False, False⟩
  | .starting => ⟨True, False, False, False, False⟩
  | .started returned => ⟨True, False, returned ≠ none, False, False⟩
  | .opened returned => ⟨False, True, returned ≠ none, False, False⟩
  | .joined _ => ⟨False, False, False, False, False⟩
  | .detached returned => ⟨False, False, False, returned = none, False⟩

def calls : Stage → Calls
  | .unused => ⟨False, False, 0, False⟩
  | .starting => ⟨True, False, 0, False⟩
  | .started _ => ⟨False, True, 0, False⟩
  | .opened _ => ⟨False, False, 1, False⟩
  | .joined _ => ⟨False, False, 1, True⟩
  | .detached _ => ⟨False, False, 1, True⟩

def view (stage : Stage) : ThreadView :=
  ⟨stage.marks, stage.calls, stage.threads⟩

/-- The stage after the thread has returned `value`. -/
def exited (value : UInt64) : Stage → Stage
  | .unused => .unused
  | .starting => .starting
  | .started _ => .started (some value)
  | .opened _ => .opened (some value)
  | .joined _ => .joined (some value)
  | .detached _ => .detached (some value)

theorem exited_calls (stage : Stage) (value : UInt64) :
    (stage.exited value).calls = stage.calls := by
  cases stage <;> rfl

theorem eq_starting {stage : Stage} (h : stage.calls.starting) : stage = .starting := by
  cases stage with
  | starting => rfl
  | _ => exact absurd h id

theorem eq_started {stage : Stage} (h : stage.calls.started) :
    ∃ returned, stage = .started returned := by
  cases stage with
  | started returned => exact ⟨returned, rfl⟩
  | _ => exact absurd h id

/-- Only an opened handle is issued and not claimed. -/
theorem opened_of_issued {stage : Stage} (hissued : stage.calls.issued ≠ 0)
    (hclaimed : ¬ stage.calls.claimed) : ∃ returned, stage = .opened returned := by
  cases stage with
  | unused => exact absurd rfl hissued
  | starting => exact absurd rfl hissued
  | started returned => exact absurd rfl hissued
  | opened returned => exact ⟨returned, rfl⟩
  | joined returned => exact absurd trivial hclaimed
  | detached returned => exact absurd trivial hclaimed

end Stage

/-! ## The registry at one handle -/

namespace PthreadRegistry

variable {r : PthreadRegistry} {x y : PthreadT}

theorem marks_insertPending (r : PthreadRegistry) (x : PthreadT) :
    ({ r with localPending := insert x r.localPending } : PthreadRegistry).marks x =
      { r.marks x with pending := True } := by
  simp only [marks, Finset.mem_insert_self]

theorem marks_insertPending_of_ne (hne : y ≠ x) :
    ({ r with localPending := insert x r.localPending } : PthreadRegistry).marks y =
      r.marks y := by
  simp only [marks, Finset.mem_insert, hne, false_or]

theorem marks_erasePending (r : PthreadRegistry) (x : PthreadT) :
    ({ r with localPending := r.localPending.erase x } : PthreadRegistry).marks x =
      { r.marks x with pending := False } := by
  simp only [marks, Finset.notMem_erase]

theorem marks_erasePending_of_ne (hne : y ≠ x) :
    ({ r with localPending := r.localPending.erase x } : PthreadRegistry).marks y =
      r.marks y := by
  simp only [marks, Finset.mem_erase, ne_eq, hne, not_false_eq_true, true_and]

theorem marks_publishLocal (r : PthreadRegistry) (x : PthreadT) (joinHandle : JoinHandle) :
    (r.publishLocal x joinHandle).marks x =
      { r.marks x with pending := False, joinable := True } := by
  simp only [marks, publishLocal, Finset.notMem_erase, containsJoinable, Function.update_self,
    Option.isSome_some]

theorem marks_publishLocal_of_ne (hne : y ≠ x) (joinHandle : JoinHandle) :
    (r.publishLocal x joinHandle).marks y = r.marks y := by
  simp only [marks, publishLocal, Finset.mem_erase, ne_eq, hne, not_false_eq_true, true_and,
    containsJoinable, Function.update_of_ne hne]

theorem marks_handleLocalThreadExit_of_ne (hne : y ≠ x) :
    (r.handleLocalThreadExit x).marks y = r.marks y := by
  unfold handleLocalThreadExit
  split
  · simp only [marks, Finset.mem_erase, ne_eq, hne, not_false_eq_true, true_and]
  · split
    · simp only [marks, Finset.mem_insert, hne, false_or]
    · rfl

theorem marks_eraseDetached (r : PthreadRegistry) (x : PthreadT) :
    ({ r with detached := r.detached.erase x } : PthreadRegistry).marks x =
      { r.marks x with detached := False } := by
  simp only [marks, Finset.notMem_erase]

theorem marks_insertFinished (r : PthreadRegistry) (x : PthreadT) :
    ({ r with finished := insert x r.finished } : PthreadRegistry).marks x =
      { r.marks x with finished := True } := by
  simp only [marks, Finset.mem_insert_self]

/-- A thread that ends is taken out of `detached`, or is remembered as finished while its handle
is pending or joinable; a thread that is being joined leaves no entry. -/
theorem marks_handleLocalThreadExit {stage : Stage} (hmarks : r.marks x = stage.marks)
    (hthreads : stage.threads = [none]) (value : UInt64) :
    (r.handleLocalThreadExit x).marks x = (stage.exited value).marks := by
  have hpending : (x ∈ r.localPending) = stage.marks.pending := congrArg Marks.pending hmarks
  have hjoinable : r.containsJoinable x = stage.marks.joinable := congrArg Marks.joinable hmarks
  have hdetached : (x ∈ r.detached) = stage.marks.detached := congrArg Marks.detached hmarks
  have hvalue : (some value ≠ none) = True := eq_true (Option.some_ne_none value)
  unfold handleLocalThreadExit
  cases stage with
  | unused => cases hthreads
  | starting => cases hthreads
  | started returned =>
    rw [if_neg (of_eq_false hdetached), if_pos (Or.inr (of_eq_true hpending)),
      marks_insertFinished, hmarks]
    simp only [Stage.marks, Stage.exited, hvalue]
  | opened returned =>
    rw [if_neg (of_eq_false hdetached), if_pos (Or.inl (of_eq_true hjoinable)),
      marks_insertFinished, hmarks]
    simp only [Stage.marks, Stage.exited, hvalue]
  | joined returned =>
    have hleft := not_or.mpr ⟨of_eq_false hjoinable, of_eq_false hpending⟩
    rw [if_neg (of_eq_false hdetached), if_neg hleft, hmarks]
    rfl
  | detached returned =>
    have hrunning : returned = none := List.singleton_inj.mp hthreads
    rw [if_pos (hdetached ▸ hrunning), marks_eraseDetached, hmarks]
    simp only [Stage.marks, Stage.exited, reduceCtorEq]

/-! ### Joins and detaches of an opened handle -/

/-- The registry after the handle of a joinable thread was taken out. -/
def takeJoinable (r : PthreadRegistry) (x : PthreadT) : PthreadRegistry :=
  { r with
    joinable := Function.update r.joinable x none
    finished := r.finished.erase x }

theorem marks_takeJoinable (r : PthreadRegistry) (x : PthreadT) :
    (r.takeJoinable x).marks x = { r.marks x with joinable := False, finished := False } := by
  simp only [marks, takeJoinable, containsJoinable, Function.update_self, Option.isSome_none,
    Bool.false_eq_true, Finset.notMem_erase]

theorem marks_takeJoinable_of_ne (hne : y ≠ x) : (r.takeJoinable x).marks y = r.marks y := by
  simp only [marks, takeJoinable, containsJoinable, Function.update_of_ne hne, Finset.mem_erase,
    ne_eq, hne, not_false_eq_true, true_and]

/-- What both critical sections find for an opened handle. -/
theorem opened_found {returned : Option UInt64}
    (hmarks : r.marks x = (Stage.opened returned).marks) :
    x ∉ r.detached ∧ x ∉ r.nativeConsumed ∧ (x ∈ r.finished ↔ returned ≠ none) ∧
      ∃ joinHandle, r.joinable x = some joinHandle := by
  have hdetached : (x ∈ r.detached) = False := congrArg Marks.detached hmarks
  have hnative : (x ∈ r.nativeJoinable ∨ x ∈ r.nativeDetached ∨ x ∈ r.nativeConsumed) = False :=
    congrArg Marks.native hmarks
  have hfinished : (x ∈ r.finished) = (returned ≠ none) := congrArg Marks.finished hmarks
  have hjoinable : r.containsJoinable x = True := congrArg Marks.joinable hmarks
  refine ⟨of_eq_false hdetached, ?_, iff_of_eq hfinished, ?_⟩
  · exact fun h => of_eq_false hnative (Or.inr (Or.inr h))
  · exact Option.isSome_iff_exists.mp (of_eq_true hjoinable)

theorem joinTarget_opened {returned : Option UInt64}
    (hmarks : r.marks x = (Stage.opened returned).marks) :
    ∃ joinHandle, r.joinable x = some joinHandle ∧
      r.joinTarget x = (r.takeJoinable x, .ok (.local joinHandle)) := by
  have hfound := opened_found hmarks
  cases hfound.2.2.2 with
  | intro joinHandle hj =>
    refine ⟨joinHandle, hj, ?_⟩
    rw [joinTarget, if_neg hfound.1, if_neg hfound.2.1, hj]
    rfl

theorem joinTarget_marks {returned : Option UInt64}
    (hmarks : r.marks x = (Stage.opened returned).marks) :
    (r.takeJoinable x).marks x = (Stage.joined returned).marks := by
  rw [marks_takeJoinable, hmarks]
  rfl

/-- `detached` remembers a thread that is still running. -/
def detachJoinable (r : PthreadRegistry) (x : PthreadT) : PthreadRegistry :=
  { r.takeJoinable x with
    detached := if x ∈ r.finished then r.detached else insert x r.detached }

theorem detachTarget_opened {returned : Option UInt64}
    (hmarks : r.marks x = (Stage.opened returned).marks) :
    ∃ joinHandle, r.detachTarget x = (r.detachJoinable x, .ok (.local joinHandle)) := by
  have hfound := opened_found hmarks
  cases hfound.2.2.2 with
  | intro joinHandle hj =>
    refine ⟨joinHandle, ?_⟩
    rw [detachTarget, if_neg hfound.1, if_neg hfound.2.1, hj]
    rfl

theorem marks_detachJoinable (hd : x ∉ r.detached) :
    (r.detachJoinable x).marks x =
      { r.marks x with joinable := False, finished := False, detached := x ∉ r.finished } := by
  have hdetached : (x ∈ if x ∈ r.finished then r.detached else insert x r.detached) ↔
      x ∉ r.finished := by
    by_cases hf : x ∈ r.finished
    · rw [if_pos hf]
      exact iff_of_false hd fun h => h hf
    · rw [if_neg hf]
      exact iff_of_true (Finset.mem_insert_self x _) hf
  simp only [marks, detachJoinable, takeJoinable, containsJoinable, Function.update_self,
    Option.isSome_none, Bool.false_eq_true, Finset.notMem_erase, hdetached]

theorem detachTarget_marks {returned : Option UInt64}
    (hmarks : r.marks x = (Stage.opened returned).marks) :
    (r.detachJoinable x).marks x = (Stage.detached returned).marks := by
  have hfound := opened_found hmarks
  rw [marks_detachJoinable hfound.1, hmarks, hfound.2.2.1]
  simp only [Stage.marks, ne_eq, not_not]

theorem marks_detachJoinable_of_ne (hne : y ≠ x) : (r.detachJoinable x).marks y = r.marks y := by
  have htake := marks_takeJoinable_of_ne (r := r) hne
  rw [← htake]
  ext
  case detached =>
    change (y ∈ if x ∈ r.finished then r.detached else insert x r.detached) ↔ y ∈ r.detached
    split
    · rfl
    · rw [Finset.mem_insert, or_iff_right hne]
  all_goals rfl

end PthreadRegistry

namespace Lifecycle

variable {T : Type*} [DecidableEq T] {s s' : Lifecycle T} {t : T} {c : Pc} {d : Doing}
  {x y : PthreadT}

/-! ## The calls about one handle -/

omit [DecidableEq T] in
theorem count_issued_reply {a : Reply} (hreplies : s'.replies = (t, a) :: s.replies)
    (y : PthreadT) :
    s'.issued.count y = (if a.issued = some y then 1 else 0) + s.issued.count y := by
  unfold issued
  rw [hreplies, List.filterMap_cons]
  cases a.issued with
  | none => exact (Nat.zero_add _).symm
  | some z =>
    change List.count y (z :: s.issued) = _
    rw [List.count_cons, Nat.add_comm]
    simp only [beq_iff_eq, Option.some.injEq]
    rfl

omit [DecidableEq T] in
theorem replied_reply {a : Reply} (hreplies : s'.replies = (t, a) :: s.replies) (y : PthreadT) :
    s'.Replied y ↔ a.claimed = some y ∨ s.Replied y := by
  simp only [Replied, hreplies, List.mem_cons, exists_eq_or_imp]

theorem does_iff (hpc : s'.pc = Function.update s.pc t c) :
    s'.Does d y ↔ c.doing = some (d, y) ∨ ∃ t', t' ≠ t ∧ (s.pc t').doing = some (d, y) := by
  constructor
  · rintro ⟨t', ht'⟩
    rw [hpc] at ht'
    by_cases he : t' = t
    · rw [he, Function.update_self] at ht'
      exact Or.inl ht'
    · rw [Function.update_of_ne he] at ht'
      exact Or.inr ⟨t', he, ht'⟩
  · intro h
    cases h with
    | inl hc => exact ⟨t, by rwa [hpc, Function.update_self]⟩
    | inr h =>
      cases h with
      | intro t' ht' => exact ⟨t', by rw [hpc, Function.update_of_ne ht'.1]; exact ht'.2⟩

/-- A caller that keeps doing what it did, or did and does something else. -/
theorem does_iff_of_same (hpc : s'.pc = Function.update s.pc t c)
    (hc : c.doing = some (d, y) ↔ (s.pc t).doing = some (d, y)) :
    s'.Does d y ↔ s.Does d y := by
  rw [does_iff hpc, hc]
  constructor
  · intro h
    cases h with
    | inl ht => exact ⟨t, ht⟩
    | inr h => exact h.imp fun t' ht' => ht'.2
  · rintro ⟨t', ht'⟩
    by_cases he : t' = t
    · exact Or.inl (he ▸ ht')
    · exact Or.inr ⟨t', he, ht'⟩

/-- The one caller that creates the handle stops doing what it did. -/
theorem not_does (hspawns : SpawnsPending s) (hpc : s'.pc = Function.update s.pc t c)
    (ht : (s.pc t).spawn = some x) (hd : d ≠ .claiming) (hc : c.doing ≠ some (d, x)) :
    ¬ s'.Does d x := by
  rw [does_iff hpc]
  rintro (hc' | ⟨t', hne, ht'⟩)
  · exact hc hc'
  · refine hne (hspawns.unique t' t x ?_ ht)
    cases hp : s.pc t' <;> simp_all [Pc.doing, Pc.spawn]

/-- A caller that goes on, and says nothing about `y`. -/
theorem calls_goto (hpc : s'.pc = Function.update s.pc t c)
    (hc : ∀ d, c.doing = some (d, y) ↔ (s.pc t).doing = some (d, y))
    (hreplies : s'.replies = s.replies) : s'.calls y = s.calls y := by
  have hdoes := fun d => does_iff_of_same hpc (hc d)
  ext
  · exact hdoes .starting
  · exact hdoes .started
  · change s'.issued.count y = s.issued.count y
    rw [issued, issued, hreplies]
  · refine or_congr (hdoes .claiming) ?_
    rw [Replied, Replied, hreplies]

/-- A call that ends, and says nothing about `y`. -/
theorem calls_reply {a : Reply} (hpc : s'.pc = Function.update s.pc t .idle)
    (ht : ∀ d, (s.pc t).doing ≠ some (d, y)) (hreplies : s'.replies = (t, a) :: s.replies)
    (hissued : a.issued ≠ some y) (hclaimed : a.claimed ≠ some y) : s'.calls y = s.calls y := by
  have hdoes := fun d => does_iff_of_same (d := d) hpc (iff_of_false (by simp [Pc.doing]) (ht d))
  ext
  · exact hdoes .starting
  · exact hdoes .started
  · change s'.issued.count y = s.issued.count y
    rw [count_issued_reply hreplies, if_neg hissued, Nat.zero_add]
  · refine or_congr (hdoes .claiming) ?_
    rw [replied_reply hreplies, or_iff_right hclaimed]

/-! ## The threads under one handle -/

omit [DecidableEq T] in
theorem mem_threads {r : Option UInt64} : r ∈ s.threads x ↔ ⟨x, r⟩ ∈ s.children := by
  simp only [threads, List.mem_map, List.mem_filter, beq_iff_eq]
  constructor
  · rintro ⟨child, hchild, rfl⟩
    rw [← hchild.2]
    exact hchild.1
  · exact fun h => ⟨⟨x, r⟩, ⟨h, rfl⟩, rfl⟩

omit [DecidableEq T] in
theorem threads_append {child : Child} (hchildren : s'.children = s.children ++ [child])
    (y : PthreadT) :
    s'.threads y = s.threads y ++ if child.threadId = y then [child.returned] else [] := by
  rw [threads, threads, hchildren, List.filter_append, List.map_append]
  congr 1
  by_cases h : child.threadId = y
  · rw [if_pos h, List.filter_cons_of_pos (by simpa using h)]
    rfl
  · rw [if_neg h, List.filter_cons_of_neg (by simpa using h)]
    rfl

/-- The result of a thread changes nothing under other handles. -/
theorem filter_set_of_ne {children : List Child} {i : Nat} {r r' : Option UInt64} (hne : y ≠ x)
    (hi : children[i]? = some ⟨x, r⟩) :
    (children.set i ⟨x, r'⟩).filter (fun c => c.threadId == y) =
      children.filter fun c => c.threadId == y := by
  have hx : ∀ r, ¬ ((⟨x, r⟩ : Child).threadId == y) = true := fun r => by simpa using hne.symm
  induction children generalizing i with
  | nil => rfl
  | cons child children ih =>
    cases i with
    | zero =>
      rw [List.getElem?_cons_zero, Option.some.injEq] at hi
      rw [List.set_cons_zero, hi, List.filter_cons, List.filter_cons, if_neg (hx r), if_neg (hx r')]
    | succ i =>
      rw [List.getElem?_cons_succ] at hi
      rw [List.set_cons_succ, List.filter_cons, List.filter_cons, ih hi]

/-- The only thread under a handle returns. -/
theorem filter_set_self {children : List Child} {i : Nat} {value : UInt64}
    (hi : children[i]? = some ⟨x, none⟩)
    (hone : (children.filter fun c => c.threadId == x).map Child.returned = [none]) :
    ((children.set i ⟨x, some value⟩).filter fun c => c.threadId == x).map Child.returned =
      [some value] := by
  induction children generalizing i with
  | nil => cases hone
  | cons child children ih =>
    cases i with
    | zero =>
      rw [List.getElem?_cons_zero, Option.some.injEq] at hi
      rw [hi, List.filter_cons, if_pos (beq_self_eq_true x), List.map_cons, List.cons.injEq] at hone
      rw [List.set_cons_zero, List.filter_cons, if_pos (beq_self_eq_true x), List.map_cons, hone.2]
    | succ i =>
      rw [List.getElem?_cons_succ] at hi
      rw [List.set_cons_succ]
      by_cases hchild : (child.threadId == x) = true
      · -- two threads under one handle
        rw [List.filter_cons, if_pos hchild, List.map_cons, List.cons.injEq,
          List.map_eq_nil_iff, List.filter_eq_nil_iff] at hone
        exact absurd (beq_self_eq_true x) (hone.2 _ (List.mem_of_getElem? hi))
      · rw [List.filter_cons, if_neg hchild] at hone ⊢
        exact ih hi hone

end Lifecycle

end Rlibc.Pthread
