import Rlibc.Pthread.ThreadStage

/-!
# Runs that join or detach every handle once

In these runs each handle is at a stage of its life, and a step moves one handle at most from one
stage to the next.
-/

namespace Rlibc.Pthread

/-- The call is not about a thread of the host. -/
def Pc.isLocal : Pc → Bool
  | .idle => true
  | .spawning _ => true
  | .spawned _ _ => true
  | .spawnFailed _ => true
  | .publishing _ => false
  | .joiningLocal _ _ => true
  | .joiningNative _ => false
  | .detachingNative _ => false
  | .unknownNative _ => false

/-- The join handle that a call holds, and the handle of its thread. -/
def Pc.holds : Pc → Option (PthreadT × JoinHandle)
  | .spawned thread joinHandle => some (thread, joinHandle)
  | .joiningLocal thread joinHandle => some (thread, joinHandle)
  | _ => none

theorem Pc.no_holds {c : Pc} (h : c.holds = none) {P : PthreadT → JoinHandle → Prop} (x : PthreadT)
    (joinHandle : JoinHandle) (hj : c.holds = some (x, joinHandle)) : P x joinHandle := by
  rw [h] at hj
  cases hj

/-- The only call that claims a local handle and goes on is a join. -/
theorem Pc.joiningLocal_of_claiming {c : Pc} {x : PthreadT} (hlocal : c.isLocal)
    (h : c.doing = some (.claiming, x)) : ∃ joinHandle, c = .joiningLocal x joinHandle := by
  cases c with
  | joiningLocal thread joinHandle =>
    cases h
    exact ⟨joinHandle, rfl⟩
  | joiningNative thread => cases hlocal
  | detachingNative thread => cases hlocal
  | unknownNative thread => cases hlocal
  | _ => cases h

namespace PthreadRegistry

theorem allocateThreadId_fresh {r : PthreadRegistry} {next : UInt64} (h : ¬ r.Taken next)
    (turns : Nat) : r.allocateThreadId (turns + 1) next = some (next, next + 1) := by
  rw [allocateThreadId, if_neg h]

theorem update_eq_some {f : PthreadT → Option JoinHandle} {x y : PthreadT} {joinHandle : JoinHandle}
    (h : Function.update f x none y = some joinHandle) : f y = some joinHandle := by
  by_cases he : y = x
  · rw [he, Function.update_self] at h
    cases h
  · rwa [Function.update_of_ne he] at h

theorem not_taken_of_unused {r : PthreadRegistry} {x : PthreadT} (hx : x ≠ 0)
    (hmarks : r.marks x = Stage.unused.marks) : ¬ r.Taken x := by
  have hpending : (x ∈ r.localPending) = False := congrArg Marks.pending hmarks
  have hjoinable : r.containsJoinable x = False := congrArg Marks.joinable hmarks
  have hdetached : (x ∈ r.detached) = False := congrArg Marks.detached hmarks
  have hnative : (x ∈ r.nativeJoinable ∨ x ∈ r.nativeDetached ∨ x ∈ r.nativeConsumed) = False :=
    congrArg Marks.native hmarks
  rintro (h | h | h | h | h)
  · exact hx h
  · exact of_eq_false hjoinable h
  · exact of_eq_false hpending h
  · exact of_eq_false hdetached h
  · exact of_eq_false hnative h

end PthreadRegistry

namespace Lifecycle

variable {T : Type*} [DecidableEq T] {s s' : Lifecycle T} {t : T} {x y : PthreadT}

/-! ## The runs -/

/-- Threads are created with null or zeroed attributes.  A join or a detach is called for a handle
that was issued and that nobody has joined or detached, and no thread joins itself. -/
def OnceEach (s : Lifecycle T) : LifecycleLabel T → Prop
  | .create _ _ _ attr _ _ => ∀ payload, attr = some payload → isZeroedAttrPayload payload
  | .join _ currentThreadId thread =>
    thread ∈ s.issued ∧ ¬ s.Claimed thread ∧ currentThreadId ≠ some thread
  | .detach _ thread => thread ∈ s.issued ∧ ¬ s.Claimed thread
  | _ => True

/-- A thread is created before `NEXT_THREAD_ID` has come round. -/
def BeforeWrap (s : Lifecycle T) : LifecycleLabel T → Prop
  | .create _ threadIsNull hasStart _ _ _ =>
    threadIsNull = false → hasStart = true → s.nextThreadId ≠ 0
  | _ => True

/-! ## The invariant -/

/-- The handle came out of `NEXT_THREAD_ID`. -/
def Drawn (s : Lifecycle T) (x : PthreadT) : Prop :=
  x ≠ 0 ∧ (s.nextThreadId ≠ 0 → x < s.nextThreadId)

def At (s : Lifecycle T) (x : PthreadT) (stage : Stage) : Prop :=
  s.view x = stage.view ∧ (stage = .unused ∨ s.Drawn x)

/-- The join handle is the one of a thread that runs under `x`. -/
def Names (s : Lifecycle T) (joinHandle : JoinHandle) (x : PthreadT) : Prop :=
  ∃ returned, s.children[joinHandle.child]? = some ⟨x, returned⟩

/-- The join has the value of a thread that ran under its handle. -/
def Answered (s : Lifecycle T) : Reply → Prop
  | .created _ _ => True
  | .joined thread code value => code = 0 ∧ ∃ v, value = some v ∧ ⟨thread, some v⟩ ∈ s.children
  | .detached _ _ => True
  | .unknown _ _ => False

structure Accounted (s : Lifecycle T) : Prop where
  stages : ∀ x, ∃ stage, s.At x stage
  spawns : SpawnsPending s
  callsLocal : ∀ t, (s.pc t).isLocal
  joinableNames : ∀ x joinHandle, s.registry.joinable x = some joinHandle → s.Names joinHandle x
  heldNames : ∀ t x joinHandle, (s.pc t).holds = some (x, joinHandle) → s.Names joinHandle x
  answers : ∀ a ∈ s.replies, s.Answered a.2

/-! ## What a step leaves alone -/

omit [DecidableEq T] in
theorem At.of_view_eq {stage : Stage} (h : s.At x stage) (hview : s'.view x = s.view x)
    (hdrawn : s.Drawn x → s'.Drawn x) : s'.At x stage :=
  ⟨hview.trans h.1, h.2.imp id hdrawn⟩

omit [DecidableEq T] in
theorem At.marks {stage : Stage} (h : s.At x stage) : s.registry.marks x = stage.marks :=
  congrArg ThreadView.marks h.1

omit [DecidableEq T] in
theorem At.calls {stage : Stage} (h : s.At x stage) : s.calls x = stage.calls :=
  congrArg ThreadView.calls h.1

omit [DecidableEq T] in
theorem At.starting {stage : Stage} (h : s.At x stage) :
    s.Does .starting x ↔ stage.calls.starting :=
  iff_of_eq (congrArg Calls.starting h.calls)

omit [DecidableEq T] in
theorem At.started {stage : Stage} (h : s.At x stage) :
    s.Does .started x ↔ stage.calls.started :=
  iff_of_eq (congrArg Calls.started h.calls)

omit [DecidableEq T] in
theorem At.count {stage : Stage} (h : s.At x stage) : s.issued.count x = stage.calls.issued :=
  congrArg Calls.issued h.calls

omit [DecidableEq T] in
theorem At.claimed {stage : Stage} (h : s.At x stage) : s.Claimed x ↔ stage.calls.claimed :=
  iff_of_eq (congrArg Calls.claimed h.calls)

omit [DecidableEq T] in
theorem At.threads {stage : Stage} (h : s.At x stage) : s.threads x = stage.threads :=
  congrArg ThreadView.threads h.1

omit [DecidableEq T] in
theorem drawn_of_next_eq (hnext : s'.nextThreadId = s.nextThreadId) (h : s.Drawn x) :
    s'.Drawn x := by
  unfold Drawn
  rwa [hnext]

/-- The threads only grow in number, and a thread that has returned keeps its value. -/
structure ChildrenExtend (s s' : Lifecycle T) : Prop where
  names : ∀ joinHandle x, s.Names joinHandle x → s'.Names joinHandle x
  values : ∀ x v, ⟨x, some v⟩ ∈ s.children → ⟨x, some v⟩ ∈ s'.children

omit [DecidableEq T] in
theorem ChildrenExtend.of_eq (h : s'.children = s.children) : ChildrenExtend s s' where
  names := fun joinHandle x hn => by rwa [Names, h]
  values := fun x v hv => h ▸ hv

omit [DecidableEq T] in
theorem ChildrenExtend.of_append {child : Child} (h : s'.children = s.children ++ [child]) :
    ChildrenExtend s s' where
  names := by
    rintro joinHandle x ⟨returned, hn⟩
    refine ⟨returned, ?_⟩
    rw [h, List.getElem?_append_left (List.getElem?_eq_some_iff.mp hn).1, hn]
  values := fun x v hv => h ▸ List.mem_append_left _ hv

omit [DecidableEq T] in
theorem ChildrenExtend.of_set {i : Nat} {v : UInt64} (hi : s.children[i]? = some ⟨x, none⟩)
    (h : s'.children = s.children.set i ⟨x, some v⟩) : ChildrenExtend s s' where
  names := by
    rintro joinHandle y ⟨returned, hn⟩
    by_cases he : i = joinHandle.child
    · subst he
      rw [hi] at hn
      cases hn
      refine ⟨some v, ?_⟩
      rw [h, List.getElem?_set_self (List.getElem?_eq_some_iff.mp hi).1]
    · refine ⟨returned, ?_⟩
      rw [h, List.getElem?_set_ne he, hn]
  values := by
    intro y w hw
    obtain ⟨j, hj, hw⟩ := List.mem_iff_getElem.mp hw
    have hne : i ≠ j := by
      intro he
      rw [he, List.getElem?_eq_getElem hj, hw] at hi
      cases hi
    rw [h]
    refine List.mem_of_getElem? (i := j) ?_
    rw [List.getElem?_set_ne hne, List.getElem?_eq_getElem hj, hw]

omit [DecidableEq T] in
theorem Answered.mono {a : Reply} (hext : ChildrenExtend s s') (h : s.Answered a) :
    s'.Answered a := by
  cases a with
  | created code thread => exact trivial
  | joined thread code value =>
    obtain ⟨hcode, v, hvalue, hv⟩ := h
    exact ⟨hcode, v, hvalue, hext.values thread v hv⟩
  | detached thread code => exact trivial
  | unknown thread code => exact h

omit [DecidableEq T] in
/-- A step moves one handle to another stage. -/
theorem Accounted.stages_of_move (h : Accounted s) (x : PthreadT) (stage : Stage)
    (hx : s'.At x stage) (hothers : ∀ y, y ≠ x → s'.view y = s.view y)
    (hdrawn : ∀ y, s.Drawn y → s'.Drawn y) :
    ∀ y, ∃ stage, s'.At y stage := by
  intro y
  by_cases he : y = x
  · exact ⟨stage, he ▸ hx⟩
  · exact (h.stages y).imp fun stage hy => hy.of_view_eq (hothers y he) (hdrawn y)

/-- What a step of the caller `t` keeps, apart from the stages. -/
theorem Accounted.caller (h : Accounted s) {c : Pc} (hspawns : SpawnsPending s')
    (hstages : ∀ y, ∃ stage, s'.At y stage) (hpc : s'.pc = Function.update s.pc t c)
    (hlocal : c.isLocal) (hheld : ∀ y j, c.holds = some (y, j) → s'.Names j y)
    (hext : ChildrenExtend s s')
    (hjoinable : ∀ y j, s'.registry.joinable y = some j → s'.Names j y)
    (hreplies : s'.replies = s.replies ∨
      ∃ a, s'.replies = (t, a) :: s.replies ∧ s'.Answered a) : Accounted s' where
  stages := hstages
  spawns := hspawns
  callsLocal := by
    intro t'
    rw [hpc]
    by_cases he : t' = t
    · rw [he, Function.update_self]
      exact hlocal
    · rw [Function.update_of_ne he]
      exact h.callsLocal t'
  joinableNames := hjoinable
  heldNames := by
    intro t' y j hj
    rw [hpc] at hj
    by_cases he : t' = t
    · rw [he, Function.update_self] at hj
      exact hheld y j hj
    · rw [Function.update_of_ne he] at hj
      exact hext.names j y (h.heldNames t' y j hj)
  answers := by
    intro a ha
    cases hreplies with
    | inl hr => exact (h.answers a (hr ▸ ha)).mono hext
    | inr hr =>
      obtain ⟨answer, hr, hanswer⟩ := hr
      rw [hr] at ha
      cases List.mem_cons.mp ha with
      | inl he => exact he ▸ hanswer
      | inr ha => exact (h.answers a ha).mono hext

/-! ## Creation -/

/-- A call that is refused at once. -/
theorem reply_accounted (h : Accounted s) (hidle : s.pc t = .idle) {a : Reply}
    (hspawns : SpawnsPending (s.reply t a)) (hissued : a.issued = none)
    (hclaimed : a.claimed = none) (hanswer : (s.reply t a).Answered a) :
    Accounted (s.reply t a) := by
  have hview : ∀ y, (s.reply t a).view y = s.view y := by
    intro y
    have hcalls : (s.reply t a).calls y = s.calls y :=
      calls_reply rfl (by simp [hidle, Pc.doing]) rfl (by simp [hissued]) (by simp [hclaimed])
    rw [view, hcalls]
    rfl
  refine h.caller hspawns ?_ rfl rfl (Pc.no_holds rfl) (.of_eq rfl) h.joinableNames
    (Or.inr ⟨a, rfl, hanswer⟩)
  exact fun y => (h.stages y).imp fun stage hy => hy.of_view_eq (hview y) (drawn_of_next_eq rfl)

omit [DecidableEq T] in
/-- Until it comes round, `NEXT_THREAD_ID` is a handle nobody has. -/
theorem unused_of_next (h : Accounted s) (hnext : s.nextThreadId ≠ 0) :
    s.At s.nextThreadId .unused := by
  cases h.stages s.nextThreadId with
  | intro stage hstage =>
    cases hstage.2 with
    | inl hunused => exact hunused ▸ hstage
    | inr hdrawn =>
      have hlt := UInt64.lt_iff_toNat_lt.mp (hdrawn.2 hnext)
      omega

theorem drawn_next {next : UInt64} {y : PthreadT}
    (hy : y = next ∨ y < next) (hnext' : next + 1 ≠ 0) : y < next + 1 := by
  have hwrap : (next + 1).toNat = (next.toNat + 1) % 2 ^ 64 := UInt64.toNat_add next 1
  have hpos : (next + 1).toNat ≠ 0 := fun h => hnext' (UInt64.toNat.inj h)
  have hlt := UInt64.toNat_lt next
  rw [UInt64.lt_iff_toNat_lt]
  have hle : y.toNat ≤ next.toNat := by
    cases hy with
    | inl he => rw [he]
    | inr hy => exact Nat.le_of_lt (UInt64.lt_iff_toNat_lt.mp hy)
  omega

/-- The state after the handle `thread` was drawn for a new spawn. -/
def draw (s : Lifecycle T) (t : T) (thread : PthreadT) (next : UInt64) : Lifecycle T :=
  { s with
    registry := { s.registry with localPending := insert thread s.registry.localPending }
    nextThreadId := next
    pc := Function.update s.pc t (.spawning thread) }

theorem spawnLocalThread_eq {thread next : UInt64}
    (halloc : s.registry.allocateThreadId 0x10000000000000000 s.nextThreadId =
      some (thread, next)) : s.spawnLocalThread t = some (s.draw t thread next) := by
  rw [spawnLocalThread, halloc, Option.map_some]
  rfl

omit [DecidableEq T] in
theorem allocate_fresh (hfree : ¬ s.registry.Taken s.nextThreadId) :
    s.registry.allocateThreadId 0x10000000000000000 s.nextThreadId =
      some (s.nextThreadId, s.nextThreadId + 1) :=
  PthreadRegistry.allocateThreadId_fresh hfree 0xFFFFFFFFFFFFFFFF

theorem spawnLocalThread_accounted (h : Accounted s) (hidle : s.pc t = .idle)
    (hnext : s.nextThreadId ≠ 0) (hspawns : SpawnsPending s')
    (hs : s.spawnLocalThread t = some s') : Accounted s' := by
  have hunused := unused_of_next h hnext
  rw [spawnLocalThread_eq (allocate_fresh
    (PthreadRegistry.not_taken_of_unused hnext hunused.marks)), Option.some.injEq] at hs
  subst hs
  have hdrawn : ∀ y, (y = s.nextThreadId ∨ s.Drawn y) → y ≠ 0 ∧
      (s.nextThreadId + 1 ≠ 0 → y < s.nextThreadId + 1) := by
    intro y hy
    cases hy with
    | inl he => exact ⟨he ▸ hnext, drawn_next (Or.inl he)⟩
    | inr hy => exact ⟨hy.1, drawn_next (Or.inr (hy.2 hnext))⟩
  refine h.caller hspawns (h.stages_of_move s.nextThreadId .starting
    ⟨?_, Or.inr (hdrawn _ (Or.inl rfl))⟩ ?_ fun y hy => hdrawn y (Or.inr hy)) rfl rfl
    (Pc.no_holds rfl) (.of_eq rfl) h.joinableNames (Or.inl rfl)
  · ext1
    · change ({ s.registry with
        localPending := insert s.nextThreadId s.registry.localPending } : PthreadRegistry).marks _ =
          Stage.starting.marks
      rw [PthreadRegistry.marks_insertPending, hunused.marks]
      rfl
    · ext
      · exact iff_of_true ⟨t, by simp [draw, Pc.doing]⟩ trivial
      · refine (does_iff_of_same rfl ?_).trans hunused.started
        simp [hidle, Pc.doing]
      · exact hunused.count
      · refine (or_congr (does_iff_of_same rfl ?_) Iff.rfl).trans hunused.claimed
        simp [hidle, Pc.doing]
    · exact hunused.threads
  · intro y hne
    ext1
    · exact PthreadRegistry.marks_insertPending_of_ne hne
    · refine calls_goto rfl (fun d => ?_) rfl
      simp [hidle, Pc.doing, hne.symm]
    · rfl

omit [DecidableEq T] in
/-- A caller that is creating `x` finds it at the stage its call says. -/
theorem at_of_doing (h : Accounted s) {d : Doing} (hpc : (s.pc t).doing = some (d, x)) :
    ∃ stage, s.At x stage ∧ s.Does d x :=
  (h.stages x).imp fun _ hstage => ⟨hstage, t, hpc⟩

theorem spawn_accounted (h : Accounted s) (hpc : s.pc t = .spawning x) (ok : Bool)
    (hspawns : SpawnsPending (s.spawn t x ok)) : Accounted (s.spawn t x ok) := by
  have hdoing : (s.pc t).doing = some (.starting, x) := by rw [hpc]; rfl
  have hspawn : (s.pc t).spawn = some x := by rw [hpc]; rfl
  obtain ⟨stage, hstage, hstarting⟩ := at_of_doing h hdoing
  cases Stage.eq_starting (hstage.starting.mp hstarting)
  cases ok with
  | false =>
    -- the handle stays pending until the call returns
    refine h.caller hspawns ?_ rfl rfl (Pc.no_holds rfl) (.of_eq rfl) h.joinableNames (Or.inl rfl)
    intro y
    refine (h.stages y).imp fun stage hy => hy.of_view_eq ?_ (drawn_of_next_eq rfl)
    ext1
    · rfl
    · refine calls_goto (c := .spawnFailed x) rfl (fun d => ?_) rfl
      rw [hdoing]
      rfl
    · rfl
  | true =>
    have hchildren : (s.spawn t x true).children = s.children ++ [⟨x, none⟩] := rfl
    have hdrawn : s.Drawn x := hstage.2.resolve_left (by simp)
    refine h.caller hspawns (h.stages_of_move x (.started none)
      ⟨?_, Or.inr (drawn_of_next_eq rfl hdrawn)⟩ ?_ fun y => drawn_of_next_eq rfl) rfl rfl ?_
      (.of_append hchildren) ?_ (Or.inl rfl)
    · ext1
      · change s.registry.marks x = (Stage.started none).marks
        rw [hstage.marks]
        simp only [Stage.marks, ne_eq, not_true_eq_false]
      · ext
        · exact iff_of_false (not_does h.spawns rfl hspawn (by decide) (by simp [Pc.doing])) id
        · exact iff_of_true ⟨t, by simp [spawn, Pc.doing]⟩ trivial
        · exact hstage.count
        · refine (or_congr (does_iff_of_same rfl ?_) Iff.rfl).trans hstage.claimed
          simp [hpc, Pc.doing]
      · refine (threads_append hchildren x).trans ?_
        rw [hstage.threads, if_pos rfl]
        rfl
    · intro y hne
      ext1
      · rfl
      · refine calls_goto (c := .spawned x ⟨s.children.length⟩) rfl (fun d => ?_) rfl
        simp [hpc, Pc.doing, hne.symm]
      · refine (threads_append hchildren y).trans ?_
        rw [if_neg hne.symm, List.append_nil]
        rfl
    · intro y j hj
      cases hj
      exact ⟨none, by rw [hchildren, List.getElem?_concat_length]⟩
    · exact fun y j hj => (ChildrenExtend.of_append hchildren).names j y (h.joinableNames y j hj)

/-! ## The end of a creation -/

theorem publish_accounted (h : Accounted s) {joinHandle : JoinHandle}
    (hpc : s.pc t = .spawned x joinHandle)
    (hs' : s' = (s.withRegistry (s.registry.publishLocal x joinHandle)).reply t
      (.created 0 (some x)))
    (hspawns : SpawnsPending s') : Accounted s' := by
  have hdoing : (s.pc t).doing = some (.started, x) := by rw [hpc]; rfl
  have hspawn : (s.pc t).spawn = some x := by rw [hpc]; rfl
  obtain ⟨stage, hstage, hstarted⟩ := at_of_doing h hdoing
  obtain ⟨returned, rfl⟩ := Stage.eq_started (hstage.started.mp hstarted)
  have hdrawn : s.Drawn x := hstage.2.resolve_left (by simp)
  subst hs'
  refine h.caller hspawns (h.stages_of_move x (.opened returned)
    ⟨?_, Or.inr (drawn_of_next_eq rfl hdrawn)⟩ ?_ fun y => drawn_of_next_eq rfl) rfl rfl
    (Pc.no_holds rfl) (.of_eq rfl) ?_ (Or.inr ⟨_, rfl, trivial⟩)
  · ext1
    · refine (PthreadRegistry.marks_publishLocal s.registry x joinHandle).trans ?_
      rw [hstage.marks]
      rfl
    · ext
      · refine (does_iff_of_same rfl ?_).trans hstage.starting
        simp [hpc, Pc.doing]
      · exact iff_of_false (not_does h.spawns rfl hspawn (by decide) (by simp [Pc.doing])) id
      · refine (count_issued_reply (s := s) rfl x).trans ?_
        rw [hstage.count]
        exact congrArg (· + 0) (if_pos rfl)
      · refine (or_congr (does_iff_of_same rfl ?_) ?_).trans hstage.claimed
        · simp [hpc, Pc.doing]
        · exact (replied_reply (s := s) rfl x).trans (or_iff_right (by simp [Reply.claimed]))
    · exact hstage.threads
  · intro y hne
    ext1
    · exact PthreadRegistry.marks_publishLocal_of_ne hne joinHandle
    · refine calls_reply rfl (fun d => ?_) rfl ?_ (by simp [Reply.claimed])
      · simp [hpc, Pc.doing, hne.symm]
      · simp [Reply.issued, hne.symm]
    · rfl
  · intro y j hj
    change Function.update s.registry.joinable x (some joinHandle) y = some j at hj
    by_cases he : y = x
    · subst he
      rw [Function.update_self, Option.some.injEq] at hj
      exact hj ▸ h.heldNames t y joinHandle (by rw [hpc]; rfl)
    · rw [Function.update_of_ne he] at hj
      exact h.joinableNames y j hj

theorem spawnFailed_accounted (h : Accounted s) (hpc : s.pc t = .spawnFailed x)
    (hs' : s' = (s.withRegistry
      { s.registry with localPending := s.registry.localPending.erase x }).reply t
      (.created EAGAIN none))
    (hspawns : SpawnsPending s') : Accounted s' := by
  have hdoing : (s.pc t).doing = some (.starting, x) := by rw [hpc]; rfl
  have hspawn : (s.pc t).spawn = some x := by rw [hpc]; rfl
  obtain ⟨stage, hstage, hstarting⟩ := at_of_doing h hdoing
  cases Stage.eq_starting (hstage.starting.mp hstarting)
  subst hs'
  refine h.caller hspawns (h.stages_of_move x .unused
    ⟨?_, Or.inl rfl⟩ ?_ fun y => drawn_of_next_eq rfl) rfl rfl (Pc.no_holds rfl)
    (.of_eq rfl) h.joinableNames (Or.inr ⟨_, rfl, trivial⟩)
  · ext1
    · refine (PthreadRegistry.marks_erasePending s.registry x).trans ?_
      rw [hstage.marks]
      rfl
    · ext
      · exact iff_of_false (not_does h.spawns rfl hspawn (by decide) (by simp [Pc.doing])) id
      · refine (does_iff_of_same rfl ?_).trans hstage.started
        simp [hpc, Pc.doing]
      · refine (count_issued_reply (s := s) rfl x).trans ?_
        exact (Nat.zero_add _).trans hstage.count
      · refine (or_congr (does_iff_of_same rfl ?_) ?_).trans hstage.claimed
        · simp [hpc, Pc.doing]
        · exact (replied_reply (s := s) rfl x).trans (or_iff_right (by simp [Reply.claimed]))
    · exact hstage.threads
  · intro y hne
    ext1
    · exact PthreadRegistry.marks_erasePending_of_ne hne
    · refine calls_reply rfl (fun d => ?_) rfl (by simp [Reply.issued]) (by simp [Reply.claimed])
      simp [hpc, Pc.doing, hne.symm]
    · rfl

/-! ## The end of a thread -/

omit [DecidableEq T] in
theorem exit_accounted (h : Accounted s) {i : Nat} {value : UInt64}
    (hi : s.children[i]? = some ⟨x, none⟩)
    (hs' : s' = { s with
      registry := s.registry.handleLocalThreadExit x
      children := s.children.set i ⟨x, some value⟩ })
    (hspawns : SpawnsPending s') : Accounted s' := by
  obtain ⟨stage, hstage⟩ := h.stages x
  have hmem : none ∈ s.threads x := mem_threads.mpr (List.mem_of_getElem? hi)
  have hthreads : stage.threads = [none] := by
    rw [hstage.threads] at hmem
    cases stage <;> simp_all [Stage.threads]
  have hext : ChildrenExtend s s' := .of_set (v := value) hi (by rw [hs'])
  have hjoinable : s'.registry.joinable = s.registry.joinable := by
    rw [hs']
    exact (PthreadRegistry.handleLocalThreadExit_local s.registry x).2
  have hpc : s'.pc = s.pc := by rw [hs']
  have hstages : ∀ y, ∃ stage, s'.At y stage :=
    h.stages_of_move x (stage.exited value) ⟨?_, ?_⟩ ?_ fun y => drawn_of_next_eq (by rw [hs'])
  · exact {
      stages := hstages
      spawns := hspawns
      callsLocal := fun t => hpc ▸ h.callsLocal t
      joinableNames := fun y j hj => hext.names j y (h.joinableNames y j (hjoinable ▸ hj))
      heldNames := fun t y j hj => hext.names j y (h.heldNames t y j (hpc ▸ hj))
      answers := fun a ha => (h.answers a (by rwa [hs'] at ha)).mono hext }
  · subst hs'
    ext1
    · exact PthreadRegistry.marks_handleLocalThreadExit hstage.marks hthreads value
    · exact hstage.calls.trans (stage.exited_calls value).symm
    · refine (filter_set_self hi ?_).trans ?_
      · exact hstage.threads.trans hthreads
      · cases stage <;> first | rfl | cases hthreads
  · have hne : stage ≠ .unused := fun he => by rw [he] at hthreads; cases hthreads
    exact Or.inr (drawn_of_next_eq (by rw [hs']) (hstage.2.resolve_left hne))
  · intro y hne
    subst hs'
    ext1
    · exact PthreadRegistry.marks_handleLocalThreadExit_of_ne hne
    · rfl
    · exact congrArg (List.map Child.returned) (filter_set_of_ne hne hi)

/-! ## Joins and detaches -/

omit [DecidableEq T] in
/-- The handle of a join or a detach is opened. -/
theorem Accounted.opened (h : Accounted s) (hissued : x ∈ s.issued) (hclaimed : ¬ s.Claimed x) :
    ∃ returned, s.At x (.opened returned) := by
  obtain ⟨stage, hstage⟩ := h.stages x
  have hcount : stage.calls.issued ≠ 0 := by
    rw [← hstage.count]
    exact Nat.pos_iff_ne_zero.mp (List.count_pos_iff.mpr hissued)
  obtain ⟨returned, rfl⟩ := Stage.opened_of_issued hcount (hstage.claimed.not.mp hclaimed)
  exact ⟨returned, hstage⟩

theorem join_accounted (h : Accounted s) (hidle : s.pc t = .idle)
    {currentThreadId : Option PthreadT} (hissued : x ∈ s.issued) (hclaimed : ¬ s.Claimed x) (hself : currentThreadId ≠ some x)
    (hspawns : SpawnsPending (s.join t currentThreadId x)) :
    Accounted (s.join t currentThreadId x) := by
  obtain ⟨returned, hopened⟩ := h.opened hissued hclaimed
  obtain ⟨joinHandle, hj, htarget⟩ := PthreadRegistry.joinTarget_opened hopened.marks
  have hjoin : s.join t currentThreadId x =
      (s.withRegistry (s.registry.takeJoinable x)).goto t (.joiningLocal x joinHandle) := by
    unfold join
    rw [if_neg hself, htarget]
  have hdrawn : s.Drawn x := hopened.2.resolve_left (by simp)
  rw [hjoin] at hspawns ⊢
  refine h.caller hspawns (h.stages_of_move x (.joined returned)
    ⟨?_, Or.inr (drawn_of_next_eq rfl hdrawn)⟩ ?_ fun y => drawn_of_next_eq rfl) rfl rfl ?_
    (.of_eq rfl) ?_ (Or.inl rfl)
  · ext1
    · exact PthreadRegistry.joinTarget_marks hopened.marks
    · ext
      · refine (does_iff_of_same rfl ?_).trans hopened.starting
        simp [hidle, Pc.doing]
      · refine (does_iff_of_same rfl ?_).trans hopened.started
        simp [hidle, Pc.doing]
      · exact hopened.count
      · exact iff_of_true (Or.inl ⟨t, by simp [goto, Pc.doing]⟩) trivial
    · exact hopened.threads
  · intro y hne
    ext1
    · exact PthreadRegistry.marks_takeJoinable_of_ne hne
    · refine calls_goto (c := .joiningLocal x joinHandle) rfl (fun d => ?_) rfl
      simp [hidle, Pc.doing, hne.symm]
    · rfl
  · intro y j hholds
    cases hholds
    exact h.joinableNames x joinHandle hj
  · intro y j hy
    exact h.joinableNames y j (PthreadRegistry.update_eq_some hy)

theorem detach_accounted (h : Accounted s) (hidle : s.pc t = .idle)
    (hissued : x ∈ s.issued) (hclaimed : ¬ s.Claimed x)
    (hspawns : SpawnsPending (s.detach t x)) : Accounted (s.detach t x) := by
  obtain ⟨returned, hopened⟩ := h.opened hissued hclaimed
  obtain ⟨joinHandle, htarget⟩ := PthreadRegistry.detachTarget_opened hopened.marks
  have hdetach : s.detach t x =
      (s.withRegistry (s.registry.detachJoinable x)).reply t (.detached x 0) := by
    unfold detach
    rw [htarget]
  have hdrawn : s.Drawn x := hopened.2.resolve_left (by simp)
  rw [hdetach] at hspawns ⊢
  refine h.caller hspawns (h.stages_of_move x (.detached returned)
    ⟨?_, Or.inr (drawn_of_next_eq rfl hdrawn)⟩ ?_ fun y => drawn_of_next_eq rfl) rfl rfl
    (Pc.no_holds rfl) (.of_eq rfl) ?_ (Or.inr ⟨_, rfl, trivial⟩)
  · ext1
    · exact PthreadRegistry.detachTarget_marks hopened.marks
    · ext
      · refine (does_iff_of_same rfl ?_).trans hopened.starting
        simp [hidle, Pc.doing]
      · refine (does_iff_of_same rfl ?_).trans hopened.started
        simp [hidle, Pc.doing]
      · refine (count_issued_reply (s := s) rfl x).trans ?_
        exact (Nat.zero_add _).trans hopened.count
      · exact iff_of_true (Or.inr ((replied_reply (s := s) rfl x).mpr (Or.inl rfl))) trivial
    · exact hopened.threads
  · intro y hne
    ext1
    · exact PthreadRegistry.marks_detachJoinable_of_ne hne
    · refine calls_reply rfl (fun d => ?_) rfl (by simp [Reply.issued]) ?_
      · simp [hidle, Pc.doing]
      · simp [Reply.claimed, hne.symm]
    · rfl
  · intro y j hy
    exact h.joinableNames y j (PthreadRegistry.update_eq_some hy)

theorem finishJoinLocal_accounted (h : Accounted s) {joinHandle : JoinHandle}
    (hpc : s.pc t = .joiningLocal x joinHandle) (hspawns : SpawnsPending s')
    (hs : s.finishJoinLocal t x joinHandle = some s') : Accounted s' := by
  obtain ⟨returned, hchild⟩ := h.heldNames t x joinHandle (by rw [hpc]; rfl)
  unfold finishJoinLocal at hs
  rw [hchild] at hs
  cases returned with
  | none => cases hs
  | some value =>
    cases hs
    refine h.caller hspawns ?_ rfl rfl (Pc.no_holds rfl) (.of_eq rfl) h.joinableNames
      (Or.inr ⟨_, rfl, rfl, value, rfl, List.mem_of_getElem? hchild⟩)
    intro y
    refine (h.stages y).imp fun stage hy => hy.of_view_eq ?_ (drawn_of_next_eq rfl)
    ext1
    · rfl
    · by_cases he : y = x
      · subst he
        ext
        · refine does_iff_of_same rfl ?_
          simp [hpc, Pc.doing]
        · refine does_iff_of_same rfl ?_
          simp [hpc, Pc.doing]
        · exact (count_issued_reply (s := s) rfl y).trans (Nat.zero_add _)
        · refine iff_of_true (Or.inr ((replied_reply (s := s) rfl y).mpr (Or.inl rfl))) ?_
          exact Or.inl ⟨t, by rw [hpc]; rfl⟩
      · refine calls_reply rfl (fun d => ?_) rfl (by simp [Reply.issued]) ?_
        · simp [hpc, Pc.doing, Ne.symm he]
        · simp [Reply.claimed, Ne.symm he]
    · rfl

/-! ## Whole runs -/

theorem create_accounted (h : Accounted s) (hidle : s.pc t = .idle) {threadIsNull hasStart : Bool}
    {attr : Option (List UInt8)} {hostResult : Int} {hostThread : PthreadT}
    (hattr : ∀ payload, attr = some payload → isZeroedAttrPayload payload)
    (hnext : threadIsNull = false → hasStart = true → s.nextThreadId ≠ 0)
    (hspawns : SpawnsPending s')
    (hs : s.create t threadIsNull hasStart attr hostResult hostThread = some s') :
    Accounted s' := by
  unfold create at hs
  cases threadIsNull with
  | true =>
    cases hs
    exact reply_accounted h hidle hspawns rfl rfl trivial
  | false =>
    cases hasStart with
    | false =>
      cases hs
      exact reply_accounted h hidle hspawns rfl rfl trivial
    | true =>
      have hnext := hnext rfl rfl
      cases attr with
      | none => exact spawnLocalThread_accounted h hidle hnext hspawns hs
      | some payload =>
        simp only [hattr payload rfl, if_true] at hs
        exact spawnLocalThread_accounted h hidle hnext hspawns hs

/-- Every step of such a run moves at most one handle on. -/
theorem step_accounted (h : Accounted s) {l : LifecycleLabel T} (honce : OnceEach s l)
    (hwrap : BeforeWrap s l) (hs : s.step l = some s') : Accounted s' := by
  have hspawns := step_spawnsPending h.spawns hs
  cases l with
  | create t threadIsNull hasStart attr hostResult hostThread =>
    simp only [step, Option.ite_none_right_eq_some] at hs
    exact create_accounted h hs.1 honce hwrap hspawns hs.2
  | spawn t ok =>
    simp only [step] at hs
    split at hs
    · rename_i thread hpc
      cases hs
      exact spawn_accounted h hpc ok hspawns
    · cases hs
  | finishSpawn t =>
    simp only [step] at hs
    split at hs
    · rename_i thread joinHandle hpc
      exact publish_accounted h hpc (Option.some.inj hs).symm hspawns
    · rename_i thread hpc
      exact spawnFailed_accounted h hpc (Option.some.inj hs).symm hspawns
    · cases hs
  | publish t =>
    simp only [step] at hs
    split at hs
    · rename_i thread hpc
      have hlocal := h.callsLocal t
      rw [hpc] at hlocal
      cases hlocal
    · cases hs
  | exit child value =>
    simp only [step, exit] at hs
    split at hs
    · rename_i thread hchild
      exact exit_accounted h hchild (Option.some.inj hs).symm hspawns
    · cases hs
  | join t currentThreadId thread =>
    simp only [step, Option.ite_none_right_eq_some, Option.some.injEq] at hs
    rw [← hs.2] at hspawns ⊢
    exact join_accounted h hs.1 honce.1 honce.2.1 honce.2.2 hspawns
  | detach t thread =>
    simp only [step, Option.ite_none_right_eq_some, Option.some.injEq] at hs
    rw [← hs.2] at hspawns ⊢
    exact detach_accounted h hs.1 honce.1 honce.2 hspawns
  | finishJoinLocal t =>
    simp only [step] at hs
    split at hs
    · rename_i thread joinHandle hpc
      exact finishJoinLocal_accounted h hpc hspawns hs
    · cases hs
  | finishNative t hostResult =>
    have hlocal := h.callsLocal t
    simp only [step] at hs
    split at hs
    · rename_i thread hpc
      rw [hpc] at hlocal
      cases hlocal
    · rename_i thread hpc
      rw [hpc] at hlocal
      cases hlocal
    · cases hs
  | finishUnknown t =>
    have hlocal := h.callsLocal t
    simp only [step] at hs
    split at hs
    · rename_i thread hpc
      rw [hpc] at hlocal
      cases hlocal
    · cases hs

omit [DecidableEq T] in
theorem initial_accounted : Accounted (initial : Lifecycle T) where
  stages := by
    intro x
    refine ⟨.unused, ?_, Or.inl rfl⟩
    ext <;> simp [initial, view, PthreadRegistry.marks, PthreadRegistry.empty, calls, Does, Claimed,
      Replied, issued, threads, Pc.doing, Stage.view, Stage.marks, Stage.calls, Stage.threads,
      PthreadRegistry.containsJoinable]
  spawns := initial_spawnsPending
  callsLocal := fun _ => rfl
  joinableNames := fun _ _ hj => by cases hj
  heldNames := fun _ _ _ hj => by cases hj
  answers := fun _ ha => by cases ha

end Lifecycle

end Rlibc.Pthread
