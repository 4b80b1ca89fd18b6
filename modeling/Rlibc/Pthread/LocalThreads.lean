import Rlibc.Pthread.ThreadAccounts

/-!
# No local thread is lost, and none leaves an entry behind

What the registry holds at any time, and what is left of it in the end, is read off the stages of
the handles.  All of it rests on `NEXT_THREAD_ID` not having come round: from then on a handle
that nobody holds any more is given out a second time.
-/

namespace Rlibc.Pthread

namespace Lifecycle

variable {T : Type*} [DecidableEq T] {s s' : Lifecycle T} {x : PthreadT}

/-- No thread is being created, and every thread has exited and was joined or detached. -/
def Settled (s : Lifecycle T) : Prop :=
  (∀ t, (s.pc t).spawn = none) ∧
    ∀ child ∈ s.children, child.returned ≠ none ∧ s.Claimed child.threadId

/-- Nothing is lost, and nothing is left over. -/
structure Kept (s : Lifecycle T) : Prop where
  distinct : s.issued.Nodup
  nonzero : 0 ∉ s.issued
  finished : ∀ x ∈ s.registry.finished,
    s.registry.containsJoinable x ∨ x ∈ s.registry.localPending
  detached : ∀ x ∈ s.registry.detached, ⟨x, none⟩ ∈ s.children
  /-- A join answers with the value of the one thread that ran under the handle. -/
  joins : ∀ t thread code value, (t, Reply.joined thread code value) ∈ s.replies →
    code = 0 ∧ ∃ v, value = some v ∧ s.threads thread = [some v]
  known : ∀ t thread code, (t, Reply.unknown thread code) ∉ s.replies
  /-- A join in progress waits for its thread alone. -/
  returns : ∀ t x, (s.pc t).doing = some (.claiming, x) → ∀ v, s.threads x = [some v] →
    s.step (.finishJoinLocal t) = some (s.reply t (.joined x 0 (some v)))
  empty : s.Settled → s.registry.joinable = (fun _ => none) ∧ s.registry.localPending = ∅ ∧
    s.registry.finished = ∅ ∧ s.registry.detached = ∅

/-! ## What the stages say -/

omit [DecidableEq T] in
theorem Accounted.threads_eq (h : Accounted s) {v : UInt64} (hv : ⟨x, some v⟩ ∈ s.children) :
    s.threads x = [some v] := by
  obtain ⟨stage, hstage⟩ := h.stages x
  have hmem := mem_threads.mpr hv
  rw [hstage.threads] at hmem ⊢
  cases stage with
  | unused => cases hmem
  | starting => cases hmem
  | _ returned => rw [Stage.threads, List.mem_singleton.mp hmem]

omit [DecidableEq T] in
/-- In a settled state every handle is unused, or joined or detached after its thread's end. -/
theorem Settled.marks (hsettled : s.Settled) {stage : Stage} (hstage : s.At x stage) :
    stage.marks = Stage.unused.marks := by
  have hthread : ∀ returned, returned ∈ stage.threads → returned ≠ none ∧ stage.calls.claimed := by
    intro returned hr
    rw [← hstage.threads] at hr
    have hchild := hsettled.2 _ (mem_threads.mp hr)
    exact ⟨hchild.1, hstage.claimed.mp hchild.2⟩
  cases stage with
  | unused => rfl
  | starting =>
    obtain ⟨t, ht⟩ := hstage.starting.mpr trivial
    have hidle := hsettled.1 t
    cases hp : s.pc t <;> simp_all [Pc.doing, Pc.spawn]
  | started returned => exact absurd (hthread returned List.mem_cons_self).2 id
  | opened returned => exact absurd (hthread returned List.mem_cons_self).2 id
  | joined returned => rfl
  | detached returned =>
    have hreturned := (hthread returned List.mem_cons_self).1
    simp only [Stage.marks, hreturned]

theorem kept_of_accounted (h : Accounted s) : Kept s where
  distinct := by
    rw [List.nodup_iff_count_le_one]
    intro x
    obtain ⟨stage, hstage⟩ := h.stages x
    rw [hstage.count]
    cases stage <;> simp [Stage.calls]
  nonzero := by
    intro hzero
    obtain ⟨stage, hstage⟩ := h.stages 0
    have hcount := List.count_pos_iff.mpr hzero
    rw [hstage.count] at hcount
    cases hstage.2 with
    | inl hunused => rw [hunused] at hcount; exact absurd hcount (Nat.lt_irrefl 0)
    | inr hdrawn => exact hdrawn.1 rfl
  finished := by
    intro x hx
    obtain ⟨stage, hstage⟩ := h.stages x
    have hfinished : (x ∈ s.registry.finished) = stage.marks.finished :=
      congrArg Marks.finished hstage.marks
    have hjoinable : s.registry.containsJoinable x = stage.marks.joinable :=
      congrArg Marks.joinable hstage.marks
    have hpending : (x ∈ s.registry.localPending) = stage.marks.pending :=
      congrArg Marks.pending hstage.marks
    rw [hfinished] at hx
    rw [hjoinable, hpending]
    cases stage with
    | started returned => exact Or.inr trivial
    | opened returned => exact Or.inl trivial
    | _ => exact absurd hx id
  detached := by
    intro x hx
    obtain ⟨stage, hstage⟩ := h.stages x
    have hdetached : (x ∈ s.registry.detached) = stage.marks.detached :=
      congrArg Marks.detached hstage.marks
    rw [hdetached] at hx
    rw [← mem_threads, hstage.threads]
    cases stage with
    | detached returned => exact List.mem_singleton.mpr (Eq.symm hx)
    | _ => exact absurd hx id
  joins := by
    intro t thread code value ha
    obtain ⟨hcode, v, hvalue, hv⟩ := h.answers _ ha
    exact ⟨hcode, v, hvalue, h.threads_eq hv⟩
  known := fun t thread code ha => h.answers _ ha
  returns := by
    intro t x hdoing v hv
    obtain ⟨joinHandle, hpc⟩ := Pc.joiningLocal_of_claiming (h.callsLocal t) hdoing
    obtain ⟨returned, hchild⟩ := h.heldNames t x joinHandle (by rw [hpc]; rfl)
    have hreturned := mem_threads.mpr (List.mem_of_getElem? hchild)
    rw [hv, List.mem_singleton] at hreturned
    simp only [step, hpc, finishJoinLocal, hchild, hreturned]
  empty := by
    intro hsettled
    have hmarks : ∀ x, s.registry.marks x = Stage.unused.marks := by
      intro x
      obtain ⟨stage, hstage⟩ := h.stages x
      exact hstage.marks.trans (hsettled.marks hstage)
    refine ⟨funext fun x => ?_, ?_, ?_, ?_⟩
    · exact Option.not_isSome_iff_eq_none.mp (of_eq_false (congrArg Marks.joinable (hmarks x)))
    · exact Finset.eq_empty_of_forall_notMem fun x =>
        of_eq_false (congrArg Marks.pending (hmarks x))
    · exact Finset.eq_empty_of_forall_notMem fun x =>
        of_eq_false (congrArg Marks.finished (hmarks x))
    · exact Finset.eq_empty_of_forall_notMem fun x =>
        of_eq_false (congrArg Marks.detached (hmarks x))

/-- The gates together keep the invariant. -/
theorem run_accounted {ls : List (LifecycleLabel T)}
    (honce : Lts.EachStep step OnceEach initial ls)
    (hwrap : Lts.EachStep step BeforeWrap initial ls) : Lts.Always step Accounted initial ls :=
  Lts.always_of_eachStep (fun _ _ _ h hgate hs => step_accounted h hgate.1 hgate.2 hs)
    initial_accounted (Lts.eachStep_and.mpr ⟨honce, hwrap⟩)

/-- **In every run that joins or detaches each handle once, and draws its handles before
`NEXT_THREAD_ID` comes round, no thread is lost and no entry is left.** -/
theorem local_threads_kept (ls : List (LifecycleLabel T))
    (honce : Lts.EachStep step OnceEach initial ls)
    (hwrap : Lts.EachStep step BeforeWrap initial ls) : Lts.Always step Kept initial ls :=
  (run_accounted honce hwrap).imp fun _ => kept_of_accounted

/-! ## A run of one caller -/

/-- The caller creates a thread, which returns 7 before its handle is published, and joins it. -/
def oneThread : List (LifecycleLabel (Fin 1)) :=
  [.create 0 false true none 0 0, .spawn 0 true, .exit 0 7, .finishSpawn 0, .join 0 none 1,
    .finishJoinLocal 0]

/-- A null `attr` has no bytes. -/
theorem no_attr (payload : List UInt8) (h : none = some payload) : isZeroedAttrPayload payload := by
  cases h

theorem oneThread_onceEach : Lts.EachStep step OnceEach initial oneThread := by
  refine (Lts.eachStep_cons rfl).mpr ⟨no_attr, ?_⟩
  refine (Lts.eachStep_cons rfl).mpr ⟨trivial, ?_⟩
  refine (Lts.eachStep_cons rfl).mpr ⟨trivial, ?_⟩
  refine (Lts.eachStep_cons rfl).mpr ⟨trivial, ?_⟩
  refine (Lts.eachStep_cons rfl).mpr ⟨⟨by decide, ?_, by decide⟩, ?_⟩
  · unfold Claimed Does Replied
    decide
  · exact (Lts.eachStep_cons rfl).mpr ⟨trivial, trivial⟩

theorem oneThread_beforeWrap : Lts.EachStep step BeforeWrap initial oneThread := by
  refine (Lts.eachStep_cons rfl).mpr ⟨fun _ _ => by decide, ?_⟩
  refine (Lts.eachStep_cons rfl).mpr ⟨trivial, ?_⟩
  refine (Lts.eachStep_cons rfl).mpr ⟨trivial, ?_⟩
  refine (Lts.eachStep_cons rfl).mpr ⟨trivial, ?_⟩
  refine (Lts.eachStep_cons rfl).mpr ⟨trivial, ?_⟩
  exact (Lts.eachStep_cons rfl).mpr ⟨trivial, trivial⟩

theorem local_threads_kept_oneThread : Lts.Always step Kept initial oneThread :=
  local_threads_kept oneThread oneThread_onceEach oneThread_beforeWrap

/-! ## After the wrap -/

omit [DecidableEq T] in
/-- In a settled state every handle but 0 may be issued again. -/
theorem Settled.not_taken (hsettled : s.Settled) (h : Accounted s) (hx : x ≠ 0) :
    ¬ s.registry.Taken x := by
  obtain ⟨stage, hstage⟩ := h.stages x
  exact PthreadRegistry.not_taken_of_unused hx (hstage.marks.trans (hsettled.marks hstage))

theorem oneThread_run : ∃ s : Lifecycle (Fin 1), Lts.run step initial oneThread = some s ∧
    s.issued = [1] ∧ s.pc 0 = .idle ∧ s.nextThreadId = 2 ∧ s.Settled := by
  refine ⟨_, rfl, rfl, rfl, rfl, by decide, ?_⟩
  unfold Claimed Does Replied
  decide

/-- A thread that cannot be spawned uses up a handle. -/
def failedSpawn : List (LifecycleLabel (Fin 1)) :=
  [.create 0 false true none 0 0, .spawn 0 false, .finishSpawn 0]

theorem step_create {s : Lifecycle (Fin 1)} (hidle : s.pc 0 = .idle) {thread next : UInt64}
    (halloc : s.registry.allocateThreadId 0x10000000000000000 s.nextThreadId =
      some (thread, next)) :
    s.step (.create 0 false true none 0 0) = some (s.draw 0 thread next) := by
  rw [step, if_pos hidle]
  exact spawnLocalThread_eq halloc

theorem failedSpawn_run {s : Lifecycle (Fin 1)} (hidle : s.pc 0 = .idle)
    (hfree : ¬ s.registry.Taken s.nextThreadId) :
    ∃ s', Lts.run step s failedSpawn = some s' ∧ s'.registry = s.registry ∧ s'.pc 0 = .idle ∧
      s'.issued = s.issued ∧ s'.nextThreadId = s.nextThreadId + 1 := by
  have hpending : s.nextThreadId ∉ s.registry.localPending :=
    fun h => hfree (Or.inr (Or.inr (Or.inl h)))
  have hcreate := step_create hidle (allocate_fresh hfree)
  have hspawn : (s.draw 0 s.nextThreadId (s.nextThreadId + 1)).step (.spawn 0 false) =
      some ((s.draw 0 s.nextThreadId (s.nextThreadId + 1)).goto 0
        (.spawnFailed s.nextThreadId)) := by
    simp only [step, draw, Function.update_self]
    rfl
  have hfinish : ((s.draw 0 s.nextThreadId (s.nextThreadId + 1)).goto 0
      (.spawnFailed s.nextThreadId)).step (.finishSpawn 0) =
      some (((s.draw 0 s.nextThreadId (s.nextThreadId + 1)).withRegistry s.registry).reply 0
        (.created EAGAIN none)) := by
    simp only [step, goto, Function.update_self, Option.some.injEq]
    simp only [draw, withRegistry, reply, Finset.erase_insert hpending, Function.update_idem]
  have hrun := (Lts.run_cons_of_step hcreate _).trans
    ((Lts.run_cons_of_step hspawn _).trans (Lts.run_cons_of_step hfinish []))
  exact ⟨_, hrun, rfl, rfl, rfl, rfl⟩

theorem failedSpawns_run (n : Nat) {s : Lifecycle (Fin 1)} (hidle : s.pc 0 = .idle)
    (hfree : ∀ x, x ≠ 0 → ¬ s.registry.Taken x) (hnext : s.nextThreadId ≠ 0)
    (hn : s.nextThreadId.toNat + n ≤ 0x10000000000000000) :
    ∃ s', Lts.run step s (List.replicate n failedSpawn).flatten = some s' ∧
      s'.registry = s.registry ∧ s'.pc 0 = .idle ∧ s'.issued = s.issued ∧
      s'.nextThreadId.toNat = (s.nextThreadId.toNat + n) % 0x10000000000000000 := by
  induction n generalizing s with
  | zero =>
    refine ⟨s, rfl, rfl, hidle, rfl, ?_⟩
    rw [Nat.add_zero, Nat.mod_eq_of_lt (UInt64.toNat_lt s.nextThreadId)]
  | succ n ih =>
    obtain ⟨s₁, hrun₁, hregistry₁, hidle₁, hissued₁, hnext₁⟩ :=
      failedSpawn_run hidle (hfree _ hnext)
    have hwrap : s₁.nextThreadId.toNat =
        (s.nextThreadId.toNat + 1) % 0x10000000000000000 := by
      rw [hnext₁]
      exact UInt64.toNat_add s.nextThreadId 1
    rw [List.replicate_succ, List.flatten_cons, Lts.run_append, hrun₁, Option.bind_some]
    by_cases hlast : s₁.nextThreadId = 0
    · have hzero : s₁.nextThreadId.toNat = 0 := by rw [hlast]; rfl
      have hn0 : n = 0 := by omega
      subst hn0
      exact ⟨s₁, rfl, hregistry₁, hidle₁, hissued₁, hwrap⟩
    · have hpos : s₁.nextThreadId.toNat ≠ 0 := fun h => hlast (UInt64.toNat.inj h)
      have hlt := UInt64.toNat_lt s.nextThreadId
      obtain ⟨s', hrun, hregistry, hidle', hissued, hnext'⟩ :=
        ih hidle₁ (fun x hx => hregistry₁ ▸ hfree x hx) hlast (by omega)
      refine ⟨s', hrun, hregistry.trans hregistry₁, hidle', hissued.trans hissued₁, ?_⟩
      omega

/-- The same caller creates a second thread. -/
def secondThread : List (LifecycleLabel (Fin 1)) :=
  [.create 0 false true none 0 0, .spawn 0 true, .finishSpawn 0]

/-- From a `NEXT_THREAD_ID` of 0 on, the handle 1 is given out again. -/
theorem secondThread_run {s : Lifecycle (Fin 1)} (hidle : s.pc 0 = .idle)
    (hfree : ∀ x, x ≠ 0 → ¬ s.registry.Taken x) (hnext : s.nextThreadId = 0) :
    ∃ s', Lts.run step s secondThread = some s' ∧ s'.issued = 1 :: s.issued := by
  have htaken : s.registry.Taken 0 := Or.inl rfl
  have halloc : s.registry.allocateThreadId 0x10000000000000000 s.nextThreadId =
      some (1, 2) := by
    rw [hnext]
    change s.registry.allocateThreadId (0xFFFFFFFFFFFFFFFE + 1 + 1) 0 = _
    rw [PthreadRegistry.allocateThreadId, if_pos htaken]
    exact PthreadRegistry.allocateThreadId_fresh (hfree 1 (by decide)) 0xFFFFFFFFFFFFFFFE
  have hspawn : (s.draw 0 1 2).step (.spawn 0 true) = some ((s.draw 0 1 2).spawn 0 1 true) := by
    simp only [step, draw, Function.update_self]
  have hfinish : ((s.draw 0 1 2).spawn 0 1 true).step (.finishSpawn 0) =
      some ((((s.draw 0 1 2).spawn 0 1 true).withRegistry
        ((s.draw 0 1 2).registry.publishLocal 1 ⟨s.children.length⟩)).reply 0
        (.created 0 (some 1))) := by
    simp only [step, spawn, if_true, Function.update_self]
    rfl
  have hrun := (Lts.run_cons_of_step (step_create hidle halloc) _).trans
    ((Lts.run_cons_of_step hspawn _).trans (Lts.run_cons_of_step hfinish []))
  exact ⟨_, hrun, rfl⟩

theorem creation_onceEach (s : Lifecycle (Fin 1)) (l : LifecycleLabel (Fin 1))
    (hl : l ∈ failedSpawn ∨ l ∈ secondThread) : OnceEach s l := by
  simp only [failedSpawn, secondThread, List.mem_cons, List.not_mem_nil, or_false] at hl
  rcases hl with (rfl | rfl | rfl) | rfl | rfl | rfl
  · exact no_attr
  · exact trivial
  · exact trivial
  · exact no_attr
  · exact trivial
  · exact trivial

/-- `NEXT_THREAD_ID` comes round while nobody holds a handle. -/
def wrapAround : List (LifecycleLabel (Fin 1)) :=
  oneThread ++ ((List.replicate 0xFFFFFFFFFFFFFFFE failedSpawn).flatten ++ secondThread)

theorem handle_issued_twice :
    ¬ ∀ ls : List (LifecycleLabel (Fin 1)), Lts.EachStep step OnceEach initial ls →
      Lts.Always step Kept initial ls := by
  intro hall
  obtain ⟨s₁, hrun₁, hissued₁, hidle₁, hnext₁, hsettled⟩ := oneThread_run
  have haccounted := (run_accounted oneThread_onceEach oneThread_beforeWrap).last hrun₁
  have hfree : ∀ x, x ≠ 0 → ¬ s₁.registry.Taken x := fun x => hsettled.not_taken haccounted
  obtain ⟨s₂, hrun₂, hregistry₂, hidle₂, hissued₂, hnext₂⟩ :=
    failedSpawns_run 0xFFFFFFFFFFFFFFFE hidle₁ hfree (by rw [hnext₁]; decide)
      (by rw [hnext₁]; decide)
  have hzero : s₂.nextThreadId = 0 := UInt64.toNat.inj (by rw [hnext₂, hnext₁]; decide)
  obtain ⟨s₃, hrun₃, hissued₃⟩ :=
    secondThread_run hidle₂ (fun x hx => hregistry₂ ▸ hfree x hx) hzero
  -- creations alone are always allowed
  have hcreates : ∀ s : Lifecycle (Fin 1), Lts.EachStep step OnceEach s
      ((List.replicate 0xFFFFFFFFFFFFFFFE failedSpawn).flatten ++ secondThread) := by
    intro s
    refine Lts.EachStep.imp (Q := fun _ l => ∀ s, OnceEach s l) (fun s l h => h s)
      (Lts.eachStep_of_labels s fun l hl s => ?_)
    rw [List.mem_append, List.mem_flatten] at hl
    cases hl with
    | inl hl =>
      obtain ⟨ls, hls, hl⟩ := hl
      rw [List.eq_of_mem_replicate hls] at hl
      exact creation_onceEach s l (Or.inl hl)
    | inr hl => exact creation_onceEach s l (Or.inr hl)
  have hgate : Lts.EachStep step OnceEach initial wrapAround :=
    Lts.eachStep_append hrun₁ oneThread_onceEach (hcreates s₁)
  have hrun : Lts.run step initial wrapAround = some s₃ := by
    rw [wrapAround, Lts.run_append, hrun₁, Option.bind_some, Lts.run_append, hrun₂,
      Option.bind_some, hrun₃]
  have hkept := ((hall wrapAround hgate).last hrun).distinct
  rw [hissued₃, hissued₂, hissued₁] at hkept
  exact absurd hkept (by decide)

end Lifecycle

end Rlibc.Pthread
