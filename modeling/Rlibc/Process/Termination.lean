import Mathlib.Data.List.Nodup
import Mathlib.Data.List.Range
import Rlibc.Process.Startup

/-!
# The two ways out of a process

Whether `main` returns or calls `exit` should not matter for what teardown does.  The two paths
share the drain of the handlers; only the one through startup runs the destructor array.
-/

namespace Rlibc.Process

variable {W : Type}

/-- The calls of teardown: handlers and destructors. -/
def Event.isTeardown : Event → Bool
  | .handler _ | .destructor _ => true
  | .registered _ | .constructor _ => false

def Outcome.teardown (o : Outcome) : List Event := o.log.filter Event.isTeardown

/-- A slot of an array that holds a function to call. -/
def Program.CallableSlot (p : Program W) (range : InitFiniRange) (index : Nat) : Prop :=
  index < range.entryCount ∧ p.readArrayEntry range.start index ≠ none

/-- Each destructor and each registered handler has run exactly once. -/
structure Outcome.Complete (p : Program W) (fini : InitFiniRange) (o : Outcome) : Prop where
  destructors : ∀ index, p.CallableSlot fini index → o.log.count (.destructor index) = 1
  handlers : ∀ handler, o.log.count (.handler handler) = o.log.count (.registered handler)

/-- The same teardown, in the same order, and the same status. -/
structure PathIndependent (p : Program W) (fini : InitFiniRange) (returned exited : Outcome) :
    Prop where
  teardown : returned.teardown = exited.teardown
  status : returned.status = exited.status
  returnedComplete : returned.Complete p fini
  exitedComplete : exited.Complete p fini

/-! ## Which steps log a destructor -/

theorem Registry.record_destructors (r : Registry) (event : Event) (index : Nat) :
    (r.record event).log.count (.destructor index) =
      r.log.count (.destructor index) + if event = .destructor index then 1 else 0 := by
  show (r.log ++ [event]).count _ = _
  rw [List.count_append, List.count_singleton]
  by_cases hsame : event = .destructor index
  · rw [if_pos hsame, if_pos (by simpa using hsame)]
  · rw [if_neg hsame, if_neg (by simpa using hsame)]

theorem Registry.atexit_destructors (r : Registry) (function : Option Nat) (index : Nat) :
    (r.atexit function).2.log.count (.destructor index) = r.log.count (.destructor index) := by
  cases function with
  | none => rfl
  | some handler =>
    unfold Registry.atexit
    dsimp only
    split
    · rfl
    · rw [Registry.record_destructors, if_neg Event.noConfusion, Nat.add_zero]

theorem Code.run_destructors {α : Type} (c : Code α) (r : Registry) (index : Nat) :
    (c.run r).2.log.count (.destructor index) = r.log.count (.destructor index) := by
  induction c generalizing r with
  | done value => rfl
  | atexit function next ih => exact (ih _ _).trans (r.atexit_destructors function index)

theorem Program.call_destructors (p : Program W) (function : Nat) (event : Event) (s : State W)
    (index : Nat) :
    (p.call function event s).registry.log.count (.destructor index) =
      s.registry.log.count (.destructor index) + if event = .destructor index then 1 else 0 :=
  (Code.run_destructors _ _ index).trans (s.registry.record_destructors event index)

/-- The drain of the handlers runs no destructor. -/
theorem Program.runAtexitHandlers_destructors (p : Program W) {fuel : Nat} {s s' : State W}
    (hrun : p.runAtexitHandlers fuel s = some s') (index : Nat) :
    s'.registry.log.count (.destructor index) = s.registry.log.count (.destructor index) := by
  induction fuel generalizing s with
  | zero => cases hrun
  | succ fuel ih =>
    unfold runAtexitHandlers at hrun
    split at hrun
    · rw [Option.some.inj hrun]
    · rw [ih hrun, p.call_destructors, if_neg Event.noConfusion, Nat.add_zero]

/-- One turn over an array logs a destructor where the array is walked for destructors. -/
theorem Program.callEntry_destructors (p : Program W) (start : Nat) (event : Nat → Event)
    (s : State W) (slot index : Nat) :
    (p.callEntry start event s slot).registry.log.count (.destructor index) =
      s.registry.log.count (.destructor index) +
        if p.readArrayEntry start slot ≠ none ∧ event slot = .destructor index then 1 else 0 := by
  unfold callEntry
  cases hread : p.readArrayEntry start slot with
  | none => rw [if_neg (fun h => h.1 rfl), Nat.add_zero]
  | some function =>
    rw [p.call_destructors]
    by_cases hsame : event slot = .destructor index
    · rw [if_pos hsame, if_pos ⟨Option.some_ne_none _, hsame⟩]
    · rw [if_neg hsame, if_neg (fun h => hsame h.2)]

/-- Constructors are not destructors. -/
theorem Program.runInitArrayRange_destructors (p : Program W) (range : InitFiniRange)
    (s : State W) (index : Nat) :
    (p.runInitArrayRange range s).registry.log.count (.destructor index) =
      s.registry.log.count (.destructor index) := by
  unfold runInitArrayRange
  generalize List.range range.entryCount = slots
  induction slots generalizing s with
  | nil => rfl
  | cons slot slots ih =>
    rw [List.foldl_cons, ih, p.callEntry_destructors, if_neg (fun h => by cases h.2), Nat.add_zero]

/-- A walk over slots logs the destructor of a callable slot as often as it passes there. -/
theorem Program.foldl_callEntry_destructors (p : Program W) (start : Nat) (slots : List Nat)
    (s : State W) {index : Nat} (hcallable : p.readArrayEntry start index ≠ none) :
    (slots.foldl (p.callEntry start .destructor) s).registry.log.count (.destructor index) =
      s.registry.log.count (.destructor index) + slots.count index := by
  induction slots generalizing s with
  | nil => rfl
  | cons slot slots ih =>
    rw [List.foldl_cons, ih, p.callEntry_destructors, List.count_cons]
    by_cases hsame : slot = index
    · rw [if_pos ⟨hsame ▸ hcallable, by rw [hsame]⟩, if_pos (by simpa using hsame)]
      omega
    · rw [if_neg (fun h => hsame (Event.destructor.inj h.2)), if_neg (by simpa using hsame)]
      omega

/-- `run_fini_array_range` runs the destructor of each callable slot once. -/
theorem Program.runFiniArrayRange_once (p : Program W) {range : InitFiniRange} (s : State W)
    {index : Nat} (hslot : p.CallableSlot range index) :
    (p.runFiniArrayRange range s).registry.log.count (.destructor index) =
      s.registry.log.count (.destructor index) + 1 := by
  have honce : (List.range range.entryCount).reverse.count index = 1 := by
    rw [List.count_reverse]
    exact List.count_eq_one_of_mem List.nodup_range (List.mem_range.mpr hslot.1)
  unfold runFiniArrayRange
  rw [p.foldl_callEntry_destructors _ _ _ hslot.2, honce]

/-- Without a callable slot it runs nothing. -/
theorem Program.runFiniArrayRange_of_not_callable (p : Program W) {range : InitFiniRange}
    (h : ∀ index, ¬p.CallableSlot range index) (s : State W) :
    p.runFiniArrayRange range s = s := by
  have hskip : ∀ slots : List Nat, (∀ slot ∈ slots, slot < range.entryCount) →
      slots.foldl (p.callEntry range.start .destructor) s = s := by
    intro slots hslots
    induction slots with
    | nil => rfl
    | cons slot slots ih =>
      have hnone : p.readArrayEntry range.start slot = none :=
        Classical.byContradiction fun hread => h slot ⟨hslots slot List.mem_cons_self, hread⟩
      rw [List.foldl_cons]
      unfold callEntry
      rw [hnone]
      exact ih fun slot' hmem => hslots slot' (List.mem_cons_of_mem _ hmem)
  exact hskip _ fun slot hmem => List.mem_range.mp (List.mem_reverse.mp hmem)

/-! ## The balance of handlers up to `exit` -/

theorem Program.call_balanced (p : Program W) (function : Nat) {event : Event} {s : State W}
    (h : s.registry.Balanced) (hregistered : ∀ handler, event ≠ .registered handler)
    (hhandler : ∀ handler, event ≠ .handler handler) :
    (p.call function event s).registry.Balanced :=
  Code.run_balanced _ (h.record hregistered hhandler)

/-- A walk over an array keeps the balance. -/
theorem Program.foldl_callEntry_balanced (p : Program W) (start : Nat) {event : Nat → Event}
    (hregistered : ∀ slot handler, event slot ≠ .registered handler)
    (hhandler : ∀ slot handler, event slot ≠ .handler handler) (slots : List Nat) {s : State W}
    (h : s.registry.Balanced) :
    (slots.foldl (p.callEntry start event) s).registry.Balanced := by
  induction slots generalizing s with
  | nil => exact h
  | cons slot slots ih =>
    rw [List.foldl_cons]
    refine ih ?_
    unfold callEntry
    split
    · exact h
    · exact p.call_balanced _ h (hregistered slot) (hhandler slot)

/-- What `main` leaves behind: a balanced registry, and no destructor run. -/
theorem Program.runMain_registry (p : Program W) (main : Int → Nat → Nat → W → Code (Int × W))
    (args : StartupArgs) (init : InitFiniRange) (world : W) :
    (p.runMain main args init ⟨world, ⟨[], []⟩⟩).2.registry.Balanced ∧
      ∀ index, (p.runMain main args init ⟨world, ⟨[], []⟩⟩).2.registry.log.count
        (.destructor index) = 0 := by
  constructor
  · exact Code.run_balanced _ (p.foldl_callEntry_balanced _ (fun _ _ => Event.noConfusion)
      (fun _ _ => Event.noConfusion) _ fun _ => rfl)
  · intro index
    exact (Code.run_destructors _ _ index).trans (p.runInitArrayRange_destructors init _ index)

/-! ## When the paths agree -/

section Paths

variable (p : Program W) (args : StartupArgs) (init fini : InitFiniRange)

/-- The path through startup, with a `main`. -/
theorem Program.libcStartMain_returns {main : Int → Nat → Nat → W → Code (Int × W)}
    (hmain : p.main = some main) (fuel : Nat) (world : W) :
    p.libcStartMain args init fini .returns fuel world =
      p.exit fuel (p.runMain main args init ⟨p.bindEnviron args.envp world, ⟨[], []⟩⟩).1
        (p.runFiniArrayRange fini
          (p.runMain main args init ⟨p.bindEnviron args.envp world, ⟨[], []⟩⟩).2) := by
  unfold libcStartMain runLibcStartMainWith
  rw [hmain]
  rfl

theorem Program.libcStartMain_exits {main : Int → Nat → Nat → W → Code (Int × W)}
    (hmain : p.main = some main) (fuel : Nat) (world : W) :
    p.libcStartMain args init fini .exits fuel world =
      p.exit fuel (p.runMain main args init ⟨p.bindEnviron args.envp world, ⟨[], []⟩⟩).1
        (p.runMain main args init ⟨p.bindEnviron args.envp world, ⟨[], []⟩⟩).2 := by
  unfold libcStartMain runLibcStartMainWith
  rw [hmain]

/-- `exit` ends with the status it was given and the log the drain leaves. -/
theorem Program.exit_eq_some {fuel : Nat} {status : Int} {s : State W} {o : Outcome}
    (h : p.exit fuel status s = some o) :
    ∃ s', p.runAtexitHandlers fuel s = some s' ∧ o = ⟨s'.registry.log, status⟩ := by
  obtain ⟨s', hrun, ho⟩ := Option.map_eq_some_iff.mp h
  exact ⟨s', hrun, ho.symm⟩

/-- Both ways of ending `main` tear the process down alike exactly when the destructor array has
nothing to call. -/
theorem termination_path_independent {main : Int → Nat → Nat → W → Code (Int × W)}
    (hmain : p.main = some main) {fuel fuel' : Nat} {world : W} {returned exited : Outcome}
    (hreturns : p.libcStartMain args init fini .returns fuel world = some returned)
    (hexits : p.libcStartMain args init fini .exits fuel' world = some exited) :
    PathIndependent p fini returned exited ↔ ∀ index, ¬p.CallableSlot fini index := by
  rw [p.libcStartMain_returns args init fini hmain] at hreturns
  rw [p.libcStartMain_exits args init fini hmain] at hexits
  obtain ⟨hbalanced, hnone⟩ := p.runMain_registry main args init (p.bindEnviron args.envp world)
  obtain ⟨sReturned, hrunReturned, rfl⟩ := p.exit_eq_some hreturns
  obtain ⟨sExited, hrunExited, rfl⟩ := p.exit_eq_some hexits
  constructor
  · intro h index hslot
    -- `exit` drains handlers only, so the destructor is missing from the second path.
    have hmissing := (p.runAtexitHandlers_destructors hrunExited index).trans (hnone index)
    have honce := h.exitedComplete.destructors index hslot
    change sExited.registry.log.count _ = 1 at honce
    omega
  · intro h
    rw [p.runFiniArrayRange_of_not_callable h] at hrunReturned
    have hsame := p.runAtexitHandlers_fuel hrunReturned hrunExited
    subst hsame
    have hcomplete : Outcome.Complete p fini ⟨sReturned.registry.log, (p.runMain main args init
        ⟨p.bindEnviron args.envp world, ⟨[], []⟩⟩).1⟩ :=
      ⟨fun index hslot => absurd hslot (h index),
        p.runAtexitHandlers_once hbalanced hrunExited⟩
    exact ⟨rfl, rfl, hcomplete, hcomplete⟩

end Paths

/-- A program whose `main` registers a handler and ends with status 3, behind a constructor that
registers one too; its destructor array has a slot that is null and one that is misaligned. -/
def twoHandlers : Program Unit where
  code function w := if function = 32 then .atexit (some 40) fun _ => .done w else .done w
  word address := if address = 8 then 32 else if address = 16 then 0 else 5
  bindEnviron _ w := w
  main := some fun _ _ _ w => .atexit (some 24) fun _ => .done (3, w)

/-- With no destructor to call both ways run the two handlers. -/
theorem termination_path_independent_idle_fini :
    PathIndependent twoHandlers ⟨16, 32⟩
      ⟨[.constructor 0, .registered 40, .registered 24, .handler 24, .handler 40], 3⟩
      ⟨[.constructor 0, .registered 40, .registered 24, .handler 24, .handler 40], 3⟩ := by
  have hreturns : twoHandlers.libcStartMain ⟨1, 0, 0⟩ ⟨8, 16⟩ ⟨16, 32⟩ .returns 3 () =
      some ⟨[.constructor 0, .registered 40, .registered 24, .handler 24, .handler 40], 3⟩ := by
    decide
  have hexits : twoHandlers.libcStartMain ⟨1, 0, 0⟩ ⟨8, 16⟩ ⟨16, 32⟩ .exits 3 () =
      some ⟨[.constructor 0, .registered 40, .registered 24, .handler 24, .handler 40], 3⟩ := by
    decide
  apply (termination_path_independent twoHandlers ⟨1, 0, 0⟩ ⟨8, 16⟩ ⟨16, 32⟩ rfl hreturns
    hexits).mpr
  have hidle : ∀ index < 2, twoHandlers.readArrayEntry 16 index = none := by decide
  intro index hslot
  exact hslot.2 (hidle index hslot.1)

/-- A program whose `main` registers a handler and ends with status 3. -/
def oneHandler : Program Unit where
  code _ w := .done w
  word _ := 16
  bindEnviron _ w := w
  main := some fun _ _ _ w => .atexit (some 24) fun _ => .done (3, w)

/-- With one destructor in the array, `exit` leaves it out. -/
theorem exit_skips_destructor : ∃ returned exited,
    oneHandler.libcStartMain ⟨1, 0, 0⟩ ⟨0, 0⟩ ⟨8, 16⟩ .returns 2 () = some returned ∧
      oneHandler.libcStartMain ⟨1, 0, 0⟩ ⟨0, 0⟩ ⟨8, 16⟩ .exits 2 () = some exited ∧
      ¬PathIndependent oneHandler ⟨8, 16⟩ returned exited := by
  refine ⟨⟨[.registered 24, .destructor 0, .handler 24], 3⟩, ⟨[.registered 24, .handler 24], 3⟩,
    by decide, by decide, ?_⟩
  intro h
  exact absurd h.teardown (by decide)

end Rlibc.Process
