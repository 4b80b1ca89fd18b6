import Mathlib.Data.List.Basic
import Rlibc.Machine

/-!
# `atexit` and `exit`

The list of registered handlers and the loop that `exit` runs over it.  A function of the program
is what it does with the two: `Code` is a computation that may call `atexit`, as often as it
likes and depending on what `atexit` returned.  The rest of the process is a world of any type.
-/

namespace Rlibc.Process

/-- A computation of the program that ends with a value. -/
inductive Code (α : Type) where
  | done (value : α)
  | atexit (function : Option Nat) (next : Int → Code α)

/-- What is observed of a run: registrations, and the calls of startup and of `exit`. -/
inductive Event where
  | registered (handler : Nat)
  | handler (handler : Nat)
  | constructor (index : Nat)
  | destructor (index : Nat)
deriving DecidableEq

/-- `AT_EXIT_HANDLERS`, the handler that was pushed last in front, with the events so far. -/
structure Registry where
  handlers : List Nat
  log : List Event
deriving DecidableEq

def ATEXIT_MAX_HANDLERS : Nat := 32

def Registry.record (r : Registry) (event : Event) : Registry := { r with log := r.log ++ [event] }

/-- `atexit`. -/
def Registry.atexit (r : Registry) : Option Nat → Int × Registry
  | none => (1, r)
  | some handler =>
    if r.handlers.length ≥ ATEXIT_MAX_HANDLERS then (1, r)
    else (0, { r with handlers := handler :: r.handlers }.record (.registered handler))

/-- Run a computation. -/
def Code.run {α : Type} : Code α → Registry → α × Registry
  | done value, r => (value, r)
  | atexit function next, r => (next (r.atexit function).1).run (r.atexit function).2

/-- The code of the program: a function address and the world to a computation of a world. -/
structure Program (W : Type) where
  code : Nat → W → Code W
  /-- The word at an address of the constructor and destructor arrays. -/
  word : Nat → Nat
  bindEnviron : Nat → W → W
  main : Option (Int → Nat → Nat → W → Code (Int × W))

variable {W : Type}

/-- The process: the world and the registry. -/
structure State (W : Type) where
  world : W
  registry : Registry

/-- Call a function of the program. -/
def Program.call (p : Program W) (function : Nat) (event : Event) (s : State W) : State W :=
  let (world, registry) := (p.code function s.world).run (s.registry.record event)
  ⟨world, registry⟩

/-- `run_atexit_handlers`; `none` when the loop does not end within the fuel. -/
def Program.runAtexitHandlers (p : Program W) : Nat → State W → Option (State W)
  | 0, _ => none
  | fuel + 1, s =>
    match s.registry.handlers with
    | [] => some s
    | handler :: rest =>
      p.runAtexitHandlers fuel
        (p.call handler (.handler handler) { s with registry := { s.registry with handlers := rest } })

/-- How a process has ended. -/
structure Outcome where
  log : List Event
  status : Int
deriving DecidableEq

/-- `exit`. -/
def Program.exit (p : Program W) (fuel : Nat) (status : Int) (s : State W) : Option Outcome :=
  (p.runAtexitHandlers fuel s).map fun s => ⟨s.registry.log, status⟩

/-! ## Every registered handler runs once -/

/-- A handler has run, or is still on the list, as often as it was registered. -/
def Registry.Balanced (r : Registry) : Prop :=
  ∀ handler, r.log.count (.registered handler) =
    r.log.count (.handler handler) + r.handlers.count handler

/-- Events that are neither registrations nor runs keep the balance. -/
theorem Registry.Balanced.record {r : Registry} (h : r.Balanced) {event : Event}
    (hregistered : ∀ handler, event ≠ .registered handler)
    (hhandler : ∀ handler, event ≠ .handler handler) : (r.record event).Balanced := by
  intro handler
  show (r.log ++ [event]).count _ = (r.log ++ [event]).count _ + r.handlers.count handler
  rw [List.count_append, List.count_append, List.count_singleton, List.count_singleton,
    if_neg (by simpa using hregistered handler), if_neg (by simpa using hhandler handler)]
  exact h handler

theorem Registry.Balanced.atexit {r : Registry} (h : r.Balanced) (function : Option Nat) :
    (r.atexit function).2.Balanced := by
  cases function with
  | none => exact h
  | some registered =>
    unfold Registry.atexit
    dsimp only
    split
    · exact h
    · intro handler
      have hbefore := h handler
      show (r.log ++ [Event.registered registered]).count _ =
        (r.log ++ [Event.registered registered]).count _ + (registered :: r.handlers).count handler
      rw [List.count_append, List.count_append, List.count_singleton, List.count_singleton,
        List.count_cons]
      by_cases hsame : registered = handler
      · simp [hsame]
        omega
      · simp [hsame]
        omega

theorem Code.run_balanced {α : Type} (c : Code α) {r : Registry} (h : r.Balanced) :
    (c.run r).2.Balanced := by
  induction c generalizing r with
  | done value => exact h
  | atexit function next ih => exact ih _ (h.atexit function)

/-- Taking a handler from the list and running it keeps the balance. -/
theorem Registry.Balanced.take {r : Registry} (h : r.Balanced) {handler : Nat} {rest : List Nat}
    (hhandlers : r.handlers = handler :: rest) :
    ({ r with handlers := rest }.record (.handler handler)).Balanced := by
  intro other
  have hbefore := h other
  rw [hhandlers, List.count_cons] at hbefore
  show (r.log ++ [Event.handler handler]).count _ =
    (r.log ++ [Event.handler handler]).count _ + rest.count other
  rw [List.count_append, List.count_append, List.count_singleton, List.count_singleton]
  by_cases hsame : handler = other
  · simp [hsame] at hbefore ⊢
    omega
  · simp [hsame] at hbefore ⊢
    omega

/-- When the loop ends, every handler has run as often as it was registered. -/
theorem Program.runAtexitHandlers_once (p : Program W) {fuel : Nat} {s s' : State W}
    (h : s.registry.Balanced) (hrun : p.runAtexitHandlers fuel s = some s') (handler : Nat) :
    s'.registry.log.count (.handler handler) = s'.registry.log.count (.registered handler) := by
  induction fuel generalizing s with
  | zero => cases hrun
  | succ fuel ih =>
    unfold runAtexitHandlers at hrun
    split at hrun
    · rename_i hempty
      rw [← Option.some.inj hrun, h handler, hempty]
      rfl
    · rename_i first rest hhandlers
      exact ih (Code.run_balanced _ (h.take hhandlers)) hrun

/-- The loop, once it ends, does not depend on the fuel. -/
theorem Program.runAtexitHandlers_fuel (p : Program W) {fuel fuel' : Nat} {s s₁ s₂ : State W}
    (h₁ : p.runAtexitHandlers fuel s = some s₁) (h₂ : p.runAtexitHandlers fuel' s = some s₂) :
    s₁ = s₂ := by
  induction fuel generalizing s fuel' with
  | zero => cases h₁
  | succ fuel ih =>
    cases fuel' with
    | zero => cases h₂
    | succ fuel' =>
      unfold runAtexitHandlers at h₁ h₂
      cases hhandlers : s.registry.handlers with
      | nil =>
        rw [hhandlers] at h₁ h₂
        exact (Option.some.inj h₁).symm.trans (Option.some.inj h₂)
      | cons first rest =>
        rw [hhandlers] at h₁ h₂
        exact ih h₁ h₂

end Rlibc.Process
