import Mathlib.Data.List.Basic
import Mathlib.Logic.Function.Basic

/-!
# Machines that reply

A machine takes calls one after another and replies to each, or fails.  `run` collects the replies
of a list of calls; a machine that never fails has `answers`.  The refinement rule compares the
two call by call.
-/

namespace Calls

variable {σ τ ℓ ρ : Type*}

/-- The replies to the calls, and the state after them; `none` where one of them fails. -/
def run (call : σ → ℓ → Option (ρ × σ)) : σ → List ℓ → Option (List ρ × σ)
  | s, [] => some ([], s)
  | s, l :: ls =>
    (call s l).bind fun reply => (run call reply.2 ls).map fun rest => (reply.1 :: rest.1, rest.2)

/-- The same for a machine that does not fail. -/
def answers (spec : τ → ℓ → ρ × τ) : τ → List ℓ → List ρ × τ
  | t, [] => ([], t)
  | t, l :: ls =>
    let rest := answers spec (spec t l).2 ls
    ((spec t l).1 :: rest.1, rest.2)

variable {call : σ → ℓ → Option (ρ × σ)} {spec : τ → ℓ → ρ × τ}

/-- **Refinement rule.**  A machine that follows another call by call follows it in every run: it
does not fail, replies the same, and the states stay related. -/
theorem run_refines {R : σ → τ → Prop}
    (hcall : ∀ s t l, R s t → ∃ s', call s l = some ((spec t l).1, s') ∧ R s' (spec t l).2)
    {s : σ} {t : τ} (h : R s t) (ls : List ℓ) :
    ∃ s', run call s ls = some ((answers spec t ls).1, s') ∧ R s' (answers spec t ls).2 := by
  induction ls generalizing s t with
  | nil => exact ⟨s, rfl, h⟩
  | cons l ls ih =>
    obtain ⟨s₁, hfirst, hs₁⟩ := hcall s t l h
    obtain ⟨s', hrest, hs'⟩ := ih hs₁
    refine ⟨s', ?_, hs'⟩
    rw [run, hfirst, Option.bind_some, hrest]
    rfl

/-! ## Cells that do not meet -/

section
variable {κ : Type*} [DecidableEq κ] (key : ℓ → κ)

/-- A machine of many cells: a call reads and changes the cell of its own key only. -/
def onCells (spec : σ → ℓ → ρ × σ) (cells : κ → σ) (l : ℓ) : ρ × (κ → σ) :=
  let reply := spec (cells (key l)) l
  (reply.1, Function.update cells (key l) reply.2)

/-- The calls of one key, in their order. -/
def callsAt (k : κ) (ls : List ℓ) : List ℓ := ls.filter fun l => decide (key l = k)

/-- The replies to the calls of one key. -/
def repliesAt (k : κ) : List ℓ → List ρ → List ρ
  | l :: ls, r :: rs => if key l = k then r :: repliesAt k ls rs else repliesAt k ls rs
  | _, _ => []

theorem callsAt_cons_self (l : ℓ) (ls : List ℓ) :
    callsAt key (key l) (l :: ls) = l :: callsAt key (key l) ls :=
  List.filter_cons_of_pos (decide_eq_true rfl)

theorem callsAt_cons_of_ne {k : κ} {l : ℓ} (h : key l ≠ k) (ls : List ℓ) :
    callsAt key k (l :: ls) = callsAt key k ls :=
  List.filter_cons_of_neg (by rw [decide_eq_false h]; exact Bool.false_ne_true)

/-- **Isolation.**  However the calls of all keys are mixed, each cell answers its own as if there
were no others. -/
theorem answers_onCells (spec : σ → ℓ → ρ × σ) (cells : κ → σ) (ls : List ℓ) (k : κ) :
    (repliesAt key k ls (answers (onCells key spec) cells ls).1,
        (answers (onCells key spec) cells ls).2 k) =
      answers spec (cells k) (callsAt key k ls) := by
  -- induction on the calls; the first one is at `k`, or leaves the cell of `k` alone
  induction ls generalizing cells with
  | nil => rfl
  | cons l ls ih =>
    have hrest := ih (onCells key spec cells l).2
    rw [Prod.ext_iff] at hrest ⊢
    have hcell : (onCells key spec cells l).2 =
        Function.update cells (key l) (spec (cells (key l)) l).2 := rfl
    by_cases hk : key l = k
    · subst hk
      rw [hcell, Function.update_self] at hrest
      rw [callsAt_cons_self]
      apply And.intro
      · show (if key l = key l then _ else _) = _
        rw [if_pos rfl]
        exact congrArg ((spec (cells (key l)) l).1 :: ·) hrest.1
      · exact hrest.2
    · rw [hcell, Function.update_of_ne (Ne.symm hk)] at hrest
      rw [callsAt_cons_of_ne key hk]
      apply And.intro
      · show (if key l = k then _ else _) = _
        rw [if_neg hk]
        exact hrest.1
      · exact hrest.2

end

end Calls
