import Mathlib.Data.List.Basic

/-!
# Worklists

A loop takes the first item of a list, works on it and puts further items in front of the rest.
It ends because what an item leads to weighs less than the item itself.  What every turn keeps holds
when the loop is done, and also where it fails.
-/

namespace Rlibc

/-- What the items weigh together. -/
def totalWeight {α : Type} (weight : α → Nat) : List α → Nat
  | [] => 0
  | item :: rest => weight item + totalWeight weight rest

theorem totalWeight_append {α : Type} (weight : α → Nat) (items more : List α) :
    totalWeight weight (items ++ more) = totalWeight weight items + totalWeight weight more := by
  induction items with
  | nil => exact (Nat.zero_add _).symm
  | cons item rest ih =>
    show weight item + totalWeight weight (rest ++ more) = _
    rw [ih, ← Nat.add_assoc]
    rfl

/-- The body of the loop, on an item and a state. -/
structure Worklist (α σ ε : Type) where
  visit : α → σ → Except ε (List α × σ)
  weight : α → Nat
  lighter : ∀ {item : α} {s s' : σ} {further : List α},
    visit item s = .ok (further, s') → totalWeight weight further < weight item

namespace Worklist

variable {α σ ε : Type} (w : Worklist α σ ε)

def run (items : List α) (s : σ) : Except ε σ :=
  match items with
  | [] => .ok s
  | item :: rest =>
    match _h : w.visit item s with
    | .error error => .error error
    | .ok (further, s') => run (further ++ rest) s'
termination_by totalWeight w.weight items
decreasing_by
  have hlighter := w.lighter _h
  rw [totalWeight_append]
  show _ < w.weight item + totalWeight w.weight rest
  omega

@[simp]
theorem run_nil (s : σ) : w.run [] s = .ok s := by
  rw [run]

theorem run_cons_error {item : α} {s : σ} {error : ε} (h : w.visit item s = .error error)
    (rest : List α) : w.run (item :: rest) s = .error error := by
  rw [run]
  split
  · rename_i error' h'
    rw [h] at h'
    rw [Except.error.inj h']
  · rename_i h'
    rw [h] at h'
    cases h'

theorem run_cons_ok {item : α} {s s' : σ} {further : List α}
    (h : w.visit item s = .ok (further, s')) (rest : List α) :
    w.run (item :: rest) s = w.run (further ++ rest) s' := by
  rw [run]
  split
  · rename_i h'
    rw [h] at h'
    cases h'
  · rename_i h'
    rw [h] at h'
    cases h'
    rfl

/-- What every turn keeps holds when the list is empty, or where an item fails. -/
theorem run_cases {P : List α → σ → Prop}
    (hturn : ∀ {item rest s further s'}, P (item :: rest) s →
      w.visit item s = .ok (further, s') → P (further ++ rest) s')
    {items : List α} {s : σ} (h : P items s) :
    (∃ s', w.run items s = .ok s' ∧ P [] s') ∨
      ∃ error item rest s', w.run items s = .error error ∧ P (item :: rest) s' ∧
        w.visit item s' = .error error := by
  generalize hweight : totalWeight w.weight items = weight
  -- the weight of the whole list goes down with every turn
  induction weight using Nat.strongRecOn generalizing items s with
  | ind weight ih =>
    cases items with
    | nil => exact Or.inl ⟨s, w.run_nil s, h⟩
    | cons item rest =>
      cases hvisit : w.visit item s with
      | error error => exact Or.inr ⟨error, item, rest, s, w.run_cons_error hvisit rest, h, hvisit⟩
      | ok result =>
        have hlighter := w.lighter hvisit
        have hless : totalWeight w.weight (result.1 ++ rest) < weight := by
          rw [← hweight, totalWeight_append]
          show _ < w.weight item + totalWeight w.weight rest
          omega
        rw [w.run_cons_ok hvisit rest]
        exact ih _ hless (hturn h hvisit) rfl

end Worklist

end Rlibc
