import Mathlib.Data.Finset.Basic
import Mathlib.Data.List.Nodup

/-!
# A bounded set with an insertion order

A cache of at most `limit` elements is kept twice: as a set for membership tests, and as the list
of its elements in the order of their insertion, so that the oldest one can be evicted.
`WellFormed` says that the two agree.
-/

namespace FifoSet

variable {α : Type*} [DecidableEq α] {limit : ℕ}

/-- Drop the oldest elements until at most `limit` are left. -/
def evict (limit : ℕ) (s : Finset α) : List α → Finset α × List α
  | [] => (s, [])
  | x :: xs => if limit < (x :: xs).length then evict limit (s.erase x) xs else (s, x :: xs)

/-- Insert at the young end, and evict. -/
def insert (limit : ℕ) (s : Finset α) (order : List α) (a : α) : Finset α × List α :=
  if a ∈ s then evict limit s order else evict limit (Insert.insert a s) (order ++ [a])

/-- Remove one element. -/
def remove (s : Finset α) (order : List α) (a : α) : Finset α × List α :=
  if a ∉ s then (s, order) else (s.erase a, order.erase a)

/-- The list enumerates the set without repetition, within the limit. -/
structure WellFormed (limit : ℕ) (s : Finset α) (order : List α) : Prop where
  nodup : order.Nodup
  mem_iff : ∀ a, a ∈ order ↔ a ∈ s
  bounded : order.length ≤ limit

omit [DecidableEq α] in
theorem wellFormed_empty : WellFormed limit (∅ : Finset α) [] where
  nodup := List.nodup_nil
  mem_iff := by simp
  bounded := Nat.zero_le _

/-- Eviction needs the agreement of set and list only, and establishes the bound. -/
theorem evict_wellFormed (s : Finset α) (order : List α) (hnodup : order.Nodup)
    (hmem : ∀ a, a ∈ order ↔ a ∈ s) :
    WellFormed limit (evict limit s order).1 (evict limit s order).2 := by
  induction order generalizing s with
  | nil => exact ⟨hnodup, hmem, Nat.zero_le _⟩
  | cons x xs ih =>
    rw [evict]
    split
    · rw [List.nodup_cons] at hnodup
      apply ih _ hnodup.2
      intro a
      rw [Finset.mem_erase, ← hmem a, List.mem_cons]
      constructor
      · intro ha
        exact ⟨fun he => hnodup.1 (he ▸ ha), Or.inr ha⟩
      · intro ha
        exact ha.2.resolve_left ha.1
    · rename_i hle
      exact ⟨hnodup, hmem, Nat.le_of_not_lt hle⟩

theorem insert_wellFormed {s : Finset α} {order : List α} (h : WellFormed limit s order) (a : α) :
    WellFormed limit (insert limit s order a).1 (insert limit s order a).2 := by
  unfold insert
  split
  · exact evict_wellFormed s order h.nodup h.mem_iff
  · rename_i ha
    apply evict_wellFormed
    · rw [List.nodup_append_comm]
      exact List.nodup_cons.mpr ⟨fun hin => ha ((h.mem_iff a).mp hin), h.nodup⟩
    · intro b
      rw [List.mem_append, List.mem_singleton, Finset.mem_insert, h.mem_iff b, or_comm]

theorem remove_wellFormed {s : Finset α} {order : List α} (h : WellFormed limit s order) (a : α) :
    WellFormed limit (remove s order a).1 (remove s order a).2 := by
  unfold remove
  split
  · exact h
  · refine ⟨h.nodup.erase a, fun b => ?_, ?_⟩
    · rw [h.nodup.mem_erase_iff, Finset.mem_erase, h.mem_iff b]
    · exact le_trans List.length_erase_le h.bounded

theorem evict_subset (s : Finset α) (order : List α) : (evict limit s order).1 ⊆ s := by
  induction order generalizing s with
  | nil => exact Finset.Subset.refl s
  | cons x xs ih =>
    rw [evict]
    split
    · exact (ih _).trans (Finset.erase_subset x s)
    · exact Finset.Subset.refl s

/-- Insertion adds nothing but its element. -/
theorem insert_subset (s : Finset α) (order : List α) (a : α) :
    (insert limit s order a).1 ⊆ Insert.insert a s := by
  unfold insert
  split
  · exact (evict_subset s order).trans (Finset.subset_insert a s)
  · exact evict_subset _ _

theorem remove_fst (s : Finset α) (order : List α) (a : α) :
    (remove s order a).1 = s.erase a := by
  unfold remove
  split
  · rename_i ha
    rw [Finset.erase_eq_of_notMem ha]
  · rfl

/-- Eviction spares the youngest element. -/
theorem mem_evict_of_last (hlimit : 0 < limit) (s : Finset α) (order : List α) (a : α)
    (hnodup : (order ++ [a]).Nodup) (ha : a ∈ s) : a ∈ (evict limit s (order ++ [a])).1 := by
  induction order generalizing s with
  | nil =>
    rw [List.nil_append, evict, if_neg (by simp; omega)]
    exact ha
  | cons x xs ih =>
    rw [List.cons_append, List.nodup_cons] at hnodup
    rw [List.cons_append, evict]
    split
    · apply ih _ hnodup.2
      rw [Finset.mem_erase]
      exact ⟨fun he => hnodup.1 (by simp [← he]), ha⟩
    · exact ha

/-- A new element survives its own insertion. -/
theorem mem_insert_self (hlimit : 0 < limit) {s : Finset α} {order : List α}
    (h : WellFormed limit s order) (a : α) (ha : a ∉ s) : a ∈ (insert limit s order a).1 := by
  unfold insert
  rw [if_neg ha]
  apply mem_evict_of_last hlimit
  · rw [List.nodup_append_comm]
    exact List.nodup_cons.mpr ⟨fun hin => ha ((h.mem_iff a).mp hin), h.nodup⟩
  · exact Finset.mem_insert_self a s

end FifoSet
