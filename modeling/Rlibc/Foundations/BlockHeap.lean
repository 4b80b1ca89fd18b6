import Mathlib.Data.List.Perm.Basic
import Mathlib.Logic.Function.Basic

/-!
# Heaps of blocks, and what a program owns of one

A heap holds a block at each address that is in use.  `Owns base heap owned` says that `heap` is
`base` with the blocks of `owned` added: the blocks stand at different addresses, none of them was
in use, and nothing else is changed.
-/

namespace BlockHeap

variable {β : Type*}

/-- The block at each address in use. -/
abbrev Heap (β : Type*) := Nat → Option β

/-- Where the next block is put, if it can be had: at an unused address, never at null. -/
structure Allocator (β : Type*) where
  pick : Heap β → β → Option Nat
  unused : ∀ heap block address, pick heap block = some address → heap address = none
  nonnull : ∀ heap block address, pick heap block = some address → address ≠ 0

/-- How a program on the heap ends that does not return: memory could not be had, or something was
used that does not stand where it is expected. -/
inductive Fault where
  | aborted
  | undefined
deriving DecidableEq

def put (heap : Heap β) (address : Nat) (block : β) : Heap β :=
  Function.update heap address (some block)

def release (heap : Heap β) (address : Nat) : Heap β := Function.update heap address none

/-- Allocation of a block. -/
def allocate (allocator : Allocator β) (heap : Heap β) (block : β) : Except Fault (Nat × Heap β) :=
  match allocator.pick heap block with
  | some address => .ok (address, put heap address block)
  | none => .error .aborted

@[simp] theorem put_self (heap : Heap β) (address : Nat) (block : β) :
    put heap address block address = some block := Function.update_self _ _ _

theorem put_of_ne (heap : Heap β) {address other : Nat} (block : β) (h : other ≠ address) :
    put heap address block other = heap other := Function.update_of_ne h _ _

@[simp] theorem release_self (heap : Heap β) (address : Nat) :
    release heap address address = none := Function.update_self _ _ _

theorem release_of_ne (heap : Heap β) {address other : Nat} (h : other ≠ address) :
    release heap address other = heap other := Function.update_of_ne h _ _

/-- `heap` is `base` and, apart from it, the blocks of `owned`. -/
structure Owns (base heap : Heap β) (owned : List (Nat × β)) : Prop where
  nodup : (owned.map Prod.fst).Nodup
  nonnull : ∀ b ∈ owned, b.1 ≠ 0
  unused : ∀ b ∈ owned, base b.1 = none
  live : ∀ b ∈ owned, heap b.1 = some b.2
  frame : ∀ address, address ∉ owned.map Prod.fst → heap address = base address

namespace Owns

variable {base heap : Heap β} {owned owned' : List (Nat × β)} {address : Nat} {block : β}

theorem refl (base : Heap β) : Owns base base [] where
  nodup := List.nodup_nil
  nonnull := fun _ h => absurd h List.not_mem_nil
  unused := fun _ h => absurd h List.not_mem_nil
  live := fun _ h => absurd h List.not_mem_nil
  frame := fun _ _ => rfl

/-- With everything released, the heap is as it was. -/
theorem restored (h : Owns base heap []) : heap = base :=
  funext fun address => h.frame address List.not_mem_nil

theorem perm (h : Owns base heap owned) (hperm : owned.Perm owned') : Owns base heap owned' where
  nodup := (hperm.map Prod.fst).nodup_iff.mp h.nodup
  nonnull := fun b hb => h.nonnull b (hperm.mem_iff.mpr hb)
  unused := fun b hb => h.unused b (hperm.mem_iff.mpr hb)
  live := fun b hb => h.live b (hperm.mem_iff.mpr hb)
  frame := fun address hnot => h.frame address fun hmem =>
    hnot ((hperm.map Prod.fst).mem_iff.mp hmem)

/-- What is allocated is owned. -/
theorem put (h : Owns base heap owned) (hunused : heap address = none) (hnonnull : address ≠ 0) :
    Owns base (BlockHeap.put heap address block) ((address, block) :: owned) := by
  have hnew : address ∉ owned.map Prod.fst := by
    intro hmem
    obtain ⟨b, hb, rfl⟩ := List.mem_map.mp hmem
    have hlive := h.live b hb
    rw [hunused] at hlive
    cases hlive
  constructor
  · rw [List.map_cons, List.nodup_cons]
    exact ⟨hnew, h.nodup⟩
  · intro b hb
    rcases List.mem_cons.mp hb with rfl | hb
    · exact hnonnull
    · exact h.nonnull b hb
  · intro b hb
    rcases List.mem_cons.mp hb with rfl | hb
    · rw [← h.frame address hnew]
      exact hunused
    · exact h.unused b hb
  · intro b hb
    rcases List.mem_cons.mp hb with rfl | hb
    · exact put_self _ _ _
    · have hne : b.1 ≠ address := fun heq => hnew (List.mem_map.mpr ⟨b, hb, heq⟩)
      rw [put_of_ne _ _ hne]
      exact h.live b hb
  · intro other hother
    rw [List.map_cons, List.mem_cons, not_or] at hother
    rw [put_of_ne _ _ hother.1]
    exact h.frame other hother.2

/-- An allocation is owned. -/
theorem pick (h : Owns base heap owned) {allocator : Allocator β}
    (hpick : allocator.pick heap block = some address) :
    Owns base (BlockHeap.put heap address block) ((address, block) :: owned) :=
  h.put (allocator.unused _ _ _ hpick) (allocator.nonnull _ _ _ hpick)

/-- An allocation ends the program, or what it allocates is owned. -/
theorem allocate_cases (allocator : Allocator β) (block : β) (h : Owns base heap owned) :
    allocate allocator heap block = .error .aborted ∨
    ∃ address, address ≠ 0 ∧
      allocate allocator heap block = .ok (address, BlockHeap.put heap address block) ∧
      Owns base (BlockHeap.put heap address block) ((address, block) :: owned) := by
  unfold allocate
  cases hpick : allocator.pick heap block with
  | none => exact Or.inl rfl
  | some address =>
    exact Or.inr ⟨address, allocator.nonnull _ _ _ hpick, rfl, h.pick hpick⟩

/-- A block that is owned can be written. -/
theorem overwrite {block' : β} (h : Owns base heap ((address, block) :: owned)) :
    Owns base (BlockHeap.put heap address block') ((address, block') :: owned) := by
  have hnew := (List.nodup_cons.mp h.nodup).1
  constructor
  · exact h.nodup
  · intro b hb
    rcases List.mem_cons.mp hb with rfl | hb
    · exact h.nonnull (address, block) List.mem_cons_self
    · exact h.nonnull b (List.mem_cons_of_mem _ hb)
  · intro b hb
    rcases List.mem_cons.mp hb with rfl | hb
    · exact h.unused (address, block) List.mem_cons_self
    · exact h.unused b (List.mem_cons_of_mem _ hb)
  · intro b hb
    rcases List.mem_cons.mp hb with rfl | hb
    · exact put_self _ _ _
    · have hne : b.1 ≠ address := fun heq => hnew (List.mem_map.mpr ⟨b, hb, heq⟩)
      rw [put_of_ne _ _ hne]
      exact h.live b (List.mem_cons_of_mem _ hb)
  · intro other hother
    have hne : other ≠ address := fun heq => hother (heq ▸ List.mem_cons_self)
    rw [put_of_ne _ _ hne]
    exact h.frame other hother

/-- What is released is not owned any more, and the rest stays. -/
theorem release (h : Owns base heap ((address, block) :: owned)) :
    Owns base (BlockHeap.release heap address) owned := by
  obtain ⟨hnew, hnodup⟩ := List.nodup_cons.mp h.nodup
  constructor
  · exact hnodup
  · exact fun b hb => h.nonnull b (List.mem_cons_of_mem _ hb)
  · exact fun b hb => h.unused b (List.mem_cons_of_mem _ hb)
  · intro b hb
    have hne : b.1 ≠ address := fun heq => hnew (List.mem_map.mpr ⟨b, hb, heq⟩)
    rw [release_of_ne _ hne]
    exact h.live b (List.mem_cons_of_mem _ hb)
  · intro other hother
    by_cases heq : other = address
    · rw [heq, release_self, h.unused _ List.mem_cons_self]
    · rw [release_of_ne _ heq]
      exact h.frame other fun hmem => hother ((List.mem_cons.mp hmem).resolve_left heq)

/-- What is not owned can change, in the heap and in what it was before. -/
theorem outside (h : Owns base heap owned) (hother : address ∉ owned.map Prod.fst)
    (block : Option β) :
    Owns (Function.update base address block) (Function.update heap address block) owned := by
  have hne : ∀ b ∈ owned, b.1 ≠ address :=
    fun b hb heq => hother (List.mem_map.mpr ⟨b, hb, heq⟩)
  constructor
  · exact h.nodup
  · exact h.nonnull
  · intro b hb
    rw [Function.update_of_ne (hne b hb)]
    exact h.unused b hb
  · intro b hb
    rw [Function.update_of_ne (hne b hb)]
    exact h.live b hb
  · intro other hnot
    by_cases heq : other = address
    · rw [heq, Function.update_self, Function.update_self]
    · rw [Function.update_of_ne heq, Function.update_of_ne heq]
      exact h.frame other hnot

/-- Nothing that is owned stands where the heap is as it was. -/
theorem notMem_of_eq (h : Owns base heap owned) (heq : heap address = base address) :
    address ∉ owned.map Prod.fst := by
  intro hmem
  obtain ⟨b, hb, rfl⟩ := List.mem_map.mp hmem
  rw [h.live b hb, h.unused b hb] at heq
  cases heq

end Owns

end BlockHeap
