import Rlibc.Glob.NulFree
import Rlibc.Glob.PathVector

/-!
# What the vector owns

One lemma for each function of the vector: what it does to the blocks that are owned, what it
releases, and with which layout.
-/

namespace Rlibc.Glob

open BlockHeap

/-- The slots of a vector for strings at their addresses. -/
def vectorSlots (offsets : Nat) (entries : List (Nat × List UInt8)) : List Nat :=
  List.replicate offsets 0 ++ entries.map Prod.fst ++ [0]

def stringBlocks (entries : List (Nat × List UInt8)) : List (Nat × Block) :=
  entries.map fun entry => (entry.1, .string entry.2)

def ownedBlocks (offsets pathv : Nat) (entries : List (Nat × List UInt8)) : List (Nat × Block) :=
  (pathv, .vector (vectorSlots offsets entries)) :: stringBlocks entries

theorem vectorSlots_length (offsets : Nat) (entries : List (Nat × List UInt8)) :
    (vectorSlots offsets entries).length = offsets + entries.length + 1 := by
  unfold vectorSlots
  rw [List.length_append, List.length_append, List.length_replicate, List.length_map]
  rfl

theorem vectorSlots_drop (offsets : Nat) (entries : List (Nat × List UInt8)) :
    (vectorSlots offsets entries).drop offsets = entries.map Prod.fst ++ [0] := by
  unfold vectorSlots
  rw [List.append_assoc, List.drop_append_of_le_length (by rw [List.length_replicate]),
    List.drop_of_length_le (by rw [List.length_replicate]), List.nil_append]

/-! ## Accesses -/

/-- The address that an access releases. -/
def Access.freed : Access → Option Nat
  | freeString address => some address
  | freeVector pathv _ _ => some pathv
  | _ => none

/-- The access names the layout of a vector. -/
def Access.isLayout : Access → Bool
  | storeVector _ _ _ => true
  | freeVector _ _ _ => true
  | _ => false

/-- The access reads or releases what stands at an address. -/
def Access.isUse : Access → Bool
  | storeVector _ _ _ => false
  | _ => true

/-- The addresses released so far, the last one first. -/
def Memory.released (m : Memory) : List Nat := m.accesses.filterMap Access.freed

/-- The layouts of the vectors that came and went, the last one first. -/
def Memory.layouts (m : Memory) : List Access := m.accesses.filter Access.isLayout

/-- The reads and releases so far, the last one first. -/
def Memory.uses (m : Memory) : List Access := m.accesses.filter Access.isUse

/-- The offset and the count with which the vector at an address was stored last. -/
def lastLayout (pathv : Nat) : List Access → Option (Nat × Nat)
  | [] => none
  | .storeVector stored offsets count :: older =>
    if stored = pathv then some (offsets, count) else lastLayout pathv older
  | _ :: older => lastLayout pathv older

@[simp] theorem lastLayout_freeVector (pathv freed offsets count : Nat) (older : List Access) :
    lastLayout pathv (.freeVector freed offsets count :: older) = lastLayout pathv older := rfl

/-- Each vector is released with the layout it was stored with. -/
def LayoutsMatch : List Access → Prop
  | [] => True
  | .freeVector pathv offsets count :: older =>
    lastLayout pathv older = some (offsets, count) ∧ LayoutsMatch older
  | _ :: older => LayoutsMatch older

/-! ## Reads -/

theorem readSlot_eq {m : Memory} {pathv index entry : Nat} {slots rest : List Nat}
    (hvector : m.heap pathv = some (.vector slots)) (hdrop : slots.drop index = entry :: rest) :
    readSlot m pathv index = .done (entry, m.note (.read pathv)) := by
  have hslot : slots[index]? = some entry := by
    have hhead : (slots.drop index)[0]? = slots[index + 0]? := List.getElem?_drop
    rw [hdrop, Nat.add_zero, List.getElem?_cons_zero] at hhead
    exact hhead.symm
  unfold readSlot
  rw [hvector]
  dsimp only
  rw [hslot]

theorem readString_eq {m : Memory} {entry : Nat} {bytes : List UInt8}
    (hstring : m.heap entry = some (.string bytes)) :
    readString m entry = .done (bytes, m.note (.read entry)) := by
  unfold readString
  rw [hstring]

/-- The slots up to the null are read, and nothing else happens. -/
theorem clonePaths_spec {pathv : Nat} {slots : List Nat} {entries : List (Nat × List UInt8)}
    {index : Nat} {m : Memory} (hvector : m.heap pathv = some (.vector slots))
    (hdrop : slots.drop index = entries.map Prod.fst ++ [0])
    (hlive : ∀ entry ∈ entries, entry.1 ≠ 0 ∧ m.heap entry.1 = some (.string entry.2)) :
    ∃ m', clonePaths pathv entries.length index m = .done (entries.map Prod.snd, m') ∧
      m'.heap = m.heap ∧ m'.released = m.released ∧ m'.layouts = m.layouts := by
  induction entries generalizing index m with
  | nil => exact ⟨m, rfl, rfl, rfl, rfl⟩
  | cons entry entries ih =>
    obtain ⟨hnonnull, hstring⟩ := hlive entry List.mem_cons_self
    have hnext : slots.drop (index + 1) = entries.map Prod.fst ++ [0] := by
      rw [← List.tail_drop, hdrop]
      rfl
    obtain ⟨m', hrest, hheap, hreleased, hlayouts⟩ :=
      ih (m := (m.note (.read pathv)).note (.read entry.1)) hvector hnext
        fun e he => hlive e (List.mem_cons_of_mem _ he)
    refine ⟨m', ?_, hheap, hreleased, hlayouts⟩
    rw [List.length_cons, clonePaths, readSlot_eq hvector hdrop, Outcome.done_bind,
      if_neg hnonnull, readString_eq (m := m.note (.read pathv)) hstring, Outcome.done_bind, hrest]
    rfl

/-! ## Releases -/

/-- The strings of the next slots are released. -/
theorem freeEntries_spec {base : Heap Block} {pathv : Nat} (rest : List Nat) {slots : List Nat}
    {entries : List (Nat × List UInt8)} {owned : List (Nat × Block)} {index : Nat} {m : Memory}
    (howns : Owns base m.heap ((pathv, .vector slots) :: (stringBlocks entries ++ owned)))
    (hdrop : slots.drop index = entries.map Prod.fst ++ rest) :
    ∃ m', freeEntries pathv entries.length index m = .done m' ∧
      Owns base m'.heap ((pathv, .vector slots) :: owned) ∧
      m'.released = (entries.map Prod.fst).reverse ++ m.released ∧ m'.layouts = m.layouts := by
  induction entries generalizing index m with
  | nil => exact ⟨m, rfl, howns, rfl, rfl⟩
  | cons entry entries ih =>
    have hvector : m.heap pathv = some (.vector slots) := howns.live _ List.mem_cons_self
    have hfront := howns.perm (List.Perm.swap (entry.1, .string entry.2) (pathv, .vector slots)
      (stringBlocks entries ++ owned))
    have hnonnull : entry.1 ≠ 0 := hfront.nonnull _ List.mem_cons_self
    have hstring : m.heap entry.1 = some (.string entry.2) := hfront.live _ List.mem_cons_self
    have hfree : freeString (m.note (.read pathv)) entry.1 =
        .done (((m.note (.read pathv)).release entry.1).note (.freeString entry.1)) := by
      unfold freeString
      rw [show (m.note (.read pathv)).heap entry.1 = some (.string entry.2) from hstring]
    have hnext : slots.drop (index + 1) = entries.map Prod.fst ++ rest := by
      rw [← List.tail_drop, hdrop]
      rfl
    obtain ⟨m', hrest, howns', hreleased, hlayouts⟩ :=
      ih (m := ((m.note (.read pathv)).release entry.1).note (.freeString entry.1)) hfront.release
        hnext
    refine ⟨m', ?_, howns', ?_, hlayouts⟩
    · rw [List.length_cons, freeEntries, readSlot_eq hvector hdrop, Outcome.done_bind,
        if_neg hnonnull, hfree, Outcome.done_bind]
      exact hrest
    · rw [hreleased, List.map_cons, List.reverse_cons, List.append_assoc]
      rfl

/-- A vector is released with its strings, each block once. -/
theorem freePathv_spec {base : Heap Block} {pathv offsets : Nat}
    {entries : List (Nat × List UInt8)} (owned : List (Nat × Block)) {m : Memory}
    (howns : Owns base m.heap (ownedBlocks offsets pathv entries ++ owned)) :
    ∃ m', freePathv pathv entries.length offsets m = .done m' ∧ Owns base m'.heap owned ∧
      m'.released = pathv :: (entries.map Prod.fst).reverse ++ m.released ∧
      m'.layouts = .freeVector pathv offsets entries.length :: m.layouts := by
  have hnonnull : pathv ≠ 0 := howns.nonnull _ List.mem_cons_self
  obtain ⟨m', hfree, howns', hreleased, hlayouts⟩ :=
    freeEntries_spec [0] howns (vectorSlots_drop offsets entries)
  refine ⟨(m'.release pathv).note (.freeVector pathv offsets entries.length), ?_, howns'.release,
    ?_, ?_⟩
  · unfold freePathv
    rw [if_neg hnonnull, hfree, Outcome.done_bind]
    unfold freeSlots
    rw [howns'.live _ List.mem_cons_self]
    dsimp only
    rw [if_pos (vectorSlots_length offsets entries)]
  · exact congrArg (pathv :: ·) hreleased
  · exact congrArg (Access.freeVector pathv offsets entries.length :: ·) hlayouts

/-! ## Allocations -/

/-- Each path becomes a string, unless memory runs out. -/
theorem allocateStrings_spec (allocator : Allocator Block) {base : Heap Block}
    {paths : List (List UInt8)} (hpaths : ∀ path ∈ paths, 0 ∉ path)
    {owned : List (Nat × Block)} {m : Memory} (howns : Owns base m.heap owned) :
    allocateStrings allocator paths m = .aborted ∨
    ∃ entries m', allocateStrings allocator paths m = .done (.ok (entries.map Prod.fst), m') ∧
      entries.map Prod.snd = paths ∧ m'.accesses = m.accesses ∧
      Owns base m'.heap (stringBlocks entries ++ owned) := by
  induction paths generalizing owned m with
  | nil => exact Or.inr ⟨[], m, rfl, rfl, rfl, howns⟩
  | cons path paths ih =>
    unfold allocateStrings
    rw [if_neg (hpaths path List.mem_cons_self)]
    cases hpick : allocator.pick m.heap (.string path) with
    | none => exact Or.inl rfl
    | some entry =>
      dsimp only
      rcases ih (fun p hp => hpaths p (List.mem_cons_of_mem _ hp))
          (m := m.put entry (.string path)) (howns.pick hpick) with
        haborted | ⟨entries, m', hdone, hsnd, haccesses, howns'⟩
      · rw [haborted]
        exact Or.inl rfl
      · rw [hdone]
        refine Or.inr ⟨(entry, path) :: entries, m', rfl, ?_, haccesses, ?_⟩
        · rw [List.map_cons, hsnd]
        · exact howns'.perm List.perm_middle

/-- The new vector stands with its strings, unless memory runs out. -/
theorem allocatePathv_spec (allocator : Allocator Block) {base : Heap Block}
    {paths : List (List UInt8)} (hpaths : ∀ path ∈ paths, 0 ∉ path) (offsets : Nat)
    {owned : List (Nat × Block)} {m : Memory} (howns : Owns base m.heap owned) :
    allocatePathv allocator paths offsets m = .aborted ∨
    ∃ pathv entries m', allocatePathv allocator paths offsets m = .done (.ok pathv, m') ∧
      entries.map Prod.snd = paths ∧
      m'.accesses = .storeVector pathv offsets paths.length :: m.accesses ∧
      Owns base m'.heap (ownedBlocks offsets pathv entries ++ owned) := by
  unfold allocatePathv
  dsimp only
  split
  · exact Or.inl rfl
  · cases hpick : allocator.pick m.heap
        (.vector (List.replicate (offsets + paths.length + 1) 0)) with
    | none => exact Or.inl rfl
    | some pathv =>
      dsimp only
      rcases allocateStrings_spec allocator hpaths
          (m := m.put pathv (.vector (List.replicate (offsets + paths.length + 1) 0)))
          (howns.pick hpick) with
        haborted | ⟨entries, m', hdone, hsnd, haccesses, howns'⟩
      · rw [haborted]
        exact Or.inl rfl
      · rw [hdone]
        refine Or.inr ⟨pathv, entries, _, rfl, hsnd, ?_, ?_⟩
        · have hlength : (entries.map Prod.fst).length = paths.length := by
            rw [List.length_map, ← hsnd, List.length_map]
          rw [← hlength]
          exact congrArg _ haccesses
        · exact (howns'.perm List.perm_middle).overwrite

end Rlibc.Glob
