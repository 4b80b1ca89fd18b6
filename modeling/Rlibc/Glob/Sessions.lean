import Rlibc.Foundations.Lts
import Rlibc.Glob.Ownership

/-!
# Sequences of calls on one `glob_t`

A struct holds no vector, or one whose layout it records.  Each call keeps that, whatever its
flags are; what breaks it is a caller that changes `gl_offs` while there is a vector.
-/

namespace Rlibc.Glob

open BlockHeap

/-- The struct holds a vector with these paths, or none; nothing else is owned. -/
inductive Holds (base : Heap Block) (pglob : GlobT) (m : Memory) :
    Option (List (List UInt8)) → Prop
  | empty (hnull : pglob.glPathv = 0) (howns : Owns base m.heap []) : Holds base pglob m none
  | vector {entries : List (Nat × List UInt8)} (hpathc : pglob.glPathc = entries.length)
      (hstored : lastLayout pglob.glPathv m.layouts = some (pglob.glOffs, pglob.glPathc))
      (hpaths : ∀ entry ∈ entries, 0 ∉ entry.2)
      (howns : Owns base m.heap (ownedBlocks pglob.glOffs pglob.glPathv entries)) :
      Holds base pglob m (some (entries.map Prod.snd))

/-- In memory: null slots, the strings of the paths, and a null at the end. -/
def Layout (m : Memory) (pglob : GlobT) (offsets : Nat) (paths : List (List UInt8)) : Prop :=
  ∃ entries, entries.map Prod.snd = paths ∧
    m.heap pglob.glPathv = some (.vector (vectorSlots offsets entries)) ∧
    ∀ entry ∈ entries, entry.1 ≠ 0 ∧ m.heap entry.1 = some (.string entry.2)

theorem Holds.layout {base : Heap Block} {pglob : GlobT} {m : Memory}
    {paths : List (List UInt8)} (h : Holds base pglob m (some paths)) :
    pglob.glPathv ≠ 0 ∧ pglob.glPathc = paths.length ∧ Layout m pglob pglob.glOffs paths := by
  generalize hheld : some paths = held at h
  cases h with
  | empty => cases hheld
  | vector hpathc hstored hpaths howns =>
    rename_i entries
    cases hheld
    refine ⟨howns.nonnull _ List.mem_cons_self, ?_, entries, rfl,
      howns.live _ List.mem_cons_self, fun entry hentry => ?_⟩
    · rw [List.length_map]
      exact hpathc
    · have hblock : ((entry.1, Block.string entry.2) : Nat × Block) ∈
          ownedBlocks pglob.glOffs pglob.glPathv entries :=
        List.mem_cons_of_mem _ (List.mem_map.mpr ⟨entry, hentry, rfl⟩)
      exact ⟨howns.nonnull _ hblock, howns.live _ hblock⟩

theorem cloneExistingPaths_spec {base : Heap Block} {pglob : GlobT} {m : Memory}
    {held : Option (List (List UInt8))} (h : Holds base pglob m held) :
    ∃ m', cloneExistingPaths pglob pglob.glOffs m = .done (held.getD [], m') ∧
      m'.heap = m.heap ∧ m'.layouts = m.layouts := by
  unfold cloneExistingPaths
  cases h with
  | empty hnull howns =>
    rw [if_pos (Or.inr hnull)]
    exact ⟨m, rfl, rfl, rfl⟩
  | vector hpathc hstored hpaths howns =>
    rename_i entries
    have hnonnull : pglob.glPathv ≠ 0 := howns.nonnull _ List.mem_cons_self
    by_cases hempty : pglob.glPathc = 0
    · rw [if_pos (Or.inl hempty)]
      rw [hpathc, List.length_eq_zero_iff] at hempty
      rw [hempty]
      exact ⟨m, rfl, rfl, rfl⟩
    · rw [if_neg (fun hor => hor.elim hempty hnonnull), hpathc]
      have hlive : ∀ entry ∈ entries, entry.1 ≠ 0 ∧ m.heap entry.1 = some (.string entry.2) := by
        intro entry hentry
        have hblock : ((entry.1, Block.string entry.2) : Nat × Block) ∈
            ownedBlocks pglob.glOffs pglob.glPathv entries :=
          List.mem_cons_of_mem _ (List.mem_map.mpr ⟨entry, hentry, rfl⟩)
        exact ⟨howns.nonnull _ hblock, howns.live _ hblock⟩
      obtain ⟨m', hclone, hheap, -, hlayouts⟩ := clonePaths_spec
        (howns.live _ List.mem_cons_self) (vectorSlots_drop pglob.glOffs entries) hlive
      exact ⟨m', hclone, hheap, hlayouts⟩

theorem Holds.nulFree {base : Heap Block} {pglob : GlobT} {m : Memory}
    {held : Option (List (List UInt8))} (h : Holds base pglob m held) :
    ∀ path ∈ held.getD [], 0 ∉ path := by
  cases h with
  | empty hnull howns => exact fun _ hpath => absurd hpath List.not_mem_nil
  | vector hpathc hstored hpaths howns =>
    intro path hpath
    obtain ⟨entry, hentry, rfl⟩ := List.mem_map.mp hpath
    exact hpaths entry hentry

/-- The old vector is owned until it is released, with the layout that it was stored with. -/
theorem Holds.releaseOld {base : Heap Block} {pglob : GlobT} {m : Memory}
    {held : Option (List (List UInt8))} (h : Holds base pglob m held) :
    ∃ owned, Owns base m.heap owned ∧
      ∀ (fresh : List (Nat × Block)) (m' : Memory), Owns base m'.heap (fresh ++ owned) →
        ∃ m'', releaseOld pglob m' = .done m'' ∧ Owns base m''.heap fresh ∧
          (m''.layouts = m'.layouts ∨
            m''.layouts = .freeVector pglob.glPathv pglob.glOffs pglob.glPathc :: m'.layouts ∧
            lastLayout pglob.glPathv m.layouts = some (pglob.glOffs, pglob.glPathc) ∧
            pglob.glPathv ∈ owned.map Prod.fst) := by
  cases h with
  | empty hnull howns =>
    refine ⟨[], howns, fun fresh m' howns' => ⟨m', ?_, ?_, Or.inl rfl⟩⟩
    · unfold Glob.releaseOld
      rw [if_neg (fun hne => hne hnull)]
    · rwa [List.append_nil] at howns'
  | vector hpathc hstored hpaths howns =>
    rename_i entries
    have hnonnull : pglob.glPathv ≠ 0 := howns.nonnull _ List.mem_cons_self
    refine ⟨_, howns, fun fresh m' howns' => ?_⟩
    obtain ⟨m'', hfree, hrest, -, hlayouts⟩ :=
      freePathv_spec fresh (howns'.perm List.perm_append_comm)
    refine ⟨m'', ?_, hrest, Or.inr ⟨?_, hstored, List.mem_cons_self⟩⟩
    · unfold Glob.releaseOld globfree
      dsimp only
      rw [if_pos hnonnull, hpathc, hfree]
      rfl
    · rw [hlayouts, hpathc]

theorem existingPaths_spec {base : Heap Block} {pglob : GlobT} {m : Memory}
    {held : Option (List (List UInt8))} (h : Holds base pglob m held) (flags : Flags) :
    ∃ m', existingPaths flags pglob m =
        .done (if hasFlag flags GLOB_APPEND then held.getD [] else [], m') ∧
      m'.heap = m.heap ∧ m'.layouts = m.layouts := by
  unfold existingPaths
  by_cases happend : hasFlag flags GLOB_APPEND = true
  · rw [if_pos happend, if_pos happend]
    unfold offsetsFor
    rw [if_pos (Or.inl happend)]
    exact cloneExistingPaths_spec h
  · rw [if_neg happend, if_neg happend]
    exact ⟨m, rfl, rfl, rfl⟩

/-- The new vector takes the place of the old one. -/
theorem storePaths_spec (allocator : Allocator Block) {base : Heap Block} {pglob : GlobT}
    {m : Memory} {held : Option (List (List UInt8))} (h : Holds base pglob m held)
    {paths : List (List UInt8)} (hpaths : ∀ path ∈ paths, 0 ∉ path) (flags : Flags) {m₁ : Memory}
    (hheap : m₁.heap = m.heap) (hlayouts : m₁.layouts = m.layouts) :
    storePaths allocator paths flags pglob m₁ = .aborted ∨
    ∃ pglob' m', storePaths allocator paths flags pglob m₁ = .done ⟨0, none, some pglob', m'⟩ ∧
      pglob'.glOffs = offsetsFor flags pglob ∧ pglob'.glFlags = flags ∧
      Holds base pglob' m' (some paths) ∧ (LayoutsMatch m.layouts → LayoutsMatch m'.layouts) := by
  obtain ⟨owned, howns, hrelease⟩ := h.releaseOld
  rw [← hheap] at howns
  unfold storePaths
  rcases allocatePathv_spec allocator hpaths (offsetsFor flags pglob) howns with
    haborted | ⟨pathv, entries, m₂, hallocated, hsnd, haccesses, howns₂⟩
  · rw [haborted]
    exact Or.inl rfl
  -- The new vector is stored before the old one is given back, and the two do not meet.
  · obtain ⟨m₃, hreleased, howns₃, hfreed⟩ := hrelease (ownedBlocks (offsetsFor flags pglob) pathv
      entries) m₂ howns₂
    have hcount : paths.length = entries.length := by
      rw [← hsnd, List.length_map]
    have hlayouts₂ : m₂.layouts =
        .storeVector pathv (offsetsFor flags pglob) paths.length :: m.layouts := by
      rw [← hlayouts]
      exact congrArg (List.filter Access.isLayout) haccesses
    -- Giving the old vector back reads its layout only, so the new one still stands.
    have hstored : lastLayout pathv m₃.layouts =
        some (offsetsFor flags pglob, paths.length) := by
      rcases hfreed with hsame | ⟨hfree, -⟩
      · rw [hsame, hlayouts₂, lastLayout, if_pos rfl]
      · rw [hfree, hlayouts₂, lastLayout_freeVector, lastLayout, if_pos rfl]
    rw [hallocated, Outcome.done_bind]
    dsimp only
    rw [hreleased, Outcome.done_bind]
    refine Or.inr ⟨_, m₃, rfl, rfl, rfl, ?_, fun hmatch => ?_⟩
    · have hnul : ∀ entry ∈ entries, 0 ∉ entry.2 := fun entry hentry =>
        hpaths entry.2 (hsnd ▸ List.mem_map.mpr ⟨entry, hentry, rfl⟩)
      rw [← hsnd]
      exact .vector (hsnd ▸ hcount) (hsnd ▸ hstored) hnul howns₃
    · rcases hfreed with hsame | ⟨hfree, hold, hmem⟩
      · rw [hsame, hlayouts₂]
        exact hmatch
      · -- The two vectors stand at different addresses.
        have hne : pathv ≠ pglob.glPathv := by
          intro heq
          have hnodup := howns₂.nodup
          rw [List.map_append] at hnodup
          exact (List.nodup_append.mp hnodup).2.2 _ List.mem_cons_self _ hmem heq
        rw [hfree, hlayouts₂]
        refine ⟨?_, hmatch⟩
        rw [lastLayout, if_neg hne]
        exact hold

theorem storeMatches_spec (allocator : Allocator Block) {base : Heap Block} {pglob : GlobT}
    {m : Memory} {held : Option (List (List UInt8))} (h : Holds base pglob m held)
    {matched : List (List UInt8)} (hmatched : ∀ path ∈ matched, 0 ∉ path) (flags : Flags) :
    storeMatches allocator matched flags pglob m = .aborted ∨
    ∃ pglob' m', storeMatches allocator matched flags pglob m = .done ⟨0, none, some pglob', m'⟩ ∧
      pglob'.glOffs = offsetsFor flags pglob ∧ pglob'.glFlags = flags ∧
      Holds base pglob' m'
        (some ((if hasFlag flags GLOB_APPEND then held.getD [] else []) ++ matched)) ∧
      (LayoutsMatch m.layouts → LayoutsMatch m'.layouts) := by
  obtain ⟨m₁, hexisting, hheap, hlayouts⟩ := existingPaths_spec h flags
  unfold storeMatches
  rw [hexisting, Outcome.done_bind]
  apply storePaths_spec allocator h _ flags hheap hlayouts
  intro path hpath
  rcases List.mem_append.mp hpath with hpath | hpath
  · split at hpath
    · exact h.nulFree path hpath
    · exact absurd hpath List.not_mem_nil
  · exact hmatched path hpath

/-! ## Calls -/

/-- A call of `glob` on the struct. -/
structure Call where
  fs : FileSystem
  pattern : Option CStr
  flags : Flags
  errfunc : GlobErrorFn

/-- The match list of a call. -/
def Call.matchList (c : Call) : Except Failure (List (List UInt8)) :=
  match c.pattern with
  | none => .error ⟨GLOB_ABORTED, some EINVAL⟩
  | some pattern => matchedPaths c.fs pattern.bytes c.flags c.errfunc

def Call.perform (allocator : Allocator Block) (c : Call) (pglob : GlobT) (m : Memory) :
    Outcome Reply :=
  glob allocator c.fs c.pattern c.flags c.errfunc (some pglob) m

theorem Call.perform_eq (allocator : Allocator Block) (c : Call) (pglob : GlobT) (m : Memory) :
    c.perform allocator pglob m =
      match c.matchList with
      | .error failure => .done ⟨failure.code, failure.errno, some pglob, m⟩
      | .ok matched => storeMatches allocator matched c.flags pglob m := by
  unfold Call.perform Call.matchList glob
  cases c.pattern with
  | none => rfl
  | some pattern => rfl

theorem Call.matchList_nulFree {c : Call} {matched : List (List UInt8)}
    (h : c.matchList = .ok matched) : ∀ path ∈ matched, 0 ∉ path := by
  unfold Call.matchList at h
  cases hpattern : c.pattern with
  | none =>
    rw [hpattern] at h
    cases h
  | some pattern =>
    rw [hpattern] at h
    exact matchedPaths_nulFree pattern.noNul h

theorem Call.matchList_error {c : Call} {failure : Failure} (h : c.matchList = .error failure) :
    failure.code ≠ 0 := by
  unfold Call.matchList at h
  cases hpattern : c.pattern with
  | none =>
    rw [hpattern] at h
    cases h
    decide
  | some pattern =>
    rw [hpattern] at h
    exact matchedPaths_error h

/-- A call fails and changes nothing, or stores its matches; or the process ends. -/
theorem Call.perform_spec (allocator : Allocator Block) (c : Call) {base : Heap Block}
    {pglob : GlobT} {m : Memory} {held : Option (List (List UInt8))}
    (h : Holds base pglob m held) :
    c.perform allocator pglob m = .aborted ∨
    (∃ code errno, code ≠ 0 ∧ c.perform allocator pglob m = .done ⟨code, errno, some pglob, m⟩) ∨
    ∃ matched pglob' m', c.matchList = .ok matched ∧
      c.perform allocator pglob m = .done ⟨0, none, some pglob', m'⟩ ∧
      pglob'.glOffs = offsetsFor c.flags pglob ∧
      Holds base pglob' m'
        (some ((if hasFlag c.flags GLOB_APPEND then held.getD [] else []) ++ matched)) ∧
      (LayoutsMatch m.layouts → LayoutsMatch m'.layouts) := by
  rw [c.perform_eq]
  cases hmatch : c.matchList with
  | error failure =>
    exact Or.inr (Or.inl ⟨failure.code, failure.errno, c.matchList_error hmatch, rfl⟩)
  | ok matched =>
    rcases storeMatches_spec allocator h (c.matchList_nulFree hmatch) c.flags with
      haborted | ⟨pglob', m', hdone, hoffs, -, hholds, hlayouts⟩
    · exact Or.inl haborted
    · exact Or.inr (Or.inr ⟨matched, pglob', m', rfl, hdone, hoffs, hholds, hlayouts⟩)

/-- The addresses that the struct records: the vector and its strings. -/
def storage (m : Memory) (pglob : GlobT) : List Nat :=
  if pglob.glPathv = 0 then []
  else
    match m.heap pglob.glPathv with
    | some (.vector slots) =>
      pglob.glPathv :: (slots.drop pglob.glOffs).take pglob.glPathc
    | _ => []

/-- `globfree` releases the vector and its strings, and nothing twice. -/
theorem globfree_spec {base : Heap Block} {pglob : GlobT} {m : Memory}
    {held : Option (List (List UInt8))} (h : Holds base pglob m held) :
    ∃ m' freed, globfree (some pglob) m = .done (some ⟨0, 0, 0, 0⟩, m') ∧ m'.heap = base ∧
      m'.released = freed ++ m.released ∧ freed.Perm (storage m pglob) ∧ freed.Nodup ∧
      (LayoutsMatch m.layouts → LayoutsMatch m'.layouts) := by
  unfold globfree storage
  dsimp only
  cases h with
  | empty hnull howns =>
    refine ⟨m, [], ?_, howns.restored, rfl, ?_, List.nodup_nil, id⟩
    · unfold freePathv
      rw [if_pos hnull]
      rfl
    · rw [if_pos hnull]
  | vector hpathc hstored hpaths howns =>
    rename_i entries
    have hnonnull : pglob.glPathv ≠ 0 := howns.nonnull _ List.mem_cons_self
    have hvector := howns.live _ List.mem_cons_self
    obtain ⟨m', hfree, hrest, hreleased, hlayouts⟩ :=
      freePathv_spec [] (by rw [List.append_nil]; exact howns)
    refine ⟨m', _, ?_, hrest.restored, hreleased, ?_, ?_, fun hmatch => ?_⟩
    · rw [hpathc, hfree]
      rfl
    · rw [if_neg hnonnull, hvector]
      dsimp only
      rw [vectorSlots_drop, hpathc,
        List.take_append_of_le_length (by rw [List.length_map]),
        List.take_of_length_le (by rw [List.length_map])]
      exact (List.reverse_perm _).cons _
    · have hnodup := howns.nodup
      unfold ownedBlocks stringBlocks at hnodup
      rw [List.map_cons, List.map_map] at hnodup
      exact ((List.reverse_perm _).cons _).nodup_iff.mpr hnodup
    · rw [hlayouts, ← hpathc]
      exact ⟨hstored, hmatch⟩

/-! ## Sequences -/

/-- What is done with one struct: calls of `glob`, a write of `gl_offs`, and `globfree`. -/
inductive Action where
  | call (c : Call)
  | setOffs (offs : Nat)
  | globfree

/-- The struct and the memory, the match lists of the successful calls that the vector is made of,
and whether all was defined so far. -/
structure Session where
  pglob : GlobT
  memory : Memory
  found : List (List (List UInt8))
  defined : Bool

/-- The call returned. -/
def Session.afterCall (s : Session) (c : Call) (r : Reply) : Session :=
  { pglob := r.pglob.getD s.pglob
    memory := r.memory
    found :=
      if r.code ≠ 0 then s.found
      else (if hasFlag c.flags GLOB_APPEND then s.found else []) ++ c.matchList.toOption.toList
    defined := true }

/-- A step; there is none after the process has ended, or after something undefined. -/
def step (allocator : Allocator Block) (s : Session) (a : Action) : Option Session :=
  if ¬s.defined then none
  else
    match a with
    | .call c =>
      match c.perform allocator s.pglob s.memory with
      | .done r => some (s.afterCall c r)
      | .aborted => none
      | .undefined => some { s with defined := false }
    | .setOffs offs => some { s with pglob := { s.pglob with glOffs := offs } }
    | .globfree =>
      match Glob.globfree (some s.pglob) s.memory with
      | .done freed => some ⟨freed.1.getD s.pglob, freed.2, [], true⟩
      | .aborted => none
      | .undefined => some { s with defined := false }

/-- The paths that the vector is made of, if there is one. -/
def Session.held (s : Session) : Option (List (List UInt8)) :=
  if s.found = [] then none else some s.found.flatten

theorem Session.held_getD (s : Session) : s.held.getD [] = s.found.flatten := by
  unfold Session.held
  split
  · rename_i hempty
    rw [hempty]
    rfl
  · rfl

/-- All was defined, and the struct records what it owns. -/
structure Session.Sound (base : Heap Block) (s : Session) : Prop where
  defined : s.defined = true
  holds : Holds base s.pglob s.memory s.held

/-- The caller leaves `gl_offs` as it is while there is a vector. -/
def KeepsOffs (s : Session) : Action → Prop
  | .setOffs offs => s.pglob.glPathv = 0 ∨ offs = s.pglob.glOffs
  | _ => True

theorem step_call_cases (allocator : Allocator Block) {base : Heap Block} {s s' : Session}
    {c : Call} (hsound : s.Sound base) (hstep : step allocator s (.call c) = some s') :
    (s'.pglob = s.pglob ∧ s'.memory = s.memory ∧ s'.found = s.found ∧ s'.defined = true) ∨
    (s'.pglob.glOffs = offsetsFor c.flags s.pglob ∧ s'.Sound base ∧ s'.found ≠ [] ∧
      (LayoutsMatch s.memory.layouts → LayoutsMatch s'.memory.layouts)) := by
  unfold step at hstep
  rw [if_neg (not_not_intro hsound.defined)] at hstep
  dsimp only at hstep
  rcases c.perform_spec allocator hsound.holds with
    haborted | ⟨code, errno, hcode, hdone⟩ | ⟨matched, pglob', m', hmatch, hdone, hoffs, hholds,
      hlayouts⟩
  · rw [haborted] at hstep
    cases hstep
  · rw [hdone] at hstep
    cases hstep
    exact Or.inl ⟨rfl, rfl, if_pos hcode, rfl⟩
  · rw [hdone] at hstep
    cases hstep
    have hfound : (s.afterCall c ⟨0, none, some pglob', m'⟩).found =
        (if hasFlag c.flags GLOB_APPEND then s.found else []) ++ [matched] := by
      unfold Session.afterCall
      rw [hmatch]
      rfl
    have hsome : (s.afterCall c ⟨0, none, some pglob', m'⟩).found ≠ [] := by
      rw [hfound]
      exact List.append_ne_nil_of_right_ne_nil _ (List.cons_ne_nil _ _)
    refine Or.inr ⟨hoffs, ⟨rfl, ?_⟩, hsome, hlayouts⟩
    unfold Session.held
    rw [if_neg hsome, hfound, List.flatten_append, List.flatten_singleton]
    rw [s.held_getD] at hholds
    by_cases happend : hasFlag c.flags GLOB_APPEND = true
    · rw [if_pos happend] at hholds ⊢
      exact hholds
    · rw [if_neg happend] at hholds ⊢
      exact hholds

/-- A step that does not change `gl_offs` behind the vector's back keeps all. -/
theorem step_sound (allocator : Allocator Block) {base : Heap Block} {s s' : Session} {a : Action}
    (hsound : s.Sound base) (hkeeps : KeepsOffs s a) (hstep : step allocator s a = some s') :
    s'.Sound base ∧ (LayoutsMatch s.memory.layouts → LayoutsMatch s'.memory.layouts) := by
  have hrun : ¬¬s.defined = true := not_not_intro hsound.defined
  cases a with
  | call c =>
    rcases step_call_cases allocator hsound hstep with
      ⟨hpglob, hmemory, hfound, hdefined⟩ | ⟨-, hsound', -, hlayouts⟩
    · refine ⟨⟨hdefined, ?_⟩, by rw [hmemory]; exact id⟩
      unfold Session.held
      rw [hpglob, hmemory, hfound]
      exact hsound.holds
    · exact ⟨hsound', hlayouts⟩
  | setOffs offs =>
    unfold step at hstep
    rw [if_neg hrun] at hstep
    cases hstep
    refine ⟨⟨hsound.defined, ?_⟩, id⟩
    change Holds base { s.pglob with glOffs := offs } s.memory s.held
    rcases hkeeps with hnull | rfl
    · have hholds := hsound.holds
      generalize s.held = held at hholds ⊢
      cases hholds with
      | empty _ howns => exact .empty hnull howns
      | vector _ _ _ howns => exact absurd hnull (howns.nonnull _ List.mem_cons_self)
    · exact hsound.holds
  | globfree =>
    obtain ⟨m', freed, hfree, hheap, -, -, -, hlayouts⟩ := globfree_spec hsound.holds
    unfold step at hstep
    rw [if_neg hrun] at hstep
    dsimp only at hstep
    rw [hfree] at hstep
    cases hstep
    refine ⟨⟨rfl, .empty rfl ?_⟩, hlayouts⟩
    rw [hheap]
    exact Owns.refl base

end Rlibc.Glob
