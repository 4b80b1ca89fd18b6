import Rlibc.Glob.Sessions

/-!
# What `glob` promises

A search finds the paths that fit the pattern and stores them in order; the vector grows with the
calls that append to it and `globfree` gives back all of it; and a call that does not append looks
at an old vector exactly when there is one to be released.
-/

namespace Rlibc.Glob

open BlockHeap

/-! ## The results of one call -/

theorem bytesLe_trans (a b c : List UInt8) (hab : bytesLe a b) (hbc : bytesLe b c) :
    bytesLe a c :=
  decide_eq_true (List.le_trans (of_decide_eq_true hab) (of_decide_eq_true hbc))

theorem bytesLe_total (a b : List UInt8) : (bytesLe a b || bytesLe b a) = true := by
  rcases List.le_total a b with h | h
  · rw [bytesLe, decide_eq_true h, Bool.true_or]
  · rw [Bool.or_comm, bytesLe, decide_eq_true h, Bool.true_or]

/-- The list that a call stores, in the order it stores it. -/
theorem matchedPaths_spec {fs : FileSystem} {pattern : List UInt8} {flags : Flags}
    {errfunc : GlobErrorFn} {found : List (List UInt8)}
    (hfound : collectMatches fs pattern flags errfunc = .ok found) (hne : found ≠ []) :
    ∃ stored, matchedPaths fs pattern flags errfunc = .ok stored ∧ stored.Perm found ∧
      if hasFlag flags GLOB_NOSORT then stored = found else stored.Pairwise (· ≤ ·) := by
  have hmatched : matchedPaths fs pattern flags errfunc =
      .ok (if hasFlag flags GLOB_NOSORT then found else found.mergeSort bytesLe) := by
    unfold matchedPaths
    rw [hfound]
    change (if found = [] ∧ _ then _ else _) = _
    rw [if_neg (fun h => hne h.1), if_neg hne]
  refine ⟨_, hmatched, ?_, ?_⟩
  · split
    · exact List.Perm.refl found
    · exact List.mergeSort_perm found bytesLe
  · split
    · rfl
    · have hsorted := List.pairwise_mergeSort bytesLe_trans bytesLe_total found
      exact hsorted.imp fun h => of_decide_eq_true h

theorem glob_of_matchedPaths {fs : FileSystem} {pattern : CStr} {flags : Flags}
    {errfunc : GlobErrorFn} {stored : List (List UInt8)}
    (hstored : matchedPaths fs pattern.bytes flags errfunc = .ok stored)
    (allocator : Allocator Block) (pglob : GlobT) (m : Memory) :
    glob allocator fs (some pattern) flags errfunc (some pglob) m =
      storeMatches allocator stored flags pglob m := by
  unfold glob
  dsimp only
  rw [hstored]

/-- The search finds what the pattern asks for, each path once, and the call stores it. -/
theorem glob_complete_sound (fs : FileSystem) (pattern : CStr) (flags : Flags)
    (errfunc : GlobErrorFn) (hquiet : NoAbort flags errfunc) :
    ∃ found, collectMatches fs pattern.bytes flags errfunc = .ok found ∧ found.Nodup ∧
      (∀ path, path ∈ found ↔ Expected fs (hasFlag flags GLOB_NOESCAPE) pattern.bytes path) ∧
      (found ≠ [] → ∃ stored, stored.Perm found ∧
        (if hasFlag flags GLOB_NOSORT then stored = found else stored.Pairwise (· ≤ ·)) ∧
        ∀ (allocator : Allocator Block) (base : Heap Block) (pglob : GlobT) (m : Memory)
          (held : Option (List (List UInt8))), Holds base pglob m held →
          glob allocator fs (some pattern) flags errfunc (some pglob) m = .aborted ∨
          ∃ pglob' m', glob allocator fs (some pattern) flags errfunc (some pglob) m =
              .done ⟨0, none, some pglob', m'⟩ ∧
            pglob'.glOffs = offsetsFor flags pglob ∧
            Layout m' pglob' pglob'.glOffs
              ((if hasFlag flags GLOB_APPEND then held.getD [] else []) ++ stored)) := by
  obtain ⟨found, hfound, hnodup, hexpected⟩ := collectMatches_spec fs pattern.noNul hquiet
  refine ⟨found, hfound, hnodup, hexpected, fun hne => ?_⟩
  obtain ⟨stored, hstored, hperm, horder⟩ := matchedPaths_spec hfound hne
  refine ⟨stored, hperm, horder, fun allocator base pglob m held hholds => ?_⟩
  rw [glob_of_matchedPaths hstored]
  rcases storeMatches_spec allocator hholds (matchedPaths_nulFree pattern.noNul hstored) flags with
    haborted | ⟨pglob', m', hdone, hoffs, -, hholds', -⟩
  · exact Or.inl haborted
  · exact Or.inr ⟨pglob', m', hdone, hoffs, hholds'.layout.2.2⟩

/-- The entries of each directory are the same three. -/
def threeEntries : FileSystem where
  literalPathExists path := path.names.all fun name => [[98], [97], [dot, 99]].contains name
  isDir path := path.names = []
  readDirectoryNames _ := .ok [[98], [97], [dot, 99]]
  nodup _ _ h := by
    cases h
    decide
  valid _ _ h := by
    cases h
    decide

/-- The lowest free address of a small memory. -/
def lowestFree : Allocator Block where
  pick heap _ := (List.range 16).find? fun address => decide (address ≠ 0 ∧ heap address = none)
  unused heap _ address h := by
    have hfree := List.find?_some h
    exact (of_decide_eq_true hfree).2
  nonnull heap _ address h := by
    have hfree := List.find?_some h
    exact (of_decide_eq_true hfree).1

def unusedMemory : Memory := ⟨fun _ => none, []⟩

theorem collectMatches_threeEntries :
    collectMatches threeEntries [starByte] 0 none = .ok [[98], [97]] := by
  decide +kernel

/-- The small memory has room for the vector and the two names. -/
theorem glob_threeEntries_ne_aborted :
    glob lowestFree threeEntries (some ⟨[starByte], by decide⟩) 0 none (some ⟨0, 0, 0, 0⟩)
      unusedMemory ≠ .aborted := by
  obtain ⟨stored, hstored, hperm, hsorted⟩ :=
    matchedPaths_spec collectMatches_threeEntries (List.cons_ne_nil _ _)
  have horder : stored = [[97], [98]] :=
    (hperm.trans (List.Perm.swap _ _ _)).eq_of_pairwise
      (fun _ _ _ _ => List.le_antisymm) hsorted (by decide)
  rw [glob_of_matchedPaths hstored, horder]
  intro haborted
  have hroom : (match storeMatches lowestFree [[97], [98]] 0 ⟨0, 0, 0, 0⟩ unusedMemory with
      | .aborted => false
      | _ => true) = true := by
    decide +kernel
  rw [haborted] at hroom
  cases hroom

/-- The two entries that `*` fits are found in the order of the directory and stored in theirs. -/
theorem glob_star_finds_entries : ∃ found stored pglob m,
    collectMatches threeEntries [starByte] 0 none = .ok found ∧ found = [[98], [97]] ∧
    found.Nodup ∧
    (∀ path, path ∈ found ↔ Expected threeEntries (hasFlag 0 GLOB_NOESCAPE) [starByte] path) ∧
    stored.Perm found ∧ stored.Pairwise (· ≤ ·) ∧
    glob lowestFree threeEntries (some ⟨[starByte], by decide⟩) 0 none (some ⟨0, 0, 0, 0⟩)
      unusedMemory = .done ⟨0, none, some pglob, m⟩ ∧
    Layout m pglob 0 stored := by
  have hquiet : NoAbort 0 none := ⟨rfl, fun _ h => by cases h⟩
  obtain ⟨found, hfound, hnodup, hexpected, hstores⟩ :=
    glob_complete_sound threeEntries ⟨[starByte], by decide⟩ 0 none hquiet
  cases collectMatches_threeEntries.symm.trans hfound
  obtain ⟨stored, hperm, hsorted, hglob⟩ := hstores (List.cons_ne_nil _ _)
  rcases hglob lowestFree unusedMemory.heap ⟨0, 0, 0, 0⟩ unusedMemory none
      (.empty rfl (Owns.refl _)) with haborted | ⟨pglob, m, hdone, hoffs, hlayout⟩
  · exact absurd haborted glob_threeEntries_ne_aborted
  · rw [hoffs] at hlayout
    exact ⟨_, stored, pglob, m, hfound, rfl, hnodup, hexpected, hperm, hsorted, hdone, hlayout⟩

/-! ## A vector that grows -/

/-- A zeroed struct, with the offset that the caller wants. -/
def zeroed (offs : Nat) (m : Memory) : Session := ⟨⟨0, 0, offs, 0⟩, m, [], true⟩

theorem zeroed_sound (offs : Nat) (m : Memory) : (zeroed offs m).Sound m.heap :=
  ⟨rfl, .empty rfl (Owns.refl m.heap)⟩

/-- What a sequence of appending calls keeps. -/
structure Grows (base : Heap Block) (offs : Nat) (s : Session) : Prop where
  sound : s.Sound base
  offs_eq : s.pglob.glOffs = offs
  pathc_eq : s.found = [] → s.pglob.glPathc = 0

theorem Grows.step {allocator : Allocator Block} {base : Heap Block} {offs : Nat} {s s' : Session}
    {c : Call} (h : Grows base offs s) (hoffs : offsetsFor c.flags s.pglob = offs)
    (hstep : step allocator s (.call c) = some s') : Grows base offs s' := by
  have hsound := (step_sound allocator (a := .call c) h.sound trivial hstep).1
  rcases step_call_cases allocator h.sound hstep with
    ⟨hpglob, -, hfound, -⟩ | ⟨hoffs', -, hsome, -⟩
  · refine ⟨hsound, ?_, ?_⟩
    · rw [hpglob]
      exact h.offs_eq
    · rw [hpglob, hfound]
      exact h.pathc_eq
  · exact ⟨hsound, hoffs'.trans hoffs, fun hempty => absurd hempty hsome⟩

theorem offsetsFor_append {flags : Flags} (h : hasFlag flags GLOB_APPEND = true) (pglob : GlobT) :
    offsetsFor flags pglob = pglob.glOffs := if_pos (Or.inl h)

theorem grows_of_run {allocator : Allocator Block} {m : Memory} {offs : Nat} {calls : List Call}
    (hfirst : ∀ c ∈ calls.head?, hasFlag c.flags GLOB_APPEND = false ∧
      (hasFlag c.flags GLOB_DOOFFS = true ∨ offs = 0))
    (hlater : ∀ c ∈ calls.tail, hasFlag c.flags GLOB_APPEND = true) {s : Session}
    (hrun : Lts.run (step allocator) (zeroed offs m) (calls.map .call) = some s) :
    Grows m.heap offs s := by
  have hstart : Grows m.heap offs (zeroed offs m) :=
    ⟨zeroed_sound offs m, rfl, fun _ => rfl⟩
  cases calls with
  | nil =>
    cases hrun
    exact hstart
  | cons first later =>
    obtain ⟨s₁, hstep, hrest⟩ := Lts.run_cons_eq_some hrun
    obtain ⟨happend, hdooffs⟩ := hfirst first rfl
    have hoffs : offsetsFor first.flags (zeroed offs m).pglob = offs := by
      unfold offsetsFor
      rw [happend]
      rcases hdooffs with hflag | rfl
      · rw [hflag]
        rfl
      · split
        · rfl
        · rfl
    refine Lts.run_preserves_of_mem ?_ (hstart.step hoffs hstep) hrest
    intro a ha s s' hgrows hstep'
    obtain ⟨c, hc, rfl⟩ := List.mem_map.mp ha
    refine hgrows.step ?_ hstep'
    rw [offsetsFor_append (hlater c hc), hgrows.offs_eq]

/-- After any sequence of calls, the vector is made of the match lists of the successful ones, in
their order; a call that fails changes nothing; and `globfree` gives back all that was taken. -/
theorem append_history (allocator : Allocator Block) (m : Memory) (offs : Nat) (calls : List Call)
    (hfirst : ∀ c ∈ calls.head?, hasFlag c.flags GLOB_APPEND = false ∧
      (hasFlag c.flags GLOB_DOOFFS = true ∨ offs = 0))
    (hlater : ∀ c ∈ calls.tail, hasFlag c.flags GLOB_APPEND = true) {s : Session}
    (hrun : Lts.run (step allocator) (zeroed offs m) (calls.map .call) = some s) :
    s.defined = true ∧ s.pglob.glPathc = s.found.flatten.length ∧
    (s.found = [] → s.pglob.glPathv = 0) ∧
    (s.found ≠ [] → Layout s.memory s.pglob offs s.found.flatten) ∧
    (∀ (c : Call) (r : Reply), c.perform allocator s.pglob s.memory = .done r → r.code ≠ 0 →
      r.pglob = some s.pglob ∧ r.memory = s.memory) ∧
    ∃ s' freed, step allocator s .globfree = some s' ∧ s'.defined = true ∧
      s'.pglob = ⟨0, 0, 0, 0⟩ ∧ s'.memory.heap = m.heap ∧
      s'.memory.released = freed ++ s.memory.released ∧
      freed.Perm (storage s.memory s.pglob) ∧ freed.Nodup := by
  obtain ⟨⟨hdefined, hholds⟩, hoffs, hpathc⟩ := grows_of_run hfirst hlater hrun
  have hfree := globfree_spec hholds
  -- A call either fails, with nothing changed, or answers zero; there is no third reply.
  have hcalls : ∀ (c : Call) (r : Reply), c.perform allocator s.pglob s.memory = .done r →
      r.code ≠ 0 → r.pglob = some s.pglob ∧ r.memory = s.memory := by
    intro c r hperform hcode
    rcases c.perform_spec allocator hholds with
      haborted | ⟨code, errno, -, hdone⟩ | ⟨matched, pglob', m', -, hdone, -⟩
    · rw [haborted] at hperform
      cases hperform
    · rw [hdone] at hperform
      cases hperform
      exact ⟨rfl, rfl⟩
    · rw [hdone] at hperform
      cases hperform
      exact absurd rfl hcode
  -- `globfree` undoes the vector that the last call left.
  have hglobfree : ∃ s' freed, step allocator s .globfree = some s' ∧ s'.defined = true ∧
      s'.pglob = ⟨0, 0, 0, 0⟩ ∧ s'.memory.heap = m.heap ∧
      s'.memory.released = freed ++ s.memory.released ∧
      freed.Perm (storage s.memory s.pglob) ∧ freed.Nodup := by
    obtain ⟨m', freed, hdone, hheap, hreleased, hperm, hnodup, -⟩ := hfree
    refine ⟨⟨⟨0, 0, 0, 0⟩, m', [], true⟩, freed, ?_, rfl, rfl, hheap, hreleased, hperm, hnodup⟩
    unfold step
    rw [if_neg (not_not_intro hdefined)]
    dsimp only
    rw [hdone]
    rfl
  unfold Session.held at hholds
  -- Before the first call there is no vector; after it the vector holds every path found.
  by_cases hempty : s.found = []
  · rw [if_pos hempty] at hholds
    have hnull : s.pglob.glPathv = 0 := by
      generalize hnone : (none : Option (List (List UInt8))) = held at hholds
      cases hholds with
      | empty hnull => exact hnull
      | vector => cases hnone
    refine ⟨hdefined, ?_, fun _ => hnull, fun h => absurd hempty h, hcalls, hglobfree⟩
    rw [hempty, hpathc hempty]
    rfl
  · rw [if_neg hempty] at hholds
    obtain ⟨-, hcount, hlayout⟩ := hholds.layout
    rw [hoffs] at hlayout
    exact ⟨hdefined, hcount, fun h => absurd h hempty, fun _ => hlayout, hcalls, hglobfree⟩

def emptyTree : FileSystem where
  literalPathExists _ := false
  isDir path := path.names = []
  readDirectoryNames _ := .ok []
  nodup _ _ h := by
    cases h
    exact List.nodup_nil
  valid _ _ h := by
    cases h
    decide

/-- A call for a name that does not exist. -/
def missing (flags : Flags) : Call := ⟨emptyTree, some ⟨[97], by decide⟩, flags, none⟩

/-- Before a call has succeeded there is no vector, not even an empty one. -/
theorem nomatch_leaves_null :
    ∃ s, Lts.run (step lowestFree) (zeroed 0 unusedMemory) ([missing 0].map .call) = some s ∧
      ¬Layout s.memory s.pglob 0 s.found.flatten := by
  have hmatch : (missing 0).matchList = .error ⟨GLOB_NOMATCH, none⟩ := by decide +kernel
  have hstep : step lowestFree (zeroed 0 unusedMemory) (.call (missing 0)) =
      some ⟨⟨0, 0, 0, 0⟩, unusedMemory, [], true⟩ := by
    unfold step
    rw [if_neg (by decide)]
    dsimp only
    rw [Call.perform_eq, hmatch]
    rfl
  refine ⟨⟨⟨0, 0, 0, 0⟩, unusedMemory, [], true⟩, ?_, ?_⟩
  · rw [List.map_singleton, Lts.run_cons, hstep]
    rfl
  · rintro ⟨entries, -, hvector, -⟩
    cases hvector

/-- One call, and one that appends to it. -/
def twoCalls : List Call :=
  [missing (GLOB_NOCHECK ||| GLOB_DOOFFS), missing (GLOB_NOCHECK ||| GLOB_APPEND)]

theorem append_history_two_calls :
    ∃ s, Lts.run (step lowestFree) (zeroed 1 unusedMemory) (twoCalls.map .call) = some s ∧
      s.pglob.glPathc = 2 ∧ Layout s.memory s.pglob 1 [[97], [97]] := by
  have hruns : (Lts.run (step lowestFree) (zeroed 1 unusedMemory)
      (twoCalls.map .call)).map Session.found = some [[[97]], [[97]]] := by
    decide +kernel
  obtain ⟨s, hrun, hfound⟩ := Option.map_eq_some_iff.mp hruns
  have hfirst : ∀ c ∈ twoCalls.head?, hasFlag c.flags GLOB_APPEND = false ∧
      (hasFlag c.flags GLOB_DOOFFS = true ∨ 1 = 0) := by
    rintro c ⟨rfl⟩
    decide
  have hlater : ∀ c ∈ twoCalls.tail, hasFlag c.flags GLOB_APPEND = true := by
    intro c hc
    rw [List.mem_singleton.mp hc]
    decide
  obtain ⟨-, hcount, -, hlayout, -⟩ :=
    append_history lowestFree unusedMemory 1 twoCalls hfirst hlater hrun
  rw [hfound] at hcount hlayout
  exact ⟨s, hrun, hcount, hlayout (List.cons_ne_nil _ _)⟩

/-! ## Old contents -/

theorem allocateStrings_cases (allocator : Allocator Block) (paths : List (List UInt8))
    (m : Memory) :
    allocateStrings allocator paths m = .aborted ∨
    ∃ strings m', allocateStrings allocator paths m = .done (strings, m') ∧ m'.uses = m.uses := by
  induction paths generalizing m with
  | nil => exact Or.inr ⟨_, m, rfl, rfl⟩
  | cons path paths ih =>
    unfold allocateStrings
    split
    · exact Or.inr ⟨_, m, rfl, rfl⟩
    · cases hpick : allocator.pick m.heap (.string path) with
      | none => exact Or.inl rfl
      | some entry =>
        dsimp only
        rcases ih (m.put entry (.string path)) with haborted | ⟨strings, m', hdone, huses⟩
        · rw [haborted]
          exact Or.inl rfl
        · rw [hdone]
          exact Or.inr ⟨_, m', rfl, huses⟩

/-- An allocation looks at nothing that is there already. -/
theorem allocatePathv_cases (allocator : Allocator Block) (paths : List (List UInt8))
    (offsets : Nat) (m : Memory) :
    allocatePathv allocator paths offsets m = .aborted ∨
    ∃ result m', allocatePathv allocator paths offsets m = .done (result, m') ∧
      m'.uses = m.uses := by
  unfold allocatePathv
  dsimp only
  split
  · exact Or.inl rfl
  · cases hpick : allocator.pick m.heap
        (.vector (List.replicate (offsets + paths.length + 1) 0)) with
    | none => exact Or.inl rfl
    | some pathv =>
      dsimp only
      rcases allocateStrings_cases allocator paths
          (m.put pathv (.vector (List.replicate (offsets + paths.length + 1) 0))) with
        haborted | ⟨strings, m', hdone, huses⟩
      · rw [haborted]
        exact Or.inl rfl
      · rw [hdone]
        refine Or.inr ⟨_, _, rfl, ?_⟩
        cases strings with
        | error errnoValue => exact huses
        | ok entries => exact huses

theorem readSlot_cases (m : Memory) (pathv index : Nat) :
    readSlot m pathv index = .undefined ∨
    ∃ entry, readSlot m pathv index = .done (entry, m.note (.read pathv)) := by
  unfold readSlot
  split
  · split
    · exact Or.inr ⟨_, rfl⟩
    · exact Or.inl rfl
  · exact Or.inl rfl

theorem freeEntries_cases (pathv count index : Nat) (m : Memory) :
    freeEntries pathv count index m = .undefined ∨
    ∃ m', freeEntries pathv count index m = .done m' ∧ m.uses.length ≤ m'.uses.length := by
  induction count generalizing index m with
  | zero => exact Or.inr ⟨m, rfl, Nat.le_refl _⟩
  | succ count ih =>
    unfold freeEntries
    rcases readSlot_cases m pathv index with hundefined | ⟨entry, hread⟩
    · rw [hundefined]
      exact Or.inl rfl
    · rw [hread, Outcome.done_bind]
      dsimp only
      split
      · rcases ih (index + 1) (m.note (.read pathv)) with hundefined | ⟨m', hdone, hle⟩
        · exact Or.inl hundefined
        · exact Or.inr ⟨m', hdone, Nat.le_of_succ_le hle⟩
      · unfold freeString
        split
        · rw [Outcome.done_bind]
          rcases ih (index + 1) (((m.note (.read pathv)).release entry).note (.freeString entry))
            with hundefined | ⟨m', hdone, hle⟩
          · exact Or.inl hundefined
          · exact Or.inr ⟨m', hdone, Nat.le_of_succ_le (Nat.le_of_succ_le hle)⟩
        · exact Or.inl rfl

/-- An old vector is looked at, or what happens is undefined. -/
theorem releaseOld_cases {pglob : GlobT} (hpathv : pglob.glPathv ≠ 0) (m : Memory) :
    releaseOld pglob m = .undefined ∨
    ∃ m', releaseOld pglob m = .done m' ∧ m.uses.length < m'.uses.length := by
  unfold releaseOld globfree freePathv
  dsimp only
  rw [if_pos hpathv, if_neg hpathv]
  rcases freeEntries_cases pglob.glPathv pglob.glPathc pglob.glOffs m with
    hundefined | ⟨m', hdone, hle⟩
  · rw [hundefined]
    exact Or.inl rfl
  · rw [hdone, Outcome.done_bind]
    unfold freeSlots
    split
    · split
      · exact Or.inr ⟨_, rfl, Nat.lt_succ_of_le hle⟩
      · exact Or.inl rfl
    · exact Or.inl rfl

/-- The call has matches to store, and memory for them. -/
def Stores (allocator : Allocator Block) (c : Call) (offsets : Nat) (m : Memory) : Prop :=
  ∃ matched pathv m', c.matchList = .ok matched ∧
    allocatePathv allocator matched offsets m = .done (.ok pathv, m')

/-- The same status and the same result, and no look at what was there before. -/
def Unaffected (m : Memory) (o₁ o₂ : Outcome Reply) : Prop :=
  (o₁ = .aborted ∧ o₂ = .aborted) ∨
  ∃ r₁ r₂, o₁ = .done r₁ ∧ o₂ = .done r₂ ∧ r₁.code = r₂.code ∧ r₁.errno = r₂.errno ∧
    (r₁.code = 0 → r₁.pglob = r₂.pglob) ∧ r₁.memory.heap = r₂.memory.heap ∧
    r₁.memory.uses = m.uses ∧ r₂.memory.uses = m.uses

/-- What a call without `GLOB_APPEND` does, up to the release of the old vector. -/
theorem perform_fresh (allocator : Allocator Block) (c : Call)
    (happend : hasFlag c.flags GLOB_APPEND = false) (m : Memory) (offsets : Nat) :
    (¬Stores allocator c offsets m ∧
      ((∀ pglob, offsetsFor c.flags pglob = offsets → c.perform allocator pglob m = .aborted) ∨
      ∃ code errno m', code ≠ 0 ∧ m'.uses = m.uses ∧ ∀ pglob, offsetsFor c.flags pglob = offsets →
        c.perform allocator pglob m = .done ⟨code, errno, some pglob, m'⟩)) ∨
    (Stores allocator c offsets m ∧ ∃ count pathv m', m'.uses = m.uses ∧
      ∀ pglob, offsetsFor c.flags pglob = offsets → c.perform allocator pglob m =
        releaseOld pglob m' >>= fun released =>
          .done ⟨0, none, some ⟨count, pathv, offsets, c.flags⟩, released⟩) := by
  -- The search does not look at the old vector, so the same paths are found for every `pglob`.
  cases hmatch : c.matchList with
  | error failure =>
    refine Or.inl ⟨?_, Or.inr ⟨failure.code, failure.errno, m, c.matchList_error hmatch, rfl,
      fun pglob _ => ?_⟩⟩
    · rintro ⟨matched, _, _, hok, -⟩
      cases hmatch.symm.trans hok
    · rw [c.perform_eq, hmatch]
  | ok matched =>
    have hperform : ∀ pglob, offsetsFor c.flags pglob = offsets →
        c.perform allocator pglob m = storePaths allocator matched c.flags pglob m := by
      intro pglob _
      rw [c.perform_eq, hmatch]
      dsimp only
      unfold storeMatches existingPaths
      rw [happend]
      rfl
    -- Nor does the allocation: what it needs is the paths and the number of leading slots.
    rcases allocatePathv_cases allocator matched offsets m with
      haborted | ⟨result, m', hdone, huses⟩
    · refine Or.inl ⟨?_, Or.inl fun pglob hoffs => ?_⟩
      · rintro ⟨matched', _, _, hok, hdone⟩
        cases hmatch.symm.trans hok
        cases haborted.symm.trans hdone
      · rw [hperform pglob hoffs]
        unfold storePaths
        rw [hoffs, haborted]
        rfl
    · cases result with
      | error errnoValue =>
        refine Or.inl ⟨?_, Or.inr ⟨GLOB_NOSPACE, some errnoValue, m', by decide, huses,
          fun pglob hoffs => ?_⟩⟩
        · rintro ⟨matched', _, _, hok, hdone'⟩
          cases hmatch.symm.trans hok
          cases hdone.symm.trans hdone'
        · rw [hperform pglob hoffs]
          unfold storePaths
          rw [hoffs, hdone]
          rfl
      | ok pathv =>
        refine Or.inr ⟨⟨matched, pathv, m', hmatch, hdone⟩, matched.length, pathv, m', huses,
          fun pglob hoffs => ?_⟩
        rw [hperform pglob hoffs]
        unfold storePaths
        rw [hoffs, hdone]
        rfl

/-- An old vector makes itself felt exactly when the call has something to store. -/
theorem unaffected_iff (allocator : Allocator Block) (c : Call)
    (happend : hasFlag c.flags GLOB_APPEND = false) (m : Memory) (pglob₁ pglob₂ : GlobT)
    (hoffs : hasFlag c.flags GLOB_DOOFFS = true → pglob₁.glOffs = pglob₂.glOffs) :
    Unaffected m (c.perform allocator pglob₁ m) (c.perform allocator pglob₂ m) ↔
      (pglob₁.glPathv = 0 ∧ pglob₂.glPathv = 0) ∨
        ¬Stores allocator c (offsetsFor c.flags pglob₁) m := by
  have hsame : offsetsFor c.flags pglob₂ = offsetsFor c.flags pglob₁ := by
    unfold offsetsFor
    rw [happend]
    by_cases hdooffs : hasFlag c.flags GLOB_DOOFFS = true
    · rw [hdooffs, hoffs hdooffs]
    · rw [Bool.not_eq_true] at hdooffs
      rw [hdooffs]
      rfl
  rcases perform_fresh allocator c happend m (offsetsFor c.flags pglob₁) with
    ⟨hnot, haborted | ⟨code, errno, m', hcode, huses, hdone⟩⟩ |
    ⟨hstores, count, pathv, m', huses, hrelease⟩
  · refine iff_of_true (Or.inl ?_) (Or.inr hnot)
    exact ⟨haborted pglob₁ rfl, haborted pglob₂ hsame⟩
  · refine iff_of_true (Or.inr ?_) (Or.inr hnot)
    exact ⟨_, _, hdone pglob₁ rfl, hdone pglob₂ hsame, rfl, rfl, fun h => absurd h hcode, rfl,
      huses, huses⟩
  · rw [hrelease pglob₁ rfl, hrelease pglob₂ hsame]
    -- An old vector is used, so that the property fails; without one, both calls are one.
    have hused : ∀ (pglob : GlobT) (r : Reply), pglob.glPathv ≠ 0 →
        (releaseOld pglob m' >>= fun released => Outcome.done (Reply.mk 0 none
          (some ⟨count, pathv, offsetsFor c.flags pglob₁, c.flags⟩) released)) = .done r →
        r.memory.uses ≠ m.uses := by
      intro pglob r hpathv hdone heq
      rcases releaseOld_cases hpathv m' with hundefined | ⟨m'', hreleased, hlt⟩
      · rw [hundefined] at hdone
        cases hdone
      · rw [hreleased] at hdone
        cases hdone
        rw [huses] at hlt
        exact absurd (congrArg List.length heq) (Nat.ne_of_gt hlt)
    have hnever : ∀ pglob : GlobT, (releaseOld pglob m' >>= fun released =>
        Outcome.done (Reply.mk 0 none
          (some ⟨count, pathv, offsetsFor c.flags pglob₁, c.flags⟩) released)) ≠ .aborted := by
      intro pglob haborted
      by_cases hpathv : pglob.glPathv = 0
      · unfold releaseOld at haborted
        rw [if_neg (not_not_intro hpathv)] at haborted
        cases haborted
      · rcases releaseOld_cases hpathv m' with hundefined | ⟨m'', hreleased, -⟩
        · rw [hundefined] at haborted
          cases haborted
        · rw [hreleased] at haborted
          cases haborted
    constructor
    · rintro (⟨haborted, -⟩ | ⟨r₁, r₂, hdone₁, hdone₂, -, -, -, -, huses₁, huses₂⟩)
      · exact absurd haborted (hnever pglob₁)
      · refine Or.inl ⟨?_, ?_⟩
        · exact Classical.byContradiction fun hpathv => hused pglob₁ r₁ hpathv hdone₁ huses₁
        · exact Classical.byContradiction fun hpathv => hused pglob₂ r₂ hpathv hdone₂ huses₂
    · rintro (⟨hnull₁, hnull₂⟩ | hnot)
      · unfold releaseOld
        rw [if_neg (not_not_intro hnull₁), if_neg (not_not_intro hnull₂)]
        exact Or.inr ⟨_, _, rfl, rfl, rfl, rfl, fun _ => rfl, rfl, huses, huses⟩
      · exact absurd hstores hnot

/-- A session of a struct without a vector: whatever the other fields are. -/
theorem layouts_match (allocator : Allocator Block) (heap : Heap Block) {pglob : GlobT}
    (hnull : pglob.glPathv = 0) {actions : List Action}
    (hkeeps : Lts.EachStep (step allocator) KeepsOffs ⟨pglob, ⟨heap, []⟩, [], true⟩ actions) :
    Lts.Always (step allocator) (fun s => s.defined = true ∧ LayoutsMatch s.memory.layouts)
      ⟨pglob, ⟨heap, []⟩, [], true⟩ actions := by
  have hinv : Lts.Always (step allocator) (fun s => s.Sound heap ∧ LayoutsMatch s.memory.layouts)
      ⟨pglob, ⟨heap, []⟩, [], true⟩ actions := by
    refine Lts.always_of_eachStep ?_ ⟨⟨rfl, .empty hnull (Owns.refl heap)⟩, trivial⟩ hkeeps
    rintro s a s' ⟨hsound, hmatch⟩ hgate hstep
    obtain ⟨hsound', hlayouts⟩ := step_sound allocator hsound hgate hstep
    exact ⟨hsound', hlayouts hmatch⟩
  exact hinv.imp fun s h => ⟨h.1.defined, h.2⟩

/-- A call without `GLOB_APPEND` is independent of the old `gl_pathc` and `gl_pathv` exactly when
there is no old vector, or nothing to store; and vectors are released with the layout they were
stored with while the caller leaves `gl_offs` alone. -/
theorem old_contents (allocator : Allocator Block) :
    (∀ (c : Call) (m : Memory) (pglob₁ pglob₂ : GlobT), hasFlag c.flags GLOB_APPEND = false →
      (hasFlag c.flags GLOB_DOOFFS = true → pglob₁.glOffs = pglob₂.glOffs) →
      (Unaffected m (c.perform allocator pglob₁ m) (c.perform allocator pglob₂ m) ↔
        (pglob₁.glPathv = 0 ∧ pglob₂.glPathv = 0) ∨
          ¬Stores allocator c (offsetsFor c.flags pglob₁) m)) ∧
    (∀ (heap : Heap Block) (pglob : GlobT) (actions : List Action), pglob.glPathv = 0 →
      Lts.EachStep (step allocator) KeepsOffs ⟨pglob, ⟨heap, []⟩, [], true⟩ actions →
      Lts.Always (step allocator) (fun s => s.defined = true ∧ LayoutsMatch s.memory.layouts)
        ⟨pglob, ⟨heap, []⟩, [], true⟩ actions) :=
  ⟨fun c m pglob₁ pglob₂ happend hoffs => unaffected_iff allocator c happend m pglob₁ pglob₂ hoffs,
    fun heap _ _ hnull hkeeps => layouts_match allocator heap hnull hkeeps⟩

/-- Two structs with no vector, and a run that changes `gl_offs` between `globfree` and `glob`. -/
theorem old_contents_instance :
    Unaffected unusedMemory ((missing GLOB_NOCHECK).perform lowestFree ⟨0, 0, 0, 0⟩ unusedMemory)
        ((missing GLOB_NOCHECK).perform lowestFree ⟨5, 0, 8, 3⟩ unusedMemory) ∧
      Lts.Always (step lowestFree) (fun s => s.defined = true ∧ LayoutsMatch s.memory.layouts)
        ⟨⟨5, 0, 8, 3⟩, unusedMemory, [], true⟩
        [.setOffs 2, .call (missing (GLOB_NOCHECK ||| GLOB_DOOFFS)), .globfree] := by
  obtain ⟨hcalls, hruns⟩ := old_contents lowestFree
  refine ⟨?_, hruns _ _ _ rfl ?_⟩
  · exact (hcalls (missing GLOB_NOCHECK) unusedMemory ⟨0, 0, 0, 0⟩ ⟨5, 0, 8, 3⟩ (by decide)
      (fun h => absurd h (by decide))).mpr (Or.inl ⟨rfl, rfl⟩)
  · intro s₁ hs₁
    refine ⟨Or.inl rfl, fun s₂ hs₂ => ⟨trivial, fun s₃ hs₃ => ⟨trivial, trivial⟩⟩⟩

/-- A struct with a pointer that was left in it is not the same as a zeroed one. -/
theorem garbage_pathv_is_freed :
    ¬∀ (c : Call) (m : Memory) (pglob₁ pglob₂ : GlobT), hasFlag c.flags GLOB_APPEND = false →
      (hasFlag c.flags GLOB_DOOFFS = true → pglob₁.glOffs = pglob₂.glOffs) →
      Unaffected m (c.perform lowestFree pglob₁ m) (c.perform lowestFree pglob₂ m) := by
  intro hall
  have hmatch : (missing GLOB_NOCHECK).matchList = .ok [[97]] := by decide +kernel
  have hundefined : (missing GLOB_NOCHECK).perform lowestFree ⟨0, 9, 0, 0⟩ unusedMemory =
      .undefined := by
    rw [Call.perform_eq, hmatch]
    rfl
  have hboth := hall (missing GLOB_NOCHECK) unusedMemory ⟨0, 9, 0, 0⟩ ⟨0, 0, 0, 0⟩ (by decide)
    (fun _ => rfl)
  rw [hundefined] at hboth
  rcases hboth with ⟨haborted, -⟩ | ⟨r₁, r₂, hdone, -⟩
  · cases haborted
  · cases hdone

end Rlibc.Glob
