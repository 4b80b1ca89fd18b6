import Rlibc.Stdlib.EnvStore

/-!
# The environment keeps its store

`Refines h s st` says that the state `s` is sound (`Inv`) and amounts to the store `st`.  Every
helper of the source has one lemma about it, and `call_refines` puts them together.
-/

namespace Rlibc.Stdlib

open ByteMem

/-- The entries the owned copy is made from. -/
def Host.initialEntries (h : Host) : List (List UInt8) :=
  match h.startup with
  | some entries => entries
  | none => copyEntriesFromHostEnv h

namespace EnvState

/-! ## Vectors of pointers -/

/-- The vector is null-terminated and its pointers lead, in order, to the given strings. -/
def Represents (read : EntryPtr → Option (List UInt8)) :
    List (Option EntryPtr) → List (List UInt8) → Prop
  | [none], [] => True
  | some entry :: rest, bytes :: entries => read entry = some bytes ∧ Represents read rest entries
  | _, _ => False

theorem represents_of_map {α : Type} {read : EntryPtr → Option (List UInt8)}
    {ptr : α → EntryPtr} {bytes : α → List UInt8} {xs : List α}
    (h : ∀ x ∈ xs, read (ptr x) = some (bytes x)) :
    Represents read (xs.map (fun x => some (ptr x)) ++ [none]) (xs.map bytes) := by
  induction xs with
  | nil => trivial
  | cons x xs ih =>
    exact ⟨h x List.mem_cons_self, ih fun y hy => h y (List.mem_cons_of_mem x hy)⟩

theorem copyEntriesFromEnviron_eq {read : EntryPtr → Option (List UInt8)}
    {vector : List (Option EntryPtr)} {entries : List (List UInt8)}
    (h : Represents read vector entries) : copyEntriesFromEnviron read vector = entries := by
  fun_induction Represents read vector entries with
  | case1 => rfl
  | case2 entry rest bytes entries ih =>
    rw [copyEntriesFromEnviron, h.1]
    exact congrArg (bytes :: ·) (ih h.2)
  | case3 => exact h.elim

/-- The walk over a vector finds the first entry for the name. -/
theorem lookupEnvironValue_eq {read : EntryPtr → Option (List UInt8)} (name : List UInt8)
    {vector : List (Option EntryPtr)} {entries : List (List UInt8)}
    (h : Represents read vector entries) :
    (lookupEnvironValue read name vector = none ∧ entryValue entries name = none) ∨
      ∃ entry bytes, lookupEnvironValue read name vector = some (.inEntry entry (name.length + 1)) ∧
        read entry = some bytes ∧ entryValue entries name = some (bytes.drop (name.length + 1)) := by
  fun_induction Represents read vector entries with
  | case1 => exact Or.inl ⟨rfl, rfl⟩
  | case2 entry rest bytes entries ih =>
    rw [lookupEnvironValue, h.1, entryValue_cons]
    by_cases hhas : envEntryHasName bytes name = true
    · right
      exact ⟨entry, bytes, by simp only [if_pos hhas], h.1, if_pos hhas⟩
    · simp only [if_neg hhas]
      exact ih h.2
  | case3 => exact h.elim

/-! ## Soundness of a state -/

/-- The vector published for the owned copy. -/
def ownedVector (entries : List CString) : List (Option EntryPtr) :=
  entries.map (fun entry => some (.owned entry.id)) ++ [none]

structure Inv (h : Host) (s : EnvState) : Prop where
  untouched : s.initialized = false →
    s.environ = (if h.startup.isSome then .startup else .null) ∧ s.aliases = []
  published : s.initialized = true →
    (s.entries = [] ∧ s.environ = .null) ∨
      (s.entries ≠ [] ∧ s.environ = .pointers ∧ s.pointers = ownedVector s.entries)
  distinct : (s.entries.map (·.id)).Nodup
  fresh : ∀ entry ∈ s.entries, entry.id < s.nextId
  aliasNames : (s.aliases.map (·.name)).Nodup
  aliasAddrs : ∀ entry ∈ s.aliases, entry.entryAddr ≠ 0

/-- The store that a state amounts to. -/
def toStore (h : Host) (s : EnvState) : EnvStore :=
  { mem := s.mem, aliases := s.aliases,
    entries := if s.initialized then s.entries.map (·.bytes) else h.initialEntries }

/-- A sound state that amounts to the store. -/
structure Refines (h : Host) (s : EnvState) (st : EnvStore) : Prop where
  inv : Inv h s
  store : s.toStore h = st

/-- The same, after the owned copy has been made. -/
structure Ready (h : Host) (s : EnvState) (st : EnvStore) : Prop extends Refines h s st where
  initialized : s.initialized = true

theorem initial_refines (h : Host) (mem : Mem) (errno : Int) :
    Refines h (initial h mem errno) ⟨mem, h.initialEntries, []⟩ where
  inv :=
    { untouched := fun _ => ⟨rfl, rfl⟩
      published := fun hi => nomatch hi
      distinct := List.nodup_nil
      fresh := fun _ hmem => nomatch hmem
      aliasNames := List.nodup_nil
      aliasAddrs := fun _ hmem => nomatch hmem }
  store := rfl

section

variable {h : Host} {s : EnvState} {st : EnvStore}

theorem Refines.mem (hs : Refines h s st) : s.mem = st.mem := congrArg EnvStore.mem hs.store

theorem Refines.aliases (hs : Refines h s st) : s.aliases = st.aliases :=
  congrArg EnvStore.aliases hs.store

theorem Ready.entries (hs : Ready h s st) : s.entries.map (·.bytes) = st.entries := by
  have hentries := congrArg EnvStore.entries hs.store
  unfold toStore at hentries
  rw [if_pos hs.initialized] at hentries
  exact hentries

theorem Ready.refines (hs : Ready h s st) : Refines h s st := hs.toRefines

/-- `errno` is no part of the store. -/
theorem Refines.withErrno (hs : Refines h s st) (errno : Int) :
    Refines h { s with errno := errno } st where
  inv := { hs.inv with }
  store := hs.store

theorem Ready.withErrno (hs : Ready h s st) (errno : Int) :
    Ready h { s with errno := errno } st :=
  { hs.refines.withErrno errno with initialized := hs.initialized }

/-- Reading through a pointer of the published vector. -/
theorem Inv.read_owned (hs : Inv h s) {entry : CString} (hmem : entry ∈ s.entries) :
    s.read h (.owned entry.id) = some entry.bytes := by
  have hfind : s.entries.find? (fun e => e.id = entry.id) = some entry := by
    rw [List.find?_eq_some_iff_append]
    cases List.append_of_mem hmem with
    | intro before hrest =>
      cases hrest with
      | intro after heq =>
        apply And.intro (decide_eq_true rfl)
        apply Exists.intro before
        apply Exists.intro after
        apply And.intro heq
        intro e he
        have hdistinct := hs.distinct
        rw [heq, List.map_append, List.nodup_append] at hdistinct
        have hne := hdistinct.2.2 e.id (List.mem_map_of_mem he) entry.id
          (List.mem_map_of_mem List.mem_cons_self)
        simpa using hne
  show (s.entries.find? fun e => e.id = entry.id).map (·.bytes) = some entry.bytes
  rw [hfind]
  rfl

/-- The vector behind a non-null `environ` represents the entries of the store. -/
theorem Refines.represents (hs : Refines h s st) (hnull : s.environ ≠ .null) :
    Represents (s.read h) (s.vector h) st.entries := by
  have hentries : (s.toStore h).entries = st.entries := congrArg EnvStore.entries hs.store
  rw [← hentries]
  -- After the first change the vector is the published one; before it, that of the process.
  cases hi : s.initialized with
  | true =>
    cases hs.inv.published hi with
    | inl hempty => exact absurd hempty.2 hnull
    | inr hpub =>
      unfold toStore vector
      rw [hpub.2.1, if_pos hi]
      dsimp only
      rw [hpub.2.2]
      exact represents_of_map fun entry hmem => hs.inv.read_owned hmem
  | false =>
    have henv := (hs.inv.untouched hi).1
    cases hstart : h.startup with
    | none =>
      rw [hstart] at henv
      exact absurd henv hnull
    | some startup =>
      rw [hstart] at henv
      have hinit : h.initialEntries = startup := by
        unfold Host.initialEntries
        rw [hstart]
      unfold toStore vector
      rw [henv, hi]
      simp only [Option.isSome_some, if_true, Bool.false_eq_true, if_false, hinit, hstart,
        Option.getD_some]
      -- The untouched vector points at the strings of the start, one after another.
      have hall : (List.range startup.length).map (fun i => (startup[i]?).getD []) = startup := by
        apply List.ext_getElem
        · rw [List.length_map, List.length_range]
        · intro i hi hi'
          rw [List.getElem_map, List.getElem_range, List.getElem?_eq_getElem hi', Option.getD_some]
      have hread : ∀ i ∈ List.range startup.length,
          s.read h (.startup i) = some ((startup[i]?).getD []) := by
        intro i hi
        have hlt := List.mem_range.mp hi
        show (h.startup.getD [])[i]? = _
        rw [hstart, Option.getD_some, List.getElem?_eq_getElem hlt, Option.getD_some]
      have hrep := represents_of_map hread
      rw [hall] at hrep
      exact hrep

/-! ## The owned copy -/

/-- Publishing makes any list of distinct entries sound. -/
theorem publish_ready (hi : s.initialized = true) (hdistinct : (s.entries.map (·.id)).Nodup)
    (hfresh : ∀ entry ∈ s.entries, entry.id < s.nextId)
    (hnames : (s.aliases.map (·.name)).Nodup) (haddrs : ∀ entry ∈ s.aliases, entry.entryAddr ≠ 0) :
    Ready h s.publish ⟨s.mem, s.entries.map (·.bytes), s.aliases⟩ := by
  unfold publish
  split
  · rename_i hempty
    exact
      { inv :=
          { untouched := fun hno => absurd (hi.symm.trans hno) (by decide)
            published := fun _ => Or.inl ⟨hempty, rfl⟩
            distinct := hdistinct
            fresh := hfresh
            aliasNames := hnames
            aliasAddrs := haddrs }
        store := by
          unfold toStore
          rw [if_pos hi]
        initialized := hi }
  · rename_i hne
    exact
      { inv :=
          { untouched := fun hno => absurd (hi.symm.trans hno) (by decide)
            published := fun _ => Or.inr ⟨hne, rfl, rfl⟩
            distinct := hdistinct
            fresh := hfresh
            aliasNames := hnames
            aliasAddrs := haddrs }
        store := by
          unfold toStore
          rw [if_pos hi]
        initialized := hi }

theorem allocCStrings_bytes (next : Nat) (copied : List (List UInt8)) :
    (allocCStrings next copied).map (·.bytes) = copied := by
  induction copied generalizing next with
  | nil => rfl
  | cons bytes copied ih => exact congrArg (bytes :: ·) (ih (next + 1))

theorem allocCStrings_ids (next : Nat) (copied : List (List UInt8)) :
    (allocCStrings next copied).map (·.id) = List.range' next copied.length := by
  induction copied generalizing next with
  | nil => rfl
  | cons bytes copied ih => exact congrArg (next :: ·) (ih (next + 1))

theorem Refines.ensureInitialized (hs : Refines h s st) : Ready h (s.ensureInitialized h) st := by
  unfold EnvState.ensureInitialized
  split
  · rename_i hi
    exact { hs with initialized := hi }
  · rename_i hno
    have hno : s.initialized = false := by simpa using hno
    have huntouched := hs.inv.untouched hno
    have hstore : h.initialEntries = st.entries := by
      have hentries := congrArg EnvStore.entries hs.store
      unfold toStore at hentries
      rwa [hno, if_neg Bool.false_ne_true] at hentries
    -- What is copied are the entries that the store holds already.
    have hcopied : s.copiedEntries h = st.entries := by
      unfold copiedEntries
      split
      · rename_i henv
        rw [← hstore]
        unfold Host.initialEntries
        split
        · rename_i startup hstart
          rw [henv, hstart] at huntouched
          cases huntouched.1
        · rfl
      · rename_i hnull
        exact copyEntriesFromEnviron_eq (hs.represents hnull)
    dsimp only
    rw [hcopied]
    -- Every copy gets an identifier of its own, so publishing them keeps the invariant.
    have hready := publish_ready (h := h) (s := { s with
      entries := allocCStrings s.nextId st.entries, initialized := true,
      nextId := s.nextId + st.entries.length }) rfl
      (by rw [allocCStrings_ids]; exact List.nodup_range')
      (by
        intro entry hmem
        have hid := List.mem_map_of_mem (f := CString.id) hmem
        rw [allocCStrings_ids, List.mem_range'_1] at hid
        exact hid.2)
      hs.inv.aliasNames hs.inv.aliasAddrs
    have hst : (⟨s.mem, st.entries, s.aliases⟩ : EnvStore) = st := by rw [hs.mem, hs.aliases]
    dsimp only at hready
    rwa [allocCStrings_bytes, hst] at hready


theorem retainFirst_true (name : List UInt8) (entries : List CString) :
    (retainFirst name true entries).map (·.bytes) = removeEntries (entries.map (·.bytes)) name := by
  induction entries with
  | nil => rfl
  | cons entry entries ih =>
    unfold removeEntries at ih ⊢
    rw [retainFirst, List.map_cons, List.filter_cons]
    by_cases hhas : envEntryHasName entry.bytes name = true
    · rw [if_neg (not_not.mpr hhas), if_pos rfl, if_neg (by simpa using hhas), ih]
    · rw [if_pos hhas, if_pos (by simpa using hhas), List.map_cons, ih]

theorem retainFirst_sublist (name : List UInt8) (keptFirst : Bool) (entries : List CString) :
    (retainFirst name keptFirst entries).Sublist entries := by
  induction entries generalizing keptFirst with
  | nil => exact List.Sublist.slnil
  | cons entry entries ih =>
    unfold retainFirst
    split
    · exact (ih keptFirst).cons_cons entry
    · split
      · exact (ih keptFirst).cons entry
      · exact (ih true).cons_cons entry

theorem replaceOrPush_bytes {name : List UInt8} {new : CString}
    (hnew : envEntryHasName new.bytes name = true) (entries : List CString) :
    (replaceOrPush name new entries).map (·.bytes) =
      setEntry name new.bytes (entries.map (·.bytes)) := by
  induction entries with
  | nil => rfl
  | cons entry entries ih =>
    unfold replaceOrPush findNameIndex at ih ⊢
    rw [List.findIdx?_cons, List.map_cons, setEntry]
    by_cases hhas : envEntryHasName entry.bytes name = true
    · rw [if_pos hhas, if_pos hhas]
      dsimp only
      rw [List.set_cons_zero, retainFirst, if_neg (not_not.mpr hnew), if_neg Bool.false_ne_true,
        List.map_cons, retainFirst_true]
    · rw [if_neg hhas, if_neg hhas, ← ih]
      cases entries.findIdx? fun entry => envEntryHasName entry.bytes name with
      | none => rfl
      | some index =>
        dsimp only [Option.map_some]
        rw [List.set_cons_succ, retainFirst, if_pos hhas, List.map_cons]

theorem mem_replaceOrPush {name : List UInt8} {new entry : CString} {entries : List CString}
    (hmem : entry ∈ replaceOrPush name new entries) : entry ∈ entries ∨ entry = new := by
  unfold replaceOrPush at hmem
  split at hmem
  · exact List.mem_or_eq_of_mem_set ((retainFirst_sublist name false _).subset hmem)
  · rw [List.mem_append, List.mem_singleton] at hmem
    exact hmem

theorem replaceOrPush_distinct {name : List UInt8} {new : CString} {entries : List CString}
    (hdistinct : (entries.map (·.id)).Nodup) (hfresh : ∀ entry ∈ entries, entry.id < new.id) :
    ((replaceOrPush name new entries).map (·.id)).Nodup := by
  have hnot : new.id ∉ entries.map (·.id) := by
    intro hmem
    cases List.mem_map.mp hmem with
    | intro entry hentry => exact absurd hentry.2 (Nat.ne_of_lt (hfresh entry hentry.1))
  unfold replaceOrPush
  split
  · apply ((retainFirst_sublist name false _).map _).nodup
    rw [List.map_set]
    exact hdistinct.set hnot
  · rw [List.map_append, List.map_singleton]
    exact List.nodup_append.mpr ⟨hdistinct, List.nodup_singleton _, fun a ha b hb hab =>
      hnot (List.mem_singleton.mp hb ▸ hab ▸ ha)⟩

theorem Ready.setNameValue (hs : Ready h s st) {name : List UInt8} (hname : ValidName name)
    (value : List UInt8) :
    Ready h (s.setNameValue name value)
      { st with entries := setEntry name (buildEnvEntry name value) st.entries } := by
  have hready := publish_ready (h := h)
    (s := { s with entries := replaceOrPush name ⟨s.nextId, buildEnvEntry name value⟩ s.entries,
                   nextId := s.nextId + 1 })
    hs.initialized (replaceOrPush_distinct hs.inv.distinct hs.inv.fresh)
    (by
      intro entry hmem
      cases mem_replaceOrPush hmem with
      | inl hold => exact Nat.lt_succ_of_lt (hs.inv.fresh entry hold)
      | inr hnew =>
        rw [hnew]
        show s.nextId < s.nextId + 1
        omega)
    hs.inv.aliasNames hs.inv.aliasAddrs
  dsimp only at hready
  rw [replaceOrPush_bytes (envEntryHasName_build hname), hs.entries, hs.mem, hs.aliases] at hready
  unfold EnvState.setNameValue
  dsimp only
  rw [hs.mem, hs.aliases]
  exact hready

theorem Ready.removeName (hs : Ready h s st) (name : List UInt8) :
    Ready h (s.removeName name) { st with entries := removeEntries st.entries name } := by
  have hbytes : (s.entries.filter fun entry => ¬ envEntryHasName entry.bytes name).map (·.bytes) =
      removeEntries st.entries name := by
    rw [← hs.entries]
    unfold removeEntries
    rw [List.filter_map]
    rfl
  have hsub := List.filter_sublist
    (p := fun entry : CString => ¬ envEntryHasName entry.bytes name) (l := s.entries)
  have hready := publish_ready (h := h)
    (s := { s with entries := s.entries.filter fun entry => ¬ envEntryHasName entry.bytes name })
    hs.initialized ((hsub.map _).nodup hs.inv.distinct)
    (fun entry hmem => hs.inv.fresh entry (hsub.subset hmem))
    hs.inv.aliasNames hs.inv.aliasAddrs
  dsimp only at hready
  rw [hbytes] at hready
  unfold EnvState.removeName
  dsimp only
  split
  · rw [← hs.mem, ← hs.aliases]
    exact hready
  · rename_i hlen
    -- Nothing was removed, so what is published still stands.
    have hsame := hsub.eq_of_length (not_not.mp hlen)
    rw [hsame] at hbytes ⊢
    have hst : { st with entries := removeEntries st.entries name } = st := by
      rw [← hbytes, hs.entries]
    rw [hst]
    exact hs

theorem Ready.clear (hs : Ready h s st) : Ready h s.clear { st with entries := [] } := by
  have hready := publish_ready (h := h) (s := { s with entries := [] }) hs.initialized
    List.nodup_nil (fun _ hmem => nomatch hmem) hs.inv.aliasNames hs.inv.aliasAddrs
  rw [← hs.mem, ← hs.aliases]
  exact hready

/-- The aliases are no part of the owned copy. -/
theorem Ready.setAliases (hs : Ready h s st) (aliases : List PutEnvAlias)
    (hnames : (aliases.map (·.name)).Nodup) (haddrs : ∀ entry ∈ aliases, entry.entryAddr ≠ 0) :
    Ready h { s with aliases := aliases } { st with aliases := aliases } where
  inv :=
    { hs.inv with
      untouched := fun hno => absurd (hs.initialized.symm.trans hno) (by decide)
      aliasNames := hnames
      aliasAddrs := haddrs }
  store := by
    rw [← hs.store]
    rfl
  initialized := hs.initialized

theorem Ready.filterAliases (hs : Ready h s st) (p : PutEnvAlias → Bool) :
    Ready h { s with aliases := s.aliases.filter p }
      { st with aliases := st.aliases.filter p } := by
  have hset := hs.setAliases (s.aliases.filter p)
    ((List.filter_sublist.map _).nodup hs.inv.aliasNames)
    (fun entry hmem => hs.inv.aliasAddrs entry (List.mem_of_mem_filter hmem))
  rw [← hs.aliases]
  exact hset

/-! ## Looking up an alias -/

/-- The scan passes over aliases for other names. -/
theorem scanAliases_other {m : Mem} {name : List UInt8} (index : Nat) (scan : AliasScan)
    {aliases : List PutEnvAlias} (hother : ∀ entry ∈ aliases, entry.name ≠ name)
    (rest : List PutEnvAlias) :
    scanAliases m name index scan (aliases ++ rest) =
      scanAliases m name (index + aliases.length) scan rest := by
  induction aliases generalizing index with
  | nil => rfl
  | cons entry aliases ih =>
    rw [List.cons_append, scanAliases, if_pos (hother entry List.mem_cons_self),
      ih (index + 1) fun e hmem => hother e (List.mem_cons_of_mem entry hmem), List.length_cons,
      show index + 1 + aliases.length = index + (aliases.length + 1) by omega]

/-- With one alias for the name, the scan either resolves it or gives it up. -/
theorem scanAliases_one {m : Mem} {name : List UInt8} {before after : List PutEnvAlias}
    {entry : PutEnvAlias} (hname : entry.name = name) (haddr : entry.entryAddr ≠ 0)
    (hbefore : ∀ e ∈ before, e.name ≠ name) (hafter : ∀ e ∈ after, e.name ≠ name) :
    scanAliases m name 0 ⟨none, []⟩ (before ++ entry :: after) =
      match parseAliasValuePtr m entry.entryAddr name with
      | some value => ⟨some (before.length, value), []⟩
      | none => ⟨none, [before.length]⟩ := by
  rw [scanAliases_other 0 _ hbefore, scanAliases, if_neg (not_not.mpr hname), if_neg haddr,
    Nat.zero_add]
  have hrest : ∀ scan, scanAliases m name (before.length + 1) scan after = scan := by
    intro scan
    have hall := scanAliases_other (m := m) (before.length + 1) scan hafter []
    rwa [List.append_nil, scanAliases] at hall
  cases parseAliasValuePtr m entry.entryAddr name with
  | none => exact hrest _
  | some value => exact hrest _

/-- Names of aliases are distinct, so the alias for a name stands alone. -/
theorem aliases_split {aliases : List PutEnvAlias} (hnames : (aliases.map (·.name)).Nodup)
    {entry : PutEnvAlias} (hmem : entry ∈ aliases) :
    ∃ before after, aliases = before ++ entry :: after ∧
      (∀ e ∈ before, e.name ≠ entry.name) ∧ ∀ e ∈ after, e.name ≠ entry.name := by
  cases List.append_of_mem hmem with
  | intro before hrest =>
    cases hrest with
    | intro after heq =>
      rw [heq, List.map_append, List.map_cons, List.nodup_append, List.nodup_cons] at hnames
      have hbefore := hnames.2.2
      have hafter := hnames.2.1.1
      refine ⟨before, after, heq, ?_, ?_⟩
      · intro e he
        exact hbefore e.name (List.mem_map_of_mem he) entry.name List.mem_cons_self
      · intro e he hname
        exact hafter (hname ▸ List.mem_map_of_mem he)

/-- A name without an alias: the lookup finds nothing and changes nothing. -/
theorem lookupPutenvAliasValue_none {name : List UInt8}
    (hother : ∀ entry ∈ s.aliases, entry.name ≠ name) :
    s.lookupPutenvAliasValue name = (none, s) := by
  have hscan := scanAliases_other (m := s.mem) 0 ⟨none, []⟩ hother []
  rw [List.append_nil, scanAliases] at hscan
  unfold lookupPutenvAliasValue
  rw [hscan]
  rfl

/-- A name whose alias still reads `NAME=`: the lookup leads into its buffer. -/
theorem lookupPutenvAliasValue_live (hinv : Inv h s) {entry : PutEnvAlias}
    (hmem : entry ∈ s.aliases) {value : Nat}
    (hparse : parseAliasValuePtr s.mem entry.entryAddr entry.name = some value) :
    s.lookupPutenvAliasValue entry.name = (some value, s) := by
  cases aliases_split hinv.aliasNames hmem with
  | intro before hrest =>
    cases hrest with
    | intro after hsplit =>
      have hscan := scanAliases_one (m := s.mem) rfl (hinv.aliasAddrs entry hmem) hsplit.2.1
        hsplit.2.2
      rw [hparse, ← hsplit.1] at hscan
      unfold lookupPutenvAliasValue
      rw [hscan]
      rfl

/-- A name whose alias reads something else: the lookup gives up alias and owned entry. -/
theorem lookupPutenvAliasValue_stale (hinv : Inv h s) {entry : PutEnvAlias}
    (hmem : entry ∈ s.aliases)
    (hparse : parseAliasValuePtr s.mem entry.entryAddr entry.name = none) :
    s.lookupPutenvAliasValue entry.name =
      (none, (s.removePutenvAlias entry.name).removeOwnedNameIfInitialized entry.name) := by
  cases aliases_split hinv.aliasNames hmem with
  | intro before hrest =>
    cases hrest with
    | intro after hsplit =>
      have hscan := scanAliases_one (m := s.mem) rfl (hinv.aliasAddrs entry hmem) hsplit.2.1
        hsplit.2.2
      rw [hparse, ← hsplit.1] at hscan
      have hkept : ∀ l : List PutEnvAlias, (∀ e ∈ l, e.name ≠ entry.name) →
          l.filter (fun e => e.name ≠ entry.name) = l := fun l hl =>
        List.filter_eq_self.mpr fun e he => decide_eq_true (hl e he)
      have haliases : s.aliases.eraseIdx before.length =
          s.aliases.filter fun e => e.name ≠ entry.name := by
        rw [hsplit.1, List.eraseIdx_append_of_length_le (Nat.le_refl _), Nat.sub_self,
          List.eraseIdx_cons_zero, List.filter_append, List.filter_cons,
          if_neg (by simp), hkept before hsplit.2.1, hkept after hsplit.2.2]
      unfold lookupPutenvAliasValue removePutenvAlias
      rw [hscan, ← haliases]
      rfl

theorem Refines.initialized_of_alias (hs : Refines h s st) {entry : PutEnvAlias}
    (hmem : entry ∈ s.aliases) : s.initialized = true := by
  cases hi : s.initialized with
  | true => rfl
  | false =>
    rw [(hs.inv.untouched hi).2] at hmem
    exact absurd hmem List.not_mem_nil

/-- Forgetting a name, as the source does it. -/
theorem Ready.dropName (hs : Ready h s st) (name : List UInt8) :
    Ready h ((s.removePutenvAlias name).removeOwnedNameIfInitialized name) (st.dropName name) := by
  have hfiltered : Ready h (s.removePutenvAlias name)
      { st with aliases := st.aliases.filter fun entry => entry.name ≠ name } :=
    hs.filterAliases fun entry => entry.name ≠ name
  unfold removeOwnedNameIfInitialized
  rw [if_neg (not_not.mpr hfiltered.initialized)]
  exact hfiltered.removeName name

theorem Refines.lookup (hs : Refines h s st) (name : List UInt8) :
    (s.lookupPutenvAliasValue name).1 = st.aliasValue name ∧
      Refines h (s.lookupPutenvAliasValue name).2 (st.settle name) ∧
      (s.lookupPutenvAliasValue name).2.initialized = s.initialized := by
  cases hfor : st.aliasFor name with
  | none =>
    have hother : ∀ entry ∈ s.aliases, entry.name ≠ name := by
      intro entry hmem hname
      rw [hs.aliases] at hmem
      exact List.find?_eq_none.mp hfor entry hmem (decide_eq_true hname)
    rw [lookupPutenvAliasValue_none hother, EnvStore.aliasValue_of_none hfor,
      EnvStore.settle_of_not_stale (EnvStore.not_stale_of_none hfor)]
    exact ⟨rfl, hs, rfl⟩
  | some entry =>
    have hmem : entry ∈ s.aliases := hs.aliases ▸ EnvStore.mem_of_aliasFor hfor
    have hname : entry.name = name := EnvStore.aliasFor_name hfor
    subst hname
    have hvalue := EnvStore.aliasValue_of_some hfor
    rw [← hs.mem] at hvalue
    cases hparse : parseAliasValuePtr s.mem entry.entryAddr entry.name with
    | some value =>
      rw [hparse] at hvalue
      rw [lookupPutenvAliasValue_live hs.inv hmem hparse, hvalue,
        EnvStore.settle_of_not_stale fun hstale => nomatch hvalue.symm.trans hstale.2]
      exact ⟨rfl, hs, rfl⟩
    | none =>
      rw [hparse] at hvalue
      have hready : Ready h s st := { hs with initialized := hs.initialized_of_alias hmem }
      have hdropped := hready.dropName entry.name
      have hstale : st.Stale entry.name := ⟨by rw [hfor]; rfl, hvalue⟩
      rw [lookupPutenvAliasValue_stale hs.inv hmem hparse, hvalue,
        EnvStore.settle_of_stale hstale]
      exact ⟨rfl, hdropped.refines, hdropped.initialized.trans hready.initialized.symm⟩

theorem Ready.lookup (hs : Ready h s st) (name : List UInt8) :
    Ready h (s.lookupPutenvAliasValue name).2 (st.settle name) :=
  have hlook := hs.refines.lookup name
  { hlook.2.1 with initialized := hlook.2.2.trans hs.initialized }

theorem mem_sortedNames {name : List UInt8} {names : List (List UInt8)} :
    name ∈ sortedNames names ↔ name ∈ names := by
  unfold sortedNames
  rw [List.mem_dedup, List.mem_insertionSort]

/-- The last loop of `putenv` drops the owned entries of names that have lost their alias. -/
theorem Ready.dropUnresolved (hs : Ready h s st) (names : List (List UInt8))
    (hlost : ∀ name ∈ names, ∀ entry ∈ st.aliases, entry.name ≠ name) :
    Ready h (s.dropUnresolved names)
      { st with entries := st.entries.filter fun entry =>
          ∀ name ∈ names, ¬ envEntryHasName entry name } := by
  induction names generalizing s st with
  | nil =>
    have hall : (st.entries.filter fun entry =>
        ∀ name ∈ ([] : List (List UInt8)), ¬ envEntryHasName entry name) = st.entries :=
      List.filter_eq_self.mpr fun entry _ => decide_eq_true fun _ hmem => nomatch hmem
    rw [hall]
    exact hs
  | cons name names ih =>
    have hother : ∀ entry ∈ s.aliases, entry.name ≠ name := fun entry hmem =>
      hlost name List.mem_cons_self entry (hs.refines.aliases ▸ hmem)
    have hremoved := hs.removeName name
    have hrest := ih hremoved fun other hmem => hlost other (List.mem_cons_of_mem name hmem)
    rw [EnvState.dropUnresolved, lookupPutenvAliasValue_none hother]
    dsimp only
    rw [Option.isNone_none, if_pos rfl, removeOwnedNameIfInitialized,
      if_neg (not_not.mpr hs.initialized)]
    dsimp only [removeEntries] at hrest
    rw [List.filter_filter] at hrest
    convert hrest using 3
    funext entry
    simp only [List.forall_mem_cons, Bool.decide_and, Bool.and_comm]

/-! ## The entry points -/

/-- The walk over `environ`, once a null `environ` can only mean an empty environment. -/
theorem Refines.lookupEnviron (hs : Refines h s st)
    (hnull : s.environ = .null → s.initialized = true) (name : List UInt8) :
    (lookupEnvironValue (s.read h) name (s.vector h)).bind (s.valueAt h) =
      entryValue st.entries name := by
  by_cases henv : s.environ = .null
  · have hready : Ready h s st := { hs with initialized := hnull henv }
    have hentries := hready.entries
    cases hs.inv.published hready.initialized with
    | inr hpub => exact absurd (henv.symm.trans hpub.2.1) (by decide)
    | inl hempty =>
      rw [hempty.1] at hentries
      rw [← hentries, vector, henv]
      rfl
  · cases lookupEnvironValue_eq name (hs.represents henv) with
    | inl hnone => rw [hnone.1, hnone.2, Option.bind_none]
    | inr hfound =>
      cases hfound with
      | intro entry hbytes =>
        cases hbytes with
        | intro bytes h3 =>
          rw [h3.1, h3.2.2, Option.bind_some, valueAt, h3.2.1, Option.map_some]

theorem Refines.getenv (hs : Refines h s st) {name : List UInt8} (hname : ValidName name) :
    (s.getenv h (some name)).1.bind ((s.getenv h (some name)).2.valueAt h) = st.value name ∧
      Refines h (s.getenv h (some name)).2 (st.settle name) := by
  have hlook := hs.lookup name
  unfold EnvState.getenv EnvStore.value
  dsimp only
  rw [if_neg (not_not.mpr hname), ← hlook.1]
  -- A `putenv` string answers first; a stale one has been settled by the lookup.
  cases hfound : (s.lookupPutenvAliasValue name).1 with
  | some address =>
    apply And.intro _ hlook.2.1
    have hsettle : st.settle name = st :=
      EnvStore.settle_of_not_stale fun hstale =>
        nomatch (hfound.symm.trans hlook.1).trans hstale.2
    have hmem := hlook.2.1.mem
    rw [hsettle] at hmem
    show some (cString (s.lookupPutenvAliasValue name).2.mem address) = _
    rw [hmem]
  | none =>
    dsimp only
    generalize (s.lookupPutenvAliasValue name).2 = t at hlook
    -- Without an alias the vector is read, after the first copy when there is none yet.
    have hboot : ∃ u : EnvState,
        (if t.environ = .null ∧ ¬ t.initialized then t.ensureInitialized h else t) = u ∧
          Refines h u (st.settle name) ∧ (u.environ = .null → u.initialized = true) := by
      split
      · have hready := hlook.2.1.ensureInitialized
        exact ⟨_, rfl, hready.refines, fun _ => hready.initialized⟩
      · rename_i hno
        exact ⟨_, rfl, hlook.2.1, fun henv => not_not.mp fun hi => hno ⟨henv, hi⟩⟩
    cases hboot with
    | intro u hu =>
      rw [hu.1]
      have hwalk := hu.2.1.lookupEnviron hu.2.2 name
      cases hres : lookupEnvironValue (u.read h) name (u.vector h) with
      | some value =>
        rw [hres] at hwalk
        exact ⟨hwalk, hu.2.1⟩
      | none =>
        rw [hres] at hwalk
        have hnofallback : ¬ (u.environ = .null ∧ ¬ u.initialized) := fun hboth =>
          hboth.2 (hu.2.2 hboth.1)
        dsimp only
        rw [if_neg hnofallback]
        exact ⟨hwalk, hu.2.1⟩

/-- `getenv` of an empty or `=`-containing name. -/
theorem getenv_invalid {name : List UInt8} (hname : ¬ ValidName name) :
    s.getenv h (some name) = (none, s) := by
  unfold EnvState.getenv
  dsimp only
  rw [if_pos hname]

theorem findNameIndex_isSome (entries : List CString) (name : List UInt8) :
    (findNameIndex entries name).isSome = (entryValue (entries.map (·.bytes)) name).isSome := by
  rw [Bool.eq_iff_iff, entryValue_isSome]
  unfold findNameIndex
  rw [List.findIdx?_isSome, List.any_eq_true]
  simp only [List.mem_map, exists_exists_and_eq_and]

theorem Ready.setOwn (hs : Ready h s st) {name : List UInt8} (hname : ValidName name)
    (value : List UInt8) :
    Ready h ((s.setNameValue name value).removePutenvAlias name) (st.setOwn name value) :=
  (hs.setNameValue hname value).filterAliases fun entry => entry.name ≠ name

theorem Refines.setenv (hs : Refines h s st) {name : List UInt8} (hname : ValidName name)
    (value : List UInt8) (overwrite : Int) :
    (s.setenv h (some name) (some value) overwrite).1 = 0 ∧
      Ready h (s.setenv h (some name) (some value) overwrite).2
        (if overwrite = 0 then
          if (st.value name).isSome then st.settle name else (st.settle name).setOwn name value
        else st.setOwn name value) := by
  have hready := hs.ensureInitialized
  unfold EnvState.setenv
  dsimp only
  rw [if_neg (not_not.mpr hname)]
  by_cases hover : overwrite = 0
  · rw [if_pos hover, if_pos hover]
    have hlook := hready.refines.lookup name
    have hlooked := hready.lookup name
    generalize (s.ensureInitialized h).lookupPutenvAliasValue name = looked at hlook hlooked
    have hexists : (looked.1.isSome ∨ looked.2.containsName name = true) ↔
        (st.value name).isSome := by
      unfold EnvStore.value containsName
      rw [findNameIndex_isSome, hlooked.entries, hlook.1]
      cases st.aliasValue name with
      | none => simp
      | some address => simp
    by_cases hset : (st.value name).isSome
    · rw [if_pos (hexists.mpr hset), if_pos hset]
      exact ⟨rfl, hlooked.withErrno s.errno⟩
    · rw [if_neg (hset ∘ hexists.mp), if_neg hset]
      exact ⟨rfl, (hlooked.setOwn hname value).withErrno s.errno⟩
  · rw [if_neg hover, if_neg hover]
    exact ⟨rfl, (hready.setOwn hname value).withErrno s.errno⟩

theorem Refines.unsetenv (hs : Refines h s st) {name : List UInt8} (hname : ValidName name) :
    (s.unsetenv h (some name)).1 = 0 ∧ Ready h (s.unsetenv h (some name)).2 (st.dropName name) := by
  have hdropped := (hs.ensureInitialized.removeName name).filterAliases fun entry =>
    entry.name ≠ name
  unfold EnvState.unsetenv
  dsimp only
  rw [if_neg (not_not.mpr hname)]
  exact ⟨rfl, hdropped.withErrno s.errno⟩

theorem Refines.clearenv (hs : Refines h s st) :
    (s.clearenv h).1 = 0 ∧
      Ready h (s.clearenv h).2 { st with entries := [], aliases := [] } := by
  have hcleared := hs.ensureInitialized.clear.setAliases [] List.nodup_nil
    (fun _ hmem => nomatch hmem)
  exact ⟨rfl, hcleared.withErrno s.errno⟩

/-- The names that a new binding or an unbinding takes the buffer away from. -/
theorem mem_namesAt {name other : List UInt8} {address : Nat} :
    other ∈ st.namesAt name address ↔
      ∃ entry ∈ st.aliases, entry.name = other ∧ other ≠ name ∧ entry.entryAddr = address := by
  unfold EnvStore.namesAt
  simp only [List.mem_map, List.mem_filter, decide_eq_true_eq]
  constructor
  · intro hex
    cases hex with
    | intro entry he => exact ⟨entry, he.1.1, he.2, he.2 ▸ he.1.2.1, he.1.2.2⟩
  · intro hex
    cases hex with
    | intro entry he => exact ⟨entry, ⟨he.1, he.2.1.symm ▸ he.2.2.1, he.2.2.2⟩, he.2.1⟩

/-- Such a name has no alias left: names are distinct. -/
theorem Refines.namesAt_lost (hs : Refines h s st) {name other : List UInt8} {address : Nat}
    (hother : other ∈ st.namesAt name address) {entry : PutEnvAlias} (hmem : entry ∈ st.aliases)
    (hkept : ¬ (entry.name = name ∨ entry.entryAddr = address)) : entry.name ≠ other := by
  intro hname
  cases mem_namesAt.mp hother with
  | intro entry' he =>
    have hnames := hs.inv.aliasNames
    rw [hs.aliases] at hnames
    have hsame : entry = entry' :=
      List.inj_on_of_nodup_map hnames hmem he.1 (hname.trans he.2.1.symm)
    exact hkept (Or.inr (hsame ▸ he.2.2.2))

theorem Refines.putenv_bind (hs : Refines h s st) {string : Nat} {name value : List UInt8}
    (hstring : string ≠ 0) (hsplit : splitAtEqual (cString st.mem string) = some (name, value))
    (hname : ValidName name) :
    (s.putenv h string).1 = 0 ∧ Ready h (s.putenv h string).2 (st.bind name value string) := by
  -- The name gets an owned copy first, and then the alias that hides it.
  have hready := hs.ensureInitialized.setNameValue hname value
  have hset := hready.setAliases
    ((st.aliases.filter fun entry => ¬ (entry.name = name ∨ entry.entryAddr = string)) ++
      [⟨name, string⟩])
    (by
      rw [List.map_append, List.map_singleton, List.nodup_append]
      refine ⟨(List.filter_sublist.map _).nodup (hs.aliases ▸ hs.inv.aliasNames),
        List.nodup_singleton _, fun a ha b hb hab => ?_⟩
      cases List.mem_map.mp ha with
      | intro entry he =>
        have hkept := of_decide_eq_true (List.mem_filter.mp he.1).2
        exact hkept (Or.inl (he.2.trans (hab.trans (List.mem_singleton.mp hb)))))
    (by
      intro entry hmem
      rw [List.mem_append, List.mem_singleton] at hmem
      cases hmem with
      | inl hold =>
        exact hs.inv.aliasAddrs entry (hs.aliases ▸ List.mem_of_mem_filter hold)
      | inr hnew => rw [hnew]; exact hstring)
  have hnames : ∀ other, other ∈ sortedNames (st.namesAt name string) ↔
      other ∈ st.namesAt name string := fun other => mem_sortedNames
  -- Names that stood at the same address lose their string, so their copies go as well.
  have hdrop := hset.dropUnresolved (sortedNames (st.namesAt name string)) (by
    intro other hother entry hmem
    rw [hnames] at hother
    rw [List.mem_append, List.mem_singleton] at hmem
    cases hmem with
    | inl hold =>
      exact hs.namesAt_lost hother (List.mem_of_mem_filter hold)
        (of_decide_eq_true (List.mem_filter.mp hold).2)
    | inr hnew =>
      cases mem_namesAt.mp hother with
      | intro entry' he =>
        rw [hnew]
        exact fun heq => he.2.2.1 heq.symm)
  simp only [hnames] at hdrop
  unfold EnvState.putenv
  rw [if_neg hstring, hs.mem]
  dsimp only
  rw [hsplit]
  dsimp only
  rw [if_neg (not_not.mpr hname)]
  unfold rebindPutenvAlias
  rw [hready.refines.aliases]
  exact ⟨rfl, hdrop.withErrno s.errno⟩

theorem Refines.putenv_unbind (hs : Refines h s st) {string : Nat} (hstring : string ≠ 0)
    (hsplit : splitAtEqual (cString st.mem string) = none)
    (hname : ValidName (cString st.mem string)) :
    (s.putenv h string).1 = 0 ∧
      Ready h (s.putenv h string).2
        ({ st with entries := removeEntries st.entries (cString st.mem string) }.unbind
          (cString st.mem string) string) := by
  generalize hbytes : cString st.mem string = name at hsplit hname
  have hready := hs.ensureInitialized.removeName name
  have hfiltered := hready.filterAliases fun entry =>
    ¬ (entry.name = name ∨ entry.entryAddr = string)
  rw [hready.refines.aliases] at hfiltered
  have hremoved : ∀ other,
      other ∈ (st.aliases.filter fun entry => entry.name = name ∨ entry.entryAddr = string).map
          (·.name) ↔
        (other = name ∧ ∃ entry ∈ st.aliases, entry.name = name) ∨
          other ∈ st.namesAt name string := by
    intro other
    rw [mem_namesAt]
    simp only [List.mem_map, List.mem_filter, decide_eq_true_eq]
    constructor
    · intro hex
      cases hex with
      | intro entry he =>
        by_cases hsame : entry.name = name
        · exact Or.inl ⟨he.2.symm.trans hsame, entry, he.1.1, hsame⟩
        · exact Or.inr ⟨entry, he.1.1, he.2, he.2 ▸ hsame, he.1.2.resolve_left hsame⟩
    · intro hor
      cases hor with
      | inl hself =>
        cases hself.2 with
        | intro entry he => exact ⟨entry, ⟨he.1, Or.inl he.2⟩, he.2.trans hself.1.symm⟩
      | inr hat =>
        cases hat with
        | intro entry he => exact ⟨entry, ⟨he.1, Or.inr he.2.2.2⟩, he.2.1⟩
  have hdrop := hfiltered.dropUnresolved
    (sortedNames ((st.aliases.filter fun entry =>
      entry.name = name ∨ entry.entryAddr = string).map (·.name))) (by
    intro other hother entry hmem
    have hkept := of_decide_eq_true (List.mem_filter.mp hmem).2
    rw [mem_sortedNames, hremoved] at hother
    cases hother with
    | inl hself =>
      rw [hself.1]
      exact fun heq => hkept (Or.inl heq)
    | inr hat => exact hs.namesAt_lost hat (List.mem_of_mem_filter hmem) hkept)
  -- The entries for `name` itself are gone already.
  have hentries : ∀ names : List (List UInt8), (∀ other, other ∈ names ↔
      (other = name ∧ ∃ entry ∈ st.aliases, entry.name = name) ∨ other ∈ st.namesAt name string) →
      ((removeEntries st.entries name).filter fun entry =>
        ∀ other ∈ names, ¬ envEntryHasName entry other) =
      (removeEntries st.entries name).filter fun entry =>
        ∀ other ∈ st.namesAt name string, ¬ envEntryHasName entry other := by
    intro names hnames
    apply List.filter_congr
    intro entry hmem
    have hno := of_decide_eq_true (List.mem_filter.mp hmem).2
    apply decide_eq_decide.mpr
    constructor
    · intro hall other hat
      exact hall other ((hnames other).mpr (Or.inr hat))
    · intro hall other hother
      cases (hnames other).mp hother with
      | inl hself => exact hself.1 ▸ hno
      | inr hat => exact hall other hat
  dsimp only at hdrop
  rw [hentries _ fun other => mem_sortedNames.trans (hremoved other)] at hdrop
  unfold EnvState.putenv
  rw [if_neg hstring, hs.mem, hbytes]
  dsimp only
  rw [hsplit]
  dsimp only
  rw [if_neg (not_not.mpr hname)]
  unfold removePutenvAliasesForNameOrEntry
  rw [hready.refines.aliases]
  exact ⟨rfl, hdrop.withErrno s.errno⟩

/-- **Simulation.**  A call replies what it replies on the store, and the state still amounts to
the store. -/
theorem Refines.call (hs : Refines h s st) (c : EnvCall) :
    (s.call h c).1 = (st.call c).1 ∧ Refines h (s.call h c).2 (st.call c).2 := by
  cases c with
  | setenv name value overwrite =>
    cases name with
    | none => exact ⟨rfl, hs.withErrno EINVAL⟩
    | some name =>
      cases value with
      | none => exact ⟨rfl, hs.withErrno EINVAL⟩
      | some value =>
        by_cases hname : ValidName name
        · have hset := hs.setenv hname value overwrite
          unfold EnvState.call EnvStore.call
          dsimp only
          rw [hset.1, if_neg (not_not.mpr hname)]
          apply And.intro
          · split <;> [split; skip] <;> rfl
          · convert hset.2.refines using 1
            split <;> [split; skip] <;> rfl
        · unfold EnvState.call EnvStore.call EnvState.setenv
          dsimp only
          rw [if_pos hname, if_pos hname]
          exact ⟨rfl, hs.withErrno EINVAL⟩
  | unsetenv name =>
    cases name with
    | none => exact ⟨rfl, hs.withErrno EINVAL⟩
    | some name =>
      by_cases hname : ValidName name
      · have hunset := hs.unsetenv hname
        unfold EnvState.call EnvStore.call
        dsimp only
        rw [hunset.1, if_neg (not_not.mpr hname)]
        exact ⟨rfl, hunset.2.refines⟩
      · unfold EnvState.call EnvStore.call EnvState.unsetenv
        dsimp only
        rw [if_pos hname, if_pos hname]
        exact ⟨rfl, hs.withErrno EINVAL⟩
  | putenv string =>
    unfold EnvState.call EnvStore.call
    dsimp only
    by_cases hstring : string = 0
    · unfold EnvState.putenv
      rw [if_pos hstring, if_pos hstring]
      exact ⟨rfl, hs.withErrno EINVAL⟩
    · rw [if_neg hstring]
      -- A string with a bad name fails after the owned copy has been made.
      have hfailed := hs.ensureInitialized.refines.withErrno EINVAL
      cases hsplit : splitAtEqual (cString st.mem string) with
      | some p =>
        dsimp only
        by_cases hname : ValidName p.1
        · have hbind := hs.putenv_bind hstring hsplit hname
          rw [if_neg (not_not.mpr hname), hbind.1]
          exact ⟨rfl, hbind.2.refines⟩
        · rw [if_pos hname, EnvState.putenv, if_neg hstring, hs.mem]
          dsimp only
          rw [hsplit]
          dsimp only
          rw [if_pos hname]
          exact ⟨rfl, hfailed⟩
      | none =>
        dsimp only
        by_cases hname : ValidName (cString st.mem string)
        · have hunbind := hs.putenv_unbind hstring hsplit hname
          rw [if_neg (not_not.mpr hname), hunbind.1]
          exact ⟨rfl, hunbind.2.refines⟩
        · rw [if_pos hname, EnvState.putenv, if_neg hstring, hs.mem]
          dsimp only
          rw [hsplit]
          dsimp only
          rw [if_pos hname]
          exact ⟨rfl, hfailed⟩
  | clearenv => exact ⟨congrArg EnvReply.code hs.clearenv.1, hs.clearenv.2.refines⟩
  | getenv name =>
    cases name with
    | none => exact ⟨rfl, hs⟩
    | some name =>
      by_cases hname : ValidName name
      · have hget := hs.getenv hname
        unfold EnvState.call EnvStore.call
        dsimp only
        rw [hget.1, if_neg (not_not.mpr hname)]
        exact ⟨rfl, hget.2⟩
      · unfold EnvState.call EnvStore.call
        dsimp only
        rw [getenv_invalid hname, if_pos hname]
        exact ⟨rfl, hs⟩
  | write address byte =>
    exact ⟨rfl, { inv := { hs.inv with }, store := by rw [← hs.store]; rfl }⟩

end

end EnvState

end Rlibc.Stdlib
