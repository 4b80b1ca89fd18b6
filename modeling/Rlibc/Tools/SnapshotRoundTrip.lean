import Rlibc.Tools.AbiSnapshot

/-!
# Reading a snapshot back

What `parse_snapshot` accepts is a well-formed snapshot whose lines are all accounted for, and it
reads back what `format_snapshot` writes.
-/

namespace Rlibc.Tools

open Text

/-! ## The metadata fields -/

/-- A metadata line without white space in front starts with its name. -/
theorem prefix_of_trim {pre rawLine rest : List Char}
    (hhead : rawLine.head?.any isWhitespace = false) (h : trim rawLine = pre ++ rest) :
    ∃ value, rawLine = pre ++ value := by
  rcases exists_pads rawLine with ⟨before, after, hbefore, hafter, hraw⟩
  cases before with
  | nil => exact ⟨rest ++ after, by rw [hraw, h, List.nil_append, List.append_assoc]⟩
  | cons c before =>
    rw [hraw] at hhead
    have hc : isWhitespace c = false := by simpa using hhead
    rw [hbefore c List.mem_cons_self] at hc
    cases hc

/-- A value that is not blank and starts and ends without white space is trimmed. -/
theorem trim_eq_self_iff {value : List Char} :
    trim value = value ↔ value.head?.any isWhitespace = false ∧
      value.getLast?.any isWhitespace = false := by
  constructor
  · intro h
    have hhead := trim_head value
    have hlast := trim_getLast value
    rw [h] at hhead hlast
    constructor
    · cases hv : value.head? with
      | none => rfl
      | some c => exact hhead c hv
    · cases hv : value.getLast? with
      | none => rfl
      | some c => exact hlast c hv
  · intro h
    apply trim_eq_self
    · intro c hc
      have hhead := h.1
      rw [Option.mem_def.mp hc] at hhead
      exact hhead
    · intro c hc
      have hlast := h.2
      rw [Option.mem_def.mp hc] at hlast
      exact hlast

/-- A field is read exactly when it is new and its line is the name, `=` and the value. -/
theorem parseSnapshotField_eq_ok {name : String} {seen : Option (List Char)}
    {rawLine rawValue value : List Char} {forbidden : Char → Bool} {complaint : String}
    (hname : (name.toList ++ ['=']).head?.any isWhitespace = false)
    (hline : trim rawLine = (name.toList ++ ['=']) ++ rawValue) :
    parseSnapshotField name seen rawLine rawValue forbidden complaint = .ok value ↔
      seen = none ∧ rawLine = (name.toList ++ ['=']) ++ value ∧ value ≠ [] ∧ trim value = value ∧
        ∀ ch ∈ value, forbidden ch = false := by
  unfold parseSnapshotField
  dsimp only
  constructor
  · intro h
    -- Each check of the source, in its order, says one thing about the line.
    split at h
    · cases h
    rename_i hseen
    split at h
    · cases h
    rename_i hhead
    rcases prefix_of_trim (eq_false_of_ne_true hhead) hline with ⟨rest, hrest⟩
    rw [hrest, isPrefixOf?_append, Option.getD_some] at h
    split at h
    · cases h
    rename_i hne
    split at h
    · cases h
    rename_i hfirst
    split at h
    · cases h
    rename_i hlast
    split at h
    · cases h
    rename_i hforbidden
    have htrim : trim rest = rest :=
      trim_eq_self_iff.mpr ⟨eq_false_of_ne_true hfirst, eq_false_of_ne_true hlast⟩
    rw [htrim] at h hne hforbidden
    cases h
    exact ⟨by simpa using hseen, hrest, hne, htrim, by simpa using hforbidden⟩
  · intro h
    rcases h with ⟨hseen, hrest, hne, htrim, hforbidden⟩
    -- Conversely a line of this form passes every one of them.
    have hends := trim_eq_self_iff.mp htrim
    have hall : ¬ value.any forbidden = true := by simpa using hforbidden
    have hfirst : ¬ (name.toList ++ ['='] ++ value).head?.any isWhitespace = true := by
      rw [List.head?_append_of_ne_nil _ (List.append_ne_nil_of_right_ne_nil _ (List.cons_ne_nil _ _)),
        hname]
      exact Bool.false_ne_true
    rw [hrest, isPrefixOf?_append, Option.getD_some, htrim, if_neg (by simp [hseen]),
      if_neg hfirst, if_neg hne, hends.1, hends.2, if_neg Bool.false_ne_true,
      if_neg Bool.false_ne_true, if_neg hall]

/-! ## The lines -/

/-- A line in front of the symbol block is the line of a field that is still missing. -/
inductive Metadata (s : SnapshotState) (rawLine : List Char) : SnapshotState → Prop where
  | elfClass {value : List Char} (hseen : s.elfClass = none) (hline : rawLine = classPrefix ++ value)
      (hvalue : IsClass value) : Metadata s rawLine { s with elfClass := some value }
  | machine {value : List Char} (hseen : s.machine = none) (hline : rawLine = machinePrefix ++ value)
      (hvalue : IsMachine value) : Metadata s rawLine { s with machine := some value }

theorem parse_elfClass {seen : Option (List Char)} {rawLine rawValue value : List Char}
    (hline : trim rawLine = classPrefix ++ rawValue) :
    parseSnapshotField "ELF_CLASS" seen rawLine rawValue isWhitespace "whitespace" = .ok value ↔
      seen = none ∧ rawLine = classPrefix ++ value ∧ IsClass value := by
  have hfield := @parseSnapshotField_eq_ok "ELF_CLASS" seen rawLine rawValue value isWhitespace
    "whitespace" (by decide +kernel) hline
  rw [hfield]
  constructor
  · intro h
    exact ⟨h.1, h.2.1, h.2.2.1, h.2.2.2.2⟩
  · intro h
    exact ⟨h.1, h.2.1, h.2.2.nonempty, h.2.2.solid.trim_eq, h.2.2.solid⟩

theorem parse_machine {seen : Option (List Char)} {rawLine rawValue value : List Char}
    (hline : trim rawLine = machinePrefix ++ rawValue) :
    parseSnapshotField "ELF_MACHINE" seen rawLine rawValue (fun ch => isWhitespace ch && ch ≠ ' ')
        "non-space whitespace" = .ok value ↔
      seen = none ∧ rawLine = machinePrefix ++ value ∧ IsMachine value := by
  have hfield := @parseSnapshotField_eq_ok "ELF_MACHINE" seen rawLine rawValue value
    (fun ch => isWhitespace ch && ch ≠ ' ') "non-space whitespace" (by decide +kernel) hline
  have hspaces : (∀ ch ∈ value, (isWhitespace ch && decide (ch ≠ ' ')) = false) ↔
      ∀ ch ∈ value, isWhitespace ch = true → ch = ' ' := by simp
  rw [hfield, hspaces]
  constructor
  · intro h
    exact ⟨h.1, h.2.1, h.2.2.1, h.2.2.2.1, h.2.2.2.2⟩
  · intro h
    exact ⟨h.1, h.2.1, h.2.2.nonempty, h.2.2.trimmed, h.2.2.spaces⟩

theorem addMetadata_eq_ok {s s' : SnapshotState} {rawLine : List Char}
    (h : s.addMetadata rawLine (trim rawLine) = .ok s') : Metadata s rawLine s' := by
  unfold SnapshotState.addMetadata at h
  split at h
  · rename_i rawValue hraw
    cases hfield : parseSnapshotField "ELF_CLASS" s.elfClass rawLine rawValue isWhitespace
        "whitespace" with
    | error message =>
      rw [hfield] at h
      cases h
    | ok value =>
      rw [hfield] at h
      cases h
      rw [parse_elfClass (isPrefixOf?_eq_some.mp hraw)] at hfield
      exact Metadata.elfClass hfield.1 hfield.2.1 hfield.2.2
  · split at h
    · rename_i rawValue hraw
      cases hfield : parseSnapshotField "ELF_MACHINE" s.machine rawLine rawValue
          (fun ch => isWhitespace ch && ch ≠ ' ') "non-space whitespace" with
      | error message =>
        rw [hfield] at h
        cases h
      | ok value =>
        rw [hfield] at h
        cases h
        rw [parse_machine (isPrefixOf?_eq_some.mp hraw)] at hfield
        exact Metadata.machine hfield.1 hfield.2.1 hfield.2.2
    · split at h
      · cases h
      · split at h <;> cases h

/-- A line of the symbol block is a name that is not there yet. -/
theorem addSymbol_eq_ok {s s' : SnapshotState} {rawLine : List Char}  :
    s.addSymbol rawLine (trim rawLine) = .ok s' ↔
      IsName rawLine ∧ rawLine ∉ s.symbols ∧
        s' = { s with symbols := insert rawLine s.symbols } := by
  unfold SnapshotState.addSymbol
  constructor
  · intro h
    split at h
    · cases h
    split at h
    · cases h
    rename_i htrim
    rw [ne_eq, not_not] at htrim
    rw [← htrim] at h
    split at h
    · cases h
    split at h
    · cases h
    rename_i hvalid
    split at h
    · cases h
    rename_i hnew
    cases h
    rw [not_not] at hvalid
    exact ⟨isValidSnapshotSymbol_iff.mp hvalid, hnew, rfl⟩
  · intro h
    rcases h with ⟨hname, hnew, hs'⟩
    -- A name has no `=` in it, so it is not mistaken for a metadata line.
    have hmeta : ¬ (classPrefix.isPrefixOf rawLine = true ∨
        machinePrefix.isPrefixOf rawLine = true) := by
      rw [List.isPrefixOf_iff_prefix, List.isPrefixOf_iff_prefix]
      intro h
      cases h with
      | inl h => exact hname.not_mem.1 (h.subset (by decide +kernel))
      | inr h => exact hname.not_mem.1 (h.subset (by decide +kernel))
    have hsolid : ¬ rawLine.any isWhitespace = true := by
      rw [List.any_eq_true]
      intro h
      rcases h with ⟨c, hc, hspace⟩
      rw [hname.solid c hc] at hspace
      cases hspace
    rw [hname.solid.trim_eq, if_neg hmeta, if_neg (not_not.mpr rfl), if_neg hsolid,
      if_neg (not_not.mpr (isValidSnapshotSymbol_iff.mpr hname)), if_neg hnew, hs']

/-- What one turn of the loop does with a line that is accepted. -/
inductive SnapshotStep (s : SnapshotState) (rawLine : List Char) (lines : List (List Char)) :
    Option SnapshotState → Prop where
  | stop (hin : s.inSymbolBlock = true) (hline : rawLine = []) (hlines : ∀ l ∈ lines, l = []) :
      SnapshotStep s rawLine lines none
  | blank (hout : s.inSymbolBlock = false) (hline : Blank rawLine) :
      SnapshotStep s rawLine lines (some s)
  | openBlock (hout : s.inSymbolBlock = false) (hline : rawLine = symbolsLine) :
      SnapshotStep s rawLine lines (some { s with inSymbolBlock := true })
  | symbol (hin : s.inSymbolBlock = true) (hname : IsName rawLine) (hnew : rawLine ∉ s.symbols) :
      SnapshotStep s rawLine lines (some { s with symbols := insert rawLine s.symbols })
  | field {s' : SnapshotState} (hout : s.inSymbolBlock = false) (hline : Metadata s rawLine s') :
      SnapshotStep s rawLine lines (some s')

theorem SnapshotState.step_eq_ok {s : SnapshotState} {rawLine : List Char}
    {lines : List (List Char)} {next : Option SnapshotState}
    (h : s.step rawLine lines = .ok next) : SnapshotStep s rawLine lines next := by
  unfold SnapshotState.step at h
  dsimp only at h
  -- An empty line ends an open block; outside of one it is skipped.
  split at h
  · rename_i hend
    split at h
    · rename_i hblank
      cases h
      exact SnapshotStep.stop hend.1 hblank.2.1 (by simpa using hblank.2.2)
    · split at h <;> cases h
  rename_i hend
  split at h
  · rename_i htrim
    cases h
    have hout : ¬ s.inSymbolBlock = true := fun hin => hend ⟨hin, htrim⟩
    exact SnapshotStep.blank (eq_false_of_ne_true hout) (trim_eq_nil_iff.mp htrim)
  split at h
  · rename_i hopen
    split at h
    · cases h
    rename_i hout
    split at h
    · cases h
    rename_i hraw
    cases h
    rw [ne_eq, not_not, hopen] at hraw
    exact SnapshotStep.openBlock (eq_false_of_ne_true hout) hraw
  split at h
  · rename_i hin
    cases hadd : s.addSymbol rawLine (trim rawLine) with
    | error message =>
      rw [hadd] at h
      cases h
    | ok s' =>
      rw [hadd] at h
      cases h
      have hsymbol := addSymbol_eq_ok.mp hadd
      rw [hsymbol.2.2]
      exact SnapshotStep.symbol hin hsymbol.1 hsymbol.2.1
  · rename_i hout
    cases hadd : s.addMetadata rawLine (trim rawLine) with
    | error message =>
      rw [hadd] at h
      cases h
    | ok s' =>
      rw [hadd] at h
      cases h
      exact SnapshotStep.field (eq_false_of_ne_true hout) (addMetadata_eq_ok hadd)

/-! ## The symbol block -/

/-- Inside the block the lines are new names, and then empty lines up to the end. -/
theorem parseSnapshotLines_block {ls : List (List Char)} {s s' : SnapshotState}
    (hin : s.inSymbolBlock = true) (h : parseSnapshotLines s ls = .ok s') :
    ∃ names after, ls = names ++ after ∧ (∀ l ∈ after, l = []) ∧ (∀ l ∈ names, IsName l) ∧
      names.Nodup ∧ (∀ l ∈ names, l ∉ s.symbols) ∧
      s' = { s with symbols := s.symbols ∪ names.toFinset } := by
  -- Induction on the lines: inside the block each one is a new name, until a blank one ends it.
  induction ls generalizing s with
  | nil =>
    cases h
    exact ⟨[], [], rfl, by simp, by simp, List.nodup_nil, by simp, by simp⟩
  | cons rawLine ls ih =>
    rw [parseSnapshotLines] at h
    cases hstep : s.step rawLine ls with
    | error message =>
      rw [hstep] at h
      cases h
    | ok next =>
      rw [hstep] at h
      cases SnapshotState.step_eq_ok hstep with
      | stop _ hline hlines =>
        cases h
        refine ⟨[], rawLine :: ls, rfl, ?_, by simp, List.nodup_nil, by simp, by simp⟩
        intro l hl
        cases List.mem_cons.mp hl with
        | inl heq => rw [heq, hline]
        | inr hmem => exact hlines l hmem
      | blank hout => simp [hin] at hout
      | openBlock hout => simp [hin] at hout
      | field hout => simp [hin] at hout
      | symbol _ hname hnew =>
        change parseSnapshotLines { s with symbols := insert rawLine s.symbols } ls = .ok s' at h
        have hstill : { s with symbols := insert rawLine s.symbols }.inSymbolBlock = true := hin
        rcases ih hstill h with ⟨names, after, hls, hafter, hnames, hnodup, hfresh, hs'⟩
        have hold : ∀ l ∈ names, l ≠ rawLine ∧ l ∉ s.symbols := by
          intro l hl
          have hl' := hfresh l hl
          rw [Finset.mem_insert, not_or] at hl'
          exact hl'
        refine ⟨rawLine :: names, after, by rw [hls]; rfl, hafter, ?_, ?_, ?_, ?_⟩
        · intro l hl
          cases List.mem_cons.mp hl with
          | inl heq => rw [heq]; exact hname
          | inr hmem => exact hnames l hmem
        · exact List.nodup_cons.mpr ⟨fun hmem => (hold rawLine hmem).1 rfl, hnodup⟩
        · intro l hl
          cases List.mem_cons.mp hl with
          | inl heq => rw [heq]; exact hnew
          | inr hmem => exact (hold l hmem).2
        · rw [hs', List.toFinset_cons, Finset.insert_union, Finset.union_insert]

/-- New names are all taken in. -/
theorem parseSnapshotLines_names {names : List (List Char)} {s : SnapshotState}
    (hin : s.inSymbolBlock = true) (hnames : ∀ l ∈ names, IsName l) (hnodup : names.Nodup)
    (hfresh : ∀ l ∈ names, l ∉ s.symbols) :
    parseSnapshotLines s names = .ok { s with symbols := s.symbols ∪ names.toFinset } := by
  induction names generalizing s with
  | nil => simp [parseSnapshotLines]
  | cons name names ih =>
    have hname := hnames name List.mem_cons_self
    have hopen : name ≠ symbolsLine := by
      intro h
      exact hname.not_mem.2 (by rw [h]; decide +kernel)
    have hadd : s.addSymbol name name = .ok { s with symbols := insert name s.symbols } := by
      have hok := addSymbol_eq_ok.mpr ⟨hname, hfresh name List.mem_cons_self, rfl⟩
      rwa [hname.solid.trim_eq] at hok
    have hstep : s.step name names = .ok (some { s with symbols := insert name s.symbols }) := by
      unfold SnapshotState.step
      dsimp only
      rw [hname.solid.trim_eq, if_neg (fun h => hname.ne_nil h.2), if_neg hname.ne_nil,
        if_neg hopen, if_pos hin, hadd]
      rfl
    rw [List.nodup_cons] at hnodup
    rw [parseSnapshotLines, hstep]
    change parseSnapshotLines { s with symbols := insert name s.symbols } names = _
    have hstill : { s with symbols := insert name s.symbols }.inSymbolBlock = true := hin
    rw [ih hstill (fun l hl => hnames l (List.mem_cons_of_mem name hl)) hnodup.2]
    · rw [List.toFinset_cons, Finset.insert_union, Finset.union_insert]
    · intro l hl
      rw [Finset.mem_insert, not_or]
      exact ⟨fun h => hnodup.1 (h ▸ hl), hfresh l (List.mem_cons_of_mem name hl)⟩

/-! ## The lines in front of it -/

/-- The lines of the fields that have been read. -/
def SnapshotState.fieldLines (s : SnapshotState) : List (List Char) :=
  (s.elfClass.map (classPrefix ++ ·)).toList ++ (s.machine.map (machinePrefix ++ ·)).toList

structure SnapshotState.FieldsWellFormed (s : SnapshotState) : Prop where
  elfClass : ∀ value ∈ s.elfClass, IsClass value
  machine : ∀ value ∈ s.machine, IsMachine value

/-- A metadata line adds itself to the lines of the fields. -/
theorem Metadata.fieldLines_perm {s s' : SnapshotState} {rawLine : List Char}
    (h : Metadata s rawLine s') : (rawLine :: s.fieldLines).Perm s'.fieldLines := by
  cases h with
  | elfClass hseen hline hvalue =>
    unfold SnapshotState.fieldLines
    rw [hseen, hline]
    exact List.Perm.refl _
  | machine hseen hline hvalue =>
    unfold SnapshotState.fieldLines
    rw [hseen, hline]
    exact (List.perm_append_singleton _ _).symm.trans (by simp)

theorem Metadata.fieldsWellFormed {s s' : SnapshotState} {rawLine : List Char}
    (h : Metadata s rawLine s') (hs : s.FieldsWellFormed) : s'.FieldsWellFormed := by
  cases h with
  | elfClass hseen hline hvalue =>
    refine ⟨?_, hs.machine⟩
    intro value hmem
    rw [← Option.mem_some.mp hmem]
    exact hvalue
  | machine hseen hline hvalue =>
    refine ⟨hs.elfClass, ?_⟩
    intro value hmem
    rw [← Option.mem_some.mp hmem]
    exact hvalue

theorem Metadata.not_blank {s s' : SnapshotState} {rawLine : List Char}
    (h : Metadata s rawLine s') : ¬ Blank rawLine := by
  intro hblank
  have hE : 'E' ∈ rawLine := by
    cases h with
    | elfClass hseen hline hvalue =>
      rw [hline]
      exact List.mem_append_left _ (by decide +kernel)
    | machine hseen hline hvalue =>
      rw [hline]
      exact List.mem_append_left _ (by decide +kernel)
  exact absurd (hblank 'E' hE) (by decide)

theorem Metadata.frame {s s' : SnapshotState} {rawLine : List Char} (h : Metadata s rawLine s') :
    s'.inSymbolBlock = s.inSymbolBlock ∧ s'.symbols = s.symbols := by
  cases h with
  | elfClass hseen hline hvalue => exact ⟨rfl, rfl⟩
  | machine hseen hline hvalue => exact ⟨rfl, rfl⟩

/-- Up to the line that opens the block, each line is blank or the line of a new field. -/
theorem parseSnapshotLines_fields {ls : List (List Char)} {s s' : SnapshotState}
    (hout : s.inSymbolBlock = false) (hwf : s.FieldsWellFormed)
    (h : parseSnapshotLines s ls = .ok s') (hin : s'.inSymbolBlock = true) :
    ∃ before rest s₁, ls = before ++ symbolsLine :: rest ∧
      (before.filter (fun l => ¬ Blank l) ++ s.fieldLines).Perm s₁.fieldLines ∧
      s₁.FieldsWellFormed ∧ s₁.symbols = s.symbols ∧ s₁.inSymbolBlock = true ∧
      parseSnapshotLines s₁ rest = .ok s' := by
  -- Induction on the lines before the block; the fields read so far are what the state holds.
  induction ls generalizing s with
  | nil =>
    cases h
    simp [hout] at hin
  | cons rawLine ls ih =>
    rw [parseSnapshotLines] at h
    cases hstep : s.step rawLine ls with
    | error message =>
      rw [hstep] at h
      cases h
    | ok next =>
      rw [hstep] at h
      cases SnapshotState.step_eq_ok hstep with
      | stop hblock => simp [hout] at hblock
      | symbol hblock => simp [hout] at hblock
      | openBlock _ hline =>
        exact ⟨[], ls, { s with inSymbolBlock := true }, by rw [hline]; rfl, List.Perm.refl _,
          ⟨hwf.elfClass, hwf.machine⟩, rfl, rfl, h⟩
      | blank _ hline =>
        rcases ih hout hwf h with ⟨before, rest, s₁, hls, hperm, hs₁⟩
        refine ⟨rawLine :: before, rest, s₁, by rw [hls]; rfl, ?_, hs₁⟩
        rwa [List.filter_cons_of_neg (by simpa using hline)]
      | field _ hline =>
        rename_i s₂
        have hframe := hline.frame
        rcases ih (hframe.1.trans hout) (hline.fieldsWellFormed hwf) h with
          ⟨before, rest, s₁, hls, hperm, hwf₁, hsymbols, hs₁⟩
        refine ⟨rawLine :: before, rest, s₁, by rw [hls]; rfl, ?_, hwf₁,
          hsymbols.trans hframe.2, hs₁⟩
        rw [List.filter_cons_of_pos (by simpa using hline.not_blank)]
        -- The two fields may come in either order, hence a permutation.
        have hmove : (rawLine :: before.filter (fun l => ¬ Blank l) ++ s.fieldLines).Perm
            (before.filter (fun l => ¬ Blank l) ++ rawLine :: s.fieldLines) :=
          List.perm_middle.symm
        exact (hmove.trans (hline.fieldLines_perm.append_left _)).trans hperm

/-! ## Whole snapshots -/

/-- Each line of the text that is not blank is the magic line, the line of one field, the line
that opens the block, or a name, and none of them is there twice. -/
def ReadInFull (text : List Char) (snapshot : AbiSnapshot) : Prop :=
  ∃ before names after,
    lines text = snapshotMagic :: before ++ symbolsLine :: names ++ after ∧
    (before.filter (fun line => ¬ Blank line)).Perm
      [classPrefix ++ snapshot.elfClass, machinePrefix ++ snapshot.machine] ∧
    names.Nodup ∧ names.toFinset = snapshot.symbols ∧ ∀ line ∈ after, line = []

theorem SnapshotState.finish_eq_ok {s : SnapshotState} {snapshot : AbiSnapshot} :
    s.finish = .ok snapshot ↔ s.inSymbolBlock = true ∧ s.symbols.Nonempty ∧
      s.elfClass = some snapshot.elfClass ∧ s.machine = some snapshot.machine ∧
      s.symbols = snapshot.symbols := by
  unfold SnapshotState.finish
  constructor
  · intro h
    split at h
    · cases h
    rename_i hin
    split at h
    · cases h
    rename_i hsymbols
    split at h
    · rename_i elfClass machine helfClass hmachine
      cases h
      exact ⟨not_not.mp hin, Finset.nonempty_iff_ne_empty.mpr hsymbols, helfClass, hmachine, rfl⟩
    · cases h
    · cases h
  · intro h
    rcases h with ⟨hin, hne, helfClass, hmachine, hsymbols⟩
    rw [if_neg (not_not.mpr hin), if_neg hne.ne_empty, helfClass, hmachine, hsymbols]

/-- What is accepted is well formed, and nothing in the text is lost. -/
theorem parseSnapshot_sound {text : List Char} {snapshot : AbiSnapshot}
    (h : parseSnapshot text = .ok snapshot) : snapshot.WellFormed ∧ ReadInFull text snapshot := by
  unfold parseSnapshot at h
  split at h
  · cases h
  rename_i firstLine ls hlines
  split at h
  · cases h
  split at h
  · cases h
  rename_i hmagic
  rw [ne_eq, not_not] at hmagic
  split at h
  · cases h
  rename_i s hloop
  rcases SnapshotState.finish_eq_ok.mp h with ⟨hin, hne, helfClass, hmachine, hsymbols⟩
  have hstart : SnapshotState.start.FieldsWellFormed := by
    constructor <;> intro value hvalue <;> cases hvalue
  rcases parseSnapshotLines_fields rfl hstart hloop hin with
    ⟨before, rest, s₁, hls, hperm, hwf, hnone, hopen, hrest⟩
  rcases parseSnapshotLines_block hopen hrest with
    ⟨names, after, hrestLines, hafter, hnames, hnodup, hfresh, hs⟩
  rw [hs] at helfClass hmachine hsymbols hne
  dsimp only at helfClass hmachine hsymbols hne
  have hset : names.toFinset = snapshot.symbols := by
    rw [← hsymbols, hnone]
    exact (Finset.empty_union _).symm
  rw [hsymbols] at hne
  constructor
  · refine ⟨hwf.elfClass _ helfClass, hwf.machine _ hmachine, hne, ?_⟩
    intro symbol hsymbol
    rw [← hset, List.mem_toFinset] at hsymbol
    exact hnames symbol hsymbol
  · refine ⟨before, names, after, ?_, ?_, hnodup, hset, hafter⟩
    · rw [hlines, hmagic, hls, hrestLines]
      simp
    · unfold SnapshotState.fieldLines at hperm
      rw [helfClass, hmachine] at hperm
      simpa [SnapshotState.start] using hperm

/-- A value behind a name keeps the line trimmed. -/
theorem trim_field {pre value : List Char} (hpre : pre ≠ [])
    (hhead : pre.head?.any isWhitespace = false) (hvalue : value ≠ [])
    (htrim : trim value = value) : trim (pre ++ value) = pre ++ value := by
  rw [trim_eq_self_iff] at htrim ⊢
  rw [List.head?_append_of_ne_nil _ hpre, List.getLast?_append_of_ne_nil _ hvalue]
  exact ⟨hhead, htrim.2⟩

/-- A line of a field is a step that leaves the loop in front of the block. -/
theorem step_field {s s' : SnapshotState} {line : List Char} {ls : List (List Char)}
    (hout : s.inSymbolBlock = false) (htrim : trim line = line) (hE : line.head? = some 'E')
    (hadd : s.addMetadata line line = .ok s') : s.step line ls = .ok (some s') := by
  have hne : line ≠ [] := by
    intro h
    rw [h] at hE
    cases hE
  have hopen : line ≠ symbolsLine := by
    intro h
    rw [h] at hE
    exact absurd hE (by decide +kernel)
  have hblock : ¬ s.inSymbolBlock = true := by
    rw [hout]
    exact Bool.false_ne_true
  unfold SnapshotState.step
  dsimp only
  rw [htrim, if_neg (fun h => hne h.2), if_neg hne, if_neg hopen, if_neg hblock, hadd]
  rfl

theorem IsClass.step {elfClass : List Char} (h : IsClass elfClass) {s : SnapshotState}
    (hout : s.inSymbolBlock = false) (hseen : s.elfClass = none) (ls : List (List Char)) :
    s.step (classPrefix ++ elfClass) ls = .ok (some { s with elfClass := some elfClass }) := by
  have htrim : trim (classPrefix ++ elfClass) = classPrefix ++ elfClass :=
    trim_field (by decide +kernel) (by decide +kernel) h.nonempty h.solid.trim_eq
  apply step_field hout htrim
  · rw [List.head?_append_of_ne_nil _ (by decide +kernel)]
    decide +kernel
  · unfold SnapshotState.addMetadata
    rw [isPrefixOf?_append]
    dsimp only
    rw [(parse_elfClass htrim).mpr ⟨hseen, rfl, h⟩]
    rfl

theorem IsMachine.step {machine : List Char} (h : IsMachine machine) {s : SnapshotState}
    (hout : s.inSymbolBlock = false) (hseen : s.machine = none) (ls : List (List Char)) :
    s.step (machinePrefix ++ machine) ls = .ok (some { s with machine := some machine }) := by
  have htrim : trim (machinePrefix ++ machine) = machinePrefix ++ machine :=
    trim_field (by decide +kernel) (by decide +kernel) h.nonempty h.trimmed
  have hclass : classPrefix.isPrefixOf? (machinePrefix ++ machine) = none := rfl
  apply step_field hout htrim
  · rw [List.head?_append_of_ne_nil _ (by decide +kernel)]
    decide +kernel
  · unfold SnapshotState.addMetadata
    rw [hclass, isPrefixOf?_append]
    dsimp only
    rw [(parse_machine htrim).mpr ⟨hseen, rfl, h⟩]
    rfl

theorem step_symbolsLine {s : SnapshotState} (hout : s.inSymbolBlock = false)
    (ls : List (List Char)) :
    s.step symbolsLine ls = .ok (some { s with inSymbolBlock := true }) := by
  have htrim : trim symbolsLine = symbolsLine := by decide +kernel
  have hne : symbolsLine ≠ [] := by decide +kernel
  have hblock : ¬ s.inSymbolBlock = true := by
    rw [hout]
    exact Bool.false_ne_true
  unfold SnapshotState.step
  dsimp only
  rw [htrim, if_neg (fun h => hne h.2), if_neg hne, if_pos rfl, if_neg hblock,
    if_neg (not_not.mpr rfl)]

/-- The lines of a well-formed snapshot survive being written and split again. -/
theorem lines_formatSnapshot {snapshot : AbiSnapshot} (h : snapshot.WellFormed) :
    lines (formatSnapshot snapshot) = snapshotLines snapshot := by
  have hsolid : ∀ line : List Char, (∀ c ∈ line, isWhitespace c = true → c = ' ') →
      '\n' ∉ line ∧ line.getLast? ≠ some '\r' := by
    intro line hline
    constructor
    · intro hmem
      exact absurd (hline _ hmem (by decide)) (by decide)
    · intro hlast
      exact absurd (hline _ (List.mem_of_getLast? hlast) (by decide)) (by decide)
  have hfixed : ∀ pre value : List Char, Solid pre →
      (∀ c ∈ value, isWhitespace c = true → c = ' ') →
      ∀ c ∈ pre ++ value, isWhitespace c = true → c = ' ' := by
    intro pre value hpre hvalue c hc hspace
    cases List.mem_append.mp hc with
    | inl hmem =>
      rw [hpre c hmem] at hspace
      cases hspace
    | inr hmem => exact hvalue c hmem hspace
  have hno : ∀ line : List Char, Solid line → ∀ c ∈ line, isWhitespace c = true → c = ' ' := by
    intro line hline c hc hspace
    rw [hline c hc] at hspace
    cases hspace
  apply lines_flatMap
  intro line hline
  apply hsolid
  rw [snapshotLines, List.mem_cons, List.mem_cons, List.mem_cons, List.mem_cons,
    Finset.mem_sort] at hline
  rcases hline with hline | hline | hline | hline | hline
  · rw [hline]
    exact hno _ (by decide +kernel)
  · rw [hline]
    exact hfixed _ _ (by decide +kernel) (hno _ h.elfClass.solid)
  · rw [hline]
    exact hfixed _ _ (by decide +kernel) h.machine.spaces
  · rw [hline]
    exact hno _ (by decide +kernel)
  · exact hno _ (h.names line hline).solid

/-- Writing a snapshot and reading it back gives the snapshot. -/
theorem parse_format {snapshot : AbiSnapshot} (h : snapshot.WellFormed) :
    parseSnapshot (formatSnapshot snapshot) = .ok snapshot := by
  have hmagic : ¬ (trim snapshotMagic = snapshotMagic ∧ snapshotMagic ≠ snapshotMagic) :=
    fun h => h.2 rfl
  have hnames : ∀ line ∈ snapshot.symbols.sort, IsName line := by
    intro line hline
    exact h.names line ((Finset.mem_sort _).mp hline)
  have hloop : parseSnapshotLines SnapshotState.start ((classPrefix ++ snapshot.elfClass) ::
      (machinePrefix ++ snapshot.machine) :: symbolsLine :: snapshot.symbols.sort) =
      .ok ⟨some snapshot.elfClass, some snapshot.machine, snapshot.symbols, true⟩ := by
    rw [parseSnapshotLines, h.elfClass.step rfl rfl]
    dsimp only
    rw [parseSnapshotLines, h.machine.step rfl rfl]
    dsimp only
    rw [parseSnapshotLines, step_symbolsLine rfl]
    dsimp only
    rw [parseSnapshotLines_names rfl hnames (Finset.sort_nodup _ _)
      (fun l _ => Finset.notMem_empty l)]
    simp [SnapshotState.start]
  unfold parseSnapshot
  rw [lines_formatSnapshot h, snapshotLines]
  dsimp only
  rw [if_neg hmagic, if_neg (not_not.mpr rfl), hloop]
  exact SnapshotState.finish_eq_ok.mpr ⟨rfl, h.symbols, rfl, rfl, rfl⟩

/-! ## Differences -/

/-- The symbols that are in one snapshot and not in the other, each once. -/
structure SnapshotDiff.Exact (diff : SnapshotDiff) (expected actual : AbiSnapshot) : Prop where
  elfClass : diff.classMismatch =
    if expected.elfClass = actual.elfClass then none else some (expected.elfClass, actual.elfClass)
  machine : diff.machineMismatch =
    if expected.machine = actual.machine then none else some (expected.machine, actual.machine)
  missing : ∀ symbol, symbol ∈ diff.missingSymbols ↔
    symbol ∈ expected.symbols ∧ symbol ∉ actual.symbols
  missing_nodup : diff.missingSymbols.Nodup
  unexpected : ∀ symbol, symbol ∈ diff.unexpectedSymbols ↔
    symbol ∈ actual.symbols ∧ symbol ∉ expected.symbols
  unexpected_nodup : diff.unexpectedSymbols.Nodup

theorem diffAgainstGolden_exact (expected actual : AbiSnapshot) :
    (diffAgainstGolden expected actual).Exact expected actual where
  elfClass := rfl
  machine := rfl
  missing symbol := by
    unfold diffAgainstGolden
    rw [Finset.mem_sort, Finset.mem_sdiff]
  missing_nodup := Finset.sort_nodup _ _
  unexpected symbol := by
    unfold diffAgainstGolden
    rw [Finset.mem_sort, Finset.mem_sdiff]
  unexpected_nodup := Finset.sort_nodup _ _

theorem isNone_mismatch {expected actual : List Char} :
    (if expected = actual then none else some (expected, actual)).isNone = true ↔
      expected = actual := by
  split
  · rename_i h
    exact ⟨fun _ => h, fun _ => rfl⟩
  · rename_i h
    exact ⟨fun hnone => absurd hnone Bool.false_ne_true, fun heq => absurd heq h⟩

/-- The difference is empty exactly when the snapshots agree. -/
theorem diffAgainstGolden_isEmpty {expected actual : AbiSnapshot} :
    (diffAgainstGolden expected actual).isEmpty = true ↔ expected = actual := by
  have hexact := diffAgainstGolden_exact expected actual
  unfold SnapshotDiff.isEmpty
  rw [hexact.elfClass, hexact.machine]
  simp only [Bool.and_eq_true, isNone_mismatch, List.isEmpty_iff, List.eq_nil_iff_forall_not_mem,
    hexact.missing, hexact.unexpected, not_and, not_not]
  constructor
  · intro h
    rcases h with ⟨⟨⟨hclass, hmachine⟩, hmissing⟩, hunexpected⟩
    have hsymbols : expected.symbols = actual.symbols :=
      Finset.Subset.antisymm hmissing hunexpected
    calc expected = ⟨expected.elfClass, expected.machine, expected.symbols⟩ := rfl
      _ = ⟨actual.elfClass, actual.machine, actual.symbols⟩ := by rw [hclass, hmachine, hsymbols]
  · intro h
    rw [h]
    exact ⟨⟨⟨rfl, rfl⟩, fun _ hmem => hmem⟩, fun _ hmem => hmem⟩

/-- Well-formed snapshots with one canonical text are one snapshot. -/
theorem formatSnapshot_inj {s t : AbiSnapshot} (hs : s.WellFormed) (ht : t.WellFormed) :
    formatSnapshot s = formatSnapshot t ↔ s = t := by
  constructor
  · intro h
    have hparse := parse_format hs
    rw [h, parse_format ht] at hparse
    exact (Except.ok.inj hparse).symm
  · intro h
    rw [h]

/-- Snapshots survive being written and read, and their differences are exact. -/
theorem snapshots_roundTrip_and_diff :
    (∀ text snapshot, parseSnapshot text = .ok snapshot →
      snapshot.WellFormed ∧ ReadInFull text snapshot) ∧
    (∀ snapshot : AbiSnapshot, snapshot.WellFormed →
      parseSnapshot (formatSnapshot snapshot) = .ok snapshot) ∧
    ∀ golden found expected actual, parseSnapshot golden = .ok expected →
      parseSnapshot found = .ok actual →
      ((diffAgainstGolden expected actual).isEmpty = true ↔
        formatSnapshot expected = formatSnapshot actual) ∧
      (diffAgainstGolden expected actual).Exact expected actual := by
  refine ⟨fun text snapshot h => parseSnapshot_sound h, fun snapshot h => parse_format h, ?_⟩
  intro golden found expected actual hexpected hactual
  have hinj := formatSnapshot_inj (parseSnapshot_sound hexpected).1 (parseSnapshot_sound hactual).1
  exact ⟨diffAgainstGolden_isEmpty.trans hinj.symm, diffAgainstGolden_exact expected actual⟩

def sampleSnapshot : AbiSnapshot where
  elfClass := ['E']
  machine := ['X', ' ', '8']
  symbols := {['_', '1']}

/-- It exports one symbol more. -/
def widerSnapshot : AbiSnapshot := { sampleSnapshot with symbols := {['_', '1'], ['_', '2']} }

theorem isName_digit {digit : Char} (h : '0' ≤ digit ∧ digit ≤ '9') : IsName ['_', digit] :=
  IsName.cons (Or.inr (Or.inr rfl)) (by
    intro ch hch
    rw [List.mem_singleton.mp hch]
    exact Or.inr h)

theorem sampleSnapshot_wellFormed : sampleSnapshot.WellFormed where
  elfClass := ⟨by decide, by decide⟩
  machine := ⟨by decide, by decide, by simp [sampleSnapshot, isWhitespace]⟩
  symbols := Finset.singleton_nonempty _
  names := by
    intro symbol hsymbol
    rw [Finset.mem_singleton.mp hsymbol]
    exact isName_digit (by decide)

theorem widerSnapshot_wellFormed : widerSnapshot.WellFormed where
  elfClass := sampleSnapshot_wellFormed.elfClass
  machine := sampleSnapshot_wellFormed.machine
  symbols := Finset.insert_nonempty _ _
  names := by
    intro symbol hsymbol
    rcases Finset.mem_insert.mp hsymbol with h | h
    · rw [h]
      exact isName_digit (by decide)
    · rw [Finset.mem_singleton.mp h]
      exact isName_digit (by decide)

/-- The two texts are read in full, and the difference is the symbol that only one of them has. -/
theorem snapshots_roundTrip_and_diff_sample :
    ReadInFull (formatSnapshot sampleSnapshot) sampleSnapshot ∧
    ReadInFull (formatSnapshot widerSnapshot) widerSnapshot ∧
    formatSnapshot sampleSnapshot ≠ formatSnapshot widerSnapshot ∧
    (diffAgainstGolden sampleSnapshot widerSnapshot).missingSymbols = [] ∧
    (diffAgainstGolden sampleSnapshot widerSnapshot).unexpectedSymbols = [['_', '2']] := by
  obtain ⟨hread, hroundTrip, hdiff⟩ := snapshots_roundTrip_and_diff
  have hsample := hroundTrip _ sampleSnapshot_wellFormed
  have hwider := hroundTrip _ widerSnapshot_wellFormed
  obtain ⟨hempty, hexact⟩ := hdiff _ _ _ _ hsample hwider
  have hunexpected : (diffAgainstGolden sampleSnapshot widerSnapshot).unexpectedSymbols =
      [['_', '2']] := by
    apply List.perm_singleton.mp
    apply (List.perm_ext_iff_of_nodup hexact.unexpected_nodup (List.nodup_singleton _)).mpr
    intro symbol
    rw [hexact.unexpected symbol, List.mem_singleton]
    simp only [widerSnapshot, sampleSnapshot, Finset.mem_insert, Finset.mem_singleton]
    constructor
    · rintro ⟨h | h, hnot⟩
      · exact absurd h hnot
      · exact h
    · intro h
      rw [h]
      decide
  refine ⟨(hread _ _ hsample).2, (hread _ _ hwider).2, fun heq => ?_, ?_, hunexpected⟩
  · have hnone := hempty.mpr heq
    unfold SnapshotDiff.isEmpty at hnone
    rw [hunexpected] at hnone
    simp at hnone
  · apply List.eq_nil_iff_forall_not_mem.mpr
    intro symbol hsymbol
    obtain ⟨hin, hout⟩ := (hexact.missing symbol).mp hsymbol
    exact hout (Finset.mem_insert.mpr (Or.inl (Finset.mem_singleton.mp hin)))

end Rlibc.Tools
