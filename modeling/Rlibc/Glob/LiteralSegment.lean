import Rlibc.Glob.NulFree

/-!
# Segments without metacharacters

`collect_matches` asks only whether the entry exists that such a segment spells.  Matching the
segment against the entries of the directory would keep the same ones.
-/

namespace Rlibc.Glob

/-- A segment of literals matches the one name that it spells. -/
theorem matches_literals {es : List Element} (h : es.any Element.isMeta = false)
    (name : List UInt8) : Matches es name ↔ name = literalName es := by
  induction es generalizing name with
  | nil => exact matches_nil
  | cons element es ih =>
    rw [List.any_cons, Bool.or_eq_false_iff] at h
    cases element with
    | literal byte =>
      change _ ↔ name = byte :: literalName es
      rw [matches_literal]
      constructor
      · rintro ⟨rest, rfl, hrest⟩
        rw [(ih h.2 rest).mp hrest]
      · intro hname
        exact ⟨_, hname, (ih h.2 _).mpr rfl⟩
    | any => cases h.1
    | star => cases h.1
    | set negated items => cases h.1

/-- A name that a segment of literals spells is never passed over as hidden. -/
theorem matchesHidden_literals {es : List Element} (h : es.any Element.isMeta = false)
    (hdot : (literalName es).head? = some dot) : matchesHidden es = true := by
  cases es with
  | nil => cases hdot
  | cons element es =>
    rw [List.any_cons, Bool.or_eq_false_iff] at h
    cases element with
    | literal byte => exact decide_eq_true (Option.some.inj hdot)
    | any => cases h.1
    | star => cases h.1
    | set negated items => cases h.1

theorem patternMatches_literal {segment : List UInt8} {flags : Flags}
    (hliteral : segmentHasPatternMeta (hasFlag flags GLOB_NOESCAPE) segment = false)
    (name : List UInt8) :
    patternMatches segment name flags = true ↔
      name = unescapeSegment (hasFlag flags GLOB_NOESCAPE) segment := by
  rw [segmentHasPatternMeta_eq] at hliteral
  unfold patternMatches
  rw [patternMatchesFrom_iff, matches_literals hliteral, unescapeSegment_eq _ _ hliteral]

/-- What matching keeps of a directory: the entry with the name, where there is one. -/
theorem keepEntries_literal {segment : List UInt8} {flags : Flags}
    (hliteral : segmentHasPatternMeta (hasFlag flags GLOB_NOESCAPE) segment = false)
    (entries : List Name) :
    keepEntries flags segment entries =
      entries.filter (· = unescapeSegment (hasFlag flags GLOB_NOESCAPE) segment) := by
  unfold keepEntries
  apply List.filter_congr
  intro name _
  apply decide_eq_decide.mpr
  rw [patternMatches_literal hliteral]
  constructor
  · rintro ⟨-, hname⟩
    exact hname
  · intro hname
    refine ⟨?_, hname⟩
    rintro ⟨hdot, hhidden⟩
    rw [segmentHasPatternMeta_eq] at hliteral
    rw [hname, unescapeSegment_eq _ _ hliteral] at hdot
    rw [shouldMatchHiddenName_eq] at hhidden
    exact hhidden (matchesHidden_literals hliteral hdot)

theorem unescapeSegment_ne_nil {noEscape : Bool} {segment : List UInt8} (h : segment ≠ []) :
    unescapeSegment noEscape segment ≠ [] := by
  unfold unescapeSegment
  split
  · exact h
  · unfold unescapeLoop
    split
    · exact absurd rfl h
    · exact List.cons_ne_nil _ _
    · split
      · exact List.cons_ne_nil _ _
      · exact List.cons_ne_nil _ _

/-- The directory has these entries, and asking for an entry by name agrees with the listing. -/
def FileSystem.Lists (fs : FileSystem) (path : FsPath) (entries : List Name) : Prop :=
  fs.readDirectoryNames path = .ok entries ∧
    ∀ name, name ≠ [] → PATH_SEPARATOR ∉ name → 0 ∉ name →
      (fs.literalPathExists (path.join name) = true ↔ name ∈ entries)

theorem filter_eq_of_mem {name : Name} {entries : List Name} (hnodup : entries.Nodup)
    (hmem : name ∈ entries) : entries.filter (· = name) = [name] := by
  rw [List.filter_eq, hnodup.count, if_pos hmem]
  rfl

/-- The existence check finds what matching against the listing would keep. -/
theorem nextCandidates_literal {fs : FileSystem} {flags : Flags} {segment : List UInt8}
    (hliteral : segmentHasPatternMeta (hasFlag flags GLOB_NOESCAPE) segment = false)
    (hne : segment ≠ []) (hslash : PATH_SEPARATOR ∉ segment) (hnul : 0 ∉ segment)
    (errfunc : GlobErrorFn) (separatorCount : Nat) (candidate : CandidatePath)
    {entries : List Name} (hlists : fs.Lists candidate.fsPath entries) :
    nextCandidates fs flags errfunc separatorCount segment candidate =
      .ok ((keepEntries flags segment entries).map fun name =>
        ⟨candidate.fsPath.join name,
          joinResultPath candidate.resultPath separatorCount name⟩) := by
  have hexists := hlists.2 (unescapeSegment (hasFlag flags GLOB_NOESCAPE) segment)
    (unescapeSegment_ne_nil hne) (fun h => hslash (mem_of_mem_unescapeSegment h))
    (fun h => hnul (mem_of_mem_unescapeSegment h))
  unfold nextCandidates
  rw [hliteral, if_neg Bool.false_ne_true, keepEntries_literal hliteral]
  dsimp only
  by_cases hmem : unescapeSegment (hasFlag flags GLOB_NOESCAPE) segment ∈ entries
  · rw [if_pos (hexists.mpr hmem), filter_eq_of_mem (fs.nodup _ _ hlists.1) hmem]
    rfl
  · rw [if_neg (fun h => hmem (hexists.mp h)), List.filter_eq_nil_iff.mpr]
    · rfl
    · intro name hname heq
      rw [decide_eq_true_eq] at heq
      exact hmem (heq ▸ hname)

/-- A segment without metacharacters matches exactly the name it spells, and the existence check
for that name selects what matching the entries of the directory would select. -/
theorem literalSegment_contract (segment : List UInt8) (flags : Flags)
    (hliteral : segmentHasPatternMeta (hasFlag flags GLOB_NOESCAPE) segment = false) :
    (∀ name, patternMatches segment name flags = true ↔
      name = unescapeSegment (hasFlag flags GLOB_NOESCAPE) segment) ∧
    ∀ (fs : FileSystem) (errfunc : GlobErrorFn) (separatorCount : Nat)
      (candidate : CandidatePath) (entries : List Name),
      segment ≠ [] → PATH_SEPARATOR ∉ segment → 0 ∉ segment →
      fs.Lists candidate.fsPath entries →
      nextCandidates fs flags errfunc separatorCount segment candidate =
        .ok ((keepEntries flags segment entries).map fun name =>
          ⟨candidate.fsPath.join name,
            joinResultPath candidate.resultPath separatorCount name⟩) :=
  ⟨patternMatches_literal hliteral, fun _ errfunc separatorCount candidate _ hne hslash hnul =>
    nextCandidates_literal hliteral hne hslash hnul errfunc separatorCount candidate⟩

/-- A directory with the entries `*` and `.`, as every path reads it. -/
def starEntry : FileSystem where
  literalPathExists path := path.names.all fun name => [[starByte], [dot]].contains name
  isDir path := path.names = []
  readDirectoryNames _ := .ok [[starByte], [dot]]
  nodup _ _ h := by
    cases h
    decide
  valid _ _ h := by
    cases h
    decide

theorem starEntry_lists : starEntry.Lists ⟨false, []⟩ [[starByte], [dot]] := by
  refine ⟨rfl, fun name _ _ _ => ?_⟩
  change (([name] : List Name).all fun name => [[starByte], [dot]].contains name) = true ↔ _
  simp

/-- An escaped star is looked up by its name. -/
theorem literalSegment_contract_star :
    (∀ name, patternMatches [backslash, starByte] name 0 = true ↔ name = [starByte]) ∧
      nextCandidates starEntry 0 none 0 [backslash, starByte] ⟨⟨false, []⟩, []⟩ =
        .ok [⟨⟨false, [[starByte]]⟩, [starByte]⟩] := by
  have hcontract := literalSegment_contract [backslash, starByte] 0 (by decide +kernel)
  have hunescape : unescapeSegment (hasFlag 0 GLOB_NOESCAPE) [backslash, starByte] =
      [starByte] := by decide
  have hkeep : keepEntries 0 [backslash, starByte] [[starByte], [dot]] = [[starByte]] := by
    rw [keepEntries_literal (by decide +kernel), hunescape]
    decide
  refine ⟨fun name => ?_, ?_⟩
  · rw [hcontract.1 name, hunescape]
  · rw [hcontract.2 starEntry none 0 ⟨⟨false, []⟩, []⟩ _ (by decide) (by decide) (by decide)
      starEntry_lists, hkeep]
    rfl

end Rlibc.Glob
