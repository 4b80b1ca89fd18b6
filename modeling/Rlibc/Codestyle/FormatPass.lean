import Mathlib.Data.List.Pairwise
import Rlibc.Codestyle.Gaps

/-!
# One pass of the formatter

A gap that is not as the rule asks has an edit.  A pass carries out the edits of its gaps, the last
one first; the parser sees the same tree with other line numbers each time, and at the end none of
the gaps has an edit any more.
-/

namespace Rlibc.Codestyle

open Text TextLines

/-! ## Gaps that have an edit -/

/-- The splice that a rule asks for, where only blank lines stand between. -/
def Gap.edit (ls : List (List Char)) (gap : Gap) : Option Splice :=
  match gap.expected with
  | none => none
  | some count =>
    if gap.after < gap.before ∧ gap.before - (gap.after + 1) ≠ count ∧
        ((between ls gap.after gap.before).all fun l => Blank l) = true then
      some ⟨gap.after, gap.before, count⟩
    else none

theorem Gap.edit_eq_some {ls : List (List Char)} {gap : Gap} {s : Splice} :
    gap.edit ls = some s ↔ s.after = gap.after ∧ s.before = gap.before ∧
      gap.expected = some s.count ∧ gap.after < gap.before ∧
      gap.before - (gap.after + 1) ≠ s.count ∧
      ∀ l ∈ between ls gap.after gap.before, Blank l := by
  unfold Gap.edit
  constructor
  · intro h
    split at h
    · cases h
    · rename_i count hcount
      split at h
      · rename_i hcond
        cases h
        exact ⟨rfl, rfl, hcount, hcond.1, hcond.2.1, by simpa using hcond.2.2⟩
      · cases h
  · intro h
    rcases h with ⟨hafter, hbefore, hexpected, hlt, hne, hblank⟩
    have hcond : gap.after < gap.before ∧ gap.before - (gap.after + 1) ≠ s.count ∧
        ((between ls gap.after gap.before).all fun l => Blank l) = true :=
      ⟨hlt, hne, by simpa using hblank⟩
    rw [hexpected]
    dsimp only
    rw [if_pos hcond, ← hafter, ← hbefore]

/-- Whether a gap has an edit is decided by its size and what stands in it. -/
theorem Gap.edit_eq_none_of {ls ms : List (List Char)} {g h : Gap}
    (hexpected : h.expected = g.expected)
    (hsize : h.after < h.before → g.after < g.before ∧
      h.before - (h.after + 1) = g.before - (g.after + 1) ∧
      between ms h.after h.before = between ls g.after g.before)
    (hnone : g.edit ls = none) : h.edit ms = none := by
  cases hedit : h.edit ms with
  | none => rfl
  | some s =>
    rcases Gap.edit_eq_some.mp hedit with ⟨_, _, hcount, hlt, hne, hblank⟩
    rcases hsize hlt with ⟨hlt', hsame, hbetween⟩
    rw [hbetween] at hblank
    rw [hsame] at hne
    have hsome : g.edit ls = some ⟨g.after, g.before, s.count⟩ :=
      Gap.edit_eq_some.mpr ⟨rfl, rfl, hexpected ▸ hcount, hlt', hne, hblank⟩
    rw [hnone] at hsome
    cases hsome

/-- A gap apart from the splice has an edit afterwards only if it had one before. -/
theorem Gap.edit_apply {filler : List Char} {ls : List (List Char)} {s : Splice} {g : Gap}
    (hfits : s.Fits ls) (hapart : g.before ≤ s.after ∨ s.before ≤ g.after)
    (hnone : g.edit ls = none) : (g.mapLines s.line).edit (s.apply filler ls) = none := by
  have hexpected : (g.mapLines s.line).expected = g.expected := rfl
  apply Gap.edit_eq_none_of hexpected ?_ hnone
  intro hlt
  change s.line g.after < s.line g.before at hlt
  have hlt' : g.after < g.before := by
    by_contra hge
    exact absurd hlt (Nat.not_lt.mpr (Splice.line_mono (Nat.not_lt.mp hge)))
  refine ⟨hlt', ?_, ?_⟩
  · change s.line g.before - (s.line g.after + 1) = g.before - (g.after + 1)
    cases hapart with
    | inl hle =>
      rw [Splice.line_of_le hfits.lt hle,
        Splice.line_of_le hfits.lt (Nat.le_trans (Nat.le_of_lt hlt') hle)]
    | inr hge =>
      rw [Splice.line_of_ge hge, Splice.line_of_ge (Nat.le_trans hge (Nat.le_of_lt hlt'))]
      omega
  · change between (s.apply filler ls) (s.line g.after) (s.line g.before) = _
    cases hapart with
    | inl hle =>
      rw [Splice.line_of_le hfits.lt hle,
        Splice.line_of_le hfits.lt (Nat.le_trans (Nat.le_of_lt hlt') hle)]
      exact Splice.between_apply_of_le hfits hle
    | inr hge => exact Splice.between_apply_of_ge hfits hge hlt'

/-- A gap whose edit is carried out has none afterwards. -/
theorem Gap.edit_apply_self {ms : List (List Char)} {s : Splice} {g : Gap} (hlt : s.after < s.before)
    (hafter : g.after = s.after) (hbefore : g.before = s.before)
    (hexpected : g.expected = some s.count) : (g.mapLines s.line).edit ms = none := by
  cases hedit : (g.mapLines s.line).edit ms with
  | none => rfl
  | some t =>
    rcases Gap.edit_eq_some.mp hedit with ⟨_, _, hcount, _, hne, _⟩
    have hcount' : s.count = t.count := Option.some.inj (hexpected.symm.trans hcount)
    have hsize : s.line g.before - (s.line g.after + 1) = s.count := by
      rw [hafter, hbefore, Splice.line_of_le hlt (Nat.le_refl _),
        Splice.line_of_ge (Nat.le_refl _)]
      omega
    exact absurd (hsize.trans hcount') hne

/-! ## The parser -/

/-- What the rules rely on: the lines of a tree are ordered and nested like the tree, and when the
blank lines between two neighbours are exchanged for any number of others, the tree is the same
one, with what stands behind them shifted. -/
structure Parser.Contract (parseFile : Parser) : Prop where
  ordered : ∀ source file, parseFile source = .ok file →
    itemsWithin file.items 1 (splitLines source).length
  shifted : ∀ source file gap filler count, parseFile source = .ok file → gap ∈ file.gaps →
    gap.after < gap.before →
    (∀ l ∈ between (splitLines source) gap.after gap.before, Blank l) → IsFiller filler →
    parseFile (joinLines (Splice.apply filler ⟨gap.after, gap.before, count⟩
      (splitLines source))) =
      .ok (file.mapLines (Splice.line ⟨gap.after, gap.before, count⟩))

/-- The gaps of the one file are those of the other with other line numbers. -/
structure Renumbered (f : Nat → Nat) (file file' : File) : Prop where
  topLevel : file'.topLevelGaps = file.topLevelGaps.map (Gap.mapLines f)
  block : file'.blockGaps = file.blockGaps.map (Gap.mapLines f)

theorem Renumbered.gaps {f : Nat → Nat} {file file' : File} (h : Renumbered f file file') :
    file'.gaps = file.gaps.map (Gap.mapLines f) := by
  unfold File.gaps
  rw [h.topLevel, h.block, List.map_append]

theorem Renumbered.mapLines {f : Nat → Nat} {file file' : File} (h : Renumbered f file file')
    (f' : Nat → Nat) : Renumbered (f' ∘ f) file (file'.mapLines f') where
  topLevel := by
    rw [file'.topLevelGaps_mapLines f', h.topLevel, List.map_map]
    rfl
  block := by
    rw [file'.blockGaps_mapLines f', h.block, List.map_map]
    rfl

theorem Renumbered.refl (file : File) : Renumbered id file file where
  topLevel := (List.map_id _).symm
  block := (List.map_id _).symm

section Pass

variable {parseFile : Parser} {filler : List Char} {ls : List (List Char)} {file : File}

theorem Parser.Contract.apart (hparser : parseFile.Contract) (hls : AreLines ls)
    (hparse : parseFile (joinLines ls) = .ok file) : Apart file.gaps 1 ls.length := by
  have hordered := hparser.ordered _ _ hparse
  rw [splitLines_joinLines hls] at hordered
  exact File.apart_gaps hordered

theorem Parser.Contract.fits (hparser : parseFile.Contract) (hls : AreLines ls)
    (hparse : parseFile (joinLines ls) = .ok file) {g : Gap} (hg : g ∈ file.gaps) {s : Splice}
    (hedit : g.edit ls = some s) : s.Fits ls := by
  rcases Gap.edit_eq_some.mp hedit with ⟨hafter, hbefore, _, hlt, _, _⟩
  exact ⟨by rw [hafter, hbefore]; exact hlt,
    by rw [hbefore]; exact ((hparser.apart hls hparse).inside g hg).le_last⟩

/-- What carrying out edits leaves: the tree with other line numbers, where a gap has no edit if
it had none before or its edit was carried out. -/
theorem parse_applyAll (hparser : parseFile.Contract) (hfiller : IsFiller filler)
    (hls : AreLines ls) (hparse : parseFile (joinLines ls) = .ok file) {ss : List Splice}
    (horder : InOrder ss ls) (hss : ∀ s ∈ ss, ∃ g ∈ file.gaps, g.edit ls = some s) :
    ∃ f file', (∀ l m, l ≤ m → f l ≤ f m) ∧ (∀ l, (∀ s ∈ ss, l ≤ s.after) → f l = l) ∧
      parseFile (joinLines (applyAll filler ss ls)) = .ok file' ∧ Renumbered f file file' ∧
      ∀ g ∈ file.gaps, (∀ s, g.edit ls = some s → s ∈ ss) →
        (g.mapLines f).edit (applyAll filler ss ls) = none := by
  induction ss with
  | nil =>
    refine ⟨id, file, fun _ _ h => h, fun _ _ => rfl, hparse, Renumbered.refl file, ?_⟩
    intro g _ hedits
    cases hedit : g.edit ls with
    | none => exact hedit
    | some s => exact absurd (hedits s hedit) List.not_mem_nil
  | cons s ss ih =>
    rcases ih horder.tail (fun t ht => hss t (List.mem_cons_of_mem s ht)) with
      ⟨f, file', hmono, hfix, hparse', hnumbers, hsettled⟩
    rcases hss s List.mem_cons_self with ⟨g₀, hg₀, hedit₀⟩
    rcases Gap.edit_eq_some.mp hedit₀ with ⟨hafter, hbefore, hexpected, hlt, _, hblank⟩
    have hls' : AreLines (applyAll filler ss ls) :=
      areLines_applyAll horder.tail hls hfiller.clean
    have hfits : s.Fits (applyAll filler ss ls) := horder.fits_applyAll
    -- the lines of the gap are those of the original text, as all changes stand behind it
    have hfixBefore : f s.before = s.before := hfix s.before horder.head
    have hfixLe : ∀ l, l ≤ s.before → f l = l := by
      intro l hl
      exact hfix l fun t ht => Nat.le_trans hl (horder.head t ht)
    have hfixAfter : f s.after = s.after := hfixLe _ (Nat.le_of_lt hfits.lt)
    have hgap : g₀.mapLines f = g₀ := by
      have hafter' : f g₀.after = g₀.after := by rw [← hafter, hfixAfter]
      have hbefore' : f g₀.before = g₀.before := by rw [← hbefore, hfixBefore]
      unfold Gap.mapLines
      rw [hafter', hbefore']
    have hmem : g₀ ∈ file'.gaps := by
      rw [hnumbers.gaps, ← hgap]
      exact List.mem_map_of_mem hg₀
    have hs : (⟨g₀.after, g₀.before, s.count⟩ : Splice) = s := by rw [← hafter, ← hbefore]
    have hnext := hparser.shifted _ _ g₀ filler s.count hparse' hmem hlt (by
      rw [splitLines_joinLines hls', ← hafter, ← hbefore, horder.between_applyAll, hafter, hbefore]
      exact hblank) hfiller
    rw [splitLines_joinLines hls', hs] at hnext
    refine ⟨s.line ∘ f, file'.mapLines s.line, ?_, ?_, hnext, hnumbers.mapLines s.line, ?_⟩
    · exact fun l m hlm => Splice.line_mono (hmono l m hlm)
    · intro l hl
      change s.line (f l) = l
      rw [hfix l fun t ht => hl t (List.mem_cons_of_mem s ht)]
      exact Splice.line_of_le hfits.lt (hl s List.mem_cons_self)
    · intro g hg hedits
      change ((g.mapLines f).mapLines s.line).edit (s.apply filler (applyAll filler ss ls)) = none
      by_cases heq : g = g₀
      · rw [heq, hgap]
        exact Gap.edit_apply_self hfits.lt hafter.symm hbefore.symm hexpected
      · have hseparate : g.Separate g₀ :=
          (hparser.apart hls hparse).separate.forall hg hg₀ heq
        have hold : (g.mapLines f).edit (applyAll filler ss ls) = none := by
          apply hsettled g hg
          intro t ht
          cases List.mem_cons.mp (hedits t ht) with
          | inr hmem => exact hmem
          | inl hts =>
            -- the edit of `g` cannot be the one of `g₀`, which it does not meet
            rcases Gap.edit_eq_some.mp ht with ⟨hta, htb, _, htlt, _, _⟩
            rw [hts] at hta htb
            cases hseparate with
            | inl hle => omega
            | inr hle => omega
        apply Gap.edit_apply hfits ?_ hold
        cases hseparate with
        | inl hle =>
          left
          change f g.before ≤ s.after
          rw [hfixLe g.before (by omega)]
          omega
        | inr hle =>
          right
          change s.before ≤ f g.after
          rw [← hfixBefore]
          exact hmono _ _ (by omega)

/-- One pass over some of the gaps: the text that comes out is parsed, its lines that are not blank
are the same, and the gaps are settled, as are those that were settled before. -/
theorem applyFindings_lineEdit (hparser : parseFile.Contract) (hfiller : IsFiller filler)
    (hls : AreLines ls) (hparse : parseFile (joinLines ls) = .ok file) {gaps : List Gap}
    (hgaps : gaps.Sublist file.gaps) {findings : List (StyleViolation × TextEdit)}
    (hedits : findings.map Prod.snd =
      (gaps.filterMap (Gap.edit ls)).map (lineEdit filler ls)) :
    ∃ result ls' file' f, applyFindings (joinLines ls) findings = .ok result ∧
      result.violations = findings.map Prod.fst ∧
      result.formattedSource.getD (joinLines ls) = joinLines ls' ∧ AreLines ls' ∧
      contentLines ls' = contentLines ls ∧ parseFile (joinLines ls') = .ok file' ∧
      Renumbered f file file' ∧
      ∀ g ∈ file.gaps, g ∈ gaps ∨ g.edit ls = none → (g.mapLines f).edit ls' = none := by
  have hmem : ∀ s ∈ gaps.filterMap (Gap.edit ls), ∃ g ∈ file.gaps, g.edit ls = some s := by
    intro s hs
    rcases List.mem_filterMap.mp hs with ⟨g, hg, hedit⟩
    exact ⟨g, hgaps.subset hg, hedit⟩
  have hfits : ∀ s ∈ gaps.filterMap (Gap.edit ls), s.Fits ls := by
    intro s hs
    rcases hmem s hs with ⟨g, hg, hedit⟩
    exact hparser.fits hls hparse hg hedit
  -- Edits of gaps that do not meet do not meet, so their order does not matter.
  have hseparate : (gaps.filterMap (Gap.edit ls)).Pairwise Separate := by
    apply List.Pairwise.filterMap (Gap.edit ls) ?_
      ((hparser.apart hls hparse).separate.sublist hgaps)
    intro g g' hsep s hs t ht
    rcases Gap.edit_eq_some.mp hs with ⟨hsa, hsb, _⟩
    rcases Gap.edit_eq_some.mp ht with ⟨hta, htb, _⟩
    unfold Separate
    rw [hsa, hsb, hta, htb]
    exact hsep
  rcases applyEdits_lineEdit filler hfits hseparate with
    ⟨sorted, formatted, hperm, horder, happly, hformatted⟩
  have hsorted : ∀ s ∈ sorted, ∃ g ∈ file.gaps, g.edit ls = some s :=
    fun s hs => hmem s (hperm.subset hs)
  have hblank : ∀ s ∈ sorted, ∀ l ∈ between ls s.after s.before, Blank l := by
    intro s hs
    rcases hsorted s hs with ⟨g, _, hedit⟩
    rcases Gap.edit_eq_some.mp hedit with ⟨hafter, hbefore, _, _, _, hbetween⟩
    rw [hafter, hbefore]
    exact hbetween
  -- The edits may be made one after another, from the last to the first, with a parse after each.
  rcases parse_applyAll hparser hfiller hls hparse horder hsorted with
    ⟨f, file', _, _, hparse', hnumbers, hsettled⟩
  refine ⟨⟨findings.map Prod.fst, formatted⟩, applyAll filler sorted ls, file', f, ?_, rfl,
    hformatted, areLines_applyAll horder hls hfiller.clean,
    contentLines_applyAll horder hfiller.blank hblank, hparse', hnumbers, ?_⟩
  · unfold applyFindings
    rw [hedits, happly]
  · intro g hg hcase
    apply hsettled g hg
    intro s hs
    -- An edit of a gap outside `gaps` would be left over, but the gap has none.
    cases hcase with
    | inl hin => exact hperm.symm.subset (List.mem_filterMap.mpr ⟨g, hin, hs⟩)
    | inr hnone =>
      rw [hnone] at hs
      cases hs

end Pass

/-! ## What a pass collects -/

section Findings

variable {γ : Type} {filler : List Char} {ls : List (List Char)}

/-- The edit for two neighbours is the one of the gap between them. -/
theorem checkPair_edit (rule : LayoutRule γ) (hls : AreLines ls)
    (pair : Descriptor γ × Descriptor γ) (hle : pair.2.startLine ≤ ls.length) :
    (checkPair rule (joinLines ls) (buildLineStarts (joinLines ls)) (filler ++ ['\n']) pair).map
        Prod.snd = ((rule.gap pair).edit ls).map (lineEdit filler ls) := by
  have hgap : (rule.gap pair).expected =
      rule.expectedBlankLines pair.1.group pair.2.group := rfl
  unfold checkPair Gap.edit
  dsimp only
  rw [hgap]
  -- Both sides test the gap in the same order: empty, expected, actual, blank.
  by_cases hlt : pair.1.endLine < pair.2.startLine
  · have hstart : lineStartOffset (buildLineStarts (joinLines ls)) (pair.1.endLine + 1) =
        lineOffset ls pair.1.endLine :=
      lineStartOffset_eq hls (Nat.lt_of_lt_of_le hlt hle)
    have hstop : lineStartOffset (buildLineStarts (joinLines ls)) pair.2.startLine =
        lineOffset ls (pair.2.startLine - 1) := by
      have hline : pair.2.startLine = (pair.2.startLine - 1) + 1 := by omega
      have heq := lineStartOffset_eq hls (show pair.2.startLine - 1 < ls.length by omega)
      rwa [← hline] at heq
    -- Offsets of line starts cut out the lines of the gap.
    have hspace := @hasOnlyWhitespace_eq ls pair.1.endLine pair.2.startLine hlt hle
    rw [if_neg (Nat.not_le.mpr hlt), hstart, hstop]
    cases rule.expectedBlankLines pair.1.group pair.2.group with
    | none => rfl
    | some count =>
      dsimp only
      by_cases hactual : pair.2.startLine - (pair.1.endLine + 1) = count
      · rw [if_pos hactual, if_neg fun h => h.2.1 hactual]
        rfl
      · rw [if_neg hactual]
        by_cases hblank : ∀ l ∈ between ls pair.1.endLine pair.2.startLine, Blank l
        · have hcond : (rule.gap pair).after < (rule.gap pair).before ∧
              (rule.gap pair).before - ((rule.gap pair).after + 1) ≠ count ∧
              ((between ls (rule.gap pair).after (rule.gap pair).before).all
                fun l => Blank l) = true :=
            ⟨hlt, hactual, List.all_eq_true.mpr fun l hl => decide_eq_true (hblank l hl)⟩
          rw [if_pos (hspace.mpr hblank), if_pos hcond, repeatText_eq]
          rfl
        · have hcond : ¬ ((rule.gap pair).after < (rule.gap pair).before ∧
              (rule.gap pair).before - ((rule.gap pair).after + 1) ≠ count ∧
              ((between ls (rule.gap pair).after (rule.gap pair).before).all
                fun l => Blank l) = true) := by
            intro h
            exact hblank fun l hl => of_decide_eq_true (List.all_eq_true.mp h.2.2 l hl)
          rw [if_neg fun h => hblank (hspace.mp h), if_neg hcond]
          rfl
  -- The items touch or share a line, so there is no gap to edit.
  · rw [if_pos (Nat.not_lt.mp hlt)]
    cases rule.expectedBlankLines pair.1.group pair.2.group with
    | none => rfl
    | some count =>
      dsimp only
      rw [if_neg fun h => hlt h.1]
      rfl

/-- The edits for a list are those of its gaps. -/
theorem checkPairs_edits (rule : LayoutRule γ) (hls : AreLines ls)
    (hnewline : detectNewlineSequence (joinLines ls) = filler ++ ['\n'])
    {ds : List (Descriptor γ)} (hle : ∀ g ∈ rule.gaps ds, g.before ≤ ls.length) :
    (checkPairs rule (joinLines ls) ds).map Prod.snd =
      ((rule.gaps ds).filterMap (Gap.edit ls)).map (lineEdit filler ls) := by
  unfold checkPairs LayoutRule.gaps at *
  rw [List.map_filterMap, List.map_filterMap, List.filterMap_map, hnewline]
  apply List.filterMap_congr
  intro pair hpair
  exact checkPair_edit rule hls pair (hle _ (List.mem_map_of_mem hpair))

/-- A list of one or none has no neighbours. -/
theorem windows_eq_nil {ds : List (Descriptor γ)} (h : ds.length ≤ 1) : windows ds = [] := by
  cases ds with
  | nil => rfl
  | cons d ds =>
    cases ds with
    | nil => rfl
    | cons d' ds =>
      rw [List.length_cons, List.length_cons] at h
      omega

theorem withLines_eq_ok {ds : List (Descriptor γ)}
    (h : ∀ d ∈ ds, 1 ≤ d.startLine ∧ 1 ≤ d.endLine) : withLines ds = .ok ds := by
  unfold withLines
  rw [if_neg]
  intro hany
  rcases List.any_eq_true.mp hany with ⟨d, hd, hzero⟩
  have hlines := h d hd
  rw [decide_eq_true_eq] at hzero
  omega

end Findings

theorem Stmts.length_descriptors (stmts : Stmts) : stmts.descriptors.length = stmts.length := by
  induction stmts using Stmts.induction with
  | nil => rfl
  | cons kind startLine endLine inside rest ih => exact congrArg (· + 1) ih

theorem Stmts.Within.lines {stmts : Stmts} {first last : Nat} (h : stmts.Within first last) :
    ∀ d ∈ stmts.descriptors, first ≤ d.startLine ∧ first ≤ d.endLine := by
  induction stmts using Stmts.induction generalizing first with
  | nil => exact fun _ hd => absurd hd List.not_mem_nil
  | cons kind startLine endLine inside rest ih =>
    intro d hd
    cases List.mem_cons.mp hd with
    | inl heq =>
      rw [heq]
      exact ⟨h.1, Nat.le_trans h.1 h.2.1.le⟩
    | inr hmem =>
      have hrest := ih h.2.2 d hmem
      have hfirst := Nat.le_trans h.1 h.2.1.le
      exact ⟨Nat.le_trans hfirst hrest.1, Nat.le_trans hfirst hrest.2⟩

mutual

/-- The statements of all collected blocks stand behind the first line. -/
theorem Parts.Within.block_lines : ∀ {parts : Parts} (functionDepth : Nat) {first last : Nat},
    parts.Within first last → ∀ block ∈ parts.blocks functionDepth, ∀ d ∈ block.descriptors,
      first ≤ d.startLine ∧ first ≤ d.endLine
  | .nil, _, _, _, _ => fun _ hblock => absurd hblock List.not_mem_nil
  | .function inside rest, functionDepth, first, last, h => by
    rcases h with ⟨line, hinside, hrest⟩
    intro block hblock d hd
    rw [Parts.blocks] at hblock
    cases List.mem_append.mp hblock with
    | inl hmem => exact hinside.block_lines (functionDepth + 1) block hmem d hd
    | inr hmem =>
      have hlines := hrest.block_lines functionDepth block hmem d hd
      exact ⟨Nat.le_trans hinside.le hlines.1, Nat.le_trans hinside.le hlines.2⟩
  | .block stmts rest, functionDepth, first, last, h => by
    rcases h with ⟨line, hstmts, hrest⟩
    intro block hblock d hd
    rw [Parts.blocks, List.mem_append, List.mem_append] at hblock
    rcases hblock with (hmem | hmem) | hmem
    · split at hmem
      · rw [List.mem_singleton.mp hmem] at hd
        exact hstmts.lines d hd
      · exact absurd hmem List.not_mem_nil
    · exact hstmts.block_lines functionDepth block hmem d hd
    · have hlines := hrest.block_lines functionDepth block hmem d hd
      exact ⟨Nat.le_trans hstmts.le hlines.1, Nat.le_trans hstmts.le hlines.2⟩
  | .ret inside rest, functionDepth, first, last, h => by
    rcases h with ⟨line, hinside, hrest⟩
    intro block hblock d hd
    rw [Parts.blocks] at hblock
    cases List.mem_append.mp hblock with
    | inl hmem => exact hinside.block_lines functionDepth block hmem d hd
    | inr hmem =>
      have hlines := hrest.block_lines functionDepth block hmem d hd
      exact ⟨Nat.le_trans hinside.le hlines.1, Nat.le_trans hinside.le hlines.2⟩

theorem Stmts.Within.block_lines : ∀ {stmts : Stmts} (functionDepth : Nat) {first last : Nat},
    stmts.Within first last → ∀ block ∈ stmts.blocks functionDepth, ∀ d ∈ block.descriptors,
      first ≤ d.startLine ∧ first ≤ d.endLine
  | .nil, _, _, _, _ => fun _ hblock => absurd hblock List.not_mem_nil
  | .cons _ _ _ inside rest, functionDepth, first, last, h => by
    intro block hblock d hd
    rw [Stmts.blocks] at hblock
    cases List.mem_append.mp hblock with
    | inl hmem =>
      have hlines := h.2.1.block_lines functionDepth block hmem d hd
      exact ⟨Nat.le_trans h.1 hlines.1, Nat.le_trans h.1 hlines.2⟩
    | inr hmem =>
      have hlines := h.2.2.block_lines functionDepth block hmem d hd
      have hfirst := Nat.le_trans h.1 h.2.1.le
      exact ⟨Nat.le_trans hfirst hlines.1, Nat.le_trans hfirst hlines.2⟩

end

/-- The lines of all items and of all statements in them. -/
theorem itemsWithin.lines {items : List Item} {first last : Nat}
    (h : itemsWithin items first last) : ∀ item ∈ items,
      first ≤ item.startLine ∧ first ≤ item.endLine ∧
      ∀ block ∈ item.inside.blocks 0, ∀ d ∈ block.descriptors,
        first ≤ d.startLine ∧ first ≤ d.endLine := by
  induction items generalizing first with
  | nil => exact fun _ hitem => absurd hitem List.not_mem_nil
  | cons item items ih =>
    intro other hother
    cases List.mem_cons.mp hother with
    | inl heq =>
      rw [heq]
      refine ⟨h.1, Nat.le_trans h.1 h.2.1.le, ?_⟩
      intro block hblock d hd
      have hlines := h.2.1.block_lines 0 block hblock d hd
      exact ⟨Nat.le_trans h.1 hlines.1, Nat.le_trans h.1 hlines.2⟩
    | inr hmem =>
      have hfirst := Nat.le_trans h.1 h.2.1.le
      have hrest := ih h.2.2 other hmem
      refine ⟨Nat.le_trans hfirst hrest.1, Nat.le_trans hfirst hrest.2.1, ?_⟩
      intro block hblock d hd
      have hlines := hrest.2.2 block hblock d hd
      exact ⟨Nat.le_trans hfirst hlines.1, Nat.le_trans hfirst hlines.2⟩

/-! ## The two passes -/

section Passes

variable {parseFile : Parser} {filler : List Char} {ls : List (List Char)} {file : File}

/-- The pass over the items collects the edits of their gaps. -/
theorem topLevelFindings_edits (hparser : parseFile.Contract) (hls : AreLines ls)
    (hparse : parseFile (joinLines ls) = .ok file)
    (hnewline : detectNewlineSequence (joinLines ls) = filler ++ ['\n']) :
    ∃ findings, topLevelFindings (joinLines ls) file = .ok findings ∧
      findings.map Prod.snd =
        (file.topLevelGaps.filterMap (Gap.edit ls)).map (lineEdit filler ls) := by
  have hapart := hparser.apart hls hparse
  have hlines := (hparser.ordered _ _ hparse).lines
  have hdescriptors : withLines file.descriptors = .ok file.descriptors := by
    apply withLines_eq_ok
    intro d hd
    rcases List.mem_map.mp hd with ⟨item, hitem, heq⟩
    rw [← heq]
    exact ⟨(hlines item hitem).1, (hlines item hitem).2.1⟩
  have hle : ∀ g ∈ TopLevel.rule.gaps file.descriptors, g.before ≤ ls.length :=
    fun g hg => (hapart.inside g (List.mem_append_left _ hg)).le_last
  have hedits := checkPairs_edits TopLevel.rule hls hnewline hle
  unfold topLevelFindings
  rw [hdescriptors]
  dsimp only
  by_cases hshort : file.descriptors.length ≤ 1
  · refine ⟨[], by rw [if_pos hshort], ?_⟩
    unfold File.topLevelGaps LayoutRule.gaps
    rw [windows_eq_nil hshort]
    rfl
  · exact ⟨_, by rw [if_neg hshort], hedits⟩

theorem analyzeSingleBlock_eq_ok (source : List Char) {block : Stmts}
    (hlines : ∀ d ∈ block.descriptors, 1 ≤ d.startLine ∧ 1 ≤ d.endLine) :
    analyzeSingleBlock source block = .ok (checkPairs Block.rule source block.descriptors) := by
  unfold analyzeSingleBlock
  by_cases hshort : block.length ≤ 1
  · rw [if_pos hshort]
    unfold checkPairs
    rw [windows_eq_nil (by rw [block.length_descriptors]; exact hshort)]
    rfl
  · rw [if_neg hshort, withLines_eq_ok hlines]

theorem analyzeBlocks_eq_ok (source : List Char) {blocks : List Stmts}
    (hlines : ∀ block ∈ blocks, ∀ d ∈ block.descriptors, 1 ≤ d.startLine ∧ 1 ≤ d.endLine) :
    analyzeBlocks source blocks =
      .ok (blocks.flatMap fun block => checkPairs Block.rule source block.descriptors) := by
  induction blocks with
  | nil => rfl
  | cons block blocks ih =>
    rw [analyzeBlocks, analyzeSingleBlock_eq_ok source (hlines block List.mem_cons_self),
      ih fun other hother => hlines other (List.mem_cons_of_mem block hother)]
    rfl

/-- The pass over the blocks collects the edits of their gaps. -/
theorem blockFindings_edits (hparser : parseFile.Contract) (hls : AreLines ls)
    (hparse : parseFile (joinLines ls) = .ok file)
    (hnewline : detectNewlineSequence (joinLines ls) = filler ++ ['\n']) :
    ∃ findings, blockFindings (joinLines ls) file = .ok findings ∧
      findings.map Prod.snd =
        (file.blockGaps.filterMap (Gap.edit ls)).map (lineEdit filler ls) := by
  have hapart := hparser.apart hls hparse
  have hlines := (hparser.ordered _ _ hparse).lines
  have hblocks : ∀ block ∈ file.blocks, ∀ d ∈ block.descriptors,
      1 ≤ d.startLine ∧ 1 ≤ d.endLine := by
    intro block hblock
    rcases List.mem_flatMap.mp hblock with ⟨item, hitem, hmem⟩
    exact (hlines item hitem).2.2 block hmem
  have hall := analyzeBlocks_eq_ok (joinLines ls) hblocks
  have hedits : (file.blocks.flatMap fun block =>
      checkPairs Block.rule (joinLines ls) block.descriptors).map Prod.snd =
      (file.blockGaps.filterMap (Gap.edit ls)).map (lineEdit filler ls) := by
    unfold File.blockGaps
    rw [List.map_flatMap, List.filterMap_flatMap, List.map_flatMap]
    apply List.flatMap_congr
    intro block hblock
    apply checkPairs_edits Block.rule hls hnewline
    intro g hg
    exact (hapart.inside g (List.mem_append_right _
      (List.mem_flatMap.mpr ⟨block, hblock, hg⟩))).le_last
  unfold blockFindings
  cases hempty : file.blocks with
  | nil =>
    refine ⟨[], rfl, ?_⟩
    rw [← hedits, hempty]
    rfl
  | cons block blocks =>
    rw [← hempty]
    refine ⟨_, ?_, hedits⟩
    rw [hempty, List.isEmpty_cons, if_neg Bool.false_ne_true, ← hempty, hall]

end Passes

end Rlibc.Codestyle
