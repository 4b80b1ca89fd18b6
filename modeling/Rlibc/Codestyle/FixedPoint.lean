import Rlibc.Codestyle.FormatPass

/-!
# What the formatter leaves, the checker accepts

A text is settled when none of its gaps has an edit.  The checker finds nothing exactly in the
settled texts, and the formatter leaves them as they are.  The pass over the items settles the gaps
between items, and the pass over the blocks settles the others and unsettles none.
-/

namespace Rlibc.Codestyle

open Text TextLines

/-! ## Settled gaps -/

/-- None of the gaps has an edit. -/
def Settled (gaps : List Gap) (ls : List (List Char)) : Prop := ∀ g ∈ gaps, g.edit ls = none

theorem Settled.append {gs hs : List Gap} {ls : List (List Char)} :
    Settled (gs ++ hs) ls ↔ Settled gs ls ∧ Settled hs ls := List.forall_mem_append

theorem settled_iff_filterMap {gaps : List Gap} {ls : List (List Char)} :
    Settled gaps ls ↔ gaps.filterMap (Gap.edit ls) = [] := by
  rw [List.filterMap_eq_nil_iff]
  rfl

theorem Renumbered.settled {f : Nat → Nat} {file file' : File} {ls' : List (List Char)}
    (h : Renumbered f file file') (hsettled : ∀ g ∈ file.gaps, (g.mapLines f).edit ls' = none) :
    Settled file'.gaps ls' := by
  intro g' hg'
  rw [h.gaps] at hg'
  rcases List.mem_map.mp hg' with ⟨g, hg, heq⟩
  rw [← heq]
  exact hsettled g hg

/-! ## One pass -/

/-- The ranges of the two edits do not even touch. -/
def TextEdit.Disjoint (a b : TextEdit) : Prop := a.endByte < b.startByte ∨ b.endByte < a.startByte

/-- A pass has a result, and its edits lie on disjoint ranges. -/
def DisjointEdits (found : Except Failure (List (StyleViolation × TextEdit))) : Prop :=
  ∃ findings, found = .ok findings ∧ (findings.map Prod.snd).Pairwise TextEdit.Disjoint

section Pass

variable {parseFile : Parser} {filler : List Char} {ls : List (List Char)} {file : File}

/-- Gaps of one tree do not meet, so their edits do not. -/
theorem pairwise_disjoint (hparser : parseFile.Contract) (hls : AreLines ls)
    (hparse : parseFile (joinLines ls) = .ok file) {gaps : List Gap}
    (hgaps : gaps.Sublist file.gaps) :
    ((gaps.filterMap (Gap.edit ls)).map (lineEdit filler ls)).Pairwise TextEdit.Disjoint := by
  have hseparate : gaps.Pairwise fun g h => g ∈ file.gaps ∧ h ∈ file.gaps ∧ g.Separate h := by
    have hsub := (hparser.apart hls hparse).separate.sublist hgaps
    apply hsub.imp_of_mem
    intro g h hg hh hsep
    exact ⟨hgaps.subset hg, hgaps.subset hh, hsep⟩
  rw [List.pairwise_map]
  apply List.Pairwise.filterMap (Gap.edit ls) ?_ hseparate
  intro g h hboth s hs t ht
  rcases hboth with ⟨hg, hh, hsep⟩
  rcases Gap.edit_eq_some.mp hs with ⟨hsa, hsb, _⟩
  rcases Gap.edit_eq_some.mp ht with ⟨hta, htb, _⟩
  apply lineEdit_separate (hparser.fits hls hparse hg hs) (hparser.fits hls hparse hh ht)
  unfold Separate
  rw [hsa, hsb, hta, htb]
  exact hsep

/-- The edits of both passes over a text that parses lie on disjoint ranges. -/
theorem disjointEdits (hparser : parseFile.Contract) (hls : AreLines ls)
    (hparse : parseFile (joinLines ls) = .ok file) :
    DisjointEdits (topLevelFindings (joinLines ls) file) ∧
      DisjointEdits (blockFindings (joinLines ls) file) := by
  rcases detectNewlineSequence_eq (joinLines ls) with ⟨filler, _, hnewline⟩
  constructor
  · rcases topLevelFindings_edits hparser hls hparse hnewline with ⟨findings, hok, hedits⟩
    refine ⟨findings, hok, ?_⟩
    rw [hedits]
    exact pairwise_disjoint hparser hls hparse (List.sublist_append_left _ _)
  · rcases blockFindings_edits hparser hls hparse hnewline with ⟨findings, hok, hedits⟩
    refine ⟨findings, hok, ?_⟩
    rw [hedits]
    exact pairwise_disjoint hparser hls hparse (List.sublist_append_right _ _)

/-- What a pass over some of the gaps leaves, and when it finds nothing. -/
structure PassResult (parseFile : Parser) (ls : List (List Char)) (file : File) (gaps : List Gap)
    (result : AnalysisResult) (f : Nat → Nat) (ls' : List (List Char)) (file' : File) : Prop where
  formatted : result.formattedSource.getD (joinLines ls) = joinLines ls'
  lines : AreLines ls'
  content : contentLines ls' = contentLines ls
  parsed : parseFile (joinLines ls') = .ok file'
  numbers : Renumbered f file file'
  settled : ∀ g ∈ file.gaps, g ∈ gaps ∨ g.edit ls = none → (g.mapLines f).edit ls' = none
  violations : result.violations = [] ↔ Settled gaps ls
  unchanged : Settled gaps ls → result = ⟨[], none⟩

theorem applyFindings_pass (hparser : parseFile.Contract) (hfiller : IsFiller filler)
    (hls : AreLines ls) (hparse : parseFile (joinLines ls) = .ok file) {gaps : List Gap}
    (hgaps : gaps.Sublist file.gaps) {findings : List (StyleViolation × TextEdit)}
    (hedits : findings.map Prod.snd =
      (gaps.filterMap (Gap.edit ls)).map (lineEdit filler ls)) :
    ∃ result f ls' file', applyFindings (joinLines ls) findings = .ok result ∧
      PassResult parseFile ls file gaps result f ls' file' := by
  rcases applyFindings_lineEdit hparser hfiller hls hparse hgaps hedits with
    ⟨result, ls', file', f, hok, hviolations, hformatted, hlines, hcontent, hparsed, hnumbers,
      hsettled⟩
  -- nothing is found exactly when no gap has an edit
  have hfound : findings = [] ↔ Settled gaps ls := by
    have hsnd : findings.map Prod.snd = [] ↔ findings = [] := List.map_eq_nil_iff
    rw [settled_iff_filterMap, ← hsnd, hedits, List.map_eq_nil_iff]
  refine ⟨result, f, ls', file', hok, hformatted, hlines, hcontent, hparsed, hnumbers, hsettled,
    ?_, ?_⟩
  · rw [hviolations, List.map_eq_nil_iff]
    exact hfound
  · intro hall
    rw [hfound.mpr hall] at hok
    exact (Except.ok.inj hok).symm

/-- The pass over the items. -/
theorem analyzeTopLevelLayout_pass (hparser : parseFile.Contract) (hls : AreLines ls)
    (hparse : parseFile (joinLines ls) = .ok file) :
    ∃ result f ls' file', analyzeTopLevelLayout parseFile (joinLines ls) = .ok result ∧
      PassResult parseFile ls file file.topLevelGaps result f ls' file' := by
  rcases detectNewlineSequence_eq (joinLines ls) with ⟨filler, hfiller, hnewline⟩
  rcases topLevelFindings_edits hparser hls hparse hnewline with ⟨findings, hok, hedits⟩
  have hpass := applyFindings_pass hparser hfiller hls hparse (List.sublist_append_left _ _) hedits
  unfold analyzeTopLevelLayout
  rw [hparse]
  dsimp only
  rw [hok]
  exact hpass

/-- The pass over the blocks. -/
theorem analyzeBlockLayout_pass (hparser : parseFile.Contract) (hls : AreLines ls)
    (hparse : parseFile (joinLines ls) = .ok file) :
    ∃ result f ls' file', analyzeBlockLayout parseFile (joinLines ls) = .ok result ∧
      PassResult parseFile ls file file.blockGaps result f ls' file' := by
  rcases detectNewlineSequence_eq (joinLines ls) with ⟨filler, hfiller, hnewline⟩
  rcases blockFindings_edits hparser hls hparse hnewline with ⟨findings, hok, hedits⟩
  have hpass := applyFindings_pass hparser hfiller hls hparse (List.sublist_append_right _ _) hedits
  unfold analyzeBlockLayout
  rw [hparse]
  dsimp only
  rw [hok]
  exact hpass

/-! ## The checker and the formatter -/

/-- The checker finds nothing exactly in the settled texts. -/
theorem collectLayoutViolations_eq_nil (hparser : parseFile.Contract) (hls : AreLines ls)
    (hparse : parseFile (joinLines ls) = .ok file) :
    collectLayoutViolations parseFile (joinLines ls) = .ok [] ↔ Settled file.gaps ls := by
  rcases analyzeTopLevelLayout_pass hparser hls hparse with ⟨top, _, _, _, htop, htopPass⟩
  rcases analyzeBlockLayout_pass hparser hls hparse with ⟨block, _, _, _, hblock, hblockPass⟩
  have hcollect : collectLayoutViolations parseFile (joinLines ls) =
      .ok (top.violations ++ block.violations) := by
    unfold collectLayoutViolations
    rw [htop]
    dsimp only
    rw [hblock]
  rw [hcollect, Except.ok.injEq, List.append_eq_nil_iff, htopPass.violations,
    hblockPass.violations]
  exact Settled.append.symm

/-- The formatter leaves a settled text as it is. -/
theorem formatLayoutSource_settled (hparser : parseFile.Contract) (hls : AreLines ls)
    (hparse : parseFile (joinLines ls) = .ok file) (hsettled : Settled file.gaps ls) :
    formatLayoutSource parseFile (joinLines ls) = .ok (joinLines ls) := by
  have hgaps := Settled.append.mp hsettled
  rcases analyzeTopLevelLayout_pass hparser hls hparse with ⟨top, _, _, _, htop, htopPass⟩
  rcases analyzeBlockLayout_pass hparser hls hparse with ⟨block, _, _, _, hblock, hblockPass⟩
  rw [htopPass.unchanged hgaps.1] at htop
  rw [hblockPass.unchanged hgaps.2] at hblock
  unfold formatLayoutSource
  rw [htop]
  dsimp only [Option.getD_none]
  rw [hblock]
  rfl

/-- The formatter settles every text that parses, and keeps its lines that are not blank. -/
theorem formatLayoutSource_settles (hparser : parseFile.Contract) (hls : AreLines ls)
    (hparse : parseFile (joinLines ls) = .ok file) :
    ∃ ls' file', formatLayoutSource parseFile (joinLines ls) = .ok (joinLines ls') ∧
      AreLines ls' ∧ contentLines ls' = contentLines ls ∧
      parseFile (joinLines ls') = .ok file' ∧ Settled file'.gaps ls' := by
  rcases analyzeTopLevelLayout_pass hparser hls hparse with
    ⟨top, f₁, ls₁, file₁, htop, hpass₁⟩
  rcases analyzeBlockLayout_pass hparser hpass₁.lines hpass₁.parsed with
    ⟨block, f₂, ls₂, file₂, hblock, hpass₂⟩
  have hformat : formatLayoutSource parseFile (joinLines ls) = .ok (joinLines ls₂) := by
    unfold formatLayoutSource
    rw [htop]
    dsimp only
    rw [hpass₁.formatted, hblock]
    dsimp only
    rw [hpass₂.formatted]
  -- the first pass settles the gaps between items, and the second one leaves them settled
  have htopLevel : Settled file₁.topLevelGaps ls₁ := by
    intro g₁ hg₁
    rw [hpass₁.numbers.topLevel] at hg₁
    rcases List.mem_map.mp hg₁ with ⟨g, hg, heq⟩
    rw [← heq]
    exact hpass₁.settled g (List.mem_append_left _ hg) (Or.inl hg)
  have hsettled : Settled file₂.gaps ls₂ := by
    apply hpass₂.numbers.settled
    intro g hg
    apply hpass₂.settled g hg
    cases List.mem_append.mp hg with
    | inl hitem => exact Or.inr (htopLevel g hitem)
    | inr hinner => exact Or.inl hinner
  exact ⟨ls₂, file₂, hformat, hpass₂.lines, hpass₂.content.trans hpass₁.content, hpass₂.parsed,
    hsettled⟩

end Pass

/-- Edits of one pass lie on disjoint ranges, also those of the second pass over what the first one
leaves.  The formatter keeps the lines that are not blank, the checker finds nothing in its result,
formatting that again changes nothing, and the checker finds nothing in the source exactly when
formatting does not change it. -/
theorem formatLayout_fixedPoint {parseFile : Parser} (hparser : parseFile.Contract)
    {source : List Char} {file : File} (hparse : parseFile source = .ok file) :
    DisjointEdits (topLevelFindings source file) ∧ DisjointEdits (blockFindings source file) ∧
    (∃ topLevel file', analyzeTopLevelLayout parseFile source = .ok topLevel ∧
      parseFile (topLevel.formattedSource.getD source) = .ok file' ∧
      DisjointEdits (blockFindings (topLevel.formattedSource.getD source) file')) ∧
    ∃ formatted, formatLayoutSource parseFile source = .ok formatted ∧
      contentLines (splitLines formatted) = contentLines (splitLines source) ∧
      collectLayoutViolations parseFile formatted = .ok [] ∧
      formatLayoutSource parseFile formatted = .ok formatted ∧
      (collectLayoutViolations parseFile source = .ok [] ↔ formatted = source) := by
  -- A source is its lines joined, so that every lemma about lines applies to it.
  have hls := areLines_splitLines source
  have hjoin : joinLines (splitLines source) = source := joinLines_splitLines source
  have hparse' : parseFile (joinLines (splitLines source)) = .ok file := by
    rw [hjoin]
    exact hparse
  have hdisjoint := disjointEdits hparser hls hparse'
  rw [hjoin] at hdisjoint
  refine ⟨hdisjoint.1, hdisjoint.2, ?_, ?_⟩
  -- What the second pass edits is the outcome of the first, which parses again.
  · rcases analyzeTopLevelLayout_pass hparser hls hparse' with
      ⟨topLevel, _, ls₁, file₁, htop, hpass⟩
    have hformatted := hpass.formatted
    rw [hjoin] at htop hformatted
    refine ⟨topLevel, file₁, htop, ?_, ?_⟩
    · rw [hformatted]
      exact hpass.parsed
    · rw [hformatted]
      exact (disjointEdits hparser hpass.lines hpass.parsed).2
  · rcases formatLayoutSource_settles hparser hls hparse' with
      ⟨ls', file', hformat, hls', hcontent, hparsed, hsettled⟩
    rw [hjoin] at hformat
    -- The outcome of both passes is settled, so no gap has an edit left.
    have haccepted := (collectLayoutViolations_eq_nil hparser hls' hparsed).mpr hsettled
    refine ⟨joinLines ls', hformat, ?_, haccepted,
      formatLayoutSource_settled hparser hls' hparsed hsettled, ?_⟩
    · rw [splitLines_joinLines hls']
      exact hcontent
    · constructor
      -- A source without a violation is settled already, and formatting it changes nothing.
      · intro hnone
        rw [← hjoin, collectLayoutViolations_eq_nil hparser hls hparse'] at hnone
        have hsame := formatLayoutSource_settled hparser hls hparse' hnone
        rw [hjoin, hformat] at hsame
        exact Except.ok.inj hsame
      · intro heq
        rw [heq] at haccepted
        exact haccepted

/-! ## A parser that meets the contract -/

namespace LineParser

/-- The lines behind line `n` that are not blank, with their numbers. -/
def numbered (n : Nat) : List (List Char) → List (Nat × List Char)
  | [] => []
  | l :: ls => if Blank l then numbered (n + 1) ls else (n + 1, l) :: numbered (n + 1) ls

/-- The statements that this parser knows. -/
def statement (l : List Char) : Option StmtKind :=
  if l = "    let x = 1;".toList ∨ l = "    let y = 2;".toList then some .localDecl
  else if l = "    step(x);".toList then some (.expr .other)
  else none

/-- What follows the first line of a function: its statements, the line of its brace, and the items
behind it. -/
structure Body where
  stmts : Stmts
  close : Nat
  items : List Item

mutual

def parseItems : List (Nat × List Char) → Option (List Item)
  | [] => some []
  | (n, l) :: ts =>
    if l = "mod a;".toList ∨ l = "mod b;".toList then
      (parseItems ts).map fun items => ⟨.mod, n, n, .nil⟩ :: items
    else if l = "fn run() \x7b".toList then
      (parseBody ts).map fun body =>
        ⟨.fn, n, body.close, .function (.block body.stmts .nil) .nil⟩ :: body.items
    else none

def parseBody : List (Nat × List Char) → Option Body
  | [] => none
  | (n, l) :: ts =>
    if l = "\x7d".toList then (parseItems ts).map fun items => ⟨.nil, n, items⟩
    else
      (statement l).bind fun kind =>
        (parseBody ts).map fun body =>
          ⟨.cons kind n n .nil body.stmts, body.close, body.items⟩

end

def parseFile : Parser := fun source =>
  match parseItems (numbered 0 (splitLines source)) with
  | some items => .ok ⟨items⟩
  | none => .error "expected item"

/-! ### The lines -/

theorem numbered_append (n : Nat) (ls ms : List (List Char)) :
    numbered n (ls ++ ms) = numbered n ls ++ numbered (n + ls.length) ms := by
  induction ls generalizing n with
  | nil => rfl
  | cons l ls ih =>
    have hlen : n + (l :: ls).length = n + 1 + ls.length := by
      rw [List.length_cons]
      omega
    rw [List.cons_append, numbered, numbered, ih, hlen]
    split <;> rfl

theorem numbered_blank (n : Nat) {ls : List (List Char)} (h : ∀ l ∈ ls, Blank l) :
    numbered n ls = [] := by
  induction ls generalizing n with
  | nil => rfl
  | cons l ls ih =>
    rw [numbered, if_pos (h l List.mem_cons_self)]
    exact ih (n + 1) fun l' hl' => h l' (List.mem_cons_of_mem l hl')

def renumber (f : Nat → Nat) (t : Nat × List Char) : Nat × List Char := (f t.1, t.2)

/-- The same lines elsewhere have other numbers. -/
theorem numbered_renumber {f : Nat → Nat} {n m : Nat} {ls : List (List Char)}
    (hf : ∀ k < ls.length, f (n + k + 1) = m + k + 1) :
    numbered m ls = (numbered n ls).map (renumber f) := by
  induction ls generalizing n m with
  | nil => rfl
  | cons l ls ih =>
    have hhead : f (n + 1) = m + 1 := hf 0 (Nat.succ_pos _)
    have hrest : numbered (m + 1) ls = (numbered (n + 1) ls).map (renumber f) := by
      apply ih
      intro k hk
      have hk' := hf (k + 1) (by rw [List.length_cons]; omega)
      rw [show n + 1 + k + 1 = n + (k + 1) + 1 by omega, hk']
      omega
    rw [numbered, numbered, hrest]
    split
    · rfl
    · rw [List.map_cons, renumber, hhead]

/-- Exchanging blank lines shifts the lines behind them. -/
theorem numbered_apply {filler : List Char} {s : Splice} {ls : List (List Char)}
    (hfits : s.Fits ls) (hfiller : Blank filler)
    (hblank : ∀ l ∈ between ls s.after s.before, Blank l) :
    numbered 0 (s.apply filler ls) = (numbered 0 ls).map (renumber s.line) := by
  have hlt := hfits.lt
  have hle := hfits.le
  have hhead : (ls.take s.after).length = s.after := by
    rw [List.length_take]
    omega
  have hbetween : (between ls s.after s.before).length = s.before - 1 - s.after := by
    unfold between
    rw [List.length_take, List.length_drop]
    omega
  have hfill : ∀ l ∈ List.replicate s.count filler, Blank l := by
    intro l hl
    rw [List.eq_of_mem_replicate hl]
    exact hfiller
  -- The lines in front of the edit keep their numbers, and those behind it move as one.
  have hfront : numbered 0 (ls.take s.after) =
      (numbered 0 (ls.take s.after)).map (renumber s.line) := by
    apply numbered_renumber
    intro k hk
    rw [hhead] at hk
    exact Splice.line_of_le hlt (by omega)
  have hback : numbered (s.after + s.count) (ls.drop (s.before - 1)) =
      (numbered (s.before - 1) (ls.drop (s.before - 1))).map (renumber s.line) := by
    apply numbered_renumber
    intro k _
    rw [Splice.line_of_ge (by omega)]
    omega
  -- Neither the new blank lines nor the old ones between the two parts are numbered.
  have hnew : numbered 0 (s.apply filler ls) = numbered 0 (ls.take s.after) ++
      numbered (s.after + s.count) (ls.drop (s.before - 1)) := by
    unfold Splice.apply
    rw [numbered_append, numbered_append, numbered_blank _ hfill, List.append_nil,
      List.length_append, hhead, List.length_replicate, Nat.zero_add]
  have hold : numbered 0 ls = numbered 0 (ls.take s.after) ++
      numbered (s.before - 1) (ls.drop (s.before - 1)) := by
    have hsum : 0 + (s.after + (s.before - 1 - s.after)) = s.before - 1 := by omega
    calc numbered 0 ls
        = numbered 0 (ls.take s.after ++ between ls s.after s.before ++
            ls.drop (s.before - 1)) := by rw [← eq_take_between_drop hlt]
      _ = _ := by
        rw [numbered_append, numbered_append, numbered_blank _ hblank, List.append_nil,
          List.length_append, hhead, hbetween, hsum]
  rw [hnew, hold, List.map_append, ← hfront, ← hback]

/-- The numbers ascend from `first` to `last`. -/
def Ascending : List (Nat × List Char) → Nat → Nat → Prop
  | [], first, last => first ≤ last
  | t :: ts, first, last => first ≤ t.1 ∧ Ascending ts t.1 last

theorem ascending_numbered {n first : Nat} {ls : List (List Char)} (hfirst : first ≤ n + 1)
    (hlast : first ≤ n + ls.length) : Ascending (numbered n ls) first (n + ls.length) := by
  induction ls generalizing n first with
  | nil => exact hlast
  | cons l ls ih =>
    have hlen : n + (l :: ls).length = n + 1 + ls.length := by
      rw [List.length_cons]
      omega
    rw [hlen] at hlast ⊢
    rw [numbered]
    split
    · exact ih (Nat.le_succ_of_le hfirst) hlast
    · exact ⟨hfirst, ih (Nat.le_succ _) (Nat.le_add_right _ _)⟩

/-! ### The trees -/

def Body.mapLines (f : Nat → Nat) (body : Body) : Body where
  stmts := body.stmts.mapLines f
  close := f body.close
  items := body.items.map (Item.mapLines f)

/-- The tree has the numbers of the lines it is read from. -/
theorem parse_renumber (f : Nat → Nat) (ts : List (Nat × List Char)) :
    parseItems (ts.map (renumber f)) = (parseItems ts).map (List.map (Item.mapLines f)) ∧
      parseBody (ts.map (renumber f)) = (parseBody ts).map (Body.mapLines f) := by
  induction ts with
  | nil => exact ⟨rfl, rfl⟩
  | cons t ts ih =>
    obtain ⟨n, l⟩ := t
    rw [List.map_cons, renumber]
    constructor
    · rw [parseItems, parseItems, ih.1, ih.2]
      split
      · cases parseItems ts <;> rfl
      · split
        · cases parseBody ts <;> rfl
        · rfl
    · rw [parseBody, parseBody, ih.1, ih.2]
      split
      · cases parseItems ts <;> rfl
      · cases statement l with
        | none => rfl
        | some kind => cases parseBody ts <;> rfl

/-- The tree lies on the lines it is read from. -/
theorem parse_within {ts : List (Nat × List Char)} {first last : Nat}
    (h : Ascending ts first last) :
    (∀ items, parseItems ts = some items → itemsWithin items first last) ∧
      ∀ body, parseBody ts = some body →
        body.stmts.Within first body.close ∧ itemsWithin body.items body.close last := by
  induction ts generalizing first with
  | nil =>
    constructor
    · intro items hitems
      cases hitems
      exact h
    · intro body hbody
      cases hbody
  | cons t ts ih =>
    obtain ⟨n, l⟩ := t
    obtain ⟨hfirst, hrest⟩ := h
    obtain ⟨ihItems, ihBody⟩ := ih hrest
    constructor
    · intro items hitems
      rw [parseItems] at hitems
      split at hitems
      · obtain ⟨rest, hparsed, rfl⟩ := Option.map_eq_some_iff.mp hitems
        exact ⟨hfirst, Nat.le_refl n, ihItems rest hparsed⟩
      · split at hitems
        · obtain ⟨body, hparsed, rfl⟩ := Option.map_eq_some_iff.mp hitems
          obtain ⟨hstmts, hbehind⟩ := ihBody body hparsed
          exact ⟨hfirst, ⟨_, ⟨_, hstmts, Nat.le_refl _⟩, Nat.le_refl _⟩, hbehind⟩
        · cases hitems
    · intro body hbody
      rw [parseBody] at hbody
      split at hbody
      · obtain ⟨items, hparsed, rfl⟩ := Option.map_eq_some_iff.mp hbody
        exact ⟨hfirst, ihItems items hparsed⟩
      · obtain ⟨kind, -, hbody⟩ := Option.bind_eq_some_iff.mp hbody
        obtain ⟨rest, hparsed, rfl⟩ := Option.map_eq_some_iff.mp hbody
        obtain ⟨hstmts, hbehind⟩ := ihBody rest hparsed
        exact ⟨⟨hfirst, Nat.le_refl n, hstmts⟩, hbehind⟩

theorem parseFile_eq_ok {source : List Char} {file : File} :
    parseFile source = .ok file ↔
      parseItems (numbered 0 (splitLines source)) = some file.items := by
  unfold parseFile
  cases parseItems (numbered 0 (splitLines source)) with
  | none => exact iff_of_false (fun h => by cases h) (fun h => by cases h)
  | some items =>
    dsimp only
    rw [Except.ok.injEq, Option.some.injEq]
    constructor
    · intro h
      rw [← h]
    · intro h
      rw [h]

theorem parseFile_ordered {source : List Char} {file : File} (h : parseFile source = .ok file) :
    itemsWithin file.items 1 (splitLines source).length := by
  have hne : 0 < (splitLines source).length :=
    List.length_pos_of_ne_nil (areLines_splitLines source).ne_nil
  have hascending := @ascending_numbered 0 1 (splitLines source) (Nat.le_refl _) (by omega)
  rw [Nat.zero_add] at hascending
  exact (parse_within hascending).1 _ (parseFile_eq_ok.mp h)

theorem parseFile_contract : parseFile.Contract where
  ordered source file h := parseFile_ordered h
  shifted := by
    intro source file gap filler count h hgap hlt hblank hfiller
    have hls := areLines_splitLines source
    have hfits : Splice.Fits ⟨gap.after, gap.before, count⟩ (splitLines source) :=
      ⟨hlt, ((File.apart_gaps (parseFile_ordered h)).inside gap hgap).le_last⟩
    apply parseFile_eq_ok.mpr
    rw [splitLines_joinLines (Splice.areLines_apply hls hfiller.clean hfits),
      numbered_apply hfits hfiller.blank hblank, (parse_renumber _ _).1, parseFile_eq_ok.mp h]
    rfl

end LineParser

/-- Two `mod` items that are too far apart, a function that is too close, and in it two declarations
that are too far apart and a statement that is too close. -/
theorem formatLayout_fixedPoint_sample :
    let source := ("mod a;\n\nmod b;\nfn run() \x7b\n    let x = 1;\n\n    let y = 2;\n" ++
      "    step(x);\n\x7d\n").toList
    ∃ formatted, formatLayoutSource LineParser.parseFile source = .ok formatted ∧
      contentLines (splitLines formatted) =
        ["mod a;".toList, "mod b;".toList, "fn run() \x7b".toList, "    let x = 1;".toList,
          "    let y = 2;".toList, "    step(x);".toList, "\x7d".toList] ∧
      collectLayoutViolations LineParser.parseFile formatted = .ok [] ∧
      formatted ≠ source := by
  intro source
  have hparse : LineParser.parseFile source =
      .ok ⟨[⟨.mod, 1, 1, .nil⟩, ⟨.mod, 3, 3, .nil⟩,
        ⟨.fn, 4, 9, .function (.block (.cons .localDecl 5 5 .nil (.cons .localDecl 7 7 .nil
          (.cons (.expr .other) 8 8 .nil .nil))) .nil) .nil⟩]⟩ := by rfl
  rcases (formatLayout_fixedPoint LineParser.parseFile_contract hparse).2.2.2 with
    ⟨formatted, hformat, hcontent, haccepted, -, hsame⟩
  refine ⟨formatted, hformat, hcontent.trans (by decide +kernel), haccepted, fun heq => ?_⟩
  have hnone := hsame.mpr heq
  rw [← joinLines_splitLines source] at hparse hnone
  have hsettled := (collectLayoutViolations_eq_nil LineParser.parseFile_contract
    (areLines_splitLines source) hparse).mp hnone
  exact absurd (hsettled ⟨7, 8, some 1⟩ (by decide +kernel)) (by decide +kernel)

end Rlibc.Codestyle
