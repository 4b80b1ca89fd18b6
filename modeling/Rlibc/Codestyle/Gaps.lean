import Rlibc.Codestyle.Layout

/-!
# The gaps of a tree

A gap is what lies between two neighbours that a rule speaks about.  When the lines of a tree are
ordered and nested like the tree, no gap reaches into another one, whichever blocks they are in.
-/

namespace Rlibc.Codestyle

open Text TextLines

/-- The last line of a node, the first line of its neighbour, and the blank lines asked for. -/
structure Gap where
  after : Nat
  before : Nat
  expected : Option Nat
deriving DecidableEq

variable {γ : Type}

def LayoutRule.gap (rule : LayoutRule γ) (pair : Descriptor γ × Descriptor γ) : Gap where
  after := pair.1.endLine
  before := pair.2.startLine
  expected := rule.expectedBlankLines pair.1.group pair.2.group

def LayoutRule.gaps (rule : LayoutRule γ) (descriptors : List (Descriptor γ)) : List Gap :=
  (windows descriptors).map rule.gap

def Stmts.gaps (block : Stmts) : List Gap := Block.rule.gaps block.descriptors

def File.topLevelGaps (file : File) : List Gap := TopLevel.rule.gaps file.descriptors

def File.blockGaps (file : File) : List Gap := file.blocks.flatMap Stmts.gaps

def File.gaps (file : File) : List Gap := file.topLevelGaps ++ file.blockGaps

/-! ## Renumbering -/

def Gap.mapLines (f : Nat → Nat) (gap : Gap) : Gap where
  after := f gap.after
  before := f gap.before
  expected := gap.expected

def Descriptor.mapLines (f : Nat → Nat) (d : Descriptor γ) : Descriptor γ where
  group := d.group
  startLine := f d.startLine
  endLine := f d.endLine

theorem windows_mapLines (f : Nat → Nat) (ds : List (Descriptor γ)) :
    windows (ds.map (Descriptor.mapLines f)) =
      (windows ds).map fun pair => (pair.1.mapLines f, pair.2.mapLines f) := by
  induction ds with
  | nil => rfl
  | cons current ds ih =>
    cases ds with
    | nil => rfl
    | cons next rest =>
      rw [List.map_cons, List.map_cons, windows, windows, List.map_cons, ← ih, List.map_cons]

theorem LayoutRule.gaps_mapLines (rule : LayoutRule γ) (f : Nat → Nat)
    (ds : List (Descriptor γ)) :
    rule.gaps (ds.map (Descriptor.mapLines f)) = (rule.gaps ds).map (Gap.mapLines f) := by
  unfold LayoutRule.gaps
  rw [windows_mapLines, List.map_map, List.map_map]
  rfl

theorem Stmts.length_mapLines (f : Nat → Nat) (stmts : Stmts) :
    (stmts.mapLines f).length = stmts.length := by
  induction stmts using Stmts.induction with
  | nil => rfl
  | cons kind startLine endLine inside rest ih => exact congrArg (· + 1) ih

theorem Stmts.descriptors_mapLines (f : Nat → Nat) (stmts : Stmts) :
    (stmts.mapLines f).descriptors = stmts.descriptors.map (Descriptor.mapLines f) := by
  induction stmts using Stmts.induction with
  | nil => rfl
  | cons kind startLine endLine inside rest ih =>
    have hgroup : ∀ isFinalStatement, classifyStatement kind (inside.mapLines f) isFinalStatement =
        classifyStatement kind inside isFinalStatement := by
      intro isFinalStatement
      unfold classifyStatement
      rw [inside.containsReturn_mapLines f]
    rw [Stmts.mapLines, Stmts.descriptors, Stmts.descriptors, List.map_cons, hgroup,
      rest.length_mapLines f, ih]
    rfl

theorem File.topLevelGaps_mapLines (f : Nat → Nat) (file : File) :
    (file.mapLines f).topLevelGaps = file.topLevelGaps.map (Gap.mapLines f) := by
  have hdescriptors : (file.mapLines f).descriptors =
      file.descriptors.map (Descriptor.mapLines f) := by
    unfold File.descriptors File.mapLines
    rw [List.map_map, List.map_map]
    rfl
  unfold File.topLevelGaps
  rw [hdescriptors]
  exact LayoutRule.gaps_mapLines _ f _

theorem File.blockGaps_mapLines (f : Nat → Nat) (file : File) :
    (file.mapLines f).blockGaps = file.blockGaps.map (Gap.mapLines f) := by
  unfold File.blockGaps
  rw [file.blocks_mapLines f, List.flatMap_map, List.map_flatMap]
  apply List.flatMap_congr
  intro block _
  unfold Stmts.gaps
  rw [block.descriptors_mapLines f]
  exact LayoutRule.gaps_mapLines _ f _

/-! ## Gaps do not meet -/

/-- Neither of the two gaps reaches into the other. -/
def Gap.Separate (g h : Gap) : Prop := g.before ≤ h.after ∨ h.before ≤ g.after

theorem Gap.Separate.symm {g h : Gap} (hsep : g.Separate h) : h.Separate g := Or.symm hsep

instance : Std.Symm Gap.Separate := ⟨fun _ _ h => h.symm⟩

/-- The gap lies between two lines. -/
structure Gap.Inside (g : Gap) (first last : Nat) : Prop where
  first_le : first ≤ g.after
  le_last : g.before ≤ last

theorem Gap.Inside.mono {g : Gap} {first last first' last' : Nat} (h : g.Inside first last)
    (hfirst : first' ≤ first) (hlast : last ≤ last') : g.Inside first' last' :=
  ⟨Nat.le_trans hfirst h.first_le, Nat.le_trans h.le_last hlast⟩

/-- All gaps lie between two lines, and do not meet. -/
structure Apart (gaps : List Gap) (first last : Nat) : Prop where
  inside : ∀ g ∈ gaps, g.Inside first last
  separate : gaps.Pairwise Gap.Separate

theorem Apart.nil (first last : Nat) : Apart [] first last where
  inside := fun _ h => absurd h List.not_mem_nil
  separate := List.Pairwise.nil

theorem Apart.perm {gs hs : List Gap} {first last : Nat} (h : Apart gs first last)
    (hperm : gs.Perm hs) : Apart hs first last where
  inside := fun g hg => h.inside g (hperm.symm.subset hg)
  separate := hperm.pairwise h.separate Gap.Separate.symm

theorem Apart.append {gs hs : List Gap} {first line last : Nat} (hgs : Apart gs first line)
    (hhs : Apart hs line last) (hfirst : first ≤ line) (hlast : line ≤ last) :
    Apart (gs ++ hs) first last where
  inside g hg := by
    cases List.mem_append.mp hg with
    | inl hmem => exact (hgs.inside g hmem).mono (Nat.le_refl _) hlast
    | inr hmem => exact (hhs.inside g hmem).mono hfirst (Nat.le_refl _)
  separate := by
    refine List.pairwise_append.mpr ⟨hgs.separate, hhs.separate, ?_⟩
    intro g hg h hh
    exact Or.inl (Nat.le_trans (hgs.inside g hg).le_last (hhs.inside h hh).first_le)

/-- A node with what is inside it: its lines and the gaps in it. -/
structure Region where
  first : Nat
  last : Nat
  gaps : List Gap

/-- The regions stand in their order between two lines. -/
def regionsWithin : List Region → Nat → Nat → Prop
  | [], first, last => first ≤ last
  | r :: rs, first, last =>
    first ≤ r.first ∧ r.first ≤ r.last ∧ Apart r.gaps r.first r.last ∧
      regionsWithin rs r.last last

theorem regionsWithin.le : ∀ {rs : List Region} {first last : Nat},
    regionsWithin rs first last → first ≤ last
  | [], _, _, h => h
  | _ :: _, _, _, h => Nat.le_trans h.1 (Nat.le_trans h.2.1 (regionsWithin.le h.2.2.2))

/-- The gaps between neighbouring regions do not meet those inside them. -/
theorem apart_regions (rule : LayoutRule γ) {ds : List (Descriptor γ)} {rs : List Region}
    {first last : Nat} (hwithin : regionsWithin rs first last)
    (hlines : (ds.map fun d => (d.startLine, d.endLine)) = rs.map fun r => (r.first, r.last)) :
    Apart (rule.gaps ds ++ rs.flatMap Region.gaps) first last := by
  induction rs generalizing ds first with
  | nil =>
    rw [List.map_nil, List.map_eq_nil_iff] at hlines
    rw [hlines]
    exact Apart.nil first last
  | cons r rs ih =>
    rcases hwithin with ⟨hfirst, hle, hgaps, hrest⟩
    cases ds with
    | nil => cases hlines
    | cons d ds =>
      rw [List.map_cons, List.map_cons, List.cons.injEq] at hlines
      have hd : d.endLine = r.last := (Prod.mk.inj hlines.1).2
      have hout : Apart (rule.gaps (d :: ds) ++ (r :: rs).flatMap Region.gaps) r.first last := by
        cases ds with
        | nil =>
          have hnil : rs = [] := List.map_eq_nil_iff.mp hlines.2.symm
          rw [hnil] at hrest ⊢
          change Apart (r.gaps ++ []) r.first last
          rw [List.append_nil]
          exact ⟨fun g hg => (hgaps.inside g hg).mono (Nat.le_refl _) hrest, hgaps.separate⟩
        | cons d' ds =>
          cases rs with
          | nil => cases hlines.2
          | cons r' rs =>
            -- the gap between the two starts where the first ends and ends where the second starts
            have hd' : d'.startLine = r'.first :=
              (Prod.mk.inj (List.cons.inj hlines.2).1).1
            have hrest' : regionsWithin (r' :: rs) r'.first last :=
              ⟨Nat.le_refl _, hrest.2⟩
            have hgap : Apart [rule.gap (d, d')] r.last r'.first := by
              constructor
              · intro g hg
                rw [List.mem_singleton.mp hg]
                exact ⟨Nat.le_of_eq hd.symm, Nat.le_of_eq hd'⟩
              · exact List.pairwise_singleton _ _
            have hbehind := hgap.append (ih hrest' hlines.2) hrest.1 hrest'.le
            have hall := hgaps.append hbehind hle (Nat.le_trans hrest.1 hrest'.le)
            refine hall.perm ?_
            rw [← List.append_assoc [rule.gap (d, d')]]
            exact List.perm_append_comm_assoc _ _ _
      exact ⟨fun g hg => (hout.inside g hg).mono hfirst (Nat.le_refl _), hout.separate⟩

/-! ## The gaps of a file -/

/-- The statements of a block with the gaps inside them. -/
def Stmts.regions (functionDepth : Nat) : Stmts → List Region
  | .nil => []
  | .cons _ startLine endLine inside rest =>
    ⟨startLine, endLine, (inside.blocks functionDepth).flatMap Stmts.gaps⟩ ::
      rest.regions functionDepth

theorem Stmts.regions_lines (functionDepth : Nat) (stmts : Stmts) :
    (stmts.descriptors.map fun d => (d.startLine, d.endLine)) =
      (stmts.regions functionDepth).map fun r => (r.first, r.last) := by
  induction stmts using Stmts.induction with
  | nil => rfl
  | cons kind startLine endLine inside rest ih => exact congrArg (_ :: ·) ih

theorem Stmts.regions_gaps (functionDepth : Nat) (stmts : Stmts) :
    (stmts.regions functionDepth).flatMap Region.gaps =
      (stmts.blocks functionDepth).flatMap Stmts.gaps := by
  induction stmts using Stmts.induction with
  | nil => rfl
  | cons kind startLine endLine inside rest ih =>
    rw [Stmts.regions, Stmts.blocks, List.flatMap_cons, List.flatMap_append, ih]

mutual

/-- The gaps inside a node do not meet. -/
theorem Parts.Within.apart : ∀ {parts : Parts} (functionDepth : Nat) {first last : Nat},
    parts.Within first last →
      Apart ((parts.blocks functionDepth).flatMap Stmts.gaps) first last
  | .nil, _, first, last, _ => Apart.nil first last
  | .function inside rest, functionDepth, _, _, h => by
    rcases h with ⟨line, hinside, hrest⟩
    rw [Parts.blocks, List.flatMap_append]
    exact (hinside.apart (functionDepth + 1)).append (hrest.apart functionDepth) hinside.le hrest.le
  | .block stmts rest, functionDepth, first, last, h => by
    rcases h with ⟨line, hstmts, hrest⟩
    have hregions := hstmts.regionsWithin functionDepth
    have hall := apart_regions Block.rule hregions (stmts.regions_lines functionDepth)
    rw [stmts.regions_gaps functionDepth] at hall
    have hblock : Apart (((if 0 < functionDepth then [stmts] else []) ++
        stmts.blocks functionDepth).flatMap Stmts.gaps) first line := by
      split
      · exact hall
      · exact ⟨fun g hg => hall.inside g (List.mem_append_right _ hg),
          (List.pairwise_append.mp hall.separate).2.1⟩
    rw [Parts.blocks, List.flatMap_append]
    exact hblock.append (hrest.apart functionDepth) hstmts.le hrest.le
  | .ret inside rest, functionDepth, _, _, h => by
    rcases h with ⟨line, hinside, hrest⟩
    rw [Parts.blocks, List.flatMap_append]
    exact (hinside.apart functionDepth).append (hrest.apart functionDepth) hinside.le hrest.le

theorem Stmts.Within.regionsWithin : ∀ {stmts : Stmts} (functionDepth : Nat) {first last : Nat},
    stmts.Within first last →
      Codestyle.regionsWithin (stmts.regions functionDepth) first last
  | .nil, _, _, _, h => h
  | .cons _ _ _ _ _, functionDepth, _, _, h =>
    ⟨h.1, h.2.1.le, h.2.1.apart functionDepth, h.2.2.regionsWithin functionDepth⟩

end

/-- The items of a file with the gaps inside them. -/
def Item.region (item : Item) : Region where
  first := item.startLine
  last := item.endLine
  gaps := (item.inside.blocks 0).flatMap Stmts.gaps

theorem itemsWithin.regionsWithin {items : List Item} {first last : Nat}
    (h : itemsWithin items first last) :
    Codestyle.regionsWithin (items.map Item.region) first last := by
  induction items generalizing first with
  | nil => exact h
  | cons item items ih => exact ⟨h.1, h.2.1.le, h.2.1.apart 0, ih h.2.2⟩

/-- No two gaps of a file meet. -/
theorem File.apart_gaps {file : File} {first last : Nat}
    (h : itemsWithin file.items first last) : Apart file.gaps first last := by
  have hlines : (file.descriptors.map fun d => (d.startLine, d.endLine)) =
      (file.items.map Item.region).map fun r => (r.first, r.last) := by
    unfold File.descriptors
    rw [List.map_map, List.map_map]
    rfl
  have hall := apart_regions TopLevel.rule h.regionsWithin hlines
  have hgaps : (file.items.map Item.region).flatMap Region.gaps = file.blockGaps := by
    unfold File.blockGaps File.blocks
    rw [List.flatMap_map, List.flatMap_assoc]
    rfl
  rw [hgaps] at hall
  exact hall

end Rlibc.Codestyle
