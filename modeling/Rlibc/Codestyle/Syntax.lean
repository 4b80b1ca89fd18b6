import Mathlib.Data.List.Basic

/-!
# Syntax trees, as the layout rules see them

The trees come from a parser.  Of a statement or an item the rules look at its kind, at the first
and the last line of its span, and, inside it, at functions, blocks and `return` expressions; all
other nodes are left out, and what they contain stands in their place, in the order of the source.
-/

namespace Rlibc.Codestyle

/-- The variants of `syn::Item` that the rules tell apart. -/
inductive ItemKind where
  | mod
  | useItem
  | const
  | static
  | struct
  | enum
  | trait
  | typeItem
  | union
  | traitAlias
  | impl
  | fn
  | other
deriving DecidableEq

/-- The variants of `syn::Expr` that the rules tell apart. -/
inductive ExprKind where
  | ifExpr
  | matchExpr
  | loopExpr
  | forLoop
  | whileExpr
  | blockExpr
  | other
deriving DecidableEq

/-- The variants of `syn::Stmt`. -/
inductive StmtKind where
  | localDecl
  | item (kind : ItemKind)
  | expr (kind : ExprKind)
  | macroCall
deriving DecidableEq

mutual

/-- What is inside a statement or an item. -/
inductive Parts where
  | nil
  /-- An `ItemFn`, an `ImplItemFn` or a `TraitItemFn`. -/
  | function (inside rest : Parts)
  | block (stmts : Stmts) (rest : Parts)
  /-- An `ExprReturn`. -/
  | ret (inside rest : Parts)

/-- The statements of a block. -/
inductive Stmts where
  | nil
  | cons (kind : StmtKind) (startLine endLine : Nat) (inside : Parts) (rest : Stmts)

end

/-- A top-level item. -/
structure Item where
  kind : ItemKind
  startLine : Nat
  endLine : Nat
  inside : Parts

structure File where
  items : List Item

/-- Induction along a list of statements, without what is inside them. -/
theorem Stmts.induction {motive : Stmts → Prop} (nil : motive .nil)
    (cons : ∀ kind startLine endLine inside rest, motive rest →
      motive (.cons kind startLine endLine inside rest)) : ∀ stmts, motive stmts
  | .nil => nil
  | .cons kind startLine endLine inside rest =>
    cons kind startLine endLine inside rest (Stmts.induction nil cons rest)

def Stmts.length : Stmts → Nat
  | .nil => 0
  | .cons _ _ _ _ rest => rest.length + 1

/-! ## The visitors -/

mutual

/-- The blocks that `BlockCollector` collects: those inside functions. -/
def Parts.blocks (functionDepth : Nat) : Parts → List Stmts
  | .nil => []
  | .function inside rest => inside.blocks (functionDepth + 1) ++ rest.blocks functionDepth
  | .block stmts rest =>
    (if 0 < functionDepth then [stmts] else []) ++ stmts.blocks functionDepth ++
      rest.blocks functionDepth
  | .ret inside rest => inside.blocks functionDepth ++ rest.blocks functionDepth

def Stmts.blocks (functionDepth : Nat) : Stmts → List Stmts
  | .nil => []
  | .cons _ _ _ inside rest => inside.blocks functionDepth ++ rest.blocks functionDepth

end

def File.blocks (file : File) : List Stmts := file.items.flatMap fun item => item.inside.blocks 0

mutual

/-- Whether `ReturnFinder` finds a `return`. -/
def Parts.containsReturn : Parts → Bool
  | .nil => false
  | .function inside rest => inside.containsReturn || rest.containsReturn
  | .block stmts rest => stmts.containsReturn || rest.containsReturn
  | .ret _ _ => true

def Stmts.containsReturn : Stmts → Bool
  | .nil => false
  | .cons _ _ _ inside rest => inside.containsReturn || rest.containsReturn

end

/-! ## Line numbers -/

mutual

/-- The tree with its lines renumbered. -/
def Parts.mapLines (f : Nat → Nat) : Parts → Parts
  | .nil => .nil
  | .function inside rest => .function (inside.mapLines f) (rest.mapLines f)
  | .block stmts rest => .block (stmts.mapLines f) (rest.mapLines f)
  | .ret inside rest => .ret (inside.mapLines f) (rest.mapLines f)

def Stmts.mapLines (f : Nat → Nat) : Stmts → Stmts
  | .nil => .nil
  | .cons kind startLine endLine inside rest =>
    .cons kind (f startLine) (f endLine) (inside.mapLines f) (rest.mapLines f)

end

def Item.mapLines (f : Nat → Nat) (item : Item) : Item where
  kind := item.kind
  startLine := f item.startLine
  endLine := f item.endLine
  inside := item.inside.mapLines f

def File.mapLines (f : Nat → Nat) (file : File) : File where
  items := file.items.map (Item.mapLines f)

mutual

/-- The parts stand in their order on the lines from `first` to `last`, nested as the tree is. -/
def Parts.Within : Parts → Nat → Nat → Prop
  | .nil, first, last => first ≤ last
  | .function inside rest, first, last =>
    ∃ line, inside.Within first line ∧ rest.Within line last
  | .block stmts rest, first, last => ∃ line, stmts.Within first line ∧ rest.Within line last
  | .ret inside rest, first, last => ∃ line, inside.Within first line ∧ rest.Within line last

def Stmts.Within : Stmts → Nat → Nat → Prop
  | .nil, first, last => first ≤ last
  | .cons _ startLine endLine inside rest, first, last =>
    first ≤ startLine ∧ inside.Within startLine endLine ∧ rest.Within endLine last

end

def itemsWithin : List Item → Nat → Nat → Prop
  | [], first, last => first ≤ last
  | item :: rest, first, last =>
    first ≤ item.startLine ∧ item.inside.Within item.startLine item.endLine ∧
      itemsWithin rest item.endLine last

mutual

theorem Parts.Within.le : ∀ {parts : Parts} {first last : Nat}, parts.Within first last →
    first ≤ last
  | .nil, _, _, h => h
  | .function _ _, _, _, h => by
    rcases h with ⟨line, hinside, hrest⟩
    exact Nat.le_trans hinside.le hrest.le
  | .block _ _, _, _, h => by
    rcases h with ⟨line, hstmts, hrest⟩
    exact Nat.le_trans hstmts.le hrest.le
  | .ret _ _, _, _, h => by
    rcases h with ⟨line, hinside, hrest⟩
    exact Nat.le_trans hinside.le hrest.le

theorem Stmts.Within.le : ∀ {stmts : Stmts} {first last : Nat}, stmts.Within first last →
    first ≤ last
  | .nil, _, _, h => h
  | .cons _ _ _ _ _, _, _, h => Nat.le_trans h.1 (Nat.le_trans h.2.1.le h.2.2.le)

end

/-! ## Renumbering changes nothing else -/

mutual

theorem Parts.blocks_mapLines (f : Nat → Nat) : ∀ (parts : Parts) (functionDepth : Nat),
    (parts.mapLines f).blocks functionDepth =
      (parts.blocks functionDepth).map (Stmts.mapLines f)
  | .nil, _ => rfl
  | .function inside rest, functionDepth => by
    simp only [Parts.mapLines, Parts.blocks, List.map_append, inside.blocks_mapLines f,
      rest.blocks_mapLines f]
  | .block stmts rest, functionDepth => by
    simp only [Parts.mapLines, Parts.blocks, List.map_append, stmts.blocks_mapLines f,
      rest.blocks_mapLines f]
    split <;> rfl
  | .ret inside rest, functionDepth => by
    simp only [Parts.mapLines, Parts.blocks, List.map_append, inside.blocks_mapLines f,
      rest.blocks_mapLines f]

theorem Stmts.blocks_mapLines (f : Nat → Nat) : ∀ (stmts : Stmts) (functionDepth : Nat),
    (stmts.mapLines f).blocks functionDepth =
      (stmts.blocks functionDepth).map (Stmts.mapLines f)
  | .nil, _ => rfl
  | .cons _ _ _ inside rest, functionDepth => by
    simp only [Stmts.mapLines, Stmts.blocks, List.map_append, inside.blocks_mapLines f,
      rest.blocks_mapLines f]

end

mutual

theorem Parts.containsReturn_mapLines (f : Nat → Nat) : ∀ parts : Parts,
    (parts.mapLines f).containsReturn = parts.containsReturn
  | .nil => rfl
  | .function inside rest => by
    simp only [Parts.mapLines, Parts.containsReturn, inside.containsReturn_mapLines f,
      rest.containsReturn_mapLines f]
  | .block stmts rest => by
    simp only [Parts.mapLines, Parts.containsReturn, stmts.containsReturn_mapLines f,
      rest.containsReturn_mapLines f]
  | .ret _ _ => rfl

theorem Stmts.containsReturn_mapLines (f : Nat → Nat) : ∀ stmts : Stmts,
    (stmts.mapLines f).containsReturn = stmts.containsReturn
  | .nil => rfl
  | .cons _ _ _ inside rest => by
    simp only [Stmts.mapLines, Stmts.containsReturn, inside.containsReturn_mapLines f,
      rest.containsReturn_mapLines f]

end

theorem File.blocks_mapLines (f : Nat → Nat) (file : File) :
    (file.mapLines f).blocks = file.blocks.map (Stmts.mapLines f) := by
  unfold File.blocks File.mapLines
  rw [List.flatMap_map, List.map_flatMap]
  apply List.flatMap_congr
  intro item _
  exact item.inside.blocks_mapLines f 0

end Rlibc.Codestyle
