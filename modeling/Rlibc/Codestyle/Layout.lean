import Rlibc.Codestyle.SourceText
import Rlibc.Codestyle.Syntax

/-!
# The layout rules

Between neighbouring statements of a block, and between neighbouring items of the file, the rules
ask for a number of blank lines.  The checker reports where the number is another one and nothing
but white space stands between; the formatter puts the right number there, first between the items
and then, in what comes out, between the statements.
-/

namespace Rlibc.Codestyle

open Text TextLines

structure StyleViolation where
  line : Nat
  column : Nat
  code : String
  message : String
deriving DecidableEq

structure AnalysisResult where
  violations : List StyleViolation
  formattedSource : Option (List Char)
deriving DecidableEq

/-- Why there is no result: the parser's complaint, a span without lines, or a panic. -/
inductive Failure where
  | parse (message : String)
  | spanUnavailable
  | panic
deriving DecidableEq

/-- `syn::parse_file` -/
abbrev Parser := List Char → Except String File

/-! ## Neighbours -/

/-- `StatementDescriptor` and `ItemDescriptor`. -/
structure Descriptor (γ : Type) where
  group : γ
  startLine : Nat
  endLine : Nat

/-- What the rules for statements and the rules for items differ in.  The rules for items look for
white space before they compare the numbers, which makes no difference. -/
structure LayoutRule (γ : Type) where
  expectedBlankLines : γ → γ → Option Nat
  label : γ → String
  code : String
  subject : String

variable {γ : Type}

/-- `windows(2)` -/
def windows : List (Descriptor γ) → List (Descriptor γ × Descriptor γ)
  | [] => []
  | [_] => []
  | current :: next :: rest => (current, next) :: windows (next :: rest)

/-- The violation and the edit for two neighbours, unless there is nothing to do. -/
def checkPair (rule : LayoutRule γ) (source : List Char) (lineStarts : List Nat)
    (newline : List Char) (pair : Descriptor γ × Descriptor γ) :
    Option (StyleViolation × TextEdit) :=
  let current := pair.1
  let next := pair.2
  if next.startLine ≤ current.endLine then none
  else
    match rule.expectedBlankLines current.group next.group with
    | none => none
    | some expected =>
      let actual := next.startLine - (current.endLine + 1)
      if actual = expected then none
      else
        let startByte := lineStartOffset lineStarts (current.endLine + 1)
        let endByte := lineStartOffset lineStarts next.startLine
        if hasOnlyWhitespace source startByte endByte then
          some ({
            line := next.startLine
            column := 1
            code := rule.code
            message := rule.subject ++ " spacing between " ++ rule.label current.group ++ " and " ++
              rule.label next.group ++ " must be " ++ toString expected ++
              " blank line(s), found " ++ toString actual }, {
            startByte := startByte
            endByte := endByte
            replacement := repeatText newline expected })
        else none

/-- What is found between the neighbours of a list. -/
def checkPairs (rule : LayoutRule γ) (source : List Char) (descriptors : List (Descriptor γ)) :
    List (StyleViolation × TextEdit) :=
  (windows descriptors).filterMap
    (checkPair rule source (buildLineStarts source) (detectNewlineSequence source))

/-- The end of both analyses. -/
def applyFindings (source : List Char) (findings : List (StyleViolation × TextEdit)) :
    Except Failure AnalysisResult :=
  match applyEdits source (findings.map Prod.snd) with
  | none => .error .panic
  | some formattedSource => .ok ⟨findings.map Prod.fst, formattedSource⟩

/-! ## Statements -/

inductive StatementGroup where
  | declaration
  | control
  | returnTerminal
  | other
deriving DecidableEq

def StatementGroup.label : StatementGroup → String
  | .declaration => "declaration"
  | .control => "control-statement"
  | .returnTerminal => "terminal-return"
  | .other => "statement"

def isDeclarationStatement : StmtKind → Bool
  | .localDecl => true
  | .item .const => true
  | .item .static => true
  | _ => false

def isControlExpression : ExprKind → Bool
  | .other => false
  | _ => true

def isControlStatement : StmtKind → Bool
  | .expr expression => isControlExpression expression
  | _ => false

def classifyStatement (kind : StmtKind) (inside : Parts) (isFinalStatement : Bool) :
    StatementGroup :=
  if isDeclarationStatement kind then .declaration
  else if isFinalStatement && inside.containsReturn then .returnTerminal
  else if isControlStatement kind then .control
  else .other

namespace Block

def expectedBlankLines : StatementGroup → StatementGroup → Option Nat
  | .declaration, .declaration => some 0
  | .other, .other => none
  | _, _ => some 1

def rule : LayoutRule StatementGroup where
  expectedBlankLines := expectedBlankLines
  label := StatementGroup.label
  code := "CSTYLE101"
  subject := "block"

end Block

/-- The statements of a block as the rules see them; the last one is `is_final_statement`. -/
def Stmts.descriptors : Stmts → List (Descriptor StatementGroup)
  | .nil => []
  | .cons kind startLine endLine inside rest =>
    ⟨classifyStatement kind inside (rest.length = 0), startLine, endLine⟩ :: rest.descriptors

/-- `build_statement_descriptor` and `build_descriptor` on all of a list. -/
def withLines (descriptors : List (Descriptor γ)) : Except Failure (List (Descriptor γ)) :=
  if descriptors.any fun d => d.startLine = 0 ∨ d.endLine = 0 then .error .spanUnavailable
  else .ok descriptors

def analyzeSingleBlock (source : List Char) (block : Stmts) :
    Except Failure (List (StyleViolation × TextEdit)) :=
  if block.length ≤ 1 then .ok []
  else
    match withLines block.descriptors with
    | .error failure => .error failure
    | .ok descriptors => .ok (checkPairs Block.rule source descriptors)

/-- The loop over the blocks. -/
def analyzeBlocks (source : List Char) :
    List Stmts → Except Failure (List (StyleViolation × TextEdit))
  | [] => .ok []
  | block :: blocks =>
    match analyzeSingleBlock source block with
    | .error failure => .error failure
    | .ok findings =>
      match analyzeBlocks source blocks with
      | .error failure => .error failure
      | .ok rest => .ok (findings ++ rest)

/-- What one pass over the blocks collects. -/
def blockFindings (source : List Char) (parsed : File) :
    Except Failure (List (StyleViolation × TextEdit)) :=
  if parsed.blocks.isEmpty then .ok [] else analyzeBlocks source parsed.blocks

def analyzeBlockLayout (parseFile : Parser) (source : List Char) : Except Failure AnalysisResult :=
  match parseFile source with
  | .error message => .error (.parse message)
  | .ok parsed =>
    match blockFindings source parsed with
    | .error failure => .error failure
    | .ok findings => applyFindings source findings

/-! ## Items -/

inductive ItemGroup where
  | mod
  | useGroup
  | constOrStatic
  | typeDefinition
  | impl
  | function
  | other
deriving DecidableEq

def ItemGroup.label : ItemGroup → String
  | .mod => "mod"
  | .useGroup => "use"
  | .constOrStatic => "const/static"
  | .typeDefinition => "type-definition"
  | .impl => "impl"
  | .function => "function"
  | .other => "other"

def classifyItem : ItemKind → ItemGroup
  | .mod => .mod
  | .useItem => .useGroup
  | .const => .constOrStatic
  | .static => .constOrStatic
  | .struct => .typeDefinition
  | .enum => .typeDefinition
  | .trait => .typeDefinition
  | .typeItem => .typeDefinition
  | .union => .typeDefinition
  | .traitAlias => .typeDefinition
  | .impl => .impl
  | .fn => .function
  | .other => .other

namespace TopLevel

def expectedBlankLines (current next : ItemGroup) : Nat :=
  if current = next then
    match current with
    | .mod => 0
    | .useGroup => 0
    | .constOrStatic => 0
    | .typeDefinition => 1
    | .impl => 1
    | .function => 1
    | .other => 1
  else 1

def rule : LayoutRule ItemGroup where
  expectedBlankLines := fun current next => some (expectedBlankLines current next)
  label := ItemGroup.label
  code := "CSTYLE001"
  subject := "top-level"

end TopLevel

def File.descriptors (file : File) : List (Descriptor ItemGroup) :=
  file.items.map fun item => ⟨classifyItem item.kind, item.startLine, item.endLine⟩

/-- What one pass over the items collects. -/
def topLevelFindings (source : List Char) (parsed : File) :
    Except Failure (List (StyleViolation × TextEdit)) :=
  match withLines parsed.descriptors with
  | .error failure => .error failure
  | .ok descriptors =>
    if descriptors.length ≤ 1 then .ok [] else .ok (checkPairs TopLevel.rule source descriptors)

def analyzeTopLevelLayout (parseFile : Parser) (source : List Char) :
    Except Failure AnalysisResult :=
  match parseFile source with
  | .error message => .error (.parse message)
  | .ok parsed =>
    match topLevelFindings source parsed with
    | .error failure => .error failure
    | .ok findings => applyFindings source findings

/-! ## The checker and the formatter -/

def collectLayoutViolations (parseFile : Parser) (source : List Char) :
    Except Failure (List StyleViolation) :=
  match analyzeTopLevelLayout parseFile source with
  | .error failure => .error failure
  | .ok topLevel =>
    match analyzeBlockLayout parseFile source with
    | .error failure => .error failure
    | .ok block => .ok (topLevel.violations ++ block.violations)

def formatLayoutSource (parseFile : Parser) (source : List Char) : Except Failure (List Char) :=
  match analyzeTopLevelLayout parseFile source with
  | .error failure => .error failure
  | .ok topLevel =>
    let afterTopLevel := topLevel.formattedSource.getD source
    match analyzeBlockLayout parseFile afterTopLevel with
    | .error failure => .error failure
    | .ok block => .ok (block.formattedSource.getD afterTopLevel)

end Rlibc.Codestyle
