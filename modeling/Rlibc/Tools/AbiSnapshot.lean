import Mathlib.Data.Finset.Sort
import Mathlib.Data.List.Lex
import Mathlib.Data.Char
import Rlibc.Foundations.Text

/-!
# Snapshots of the ABI

The golden file of the ABI check lists the class and the machine of the shared object and the
symbols that it exports.  A `BTreeSet` of symbols is a finite set that is listed in the order of
its elements; the order of the strings is that of their code points.
-/

namespace Rlibc.Tools

open Text

/-- `class` is a word of Lean. -/
structure AbiSnapshot where
  elfClass : List Char
  machine : List Char
  symbols : Finset (List Char)
deriving DecidableEq

structure SnapshotDiff where
  classMismatch : Option (List Char × List Char)
  machineMismatch : Option (List Char × List Char)
  missingSymbols : List (List Char)
  unexpectedSymbols : List (List Char)
deriving DecidableEq

def SnapshotDiff.isEmpty (diff : SnapshotDiff) : Bool :=
  diff.classMismatch.isNone && diff.machineMismatch.isNone && diff.missingSymbols.isEmpty &&
    diff.unexpectedSymbols.isEmpty

def snapshotMagic : List Char := "ABI_SNAPSHOT_V1".toList

def classPrefix : List Char := "ELF_CLASS=".toList

def machinePrefix : List Char := "ELF_MACHINE=".toList

def symbolsLine : List Char := "SYMBOLS:".toList

/-! ## Writing -/

/-- The lines that `format_snapshot` writes. -/
def snapshotLines (snapshot : AbiSnapshot) : List (List Char) :=
  snapshotMagic :: (classPrefix ++ snapshot.elfClass) :: (machinePrefix ++ snapshot.machine) ::
    symbolsLine :: snapshot.symbols.sort

def formatSnapshot (snapshot : AbiSnapshot) : List Char :=
  (snapshotLines snapshot).flatMap fun line => line ++ ['\n']

/-! ## Reading -/

def isAsciiAlphabetic (c : Char) : Bool :=
  (65 ≤ c.toNat ∧ c.toNat ≤ 90) ∨ (97 ≤ c.toNat ∧ c.toNat ≤ 122)

def isAsciiAlphanumeric (c : Char) : Bool :=
  isAsciiAlphabetic c || (48 ≤ c.toNat ∧ c.toNat ≤ 57 : Bool)

def isValidSnapshotSymbol : List Char → Bool
  | [] => false
  | first :: chars =>
    (isAsciiAlphabetic first || first = '_') && chars.all fun ch => isAsciiAlphanumeric ch || ch = '_'

/-- The variables of `parse_snapshot`. -/
structure SnapshotState where
  elfClass : Option (List Char)
  machine : Option (List Char)
  symbols : Finset (List Char)
  inSymbolBlock : Bool

def SnapshotState.start : SnapshotState where
  elfClass := none
  machine := none
  symbols := ∅
  inSymbolBlock := false

/-- The two metadata fields are read alike: `forbidden` is the white space that the field must not
contain, and `complaint` its name in the message. -/
def parseSnapshotField (name : String) (seen : Option (List Char)) (rawLine rawValue : List Char)
    (forbidden : Char → Bool) (complaint : String) : Except String (List Char) :=
  if seen.isSome then .error ("snapshot has duplicate `" ++ name ++ "` field")
  else if rawLine.head?.any isWhitespace then
    .error ("snapshot has invalid `" ++ name ++ "` line with leading whitespace")
  else
    let rawLineValue := ((name.toList ++ ['=']).isPrefixOf? rawLine).getD rawValue
    let value := trim rawLineValue
    if value = [] then .error ("snapshot has empty `" ++ name ++ "` field")
    else if rawLineValue.head?.any isWhitespace then
      .error ("snapshot has invalid `" ++ name ++ "` field with leading whitespace")
    else if rawLineValue.getLast?.any isWhitespace then
      .error ("snapshot has invalid `" ++ name ++ "` field with trailing whitespace")
    else if value.any forbidden then
      .error ("snapshot has invalid `" ++ name ++ "` field with " ++ complaint)
    else .ok value

/-- A line of the symbol block that is neither blank nor the line that opens the block. -/
def SnapshotState.addSymbol (s : SnapshotState) (rawLine line : List Char) :
    Except String SnapshotState :=
  if classPrefix.isPrefixOf line ∨ machinePrefix.isPrefixOf line then
    .error ("snapshot has metadata field inside `SYMBOLS:` block: " ++ String.ofList line)
  else if rawLine ≠ line then
    .error ("snapshot has invalid symbol entry with surrounding whitespace: " ++
      String.ofList rawLine)
  else if line.any isWhitespace then
    .error ("snapshot has invalid symbol entry with whitespace: " ++ String.ofList line)
  else if ¬ isValidSnapshotSymbol line then
    .error ("snapshot has invalid symbol entry: " ++ String.ofList line)
  else if line ∈ s.symbols then
    .error ("snapshot has duplicate symbol entry: " ++ String.ofList line)
  else .ok { s with symbols := insert line s.symbols }

/-- A line in front of the symbol block that is neither blank nor the one that opens it. -/
def SnapshotState.addMetadata (s : SnapshotState) (rawLine line : List Char) :
    Except String SnapshotState :=
  match classPrefix.isPrefixOf? line with
  | some rawValue =>
    (parseSnapshotField "ELF_CLASS" s.elfClass rawLine rawValue isWhitespace "whitespace").map
      fun value => { s with elfClass := some value }
  | none =>
    match machinePrefix.isPrefixOf? line with
    | some rawValue =>
      (parseSnapshotField "ELF_MACHINE" s.machine rawLine rawValue
        (fun ch => isWhitespace ch && ch ≠ ' ') "non-space whitespace").map
        fun value => { s with machine := some value }
    | none =>
      if "ELF_CLASS".toList.isPrefixOf line then
        .error ("snapshot has malformed `ELF_CLASS` field: " ++ String.ofList line)
      else if "ELF_MACHINE".toList.isPrefixOf line then
        .error ("snapshot has malformed `ELF_MACHINE` field: " ++ String.ofList line)
      else .error ("unexpected snapshot line before symbol block: " ++ String.ofList line)

/-- One turn of the loop; `none` is the `break` at the blank end of the symbol block. -/
def SnapshotState.step (s : SnapshotState) (rawLine : List Char) (lines : List (List Char)) :
    Except String (Option SnapshotState) :=
  let line := trim rawLine
  if s.inSymbolBlock ∧ line = [] then
    let remainingLinesAreBlank := lines.all fun remainingLine => trim remainingLine = []
    if remainingLinesAreBlank ∧ rawLine = [] ∧ lines.all (· = []) then .ok none
    else if remainingLinesAreBlank then
      .error "snapshot has invalid trailing whitespace-only line inside `SYMBOLS:` block"
    else .error "snapshot has empty line inside `SYMBOLS:` block"
  else if line = [] then .ok (some s)
  else if line = symbolsLine then
    if s.inSymbolBlock then .error "snapshot has duplicate `SYMBOLS:` block"
    else if rawLine ≠ line then
      .error "snapshot has invalid `SYMBOLS:` line with surrounding whitespace"
    else .ok (some { s with inSymbolBlock := true })
  else if s.inSymbolBlock then (s.addSymbol rawLine line).map some
  else (s.addMetadata rawLine line).map some

/-- The loop over the lines. -/
def parseSnapshotLines (s : SnapshotState) : List (List Char) → Except String SnapshotState
  | [] => .ok s
  | rawLine :: lines =>
    match s.step rawLine lines with
    | .error message => .error message
    | .ok none => .ok s
    | .ok (some s) => parseSnapshotLines s lines

/-- What follows the loop. -/
def SnapshotState.finish (s : SnapshotState) : Except String AbiSnapshot :=
  if ¬ s.inSymbolBlock then .error "snapshot missing `SYMBOLS:` block"
  else if s.symbols = ∅ then .error "snapshot has empty `SYMBOLS:` block"
  else
    match s.elfClass, s.machine with
    | some elfClass, some machine => .ok ⟨elfClass, machine, s.symbols⟩
    | none, _ => .error "snapshot missing `ELF_CLASS` field"
    | some _, none => .error "snapshot missing `ELF_MACHINE` field"

def parseSnapshot (contents : List Char) : Except String AbiSnapshot :=
  match lines contents with
  | [] => .error "golden snapshot is empty"
  | firstLine :: lines =>
    if trim firstLine = snapshotMagic ∧ firstLine ≠ snapshotMagic then
      .error "snapshot has invalid magic header with surrounding whitespace"
    else if firstLine ≠ snapshotMagic then
      .error ("snapshot missing magic header `" ++ String.ofList snapshotMagic ++ "`")
    else
      match parseSnapshotLines SnapshotState.start lines with
      | .error message => .error message
      | .ok s => s.finish

def diffAgainstGolden (expected actual : AbiSnapshot) : SnapshotDiff where
  classMismatch :=
    if expected.elfClass = actual.elfClass then none else some (expected.elfClass, actual.elfClass)
  machineMismatch :=
    if expected.machine = actual.machine then none else some (expected.machine, actual.machine)
  missingSymbols := (expected.symbols \ actual.symbols).sort
  unexpectedSymbols := (actual.symbols \ expected.symbols).sort

/-! ## Well-formed snapshots -/

def IsNameStart (c : Char) : Prop := ('A' ≤ c ∧ c ≤ 'Z') ∨ ('a' ≤ c ∧ c ≤ 'z') ∨ c = '_'

def IsNameChar (c : Char) : Prop := IsNameStart c ∨ ('0' ≤ c ∧ c ≤ '9')

/-- `[A-Za-z_][A-Za-z0-9_]*` -/
inductive IsName : List Char → Prop where
  | cons {first : Char} {chars : List Char} (hfirst : IsNameStart first)
      (hchars : ∀ ch ∈ chars, IsNameChar ch) : IsName (first :: chars)

/-- A class is not empty and has no white space. -/
structure IsClass (elfClass : List Char) : Prop where
  nonempty : elfClass ≠ []
  solid : Solid elfClass

/-- A machine is not empty, no white space surrounds it, and inside there are only spaces. -/
structure IsMachine (machine : List Char) : Prop where
  nonempty : machine ≠ []
  trimmed : trim machine = machine
  spaces : ∀ ch ∈ machine, isWhitespace ch = true → ch = ' '

structure AbiSnapshot.WellFormed (snapshot : AbiSnapshot) : Prop where
  elfClass : IsClass snapshot.elfClass
  machine : IsMachine snapshot.machine
  symbols : snapshot.symbols.Nonempty
  names : ∀ symbol ∈ snapshot.symbols, IsName symbol

theorem IsNameChar.of_start {c : Char} (h : IsNameStart c) : IsNameChar c := Or.inl h

theorem isNameStart_iff {c : Char} :
    (isAsciiAlphabetic c || c = '_') = true ↔ IsNameStart c := by
  unfold isAsciiAlphabetic IsNameStart
  simp only [Bool.or_eq_true, decide_eq_true_eq, Char.le_def, UInt32.le_iff_toNat_le]
  rw [or_assoc]
  exact Iff.rfl

theorem isNameChar_iff {c : Char} :
    (isAsciiAlphanumeric c || c = '_') = true ↔ IsNameChar c := by
  have hdigit : decide (48 ≤ c.toNat ∧ c.toNat ≤ 57) = true ↔ '0' ≤ c ∧ c ≤ '9' := by
    simp only [decide_eq_true_eq, Char.le_def, UInt32.le_iff_toNat_le]
    exact Iff.rfl
  have hstart := @isNameStart_iff c
  unfold isAsciiAlphanumeric IsNameChar
  rw [Bool.or_eq_true] at hstart
  rw [Bool.or_eq_true, Bool.or_eq_true, hdigit, ← hstart]
  constructor
  · intro h
    rcases h with (h | h) | h
    · exact Or.inl (Or.inl h)
    · exact Or.inr h
    · exact Or.inl (Or.inr h)
  · intro h
    rcases h with (h | h) | h
    · exact Or.inl (Or.inl h)
    · exact Or.inr h
    · exact Or.inl (Or.inr h)

theorem isValidSnapshotSymbol_iff {symbol : List Char} :
    isValidSnapshotSymbol symbol = true ↔ IsName symbol := by
  cases symbol with
  | nil =>
    constructor
    · intro h
      exact absurd h Bool.false_ne_true
    · intro h
      cases h
  | cons first chars =>
    rw [isValidSnapshotSymbol, Bool.and_eq_true, isNameStart_iff, List.all_eq_true]
    simp only [isNameChar_iff]
    constructor
    · intro h
      exact IsName.cons h.1 h.2
    · intro h
      cases h with
      | cons hfirst hchars => exact ⟨hfirst, hchars⟩

/-- The characters of a name lie between the digits and the small letters. -/
theorem IsNameChar.bounds {c : Char} (h : IsNameChar c) :
    48 ≤ c.toNat ∧ c.toNat ≤ 122 ∧ c.toNat ≠ 58 ∧ c.toNat ≠ 61 := by
  have hcode : ((65 ≤ c.toNat ∧ c.toNat ≤ 90) ∨ (97 ≤ c.toNat ∧ c.toNat ≤ 122) ∨
      c.toNat = 95) ∨ (48 ≤ c.toNat ∧ c.toNat ≤ 57) := by
    unfold IsNameChar IsNameStart at h
    simp only [Char.le_def, UInt32.le_iff_toNat_le] at h
    rcases h with (h | h | h) | h
    · exact Or.inl (Or.inl h)
    · exact Or.inl (Or.inr (Or.inl h))
    · exact Or.inl (Or.inr (Or.inr (by rw [h]; rfl)))
    · exact Or.inr h
  omega

theorem IsName.chars {name : List Char} (h : IsName name) : ∀ c ∈ name, IsNameChar c := by
  cases h with
  | cons hfirst hchars =>
    intro c hc
    cases List.mem_cons.mp hc with
    | inl heq =>
      rw [heq]
      exact IsNameChar.of_start hfirst
    | inr hmem => exact hchars c hmem

theorem IsName.ne_nil {name : List Char} (h : IsName name) : name ≠ [] := by
  cases h with
  | cons hfirst hchars => exact List.cons_ne_nil _ _

theorem IsName.solid {name : List Char} (h : IsName name) : Solid name := by
  intro c hc
  have hbounds := (h.chars c hc).bounds
  unfold isWhitespace
  rw [decide_eq_false_iff_not]
  omega

/-- A name is neither a metadata line nor the line that opens the symbol block. -/
theorem IsName.not_mem {name : List Char} (h : IsName name) : '=' ∉ name ∧ ':' ∉ name := by
  constructor
  · intro hc
    exact (h.chars _ hc).bounds.2.2.2 rfl
  · intro hc
    exact (h.chars _ hc).bounds.2.2.1 rfl

end Rlibc.Tools
