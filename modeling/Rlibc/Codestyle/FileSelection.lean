import Mathlib.Data.Finset.Sort
import Mathlib.Data.List.Lex
import Mathlib.Data.Prod.Lex
import Mathlib.Data.Char
import Rlibc.Foundations.Text
import Rlibc.Foundations.Worklist

/-!
# Which files the tools work on

The tools take all Rust files that git knows of, the staged ones, or those under some paths.  Where
git does not answer, and below a directory that is named, a loop with a stack walks over the tree.
-/

namespace Rlibc.Codestyle

open Text

/-! ## Paths -/

/-- `std::path::Component` -/
inductive Component where
  | rootDir
  | curDir
  | parentDir
  | normal (name : List Char)
deriving DecidableEq

namespace Component

/-- Components are in the order of their kinds, and names in that of their characters. -/
def key : Component → Nat ×ₗ List Char
  | .rootDir => toLex (0, [])
  | .curDir => toLex (1, [])
  | .parentDir => toLex (2, [])
  | .normal name => toLex (3, name)

theorem key_injective : Function.Injective key := by
  intro a b h
  have hpair : ofLex a.key = ofLex b.key := congrArg ofLex h
  cases a <;> cases b <;> simp [key] at hpair ⊢
  exact hpair

instance : LinearOrder Component := LinearOrder.lift' key key_injective

/-- One piece of a path between slashes. -/
def ofPiece (piece : List Char) : Component :=
  if piece = ['.', '.'] then .parentDir else .normal piece

def text : Component → List Char
  | .rootDir => []
  | .curDir => ['.']
  | .parentDir => ['.', '.']
  | .normal name => name

end Component

/-- A path is compared by its components. -/
abbrev PathBuf := List Component

namespace PathBuf

/-- `PathBuf::from` -/
def ofText (text : List Char) : PathBuf :=
  let pieces := text.splitOn '/'
  let named := (pieces.filter fun piece => piece ≠ [] ∧ piece ≠ ['.']).map Component.ofPiece
  if text.head? = some '/' then .rootDir :: named
  else if pieces.head? = some ['.'] then .curDir :: named
  else named

def isAbsolute (path : PathBuf) : Bool := path.head? = some .rootDir

/-- A `.` is a component only at the start of a path. -/
def join (path other : PathBuf) : PathBuf :=
  if other.isAbsolute then other
  else if path = [] then other
  else path ++ other.filter fun component => component ≠ .curDir

def display (path : PathBuf) : String :=
  String.ofList (['/'].intercalate (path.map Component.text))

/-- `path.starts_with(name)`, for one name. -/
def startsWith (path : PathBuf) (name : String) : Bool :=
  path.head? = some (.normal name.toList)

def fileName (path : PathBuf) : Option (List Char) :=
  match path.getLast? with
  | some (.normal name) => some name
  | _ => none

/-- What is behind the last dot, unless the dot is the first character of the name. -/
def extension (path : PathBuf) : Option (List Char) :=
  match path.fileName with
  | none => none
  | some name =>
    match splitOnce '.' name.reverse with
    | none => none
    | some (after, before) => if before = [] then none else some after.reverse

end PathBuf

/-! ## Targets -/

def isRustFile (path : PathBuf) : Bool := path.extension = some "rs".toList

/-- The files that `insert_if_target` does not leave out. -/
def IsTarget (path : PathBuf) : Prop := isRustFile path = true ∧ path.startsWith "codex" = false

instance (path : PathBuf) : Decidable (IsTarget path) := inferInstanceAs (Decidable (_ ∧ _))

def insertIfTarget (path : PathBuf) (sink : Finset PathBuf) : Finset PathBuf :=
  if ¬ isRustFile path then sink
  else if path.startsWith "codex" then sink
  else insert path sink

theorem mem_insertIfTarget {path p : PathBuf} {sink : Finset PathBuf} :
    p ∈ insertIfTarget path sink ↔ p ∈ sink ∨ p = path ∧ IsTarget path := by
  unfold insertIfTarget IsTarget
  by_cases hrust : isRustFile path = true
  · by_cases hcodex : path.startsWith "codex" = true
    · simp [hrust, hcodex]
    · simp [hrust, hcodex, or_comm]
  · simp [hrust]

def shouldSkipDir (path : PathBuf) : Bool :=
  path.startsWith "codex" || path.startsWith ".git" || path.startsWith "target" ||
    path.fileName = some ".idea".toList || path.fileName = some ".vscode".toList

def toWorkspaceRelative (workspaceRoot path : PathBuf) : PathBuf :=
  match workspaceRoot.isPrefixOf? path with
  | none => path
  | some rest => rest

/-! ## Walking over a tree -/

mutual

/-- What stands in a directory; a link is neither a file nor a directory. -/
inductive Entry where
  | file
  | dir (entries : Entries)
  | other

/-- What `read_dir` gives, one entry after the other, up to a failure. -/
inductive Entries where
  | nil
  | fault (error : String)
  | cons (name : List Char) (entry : Entry) (rest : Entries)

end

mutual

def Entry.size : Entry → Nat
  | .file => 0
  | .dir entries => entries.size
  | .other => 0

def Entries.size : Entries → Nat
  | .nil => 1
  | .fault _ => 1
  | .cons _ entry rest => entry.size + rest.size

end

/-- The loop over one directory, with the directories that it pushes, last one first. -/
def scanDir (workspaceRoot currentDir : PathBuf) :
    Entries → List (PathBuf × Entries) → Finset PathBuf →
      Except String (List (PathBuf × Entries) × Finset PathBuf)
  | .nil, pushed, sink => .ok (pushed, sink)
  | .fault error, _, _ => .error error
  | .cons name entry rest, pushed, sink =>
    let path := currentDir ++ [.normal name]
    let relativePath := toWorkspaceRelative workspaceRoot path
    match entry with
    | .dir entries =>
      if shouldSkipDir relativePath then scanDir workspaceRoot currentDir rest pushed sink
      else scanDir workspaceRoot currentDir rest ((path, entries) :: pushed) sink
    | .file => scanDir workspaceRoot currentDir rest pushed (insertIfTarget relativePath sink)
    | .other => scanDir workspaceRoot currentDir rest pushed sink

/-- The directory lists the entry, in front of a failure. -/
inductive Entries.Lists (name : List Char) (entry : Entry) : Entries → Prop where
  | here (rest : Entries) : (Entries.cons name entry rest).Lists name entry
  | there {rest : Entries} (other : List Char) (e : Entry) (h : rest.Lists name entry) :
    (Entries.cons other e rest).Lists name entry

/-- Reading the directory ends with the error. -/
def Entries.Fails (error : String) : Entries → Prop
  | .nil => False
  | .fault e => e = error
  | .cons _ _ rest => rest.Fails error

theorem Entries.lists_cons {name other : List Char} {entry e : Entry} {rest : Entries} :
    (Entries.cons other e rest).Lists name entry ↔
      name = other ∧ entry = e ∨ rest.Lists name entry := by
  constructor
  · intro h
    cases h with
    | here => exact Or.inl ⟨rfl, rfl⟩
    | there _ _ h => exact Or.inr h
  · rintro (⟨rfl, rfl⟩ | h)
    · exact .here rest
    · exact .there other e h

theorem Entries.not_lists_nil {name : List Char} {entry : Entry} :
    ¬ Entries.nil.Lists name entry := by
  intro h
  cases h

/-- The directories that the loop over one directory pushes. -/
def Pushes (workspaceRoot dir : PathBuf) (entries : Entries) (item : PathBuf × Entries) : Prop :=
  ∃ name, entries.Lists name (.dir item.2) ∧ item.1 = dir ++ [.normal name] ∧
    shouldSkipDir (toWorkspaceRelative workspaceRoot item.1) = false

/-- The files that the loop over one directory takes. -/
def Takes (workspaceRoot dir : PathBuf) (entries : Entries) (p : PathBuf) : Prop :=
  ∃ name, entries.Lists name .file ∧
    p = toWorkspaceRelative workspaceRoot (dir ++ [.normal name]) ∧ IsTarget p

/-- What a loop over one directory leaves. -/
structure Scanned (workspaceRoot dir : PathBuf) (entries : Entries)
    (pushed pushed' : List (PathBuf × Entries)) (sink sink' : Finset PathBuf) : Prop where
  readable : ∀ error, ¬ entries.Fails error
  weight : totalWeight (fun item => item.2.size) pushed' <
    totalWeight (fun item => item.2.size) pushed + entries.size
  mem_pushed : ∀ item, item ∈ pushed' ↔ item ∈ pushed ∨ Pushes workspaceRoot dir entries item
  mem_sink : ∀ p, p ∈ sink' ↔ p ∈ sink ∨ Takes workspaceRoot dir entries p

section Scan

variable {workspaceRoot dir : PathBuf}

theorem pushes_cons {name : List Char} {entry : Entry} {rest : Entries}
    {item : PathBuf × Entries} :
    Pushes workspaceRoot dir (.cons name entry rest) item ↔
      (entry = .dir item.2 ∧ item.1 = dir ++ [.normal name] ∧
        shouldSkipDir (toWorkspaceRelative workspaceRoot item.1) = false) ∨
      Pushes workspaceRoot dir rest item := by
  unfold Pushes
  simp only [Entries.lists_cons]
  constructor
  · rintro ⟨n, ⟨rfl, hentry⟩ | hlists, hpath, hskip⟩
    · exact Or.inl ⟨hentry.symm, hpath, hskip⟩
    · exact Or.inr ⟨n, hlists, hpath, hskip⟩
  · rintro (⟨hentry, hpath, hskip⟩ | ⟨n, hlists, hpath, hskip⟩)
    · exact ⟨name, Or.inl ⟨rfl, hentry.symm⟩, hpath, hskip⟩
    · exact ⟨n, Or.inr hlists, hpath, hskip⟩

theorem takes_cons {name : List Char} {entry : Entry} {rest : Entries} {p : PathBuf} :
    Takes workspaceRoot dir (.cons name entry rest) p ↔
      (entry = .file ∧ p = toWorkspaceRelative workspaceRoot (dir ++ [.normal name]) ∧
        IsTarget p) ∨ Takes workspaceRoot dir rest p := by
  unfold Takes
  simp only [Entries.lists_cons]
  constructor
  · rintro ⟨n, ⟨rfl, hentry⟩ | hlists, hpath, htarget⟩
    · exact Or.inl ⟨hentry.symm, hpath, htarget⟩
    · exact Or.inr ⟨n, hlists, hpath, htarget⟩
  · rintro (⟨hentry, hpath, htarget⟩ | ⟨n, hlists, hpath, htarget⟩)
    · exact ⟨name, Or.inl ⟨rfl, hentry.symm⟩, hpath, htarget⟩
    · exact ⟨n, Or.inr hlists, hpath, htarget⟩

/-- One entry more in front of the others. -/
theorem Scanned.cons {name : List Char} {entry : Entry} {rest : Entries}
    {pushed pushed₁ pushed' : List (PathBuf × Entries)} {sink sink₁ sink' : Finset PathBuf}
    (h : Scanned workspaceRoot dir rest pushed₁ pushed' sink₁ sink')
    (hweight : totalWeight (fun item => item.2.size) pushed₁ ≤
      totalWeight (fun item => item.2.size) pushed + entry.size)
    (hpushed : ∀ item, item ∈ pushed₁ ↔ item ∈ pushed ∨ entry = .dir item.2 ∧
      item.1 = dir ++ [.normal name] ∧
      shouldSkipDir (toWorkspaceRelative workspaceRoot item.1) = false)
    (hsink : ∀ p, p ∈ sink₁ ↔ p ∈ sink ∨ entry = .file ∧
      p = toWorkspaceRelative workspaceRoot (dir ++ [.normal name]) ∧ IsTarget p) :
    Scanned workspaceRoot dir (.cons name entry rest) pushed pushed' sink sink' where
  readable := h.readable
  weight := by
    have hrest := h.weight
    show _ < _ + (entry.size + rest.size)
    omega
  mem_pushed := by
    intro item
    rw [h.mem_pushed, hpushed, pushes_cons, or_assoc]
  mem_sink := by
    intro p
    rw [h.mem_sink, hsink, takes_cons, or_assoc]

theorem scanDir_cases (entries : Entries) (pushed : List (PathBuf × Entries))
    (sink : Finset PathBuf) :
    (∃ pushed' sink', scanDir workspaceRoot dir entries pushed sink = .ok (pushed', sink') ∧
        Scanned workspaceRoot dir entries pushed pushed' sink sink') ∨
      ∃ error, scanDir workspaceRoot dir entries pushed sink = .error error ∧
        entries.Fails error := by
  fun_induction scanDir workspaceRoot dir entries pushed sink with
  | case1 pushed sink =>
    refine Or.inl ⟨pushed, sink, rfl, fun _ h => h, ?_, fun item => ?_, fun p => ?_⟩
    · show _ < _ + 1
      omega
    · simp [Pushes, Entries.not_lists_nil]
    · simp [Takes, Entries.not_lists_nil]
  | case2 error => exact Or.inr ⟨error, rfl, rfl⟩
  | case3 name rest pushed sink path relativePath entries hskip ih =>
    -- a directory that is left out
    apply ih.imp_left
    rintro ⟨pushed', sink', hok, hscan⟩
    refine ⟨pushed', sink', hok, hscan.cons (Nat.le_add_right _ _) (fun item => ?_) (by simp)⟩
    apply (or_iff_left _).symm
    rintro ⟨-, hpath, hkept⟩
    rw [hpath, show toWorkspaceRelative workspaceRoot _ = relativePath from rfl, hskip] at hkept
    cases hkept
  | case4 name rest pushed sink path relativePath entries hskip ih =>
    -- a directory that is pushed
    apply ih.imp_left
    rintro ⟨pushed', sink', hok, hscan⟩
    refine ⟨pushed', sink', hok, hscan.cons ?_ (fun item => ?_) (by simp)⟩
    · rw [Nat.add_comm]
      exact Nat.le_refl _
    · rw [List.mem_cons, or_comm]
      apply or_congr_right
      constructor
      · rintro rfl
        exact ⟨rfl, rfl, Bool.eq_false_iff.mpr hskip⟩
      · rintro ⟨hentry, hpath, -⟩
        exact Prod.ext hpath (Entry.dir.inj hentry).symm
  | case5 name rest pushed sink path relativePath ih =>
    apply ih.imp_left
    rintro ⟨pushed', sink', hok, hscan⟩
    refine ⟨pushed', sink', hok, hscan.cons (Nat.le_add_right _ _) (by simp) (fun p => ?_)⟩
    rw [mem_insertIfTarget]
    apply or_congr_right
    constructor
    · rintro ⟨rfl, htarget⟩
      exact ⟨rfl, rfl, htarget⟩
    · rintro ⟨-, hpath, htarget⟩
      rw [hpath] at htarget ⊢
      exact ⟨rfl, htarget⟩
  | case6 name rest pushed sink ih =>
    apply ih.imp_left
    rintro ⟨pushed', sink', hok, hscan⟩
    exact ⟨pushed', sink', hok, hscan.cons (Nat.le_add_right _ _) (by simp) (by simp)⟩

/-- The loop of `collect_rust_files_in_tree`, with the stack and the set. -/
def treeWalk (workspaceRoot : PathBuf) :
    Worklist (PathBuf × Entries) (Finset PathBuf) String where
  visit item sink := scanDir workspaceRoot item.1 item.2 [] sink
  weight item := item.2.size
  lighter := by
    intro item sink sink' pushed hvisit
    rcases scanDir_cases item.2 [] sink with ⟨pushed', sink₁, hok, hscan⟩ | ⟨error, herror, _⟩
    · rw [hok] at hvisit
      cases hvisit
      have hweight := hscan.weight
      rw [totalWeight, Nat.zero_add] at hweight
      exact hweight
    · rw [herror] at hvisit
      cases hvisit

def collectRustFilesInTree (workspaceRoot dir : PathBuf) (entries : Entries)
    (sink : Finset PathBuf) : Except String (Finset PathBuf) :=
  (treeWalk workspaceRoot).run [(dir, entries)] sink

/-- The directories under one that are reached without passing one that is left out. -/
inductive Visits (workspaceRoot : PathBuf) (start : PathBuf × Entries) :
    PathBuf × Entries → Prop where
  | start : Visits workspaceRoot start start
  | into {dir item : PathBuf × Entries} (h : Visits workspaceRoot start dir)
    (hpush : Pushes workspaceRoot dir.1 dir.2 item) : Visits workspaceRoot start item

/-- A file in one of these directories, under its name in the workspace. -/
def Finds (workspaceRoot : PathBuf) (start : PathBuf × Entries) (p : PathBuf) : Prop :=
  ∃ dir, Visits workspaceRoot start dir ∧ Takes workspaceRoot dir.1 dir.2 p

/-- One of these directories cannot be read to its end. -/
def Breaks (workspaceRoot : PathBuf) (start : PathBuf × Entries) (error : String) : Prop :=
  ∃ dir, Visits workspaceRoot start dir ∧ dir.2.Fails error

/-- The first step of a visit, where the constructors have the last one. -/
theorem visits_iff {start dir : PathBuf × Entries} :
    Visits workspaceRoot start dir ↔
      dir = start ∨ ∃ item, Pushes workspaceRoot start.1 start.2 item ∧
        Visits workspaceRoot item dir := by
  constructor
  · intro h
    induction h with
    | start => exact Or.inl rfl
    | @into dir item _ hpush ih =>
      rcases ih with rfl | ⟨first, hfirst, hvisits⟩
      · exact Or.inr ⟨item, hpush, .start⟩
      · exact Or.inr ⟨first, hfirst, .into hvisits hpush⟩
  · rintro (rfl | ⟨item, hpush, hvisits⟩)
    · exact .start
    · induction hvisits with
      | start => exact .into .start hpush
      | into _ hlast ih => exact .into ih hlast

theorem finds_iff {start : PathBuf × Entries} {p : PathBuf} :
    Finds workspaceRoot start p ↔ Takes workspaceRoot start.1 start.2 p ∨
      ∃ item, Pushes workspaceRoot start.1 start.2 item ∧ Finds workspaceRoot item p := by
  unfold Finds
  simp only [@visits_iff workspaceRoot start, or_and_right, exists_or, exists_eq_left]
  apply or_congr_right
  constructor
  · rintro ⟨dir, ⟨item, hpush, hvisits⟩, htakes⟩
    exact ⟨item, hpush, dir, hvisits, htakes⟩
  · rintro ⟨item, hpush, dir, hvisits, htakes⟩
    exact ⟨dir, ⟨item, hpush, hvisits⟩, htakes⟩

theorem breaks_iff {start : PathBuf × Entries} {error : String} :
    Breaks workspaceRoot start error ↔ start.2.Fails error ∨
      ∃ item, Pushes workspaceRoot start.1 start.2 item ∧ Breaks workspaceRoot item error := by
  unfold Breaks
  simp only [@visits_iff workspaceRoot start, or_and_right, exists_or, exists_eq_left]
  apply or_congr_right
  constructor
  · rintro ⟨dir, ⟨item, hpush, hvisits⟩, hfails⟩
    exact ⟨item, hpush, dir, hvisits, hfails⟩
  · rintro ⟨item, hpush, dir, hvisits, hfails⟩
    exact ⟨dir, ⟨item, hpush, hvisits⟩, hfails⟩

/-- The invariant of the walk from `root`: what is on the stack is visited, and what is still to be
found lies under the stack. -/
structure Walk (workspaceRoot : PathBuf) (root : PathBuf × Entries) (sink : Finset PathBuf)
    (stack : List (PathBuf × Entries)) (s : Finset PathBuf) : Prop where
  visited : ∀ item ∈ stack, Visits workspaceRoot root item
  breaks : ∀ error, Breaks workspaceRoot root error ↔ ∃ item ∈ stack, Breaks workspaceRoot item error
  finds : ∀ p, p ∈ sink ∨ Finds workspaceRoot root p ↔
    p ∈ s ∨ ∃ item ∈ stack, Finds workspaceRoot item p

theorem Walk.start (root : PathBuf × Entries) (sink : Finset PathBuf) :
    Walk workspaceRoot root sink [root] sink where
  visited item hitem := by
    rw [List.mem_singleton.mp hitem]
    exact .start
  breaks error := by simp
  finds p := by simp

/-- One directory is taken from the stack. -/
theorem Walk.turn {root item : PathBuf × Entries} {sink s s' : Finset PathBuf}
    {rest further : List (PathBuf × Entries)} (h : Walk workspaceRoot root sink (item :: rest) s)
    (hvisit : (treeWalk workspaceRoot).visit item s = .ok (further, s')) :
    Walk workspaceRoot root sink (further ++ rest) s' := by
  rcases @scanDir_cases workspaceRoot item.1 item.2 [] s with
    ⟨pushed, sink₁, hok, hscan⟩ | ⟨error, herror, _⟩
  · rw [show (treeWalk workspaceRoot).visit item s = _ from hok] at hvisit
    cases hvisit
    have hpushes : ∀ i, i ∈ further ↔ Pushes workspaceRoot item.1 item.2 i := by
      intro i
      rw [hscan.mem_pushed]
      simp
    constructor
    · intro i hi
      rcases List.mem_append.mp hi with hi | hi
      · exact .into (h.visited item List.mem_cons_self) ((hpushes i).mp hi)
      · exact h.visited i (List.mem_cons_of_mem _ hi)
    · intro error
      rw [h.breaks error]
      simp only [List.mem_cons, List.mem_append, or_and_right, exists_or, exists_eq_left, hpushes]
      rw [breaks_iff, or_iff_right (hscan.readable error)]
    · intro p
      rw [h.finds p, hscan.mem_sink]
      simp only [List.mem_cons, List.mem_append, or_and_right, exists_or, exists_eq_left, hpushes]
      rw [finds_iff, or_assoc, or_assoc]
  · rw [show (treeWalk workspaceRoot).visit item s = _ from herror] at hvisit
    cases hvisit

/-- The loop ends with the files that it finds and could read all, or with the first failure. -/
theorem collectRustFilesInTree_cases (entries : Entries) (sink : Finset PathBuf) :
    (∃ sink', collectRustFilesInTree workspaceRoot dir entries sink = .ok sink' ∧
        (∀ error, ¬ Breaks workspaceRoot (dir, entries) error) ∧
        ∀ p, p ∈ sink' ↔ p ∈ sink ∨ Finds workspaceRoot (dir, entries) p) ∨
      ∃ error, collectRustFilesInTree workspaceRoot dir entries sink = .error error ∧
        Breaks workspaceRoot (dir, entries) error := by
  rcases (treeWalk workspaceRoot).run_cases Walk.turn (Walk.start (dir, entries) sink) with
    ⟨s', hrun, h⟩ | ⟨error, item, rest, s', hrun, h, hvisit⟩
  · left
    refine ⟨s', hrun, ?_, ?_⟩
    · intro error hbreaks
      rcases (h.breaks error).mp hbreaks with ⟨item, hitem, _⟩
      cases hitem
    · intro p
      rw [h.finds p]
      simp
  · right
    refine ⟨error, hrun, item, h.visited item List.mem_cons_self, ?_⟩
    rcases @scanDir_cases workspaceRoot item.1 item.2 [] s' with
      ⟨pushed, sink₁, hok, hscan⟩ | ⟨error', herror, hfails⟩
    · rw [show (treeWalk workspaceRoot).visit item s' = _ from hok] at hvisit
      cases hvisit
    · rw [show (treeWalk workspaceRoot).visit item s' = _ from herror] at hvisit
      cases hvisit
      exact hfails

end Scan

/-! ## Selections -/

structure CommandOutput where
  success : Bool
  stdout : List Char
  stderr : List Char

inductive FileType where
  | file
  | dir
  | other
deriving DecidableEq

/-- What the tools ask the system for.  A failure is the text of its `io::Error`; `readDir` gives
the whole tree below a directory. -/
structure Workspace where
  currentDir : Except String PathBuf
  git : List String → Except String CommandOutput
  pathExists : PathBuf → Bool
  metadata : PathBuf → Except String FileType
  readDir : PathBuf → Entries

inductive FileSelection where
  | all
  | staged
  | paths (values : List String)
deriving DecidableEq

variable (ws : Workspace) (workspaceRoot : PathBuf)

def gitPaths (args : List String) : Except String (List PathBuf) :=
  match ws.git args with
  | .error error => .error error
  | .ok output =>
    if ¬ output.success then
      .error ("git command failed (" ++ " ".intercalate args ++ "): " ++
        String.ofList output.stderr)
    else
      .ok ((((lines output.stdout).map trim).filter fun line => line ≠ []).map PathBuf.ofText)

/-- The loop over what git lists. -/
def insertListed : List PathBuf → Finset PathBuf → Finset PathBuf
  | [], sink => sink
  | path :: paths, sink =>
    if ws.pathExists (workspaceRoot.join path) then
      insertListed paths (insertIfTarget path sink)
    else insertListed paths sink

def listFilesArgs : List String :=
  ["ls-files", "--cached", "--others", "--exclude-standard", "--", "*.rs"]

def stagedArgs : List String :=
  ["diff", "--cached", "--name-only", "--diff-filter=ACMR", "--", "*.rs"]

def collectAllRustFiles (sink : Finset PathBuf) : Except String (Finset PathBuf) :=
  match gitPaths ws listFilesArgs with
  | .ok paths => .ok (insertListed ws workspaceRoot paths sink)
  | .error _ => collectRustFilesInTree workspaceRoot workspaceRoot (ws.readDir workspaceRoot) sink

def collectStagedRustFiles (sink : Finset PathBuf) : Except String (Finset PathBuf) :=
  match gitPaths ws stagedArgs with
  | .error error => .error error
  | .ok paths => .ok (insertListed ws workspaceRoot paths sink)

/-- `absolute_path` -/
def absolutePath (value : String) : PathBuf := workspaceRoot.join (.ofText value.toList)

/-- One turn of the loop of `collect_from_paths`. -/
def collectFromPath (value : String) (sink : Finset PathBuf) : Except String (Finset PathBuf) :=
  let absolutePath := absolutePath workspaceRoot value
  match ws.metadata absolutePath with
  | .error error => .error ("failed to read metadata for " ++ value ++ ": " ++ error)
  | .ok .file => .ok (insertIfTarget (toWorkspaceRelative workspaceRoot absolutePath) sink)
  | .ok .dir => collectRustFilesInTree workspaceRoot absolutePath (ws.readDir absolutePath) sink
  | .ok .other => .error ("path is neither file nor directory: " ++ value)

def collectFromPaths : List String → Finset PathBuf → Except String (Finset PathBuf)
  | [], sink => .ok sink
  | value :: values, sink =>
    match collectFromPath ws workspaceRoot value sink with
    | .error error => .error error
    | .ok sink => collectFromPaths values sink

/-- The set that `resolve_rust_files` fills. -/
def collectSelection : FileSelection → Except String (Finset PathBuf)
  | .all => collectAllRustFiles ws workspaceRoot ∅
  | .staged => collectStagedRustFiles ws workspaceRoot ∅
  | .paths values => collectFromPaths ws workspaceRoot values ∅

def resolveRustFiles (selection : FileSelection) : Except String (List PathBuf) :=
  match ws.currentDir with
  | .error error => .error error
  | .ok workspaceRoot =>
    match collectSelection ws workspaceRoot selection with
    | .error error => .error error
    | .ok paths => .ok paths.sort

/-! ### What is selected -/

/-- Git lists the file, and it is there. -/
def Listed (args : List String) (p : PathBuf) : Prop :=
  ∃ paths, gitPaths ws args = .ok paths ∧ p ∈ paths ∧
    ws.pathExists (workspaceRoot.join p) = true ∧ IsTarget p

def GitFails (args : List String) : Prop := ∃ error, gitPaths ws args = .error error

/-- The file is the one named, or it is found below the directory named. -/
def Under (value : String) (p : PathBuf) : Prop :=
  let path := absolutePath workspaceRoot value
  ws.metadata path = .ok .file ∧ p = toWorkspaceRelative workspaceRoot path ∧ IsTarget p ∨
    ws.metadata path = .ok .dir ∧ Finds workspaceRoot (path, ws.readDir path) p

/-- The path named is nothing to work on. -/
def Unusable (value : String) : Prop :=
  let path := absolutePath workspaceRoot value
  (∃ error, ws.metadata path = .error error) ∨ ws.metadata path = .ok .other ∨
    ws.metadata path = .ok .dir ∧ ∃ error, Breaks workspaceRoot (path, ws.readDir path) error

def Selects : FileSelection → PathBuf → Prop
  | .all, p => Listed ws workspaceRoot listFilesArgs p ∨ GitFails ws listFilesArgs ∧
      Finds workspaceRoot (workspaceRoot, ws.readDir workspaceRoot) p
  | .staged, p => Listed ws workspaceRoot stagedArgs p
  | .paths values, p => ∃ value ∈ values, Under ws workspaceRoot value p

def Refuses : FileSelection → Prop
  | .all => GitFails ws listFilesArgs ∧
      ∃ error, Breaks workspaceRoot (workspaceRoot, ws.readDir workspaceRoot) error
  | .staged => GitFails ws stagedArgs
  | .paths values => ∃ value ∈ values, Unusable ws workspaceRoot value

/-- A step either fills the set with what it is to find, or fails as it is to. -/
def Collects (result : Except String (Finset PathBuf)) (sink : Finset PathBuf)
    (found : PathBuf → Prop) (fails : Prop) : Prop :=
  (∃ sink', result = .ok sink' ∧ ¬ fails ∧ ∀ p, p ∈ sink' ↔ p ∈ sink ∨ found p) ∨
    (∃ error, result = .error error) ∧ fails

section Selection

variable {ws workspaceRoot}

theorem mem_insertListed {paths : List PathBuf} {sink : Finset PathBuf} {p : PathBuf} :
    p ∈ insertListed ws workspaceRoot paths sink ↔
      p ∈ sink ∨ p ∈ paths ∧ ws.pathExists (workspaceRoot.join p) = true ∧ IsTarget p := by
  induction paths generalizing sink with
  | nil => simp [insertListed]
  | cons path paths ih =>
    unfold insertListed
    by_cases hexists : ws.pathExists (workspaceRoot.join path) = true
    · rw [if_pos hexists, ih, mem_insertIfTarget, or_assoc, List.mem_cons, or_and_right]
      apply or_congr_right
      apply or_congr_left
      constructor
      · rintro ⟨rfl, htarget⟩
        exact ⟨rfl, hexists, htarget⟩
      · rintro ⟨rfl, -, htarget⟩
        exact ⟨rfl, htarget⟩
    · rw [if_neg hexists, ih, List.mem_cons, or_and_right]
      apply or_congr_right
      apply (or_iff_right _).symm
      rintro ⟨rfl, hthere, -⟩
      exact hexists hthere

theorem collectRustFilesInTree_collects (dir : PathBuf) (entries : Entries)
    (sink : Finset PathBuf) :
    Collects (collectRustFilesInTree workspaceRoot dir entries sink) sink
      (Finds workspaceRoot (dir, entries)) (∃ error, Breaks workspaceRoot (dir, entries) error) := by
  rcases collectRustFilesInTree_cases entries sink with ⟨sink', hok, hreadable, hmem⟩ |
    ⟨error, herror, hbreaks⟩
  · exact Or.inl ⟨sink', hok, fun h => h.elim hreadable, hmem⟩
  · exact Or.inr ⟨⟨error, herror⟩, error, hbreaks⟩

theorem collectFromPath_collects (value : String) (sink : Finset PathBuf) :
    Collects (collectFromPath ws workspaceRoot value sink) sink (Under ws workspaceRoot value)
      (Unusable ws workspaceRoot value) := by
  unfold collectFromPath Under Unusable
  dsimp only
  generalize absolutePath workspaceRoot value = path
  cases hmetadata : ws.metadata path with
  | error error => exact Or.inr ⟨⟨_, rfl⟩, Or.inl ⟨error, rfl⟩⟩
  | ok fileType =>
    cases fileType with
    | file =>
      refine Or.inl ⟨_, rfl, by simp, fun p => ?_⟩
      rw [mem_insertIfTarget]
      apply or_congr_right
      constructor
      · rintro ⟨rfl, htarget⟩
        exact Or.inl ⟨rfl, rfl, htarget⟩
      · rintro (⟨-, rfl, htarget⟩ | ⟨hdir, -⟩)
        · exact ⟨rfl, htarget⟩
        · cases hdir
    | dir =>
      have hcollects := @collectRustFilesInTree_collects workspaceRoot path
        (ws.readDir path) sink
      simpa using hcollects
    | other => exact Or.inr ⟨⟨_, rfl⟩, Or.inr (Or.inl rfl)⟩

theorem collectFromPaths_collects (values : List String) (sink : Finset PathBuf) :
    Collects (collectFromPaths ws workspaceRoot values sink) sink
      (fun p => ∃ value ∈ values, Under ws workspaceRoot value p)
      (∃ value ∈ values, Unusable ws workspaceRoot value) := by
  induction values generalizing sink with
  | nil => exact Or.inl ⟨sink, rfl, by simp, by simp⟩
  | cons value values ih =>
    unfold collectFromPaths
    rcases @collectFromPath_collects ws workspaceRoot value sink with
      ⟨sink₁, hok, husable, hmem⟩ | ⟨⟨error, herror⟩, hunusable⟩
    · rw [hok]
      dsimp only
      rcases ih sink₁ with ⟨sink', hok', hothers, hmem'⟩ | ⟨⟨error, herror⟩, other, hin, hfails⟩
      · refine Or.inl ⟨sink', hok', by simpa using ⟨husable, by simpa using hothers⟩, fun p => ?_⟩
        rw [hmem', hmem, or_assoc]
        simp
      · exact Or.inr ⟨⟨error, herror⟩, other, List.mem_cons_of_mem _ hin, hfails⟩
    · rw [herror]
      exact Or.inr ⟨⟨error, rfl⟩, value, List.mem_cons_self, hunusable⟩

theorem collectSelection_collects (selection : FileSelection) :
    Collects (collectSelection ws workspaceRoot selection) ∅ (Selects ws workspaceRoot selection)
      (Refuses ws workspaceRoot selection) := by
  cases selection with
  | all =>
    unfold collectSelection collectAllRustFiles Selects Refuses Listed GitFails
    cases hgit : gitPaths ws listFilesArgs with
    | ok paths =>
      refine Or.inl ⟨_, rfl, by simp, fun p => ?_⟩
      rw [mem_insertListed]
      simp
    | error error =>
      have hcollects := @collectRustFilesInTree_collects workspaceRoot workspaceRoot
        (ws.readDir workspaceRoot) ∅
      simpa using hcollects
  | staged =>
    unfold collectSelection collectStagedRustFiles Selects Refuses Listed GitFails
    cases hgit : gitPaths ws stagedArgs with
    | ok paths =>
      refine Or.inl ⟨_, rfl, by simp, fun p => ?_⟩
      rw [mem_insertListed]
      simp
    | error error => exact Or.inr ⟨⟨error, rfl⟩, error, rfl⟩
  | paths values => exact collectFromPaths_collects values ∅

end Selection

end Rlibc.Codestyle
