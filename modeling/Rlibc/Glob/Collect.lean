import Rlibc.Glob.Segments

/-!
# `collect_matches`

The search over the directory tree, and the list that `glob` makes of its results.  The file
system answers the three questions the search asks; what stands in a directory has a name of its
own, and no name is empty or holds a slash or a NUL.
-/

namespace Rlibc.Glob

abbrev Name := List UInt8

/-- A path as the search builds it: from `/` or from `.`, one name at a time. -/
structure FsPath where
  absolute : Bool
  names : List Name
deriving DecidableEq

/-- `fs_path.join(name)`. -/
def FsPath.join (path : FsPath) (name : Name) : FsPath :=
  { path with names := path.names ++ [name] }

structure FileSystem where
  /-- `path.symlink_metadata().is_ok()`. -/
  literalPathExists : FsPath → Bool
  /-- `path.is_dir()`. -/
  isDir : FsPath → Bool
  readDirectoryNames : FsPath → Except Int (List Name)
  nodup : ∀ path names, readDirectoryNames path = .ok names → names.Nodup
  valid : ∀ path names, readDirectoryNames path = .ok names →
    ∀ name ∈ names, name ≠ [] ∧ PATH_SEPARATOR ∉ name ∧ 0 ∉ name

structure CandidatePath where
  fsPath : FsPath
  resultPath : List UInt8
deriving DecidableEq

abbrev GLOB_NOSPACE : Int := 1
abbrev GLOB_ABORTED : Int := 2
abbrev GLOB_NOMATCH : Int := 3

/-- A return before the end: the code, and what `errno` is set to. -/
structure Failure where
  code : Int
  errno : Option Int
deriving DecidableEq

/-- `GlobErrorFn`. -/
abbrev GlobErrorFn := Option (List UInt8 → Int → Int)

def joinResultPath (base : List UInt8) (separatorCount : Nat) (name : Name) : List UInt8 :=
  base ++ List.replicate separatorCount PATH_SEPARATOR ++ name

def callbackPath (candidate : CandidatePath) : List UInt8 :=
  if candidate.resultPath = [] then [dot] else candidate.resultPath

/-- The call of the callback; a path with a NUL cannot be passed on. -/
def callErrfunc (candidate : CandidatePath) (errnoValue : Int) :
    GlobErrorFn → Except Failure Unit
  | none => .ok ()
  | some callback =>
    if 0 ∈ callbackPath candidate then .error ⟨GLOB_ABORTED, none⟩
    else if callback (callbackPath candidate) errnoValue ≠ 0 then
      .error ⟨GLOB_ABORTED, some errnoValue⟩
    else .ok ()

def processDirectoryError (candidate : CandidatePath) (errnoValue : Int) (flags : Flags)
    (errfunc : GlobErrorFn) : Except Failure Unit := do
  callErrfunc candidate errnoValue errfunc
  if hasFlag flags GLOB_ERR then .error ⟨GLOB_ABORTED, some errnoValue⟩ else .ok ()

/-- The entries of a directory that a segment with metacharacters keeps. -/
def keepEntries (flags : Flags) (segment : List UInt8) (entries : List Name) : List Name :=
  entries.filter fun name =>
    ¬(name.head? = some dot ∧ ¬shouldMatchHiddenName (hasFlag flags GLOB_NOESCAPE) segment) ∧
      patternMatches segment name flags

/-- The body of the loop over the candidates: what one candidate becomes. -/
def nextCandidates (fs : FileSystem) (flags : Flags) (errfunc : GlobErrorFn)
    (separatorCount : Nat) (segment : List UInt8) (candidate : CandidatePath) :
    Except Failure (List CandidatePath) :=
  if segmentHasPatternMeta (hasFlag flags GLOB_NOESCAPE) segment then
    match fs.readDirectoryNames candidate.fsPath with
    | .error errnoValue =>
      (processDirectoryError candidate errnoValue flags errfunc).map fun _ => []
    | .ok directoryEntries =>
      .ok ((keepEntries flags segment directoryEntries).map fun name =>
        ⟨candidate.fsPath.join name, joinResultPath candidate.resultPath separatorCount name⟩)
  else
    let literalSegment := unescapeSegment (hasFlag flags GLOB_NOESCAPE) segment
    if fs.literalPathExists (candidate.fsPath.join literalSegment) then
      .ok [⟨candidate.fsPath.join literalSegment,
        joinResultPath candidate.resultPath separatorCount literalSegment⟩]
    else .ok []

/-- The loop over the candidates. -/
def expandCandidates (fs : FileSystem) (flags : Flags) (errfunc : GlobErrorFn)
    (separatorCount : Nat) (segment : List UInt8) :
    List CandidatePath → Except Failure (List CandidatePath)
  | [] => .ok []
  | candidate :: candidates => do
    let next ← nextCandidates fs flags errfunc separatorCount segment candidate
    let rest ← expandCandidates fs flags errfunc separatorCount segment candidates
    .ok (next ++ rest)

/-- The loop over the segments. -/
def expandSegments (fs : FileSystem) (flags : Flags) (errfunc : GlobErrorFn) :
    List (Nat × List UInt8) → List CandidatePath → Except Failure (List CandidatePath)
  | [], candidates => .ok candidates
  | (separatorCount, segment) :: segments, candidates => do
    let next ← expandCandidates fs flags errfunc separatorCount segment candidates
    if next = [] then .ok [] else expandSegments fs flags errfunc segments next

/-- The candidate that the search starts from. -/
def rootCandidate (leadingSeparators segmentCount : Nat) : CandidatePath :=
  if leadingSeparators > 0 then
    ⟨⟨true, []⟩, List.replicate (if leadingSeparators = 2 ∧ segmentCount = 1 then 1
      else leadingSeparators) PATH_SEPARATOR⟩
  else ⟨⟨false, []⟩, []⟩

/-- `separator_count`: none before the first segment. -/
def separatorCounts : List (Nat × List UInt8) → List (Nat × List UInt8)
  | [] => []
  | (_, segment) :: segments => (0, segment) :: segments

/-- `collect_matches`. -/
def collectMatches (fs : FileSystem) (pattern : List UInt8) (flags : Flags)
    (errfunc : GlobErrorFn) : Except Failure (List (List UInt8)) :=
  let noEscape := hasFlag flags GLOB_NOESCAPE
  let (leadingSeparators, cut) :=
    parseSegmentsWithSeparators (normalizedPattern pattern noEscape)
  if leadingSeparators > 0 ∧ cut.pieces = [] then
    .ok [rootOnlyResultPath leadingSeparators (leadingSeparatorsIncludeEscaped pattern noEscape)]
  else if cut.pieces = [] then .ok []
  else do
    let candidates ← expandSegments fs flags errfunc (separatorCounts cut.pieces)
      [rootCandidate leadingSeparators cut.pieces.length]
    if cut.trailing > 0 then
      .ok ((candidates.filter fun candidate => fs.isDir candidate.fsPath).map fun candidate =>
        candidate.resultPath ++ [PATH_SEPARATOR])
    else .ok (candidates.map (·.resultPath))

/-- `Vec<u8>`'s order. -/
def bytesLe (a b : List UInt8) : Bool := a ≤ b

/-- The first half of `glob`: the paths a call finds, in the order it stores them. -/
def matchedPaths (fs : FileSystem) (pattern : List UInt8) (flags : Flags)
    (errfunc : GlobErrorFn) : Except Failure (List (List UInt8)) := do
  let matched ← collectMatches fs pattern flags errfunc
  if matched = [] ∧ ¬hasFlag flags GLOB_NOCHECK then .error ⟨GLOB_NOMATCH, none⟩
  else
    let matched :=
      if matched = [] then [nocheckFallbackPattern pattern (hasFlag flags GLOB_NOESCAPE)]
      else matched
    .ok (if hasFlag flags GLOB_NOSORT then matched else matched.mergeSort bytesLe)

end Rlibc.Glob
