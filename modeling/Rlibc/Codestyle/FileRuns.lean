import Mathlib.Data.Finset.Card
import Rlibc.Codestyle.FileSelection
import Rlibc.Codestyle.FixedPoint
import Rlibc.Machine

/-!
# Checking and rewriting files

The checker reads the files one after the other; the formatter also writes back those that it
changes.  Both stop at the first file that they cannot read, parse or write.  Two paths may name one
file, so the texts are kept by file, and a path leads to one.
-/

namespace Rlibc.Codestyle

open TextLines

/-- A file, whichever path leads to it. -/
abbrev FileId := Nat

/-- What `read_to_string` gives for each file. -/
abbrev Disk := FileId → Except String (List Char)

/-- Why a file cannot be written, and what is in it then. -/
structure WriteFault where
  error : String
  left : Except String (List Char)

/-- How the tools get at files: where a path leads, and which writes do not go through. -/
structure Storage where
  file : PathBuf → FileId
  writeFault : FileId → List Char → Option WriteFault

/-- Why a tool stops. -/
inductive Abort where
  | message (text : String)
  | panic
deriving DecidableEq

/-- The error of the analyzers in the words of the tools. -/
def Failure.abort (path : PathBuf) : Failure → Abort
  | .parse message => .message ("failed to parse " ++ path.display ++ ": " ++ message)
  | .spanUnavailable => .message ("failed to parse " ++ path.display ++
      ": span line information is unavailable; enable proc-macro2 span-locations")
  | .panic => .panic

def readFailed (path : PathBuf) (error : String) : Abort :=
  .message ("failed to read " ++ path.display ++ ": " ++ error)

def writeFailed (path : PathBuf) (error : String) : Abort :=
  .message ("failed to write " ++ path.display ++ ": " ++ error)

/-- The line that is printed for a violation. -/
def StyleViolation.printedLine (path : PathBuf) (violation : StyleViolation) : String :=
  path.display ++ ":" ++ toString violation.line ++ ":" ++ toString violation.column ++ ": " ++
    violation.code ++ " " ++ violation.message

section Runs

variable (parseFile : Parser) (storage : Storage)

/-- The lines printed, and the number of violations. -/
def checkLayoutFile (disk : Disk) (path : PathBuf) : List String × Except Abort Nat :=
  match disk (storage.file path) with
  | .error error => ([], .error (readFailed path error))
  | .ok source =>
    match collectLayoutViolations parseFile source with
    | .error failure => ([], .error (failure.abort path))
    | .ok violations => (violations.map (StyleViolation.printedLine path), .ok violations.length)

/-- The loop of `check_layout_files`. -/
def checkLoop (disk : Disk) : List PathBuf → Nat → List String × Except Abort Nat
  | [], violations => ([], .ok violations)
  | path :: paths, violations =>
    match checkLayoutFile parseFile storage disk path with
    | (printed, .error abort) => (printed, .error abort)
    | (printed, .ok count) =>
      let rest := checkLoop disk paths (saturatingAdd violations count)
      (printed ++ rest.1, rest.2)

def checkLayoutFiles (disk : Disk) (paths : List PathBuf) : List String × Except Abort Nat :=
  checkLoop parseFile storage disk paths 0

/-- Whether the file was changed, and the disk. -/
def rewriteLayoutFile (disk : Disk) (path : PathBuf) : Except Abort Bool × Disk :=
  match disk (storage.file path) with
  | .error error => (.error (readFailed path error), disk)
  | .ok original =>
    match formatLayoutSource parseFile original with
    | .error failure => (.error (failure.abort path), disk)
    | .ok updated =>
      if updated = original then (.ok false, disk)
      else
        match storage.writeFault (storage.file path) updated with
        | some fault =>
          (.error (writeFailed path fault.error),
            Function.update disk (storage.file path) fault.left)
        | none => (.ok true, Function.update disk (storage.file path) (.ok updated))

/-- The loop of `rewrite_layout_files`. -/
def rewriteLoop : Disk → List PathBuf → Nat → Except Abort Nat × Disk
  | disk, [], changedCount => (.ok changedCount, disk)
  | disk, path :: paths, changedCount =>
    match rewriteLayoutFile parseFile storage disk path with
    | (.error abort, disk) => (.error abort, disk)
    | (.ok true, disk) => rewriteLoop disk paths (saturatingAdd changedCount 1)
    | (.ok false, disk) => rewriteLoop disk paths changedCount

def rewriteLayoutFiles (disk : Disk) (paths : List PathBuf) : Except Abort Nat × Disk :=
  rewriteLoop parseFile storage disk paths 0

end Runs

/-! ## One file -/

/-- The checker finds nothing, and the formatter has nothing to do. -/
structure Accepted (parseFile : Parser) (text : List Char) : Prop where
  checked : collectLayoutViolations parseFile text = .ok []
  formatted : formatLayoutSource parseFile text = .ok text

section

variable {parseFile : Parser}

/-- The formatter fails where the parser does. -/
theorem exists_parse {source formatted : List Char}
    (h : formatLayoutSource parseFile source = .ok formatted) :
    ∃ file, parseFile source = .ok file := by
  cases hparse : parseFile source with
  | ok file => exact ⟨file, rfl⟩
  | error message =>
    unfold formatLayoutSource analyzeTopLevelLayout at h
    rw [hparse] at h
    cases h

theorem exists_formatted (hparser : parseFile.Contract) {source : List Char} {file : File}
    (hparse : parseFile source = .ok file) :
    ∃ formatted, formatLayoutSource parseFile source = .ok formatted := by
  rw [← joinLines_splitLines source] at hparse ⊢
  rcases formatLayoutSource_settles hparser (areLines_splitLines source) hparse with
    ⟨ls', _, hformat, _⟩
  exact ⟨joinLines ls', hformat⟩

theorem formatLayoutSource_accepted (hparser : parseFile.Contract) {source formatted : List Char}
    (h : formatLayoutSource parseFile source = .ok formatted) :
    Accepted parseFile formatted ∧
      contentLines (splitLines formatted) = contentLines (splitLines source) := by
  rcases exists_parse h with ⟨file, hparse⟩
  rw [← joinLines_splitLines source] at h hparse
  rcases formatLayoutSource_settles hparser (areLines_splitLines source) hparse with
    ⟨ls', file', hformat, hls', hcontent, hparse', hsettled⟩
  rw [hformat] at h
  rw [← Except.ok.inj h]
  refine ⟨⟨?_, formatLayoutSource_settled hparser hls' hparse' hsettled⟩, ?_⟩
  · exact (collectLayoutViolations_eq_nil hparser hls' hparse').mpr hsettled
  · rw [splitLines_joinLines hls']
    exact hcontent

/-- What the checker accepts is what the formatter leaves as it is. -/
theorem checked_iff_formatted (hparser : parseFile.Contract) {text : List Char} :
    collectLayoutViolations parseFile text = .ok [] ↔
      formatLayoutSource parseFile text = .ok text := by
  constructor
  · intro h
    have hparse : ∃ file, parseFile text = .ok file := by
      cases hparse : parseFile text with
      | ok file => exact ⟨file, rfl⟩
      | error message =>
        unfold collectLayoutViolations analyzeTopLevelLayout at h
        rw [hparse] at h
        cases h
    rcases hparse with ⟨file, hparse⟩
    rw [← joinLines_splitLines text] at h hparse ⊢
    have hls := areLines_splitLines text
    exact formatLayoutSource_settled hparser hls hparse
      ((collectLayoutViolations_eq_nil hparser hls hparse).mp h)
  · intro h
    exact (formatLayoutSource_accepted hparser h).1.checked

end

/-! ## Rewriting -/

section Rewriting

variable {parseFile : Parser} {storage : Storage}

/-- The text of the file on the first disk is formatted on the second. -/
def Rewrites (parseFile : Parser) (disk disk' : Disk) (f : FileId) : Prop :=
  ∃ text formatted, disk f = .ok text ∧ formatLayoutSource parseFile text = .ok formatted ∧
    disk' f = .ok formatted

/-- The file can be read and parsed, and written where it has to be. -/
def Rewritable (parseFile : Parser) (storage : Storage) (disk : Disk) (f : FileId) : Prop :=
  ∃ text formatted, disk f = .ok text ∧ formatLayoutSource parseFile text = .ok formatted ∧
    (formatted ≠ text → storage.writeFault f formatted = none)

theorem rewriteLayoutFile_eq_ok {disk disk' : Disk} {path : PathBuf} {changed : Bool} :
    rewriteLayoutFile parseFile storage disk path = (.ok changed, disk') ↔
      ∃ text formatted, disk (storage.file path) = .ok text ∧
        formatLayoutSource parseFile text = .ok formatted ∧
        (formatted ≠ text → storage.writeFault (storage.file path) formatted = none) ∧
        changed = decide (formatted ≠ text) ∧
        disk' = Function.update disk (storage.file path) (.ok formatted) := by
  constructor
  · intro h
    unfold rewriteLayoutFile at h
    cases hread : disk (storage.file path) with
    | error error =>
      rw [hread] at h
      cases h
    | ok text =>
      rw [hread] at h
      dsimp only at h
      cases hformat : formatLayoutSource parseFile text with
      | error failure =>
        rw [hformat] at h
        cases h
      | ok formatted =>
        rw [hformat] at h
        dsimp only at h
        refine ⟨text, formatted, rfl, hformat, ?_⟩
        by_cases hsame : formatted = text
        · rw [if_pos hsame] at h
          cases h
          refine ⟨fun hne => absurd hsame hne, by simp [hsame], ?_⟩
          rw [hsame, ← hread, Function.update_eq_self]
        · rw [if_neg hsame] at h
          cases hfault : storage.writeFault (storage.file path) formatted with
          | some fault =>
            rw [hfault] at h
            cases h
          | none =>
            rw [hfault] at h
            cases h
            exact ⟨fun _ => rfl, by simp [hsame], rfl⟩
  · rintro ⟨text, formatted, hread, hformat, hwrite, rfl, rfl⟩
    unfold rewriteLayoutFile
    rw [hread]
    dsimp only
    rw [hformat]
    dsimp only
    by_cases hsame : formatted = text
    · rw [if_pos hsame, hsame, ← hread, Function.update_eq_self]
      simp
    · rw [if_neg hsame, hwrite hsame]
      simp [hsame]

/-- The files that a run has changed. -/
def changedFiles (storage : Storage) (disk disk' : Disk) (paths : List PathBuf) : Finset FileId :=
  (paths.map storage.file).toFinset.filter fun f => disk' f ≠ disk f

/-- What a run that does not stop leaves. -/
structure Rewritten (parseFile : Parser) (storage : Storage) (paths : List PathBuf)
    (disk disk' : Disk) : Prop where
  others : ∀ f, f ∉ paths.map storage.file → disk' f = disk f
  files : ∀ f ∈ paths.map storage.file, Rewrites parseFile disk disk' f

/-- A file formatted first, and then the others. -/
theorem Rewritten.cons (hparser : parseFile.Contract) {path : PathBuf} {paths : List PathBuf}
    {disk disk' : Disk} {text formatted : List Char} (hread : disk (storage.file path) = .ok text)
    (hformat : formatLayoutSource parseFile text = .ok formatted)
    (h : Rewritten parseFile storage paths
      (Function.update disk (storage.file path) (.ok formatted)) disk') :
    disk' (storage.file path) = .ok formatted ∧
      Rewritten parseFile storage (path :: paths) disk disk' := by
  -- A second path to the file finds it formatted.
  have hfile : disk' (storage.file path) = .ok formatted := by
    by_cases hmem : storage.file path ∈ paths.map storage.file
    · rcases h.files _ hmem with ⟨text', formatted', hread', hformat', hleft⟩
      rw [Function.update_self] at hread'
      rw [← Except.ok.inj hread',
        (formatLayoutSource_accepted hparser hformat).1.formatted] at hformat'
      rw [hleft, Except.ok.inj hformat']
    · rw [h.others _ hmem, Function.update_self]
  refine ⟨hfile, fun f hf => ?_, fun f hf => ?_⟩
  · rw [List.map_cons, List.mem_cons, not_or] at hf
    rw [h.others f hf.2, Function.update_of_ne hf.1]
  · by_cases hsame : f = storage.file path
    · rw [hsame]
      exact ⟨text, formatted, hread, hformat, hfile⟩
    · rw [List.map_cons, List.mem_cons, or_iff_right hsame] at hf
      have hrewrites := h.files f hf
      unfold Rewrites at hrewrites
      rw [Function.update_of_ne hsame] at hrewrites
      exact hrewrites

/-- The first file counts if it was changed. -/
theorem card_changedFiles_cons {path : PathBuf} {paths : List PathBuf} {disk disk' : Disk}
    {text formatted : List Char} (hread : disk (storage.file path) = .ok text)
    (hfile : disk' (storage.file path) = .ok formatted) :
    (changedFiles storage disk disk' (path :: paths)).card =
      (changedFiles storage (Function.update disk (storage.file path) (.ok formatted)) disk'
        paths).card + if formatted = text then 0 else 1 := by
  have hnotMem : storage.file path ∉ changedFiles storage
      (Function.update disk (storage.file path) (.ok formatted)) disk' paths := by
    simp [changedFiles, hfile]
  by_cases hsame : formatted = text
  · rw [if_pos hsame, hsame, ← hread, Function.update_eq_self]
    have hkept : ¬ disk' (storage.file path) ≠ disk (storage.file path) := by
      rw [hfile, hread, hsame]
      exact fun h => h rfl
    unfold changedFiles
    rw [List.map_cons, List.toFinset_cons, Finset.filter_insert, if_neg hkept, Nat.add_zero]
  · rw [if_neg hsame, ← Finset.card_insert_of_notMem hnotMem]
    congr 1
    ext f
    unfold changedFiles
    rw [Finset.mem_insert, Finset.mem_filter, Finset.mem_filter, List.map_cons,
      List.toFinset_cons, Finset.mem_insert]
    by_cases hf : f = storage.file path
    · rw [hf, hfile, hread]
      simp [hsame]
    · rw [Function.update_of_ne hf]
      simp [hf]

/-- One turn of the loop. -/
theorem rewriteLoop_cons {path : PathBuf} {paths : List PathBuf} {disk disk' : Disk}
    {count n : Nat} :
    rewriteLoop parseFile storage disk (path :: paths) count = (.ok n, disk') ↔
      ∃ changed disk₁, rewriteLayoutFile parseFile storage disk path = (.ok changed, disk₁) ∧
        rewriteLoop parseFile storage disk₁ paths
          (if changed then saturatingAdd count 1 else count) = (.ok n, disk') := by
  rw [rewriteLoop]
  rcases rewriteLayoutFile parseFile storage disk path with ⟨result, disk₁⟩
  cases result with
  | error abort => simp
  | ok changed => cases changed <;> simp

theorem rewriteLoop_ok (hparser : parseFile.Contract) {paths : List PathBuf} :
    ∀ {disk disk' : Disk} {count n : Nat}, count ≤ usizeMax →
      rewriteLoop parseFile storage disk paths count = (.ok n, disk') →
      Rewritten parseFile storage paths disk disk' ∧
        n = min (count + (changedFiles storage disk disk' paths).card) usizeMax := by
  induction paths with
  | nil =>
    intro disk disk' count n hcount h
    cases h
    refine ⟨⟨fun f _ => rfl, fun f hf => absurd hf List.not_mem_nil⟩, ?_⟩
    show count = min (count + 0) usizeMax
    omega
  | cons path paths ih =>
    intro disk disk' count n hcount h
    rcases rewriteLoop_cons.mp h with ⟨changed, disk₁, hstep, hloop⟩
    have hcount₁ : (if changed then saturatingAdd count 1 else count) ≤ usizeMax := by
      unfold saturatingAdd
      split <;> omega
    rcases ih hcount₁ hloop with ⟨hrest, hn⟩
    rcases rewriteLayoutFile_eq_ok.mp hstep with ⟨text, formatted, hread, hformat, _, rfl, rfl⟩
    rcases hrest.cons hparser hread hformat with ⟨hfile, hall⟩
    refine ⟨hall, ?_⟩
    rw [hn, card_changedFiles_cons hread hfile]
    unfold saturatingAdd
    by_cases hsame : formatted = text
    · simp [hsame]
    · simp only [hsame, ne_eq, not_false_eq_true, decide_true, if_true, if_false]
      omega

/-- A formatted file can be formatted again. -/
theorem rewritable_update (hparser : parseFile.Contract) {disk : Disk} {g f : FileId}
    {text formatted : List Char} (hread : disk g = .ok text)
    (hformat : formatLayoutSource parseFile text = .ok formatted)
    (hwrite : formatted ≠ text → storage.writeFault g formatted = none) :
    Rewritable parseFile storage (Function.update disk g (.ok formatted)) f ↔
      Rewritable parseFile storage disk f := by
  unfold Rewritable
  by_cases hf : f = g
  · rw [hf, Function.update_self]
    apply iff_of_true
    · exact ⟨formatted, formatted, rfl, (formatLayoutSource_accepted hparser hformat).1.formatted,
        fun h => absurd rfl h⟩
    · exact ⟨text, formatted, hread, hformat, hwrite⟩
  · rw [Function.update_of_ne hf]

/-- The loop does not stop exactly if each file can be read, parsed and written. -/
theorem rewriteLoop_succeeds (hparser : parseFile.Contract) {paths : List PathBuf} :
    ∀ {disk : Disk} {count : Nat},
      (∃ n disk', rewriteLoop parseFile storage disk paths count = (.ok n, disk')) ↔
        ∀ f ∈ paths.map storage.file, Rewritable parseFile storage disk f := by
  induction paths with
  | nil =>
    intro disk count
    exact ⟨fun _ f hf => absurd hf List.not_mem_nil, fun _ => ⟨count, disk, rfl⟩⟩
  | cons path paths ih =>
    intro disk count
    rw [List.map_cons, List.forall_mem_cons]
    constructor
    · rintro ⟨n, disk', h⟩
      rcases rewriteLoop_cons.mp h with ⟨changed, disk₁, hstep, hloop⟩
      rcases rewriteLayoutFile_eq_ok.mp hstep with
        ⟨text, formatted, hread, hformat, hwrite, _, rfl⟩
      refine ⟨⟨text, formatted, hread, hformat, hwrite⟩, fun f hf => ?_⟩
      exact (rewritable_update hparser hread hformat hwrite).mp (ih.mp ⟨n, disk', hloop⟩ f hf)
    · rintro ⟨⟨text, formatted, hread, hformat, hwrite⟩, hrest⟩
      have hstep := rewriteLayoutFile_eq_ok.mpr
        ⟨text, formatted, hread, hformat, hwrite, rfl, rfl⟩
      have hlater := fun f hf =>
        (rewritable_update hparser hread hformat hwrite).mpr (hrest f hf)
      rcases ih.mpr hlater with ⟨n, disk', hloop⟩
      exact ⟨n, disk', rewriteLoop_cons.mpr ⟨_, _, hstep, hloop⟩⟩

/-! ## Checking -/

theorem checkLayoutFile_eq_nil {disk : Disk} {path : PathBuf} :
    checkLayoutFile parseFile storage disk path = ([], .ok 0) ↔
      ∃ text, disk (storage.file path) = .ok text ∧
        collectLayoutViolations parseFile text = .ok [] := by
  unfold checkLayoutFile
  cases disk (storage.file path) with
  | error error => simp
  | ok text =>
    dsimp only
    cases hcheck : collectLayoutViolations parseFile text with
    | error failure => simp [hcheck]
    | ok violations => simp [hcheck]

/-- One line for each violation. -/
theorem checkLayoutFile_length {disk : Disk} {path : PathBuf} {printed : List String} {count : Nat}
    (h : checkLayoutFile parseFile storage disk path = (printed, .ok count)) :
    printed.length = count := by
  unfold checkLayoutFile at h
  cases hread : disk (storage.file path) with
  | error error =>
    rw [hread] at h
    cases h
  | ok text =>
    rw [hread] at h
    dsimp only at h
    cases hcheck : collectLayoutViolations parseFile text with
    | error failure =>
      rw [hcheck] at h
      cases h
    | ok violations =>
      rw [hcheck] at h
      cases h
      exact List.length_map _

theorem checkLoop_eq_nil {disk : Disk} {paths : List PathBuf}
    (h : ∀ path ∈ paths, checkLayoutFile parseFile storage disk path = ([], .ok 0)) :
    checkLoop parseFile storage disk paths 0 = ([], .ok 0) := by
  induction paths with
  | nil => rfl
  | cons path paths ih =>
    rw [List.forall_mem_cons] at h
    unfold checkLoop
    rw [h.1]
    show ([] ++ (checkLoop parseFile storage disk paths 0).1,
      (checkLoop parseFile storage disk paths 0).2) = _
    rw [ih h.2]
    rfl

/-- The sum is zero only if every file has none. -/
theorem checkLoop_eq_zero {disk : Disk} {paths : List PathBuf} :
    ∀ {count : Nat}, (checkLoop parseFile storage disk paths count).2 = .ok 0 → count = 0 ∧
      ∀ path ∈ paths, checkLayoutFile parseFile storage disk path = ([], .ok 0) := by
  induction paths with
  | nil =>
    intro count h
    exact ⟨Except.ok.inj h, fun path hpath => absurd hpath List.not_mem_nil⟩
  | cons path paths ih =>
    intro count h
    unfold checkLoop at h
    cases hcheck : checkLayoutFile parseFile storage disk path with
    | mk printed result =>
      rw [hcheck] at h
      cases result with
      | error abort => cases h
      | ok c =>
        rcases ih h with ⟨hsum, hrest⟩
        unfold saturatingAdd usizeMax at hsum
        have hc : c = 0 := by omega
        refine ⟨by omega, ?_⟩
        rw [List.forall_mem_cons]
        refine ⟨?_, hrest⟩
        have hlength := checkLayoutFile_length hcheck
        rw [hc, List.length_eq_zero_iff] at hlength
        rw [hcheck, hlength, hc]

/-- The check passes exactly if each file can be read and has no violation. -/
theorem checkLayoutFiles_eq_zero {disk : Disk} {paths : List PathBuf} :
    (checkLayoutFiles parseFile storage disk paths).2 = .ok 0 ↔
      ∀ path ∈ paths, ∃ text, disk (storage.file path) = .ok text ∧
        collectLayoutViolations parseFile text = .ok [] := by
  simp only [← checkLayoutFile_eq_nil]
  unfold checkLayoutFiles
  constructor
  · intro h
    exact (checkLoop_eq_zero h).2
  · intro h
    rw [checkLoop_eq_nil h]

/-- Rewriting changes nothing exactly if the check passes. -/
theorem rewriteLayoutFiles_eq_self (hparser : parseFile.Contract) {disk : Disk}
    {paths : List PathBuf} :
    rewriteLayoutFiles parseFile storage disk paths = (.ok 0, disk) ↔
      (checkLayoutFiles parseFile storage disk paths).2 = .ok 0 := by
  rw [checkLayoutFiles_eq_zero]
  constructor
  · intro h path hpath
    rcases (rewriteLoop_ok hparser (Nat.zero_le _) h).1.files _
      (List.mem_map_of_mem hpath) with ⟨text, formatted, hread, hformat, hleft⟩
    rw [hread] at hleft
    rw [← Except.ok.inj hleft] at hformat
    exact ⟨text, hread, (checked_iff_formatted hparser).mpr hformat⟩
  · intro h
    have hformats : ∀ f ∈ paths.map storage.file, ∃ text, disk f = .ok text ∧
        formatLayoutSource parseFile text = .ok text := by
      intro f hf
      rcases List.mem_map.mp hf with ⟨path, hpath, rfl⟩
      rcases h path hpath with ⟨text, hread, hchecked⟩
      exact ⟨text, hread, (checked_iff_formatted hparser).mp hchecked⟩
    have hrewritable : ∀ f ∈ paths.map storage.file, Rewritable parseFile storage disk f := by
      intro f hf
      rcases hformats f hf with ⟨text, hread, hformat⟩
      exact ⟨text, text, hread, hformat, fun hne => absurd rfl hne⟩
    rcases (@rewriteLoop_succeeds _ _ hparser _ _ 0).mpr hrewritable with ⟨n, disk', hrun⟩
    rcases rewriteLoop_ok hparser (Nat.zero_le _) hrun with ⟨hrewritten, hn⟩
    have hsame : disk' = disk := by
      funext f
      by_cases hf : f ∈ paths.map storage.file
      · rcases hrewritten.files f hf with ⟨text, formatted, hread, hformat, hleft⟩
        rcases hformats f hf with ⟨text', hread', hformat'⟩
        rw [hread] at hread'
        rw [← Except.ok.inj hread', hformat] at hformat'
        rw [hleft, hread, Except.ok.inj hformat']
      · exact hrewritten.others f hf
    have hnone : changedFiles storage disk disk paths = ∅ := by
      unfold changedFiles
      simp
    rw [hsame, hnone] at hn
    show rewriteLoop parseFile storage disk paths 0 = _
    rw [hrun, hsame, hn]
    rfl

/-- What a run leaves passes the check. -/
theorem rewriteLayoutFiles_passes (hparser : parseFile.Contract) {paths : List PathBuf}
    {disk disk' : Disk} {n : Nat}
    (h : rewriteLayoutFiles parseFile storage disk paths = (.ok n, disk')) :
    (checkLayoutFiles parseFile storage disk' paths).2 = .ok 0 := by
  rw [checkLayoutFiles_eq_zero]
  intro path hpath
  rcases (rewriteLoop_ok hparser (Nat.zero_le _) h).1.files _ (List.mem_map_of_mem hpath) with
    ⟨text, formatted, hread, hformat, hleft⟩
  exact ⟨formatted, hleft, (formatLayoutSource_accepted hparser hformat).1.checked⟩

end Rewriting

/-- A run of the formatter over some files changes no other file and no line that is not blank, and
counts the files that it changes; what it leaves passes the check, and a second run changes nothing.
-/
theorem rewriteLayoutFiles_settles {parseFile : Parser} (hparser : parseFile.Contract)
    {storage : Storage} {paths : List PathBuf} {disk disk' : Disk} {n : Nat}
    (h : rewriteLayoutFiles parseFile storage disk paths = (.ok n, disk')) :
    (∀ f, f ∉ paths.map storage.file → disk' f = disk f) ∧
    (∀ f ∈ paths.map storage.file, ∃ text formatted, disk f = .ok text ∧
      disk' f = .ok formatted ∧
      contentLines (splitLines formatted) = contentLines (splitLines text)) ∧
    n = min (changedFiles storage disk disk' paths).card usizeMax ∧
    (checkLayoutFiles parseFile storage disk' paths).2 = .ok 0 ∧
    rewriteLayoutFiles parseFile storage disk' paths = (.ok 0, disk') := by
  rcases rewriteLoop_ok hparser (Nat.zero_le _) h with ⟨hrewritten, hn⟩
  have hpasses := rewriteLayoutFiles_passes hparser h
  refine ⟨hrewritten.others, fun f hf => ?_, ?_, hpasses,
    (rewriteLayoutFiles_eq_self hparser).mpr hpasses⟩
  · rcases hrewritten.files f hf with ⟨text, formatted, hread, hformat, hleft⟩
    exact ⟨text, formatted, hread, hleft, (formatLayoutSource_accepted hparser hformat).2⟩
  · rw [hn, Nat.zero_add]

/-- Two paths to a file with two `mod` items that are too far apart. -/
theorem rewriteLayoutFiles_settles_sample :
    let storage : Storage := ⟨fun _ => 0, fun _ _ => none⟩
    let disk : Disk := fun f => if f = 0 then .ok "mod a;\n\nmod b;\n".toList else .error "gone"
    let paths := [PathBuf.ofText "src/a.rs".toList, PathBuf.ofText "src/link.rs".toList]
    ∃ n disk', rewriteLayoutFiles LineParser.parseFile storage disk paths = (.ok n, disk') ∧
      (∃ formatted, disk' 0 = .ok formatted ∧
        contentLines (splitLines formatted) = ["mod a;".toList, "mod b;".toList]) ∧
      rewriteLayoutFiles LineParser.parseFile storage disk' paths = (.ok 0, disk') := by
  intro storage disk paths
  have hparser := LineParser.parseFile_contract
  have hparse : LineParser.parseFile "mod a;\n\nmod b;\n".toList =
      .ok ⟨[⟨.mod, 1, 1, .nil⟩, ⟨.mod, 3, 3, .nil⟩]⟩ := by rfl
  rcases exists_formatted hparser hparse with ⟨formatted, hformat⟩
  have hrewritable : ∀ f ∈ paths.map storage.file,
      Rewritable LineParser.parseFile storage disk f := by
    intro f hf
    have hzero : f = 0 := by simpa [paths, storage] using hf
    rw [hzero]
    exact ⟨_, formatted, rfl, hformat, fun _ => rfl⟩
  rcases (@rewriteLoop_succeeds _ storage hparser paths disk 0).mpr hrewritable with ⟨n, disk', h⟩
  rcases rewriteLayoutFiles_settles hparser h with ⟨-, hcontent, -, -, hagain⟩
  rcases hcontent 0 (by simp [paths, storage]) with ⟨text, left, hread, hleft, hlines⟩
  refine ⟨n, disk', h, ⟨left, hleft, ?_⟩, hagain⟩
  rw [hlines, ← Except.ok.inj hread]
  decide

end Rlibc.Codestyle
