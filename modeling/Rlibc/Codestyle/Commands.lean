import Mathlib.Data.List.Basic
import Rlibc.Codestyle.CommandLine
import Rlibc.Codestyle.FileRuns

/-!
# `codestyle_fmt` and `codestyle_check`

Both tools resolve the files that the command line selects and let `rustfmt` at them, which is a
program of its own.  The formatter then rewrites them, or checks them where it is called with
`--check`.
-/

namespace Rlibc.Codestyle

/-! ## Programs that the tools call -/

structure ToolOutput where
  code : Option Int
  stdout : List Char
  stderr : List Char

/-- What the tools work on; `rustfmt` is called with or without `--check`. -/
structure Host where
  storage : Storage
  workspace : Workspace
  rustfmt : Bool → List PathBuf → Disk → Except String ToolOutput × Disk
  clippy : Disk → Except String ToolOutput

def renderArg (arg : String) : String :=
  if arg.toList.any Text.isWhitespace then "\"" ++ arg ++ "\"" else arg

def renderCommand (program : String) (args : List String) : String :=
  " ".intercalate (program :: args.map renderArg)

/-- `{:?}` of an `Option<i32>`. -/
def debugCode : Option Int → String
  | none => "None"
  | some code => "Some(" ++ toString code ++ ")"

/-- The lines on standard error, and the result. -/
def runCommand (rendered label : String) (verbose : Bool) (output : Except String ToolOutput) :
    List String × Except String Unit :=
  match output with
  | .error error => ([], .error error)
  | .ok output =>
    let printed := if verbose then ["$ " ++ rendered] else []
    if output.code = some 0 then (printed, .ok ())
    else
      (printed, .error (label ++ " failed (status: " ++ debugCode output.code ++ ")\nstdout:\n" ++
        String.ofList output.stdout ++ "\nstderr:\n" ++ String.ofList output.stderr))

def rustfmtChunkSize : Nat := 128

def rustfmtArgs (check : Bool) (chunk : List PathBuf) : List String :=
  ["--edition", "2024"] ++ (if check then ["--check"] else []) ++ chunk.map PathBuf.display

/-- The loop over the chunks, with the lines on standard error and the disk. -/
def rustfmtLoop (host : Host) (check verbose : Bool) :
    Disk → List (List PathBuf) → List String × Except String Unit × Disk
  | disk, [] => ([], .ok (), disk)
  | disk, chunk :: chunks =>
    let called := host.rustfmt check chunk disk
    match runCommand (renderCommand "rustfmt" (rustfmtArgs check chunk)) "rustfmt" verbose
        called.1 with
    | (printed, .error error) => (printed, .error error, called.2)
    | (printed, .ok ()) =>
      let rest := rustfmtLoop host check verbose called.2 chunks
      (printed ++ rest.1, rest.2)

def runRustfmt (host : Host) (check verbose : Bool) (disk : Disk) (files : List PathBuf) :
    List String × Except String Unit × Disk :=
  rustfmtLoop host check verbose disk (files.toChunks rustfmtChunkSize)

def clippyArgs : List String := ["clippy", "--release", "--workspace", "--all-targets"]

def runClippyRelease (host : Host) (verbose : Bool) (disk : Disk) :
    List String × Except String Unit :=
  runCommand (renderCommand "cargo" clippyArgs) "cargo clippy --release --workspace" verbose
    (host.clippy disk)

/-! ## The tools -/

/-- How a tool ends: what it printed, its result and the disk. -/
structure Ended where
  stdout : List String
  stderr : List String
  result : Except Abort Unit
  disk : Disk

def Ended.failed (disk : Disk) (text : String) : Ended := ⟨[], [], .error (.message text), disk⟩

/-- A step that does not print to standard output, in front of the rest of a tool. -/
def after (step : List String × Except String Unit × Disk) (context : String)
    (next : Disk → Ended) : Ended :=
  match step.2.1 with
  | .error error => ⟨[], step.1, .error (.message (context ++ ": " ++ error)), step.2.2⟩
  | .ok () =>
    let ended := next step.2.2
    { ended with stderr := step.1 ++ ended.stderr }

/-- `if run_rustfmt { .. }` -/
def rustfmtStep (host : Host) (common : CommonArgs) (check : Bool) (files : List PathBuf)
    (disk : Disk) : List String × Except String Unit × Disk :=
  if common.runRustfmt then runRustfmt host check common.verbose disk files else ([], .ok (), disk)

section Tools

variable (parseFile : Parser) (host : Host)

/-- The layout check that both tools make, and what `codestyle_check` does behind it. -/
def layoutCheck (files : List PathBuf) (disk : Disk) (next : Disk → Ended) : Ended :=
  match checkLayoutFiles parseFile host.storage disk files with
  | (printed, .error abort) => ⟨printed, [], .error abort, disk⟩
  | (printed, .ok violations) =>
    if 0 < violations then
      ⟨printed, [], .error (.message ("found " ++ toString violations ++
        " codestyle violation(s)")), disk⟩
    else
      let ended := next disk
      { ended with stdout := printed ++ ended.stdout }

def Ended.done (disk : Disk) : Ended := ⟨[], [], .ok (), disk⟩

/-- `run_check_mode` -/
def runCheckMode (config : FormatArgs) (files : List PathBuf) (disk : Disk) : Ended :=
  after (rustfmtStep host config.common true files disk) "rustfmt check failed" fun disk =>
    layoutCheck parseFile host files disk .done

/-- `run_format_mode` -/
def runFormatMode (config : FormatArgs) (files : List PathBuf) (disk : Disk) : Ended :=
  after (rustfmtStep host config.common false files disk) "rustfmt failed" fun disk =>
    match rewriteLayoutFiles parseFile host.storage disk files with
    | (.error abort, disk) => ⟨[], [], .error abort, disk⟩
    | (.ok changedCount, disk) =>
      after (rustfmtStep host config.common false files disk) "rustfmt post-format failed"
        fun disk =>
          ⟨[], if config.common.verbose then ["updated " ++ toString changedCount ++ " file(s)"]
            else [], .ok (), disk⟩

/-- What both tools do in front of their work on the files. -/
def withFiles (common : CommonArgs) (disk : Disk) (work : List PathBuf → Ended) : Ended :=
  match resolveRustFiles host.workspace common.selection with
  | .error error => .failed disk ("failed to collect rust files: " ++ error)
  | .ok [] => ⟨[], if common.verbose then ["no Rust files selected"] else [], .ok (), disk⟩
  | .ok files => work files

/-- `run` of `codestyle_fmt`. -/
def codestyleFmt (args : List String) (disk : Disk) : Ended :=
  match parseFormatArgs args with
  | .error message => .failed disk message
  | .ok .help => ⟨[formatHelpText], [], .ok (), disk⟩
  | .ok (.config config) =>
    withFiles host config.common disk fun files =>
      if config.check then runCheckMode parseFile host config files disk
      else runFormatMode parseFile host config files disk

/-- `run` of `codestyle_check`. -/
def codestyleCheck (args : List String) (disk : Disk) : Ended :=
  match parseCheckArgs args with
  | .error message => .failed disk message
  | .ok .help => ⟨[checkHelpText], [], .ok (), disk⟩
  | .ok (.config config) =>
    withFiles host config.common disk fun files =>
      after (rustfmtStep host config.common true files disk) "rustfmt check failed" fun disk =>
        layoutCheck parseFile host files disk fun disk =>
          if config.runClippy then
            let clippy := runClippyRelease host config.common.verbose disk
            after (clippy.1, clippy.2, disk) "clippy failed" .done
          else .done disk

end Tools

/-! ## Without `rustfmt` -/

section WithoutRustfmt

variable {parseFile : Parser} {host : Host} {disk : Disk}

/-- The layout of the files selected is as it should be. -/
def LaidOut (parseFile : Parser) (host : Host) (selection : FileSelection) (disk : Disk) : Prop :=
  ∃ files, resolveRustFiles host.workspace selection = .ok files ∧
    (checkLayoutFiles parseFile host.storage disk files).2 = .ok 0

theorem after_skipped {common : CommonArgs} (h : common.runRustfmt = false) {check : Bool}
    {files : List PathBuf} {context : String} {next : Disk → Ended} :
    after (rustfmtStep host common check files disk) context next = next disk := by
  unfold rustfmtStep after
  rw [h]
  rfl

/-- A check that goes through does nothing else and lets the rest decide. -/
theorem layoutCheck_eq_ok {files : List PathBuf} {next : Disk → Ended} :
    (layoutCheck parseFile host files disk next).result = .ok () ↔
      (checkLayoutFiles parseFile host.storage disk files).2 = .ok 0 ∧
        (next disk).result = .ok () := by
  unfold layoutCheck
  rcases checkLayoutFiles parseFile host.storage disk files with ⟨printed, result⟩
  cases result with
  | error abort => simp
  | ok violations =>
    dsimp only
    by_cases hfound : 0 < violations
    · rw [if_pos hfound]
      simp [Nat.ne_of_gt hfound]
    · rw [if_neg hfound]
      simp [Nat.eq_zero_of_not_pos hfound]

theorem layoutCheck_disk {files : List PathBuf} {next : Disk → Ended}
    (hnext : (next disk).disk = disk) :
    (layoutCheck parseFile host files disk next).disk = disk := by
  unfold layoutCheck
  rcases checkLayoutFiles parseFile host.storage disk files with ⟨printed, result⟩
  cases result with
  | error abort => rfl
  | ok violations =>
    dsimp only
    split
    · rfl
    · exact hnext

/-- A tool that has no files ends well. -/
theorem withFiles_eq_ok {common : CommonArgs} {work : List PathBuf → Ended} {ended : Ended → Prop}
    (hempty : ∀ stderr, ended ⟨[], stderr, .ok (), disk⟩ ↔ ended (work []))
    (hfailed : ∀ text, ¬ ended (.failed disk text)) :
    ended (withFiles host common disk work) ↔
      ∃ files, resolveRustFiles host.workspace common.selection = .ok files ∧
        ended (work files) := by
  unfold withFiles
  cases resolveRustFiles host.workspace common.selection with
  | error error => simp [hfailed]
  | ok files =>
    cases files with
    | nil => simp [hempty]
    | cons path files => simp

theorem codestyleFmt_check_ok {args : List String} {config : FormatArgs}
    (hargs : parseFormatArgs args = .ok (.config config)) (hcheck : config.check = true)
    (hrustfmt : config.common.runRustfmt = false) :
    (codestyleFmt parseFile host args disk).result = .ok () ↔
      LaidOut parseFile host config.common.selection disk := by
  have hwork : ∀ files, (runCheckMode parseFile host config files disk).result = .ok () ↔
      (checkLayoutFiles parseFile host.storage disk files).2 = .ok 0 := by
    intro files
    unfold runCheckMode
    rw [after_skipped hrustfmt, layoutCheck_eq_ok]
    exact and_iff_left rfl
  unfold codestyleFmt LaidOut
  rw [hargs]
  dsimp only
  rw [@withFiles_eq_ok host disk _ _ (fun ended => ended.result = .ok ())]
  · simp only [hcheck, if_true, hwork]
  · intro stderr
    simp only [hcheck, if_true, hwork]
    exact iff_of_true trivial rfl
  · intro text h
    cases h

theorem codestyleFmt_check_disk {args : List String} {config : FormatArgs}
    (hargs : parseFormatArgs args = .ok (.config config)) (hcheck : config.check = true)
    (hrustfmt : config.common.runRustfmt = false) :
    (codestyleFmt parseFile host args disk).disk = disk := by
  unfold codestyleFmt withFiles
  rw [hargs]
  dsimp only
  split
  · rfl
  · rfl
  · rw [if_pos hcheck]
    unfold runCheckMode
    rw [after_skipped hrustfmt]
    exact layoutCheck_disk rfl

theorem codestyleCheck_ok {args : List String} {config : CheckArgs}
    (hargs : parseCheckArgs args = .ok (.config config)) (hclippy : config.runClippy = false)
    (hrustfmt : config.common.runRustfmt = false) :
    (codestyleCheck parseFile host args disk).result = .ok () ↔
      LaidOut parseFile host config.common.selection disk := by
  unfold codestyleCheck LaidOut
  rw [hargs]
  dsimp only
  rw [@withFiles_eq_ok host disk _ _ (fun ended => ended.result = .ok ())]
  · simp only [after_skipped hrustfmt, layoutCheck_eq_ok, hclippy, Bool.false_eq_true, if_false]
    simp [Ended.done]
  · intro stderr
    rw [after_skipped hrustfmt, layoutCheck_eq_ok]
    apply iff_of_true rfl
    rw [hclippy]
    exact ⟨rfl, rfl⟩
  · intro text h
    cases h

/-- The formatter does what `rewrite_layout_files` does. -/
theorem codestyleFmt_format_ok {args : List String} {config : FormatArgs}
    (hargs : parseFormatArgs args = .ok (.config config)) (hcheck : config.check = false)
    (hrustfmt : config.common.runRustfmt = false) {disk' : Disk} :
    (codestyleFmt parseFile host args disk).result = .ok () ∧
        (codestyleFmt parseFile host args disk).disk = disk' ↔
      ∃ files, resolveRustFiles host.workspace config.common.selection = .ok files ∧
        ∃ n, rewriteLayoutFiles parseFile host.storage disk files = (.ok n, disk') := by
  have hwork : ∀ files, (runFormatMode parseFile host config files disk).result = .ok () ∧
      (runFormatMode parseFile host config files disk).disk = disk' ↔
        ∃ n, rewriteLayoutFiles parseFile host.storage disk files = (.ok n, disk') := by
    intro files
    unfold runFormatMode
    rw [after_skipped hrustfmt]
    rcases rewriteLayoutFiles parseFile host.storage disk files with ⟨result, left⟩
    cases result with
    | error abort => simp
    | ok n =>
      dsimp only
      rw [after_skipped hrustfmt]
      simp
  unfold codestyleFmt
  rw [hargs]
  dsimp only
  rw [@withFiles_eq_ok host disk _ _ (fun ended => ended.result = .ok () ∧ ended.disk = disk')]
  · simp only [hcheck, Bool.false_eq_true, if_false, hwork]
  · intro stderr
    simp only [hcheck, Bool.false_eq_true, if_false, hwork]
    constructor
    · rintro ⟨-, rfl⟩
      exact ⟨0, rfl⟩
    · rintro ⟨n, h⟩
      exact ⟨trivial, (Prod.mk.inj h).2⟩
  · rintro text ⟨h, -⟩
    cases h

end WithoutRustfmt

/-- Without `rustfmt`, the formatter called with `--check` changes nothing, and it ends well exactly
where the formatter would end well and change nothing.  After a run of the formatter that ends well,
both tools find nothing in the files selected, and another run changes nothing. -/
theorem codestyleFmt_then_check {parseFile : Parser} (hparser : parseFile.Contract) (host : Host)
    {args checkArgs : List String} {config : FormatArgs} {checkConfig : CheckArgs}
    (hargs : parseFormatArgs args = .ok (.config config))
    (hcheckArgs : parseCheckArgs checkArgs = .ok (.config checkConfig))
    (hformat : config.check = false) (hclippy : checkConfig.runClippy = false)
    (hcommon : checkConfig.common = config.common) (hrustfmt : config.common.runRustfmt = false)
    (disk : Disk) :
    let formatted := codestyleFmt parseFile host args disk
    let checked := codestyleFmt parseFile host (args ++ ["--check"]) disk
    checked.disk = disk ∧
    (checked.result = .ok () ↔ formatted.result = .ok () ∧ formatted.disk = disk) ∧
    (formatted.result = .ok () →
      (codestyleFmt parseFile host (args ++ ["--check"]) formatted.disk).result = .ok () ∧
      (codestyleCheck parseFile host checkArgs formatted.disk).result = .ok () ∧
      (codestyleFmt parseFile host args formatted.disk).result = .ok () ∧
      (codestyleFmt parseFile host args formatted.disk).disk = formatted.disk) := by
  intro formatted checked
  have hchecked := parseFormatArgs_check hargs
  -- Rewriting the files leaves them as they are exactly if they are laid out.
  have hsame : ∀ disk, (codestyleFmt parseFile host args disk).result = .ok () ∧
      (codestyleFmt parseFile host args disk).disk = disk ↔
        LaidOut parseFile host config.common.selection disk := by
    intro disk
    rw [codestyleFmt_format_ok hargs hformat hrustfmt]
    constructor
    · rintro ⟨files, hfiles, n, hrun⟩
      refine ⟨files, hfiles, (rewriteLayoutFiles_eq_self hparser).mp ?_⟩
      rw [hrun, (rewriteLoop_ok hparser (Nat.zero_le _) hrun).2]
      simp [changedFiles]
    · rintro ⟨files, hfiles, hpasses⟩
      exact ⟨files, hfiles, 0, (rewriteLayoutFiles_eq_self hparser).mpr hpasses⟩
  refine ⟨codestyleFmt_check_disk hchecked rfl hrustfmt, ?_, fun hok => ?_⟩
  · rw [codestyleFmt_check_ok hchecked rfl hrustfmt, hsame]
  · rcases (codestyleFmt_format_ok hargs hformat hrustfmt).mp ⟨hok, rfl⟩ with ⟨files, hfiles, n, hrun⟩
    have hlaidOut : LaidOut parseFile host config.common.selection formatted.disk :=
      ⟨files, hfiles, (rewriteLayoutFiles_passes hparser hrun)⟩
    refine ⟨?_, ?_, (hsame formatted.disk).mpr hlaidOut⟩
    · rw [codestyleFmt_check_ok hchecked rfl hrustfmt]
      exact hlaidOut
    · rw [codestyleCheck_ok hcheckArgs hclippy (by rw [hcommon, hrustfmt]), hcommon]
      exact hlaidOut

/-- A host where git lists one file, with two `mod` items that are too far apart. -/
theorem codestyleFmt_then_check_sample :
    let host : Host := {
      storage := ⟨fun _ => 0, fun _ _ => none⟩
      workspace := {
        currentDir := .ok (PathBuf.ofText "/work".toList)
        git := fun _ => .ok ⟨true, "src/a.rs\n".toList, []⟩
        pathExists := fun _ => true
        metadata := fun _ => .ok .file
        readDir := fun _ => .nil }
      rustfmt := fun _ _ disk => (.ok ⟨some 0, [], []⟩, disk)
      clippy := fun _ => .ok ⟨some 0, [], []⟩ }
    let disk : Disk := fun _ => .ok "mod a;\n\nmod b;\n".toList
    let formatted := codestyleFmt LineParser.parseFile host ["--no-rustfmt"] disk
    formatted.result = .ok () ∧
      (codestyleCheck LineParser.parseFile host ["--no-clippy", "--no-rustfmt"]
        formatted.disk).result = .ok () := by
  intro host disk formatted
  have hparser := LineParser.parseFile_contract
  have hargs : parseFormatArgs ["--no-rustfmt"] = .ok (.config ⟨⟨.all, false, false⟩, false⟩) := by
    rfl
  have hcheckArgs : parseCheckArgs ["--no-clippy", "--no-rustfmt"] =
      .ok (.config ⟨⟨.all, false, false⟩, false⟩) := by
    rfl
  have hresolve : ∃ files, resolveRustFiles host.workspace .all = .ok files := ⟨_, rfl⟩
  rcases hresolve with ⟨files, hfiles⟩
  have hparse : LineParser.parseFile "mod a;\n\nmod b;\n".toList =
      .ok ⟨[⟨.mod, 1, 1, .nil⟩, ⟨.mod, 3, 3, .nil⟩]⟩ := by rfl
  rcases exists_formatted hparser hparse with ⟨text, htext⟩
  have hrewritable : ∀ f ∈ files.map host.storage.file,
      Rewritable LineParser.parseFile host.storage disk f :=
    fun f _ => ⟨_, text, rfl, htext, fun _ => rfl⟩
  rcases (@rewriteLoop_succeeds _ _ hparser files disk 0).mpr hrewritable with ⟨n, disk', hrun⟩
  have hok : formatted.result = .ok () :=
    ((codestyleFmt_format_ok hargs rfl rfl).mpr ⟨files, hfiles, n, hrun⟩).1
  have hall := codestyleFmt_then_check hparser host hargs hcheckArgs rfl rfl rfl rfl disk
  exact ⟨hok, (hall.2.2 hok).2.1⟩

end Rlibc.Codestyle
