import Rlibc.Codestyle.FileSelection

/-!
# The command lines of `codestyle_check` and `codestyle_fmt`

Both tools read their arguments in the same loop; each has one flag that the other does not know.
-/

namespace Rlibc.Codestyle

def checkHelpText : String :=
  "codestyle_check [--all | --staged | --path <PATH> ...] [--no-rustfmt] [--no-clippy] [--verbose]"

def formatHelpText : String :=
  "codestyle_fmt [--all | --staged | --path <PATH> ...] [--check] [--no-rustfmt] [--verbose]"

structure CommonArgs where
  selection : FileSelection
  runRustfmt : Bool
  verbose : Bool
deriving DecidableEq

structure CheckArgs where
  common : CommonArgs
  runClippy : Bool
deriving DecidableEq

structure FormatArgs where
  common : CommonArgs
  check : Bool
deriving DecidableEq

inductive ParseOutcome (T : Type) where
  | config (config : T)
  | help
deriving DecidableEq

inductive SelectionBuilder where
  | unset
  | all
  | staged
  | paths (paths : List String)
deriving DecidableEq

/-- The variables of the loop; `own` is whether the tool's own flag was there. -/
structure ParseState where
  selection : SelectionBuilder
  runRustfmt : Bool
  verbose : Bool
  own : Bool
deriving DecidableEq

def ParseState.start : ParseState where
  selection := .unset
  runRustfmt := true
  verbose := false
  own := false

def ensureSelectionSwitchable (selection : SelectionBuilder) (incoming : String) :
    Except String Unit :=
  let conflict := "selection argument " ++ incoming ++ " conflicts with previous selection"
  match selection with
  | .unset => .ok ()
  | .all => if incoming = "--all" then .ok () else .error conflict
  | .staged => if incoming = "--staged" then .ok () else .error conflict
  | .paths _ => .error (incoming ++ " cannot be combined with --path")

/-- The selection, and how many of the arguments behind are taken. -/
def applySelectionArgument (arg : String) (args : List String) (selection : SelectionBuilder) :
    Except String (SelectionBuilder × Nat) :=
  if arg = "--all" then
    match ensureSelectionSwitchable selection "--all" with
    | .error message => .error message
    | .ok () => .ok (.all, 0)
  else if arg = "--staged" then
    match ensureSelectionSwitchable selection "--staged" with
    | .error message => .error message
    | .ok () => .ok (.staged, 0)
  else if arg = "--path" then
    match args with
    | [] => .error "--path requires one argument"
    | value :: _ =>
      match selection with
      | .unset => .ok (.paths [value], 1)
      | .paths paths => .ok (.paths (paths ++ [value]), 1)
      | _ => .error "--path cannot be combined with --all or --staged"
  else .error ("unknown selection argument: " ++ arg)

def finalizeSelection : SelectionBuilder → Except String FileSelection
  | .unset => .ok .all
  | .all => .ok .all
  | .staged => .ok .staged
  | .paths paths =>
    if paths = [] then .error "--path requires at least one value" else .ok (.paths paths)

/-- The loop; `skip` arguments have been taken already.  No state is left when help was asked for.
-/
def parseLoop (ownFlag : String) :
    ParseState → Nat → List String → Except String (Option ParseState)
  | s, _, [] => .ok (some s)
  | s, skip + 1, _ :: args => parseLoop ownFlag s skip args
  | s, 0, arg :: args =>
    if arg = "--help" ∨ arg = "-h" then .ok none
    else if arg = "--all" ∨ arg = "--staged" ∨ arg = "--path" then
      match applySelectionArgument arg args s.selection with
      | .error message => .error message
      | .ok (selection, skip) => parseLoop ownFlag { s with selection := selection } skip args
    else if arg = ownFlag then parseLoop ownFlag { s with own := true } 0 args
    else if arg = "--no-rustfmt" then parseLoop ownFlag { s with runRustfmt := false } 0 args
    else if arg = "--verbose" then parseLoop ownFlag { s with verbose := true } 0 args
    else .error ("unknown argument: " ++ arg)

/-- The arguments that both tools have, and whether the tool's own flag was there. -/
def parseArgs (ownFlag : String) (args : List String) :
    Except String (ParseOutcome (CommonArgs × Bool)) :=
  match parseLoop ownFlag .start 0 args with
  | .error message => .error message
  | .ok none => .ok .help
  | .ok (some s) =>
    match finalizeSelection s.selection with
    | .error message => .error message
    | .ok selection => .ok (.config (⟨selection, s.runRustfmt, s.verbose⟩, s.own))

def parseCheckArgs (args : List String) : Except String (ParseOutcome CheckArgs) :=
  match parseArgs "--no-clippy" args with
  | .error message => .error message
  | .ok .help => .ok .help
  | .ok (.config (common, own)) => .ok (.config ⟨common, !own⟩)

def parseFormatArgs (args : List String) : Except String (ParseOutcome FormatArgs) :=
  match parseArgs "--check" args with
  | .error message => .error message
  | .ok .help => .ok .help
  | .ok (.config (common, own)) => .ok (.config ⟨common, own⟩)

/-! ## Longer command lines -/

/-- Only `--path` takes an argument. -/
theorem switched_snd {check : Except String Unit} {selection : SelectionBuilder}
    {result : SelectionBuilder × Nat}
    (h : (match check with
      | .error message => .error message
      | .ok () => .ok (selection, 0)) = Except.ok result) : result.2 = 0 := by
  cases check with
  | error message => cases h
  | ok _ => rw [← Except.ok.inj h]

/-- Only the values that are taken are looked at. -/
theorem applySelectionArgument_append {arg : String} {args : List String}
    {selection : SelectionBuilder} {result : SelectionBuilder × Nat}
    (h : applySelectionArgument arg args selection = .ok result) (more : List String) :
    applySelectionArgument arg (args ++ more) selection = .ok result ∧
      result.2 ≤ args.length := by
  unfold applySelectionArgument at h ⊢
  by_cases hall : arg = "--all"
  · rw [if_pos hall] at h ⊢
    rw [switched_snd h]
    exact ⟨h, Nat.zero_le _⟩
  rw [if_neg hall] at h ⊢
  by_cases hstaged : arg = "--staged"
  · rw [if_pos hstaged] at h ⊢
    rw [switched_snd h]
    exact ⟨h, Nat.zero_le _⟩
  rw [if_neg hstaged] at h ⊢
  by_cases hpath : arg = "--path"
  · rw [if_pos hpath] at h ⊢
    cases args with
    | nil => cases h
    | cons value args =>
      refine ⟨h, ?_⟩
      show _ ≤ args.length + 1
      cases selection with
      | all => cases h
      | staged => cases h
      | unset =>
        cases h
        exact Nat.le_add_left _ _
      | paths paths =>
        cases h
        exact Nat.le_add_left _ _
  · rw [if_neg hpath] at h
    cases h

/-- A command line that is read to its end can be followed by another one. -/
theorem parseLoop_append {ownFlag : String} {args : List String} :
    ∀ {s s' : ParseState} {skip : Nat}, skip ≤ args.length →
      parseLoop ownFlag s skip args = .ok (some s') → ∀ more : List String,
      parseLoop ownFlag s skip (args ++ more) = parseLoop ownFlag s' 0 more := by
  induction args with
  | nil =>
    intro s s' skip hskip h more
    rw [Nat.le_zero.mp hskip] at h ⊢
    cases h
    rfl
  | cons arg args ih =>
    intro s s' skip hskip h more
    cases skip with
    | succ skip => exact ih (Nat.le_of_succ_le_succ hskip) h more
    | zero =>
      rw [List.cons_append]
      rw [parseLoop] at h ⊢
      by_cases hhelp : arg = "--help" ∨ arg = "-h"
      · rw [if_pos hhelp] at h
        cases h
      rw [if_neg hhelp] at h ⊢
      by_cases hselection : arg = "--all" ∨ arg = "--staged" ∨ arg = "--path"
      · rw [if_pos hselection] at h ⊢
        cases happly : applySelectionArgument arg args s.selection with
        | error message =>
          rw [happly] at h
          cases h
        | ok result =>
          have hresult := applySelectionArgument_append happly more
          rw [happly] at h
          rw [hresult.1]
          exact ih hresult.2 h more
      rw [if_neg hselection] at h ⊢
      by_cases hown : arg = ownFlag
      · rw [if_pos hown] at h ⊢
        exact ih (Nat.zero_le _) h more
      rw [if_neg hown] at h ⊢
      by_cases hrustfmt : arg = "--no-rustfmt"
      · rw [if_pos hrustfmt] at h ⊢
        exact ih (Nat.zero_le _) h more
      rw [if_neg hrustfmt] at h ⊢
      by_cases hverbose : arg = "--verbose"
      · rw [if_pos hverbose] at h ⊢
        exact ih (Nat.zero_le _) h more
      · rw [if_neg hverbose] at h
        cases h

/-- `--check` behind a command line of the formatter. -/
theorem parseFormatArgs_check {args : List String} {config : FormatArgs}
    (h : parseFormatArgs args = .ok (.config config)) :
    parseFormatArgs (args ++ ["--check"]) = .ok (.config { config with check := true }) := by
  unfold parseFormatArgs parseArgs at h ⊢
  cases hloop : parseLoop "--check" .start 0 args with
  | error message =>
    rw [hloop] at h
    cases h
  | ok state =>
    rw [hloop] at h
    cases state with
    | none => cases h
    | some s =>
      rw [parseLoop_append (Nat.zero_le _) hloop]
      dsimp only at h
      show (match (match finalizeSelection s.selection with
        | .error message => _
        | .ok selection => _ : Except String (ParseOutcome (CommonArgs × Bool))) with
        | .error message => _
        | .ok .help => _
        | .ok (.config (common, own)) => _) = _
      cases hselection : finalizeSelection s.selection with
      | error message =>
        rw [hselection] at h
        cases h
      | ok selection =>
        rw [hselection] at h
        cases h
        rfl

end Rlibc.Codestyle
