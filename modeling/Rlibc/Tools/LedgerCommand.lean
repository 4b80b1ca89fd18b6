import Rlibc.Foundations.Text
import Rlibc.Tools.Ledger

/-!
# The command line of `xfail_ledger`

`parse_args` walks over the arguments with an index.  An option may take its value from the token
behind it, from the one behind a `--`, or from behind an `=`.
-/

namespace Rlibc.Tools

open Text

inductive LedgerAction where
  | run (config : LedgerConfig)
  | help
deriving DecidableEq

/-- The variables of `parse_args`. -/
structure LedgerArgs where
  ledgerPath : Option (List Char)
  resultsPath : Option (List Char)
  seenLedgerArgument : Bool
  seenResultsArgument : Bool
  seenStrictXpassArgument : Bool
  strictXpass : Bool
  asOfDate : Option (List Char)

def defaultLedgerPath : List Char := "docs/conformance/xfail-ledger.csv".toList

def LedgerArgs.start : LedgerArgs where
  ledgerPath := some defaultLedgerPath
  resultsPath := none
  seenLedgerArgument := false
  seenResultsArgument := false
  seenStrictXpassArgument := false
  strictXpass := false
  asOfDate := none

def isOptionLikeToken (token : List Char) : Bool := token.head? = some '-' ∧ token ≠ ['-']

def isKnownOptionToken (token : List Char) : Bool :=
  token ∈ ["-h".toList, "--help".toList, "--ledger".toList, "--results".toList,
      "--strict-xpass".toList, "--as-of".toList] ∨
    "--ledger=".toList <+: token ∨ "--results=".toList <+: token ∨
      "--strict-xpass=".toList <+: token ∨ "--as-of=".toList <+: token

/-- The value in the token behind an option. -/
def requiredOptionValue (optionName : List Char) (value : List Char) :
    Except String (List Char) :=
  let missing := "missing value for " ++ String.ofList optionName
  if value = [] then .error (missing ++ ": empty value is not allowed")
  else if isOptionLikeToken value then
    .error (missing ++ ": token `" ++ String.ofList value ++ "` looks like an option; use " ++
      String.ofList optionName ++ "=<value> or " ++ String.ofList optionName ++
      " -- <value> for values starting with '-'")
  else if isKnownOptionToken value then .error missing
  else .ok value

/-- The value of an option from the tokens behind it, and how many of them it takes. -/
def splitOptionValue (optionName : List Char) :
    List (List Char) → Except String (Nat × List Char)
  | [] => .error ("missing value for " ++ String.ofList optionName)
  | value :: rest =>
    if value = "--".toList then
      match rest with
      | [] => .error ("missing value for " ++ String.ofList optionName ++
          ": option separator `--` must be followed by a value")
      | separatedValue :: _ =>
        if separatedValue = [] then
          .error ("missing value for " ++ String.ofList optionName ++
            ": empty value is not allowed")
        else .ok (2, separatedValue)
    else
      match requiredOptionValue optionName value with
      | .error message => .error message
      | .ok value => .ok (1, value)

/-- The value behind an `=`. -/
def equalsOptionValue (argument optionName : List Char) : Except String (List Char) :=
  match (optionName ++ ['=']).isPrefixOf? argument with
  | none => .error ("unknown argument: " ++ String.ofList argument)
  | some value =>
    if value = [] then
      .error ("missing value for " ++ String.ofList optionName ++ ": empty value is not allowed")
    else .ok value

/-- How one turn of the loop ends; `skip` is how far the index moves on over the next tokens. -/
inductive ArgTurn where
  | help
  | stop
  | next (s : LedgerArgs) (skip : Nat)

/-- An option that takes a value: whether it was seen, and what becomes of the value. -/
def takeValue (optionName : List Char) (seen : Bool)
    (store : List Char → Except String LedgerArgs)
    (value : Except String (Nat × List Char)) : Except String ArgTurn :=
  if seen then .error ("duplicate " ++ String.ofList optionName ++ " argument")
  else
    match value with
    | .error message => .error message
    | .ok (skip, value) =>
      match store value with
      | .error message => .error message
      | .ok s => .ok (.next s skip)

def LedgerArgs.storeLedger (s : LedgerArgs) (value : List Char) : Except String LedgerArgs :=
  .ok { s with ledgerPath := some value, seenLedgerArgument := true }

def LedgerArgs.storeResults (s : LedgerArgs) (value : List Char) : Except String LedgerArgs :=
  .ok { s with resultsPath := some value, seenResultsArgument := true }

def LedgerArgs.storeAsOf (s : LedgerArgs) (value : List Char) : Except String LedgerArgs :=
  match validateExpiresDate value with
  | .error error => .error ("invalid value for --as-of: " ++ error)
  | .ok () => .ok { s with asOfDate := some value }

/-- `--strict-xpass` looks at the tokens behind it, and leaves them. -/
def takeStrictXpass (s : LedgerArgs) (rest : List (List Char)) : Except String ArgTurn :=
  let noValue := "--strict-xpass does not take a value: "
  let empty := noValue ++ "empty value is not allowed"
  let next : Except String ArgTurn :=
    .ok (.next { s with strictXpass := true, seenStrictXpassArgument := true } 0)
  if s.seenStrictXpassArgument then .error "duplicate --strict-xpass argument"
  else
    match rest with
    | [] => next
    | token :: more =>
      if token = "--".toList then
        match more with
        | [] => next
        | value :: _ =>
          if value = [] then .error empty
          else .error (noValue ++ "`" ++ String.ofList value ++ "`")
      else if token = [] then .error empty
      else if ¬ isOptionLikeToken token then
        .error (noValue ++ "`" ++ String.ofList token ++ "`")
      else next

/-- One turn of the loop, with the tokens behind the argument. -/
def parseArgument (s : LedgerArgs) (argument : List Char) (rest : List (List Char)) :
    Except String ArgTurn :=
  if argument = "-h".toList ∨ argument = "--help".toList then .ok .help
  else if argument = "--".toList then
    match rest with
    | [] => .ok .stop
    | unknown :: _ => .error ("unknown argument: " ++ String.ofList unknown)
  else if argument = "--ledger".toList then
    takeValue "--ledger".toList s.seenLedgerArgument s.storeLedger
      (splitOptionValue "--ledger".toList rest)
  else if "--ledger=".toList <+: argument then
    takeValue "--ledger".toList s.seenLedgerArgument s.storeLedger
      ((equalsOptionValue argument "--ledger".toList).map fun value => (0, value))
  else if argument = "--results".toList then
    takeValue "--results".toList s.seenResultsArgument s.storeResults
      (splitOptionValue "--results".toList rest)
  else if "--results=".toList <+: argument then
    takeValue "--results".toList s.seenResultsArgument s.storeResults
      ((equalsOptionValue argument "--results".toList).map fun value => (0, value))
  else if "--strict-xpass=".toList <+: argument then
    match equalsOptionValue argument "--strict-xpass".toList with
    | .ok value =>
      .error ("--strict-xpass does not take a value: `" ++ String.ofList value ++ "`")
    -- the prefix is there, so that the value is empty
    | .error _ => .error "--strict-xpass does not take a value: empty value is not allowed"
  else if argument = "--strict-xpass".toList then takeStrictXpass s rest
  else if argument = "--as-of".toList then
    takeValue "--as-of".toList s.asOfDate.isSome s.storeAsOf
      (splitOptionValue "--as-of".toList rest)
  else if "--as-of=".toList <+: argument then
    takeValue "--as-of".toList s.asOfDate.isSome s.storeAsOf
      ((equalsOptionValue argument "--as-of".toList).map fun value => (0, value))
  else .error ("unknown argument: " ++ String.ofList argument)

/-- The loop; `skip` tokens have been read already.  No state is left when help was asked for. -/
def parseArgumentList : LedgerArgs → Nat → List (List Char) → Except String (Option LedgerArgs)
  | s, _, [] => .ok (some s)
  | s, skip + 1, _ :: rest => parseArgumentList s skip rest
  | s, 0, argument :: rest =>
    match parseArgument s argument rest with
    | .error message => .error message
    | .ok .help => .ok none
    | .ok .stop => .ok (some s)
    | .ok (.next s skip) => parseArgumentList s skip rest

def parseArgs (args : List (List Char)) : Except String LedgerAction :=
  match parseArgumentList .start 0 args with
  | .error message => .error message
  | .ok none => .ok .help
  | .ok (some s) =>
    match s.ledgerPath with
    | none => .error "missing --ledger"
    | some ledgerPath =>
      match s.resultsPath with
      | none => .error "missing --results"
      | some resultsPath => .ok (.run ⟨ledgerPath, resultsPath, s.strictXpass, s.asOfDate⟩)

/-- `run`; `readToString` reads a file, or says why it cannot. -/
def runLedger (readToString : List Char → Except String (List Char)) (args : List (List Char)) :
    Except String (Option Summary) :=
  match parseArgs args with
  | .error message => .error message
  | .ok .help => .ok none
  | .ok (.run config) =>
    match readToString config.ledgerPath with
    | .error error =>
      .error ("failed to read ledger " ++ String.ofList config.ledgerPath ++ ": " ++ error)
    | .ok ledgerText =>
      match readToString config.resultsPath with
      | .error error =>
        .error ("failed to read results " ++ String.ofList config.resultsPath ++ ": " ++ error)
      | .ok resultText =>
        match judge config ledgerText resultText with
        | .error message => .error message
        | .ok summary => .ok (some summary)

end Rlibc.Tools
