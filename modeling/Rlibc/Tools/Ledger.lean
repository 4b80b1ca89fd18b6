import Rlibc.Foundations.TextLines
import Rlibc.System.CpuList
import Rlibc.Tools.CsvRecords

/-!
# The ledger of expected failures

`xfail_ledger` reads the ledger of the failures that are expected and the results of a test run,
both CSV tables, and passes judgement on the run.  A failure that the ledger lists is an `xfail`,
a success that it lists an `xpass`.  The files come from the function `readToString`.
-/

namespace Rlibc.Tools

open Text TextLines

structure CaseKey where
  suite : List Char
  caseId : List Char
  target : List Char
deriving DecidableEq

inductive RawStatus where
  | pass
  | fail
  | skip
  | timeout
deriving DecidableEq

inductive FinalStatus where
  | pass
  | fail
  | skip
  | timeout
  | xFail
  | xPass
deriving DecidableEq

structure LedgerEntry where
  key : CaseKey
  reason : List Char
  expires : Option (List Char)
deriving DecidableEq

structure RawResult where
  key : CaseKey
  status : RawStatus
deriving DecidableEq

structure ClassifiedResult where
  key : CaseKey
  status : FinalStatus
deriving DecidableEq

structure Summary where
  pass : Nat
  fail : Nat
  skip : Nat
  timeout : Nat
  xfail : Nat
  xpass : Nat
deriving DecidableEq

structure LedgerConfig where
  ledgerPath : List Char
  resultsPath : List Char
  strictXpass : Bool
  asOfDate : Option (List Char)
deriving DecidableEq

/-- `{suite}/{case}/{target}` -/
def CaseKey.display (key : CaseKey) : String :=
  String.ofList key.suite ++ "/" ++ String.ofList key.caseId ++ "/" ++ String.ofList key.target

def ledgerHeader : List (List Char) :=
  ["suite".toList, "case".toList, "target".toList, "reason".toList, "expires".toList]

def resultHeader : List (List Char) :=
  ["suite".toList, "case".toList, "target".toList, "status".toList]

/-! ## Dates -/

def isLeapYear (year : Nat) : Bool := (year % 4 = 0 ∧ ¬ year % 100 = 0) ∨ year % 400 = 0

def daysInMonth (year month : Nat) : Nat :=
  match month with
  | 1 | 3 | 5 | 7 | 8 | 10 | 12 => 31
  | 4 | 6 | 9 | 11 => 30
  | 2 => if isLeapYear year then 29 else 28
  | _ => 0

/-- The numbers have two or four digits here, so that reading them does not fail. -/
def validateExpiresDate (text : List Char) : Except String Unit :=
  match text.splitOn '-' with
  | [year, month, day] =>
    if byteLen year ≠ 4 ∨ byteLen month ≠ 2 ∨ byteLen day ≠ 2 then .error "expected YYYY-MM-DD"
    else if ¬ year.all System.isAsciiDigit ∨ ¬ month.all System.isAsciiDigit ∨
        ¬ day.all System.isAsciiDigit then
      .error "expected YYYY-MM-DD digits"
    else
      let monthValue := System.numeralValue month
      let dayValue := System.numeralValue day
      let yearValue := System.numeralValue year
      if ¬ (1 ≤ monthValue ∧ monthValue ≤ 12) then .error "month must be in 01..12"
      else
        let maxDay := daysInMonth yearValue monthValue
        if dayValue = 0 ∨ maxDay < dayValue then
          .error ("day must be in 01.." ++ toString maxDay)
        else .ok ()
  | _ => .error "expected YYYY-MM-DD"

/-! ## Tables -/

def headerMatches (fields expected : List (List Char)) : Bool :=
  fields.length = expected.length ∧
    (fields.zip expected).all fun pair => trim pair.1 = pair.2

/-- The loop over the records behind the header; `keys` are those inserted so far. -/
def readRows {α : Type} (key : α → CaseKey)
    (readRow : CsvRecord → List CaseKey → Except String α) :
    List CsvRecord → List CaseKey → Except String (List α)
  | [], _ => .ok []
  | record :: records, keys =>
    match readRow record keys with
    | .error message => .error message
    | .ok row =>
      match readRows key readRow records (key row :: keys) with
      | .error message => .error message
      | .ok rows => .ok (row :: rows)

/-- What `parse_ledger_csv` and `parse_results_csv` have in common: the name of the table and its
header, and how a row is read. -/
def parseTable {α : Type} (name : String) (header : List (List Char)) (headerText : String)
    (key : α → CaseKey) (readRow : CsvRecord → List CaseKey → Except String α)
    (input : List Char) : Except String (List α) :=
  if trim input = [] then .error (name ++ " file is empty")
  else
    match parseCsvRecords input with
    | .error message => .error ("invalid " ++ name ++ " CSV: " ++ message)
    | .ok [] => .error (name ++ " file is empty")
    | .ok (headerRecord :: dataRecords) =>
      if ¬ headerMatches headerRecord.fields header then
        .error (name ++ " CSV header must be " ++ headerText)
      else readRows key readRow dataRecords []

def readLedgerRow (record : CsvRecord) (keys : List CaseKey) : Except String LedgerEntry :=
  match record.fields with
  | [suite, caseId, target, reason, expires] =>
    let suite := trim suite
    let caseId := trim caseId
    let target := trim target
    let reason := trim reason
    let expires := trim expires
    if suite = [] ∨ caseId = [] ∨ target = [] ∨ reason = [] then
      .error ("ledger line " ++ toString record.lineNo ++
        " must provide suite/case/target/reason")
    else
      let key : CaseKey := ⟨suite, caseId, target⟩
      if key ∈ keys then
        .error ("duplicate ledger key at line " ++ toString record.lineNo ++ ": " ++ key.display)
      else if expires = [] then .ok ⟨key, reason, none⟩
      else
        match validateExpiresDate expires with
        | .error error =>
          .error ("ledger line " ++ toString record.lineNo ++ " invalid expires: " ++ error)
        | .ok () => .ok ⟨key, reason, some expires⟩
  | _ => .error ("ledger line " ++ toString record.lineNo ++ " must have 5 CSV fields")

def parseLedgerCsv : List Char → Except String (List LedgerEntry) :=
  parseTable "ledger" ledgerHeader "suite,case,target,reason,expires" LedgerEntry.key readLedgerRow

/-- `str::eq_ignore_ascii_case` in turn. -/
def parseRawStatus (status : List Char) : Option RawStatus :=
  if eqIgnoreAsciiCase status "pass".toList then some .pass
  else if eqIgnoreAsciiCase status "fail".toList then some .fail
  else if eqIgnoreAsciiCase status "skip".toList then some .skip
  else if eqIgnoreAsciiCase status "timeout".toList then some .timeout
  else none

def readResultRow (record : CsvRecord) (keys : List CaseKey) : Except String RawResult :=
  match record.fields with
  | [suite, caseId, target, rawStatus] =>
    let suite := trim suite
    let caseId := trim caseId
    let target := trim target
    let rawStatus := trim rawStatus
    if suite = [] ∨ caseId = [] ∨ target = [] then
      .error ("result line " ++ toString record.lineNo ++ " must provide suite/case/target")
    else
      let key : CaseKey := ⟨suite, caseId, target⟩
      if key ∈ keys then
        .error ("duplicate result key at line " ++ toString record.lineNo ++ ": " ++ key.display)
      else
        match parseRawStatus rawStatus with
        | none =>
          .error ("result line " ++ toString record.lineNo ++ " has unknown status: " ++
            String.ofList rawStatus)
        | some status => .ok ⟨key, status⟩
  | _ => .error ("result line " ++ toString record.lineNo ++ " must have 4 CSV fields")

def parseResultsCsv : List Char → Except String (List RawResult) :=
  parseTable "result" resultHeader "suite,case,target,status" RawResult.key readResultRow

/-! ## The judgement -/

def rawStatusToFinal : RawStatus → FinalStatus
  | .pass => .pass
  | .fail => .fail
  | .skip => .skip
  | .timeout => .timeout

/-- The keys of `xfail_keys`, or the entry that repeats one. -/
def xfailKeys : List LedgerEntry → List CaseKey → Except String (List CaseKey)
  | [], keys => .ok keys
  | entry :: ledger, keys =>
    if entry.key ∈ keys then
      .error ("duplicate ledger key in classify input: " ++ entry.key.display)
    else xfailKeys ledger (entry.key :: keys)

def classifyResult (keys : List CaseKey) (raw : RawResult) : ClassifiedResult where
  key := raw.key
  status :=
    if raw.key ∈ keys then
      match raw.status with
      | .pass => .xPass
      | .fail => .xFail
      | .skip => .skip
      | .timeout => .timeout
    else rawStatusToFinal raw.status

def classifyResults (ledger : List LedgerEntry) (rawResults : List RawResult) :
    Except String (List ClassifiedResult) :=
  if rawResults = [] then .error "cannot classify empty results"
  else
    match xfailKeys ledger [] with
    | .error message => .error message
    | .ok keys => .ok (rawResults.map (classifyResult keys))

def Summary.empty : Summary := ⟨0, 0, 0, 0, 0, 0⟩

def Summary.add (summary : Summary) (result : ClassifiedResult) : Summary :=
  match result.status with
  | .pass => { summary with pass := summary.pass + 1 }
  | .fail => { summary with fail := summary.fail + 1 }
  | .skip => { summary with skip := summary.skip + 1 }
  | .timeout => { summary with timeout := summary.timeout + 1 }
  | .xFail => { summary with xfail := summary.xfail + 1 }
  | .xPass => { summary with xpass := summary.xpass + 1 }

def summarize (results : List ClassifiedResult) : Summary := results.foldl Summary.add .empty

/-- Dates are compared as strings. -/
def collectExpiredEntries (ledger : List LedgerEntry) (asOfDate : List Char) : List LedgerEntry :=
  ledger.filter fun entry => entry.expires.any fun expires => expires < asOfDate

/-- The entries that `run` takes to be expired: none when no date was given. -/
def expiredEntries (config : LedgerConfig) (ledger : List LedgerEntry) : List LedgerEntry :=
  match config.asOfDate with
  | none => []
  | some asOfDate => collectExpiredEntries ledger asOfDate

/-- What `run` does with the tables, once the command line is read. -/
def judge (config : LedgerConfig) (ledgerText resultText : List Char) : Except String Summary :=
  match parseLedgerCsv ledgerText with
  | .error message => .error message
  | .ok ledger =>
    match expiredEntries config ledger with
    | first :: more =>
      .error ("expired xfail entries are present for as-of " ++
        String.ofList (config.asOfDate.getD []) ++ ": " ++ first.key.display ++
        " (+" ++ toString more.length ++ " more)")
    | [] =>
      match parseResultsCsv resultText with
      | .error message => .error message
      | .ok rawResults =>
        match classifyResults ledger rawResults with
        | .error message => .error message
        | .ok classified =>
          let summary := summarize classified
          if summary.fail > 0 then .error "non-xfail failures are present"
          else if config.strictXpass ∧ summary.xpass > 0 then
            .error ("strict-xpass mode: xpass cases are present: " ++
              ((classified.find? fun result => result.status = .xPass).elim
                "<unknown>/<unknown>/<unknown>" fun result => result.key.display) ++
              " (+" ++ toString (summary.xpass - 1) ++ " more)")
          else .ok summary

end Rlibc.Tools
