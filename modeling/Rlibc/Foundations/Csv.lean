import Mathlib.Data.List.Forall2
import Mathlib.Data.List.Count

/-!
# Comma-separated values

The texts that a writer of RFC 4180 may produce for a table: which fields it quotes, how it ends
its lines and where it leaves lines blank is its own choice.  Lines are counted from one by their
line feeds.
-/

namespace Csv

/-- Every quote twice. -/
def doubled : List Char → List Char
  | [] => []
  | c :: cs => if c = '"' then '"' :: '"' :: doubled cs else c :: doubled cs

/-- A field is written bare, or in quotes. -/
inductive FieldText (field : List Char) : List Char → Prop
  | bare (hcomma : ',' ∉ field) (hquote : '"' ∉ field) (hfeed : '\n' ∉ field) :
      FieldText field field
  | quoted : FieldText field ('"' :: doubled field ++ ['"'])

/-- The fields of a record, with commas between them. -/
inductive RecordText : List (List Char) → List Char → Prop
  | single {field text : List Char} (h : FieldText field text) : RecordText [field] text
  | cons {field text : List Char} {fields : List (List Char)} {rest : List Char}
      (h : FieldText field text) (hrest : RecordText fields rest) :
      RecordText (field :: fields) (text ++ ',' :: rest)

/-- A line feed, or a carriage return and a line feed. -/
inductive LineEnd : List Char → Prop
  | feed : LineEnd ['\n']
  | returnFeed : LineEnd ['\r', '\n']

/-- A text of a table that starts on a line, with the line on which each record starts. -/
inductive TableText : Nat → List (List (List Char) × Nat) → List Char → Prop
  | done {line : Nat} : TableText line [] []
  | blank {line : Nat} {records : List (List (List Char) × Nat)} {ending rest : List Char}
      (hending : LineEnd ending) (hrest : TableText (line + 1) records rest) :
      TableText line records (ending ++ rest)
  | record {line : Nat} {fields : List (List Char)} {text ending rest : List Char}
      {records : List (List (List Char) × Nat)} (hrecord : RecordText fields text)
      (hending : LineEnd ending)
      (hrest : TableText (line + text.count '\n' + 1) records rest) :
      TableText line ((fields, line) :: records) (text ++ ending ++ rest)
  | last {line : Nat} {fields : List (List Char)} {text : List Char}
      (hrecord : RecordText fields text) : TableText line [(fields, line)] text

theorem count_doubled (field : List Char) : (doubled field).count '\n' = field.count '\n' := by
  induction field with
  | nil => rfl
  | cons c cs ih =>
    rw [doubled]
    split
    · rename_i hc
      rw [hc]
      simpa using ih
    · rw [List.count_cons, List.count_cons, ih]

/-- The line feeds of a written field are its own. -/
theorem FieldText.count_feed {field text : List Char} (h : FieldText field text) :
    text.count '\n' = field.count '\n' := by
  cases h with
  | bare => rfl
  | quoted =>
    rw [List.cons_append, List.count_cons, List.count_append, count_doubled]
    rfl

end Csv
