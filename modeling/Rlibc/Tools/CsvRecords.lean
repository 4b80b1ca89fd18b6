import Rlibc.Foundations.Csv
import Rlibc.Foundations.Text

/-!
# Reading the ledgers

The expected failures of the conformance tests are kept as CSV.  `parse_csv_records` reads such a
file one character at a time, looking one character ahead.
-/

namespace Rlibc.Tools

open Csv Text

structure CsvRecord where
  fields : List (List Char)
  lineNo : Nat
deriving DecidableEq

def isBlankRecord (fields : List (List Char)) : Bool :=
  fields.length = 1 ∧ (fields.head?.map trim) = some []

/-- The variables of `parse_csv_records`. -/
structure CsvState where
  records : List CsvRecord
  fields : List (List Char)
  field : List Char
  inQuotes : Bool
  justClosedQuote : Bool
  lineNo : Nat
  recordLineNo : Nat

def CsvState.start : CsvState where
  records := []
  fields := []
  field := []
  inQuotes := false
  justClosedQuote := false
  lineNo := 1
  recordLineNo := 1

/-- `char::is_ascii_whitespace`. -/
def isAsciiSpace (c : Char) : Bool := c = ' ' ∨ c = '\t' ∨ c = '\n' ∨ c.toNat = 12 ∨ c = '\r'

/-- `field.push(c)`. -/
def CsvState.push (s : CsvState) (c : Char) : CsvState := { s with field := s.field ++ [c] }

/-- A line feed inside quotes. -/
def CsvState.pushFeed (s : CsvState) : CsvState :=
  { s with field := s.field ++ ['\n'], lineNo := s.lineNo + 1 }

/-- The end of a record at a line feed. -/
def CsvState.endRecord (s : CsvState) : CsvState :=
  let fields := s.fields ++ [s.field]
  { records := if isBlankRecord fields then s.records else s.records ++ [⟨fields, s.recordLineNo⟩]
    fields := []
    field := []
    inQuotes := s.inQuotes
    justClosedQuote := false
    lineNo := s.lineNo + 1
    recordLineNo := s.lineNo + 1 }

/-- One turn of the loop over a character and the one after it; the flag says that this one is
consumed as well. -/
def CsvState.step (s : CsvState) (ch : Char) (peek : Option Char) :
    Except String (CsvState × Bool) :=
  if s.inQuotes then
    if ch = '"' then
      if peek = some '"' then .ok (s.push '"', true)
      else .ok ({ s with inQuotes := false, justClosedQuote := true }, false)
    else if ch = '\r' then
      if peek = some '\n' then .ok (s.pushFeed, true)
      else .ok (s.push '\r', false)
    else if ch = '\n' then .ok (s.pushFeed, false)
    else .ok (s.push ch, false)
  else if ch = ',' then
    .ok ({ s with fields := s.fields ++ [s.field], field := [], justClosedQuote := false }, false)
  else if ch = '\n' then .ok (s.endRecord, false)
  else if ch = '\r' ∧ peek = some '\n' then .ok (s, false)
  else if ch = '"' then
    if s.field = [] ∧ ¬ s.justClosedQuote then .ok ({ s with inQuotes := true }, false)
    else .error ("line " ++ toString s.lineNo ++ ": quote must start at beginning of field")
  else if s.justClosedQuote then
    if ¬ isAsciiSpace ch then
      .error ("line " ++ toString s.lineNo ++ ": unexpected character after quoted field")
    else .ok (s, false)
  else .ok (s.push ch, false)

/-- The loop; `consumed` says that the next character has been read already. -/
def parseCsvChars : CsvState → Bool → List Char → Except String CsvState
  | s, _, [] => .ok s
  | s, true, _ :: chars => parseCsvChars s false chars
  | s, false, ch :: chars =>
    match s.step ch chars.head? with
    | .error message => .error message
    | .ok (s, consumed) => parseCsvChars s consumed chars

/-- What follows the loop. -/
def CsvState.finish (s : CsvState) : Except String (List CsvRecord) :=
  if s.inQuotes then
    .error ("line " ++ toString s.recordLineNo ++ ": unterminated quoted field")
  else
    let fields := s.fields ++ [s.field]
    if isBlankRecord fields then .ok s.records
    else .ok (s.records ++ [⟨fields, s.recordLineNo⟩])

def parseCsvRecords (input : List Char) : Except String (List CsvRecord) :=
  match parseCsvChars CsvState.start false input with
  | .error message => .error message
  | .ok s => s.finish

/-! ## Reading a field -/

theorem parseCsvChars_step {s s' : CsvState} {ch : Char} {chars : List Char} {consumed : Bool}
    (h : s.step ch chars.head? = .ok (s', consumed)) :
    parseCsvChars s false (ch :: chars) = parseCsvChars s' consumed chars := by
  rw [parseCsvChars, h]

/-- Outside of quotes, the characters of a bare field are pushed. -/
theorem parseCsvChars_bare {s : CsvState} {field : List Char} (rest : List Char)
    (hout : s.inQuotes = false) (hopen : s.justClosedQuote = false) (hcomma : ',' ∉ field)
    (hquote : '"' ∉ field) (hfeed : '\n' ∉ field) (hreturn : '\r' ∉ field) :
    parseCsvChars s false (field ++ rest) =
      parseCsvChars { s with field := s.field ++ field } false rest := by
  induction field generalizing s with
  | nil => rw [List.nil_append, List.append_nil]
  | cons c field ih =>
    rw [List.mem_cons, not_or] at hcomma hquote hfeed hreturn
    have hstep : s.step c (field ++ rest).head? = .ok (s.push c, false) := by
      unfold CsvState.step
      rw [if_neg (by simp [hout]), if_neg (fun h => hcomma.1 h.symm),
        if_neg (fun h => hfeed.1 h.symm), if_neg (fun h => hreturn.1 h.1.symm),
        if_neg (fun h => hquote.1 h.symm), if_neg (by simp [hopen])]
    rw [List.cons_append, parseCsvChars_step hstep,
      ih (s := s.push c) hout hopen hcomma.2 hquote.2 hfeed.2 hreturn.2]
    unfold CsvState.push
    rw [List.append_assoc]
    rfl

/-- In quotes, the characters of a field are pushed, line feeds are counted, and a quote that is
not doubled closes the field. -/
theorem parseCsvChars_quoted {s : CsvState} {field rest : List Char} (hin : s.inQuotes = true)
    (hreturn : '\r' ∉ field) (hrest : rest.head? ≠ some '"') :
    parseCsvChars s false (doubled field ++ '"' :: rest) =
      parseCsvChars
        { s with
          field := s.field ++ field
          inQuotes := false
          justClosedQuote := true
          lineNo := s.lineNo + field.count '\n' } false rest := by
  -- Induction on the field; a quote in it is doubled and takes two characters of the text.
  induction field generalizing s with
  | nil =>
    have hstep : s.step '"' rest.head? =
        .ok ({ s with inQuotes := false, justClosedQuote := true }, false) := by
      unfold CsvState.step
      rw [if_pos hin, if_pos rfl, if_neg hrest]
    rw [doubled, List.nil_append, parseCsvChars_step hstep, List.append_nil]
    rfl
  | cons c field ih =>
    rw [List.mem_cons, not_or] at hreturn
    by_cases hc : c = '"'
    · have hstep : s.step '"' ('"' :: (doubled field ++ '"' :: rest)).head? =
          .ok (s.push '"', true) := by
        unfold CsvState.step
        rw [if_pos hin, if_pos rfl, List.head?_cons, if_pos rfl]
      rw [doubled, if_pos hc, hc, List.cons_append, List.cons_append, parseCsvChars_step hstep,
        parseCsvChars, ih (s := s.push '"') hin hreturn.2]
      unfold CsvState.push
      rw [List.append_assoc]
      rfl
    · by_cases hfeed : c = '\n'
      · have hstep : s.step c (doubled field ++ '"' :: rest).head? =
            .ok (s.pushFeed, false) := by
          unfold CsvState.step
          rw [if_pos hin, if_neg hc, if_neg (fun h => hreturn.1 h.symm), if_pos hfeed]
        rw [doubled, if_neg hc, List.cons_append, parseCsvChars_step hstep,
          ih (s := s.pushFeed) hin hreturn.2, hfeed]
        unfold CsvState.pushFeed
        rw [List.append_assoc, List.count_cons_self]
        dsimp only
        rw [Nat.add_assoc, Nat.add_comm 1]
        rfl
      · have hstep : s.step c (doubled field ++ '"' :: rest).head? = .ok (s.push c, false) := by
          unfold CsvState.step
          rw [if_pos hin, if_neg hc, if_neg (fun h => hreturn.1 h.symm), if_neg hfeed]
        rw [doubled, if_neg hc, List.cons_append, parseCsvChars_step hstep,
          ih (s := s.push c) hin hreturn.2]
        unfold CsvState.push
        rw [List.append_assoc, List.count_cons_of_ne hfeed]
        rfl

/-- The state in front of a field. -/
structure CsvState.AtField (s : CsvState) : Prop where
  field : s.field = []
  inQuotes : s.inQuotes = false
  justClosedQuote : s.justClosedQuote = false

/-- The state behind a field. -/
def CsvState.afterField (s : CsvState) (field : List Char) (closed : Bool) (feeds : Nat) :
    CsvState :=
  { s with field := field, justClosedQuote := closed, lineNo := s.lineNo + feeds }

/-- A field is read whichever way it is written. -/
theorem parseCsvChars_field {s : CsvState} {field text rest : List Char}
    (h : FieldText field text) (hs : s.AtField) (hreturn : '\r' ∉ field)
    (hrest : rest.head? ≠ some '"') :
    ∃ closed, parseCsvChars s false (text ++ rest) =
      parseCsvChars (s.afterField field closed (text.count '\n')) false rest := by
  cases h with
  | bare hcomma hquote hfeed =>
    refine ⟨false, ?_⟩
    have hcount : field.count '\n' = 0 := List.count_eq_zero.mpr hfeed
    rw [parseCsvChars_bare rest hs.inQuotes hs.justClosedQuote hcomma hquote hfeed hreturn, hs.field,
      List.nil_append]
    unfold CsvState.afterField
    rw [hcount, Nat.add_zero, ← hs.justClosedQuote]
  | quoted =>
    refine ⟨true, ?_⟩
    have hopen : s.step '"' (doubled field ++ '"' :: rest).head? =
        .ok ({ s with inQuotes := true }, false) := by
      unfold CsvState.step
      rw [if_neg (by simp [hs.inQuotes]), if_neg (by decide), if_neg (by decide),
        if_neg (fun h => absurd h.1 (by decide)), if_pos rfl,
        if_pos ⟨hs.field, by simp [hs.justClosedQuote]⟩]
    have hfeeds : ('"' :: doubled field ++ ['"']).count '\n' = field.count '\n' :=
      FieldText.quoted.count_feed
    rw [hfeeds, List.append_assoc, List.cons_append, List.singleton_append,
      parseCsvChars_step hopen, parseCsvChars_quoted rfl hreturn hrest]
    unfold CsvState.afterField
    rw [hs.field, List.nil_append, ← hs.inQuotes]

/-- A comma ends a field. -/
theorem parseCsvChars_comma {s : CsvState} (chars : List Char) (hout : s.inQuotes = false) :
    parseCsvChars s false (',' :: chars) =
      parseCsvChars
        { s with fields := s.fields ++ [s.field], field := [], justClosedQuote := false } false
        chars := by
  apply parseCsvChars_step
  unfold CsvState.step
  rw [if_neg (by simp [hout]), if_pos rfl]

/-- Outside of quotes, both line ends end the record. -/
theorem parseCsvChars_lineEnd {s : CsvState} {ending : List Char} (rest : List Char)
    (hending : LineEnd ending) (hout : s.inQuotes = false) :
    parseCsvChars s false (ending ++ rest) = parseCsvChars s.endRecord false rest := by
  have hfeed : parseCsvChars s false ('\n' :: rest) = parseCsvChars s.endRecord false rest := by
    apply parseCsvChars_step
    unfold CsvState.step
    rw [if_neg (by simp [hout]), if_neg (by decide), if_pos rfl]
  cases hending with
  | feed => exact hfeed
  | returnFeed =>
    have hskip : s.step '\r' ('\n' :: rest).head? = .ok (s, false) := by
      unfold CsvState.step
      rw [if_neg (by simp [hout]), if_neg (by decide), if_neg (by decide), if_pos ⟨rfl, rfl⟩]
    exact (parseCsvChars_step hskip).trans hfeed

/-- A record is read up to the end of its last field. -/
theorem parseCsvChars_record {s : CsvState} {fields : List (List Char)} {text rest : List Char}
    (h : RecordText fields text) (hs : s.AtField) (hreturn : ∀ field ∈ fields, '\r' ∉ field)
    (hrest : rest.head? ≠ some '"') :
    ∃ init last closed, fields = init ++ [last] ∧
      parseCsvChars s false (text ++ rest) =
        parseCsvChars (({ s with fields := s.fields ++ init } : CsvState).afterField last closed
          (text.count '\n')) false rest := by
  induction h generalizing s with
  | @single field text h =>
    cases parseCsvChars_field h hs (hreturn field List.mem_cons_self) hrest with
    | intro closed hread =>
      refine ⟨[], field, closed, rfl, ?_⟩
      rw [hread, List.append_nil]
  | @cons field text fields others h _ ih =>
    have hcomma : (',' :: (others ++ rest)).head? ≠ some '"' := by
      rw [List.head?_cons]
      decide
    cases parseCsvChars_field h hs (hreturn field List.mem_cons_self) hcomma with
    | intro closed hread =>
      have hnext := ih
        (s := { s with
          fields := s.fields ++ [field]
          field := []
          justClosedQuote := false
          lineNo := s.lineNo + text.count '\n' })
        ⟨rfl, hs.inQuotes, rfl⟩ fun f hf => hreturn f (List.mem_cons_of_mem field hf)
      rcases hnext with ⟨init, last, closed', hfields, hrecord⟩
      refine ⟨field :: init, last, closed', by rw [hfields, List.cons_append], ?_⟩
      rw [List.append_assoc, List.cons_append, hread]
      have hend := parseCsvChars_comma (s := s.afterField field closed (text.count '\n'))
        (others ++ rest) hs.inQuotes
      refine (hend.trans hrecord).trans ?_
      unfold CsvState.afterField
      rw [List.count_append, List.count_cons_of_ne (by decide), List.append_assoc,
        Nat.add_assoc]
      rfl

/-! ## Reading a table -/

/-- The state in front of a line. -/
structure CsvState.AtLine (s : CsvState) (line : Nat) : Prop extends s.AtField where
  fields : s.fields = []
  lineNo : s.lineNo = line
  recordLineNo : s.recordLineNo = line

theorem isBlankRecord_of_two {fields : List (List Char)} (h : 2 ≤ fields.length) :
    isBlankRecord fields = false := by
  apply decide_eq_false
  intro hblank
  omega

/-- A line end in front of anything is a blank line. -/
theorem CsvState.AtLine.endRecord_blank {s : CsvState} {line : Nat} (hs : s.AtLine line) :
    s.endRecord.AtLine (line + 1) ∧ s.endRecord.records = s.records := by
  have hblank : isBlankRecord (s.fields ++ [s.field]) = true := by
    rw [hs.fields, hs.field]
    decide
  have hnext : s.lineNo + 1 = line + 1 := by rw [hs.lineNo]
  refine ⟨⟨⟨rfl, hs.inQuotes, rfl⟩, rfl, hnext, hnext⟩, ?_⟩
  unfold CsvState.endRecord
  exact if_pos hblank

/-- The records that a writer wrote. -/
def csvRecords (records : List (List (List Char) × Nat)) : List CsvRecord :=
  records.map fun record => ⟨record.1, record.2⟩

/-- **Reading.**  From the front of a line, a table is read record by record. -/
theorem parseCsvChars_table {line : Nat} {records : List (List (List Char) × Nat)}
    {text : List Char} (h : TableText line records text)
    (hfields : ∀ record ∈ records, 2 ≤ record.1.length ∧ ∀ field ∈ record.1, '\r' ∉ field)
    {s : CsvState} (hs : s.AtLine line) :
    ∃ s', parseCsvChars s false text = .ok s' ∧
      s'.finish = .ok (s.records ++ csvRecords records) := by
  -- Induction on the table, with the parser at the start of a line in between.
  induction h generalizing s with
  | done =>
    refine ⟨s, by rw [parseCsvChars], ?_⟩
    have hblank : isBlankRecord (s.fields ++ [s.field]) = true := by
      rw [hs.fields, hs.field]
      decide
    unfold CsvState.finish
    rw [if_neg (by simp [hs.inQuotes])]
    dsimp only
    rw [if_pos hblank]
    exact congrArg Except.ok (List.append_nil s.records).symm
  | @blank line records ending rest hending _ ih =>
    have hblank := hs.endRecord_blank
    rw [parseCsvChars_lineEnd rest hending hs.inQuotes, ← hblank.2]
    exact ih hfields hblank.1
  | @record line fields text ending rest records hrecord hending _ ih =>
    have hthis := hfields _ List.mem_cons_self
    have hhead : (ending ++ rest).head? ≠ some '"' := by
      cases hending with
      | feed => exact fun h => absurd (Option.some.inj h) (by decide)
      | returnFeed => exact fun h => absurd (Option.some.inj h) (by decide)
    rcases parseCsvChars_record hrecord hs.toAtField hthis.2 hhead with
      ⟨init, last, closed, hsplit, hread⟩
    have hline := parseCsvChars_lineEnd (s := ({ s with fields := s.fields ++ init } :
      CsvState).afterField last closed (text.count '\n')) rest hending hs.inQuotes
    rw [List.append_assoc, hread, hline]
    generalize hend : (({ s with fields := s.fields ++ init } : CsvState).afterField last closed
      (text.count '\n')).endRecord = next
    -- The line break ends the record, and the line number has counted the feeds in its fields.
    have hnext : next.AtLine (line + text.count '\n' + 1) := by
      have hline : s.lineNo + text.count '\n' + 1 = line + text.count '\n' + 1 := by
        rw [hs.lineNo]
      rw [← hend]
      exact ⟨⟨rfl, hs.inQuotes, rfl⟩, rfl, hline, hline⟩
    have hrecords : next.records = s.records ++ [⟨fields, line⟩] := by
      have hfull : isBlankRecord (s.fields ++ init ++ [last]) = false := by
        rw [hs.fields, List.nil_append, ← hsplit]
        exact isBlankRecord_of_two hthis.1
      rw [← hend]
      unfold CsvState.endRecord CsvState.afterField
      dsimp only
      rw [hfull, if_neg Bool.false_ne_true, hs.fields, List.nil_append, ← hsplit, hs.recordLineNo]
    have hrest := ih (fun record hmem => hfields record (List.mem_cons_of_mem _ hmem)) hnext
    rw [hrecords, List.append_assoc] at hrest
    exact hrest
  | @last line fields text hrecord =>
    have hthis := hfields _ List.mem_cons_self
    rcases @parseCsvChars_record s fields text [] hrecord hs.toAtField hthis.2 (by simp) with
      ⟨init, last, closed, hsplit, hread⟩
    rw [List.append_nil] at hread
    refine ⟨_, hread.trans (by rw [parseCsvChars]), ?_⟩
    have hfull : isBlankRecord (s.fields ++ init ++ [last]) = false := by
      rw [hs.fields, List.nil_append, ← hsplit]
      exact isBlankRecord_of_two hthis.1
    unfold CsvState.finish CsvState.afterField
    dsimp only
    rw [if_neg (by simp [hs.inQuotes]), hfull, if_neg Bool.false_ne_true, hs.fields,
      List.nil_append, ← hsplit, hs.recordLineNo]
    rfl

/-- **Reading inverts writing.**  Whatever a writer chose, the records come back with the lines on
which they start. -/
theorem parseCsvRecords_tableText {records : List (List (List Char) × Nat)} {text : List Char}
    (h : TableText 1 records text)
    (hfields : ∀ record ∈ records, 2 ≤ record.1.length ∧ ∀ field ∈ record.1, '\r' ∉ field) :
    parseCsvRecords text = .ok (csvRecords records) := by
  have hstart : CsvState.start.AtLine 1 := ⟨⟨rfl, rfl, rfl⟩, rfl, rfl, rfl⟩
  rcases parseCsvChars_table h hfields hstart with ⟨s, hread, hfinish⟩
  unfold parseCsvRecords
  rw [hread]
  exact hfinish

/-- A quoted field with a quote and a line feed, both line ends, and a blank line. -/
theorem parseCsvRecords_tableText_mixed :
    parseCsvRecords "a,\"b\"\"\nc\"\r\n\nd,e".toList =
      .ok [⟨["a".toList, "b\"\nc".toList], 1⟩, ⟨["d".toList, "e".toList], 4⟩] := by
  have hbare : ∀ c, c ∈ "ade".toList → FieldText [c] [c] := by
    intro c hc
    have hplain : c ≠ ',' ∧ c ≠ '"' ∧ c ≠ '\n' := by
      refine ⟨?_, ?_, ?_⟩ <;> · rintro rfl; exact absurd hc (by decide)
    apply FieldText.bare <;> simp [hplain.1.symm, hplain.2.1.symm, hplain.2.2.symm]
  have hfirst : RecordText ["a".toList, "b\"\nc".toList] "a,\"b\"\"\nc\"".toList :=
    .cons (hbare 'a' (by decide)) (.single .quoted)
  have hlast : RecordText ["d".toList, "e".toList] "d,e".toList :=
    .cons (hbare 'd' (by decide)) (.single (hbare 'e' (by decide)))
  have htable : TableText 1 [(["a".toList, "b\"\nc".toList], 1), (["d".toList, "e".toList], 4)]
      ("a,\"b\"\"\nc\"".toList ++ ['\r', '\n'] ++ (['\n'] ++ "d,e".toList)) :=
    .record hfirst .returnFeed (.blank .feed (.last hlast))
  exact parseCsvRecords_tableText htable (by decide)

end Rlibc.Tools
