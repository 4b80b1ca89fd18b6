import Mathlib.Data.List.Forall2
import Rlibc.Tools.LedgerGrammar

/-!
# The verdict of `xfail_ledger`

Which tables are accepted, and when a run of the tool succeeds: no entry of the ledger has
expired, every failure is listed, and in strict mode no success is.
-/

namespace Rlibc.Tools

open Csv Gregorian Text

/-! ## Rows -/

/-- The text of a status; its case does not matter. -/
def RawStatus.name : RawStatus → List Char
  | .pass => "pass".toList
  | .fail => "fail".toList
  | .skip => "skip".toList
  | .timeout => "timeout".toList

/-- The part of a row that is its key: no field of it is blank. -/
def CaseKey.Present (key : CaseKey) : Prop := key.suite ≠ [] ∧ key.caseId ≠ [] ∧ key.target ≠ []

/-- The fields of an entry, with blanks around them. -/
structure LedgerRow (fields : List (List Char)) (entry : LedgerEntry) : Prop where
  fields : fields.map trim =
    [entry.key.suite, entry.key.caseId, entry.key.target, entry.reason, entry.expires.getD []]
  present : entry.key.Present
  reason : entry.reason ≠ []
  dated : ∀ expires, entry.expires = some expires → ∃ date, Denotes expires date

/-- The fields of a result, with blanks around them. -/
structure ResultRow (fields : List (List Char)) (raw : RawResult) : Prop where
  fields : ∃ status, fields.map trim =
    [raw.key.suite, raw.key.caseId, raw.key.target, status] ∧
    status.map Char.toLower = raw.status.name
  present : raw.key.Present

theorem denotes_nil (date : Date) : ¬ Denotes [] date := by
  rintro ⟨year, month, day, h, _⟩
  exact absurd h (by simp)

theorem RawStatus.name_toLower (status : RawStatus) :
    status.name.map Char.toLower = status.name := by
  cases status <;> decide

theorem parseRawStatus_eq_some {text : List Char} {status : RawStatus} :
    parseRawStatus text = some status ↔ text.map Char.toLower = status.name := by
  have heq : ∀ other : RawStatus,
      eqIgnoreAsciiCase text other.name = true ↔ text.map Char.toLower = other.name := by
    intro other
    rw [eqIgnoreAsciiCase, decide_eq_true_iff, RawStatus.name_toLower]
  have hunfold : parseRawStatus text =
      if eqIgnoreAsciiCase text RawStatus.pass.name then some .pass
      else if eqIgnoreAsciiCase text RawStatus.fail.name then some .fail
      else if eqIgnoreAsciiCase text RawStatus.skip.name then some .skip
      else if eqIgnoreAsciiCase text RawStatus.timeout.name then some .timeout
      else none := rfl
  simp only [hunfold, heq]
  constructor
  · intro h
    split_ifs at h with h₁ h₂ h₃ h₄
    · exact Option.some.inj h ▸ h₁
    · exact Option.some.inj h ▸ h₂
    · exact Option.some.inj h ▸ h₃
    · exact Option.some.inj h ▸ h₄
  · intro h
    rw [h]
    cases status <;> decide

theorem length_eq_five {α : Type} {xs : List α} :
    xs.length = 5 ↔ ∃ a b c d e, xs = [a, b, c, d, e] := by
  cases xs with
  | nil => simp
  | cons a xs => simp [List.length_eq_four]

/-- An entry is read from its fields unless its key was there before. -/
theorem readLedgerRow_eq_ok {record : CsvRecord} {keys : List CaseKey} {entry : LedgerEntry} :
    readLedgerRow record keys = .ok entry ↔ LedgerRow record.fields entry ∧ entry.key ∉ keys := by
  constructor
  · intro h
    unfold readLedgerRow at h
    split at h
    case h_2 => cases h
    rename_i suite caseId target reason expires hfields
    dsimp only at h
    split_ifs at h with hblank hkey hexpires
    · rw [← Except.ok.inj h]
      simp only [not_or] at hblank
      refine ⟨⟨?_, ⟨hblank.1, hblank.2.1, hblank.2.2.1⟩, hblank.2.2.2, by simp⟩, hkey⟩
      simp [hfields, hexpires]
    · split at h
      · cases h
      · rename_i hvalid
        rw [← Except.ok.inj h]
        simp only [not_or] at hblank
        refine ⟨⟨?_, ⟨hblank.1, hblank.2.1, hblank.2.2.1⟩, hblank.2.2.2, ?_⟩, hkey⟩
        · simp [hfields]
        · intro found heq
          rw [← Option.some.inj heq]
          exact validateExpiresDate_eq_ok.mp hvalid
  · rintro ⟨⟨hfields, hpresent, hreason, hdated⟩, hkey⟩
    obtain ⟨suite, caseId, target, reason, expires, hrecord⟩ :=
      length_eq_five.mp (by simpa using congrArg List.length hfields)
    rw [hrecord] at hfields
    simp only [List.map_cons, List.map_nil, List.cons.injEq, and_true] at hfields
    obtain ⟨hsuite, hcaseId, htarget, hreasonText, hexpires⟩ := hfields
    unfold readLedgerRow
    rw [hrecord]
    dsimp only
    rw [hsuite, hcaseId, htarget, hreasonText, hexpires,
      if_neg (by simp [hpresent.1, hpresent.2.1, hpresent.2.2, hreason]), if_neg hkey]
    cases hentry : entry.expires with
    | none =>
      rw [Option.getD_none, if_pos rfl, ← hentry]
    | some date =>
      obtain ⟨day, hday⟩ := hdated date hentry
      have hne : date ≠ [] := fun h => denotes_nil day (h ▸ hday)
      rw [Option.getD_some, if_neg hne, validateExpiresDate_eq_ok.mpr ⟨day, hday⟩, ← hentry]

/-- A result is read from its fields unless its key was there before. -/
theorem readResultRow_eq_ok {record : CsvRecord} {keys : List CaseKey} {raw : RawResult} :
    readResultRow record keys = .ok raw ↔ ResultRow record.fields raw ∧ raw.key ∉ keys := by
  constructor
  · intro h
    unfold readResultRow at h
    split at h
    case h_2 => cases h
    rename_i suite caseId target status hfields
    dsimp only at h
    split_ifs at h with hblank hkey
    split at h
    · cases h
    · rename_i found hstatus
      rw [← Except.ok.inj h]
      simp only [not_or] at hblank
      exact ⟨⟨⟨trim status, by simp [hfields], parseRawStatus_eq_some.mp hstatus⟩, hblank⟩, hkey⟩
  · rintro ⟨⟨⟨text, hfields, hstatus⟩, hpresent⟩, hkey⟩
    obtain ⟨suite, caseId, target, status, hrecord⟩ :=
      List.length_eq_four.mp (by simpa using congrArg List.length hfields)
    rw [hrecord] at hfields
    simp only [List.map_cons, List.map_nil, List.cons.injEq, and_true] at hfields
    obtain ⟨hsuite, hcaseId, htarget, htext⟩ := hfields
    unfold readResultRow
    rw [hrecord]
    dsimp only
    rw [hsuite, hcaseId, htarget, htext,
      if_neg (by simp [hpresent.1, hpresent.2.1, hpresent.2.2]), if_neg hkey,
      parseRawStatus_eq_some.mpr hstatus]

/-! ## Tables -/

theorem headerMatches_iff {fields expected : List (List Char)} :
    headerMatches fields expected = true ↔ fields.map trim = expected := by
  rw [headerMatches, decide_eq_true_iff]
  induction fields generalizing expected with
  | nil => simp [eq_comm]
  | cons field fields ih =>
    cases expected with
    | nil => simp
    | cons first expected =>
      rw [List.map_cons, List.cons.injEq, ← ih]
      simp [and_left_comm]

section
variable {α : Type} {key : α → CaseKey} {row : List (List Char) → α → Prop}
  {readRow : CsvRecord → List CaseKey → Except String α}

/-- The loop reads row by row, and no key comes twice. -/
theorem readRows_eq_ok
    (hread : ∀ record keys found,
      readRow record keys = .ok found ↔ row record.fields found ∧ key found ∉ keys)
    {records : List CsvRecord} {keys : List CaseKey} {rows : List α} :
    readRows key readRow records keys = .ok rows ↔
      List.Forall₂ (fun record found => row record.fields found) records rows ∧
        (rows.map key).Nodup ∧ ∀ found ∈ rows, key found ∉ keys := by
  induction records generalizing keys rows with
  | nil =>
    rw [readRows, List.forall₂_nil_left_iff]
    cases rows with
    | nil => simp
    | cons found rows => simp
  | cons record records ih =>
    rw [readRows]
    cases hrow : readRow record keys with
    | error message =>
      refine iff_of_false (by simp) ?_
      rintro ⟨hall, _, hnew⟩
      cases hall with
      | @cons _ found _ rows hfound hall =>
        rw [(hread record keys found).mpr ⟨hfound, hnew found List.mem_cons_self⟩] at hrow
        cases hrow
    | ok first =>
      have hfirst := (hread record keys first).mp hrow
      dsimp only
      constructor
      · intro h
        split at h
        · cases h
        · rename_i more hmore
          obtain ⟨hall, honce, hnew⟩ := ih.mp hmore
          rw [← Except.ok.inj h]
          refine ⟨.cons hfirst.1 hall, ?_, ?_⟩
          · rw [List.map_cons, List.nodup_cons]
            refine ⟨fun hmem => ?_, honce⟩
            obtain ⟨found, hfound, heq⟩ := List.mem_map.mp hmem
            exact hnew found hfound (heq ▸ List.mem_cons_self)
          · intro found hfound
            rcases List.mem_cons.mp hfound with rfl | hfound
            · exact hfirst.2
            · exact fun hmem => hnew found hfound (List.mem_cons_of_mem _ hmem)
      · rintro ⟨hall, honce, hnew⟩
        cases hall with
        | @cons _ found _ more hfound hall =>
          rw [(hread record keys found).mpr ⟨hfound, hnew found List.mem_cons_self⟩,
            Except.ok.injEq] at hrow
          rw [List.map_cons, List.nodup_cons] at honce
          rw [← hrow]
          have hmore : readRows key readRow records (key found :: keys) = .ok more := by
            refine ih.mpr ⟨hall, honce.2, fun other hother hmem => ?_⟩
            rcases List.mem_cons.mp hmem with heq | hmem
            · exact honce.1 (heq ▸ List.mem_map_of_mem hother)
            · exact hnew other (List.mem_cons_of_mem _ hother) hmem
          rw [hmore]

variable {name headerText : String} {header : List (List Char)}

/-- A table is accepted when its header is as it should be, its rows are in order and no key comes
twice. -/
theorem parseTable_eq_ok
    (hread : ∀ record keys found,
      readRow record keys = .ok found ↔ row record.fields found ∧ key found ∉ keys)
    {input : List Char} {rows : List α} :
    parseTable name header headerText key readRow input = .ok rows ↔
      trim input ≠ [] ∧ ∃ first records, parseCsvRecords input = .ok (first :: records) ∧
        first.fields.map trim = header ∧
        List.Forall₂ (fun record found => row record.fields found) records rows ∧
        (rows.map key).Nodup := by
  unfold parseTable
  by_cases hempty : trim input = []
  · rw [if_pos hempty]
    exact iff_of_false (by simp) fun h => h.1 hempty
  · rw [if_neg hempty]
    cases hrecords : parseCsvRecords input with
    | error message => simp
    | ok found =>
      cases found with
      | nil => simp
      | cons first records =>
        dsimp only
        have hall : (∃ first' records', Except.ok (ε := String) (first :: records) =
            .ok (first' :: records') ∧ first'.fields.map trim = header ∧
            List.Forall₂ (fun record found => row record.fields found) records' rows ∧
            (rows.map key).Nodup) ↔ first.fields.map trim = header ∧
            List.Forall₂ (fun record found => row record.fields found) records rows ∧
            (rows.map key).Nodup := by
          simp
        rw [hall, and_iff_right hempty]
        by_cases hheader : headerMatches first.fields header = true
        · rw [if_neg (not_not.mpr hheader), readRows_eq_ok hread,
            and_iff_right (headerMatches_iff.mp hheader)]
          simp
        · rw [if_pos hheader]
          exact iff_of_false (by simp) fun h => hheader (headerMatches_iff.mpr h.1)

end

/-- Two fields have a comma between them. -/
theorem comma_mem_of_record {fields : List (List Char)} {text : List Char}
    (h : RecordText fields text) (htwo : 2 ≤ fields.length) : ',' ∈ text := by
  cases h with
  | single hfield => simp at htwo
  | cons hfield hrest => simp

theorem comma_mem_of_table {line : Nat} {record : List (List Char) × Nat}
    {records : List (List (List Char) × Nat)} {text : List Char}
    (h : TableText line (record :: records) text) (htwo : 2 ≤ record.1.length) : ',' ∈ text := by
  generalize hall : record :: records = all at h
  induction h with
  | done => cases hall
  | blank hending hrest ih => exact List.mem_append_right _ (ih hall)
  | record hrecord hending hrest ih =>
    rw [List.cons.injEq] at hall
    rw [hall.1] at htwo
    exact List.mem_append_left _ (List.mem_append_left _ (comma_mem_of_record hrecord htwo))
  | last hrecord =>
    rw [List.cons.injEq] at hall
    rw [hall.1] at htwo
    exact comma_mem_of_record hrecord htwo

/-- However a table is written, its records are read back. -/
theorem parseTable_of_tableText {α : Type} {key : α → CaseKey}
    {row : List (List Char) → α → Prop}
    {readRow : CsvRecord → List CaseKey → Except String α}
    {name headerText : String} {header : List (List Char)}
    (hread : ∀ record keys found,
      readRow record keys = .ok found ↔ row record.fields found ∧ key found ∉ keys)
    {first : List (List Char) × Nat} {records : List (List (List Char) × Nat)} {text : List Char}
    (h : TableText 1 (first :: records) text)
    (hfields : ∀ record ∈ first :: records,
      2 ≤ record.1.length ∧ ∀ field ∈ record.1, '\r' ∉ field)
    {rows : List α} :
    parseTable name header headerText key readRow text = .ok rows ↔
      first.1.map trim = header ∧
        List.Forall₂ (fun record found => row record.1 found) records rows ∧
        (rows.map key).Nodup := by
  have htrim : trim text ≠ [] := by
    intro hblank
    have hcomma := comma_mem_of_table h (hfields first List.mem_cons_self).1
    exact absurd (trim_eq_nil_iff.mp hblank ',' hcomma) (by decide)
  have hstart : CsvState.start.AtLine 1 := ⟨⟨rfl, rfl, rfl⟩, rfl, rfl, rfl⟩
  obtain ⟨s, hchars, hfinish⟩ := parseCsvChars_table h hfields hstart
  have hrecords : parseCsvRecords text = .ok (csvRecords (first :: records)) := by
    unfold parseCsvRecords
    rw [hchars]
    exact hfinish
  have hrows : List.Forall₂ (fun record found => row record.fields found) (csvRecords records)
      rows ↔ List.Forall₂ (fun record found => row record.1 found) records rows :=
    List.forall₂_map_left_iff
  rw [parseTable_eq_ok hread, and_iff_right htrim, hrecords, ← hrows]
  simp [csvRecords]

/-- How often the results have a status, among the cases that the ledger lists or the others. -/
def tally (ledger : List LedgerEntry) (results : List RawResult) (listed : Bool)
    (status : RawStatus) : Nat :=
  results.countP fun raw => raw.status = status ∧ decide (raw.key ∈ ledger.map (·.key)) = listed

/-- The summary counts the results; a case that was skipped or timed out counts as that, listed or
not. -/
structure Summary.Counts (summary : Summary) (ledger : List LedgerEntry)
    (results : List RawResult) : Prop where
  pass : summary.pass = tally ledger results false .pass
  fail : summary.fail = tally ledger results false .fail
  skip : summary.skip = tally ledger results false .skip + tally ledger results true .skip
  timeout : summary.timeout =
    tally ledger results false .timeout + tally ledger results true .timeout
  xfail : summary.xfail = tally ledger results true .fail
  xpass : summary.xpass = tally ledger results true .pass

/-- The run of the tests is as the ledger has it. -/
structure Passes (config : LedgerConfig) (ledger : List LedgerEntry) (results : List RawResult) :
    Prop where
  ran : results ≠ []
  current : ∀ entry ∈ ledger, ∀ expires asOf day now, entry.expires = some expires →
    config.asOfDate = some asOf → Denotes expires day → Denotes asOf now →
    now.toDays ≤ day.toDays
  failures : ∀ raw ∈ results, raw.status = .fail → raw.key ∈ ledger.map (·.key)
  strict : config.strictXpass = true → ∀ raw ∈ results, raw.status = .pass →
    raw.key ∉ ledger.map (·.key)

theorem xfailKeys_eq_ok {ledger : List LedgerEntry} {keys : List CaseKey}
    (honce : (ledger.map (·.key)).Nodup) (hnew : ∀ entry ∈ ledger, entry.key ∉ keys) :
    ∃ found, xfailKeys ledger keys = .ok found ∧
      ∀ key, key ∈ found ↔ key ∈ ledger.map (·.key) ∨ key ∈ keys := by
  induction ledger generalizing keys with
  | nil => exact ⟨keys, rfl, by simp⟩
  | cons entry ledger ih =>
    rw [List.map_cons, List.nodup_cons] at honce
    have hrest : ∀ other ∈ ledger, other.key ∉ entry.key :: keys := by
      intro other hother hmem
      rcases List.mem_cons.mp hmem with heq | hmem
      · exact honce.1 (List.mem_map.mpr ⟨other, hother, heq⟩)
      · exact hnew other (List.mem_cons_of_mem _ hother) hmem
    obtain ⟨found, hfound, hkeys⟩ := ih honce.2 hrest
    refine ⟨found, ?_, fun key => ?_⟩
    · rw [xfailKeys, if_neg (hnew entry List.mem_cons_self), hfound]
    · rw [hkeys, List.map_cons, List.mem_cons, List.mem_cons]
      exact ⟨by tauto, by tauto⟩

theorem tally_concat (ledger : List LedgerEntry) (results : List RawResult) (raw : RawResult)
    (listed : Bool) (status : RawStatus) :
    tally ledger (results ++ [raw]) listed status = tally ledger results listed status +
      if raw.status = status ∧ decide (raw.key ∈ ledger.map (·.key)) = listed then 1 else 0 := by
  unfold tally
  rw [List.countP_append, List.countP_singleton]
  simp

/-- A result moves the count that it belongs to. -/
theorem Summary.Counts.add {ledger : List LedgerEntry} {results : List RawResult}
    {summary : Summary} {keys : List CaseKey}
    (hkeys : ∀ key, key ∈ keys ↔ key ∈ ledger.map (·.key)) (h : summary.Counts ledger results)
    (raw : RawResult) :
    (summary.add (classifyResult keys raw)).Counts ledger (results ++ [raw]) := by
  obtain ⟨hpass, hfail, hskip, htimeout, hxfail, hxpass⟩ := h
  by_cases hlisted : raw.key ∈ ledger.map (·.key)
  · have hmem : raw.key ∈ keys := (hkeys raw.key).mpr hlisted
    cases hstatus : raw.status <;>
      constructor <;>
      simp only [classifyResult, Summary.add, if_pos hmem, hstatus, tally_concat, hlisted] <;>
      simp <;>
      omega
  · have hmem : raw.key ∉ keys := fun h => hlisted ((hkeys raw.key).mp h)
    cases hstatus : raw.status <;>
      constructor <;>
      simp only [classifyResult, Summary.add, if_neg hmem, rawStatusToFinal, hstatus,
        tally_concat, hlisted] <;>
      simp <;>
      omega

/-- The summary of the classified results counts them. -/
theorem summarize_counts {ledger : List LedgerEntry} {keys : List CaseKey}
    (hkeys : ∀ key, key ∈ keys ↔ key ∈ ledger.map (·.key)) (results : List RawResult) :
    (summarize (results.map (classifyResult keys))).Counts ledger results := by
  induction results using List.reverseRecOn with
  | nil => exact ⟨rfl, rfl, rfl, rfl, rfl, rfl⟩
  | append_singleton results raw ih =>
    rw [List.map_append, List.map_singleton]
    unfold summarize at ih ⊢
    rw [List.foldl_append]
    exact ih.add hkeys raw

theorem tally_eq_zero {ledger : List LedgerEntry} {results : List RawResult} {listed : Bool}
    {status : RawStatus} :
    tally ledger results listed status = 0 ↔
      ∀ raw ∈ results, raw.status = status →
        ¬ decide (raw.key ∈ ledger.map (·.key)) = listed := by
  unfold tally
  rw [List.countP_eq_zero]
  simp

/-- No entry has expired when all of them are current. -/
theorem collectExpiredEntries_eq_nil {ledger : List LedgerEntry} {asOf : List Char} {now : Date}
    (hdated : ∀ entry ∈ ledger, ∀ expires, entry.expires = some expires →
      ∃ date, Denotes expires date) (hnow : Denotes asOf now) :
    collectExpiredEntries ledger asOf = [] ↔
      ∀ entry ∈ ledger, ∀ expires day, entry.expires = some expires → Denotes expires day →
        now.toDays ≤ day.toDays := by
  unfold collectExpiredEntries
  rw [List.filter_eq_nil_iff]
  constructor
  · intro h entry hentry expires day hexpires hday
    have hkept := h entry hentry
    rw [hexpires, Option.any_some, decide_eq_true_iff, hday.lt_iff hnow] at hkept
    omega
  · intro h entry hentry hany
    cases hexpires : entry.expires with
    | none =>
      rw [hexpires] at hany
      cases hany
    | some expires =>
      obtain ⟨day, hday⟩ := hdated entry hentry expires hexpires
      rw [hexpires, Option.any_some, decide_eq_true_iff, hday.lt_iff hnow] at hany
      have hle := h entry hentry expires day hexpires hday
      omega

/-- What an accepted ledger is known to hold. -/
theorem parseLedgerCsv_wellFormed {text : List Char} {ledger : List LedgerEntry}
    (h : parseLedgerCsv text = .ok ledger) :
    (ledger.map (·.key)).Nodup ∧
      ∀ entry ∈ ledger, ∀ expires, entry.expires = some expires → ∃ date, Denotes expires date := by
  obtain ⟨_, _, records, _, _, hrows, honce⟩ :=
    (parseTable_eq_ok fun _ _ _ => readLedgerRow_eq_ok).mp h
  refine ⟨honce, fun entry hentry => ?_⟩
  obtain ⟨hlength, hrow⟩ := List.forall₂_iff_get.mp hrows
  obtain ⟨i, hi, rfl⟩ := List.getElem_of_mem hentry
  exact (hrow i (by omega) hi).dated

/-- A ledger whose keys are distinct classifies every run that is not empty. -/
theorem classifyResults_eq {ledger : List LedgerEntry} {results : List RawResult}
    (honce : (ledger.map (·.key)).Nodup) (hran : results ≠ []) :
    ∃ keys, classifyResults ledger results = .ok (results.map (classifyResult keys)) ∧
      ∀ key, key ∈ keys ↔ key ∈ ledger.map (·.key) := by
  have hnew : ∀ entry ∈ ledger, entry.key ∉ ([] : List CaseKey) :=
    fun _ _ => List.not_mem_nil
  obtain ⟨keys, hfound, hkeys⟩ := xfailKeys_eq_ok honce hnew
  refine ⟨keys, ?_, fun key => by rw [hkeys]; simp⟩
  unfold classifyResults
  rw [if_neg hran, hfound]

theorem Summary.Counts.eq {ledger : List LedgerEntry} {results : List RawResult} {s t : Summary}
    (hs : s.Counts ledger results) (ht : t.Counts ledger results) : s = t := by
  obtain ⟨_, _, _, _, _, _⟩ := s
  obtain ⟨_, _, _, _, _, _⟩ := t
  rw [Summary.mk.injEq]
  exact ⟨hs.pass.trans ht.pass.symm, hs.fail.trans ht.fail.symm, hs.skip.trans ht.skip.symm,
    hs.timeout.trans ht.timeout.symm, hs.xfail.trans ht.xfail.symm, hs.xpass.trans ht.xpass.symm⟩

theorem Summary.Counts.fail_eq_zero {ledger : List LedgerEntry} {results : List RawResult}
    {summary : Summary} (h : summary.Counts ledger results) :
    summary.fail = 0 ↔
      ∀ raw ∈ results, raw.status = .fail → raw.key ∈ ledger.map (·.key) := by
  rw [h.fail, tally_eq_zero]
  simp only [decide_eq_false_iff_not, not_not]

theorem Summary.Counts.xpass_eq_zero {ledger : List LedgerEntry} {results : List RawResult}
    {summary : Summary} (h : summary.Counts ledger results) :
    summary.xpass = 0 ↔
      ∀ raw ∈ results, raw.status = .pass → raw.key ∉ ledger.map (·.key) := by
  rw [h.xpass, tally_eq_zero]
  simp only [decide_eq_true_eq]

theorem expiredEntries_eq_nil {config : LedgerConfig} {ledger : List LedgerEntry}
    (hdated : ∀ entry ∈ ledger, ∀ expires, entry.expires = some expires →
      ∃ date, Denotes expires date)
    (hasOf : ∀ asOf, config.asOfDate = some asOf → ∃ now, Denotes asOf now) :
    expiredEntries config ledger = [] ↔
      ∀ entry ∈ ledger, ∀ expires asOf day now, entry.expires = some expires →
        config.asOfDate = some asOf → Denotes expires day → Denotes asOf now →
        now.toDays ≤ day.toDays := by
  unfold expiredEntries
  cases hdate : config.asOfDate with
  | none => simp
  | some asOf =>
    obtain ⟨now, hnow⟩ := hasOf asOf hdate
    dsimp only
    rw [collectExpiredEntries_eq_nil hdated hnow]
    constructor
    · intro h entry hentry expires found day today hexpires heq hday htoday
      rw [Option.some.injEq] at heq
      rw [← heq] at htoday
      -- two dates that one text denotes are the same day
      have hsame := (hnow.lt_iff htoday).not.mp (lt_irrefl asOf)
      have hle := h entry hentry expires day hexpires hday
      omega
    · exact fun h entry hentry expires day hexpires hday =>
        h entry hentry expires asOf day now hexpires rfl hday hnow

/-- **Judgement.**  With a date of comparison that exists, tables that are accepted pass when the
run is as the ledger has it; the summary counts it. -/
theorem judge_eq_ok {config : LedgerConfig} {ledgerText resultText : List Char} {summary : Summary}
    (hasOf : ∀ asOf, config.asOfDate = some asOf → ∃ now, Denotes asOf now) :
    judge config ledgerText resultText = .ok summary ↔
      ∃ ledger results, parseLedgerCsv ledgerText = .ok ledger ∧
        parseResultsCsv resultText = .ok results ∧ Passes config ledger results ∧
        summary.Counts ledger results := by
  unfold judge
  cases hledger : parseLedgerCsv ledgerText with
  | error message => simp
  | ok ledger =>
    obtain ⟨honce, hdated⟩ := parseLedgerCsv_wellFormed hledger
    have hcurrent := expiredEntries_eq_nil hdated hasOf
    dsimp only
    cases hexpired : expiredEntries config ledger with
    | cons first more =>
      refine iff_of_false (by simp) ?_
      rintro ⟨found, results, hfound, _, hpasses, _⟩
      rw [← Except.ok.inj hfound] at hpasses
      rw [hcurrent.mpr hpasses.current] at hexpired
      cases hexpired
    | nil =>
      cases hresults : parseResultsCsv resultText with
      | error message => simp
      | ok results =>
        dsimp only
        by_cases hran : results = []
        · rw [hran]
          refine iff_of_false (by simp [classifyResults]) ?_
          rintro ⟨_, found, _, hfound, hpasses, _⟩
          exact hpasses.ran (Except.ok.inj hfound).symm
        · obtain ⟨keys, hclassified, hkeys⟩ := classifyResults_eq honce hran
          have hcounts := summarize_counts hkeys results
          rw [hclassified]
          dsimp only
          generalize hsummary : summarize (results.map (classifyResult keys)) = counted at hcounts
          have hiff : (∃ ledger' results', Except.ok (ε := String) ledger = .ok ledger' ∧
              Except.ok (ε := String) results = .ok results' ∧ Passes config ledger' results' ∧
              summary.Counts ledger' results') ↔
              counted.fail = 0 ∧ (config.strictXpass = true → counted.xpass = 0) ∧
                counted = summary := by
            constructor
            · rintro ⟨_, _, heq, heq', hpasses, hsame⟩
              rw [← Except.ok.inj heq, ← Except.ok.inj heq'] at hpasses hsame
              exact ⟨hcounts.fail_eq_zero.mpr hpasses.failures,
                fun hstrict => hcounts.xpass_eq_zero.mpr (hpasses.strict hstrict),
                hcounts.eq hsame⟩
            · rintro ⟨hfail, hxpass, rfl⟩
              exact ⟨ledger, results, rfl, rfl,
                ⟨hran, hcurrent.mp hexpired, hcounts.fail_eq_zero.mp hfail,
                  fun hstrict => hcounts.xpass_eq_zero.mp (hxpass hstrict)⟩, hcounts⟩
          rw [hiff]
          by_cases hfail : counted.fail = 0
          · rw [if_neg (by omega), and_iff_right hfail]
            by_cases hstrict : config.strictXpass = true ∧ counted.xpass > 0
            · rw [if_pos hstrict]
              refine iff_of_false (by simp) fun h => ?_
              have hzero := h.1 hstrict.1
              omega
            · rw [if_neg hstrict, Except.ok.injEq, and_iff_right]
              intro hflag
              by_contra hpos
              exact hstrict ⟨hflag, by omega⟩
          · rw [if_pos (by omega)]
            exact iff_of_false (by simp) fun h => hfail h.1

theorem Configures.asOf_denotes {items : List ArgItem} {config : LedgerConfig}
    (h : Configures items config) :
    ∀ asOf, config.asOfDate = some asOf → ∃ now, Denotes asOf now :=
  fun asOf hasOf => h.dated asOf ((h.asOf asOf).mp hasOf)

/-- **The verdict.**  The tool succeeds on a command line that it accepts, for files that it can
read and that hold tables as it wants them, when the run is as the ledger has it; the summary
counts the run. -/
theorem runLedger_eq_ok {readToString : List Char → Except String (List Char)}
    {args : List (List Char)} {summary : Summary} :
    runLedger readToString args = .ok (some summary) ↔
      ∃ items config ledgerText resultText ledger results,
        CommandLine items args ∧ Configures items config ∧
        readToString config.ledgerPath = .ok ledgerText ∧
        readToString config.resultsPath = .ok resultText ∧
        parseLedgerCsv ledgerText = .ok ledger ∧ parseResultsCsv resultText = .ok results ∧
        Passes config ledger results ∧ summary.Counts ledger results := by
  unfold runLedger
  constructor
  · intro h
    split at h
    · cases h
    · cases h
    · rename_i config hargs
      obtain ⟨items, hline, hconfig⟩ := parseArgs_configures hargs
      split at h
      · cases h
      · rename_i ledgerText hledger
        split at h
        · cases h
        · rename_i resultText hresult
          split at h
          · cases h
          · rename_i found hjudge
            rw [Except.ok.injEq, Option.some.injEq] at h
            rw [h, judge_eq_ok hconfig.asOf_denotes] at hjudge
            obtain ⟨ledger, results, hjudge⟩ := hjudge
            exact ⟨items, config, ledgerText, resultText, ledger, results, hline, hconfig, hledger,
              hresult, hjudge⟩
  · rintro ⟨items, config, ledgerText, resultText, ledger, results, hline, hconfig, hledger,
      hresult, hjudge⟩
    rw [configures_parseArgs hline hconfig]
    dsimp only
    rw [hledger]
    dsimp only
    rw [hresult]
    dsimp only
    rw [(judge_eq_ok hconfig.asOf_denotes).mpr ⟨ledger, results, hjudge⟩]

end Rlibc.Tools
