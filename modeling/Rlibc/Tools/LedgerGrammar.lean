import Rlibc.Tools.LedgerCommand
import Rlibc.Tools.LedgerDates

/-!
# The command lines that `xfail_ledger` accepts

A command line is a sequence of options in any order, each at most once, each value in one of
three spellings.  `--results` has to be there.
-/

namespace Rlibc.Tools

open Text

/-- An option with its value. -/
inductive ArgItem where
  | ledger (path : List Char)
  | results (path : List Char)
  | strictXpass
  | asOf (date : List Char)
deriving DecidableEq

inductive ArgOption where
  | ledger
  | results
  | strictXpass
  | asOf
deriving DecidableEq

def ArgItem.option : ArgItem → ArgOption
  | .ledger _ => .ledger
  | .results _ => .results
  | .strictXpass => .strictXpass
  | .asOf _ => .asOf

/-- The three ways to write an option with its value. -/
inductive OptionSpelling (name value : List Char) : List (List Char) → Prop
  | split (hvalue : value ≠ []) (hplain : isOptionLikeToken value = false) :
      OptionSpelling name value [name, value]
  | separated (hvalue : value ≠ []) : OptionSpelling name value [name, "--".toList, value]
  | equals (hvalue : value ≠ []) : OptionSpelling name value [name ++ '=' :: value]

/-- The tokens that an option may be written with. -/
def ArgItem.Spelled : ArgItem → List (List Char) → Prop
  | .ledger path => OptionSpelling "--ledger".toList path
  | .results path => OptionSpelling "--results".toList path
  | .strictXpass => fun tokens => tokens = ["--strict-xpass".toList]
  | .asOf date => OptionSpelling "--as-of".toList date

/-- A command line with these options; a `--` may end it. -/
inductive CommandLine : List ArgItem → List (List Char) → Prop
  | done : CommandLine [] []
  | stop : CommandLine [] ["--".toList]
  | item {item : ArgItem} {items : List ArgItem} {tokens rest : List (List Char)}
      (hitem : item.Spelled tokens) (hrest : CommandLine items rest) :
      CommandLine (item :: items) (tokens ++ rest)

/-- The options say this: each is there at most once, the results are there, the ledger may be
left out, and the dates exist. -/
structure Configures (items : List ArgItem) (config : LedgerConfig) : Prop where
  once : (items.map ArgItem.option).Nodup
  dated : ∀ date, .asOf date ∈ items → ∃ day, Denotes date day
  results : .results config.resultsPath ∈ items
  ledger : .ledger config.ledgerPath ∈ items ∨
    config.ledgerPath = defaultLedgerPath ∧ ∀ path, .ledger path ∉ items
  strict : config.strictXpass = true ↔ .strictXpass ∈ items
  asOf : ∀ date, config.asOfDate = some date ↔ .asOf date ∈ items

/-- What an option does to the variables, unless it is there twice or names no date. -/
def LedgerArgs.apply (s : LedgerArgs) : ArgItem → Option LedgerArgs
  | .ledger path =>
    if s.seenLedgerArgument then none
    else some { s with ledgerPath := some path, seenLedgerArgument := true }
  | .results path =>
    if s.seenResultsArgument then none
    else some { s with resultsPath := some path, seenResultsArgument := true }
  | .strictXpass =>
    if s.seenStrictXpassArgument then none
    else some { s with strictXpass := true, seenStrictXpassArgument := true }
  | .asOf date =>
    if s.asOfDate.isSome ∨ validateExpiresDate date ≠ .ok () then none
    else some { s with asOfDate := some date }

def LedgerArgs.applyAll : LedgerArgs → List ArgItem → Option LedgerArgs
  | s, [] => some s
  | s, item :: items => (s.apply item).bind fun s => s.applyAll items

/-! ## One option -/

theorem isOptionLikeToken_of_prefix {pre token : List Char} (hhead : pre.head? = some '-')
    (hlength : 2 ≤ pre.length) (h : pre <+: token) : isOptionLikeToken token = true := by
  obtain ⟨behind, rfl⟩ := h
  refine decide_eq_true ⟨?_, fun heq => ?_⟩
  · rw [List.head?_append, hhead]
    rfl
  · have hle := congrArg List.length heq
    rw [List.length_append, List.length_singleton] at hle
    omega

/-- The tokens that are options look like options. -/
theorem isOptionLikeToken_of_known {token : List Char} (h : isKnownOptionToken token = true) :
    isOptionLikeToken token = true := by
  rcases of_decide_eq_true h with h | h | h | h | h
  · simp only [List.mem_cons, List.not_mem_nil, or_false] at h
    rcases h with rfl | rfl | rfl | rfl | rfl | rfl <;> decide
  · exact isOptionLikeToken_of_prefix (by decide) (by decide) h
  · exact isOptionLikeToken_of_prefix (by decide) (by decide) h
  · exact isOptionLikeToken_of_prefix (by decide) (by decide) h
  · exact isOptionLikeToken_of_prefix (by decide) (by decide) h

theorem requiredOptionValue_eq_ok {name token value : List Char} :
    requiredOptionValue name token = .ok value ↔
      token = value ∧ value ≠ [] ∧ isOptionLikeToken value = false := by
  unfold requiredOptionValue
  dsimp only
  by_cases hempty : token = []
  · rw [if_pos hempty, hempty]
    refine iff_of_false (by simp) ?_
    rintro ⟨rfl, hvalue, _⟩
    exact hvalue rfl
  · rw [if_neg hempty]
    by_cases hlike : isOptionLikeToken token = true
    · rw [if_pos hlike]
      refine iff_of_false (by simp) ?_
      rintro ⟨rfl, _, hplain⟩
      rw [hlike] at hplain
      cases hplain
    · rw [if_neg hlike, if_neg fun h => hlike (isOptionLikeToken_of_known h), Except.ok.injEq]
      rw [Bool.not_eq_true] at hlike
      constructor
      · rintro rfl
        exact ⟨rfl, hempty, hlike⟩
      · exact fun h => h.1

/-- The value of an option is read from the token behind it, or from the one behind a `--`. -/
theorem splitOptionValue_eq_ok {name value : List Char} {rest : List (List Char)} {skip : Nat} :
    splitOptionValue name rest = .ok (skip, value) ↔
      value ≠ [] ∧
        ((skip = 1 ∧ isOptionLikeToken value = false ∧ ∃ more, rest = value :: more) ∨
          (skip = 2 ∧ ∃ more, rest = "--".toList :: value :: more)) := by
  have hdashes : isOptionLikeToken "--".toList = true := by decide
  cases rest with
  | nil => simp [splitOptionValue]
  | cons token rest =>
    unfold splitOptionValue
    dsimp only
    by_cases htoken : token = "--".toList
    · -- a `--` is no value, so that the one behind it is meant
      have hother : ¬ (skip = 1 ∧ isOptionLikeToken value = false ∧
          ∃ more, token :: rest = value :: more) := by
        rintro ⟨_, hplain, more, heq⟩
        rw [List.cons.injEq] at heq
        rw [← heq.1, htoken, hdashes] at hplain
        cases hplain
      rw [if_pos htoken, or_iff_right hother, htoken]
      cases rest with
      | nil => simp
      | cons separated more =>
        dsimp only
        by_cases hempty : separated = []
        · rw [if_pos hempty, hempty]
          refine iff_of_false (by simp) ?_
          rintro ⟨hvalue, _, more, heq⟩
          rw [List.cons.injEq, List.cons.injEq] at heq
          exact hvalue heq.2.1.symm
        · rw [if_neg hempty, Except.ok.injEq, Prod.mk.injEq]
          constructor
          · rintro ⟨rfl, rfl⟩
            exact ⟨hempty, rfl, more, rfl⟩
          · rintro ⟨_, hskip, more, heq⟩
            rw [List.cons.injEq, List.cons.injEq] at heq
            exact ⟨hskip.symm, heq.2.1⟩
    · have hother : ¬ (skip = 2 ∧ ∃ more, token :: rest = "--".toList :: value :: more) := by
        rintro ⟨_, more, heq⟩
        rw [List.cons.injEq] at heq
        exact htoken heq.1
      rw [if_neg htoken, or_iff_left hother]
      cases hrequired : requiredOptionValue name token with
      | error message =>
        refine iff_of_false (by simp) ?_
        rintro ⟨hvalue, _, hplain, more, heq⟩
        rw [List.cons.injEq] at heq
        rw [requiredOptionValue_eq_ok.mpr ⟨heq.1, hvalue, hplain⟩] at hrequired
        cases hrequired
      | ok found =>
        have hfound := requiredOptionValue_eq_ok.mp hrequired
        dsimp only
        rw [Except.ok.injEq, Prod.mk.injEq]
        constructor
        · rintro ⟨rfl, rfl⟩
          exact ⟨hfound.2.1, rfl, hfound.2.2, rest, by rw [hfound.1]⟩
        · rintro ⟨_, hskip, _, more, heq⟩
          rw [List.cons.injEq] at heq
          exact ⟨hskip.symm, hfound.1.symm.trans heq.1⟩

theorem equalsOptionValue_eq_ok {argument name value : List Char} :
    equalsOptionValue argument name = .ok value ↔
      value ≠ [] ∧ argument = name ++ '=' :: value := by
  unfold equalsOptionValue
  cases hrest : (name ++ ['=']).isPrefixOf? argument with
  | none =>
    refine iff_of_false (by simp) ?_
    rintro ⟨_, rfl⟩
    rw [show name ++ '=' :: value = (name ++ ['=']) ++ value by simp, isPrefixOf?_append] at hrest
    cases hrest
  | some found =>
    rw [isPrefixOf?_eq_some] at hrest
    have hsame : argument = name ++ '=' :: value ↔ found = value := by
      rw [hrest, List.append_assoc, List.singleton_append, List.append_cancel_left_eq,
        List.cons.injEq]
      simp
    dsimp only
    by_cases hempty : found = []
    · rw [if_pos hempty]
      refine iff_of_false (by simp) ?_
      rintro ⟨hvalue, h⟩
      exact hvalue ((hsame.mp h).symm.trans hempty)
    · rw [if_neg hempty, Except.ok.injEq, hsame]
      constructor
      · rintro rfl
        exact ⟨hempty, rfl⟩
      · exact fun h => h.2

/-! ## One turn -/

theorem LedgerArgs.apply_ledger {s s' : LedgerArgs} {path : List Char} :
    s.apply (.ledger path) = some s' ↔
      s.seenLedgerArgument = false ∧ s.storeLedger path = .ok s' := by
  simp [LedgerArgs.apply, LedgerArgs.storeLedger]

theorem LedgerArgs.apply_results {s s' : LedgerArgs} {path : List Char} :
    s.apply (.results path) = some s' ↔
      s.seenResultsArgument = false ∧ s.storeResults path = .ok s' := by
  simp [LedgerArgs.apply, LedgerArgs.storeResults]

theorem LedgerArgs.apply_asOf {s s' : LedgerArgs} {date : List Char} :
    s.apply (.asOf date) = some s' ↔ s.asOfDate.isSome = false ∧ s.storeAsOf date = .ok s' := by
  unfold LedgerArgs.storeAsOf
  dsimp only [LedgerArgs.apply]
  cases hdate : validateExpiresDate date with
  | error message => simp
  | ok u =>
    cases s.asOfDate with
    | none => simp
    | some found => simp

/-- A value is stored unless its option was seen. -/
theorem takeValue_eq_next {name : List Char} {seen : Bool}
    {store : List Char → Except String LedgerArgs} {found : Except String (Nat × List Char)}
    {s' : LedgerArgs} {skip : Nat} :
    takeValue name seen store found = .ok (.next s' skip) ↔
      seen = false ∧ ∃ value, found = .ok (skip, value) ∧ store value = .ok s' := by
  unfold takeValue
  cases seen with
  | true => simp
  | false =>
    rw [if_neg Bool.false_ne_true]
    cases found with
    | error message => simp
    | ok found =>
      obtain ⟨taken, value⟩ := found
      dsimp only
      cases hstore : store value with
      | error message =>
        refine iff_of_false (by simp) ?_
        rintro ⟨_, value', heq, hstore'⟩
        rw [Except.ok.injEq, Prod.mk.injEq] at heq
        rw [← heq.2, hstore] at hstore'
        cases hstore'
      | ok stored =>
        rw [Except.ok.injEq, ArgTurn.next.injEq]
        constructor
        · rintro ⟨rfl, rfl⟩
          exact ⟨rfl, value, rfl, hstore⟩
        · rintro ⟨_, value', heq, hstore'⟩
          rw [Except.ok.injEq, Prod.mk.injEq] at heq
          rw [← heq.2, hstore, Except.ok.injEq] at hstore'
          exact ⟨hstore', heq.1⟩

theorem takeValue_turn {name : List Char} {seen : Bool}
    {store : List Char → Except String LedgerArgs} {found : Except String (Nat × List Char)}
    {turn : ArgTurn} (h : takeValue name seen store found = .ok turn) :
    ∃ s' skip, turn = .next s' skip := by
  unfold takeValue at h
  split at h
  · cases h
  · split at h
    · cases h
    · split at h
      · cases h
      · exact ⟨_, _, (Except.ok.inj h).symm⟩

/-- The tokens of an option whose value was split off, or stood behind a `--`. -/
theorem OptionSpelling.of_split {name value : List Char} {rest : List (List Char)} {skip : Nat}
    (h : splitOptionValue name rest = .ok (skip, value)) :
    ∃ more behind, rest = more ++ behind ∧ more.length = skip ∧
      OptionSpelling name value (name :: more) := by
  obtain ⟨hvalue, ⟨rfl, hplain, more, rfl⟩ | ⟨rfl, more, rfl⟩⟩ := splitOptionValue_eq_ok.mp h
  · exact ⟨[value], more, rfl, rfl, .split hvalue hplain⟩
  · exact ⟨["--".toList, value], more, rfl, rfl, .separated hvalue⟩

/-- The token of an option whose value stands behind an `=`. -/
theorem OptionSpelling.of_equals {name argument value : List Char} {rest : List (List Char)}
    {skip : Nat}
    (h : (equalsOptionValue argument name).map (fun value => (0, value)) = .ok (skip, value)) :
    ∃ more behind, rest = more ++ behind ∧ more.length = skip ∧
      OptionSpelling name value (argument :: more) := by
  cases hvalue : equalsOptionValue argument name with
  | error message =>
    rw [hvalue] at h
    cases h
  | ok found =>
    rw [hvalue] at h
    have heq : (0, found) = (skip, value) := Except.ok.inj h
    rw [Prod.mk.injEq] at heq
    obtain ⟨rfl, rfl⟩ := heq
    obtain ⟨hne, rfl⟩ := equalsOptionValue_eq_ok.mp hvalue
    exact ⟨[], rest, rfl, rfl, .equals hne⟩

/-- `--strict-xpass` is accepted once. -/
theorem takeStrictXpass_turn {s : LedgerArgs} {rest : List (List Char)} {turn : ArgTurn}
    (h : takeStrictXpass s rest = .ok turn) :
    s.seenStrictXpassArgument = false ∧
      turn = .next { s with strictXpass := true, seenStrictXpassArgument := true } 0 := by
  unfold takeStrictXpass at h
  dsimp only at h
  split at h
  · cases h
  · rename_i hseen
    refine ⟨Bool.not_eq_true _ ▸ hseen, ?_⟩
    repeat' split at h
    all_goals
      first
        | exact (Except.ok.inj h).symm
        | cases h

/-- What a turn has read: a wish for help, the `--` at the end, or an option. -/
inductive TurnRead (s : LedgerArgs) (argument : List Char) (rest : List (List Char)) :
    ArgTurn → Prop
  | help : TurnRead s argument rest .help
  | stop (hargument : argument = "--".toList) (hrest : rest = []) : TurnRead s argument rest .stop
  | item {item : ArgItem} {s' : LedgerArgs} {more behind : List (List Char)}
      (hrest : rest = more ++ behind) (hitem : item.Spelled (argument :: more))
      (happly : s.apply item = some s') : TurnRead s argument rest (.next s' more.length)

/-- A value that was split off belongs to the option in front of it. -/
theorem TurnRead.of_split {s : LedgerArgs} {name : List Char} {rest : List (List Char)}
    {seen : Bool} {store : List Char → Except String LedgerArgs} {turn : ArgTurn}
    (make : List Char → ArgItem) (hspelled : ∀ value, (make value).Spelled =
      OptionSpelling name value)
    (happly : ∀ value s', s.apply (make value) = some s' ↔ seen = false ∧ store value = .ok s')
    (h : takeValue name seen store (splitOptionValue name rest) = .ok turn) :
    TurnRead s name rest turn := by
  obtain ⟨s', skip, rfl⟩ := takeValue_turn h
  obtain ⟨hseen, value, hvalue, hstore⟩ := takeValue_eq_next.mp h
  obtain ⟨more, behind, hrest, rfl, hitem⟩ := OptionSpelling.of_split hvalue
  exact .item hrest (hspelled value ▸ hitem) ((happly value s').mpr ⟨hseen, hstore⟩)

/-- So does a value behind an `=`. -/
theorem TurnRead.of_equals {s : LedgerArgs} {name argument : List Char}
    {rest : List (List Char)} {seen : Bool} {store : List Char → Except String LedgerArgs}
    {turn : ArgTurn} (make : List Char → ArgItem)
    (hspelled : ∀ value, (make value).Spelled = OptionSpelling name value)
    (happly : ∀ value s', s.apply (make value) = some s' ↔ seen = false ∧ store value = .ok s')
    (h : takeValue name seen store
      ((equalsOptionValue argument name).map fun value => (0, value)) = .ok turn) :
    TurnRead s argument rest turn := by
  obtain ⟨s', skip, rfl⟩ := takeValue_turn h
  obtain ⟨hseen, value, hvalue, hstore⟩ := takeValue_eq_next.mp h
  obtain ⟨more, behind, hrest, rfl, hitem⟩ := OptionSpelling.of_equals hvalue
  exact .item hrest (hspelled value ▸ hitem) ((happly value s').mpr ⟨hseen, hstore⟩)

/-- A turn that does not fail has read one of these. -/
theorem parseArgument_turn {s : LedgerArgs} {argument : List Char} {rest : List (List Char)}
    {turn : ArgTurn} (h : parseArgument s argument rest = .ok turn) :
    TurnRead s argument rest turn := by
  unfold parseArgument at h
  split_ifs at h with _ hdashes hledger _ hresults _ _ hstrict hasOf _
  · exact Except.ok.inj h ▸ .help
  · split at h
    · exact Except.ok.inj h ▸ .stop hdashes rfl
    · cases h
  · exact hledger ▸
      .of_split .ledger (fun _ => rfl) (fun _ _ => LedgerArgs.apply_ledger) h
  · exact .of_equals .ledger (fun _ => rfl) (fun _ _ => LedgerArgs.apply_ledger) h
  · exact hresults ▸
      .of_split .results (fun _ => rfl) (fun _ _ => LedgerArgs.apply_results) h
  · exact .of_equals .results (fun _ => rfl) (fun _ _ => LedgerArgs.apply_results) h
  · split at h <;> cases h
  · obtain ⟨hseen, rfl⟩ := takeStrictXpass_turn h
    rw [hstrict]
    refine @TurnRead.item _ _ _ .strictXpass _ [] rest rfl rfl ?_
    unfold LedgerArgs.apply
    rw [hseen, if_neg Bool.false_ne_true]
  · exact hasOf ▸ .of_split .asOf (fun _ => rfl) (fun _ _ => LedgerArgs.apply_asOf) h
  · exact .of_equals .asOf (fun _ => rfl) (fun _ _ => LedgerArgs.apply_asOf) h

/-- What stands in front of the first `=` is the name of the option. -/
theorem name_of_equals {name other value : List Char} (hname : '=' ∉ name) (hother : '=' ∉ other)
    (h : other ++ ['='] <+: name ++ '=' :: value) : other = name := by
  obtain ⟨behind, h⟩ := h
  rw [List.append_assoc, List.singleton_append] at h
  have hleft := splitOnce_eq_some.mpr ⟨h.symm, hother⟩
  have hright : splitOnce '=' (name ++ '=' :: value) = some (name, value) :=
    splitOnce_eq_some.mpr ⟨rfl, hname⟩
  rw [hright, Option.some.injEq, Prod.mk.injEq] at hleft
  exact hleft.1.symm

theorem ne_of_equals {name token value : List Char} (htoken : '=' ∉ token) :
    ¬ name ++ '=' :: value = token := by
  rintro rfl
  exact htoken (by simp)

theorem parseArgument_ledger (s : LedgerArgs) (rest : List (List Char)) :
    parseArgument s "--ledger".toList rest =
      takeValue "--ledger".toList s.seenLedgerArgument s.storeLedger
        (splitOptionValue "--ledger".toList rest) := by
  unfold parseArgument
  rw [if_neg (by decide), if_neg (by decide), if_pos rfl]

theorem parseArgument_results (s : LedgerArgs) (rest : List (List Char)) :
    parseArgument s "--results".toList rest =
      takeValue "--results".toList s.seenResultsArgument s.storeResults
        (splitOptionValue "--results".toList rest) := by
  unfold parseArgument
  rw [if_neg (by decide), if_neg (by decide), if_neg (by decide), if_neg (by decide), if_pos rfl]

theorem parseArgument_strictXpass (s : LedgerArgs) (rest : List (List Char)) :
    parseArgument s "--strict-xpass".toList rest = takeStrictXpass s rest := by
  unfold parseArgument
  rw [if_neg (by decide), if_neg (by decide), if_neg (by decide), if_neg (by decide),
    if_neg (by decide), if_neg (by decide), if_neg (by decide), if_pos rfl]

theorem parseArgument_asOf (s : LedgerArgs) (rest : List (List Char)) :
    parseArgument s "--as-of".toList rest =
      takeValue "--as-of".toList s.asOfDate.isSome s.storeAsOf
        (splitOptionValue "--as-of".toList rest) := by
  unfold parseArgument
  rw [if_neg (by decide), if_neg (by decide), if_neg (by decide), if_neg (by decide),
    if_neg (by decide), if_neg (by decide), if_neg (by decide), if_neg (by decide), if_pos rfl]

/-- The names of options have no `=` in them. -/
theorem prefix_of_equals {name other value text : List Char} (htext : text = other ++ ['='])
    (hname : '=' ∉ name) (hother : '=' ∉ other) (hne : other ≠ name) :
    ¬ text <+: name ++ '=' :: value :=
  fun h => hne (name_of_equals hname hother (htext ▸ h))

theorem parseArgument_ledgerEquals (s : LedgerArgs) (value : List Char)
    (rest : List (List Char)) :
    parseArgument s ("--ledger".toList ++ '=' :: value) rest =
      takeValue "--ledger".toList s.seenLedgerArgument s.storeLedger
        ((equalsOptionValue ("--ledger".toList ++ '=' :: value) "--ledger".toList).map
          fun value => (0, value)) := by
  unfold parseArgument
  rw [if_neg (not_or.mpr ⟨ne_of_equals (by decide), ne_of_equals (by decide)⟩),
    if_neg (ne_of_equals (by decide)), if_neg (ne_of_equals (by decide)),
    if_pos ⟨value, rfl⟩]

theorem parseArgument_resultsEquals (s : LedgerArgs) (value : List Char)
    (rest : List (List Char)) :
    parseArgument s ("--results".toList ++ '=' :: value) rest =
      takeValue "--results".toList s.seenResultsArgument s.storeResults
        ((equalsOptionValue ("--results".toList ++ '=' :: value) "--results".toList).map
          fun value => (0, value)) := by
  unfold parseArgument
  rw [if_neg (not_or.mpr ⟨ne_of_equals (by decide), ne_of_equals (by decide)⟩),
    if_neg (ne_of_equals (by decide)), if_neg (ne_of_equals (by decide)),
    if_neg (prefix_of_equals (show _ = "--ledger".toList ++ ['='] by decide) (by decide)
      (by decide) (by decide)),
    if_neg (ne_of_equals (by decide)), if_pos ⟨value, rfl⟩]

theorem parseArgument_asOfEquals (s : LedgerArgs) (value : List Char)
    (rest : List (List Char)) :
    parseArgument s ("--as-of".toList ++ '=' :: value) rest =
      takeValue "--as-of".toList s.asOfDate.isSome s.storeAsOf
        ((equalsOptionValue ("--as-of".toList ++ '=' :: value) "--as-of".toList).map
          fun value => (0, value)) := by
  unfold parseArgument
  rw [if_neg (not_or.mpr ⟨ne_of_equals (by decide), ne_of_equals (by decide)⟩),
    if_neg (ne_of_equals (by decide)), if_neg (ne_of_equals (by decide)),
    if_neg (prefix_of_equals (show _ = "--ledger".toList ++ ['='] by decide) (by decide)
      (by decide) (by decide)),
    if_neg (ne_of_equals (by decide)),
    if_neg (prefix_of_equals (show _ = "--results".toList ++ ['='] by decide) (by decide)
      (by decide) (by decide)),
    if_neg (prefix_of_equals (show _ = "--strict-xpass".toList ++ ['='] by decide) (by decide)
      (by decide) (by decide)),
    if_neg (ne_of_equals (by decide)), if_neg (ne_of_equals (by decide)),
    if_pos ⟨value, rfl⟩]

/-- All three spellings of an option are read alike. -/
theorem parseArgument_of_spelling {s s' : LedgerArgs} {name value argument : List Char}
    {more rest : List (List Char)} {seen : Bool} {store : List Char → Except String LedgerArgs}
    (h : OptionSpelling name value (argument :: more))
    (hsplit : ∀ rest, parseArgument s name rest =
      takeValue name seen store (splitOptionValue name rest))
    (hequals : ∀ value rest, parseArgument s (name ++ '=' :: value) rest =
      takeValue name seen store
        ((equalsOptionValue (name ++ '=' :: value) name).map fun value => (0, value)))
    (hseen : seen = false) (hstore : store value = .ok s') :
    parseArgument s argument (more ++ rest) = .ok (.next s' more.length) := by
  cases h with
  | split hvalue hplain =>
    rw [hsplit, takeValue_eq_next]
    exact ⟨hseen, value,
      splitOptionValue_eq_ok.mpr ⟨hvalue, Or.inl ⟨rfl, hplain, rest, rfl⟩⟩, hstore⟩
  | separated hvalue =>
    rw [hsplit, takeValue_eq_next]
    exact ⟨hseen, value, splitOptionValue_eq_ok.mpr ⟨hvalue, Or.inr ⟨rfl, rest, rfl⟩⟩, hstore⟩
  | equals hvalue =>
    rw [hequals, takeValue_eq_next, equalsOptionValue_eq_ok.mpr ⟨hvalue, rfl⟩]
    exact ⟨hseen, value, rfl, hstore⟩

/-- A command line does not start with a bare word. -/
theorem CommandLine.head {items : List ArgItem} {args : List (List Char)}
    (h : CommandLine items args) :
    args = [] ∨ args = ["--".toList] ∨
      ∃ token more, args = token :: more ∧ token ≠ "--".toList ∧ token ≠ [] ∧
        isOptionLikeToken token = true := by
  have hname : ∀ {name value : List Char} {tokens rest : List (List Char)},
      OptionSpelling name value tokens → (∃ c behind, name = '-' :: '-' :: c :: behind) →
      ∃ token more, tokens ++ rest = token :: more ∧ token ≠ "--".toList ∧ token ≠ [] ∧
        isOptionLikeToken token = true := by
    rintro name value tokens rest hspelled ⟨c, behind, rfl⟩
    have hlike : ∀ text : List Char, isOptionLikeToken ('-' :: '-' :: c :: text) = true :=
      fun text => decide_eq_true ⟨rfl, by simp⟩
    cases hspelled with
    | split hvalue hplain => exact ⟨_, _, rfl, by simp, by simp, hlike behind⟩
    | separated hvalue => exact ⟨_, _, rfl, by simp, by simp, hlike behind⟩
    | equals hvalue => exact ⟨_, _, rfl, by simp, by simp, hlike _⟩
  cases h with
  | done => exact Or.inl rfl
  | stop => exact Or.inr (Or.inl rfl)
  | @item item items tokens rest hitem hrest =>
    refine Or.inr (Or.inr ?_)
    cases item with
    | ledger path => exact hname hitem ⟨_, _, rfl⟩
    | results path => exact hname hitem ⟨_, _, rfl⟩
    | strictXpass =>
      rw [show tokens = ["--strict-xpass".toList] from hitem]
      exact ⟨_, _, rfl, by decide, by decide, by decide⟩
    | asOf date => exact hname hitem ⟨_, _, rfl⟩

/-- A turn reads an option however it is spelled. -/
theorem parseArgument_item {s s' : LedgerArgs} {item : ArgItem} {items : List ArgItem}
    {argument : List Char} {more rest : List (List Char)} (hitem : item.Spelled (argument :: more))
    (happly : s.apply item = some s') (hrest : CommandLine items rest) :
    parseArgument s argument (more ++ rest) = .ok (.next s' more.length) := by
  cases item with
  | ledger path =>
    obtain ⟨hseen, hstore⟩ := LedgerArgs.apply_ledger.mp happly
    exact parseArgument_of_spelling hitem (parseArgument_ledger s)
      (parseArgument_ledgerEquals s) hseen hstore
  | results path =>
    obtain ⟨hseen, hstore⟩ := LedgerArgs.apply_results.mp happly
    exact parseArgument_of_spelling hitem (parseArgument_results s)
      (parseArgument_resultsEquals s) hseen hstore
  | asOf date =>
    obtain ⟨hseen, hstore⟩ := LedgerArgs.apply_asOf.mp happly
    exact parseArgument_of_spelling hitem (parseArgument_asOf s)
      (parseArgument_asOfEquals s) hseen hstore
  | strictXpass =>
    have htokens : argument = "--strict-xpass".toList ∧ more = [] := by
      have h : argument :: more = ["--strict-xpass".toList] := hitem
      rwa [List.cons.injEq] at h
    obtain ⟨rfl, rfl⟩ := htokens
    unfold LedgerArgs.apply at happly
    dsimp only at happly
    split at happly
    · cases happly
    · rename_i hseen
      rw [parseArgument_strictXpass, List.nil_append, ← Option.some.inj happly]
      unfold takeStrictXpass
      dsimp only
      rw [if_neg hseen]
      -- the look at the next token finds an option, the end, or a `--` that ends the line
      rcases hrest.head with rfl | rfl | ⟨token, behind, rfl, hdashes, hempty, hlike⟩
      · rfl
      · rfl
      · dsimp only
        rw [if_neg hdashes, if_neg hempty, if_neg (by simp [hlike])]
        rfl

/-! ## The loop -/

theorem parseArgumentList_skip (s : LedgerArgs) (more rest : List (List Char)) :
    parseArgumentList s more.length (more ++ rest) = parseArgumentList s 0 rest := by
  induction more with
  | nil => rfl
  | cons token more ih => exact ih

/-- The loop accepts the command lines, and stores what they say. -/
theorem parseArgumentList_eq_ok {s s' : LedgerArgs} {args : List (List Char)} :
    parseArgumentList s 0 args = .ok (some s') ↔
      ∃ items, CommandLine items args ∧ s.applyAll items = some s' := by
  constructor
  · intro h
    induction hlength : args.length using Nat.strong_induction_on generalizing s args with
    | _ n ih =>
      cases args with
      | nil => exact ⟨[], .done, congrArg some (Option.some.inj (Except.ok.inj h))⟩
      | cons argument rest =>
        rw [parseArgumentList] at h
        cases hturn : parseArgument s argument rest with
        | error message =>
          rw [hturn] at h
          cases h
        | ok turn =>
          rw [hturn] at h
          cases parseArgument_turn hturn with
          | help => cases h
          | stop hargument hrest =>
            rw [hargument, hrest]
            exact ⟨[], .stop, congrArg some (Option.some.inj (Except.ok.inj h))⟩
          | @item item s₁ more behind hrest hitem happly =>
            dsimp only at h
            rw [hrest, parseArgumentList_skip] at h
            have hshort : behind.length < n := by
              rw [← hlength, hrest, List.length_cons, List.length_append]
              omega
            obtain ⟨items, hline, hall⟩ := ih behind.length hshort h rfl
            refine ⟨item :: items, hrest ▸ .item hitem hline, ?_⟩
            rw [LedgerArgs.applyAll, happly, Option.bind_some, hall]
  · rintro ⟨items, hline, hall⟩
    induction hline generalizing s with
    | done => exact congrArg Except.ok hall
    | stop => exact congrArg Except.ok hall
    | @item item items tokens rest hitem hrest ih =>
      rw [LedgerArgs.applyAll, Option.bind_eq_some_iff] at hall
      obtain ⟨s₁, happly, hall⟩ := hall
      cases tokens with
      | nil =>
        cases item with
        | strictXpass => cases hitem
        | _ => cases hitem
      | cons argument more =>
        rw [List.cons_append, parseArgumentList, parseArgument_item hitem happly hrest]
        dsimp only
        rw [parseArgumentList_skip]
        exact ih hall

/-! ## What the variables hold -/

/-- The variables hold what these options say. -/
structure LedgerArgs.Holds (s : LedgerArgs) (items : List ArgItem) : Prop where
  once : (items.map ArgItem.option).Nodup
  dated : ∀ date, .asOf date ∈ items → ∃ day, Denotes date day
  ledgerPath : ∀ path, s.ledgerPath = some path ↔
    .ledger path ∈ items ∨ path = defaultLedgerPath ∧ ∀ path, .ledger path ∉ items
  seenLedger : s.seenLedgerArgument = true ↔ .ledger ∈ items.map ArgItem.option
  resultsPath : ∀ path, s.resultsPath = some path ↔ .results path ∈ items
  seenResults : s.seenResultsArgument = true ↔ .results ∈ items.map ArgItem.option
  strict : s.strictXpass = true ↔ .strictXpass ∈ items
  seenStrict : s.seenStrictXpassArgument = true ↔ .strictXpass ∈ items.map ArgItem.option
  asOf : ∀ date, s.asOfDate = some date ↔ .asOf date ∈ items
  seenAsOf : s.asOfDate.isSome = true ↔ .asOf ∈ items.map ArgItem.option

theorem LedgerArgs.start_holds : LedgerArgs.start.Holds [] where
  once := List.nodup_nil
  dated := by simp
  ledgerPath path := by simp [LedgerArgs.start, eq_comm]
  seenLedger := by simp [LedgerArgs.start]
  resultsPath := by simp [LedgerArgs.start]
  seenResults := by simp [LedgerArgs.start]
  strict := by simp [LedgerArgs.start]
  seenStrict := by simp [LedgerArgs.start]
  asOf := by simp [LedgerArgs.start]
  seenAsOf := by simp [LedgerArgs.start]

theorem not_mem_of_option {item : ArgItem} {items : List ArgItem}
    (h : item.option ∉ items.map ArgItem.option) : item ∉ items :=
  fun hitem => h (List.mem_map_of_mem hitem)

/-- An option is taken if it was not there before, and its date exists. -/
theorem LedgerArgs.Holds.apply_isSome {s : LedgerArgs} {items : List ArgItem} (hs : s.Holds items)
    (item : ArgItem) :
    (s.apply item).isSome = true ↔ item.option ∉ items.map ArgItem.option ∧
      ∀ date, item = .asOf date → ∃ day, Denotes date day := by
  cases item with
  | ledger path => simp [LedgerArgs.apply, ArgItem.option, ← hs.seenLedger]
  | results path => simp [LedgerArgs.apply, ArgItem.option, ← hs.seenResults]
  | strictXpass => simp [LedgerArgs.apply, ArgItem.option, ← hs.seenStrict]
  | asOf date =>
    simp [LedgerArgs.apply, ArgItem.option, ← hs.seenAsOf, validateExpiresDate_eq_ok]

/-- The variables hold what an option says when it was applied. -/
theorem LedgerArgs.Holds.apply {s s' : LedgerArgs} {items : List ArgItem} {item : ArgItem}
    (hs : s.Holds items) (h : s.apply item = some s') : s'.Holds (item :: items) := by
  have hnew := (hs.apply_isSome item).mp (by rw [h, Option.isSome_some])
  have honce : ((item :: items).map ArgItem.option).Nodup := List.nodup_cons.mpr ⟨hnew.1, hs.once⟩
  have hdated : ∀ date, ArgItem.asOf date ∈ item :: items → ∃ day, Denotes date day := by
    intro date hdate
    rcases List.mem_cons.mp hdate with heq | hdate
    · exact hnew.2 date heq.symm
    · exact hs.dated date hdate
  cases item with
  | ledger path =>
    have hnot : ∀ path, .ledger path ∉ items := fun path => not_mem_of_option hnew.1
    simp only [LedgerArgs.apply, Option.ite_none_left_eq_some, Option.some.injEq] at h
    rw [← h.2]
    exact
      { once := honce
        dated := hdated
        ledgerPath := fun path' => by simp [hnot, eq_comm]
        seenLedger := by simp [ArgItem.option]
        resultsPath := by simpa using hs.resultsPath
        seenResults := by simpa [ArgItem.option] using hs.seenResults
        strict := by simpa using hs.strict
        seenStrict := by simpa [ArgItem.option] using hs.seenStrict
        asOf := by simpa using hs.asOf
        seenAsOf := by simpa [ArgItem.option] using hs.seenAsOf }
  | results path =>
    have hnot : ∀ path, .results path ∉ items := fun path => not_mem_of_option hnew.1
    simp only [LedgerArgs.apply, Option.ite_none_left_eq_some, Option.some.injEq] at h
    rw [← h.2]
    exact
      { once := honce
        dated := hdated
        ledgerPath := by simpa using hs.ledgerPath
        seenLedger := by simpa [ArgItem.option] using hs.seenLedger
        resultsPath := fun path' => by simp [hnot, eq_comm]
        seenResults := by simp [ArgItem.option]
        strict := by simpa using hs.strict
        seenStrict := by simpa [ArgItem.option] using hs.seenStrict
        asOf := by simpa using hs.asOf
        seenAsOf := by simpa [ArgItem.option] using hs.seenAsOf }
  | strictXpass =>
    simp only [LedgerArgs.apply, Option.ite_none_left_eq_some, Option.some.injEq] at h
    rw [← h.2]
    exact
      { once := honce
        dated := hdated
        ledgerPath := by simpa using hs.ledgerPath
        seenLedger := by simpa [ArgItem.option] using hs.seenLedger
        resultsPath := by simpa using hs.resultsPath
        seenResults := by simpa [ArgItem.option] using hs.seenResults
        strict := by simp
        seenStrict := by simp [ArgItem.option]
        asOf := by simpa using hs.asOf
        seenAsOf := by simpa [ArgItem.option] using hs.seenAsOf }
  | asOf date =>
    have hnot : ∀ date, .asOf date ∉ items := fun date => not_mem_of_option hnew.1
    simp only [LedgerArgs.apply, Option.ite_none_left_eq_some, Option.some.injEq] at h
    rw [← h.2]
    exact
      { once := honce
        dated := hdated
        ledgerPath := by simpa using hs.ledgerPath
        seenLedger := by simpa [ArgItem.option] using hs.seenLedger
        resultsPath := by simpa using hs.resultsPath
        seenResults := by simpa [ArgItem.option] using hs.seenResults
        strict := by simpa using hs.strict
        seenStrict := by simpa [ArgItem.option] using hs.seenStrict
        asOf := fun date' => by simp [hnot, eq_comm]
        seenAsOf := by simp [ArgItem.option] }

/-- So does a run over the options; they stand in the list from the last to the first. -/
theorem LedgerArgs.Holds.applyAll {s s' : LedgerArgs} {before items : List ArgItem}
    (hs : s.Holds before) (h : s.applyAll items = some s') :
    s'.Holds (items.reverse ++ before) := by
  induction items generalizing s before with
  | nil => exact Option.some.inj h ▸ hs
  | cons item items ih =>
    rw [LedgerArgs.applyAll, Option.bind_eq_some_iff] at h
    obtain ⟨s₁, happly, hall⟩ := h
    rw [List.reverse_cons, List.append_assoc, List.singleton_append]
    exact ih (hs.apply happly) hall

/-- Options that are there once, with dates that exist, are all taken. -/
theorem LedgerArgs.Holds.applyAll_isSome {s : LedgerArgs} {before items : List ArgItem}
    (hs : s.Holds before) (honce : ((items.reverse ++ before).map ArgItem.option).Nodup)
    (hdated : ∀ date, .asOf date ∈ items → ∃ day, Denotes date day) :
    ∃ s', s.applyAll items = some s' := by
  induction items generalizing s before with
  | nil => exact ⟨s, rfl⟩
  | cons item items ih =>
    rw [List.reverse_cons, List.append_assoc, List.singleton_append] at honce
    have hnew : item.option ∉ before.map ArgItem.option := by
      rw [List.map_append, List.map_cons] at honce
      exact (List.nodup_cons.mp (List.nodup_append.mp honce).2.1).1
    have hsome := (hs.apply_isSome item).mpr
      ⟨hnew, fun date hitem => hdated date (hitem ▸ List.mem_cons_self)⟩
    obtain ⟨s₁, happly⟩ := Option.isSome_iff_exists.mp hsome
    obtain ⟨s', hall⟩ :=
      ih (hs.apply happly) honce fun date hdate => hdated date (List.mem_cons_of_mem item hdate)
    exact ⟨s', by rw [LedgerArgs.applyAll, happly, Option.bind_some, hall]⟩

/-! ## The command line -/

theorem parseArgs_configures {args : List (List Char)} {config : LedgerConfig}
    (h : parseArgs args = .ok (.run config)) :
    ∃ items, CommandLine items args ∧ Configures items config := by
  unfold parseArgs at h
  split at h
  · cases h
  · cases h
  · rename_i s hs
    obtain ⟨items, hline, hall⟩ := parseArgumentList_eq_ok.mp hs
    have hholds := LedgerArgs.start_holds.applyAll hall
    rw [List.append_nil] at hholds
    split at h
    · cases h
    · rename_i ledgerPath hledger
      split at h
      · cases h
      · rename_i resultsPath hresults
        rw [Except.ok.injEq, LedgerAction.run.injEq] at h
        rw [← h]
        refine ⟨items, hline, ?_, ?_, ?_, ?_, ?_, ?_⟩
        · exact (List.nodup_reverse.mp (by rw [← List.map_reverse]; exact hholds.once))
        · simpa using hholds.dated
        · simpa using (hholds.resultsPath resultsPath).mp hresults
        · simpa using (hholds.ledgerPath ledgerPath).mp hledger
        · simpa using hholds.strict
        · simpa using hholds.asOf

theorem configures_parseArgs {args : List (List Char)} {config : LedgerConfig}
    {items : List ArgItem} (hline : CommandLine items args) (hconfig : Configures items config) :
    parseArgs args = .ok (.run config) := by
  have honce : ((items.reverse ++ []).map ArgItem.option).Nodup := by
    rw [List.append_nil, List.map_reverse]
    exact List.nodup_reverse.mpr hconfig.once
  obtain ⟨s, hall⟩ := LedgerArgs.start_holds.applyAll_isSome honce hconfig.dated
  have hholds := LedgerArgs.start_holds.applyAll hall
  rw [List.append_nil] at hholds
  have hledger := (hholds.ledgerPath config.ledgerPath).mpr (by simpa using hconfig.ledger)
  have hresults := (hholds.resultsPath config.resultsPath).mpr (by simpa using hconfig.results)
  have hstrict : s.strictXpass = config.strictXpass := by
    rw [Bool.eq_iff_iff, hholds.strict, hconfig.strict, List.mem_reverse]
  have hasOf : s.asOfDate = config.asOfDate := by
    refine Option.ext fun date => ?_
    rw [hholds.asOf, hconfig.asOf, List.mem_reverse]
  unfold parseArgs
  rw [parseArgumentList_eq_ok.mpr ⟨items, hline, hall⟩]
  dsimp only
  rw [hledger, hresults, hstrict, hasOf]

end Rlibc.Tools
