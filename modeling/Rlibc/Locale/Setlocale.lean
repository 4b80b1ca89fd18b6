import Rlibc.Foundations.Calls

/-!
# `setlocale`

The only locale is `C`, so what a call decides is whether the name that it asks for stands for it.
An empty name asks the environment: `LC_ALL`, the variable of the category, then `LANG`.
-/

namespace Rlibc.Locale

/-- `std::env::VarError`. -/
inductive VarError where
  | notPresent
  | notUnicode

abbrev Environment := String → Except VarError (List UInt8)

inductive EnvironmentLocale where
  | notSet
  | supported (localeState : UInt8)
  | unsupported

def localeCState : UInt8 := 0

/-- `LC_ALL`, the category. -/
def lcAll : Int := 6

def envLcAll : String := "LC_ALL"

def envLang : String := "LANG"

def categoryVariables : List (Int × String) :=
  [(0, "LC_CTYPE"), (1, "LC_NUMERIC"), (2, "LC_TIME"), (3, "LC_COLLATE"), (4, "LC_MONETARY"),
    (5, "LC_MESSAGES")]

def isSupportedCategory (category : Int) : Bool := category ∈ [0, 1, 2, 3, 4, 5, 6]

/-- `C` and `POSIX`. -/
def localeNames : List (List UInt8) := [[67], [80, 79, 83, 73, 88]]

def parseLocaleName (localeBytes : List UInt8) : Option UInt8 :=
  if localeBytes ∈ localeNames then some localeCState else none

def parseEnvironmentLocale (env : Environment) (name : String) : EnvironmentLocale :=
  match env name with
  | .ok localeName =>
    if localeName = [] then .notSet
    else
      match parseLocaleName localeName with
      | none => .unsupported
      | some localeState => .supported localeState
  | .error .notPresent => .notSet
  | .error .notUnicode => .unsupported

def resolveLocaleWithFallback : EnvironmentLocale → EnvironmentLocale → Option UInt8
  | .supported localeState, _ => some localeState
  | .unsupported, _ => none
  | .notSet, .supported localeState => some localeState
  | .notSet, .unsupported => none
  | .notSet, .notSet => some localeCState

def categoryVariable (category : Int) : Option String :=
  (categoryVariables.find? fun entry => decide (entry.1 = category)).map (·.2)

def resolveCategoryLocaleFromEnvironment (env : Environment) (category : Int) : Option UInt8 :=
  (categoryVariable category).bind fun name =>
    match parseEnvironmentLocale env envLcAll with
    | .supported localeState => some localeState
    | .unsupported => none
    | .notSet =>
      resolveLocaleWithFallback (parseEnvironmentLocale env name)
        (parseEnvironmentLocale env envLang)

/-- The loop over the categories. -/
def resolveEach (env : Environment) (langLocale : EnvironmentLocale) :
    List (Int × String) → Option UInt8
  | [] => some localeCState
  | entry :: entries =>
    (resolveLocaleWithFallback (parseEnvironmentLocale env entry.2) langLocale).bind
      fun categoryLocale =>
        if categoryLocale ≠ localeCState then none else resolveEach env langLocale entries

def resolveAllCategoriesFromEnvironment (env : Environment) : Option UInt8 :=
  match parseEnvironmentLocale env envLcAll with
  | .supported localeState => some localeState
  | .unsupported => none
  | .notSet => resolveEach env (parseEnvironmentLocale env envLang) categoryVariables

/-- The text behind the pointer, whatever the state. -/
def cLocale : List UInt8 := [67]

/-- A call, with the environment that it finds. -/
structure LocaleCall where
  env : Environment
  category : Int
  locale : Option (List UInt8)

/-- The locale that a call asks for. -/
def nextState (call : LocaleCall) (localeBytes : List UInt8) : Option UInt8 :=
  if localeBytes = [] then
    if call.category = lcAll then resolveAllCategoriesFromEnvironment call.env
    else resolveCategoryLocaleFromEnvironment call.env call.category
  else parseLocaleName localeBytes

/-- The text that the call returns, `none` for a null pointer, and `CURRENT_LOCALE` after it. -/
def setlocale (current : UInt8) (call : LocaleCall) : Option (List UInt8) × UInt8 :=
  if ¬ isSupportedCategory call.category then (none, current)
  else
    match call.locale with
    | none => (some cLocale, current)
    | some localeBytes =>
      match nextState call localeBytes with
      | none => (none, current)
      | some localeState => (some cLocale, localeState)

/-! ## What the environment says -/

/-- The variable has a value. -/
def IsSet (env : Environment) (name : String) : Prop :=
  env name ≠ .error .notPresent ∧ env name ≠ .ok []

/-- The value is a name of the locale. -/
def NamesC (env : Environment) (name : String) : Prop :=
  ∃ value ∈ localeNames, env name = .ok value

/-- The first of the variables that has a value names the locale, if there is one. -/
inductive Accepts (env : Environment) : List String → Prop
  | unset : Accepts env []
  | named {first : String} (rest : List String) (names : NamesC env first) :
      Accepts env (first :: rest)
  | skip {first : String} {rest : List String} (unset : ¬ IsSet env first)
      (later : Accepts env rest) : Accepts env (first :: rest)

/-- The variables of an entry are asked in this order. -/
def asked (entry : Int × String) : List String := [envLcAll, entry.2, envLang]

/-- The call is about the locale `C`: it only asks, or gives a name of it, or finds one in the
environment for each category that it is about. -/
inductive AboutC (call : LocaleCall) : Prop
  | query (locale : call.locale = none)
  | byName {name : List UInt8} (locale : call.locale = some name) (known : name ∈ localeNames)
  | byEnvironment (locale : call.locale = some [])
      (accepts : ∀ entry ∈ categoryVariables, call.category = lcAll ∨ call.category = entry.1 →
        Accepts call.env (asked entry))

theorem NamesC.isSet {env : Environment} {name : String} (h : NamesC env name) : IsSet env name := by
  obtain ⟨value, hmem, hvalue⟩ := h
  unfold IsSet
  rw [hvalue]
  apply And.intro
  · intro h
    cases h
  · intro h
    cases h
    exact absurd hmem (by decide)

theorem accepts_cons_named {env : Environment} {first : String} {rest : List String}
    (h : IsSet env first) : Accepts env (first :: rest) ↔ NamesC env first := by
  constructor
  · intro haccepts
    cases haccepts with
    | named rest names => exact names
    | skip unset later => exact absurd h unset
  · exact .named rest

theorem accepts_cons_skip {env : Environment} {first : String} {rest : List String}
    (h : ¬ IsSet env first) : Accepts env (first :: rest) ↔ Accepts env rest := by
  constructor
  · intro haccepts
    cases haccepts with
    | named rest names => exact absurd names.isSet h
    | skip unset later => exact later
  · exact .skip h

/-- The three values of `parse_environment_locale`. -/
inductive Parsed (env : Environment) (name : String) : Prop
  | notSet (parse : parseEnvironmentLocale env name = .notSet) (unset : ¬ IsSet env name)
  | supported (parse : parseEnvironmentLocale env name = .supported localeCState)
      (names : NamesC env name)
  | unsupported (parse : parseEnvironmentLocale env name = .unsupported) (set : IsSet env name)
      (other : ¬ NamesC env name)

theorem isSet_ok {env : Environment} {name : String} {value : List UInt8} (h : env name = .ok value) :
    IsSet env name ↔ value ≠ [] := by
  unfold IsSet
  rw [h]
  constructor
  · intro hset hempty
    exact hset.2 (congrArg Except.ok hempty)
  · intro hvalue
    apply And.intro
    · intro herror
      cases herror
    · exact fun hempty => hvalue (Except.ok.inj hempty)

theorem namesC_ok {env : Environment} {name : String} {value : List UInt8}
    (h : env name = .ok value) : NamesC env name ↔ value ∈ localeNames := by
  constructor
  · rintro ⟨known, hmem, heq⟩
    rw [h] at heq
    rw [Except.ok.inj heq]
    exact hmem
  · intro hmem
    exact ⟨value, hmem, h⟩

theorem parseEnvironmentLocale_ok {env : Environment} {name : String} {value : List UInt8}
    (h : env name = .ok value) : parseEnvironmentLocale env name =
      if value = [] then .notSet
      else if value ∈ localeNames then .supported localeCState else .unsupported := by
  unfold parseEnvironmentLocale parseLocaleName
  rw [h]
  dsimp only
  by_cases hmem : value ∈ localeNames
  · rw [if_pos hmem, if_pos hmem]
  · rw [if_neg hmem, if_neg hmem]

theorem parsed (env : Environment) (name : String) : Parsed env name := by
  cases hvar : env name with
  | ok value =>
    have hparse := parseEnvironmentLocale_ok hvar
    by_cases hempty : value = []
    · rw [if_pos hempty] at hparse
      exact .notSet hparse fun hset => (isSet_ok hvar).mp hset hempty
    rw [if_neg hempty] at hparse
    by_cases hmem : value ∈ localeNames
    · rw [if_pos hmem] at hparse
      exact .supported hparse ((namesC_ok hvar).mpr hmem)
    · rw [if_neg hmem] at hparse
      exact .unsupported hparse ((isSet_ok hvar).mpr hempty) fun h => hmem ((namesC_ok hvar).mp h)
  | error error =>
    have hnames : ¬ NamesC env name := by
      rintro ⟨value, -, heq⟩
      rw [hvar] at heq
      cases heq
    cases error with
    | notPresent =>
      apply Parsed.notSet
      · unfold parseEnvironmentLocale
        rw [hvar]
      · exact fun h => h.1 hvar
    | notUnicode =>
      apply Parsed.unsupported _ _ hnames
      · unfold parseEnvironmentLocale
        rw [hvar]
      · unfold IsSet
        rw [hvar]
        apply And.intro
        · intro h
          cases h
        · intro h
          cases h

/-- The locale of the first variable that has a value. -/
def firstLocale (env : Environment) : List String → Option UInt8
  | [] => some localeCState
  | name :: names =>
    match parseEnvironmentLocale env name with
    | .notSet => firstLocale env names
    | .supported localeState => some localeState
    | .unsupported => none

theorem firstLocale_eq_some {env : Environment} {names : List String} {localeState : UInt8} :
    firstLocale env names = some localeState ↔ localeState = localeCState ∧ Accepts env names := by
  induction names with
  | nil =>
    rw [firstLocale, Option.some.injEq, eq_comm]
    exact (and_iff_left .unset).symm
  | cons name names ih =>
    rw [firstLocale]
    cases parsed env name with
    | notSet parse unset =>
      rw [parse, accepts_cons_skip unset]
      exact ih
    | supported parse named =>
      rw [parse]
      dsimp only
      rw [Option.some.injEq, eq_comm]
      exact (and_iff_left (.named names named)).symm
    | unsupported parse set other =>
      rw [parse, accepts_cons_named set]
      exact ⟨fun h => absurd h (Option.some_ne_none _).symm, fun h => absurd h.2 other⟩

theorem resolveLocaleWithFallback_eq (env : Environment) (name : String) :
    resolveLocaleWithFallback (parseEnvironmentLocale env name)
        (parseEnvironmentLocale env envLang) = firstLocale env [name, envLang] := by
  rw [firstLocale, firstLocale, firstLocale]
  cases parseEnvironmentLocale env name with
  | notSet => cases parseEnvironmentLocale env envLang <;> rfl
  | supported localeState => rfl
  | unsupported => rfl

theorem resolveEach_eq_some {env : Environment} {entries : List (Int × String)}
    {localeState : UInt8} :
    resolveEach env (parseEnvironmentLocale env envLang) entries = some localeState ↔
      localeState = localeCState ∧ ∀ entry ∈ entries, Accepts env [entry.2, envLang] := by
  induction entries with
  | nil =>
    rw [resolveEach, Option.some.injEq, eq_comm]
    exact (and_iff_left fun entry h => absurd h List.not_mem_nil).symm
  | cons entry entries ih =>
    rw [resolveEach, resolveLocaleWithFallback_eq, Option.bind_eq_some_iff, List.forall_mem_cons]
    constructor
    · rintro ⟨categoryLocale, hfirst, hrest⟩
      obtain ⟨hstate, haccepts⟩ := firstLocale_eq_some.mp hfirst
      rw [if_neg (not_not.mpr hstate)] at hrest
      obtain ⟨hlocale, hall⟩ := ih.mp hrest
      exact ⟨hlocale, haccepts, hall⟩
    · rintro ⟨hlocale, haccepts, hall⟩
      refine ⟨localeCState, firstLocale_eq_some.mpr ⟨rfl, haccepts⟩, ?_⟩
      rw [if_neg (not_not.mpr rfl)]
      exact ih.mpr ⟨hlocale, hall⟩

/-- Every category is asked, or the one of the call. -/
theorem resolveAll_eq_some {env : Environment} {localeState : UInt8} :
    resolveAllCategoriesFromEnvironment env = some localeState ↔
      localeState = localeCState ∧ ∀ entry ∈ categoryVariables, Accepts env (asked entry) := by
  unfold resolveAllCategoriesFromEnvironment asked
  cases parsed env envLcAll with
  | notSet parse unset =>
    rw [parse]
    simp only [accepts_cons_skip unset]
    exact resolveEach_eq_some
  | supported parse names =>
    rw [parse]
    exact ⟨fun h => ⟨(Option.some.inj h).symm, fun entry _ => .named _ names⟩,
      fun h => congrArg some h.1.symm⟩
  | unsupported parse set other =>
    rw [parse]
    simp only [accepts_cons_named set]
    constructor
    · intro h
      cases h
    · intro h
      exact absurd (h.2 (0, "LC_CTYPE") List.mem_cons_self) other

theorem categoryVariable_of_mem :
    ∀ entry ∈ categoryVariables, categoryVariable entry.1 = some entry.2 := by decide

theorem resolveCategory_eq_some {env : Environment} {entry : Int × String} {localeState : UInt8}
    (h : entry ∈ categoryVariables) :
    resolveCategoryLocaleFromEnvironment env entry.1 = some localeState ↔
      localeState = localeCState ∧ Accepts env (asked entry) := by
  have heq : resolveCategoryLocaleFromEnvironment env entry.1 = firstLocale env (asked entry) := by
    unfold resolveCategoryLocaleFromEnvironment asked
    rw [categoryVariable_of_mem entry h, Option.bind_some, firstLocale]
    cases parseEnvironmentLocale env envLcAll with
    | notSet => exact resolveLocaleWithFallback_eq env entry.2
    | supported localeState => rfl
    | unsupported => rfl
  rw [heq]
  exact firstLocale_eq_some

/-! ## Calls -/

theorem exists_entry {category : Int} (h : isSupportedCategory category = true)
    (hall : category ≠ lcAll) : ∃ entry ∈ categoryVariables, entry.1 = category := by
  have hmem : category ∈ [0, 1, 2, 3, 4, 5, 6] := of_decide_eq_true h
  have hsix : category ≠ 6 := hall
  simp only [List.mem_cons, List.not_mem_nil, or_false, hsix] at hmem
  unfold categoryVariables
  rcases hmem with rfl | rfl | rfl | rfl | rfl | rfl <;> simp

/-- In the environment every category that the call is about has to be accepted. -/
theorem nextState_environment {call : LocaleCall}
    (h : isSupportedCategory call.category = true) {localeState : UInt8} :
    nextState call [] = some localeState ↔
      localeState = localeCState ∧ ∀ entry ∈ categoryVariables,
        call.category = lcAll ∨ call.category = entry.1 → Accepts call.env (asked entry) := by
  unfold nextState
  rw [if_pos rfl]
  by_cases hall : call.category = lcAll
  · rw [if_pos hall, resolveAll_eq_some]
    apply and_congr_right
    intro _
    exact ⟨fun haccepts entry hentry _ => haccepts entry hentry,
      fun haccepts entry hentry => haccepts entry hentry (Or.inl hall)⟩
  · rw [if_neg hall]
    obtain ⟨entry, hentry, hcategory⟩ := exists_entry h hall
    rw [← hcategory, resolveCategory_eq_some hentry]
    apply and_congr_right
    intro _
    constructor
    · rintro haccepts other hother (hlc | hsame)
      · exact absurd (hcategory.symm.trans hlc) hall
      · -- two entries of one category have one variable
        have hname := categoryVariable_of_mem other hother
        rw [← hsame, categoryVariable_of_mem entry hentry, Option.some.injEq] at hname
        unfold asked at haccepts ⊢
        rw [← hname]
        exact haccepts
    · intro haccepts
      exact haccepts entry hentry (Or.inr rfl)

/-- What it is to give a name or the empty name. -/
theorem aboutC_some {call : LocaleCall} {localeBytes : List UInt8}
    (h : call.locale = some localeBytes) :
    AboutC call ↔ localeBytes ∈ localeNames ∨ localeBytes = [] ∧ ∀ entry ∈ categoryVariables,
      call.category = lcAll ∨ call.category = entry.1 → Accepts call.env (asked entry) := by
  constructor
  · intro habout
    cases habout with
    | query locale =>
      rw [h] at locale
      cases locale
    | byName locale known =>
      rw [h, Option.some.injEq] at locale
      exact Or.inl (locale ▸ known)
    | byEnvironment locale accepts =>
      rw [h, Option.some.injEq] at locale
      exact Or.inr ⟨locale, accepts⟩
  · rintro (hknown | ⟨hempty, haccepts⟩)
    · exact .byName h hknown
    · exact .byEnvironment (h.trans (congrArg some hempty)) haccepts

theorem nextState_eq_some {call : LocaleCall} (h : isSupportedCategory call.category = true)
    {localeBytes : List UInt8} (hlocale : call.locale = some localeBytes) {localeState : UInt8} :
    nextState call localeBytes = some localeState ↔ localeState = localeCState ∧ AboutC call := by
  rw [aboutC_some hlocale]
  by_cases hempty : localeBytes = []
  · subst hempty
    have hunknown : [] ∉ localeNames := by decide
    rw [nextState_environment h, or_iff_right hunknown]
    exact and_congr_right fun _ => (and_iff_right rfl).symm
  · unfold nextState parseLocaleName
    rw [if_neg hempty, or_iff_left fun h => hempty h.1]
    by_cases hknown : localeBytes ∈ localeNames
    · rw [if_pos hknown, Option.some.injEq, eq_comm]
      exact (and_iff_left hknown).symm
    · rw [if_neg hknown]
      exact ⟨fun hnone => absurd hnone (Option.some_ne_none _).symm, fun h => absurd h.2 hknown⟩

/-- A call is granted where it is about the locale, and the locale stays. -/
inductive Granted (call : LocaleCall) : Prop
  | granted (supported : isSupportedCategory call.category = true) (about : AboutC call)
      (answer : setlocale localeCState call = (some cLocale, localeCState))
  | denied (other : ¬ (isSupportedCategory call.category = true ∧ AboutC call))
      (answer : setlocale localeCState call = (none, localeCState))

theorem granted (call : LocaleCall) : Granted call := by
  by_cases hcategory : isSupportedCategory call.category = true
  · cases hlocale : call.locale with
    | none =>
      apply Granted.granted hcategory (.query hlocale)
      unfold setlocale
      rw [if_neg (not_not.mpr hcategory), hlocale]
    | some localeBytes =>
      have hanswer : setlocale localeCState call =
          match nextState call localeBytes with
          | none => (none, localeCState)
          | some localeState => (some cLocale, localeState) := by
        unfold setlocale
        rw [if_neg (not_not.mpr hcategory), hlocale]
      cases hnext : nextState call localeBytes with
      | none =>
        rw [hnext] at hanswer
        apply Granted.denied _ hanswer
        rintro ⟨-, habout⟩
        rw [(nextState_eq_some hcategory hlocale).mpr ⟨rfl, habout⟩] at hnext
        cases hnext
      | some localeState =>
        obtain ⟨hstate, habout⟩ := (nextState_eq_some hcategory hlocale).mp hnext
        rw [hnext, hstate] at hanswer
        exact .granted hcategory habout hanswer
  · apply Granted.denied fun h => hcategory h.1
    unfold setlocale
    rw [if_pos hcategory]

/-- **The one locale.**  However the environment changes between calls, the locale stays what it is,
and a call returns its name exactly if its category is one and it is about that locale. -/
theorem setlocale_answers (calls : List LocaleCall) :
    (Calls.answers setlocale localeCState calls).2 = localeCState ∧
      List.Forall₂ (fun call reply => (reply = some cLocale ∨ reply = none) ∧
          (reply = some cLocale ↔ isSupportedCategory call.category = true ∧ AboutC call))
        calls (Calls.answers setlocale localeCState calls).1 := by
  induction calls with
  | nil => exact ⟨rfl, .nil⟩
  | cons call calls ih =>
    have hsame : (setlocale localeCState call).2 = localeCState := by
      cases granted call with
      | granted supported about answer => exact congrArg Prod.snd answer
      | denied other answer => exact congrArg Prod.snd answer
    rw [← hsame] at ih
    rw [Calls.answers]
    refine ⟨ih.1.trans hsame, .cons ?_ ?_⟩
    · cases granted call with
      | granted supported about answer =>
        rw [answer]
        exact ⟨Or.inl rfl, fun _ => ⟨supported, about⟩, fun _ => rfl⟩
      | denied other answer =>
        rw [answer]
        exact ⟨Or.inr rfl, fun h => absurd h (Option.some_ne_none _).symm, fun h => absurd h other⟩
    · exact hsame ▸ ih.2

end Rlibc.Locale
