import Rlibc.Dlfcn.RefCounting

/-!
# The search of `dlsym`

In which scopes a symbol is looked up depends on the handle, and for a handle of `dlopen` on how it
was opened last.  A search that fails leaves a message that names the symbol, with what the host
says about it; the host may begin with the symbol too, which is not repeated.
-/

namespace Rlibc.Dlfcn

open RefCounts Text

/-! ## The message of a missing symbol -/

/-- White space or a colon. -/
def isSeparator (c : Char) : Bool := isWhitespace c || c = ':'

theorem length_trimStart_le (text : List Char) : (trimStart text).length ≤ text.length :=
  (List.dropWhile_suffix _).length_le

/-- `while let Some(rest) = collapsed.trim_start().strip_prefix(':')`. -/
def collapseColons (text : List Char) : List Char :=
  match _h : trimStart text with
  | [] => text
  | c :: rest => if c = ':' then collapseColons rest else text
termination_by text.length
decreasing_by
  have hle := length_trimStart_le text
  rw [_h, List.length_cons] at hle
  omega

theorem collapseColons_of_cons {text rest : List Char} {c : Char}
    (h : trimStart text = c :: rest) :
    collapseColons text = if c = ':' then collapseColons rest else text := by
  rw [collapseColons]
  split
  · rename_i h'
    rw [h] at h'
    cases h'
  · rename_i h'
    rw [h] at h'
    cases h'
    rfl

theorem dropWhile_trimStart (text : List Char) :
    (trimStart text).dropWhile isSeparator = text.dropWhile isSeparator := by
  induction text with
  | nil => rfl
  | cons c text ih =>
    unfold trimStart at ih ⊢
    by_cases hc : isWhitespace c = true
    · have hsep : isSeparator c = true := by
        unfold isSeparator
        rw [hc, Bool.true_or]
      rw [List.dropWhile_cons_of_pos hsep, List.dropWhile_cons_of_pos hc]
      exact ih
    · rw [List.dropWhile_cons_of_neg (p := isWhitespace) hc]

/-- What is left after a trim begins with something else than white space. -/
theorem trimStart_head {text rest : List Char} {c : Char} (h : trimStart text = c :: rest) :
    isWhitespace c = false := by
  have hhead := List.head?_dropWhile_not isWhitespace text
  unfold trimStart at h
  rw [h] at hhead
  simpa using hhead

/-- With the trim behind it, the loop drops all separators. -/
theorem trimStart_collapseColons (text : List Char) :
    trimStart (collapseColons text) = text.dropWhile isSeparator := by
  induction hlength : text.length using Nat.strong_induction_on generalizing text with
  | _ n ih =>
    rw [← dropWhile_trimStart text]
    cases h : trimStart text with
    | nil =>
      rw [collapseColons]
      split
      · exact h
      · rename_i h'
        rw [h] at h'
        cases h'
    | cons c rest =>
      rw [collapseColons_of_cons h]
      by_cases hc : c = ':'
      · have hsep : isSeparator c = true := by
          unfold isSeparator
          rw [hc]
          rfl
        have hle := length_trimStart_le text
        rw [h, List.length_cons] at hle
        rw [if_pos hc, List.dropWhile_cons_of_pos hsep]
        exact ih rest.length (by omega) rest rfl
      · have hsep : ¬ isSeparator c = true := by
          unfold isSeparator
          simp [trimStart_head h, hc]
        rw [if_neg hc, List.dropWhile_cons_of_neg hsep, h]

/-- The loop of `normalize_dlsym_missing_symbol_detail`. -/
def stripEchoes (symbolLabel normalized : List Char) : Option (List Char) :=
  match _hlabel : symbolLabel.isPrefixOf? normalized with
  | none => some normalized
  | some afterSymbol =>
    match _hafter : trimStart afterSymbol with
    | [] => none
    | c :: afterSeparator =>
      if c = ':' then
        let collapsed := trimStart (collapseColons afterSeparator)
        if collapsed = [] then none else stripEchoes symbolLabel collapsed
      else some normalized
termination_by normalized.length
decreasing_by
  have hlength := congrArg List.length (isPrefixOf?_eq_some.mp _hlabel)
  have hafter := length_trimStart_le afterSymbol
  have hcollapsed := (List.dropWhile_suffix (l := afterSeparator) isSeparator).length_le
  rw [_hafter, List.length_cons] at hafter
  rw [List.length_append] at hlength
  rw [trimStart_collapseColons]
  omega

def normalizeDlsymMissingSymbolDetail (symbolLabel detail : List Char) : Option (List Char) :=
  let trimmedDetail := trim detail
  if trimmedDetail = [] then none else stripEchoes symbolLabel trimmedDetail

/-- The text does not echo the symbol: what comes behind the symbol, if it begins with it, is more
than white space and no colon. -/
def Settled (symbolLabel core : List Char) : Prop :=
  core ≠ [] ∧ ∀ after, core = symbolLabel ++ after → ∃ c rest, trimStart after = c :: rest ∧ c ≠ ':'

/-- The text is `core` behind any number of echoes of the symbol, each with its separators. -/
inductive Echoes (symbolLabel : List Char) : List Char → List Char → Prop
  | settled {core : List Char} (hcore : Settled symbolLabel core) : Echoes symbolLabel core core
  | echo {pad seps rest core : List Char} (hpad : Blank pad)
      (hseps : ∀ c ∈ seps, isSeparator c = true) (hrest : ∀ c ∈ rest.head?, isSeparator c = false)
      (hechoes : Echoes symbolLabel rest core) :
      Echoes symbolLabel (symbolLabel ++ (pad ++ ':' :: (seps ++ rest))) core

section Echoes

variable {symbolLabel normalized after rest core : List Char} {c : Char}

theorem stripEchoes_of_none (h : symbolLabel.isPrefixOf? normalized = none) :
    stripEchoes symbolLabel normalized = some normalized := by
  rw [stripEchoes]
  split
  · rfl
  · rename_i h'
    rw [h] at h'
    cases h'

theorem stripEchoes_append_nil (h : trimStart after = []) :
    stripEchoes symbolLabel (symbolLabel ++ after) = none := by
  rw [stripEchoes]
  split
  · rename_i h'
    rw [isPrefixOf?_append] at h'
    cases h'
  · rename_i h'
    rw [isPrefixOf?_append] at h'
    cases h'
    split
    · rfl
    · rename_i h''
      rw [h] at h''
      cases h''

theorem stripEchoes_append_cons (h : trimStart after = c :: rest) :
    stripEchoes symbolLabel (symbolLabel ++ after) =
      if c = ':' then
        if rest.dropWhile isSeparator = [] then none
        else stripEchoes symbolLabel (rest.dropWhile isSeparator)
      else some (symbolLabel ++ after) := by
  rw [stripEchoes]
  split
  · rename_i h'
    rw [isPrefixOf?_append] at h'
    cases h'
  · rename_i h'
    rw [isPrefixOf?_append] at h'
    cases h'
    split
    · rename_i h''
      rw [h] at h''
      cases h''
    · rename_i h''
      rw [h] at h''
      cases h''
      dsimp only
      rw [trimStart_collapseColons]

theorem Echoes.settled_core (h : Echoes symbolLabel normalized core) :
    Settled symbolLabel core := by
  induction h with
  | settled hcore => exact hcore
  | echo _ _ _ _ ih => exact ih

theorem Echoes.ne_nil (h : Echoes symbolLabel normalized core) : normalized ≠ [] := by
  cases h with
  | settled hcore => exact hcore.1
  | echo hpad hseps hrest hechoes => simp

theorem Settled.stripEchoes_eq (h : Settled symbolLabel core) :
    stripEchoes symbolLabel core = some core := by
  cases hcut : symbolLabel.isPrefixOf? core with
  | none => exact stripEchoes_of_none hcut
  | some after =>
    rw [isPrefixOf?_eq_some] at hcut
    obtain ⟨c, rest, htrim, hc⟩ := h.2 after hcut
    rw [hcut, stripEchoes_append_cons htrim, if_neg hc]

theorem trimStart_blank_append {pad : List Char} (hpad : Blank pad) (text : List Char) :
    trimStart (pad ++ text) = trimStart text :=
  List.dropWhile_append_of_pos hpad

theorem Echoes.stripEchoes_eq (h : Echoes symbolLabel normalized core) :
    stripEchoes symbolLabel normalized = some core := by
  induction h with
  | settled hcore => exact hcore.stripEchoes_eq
  | @echo pad seps rest core hpad hseps hrest hechoes ih =>
    have hcolon : trimStart (pad ++ ':' :: (seps ++ rest)) = ':' :: (seps ++ rest) := by
      rw [trimStart_blank_append hpad]
      exact List.dropWhile_cons_of_neg (by decide)
    have hdrop : (seps ++ rest).dropWhile isSeparator = rest := by
      rw [List.dropWhile_append_of_pos hseps]
      cases rest with
      | nil => rfl
      | cons c rest =>
        have hc := hrest c rfl
        exact List.dropWhile_cons_of_neg (by rw [hc]; exact Bool.false_ne_true)
    rw [stripEchoes_append_cons hcolon, if_pos rfl, hdrop, if_neg hechoes.ne_nil]
    exact ih

/-- What the loop leaves is what stands behind the echoes. -/
theorem stripEchoes_eq_some (hne : normalized ≠ []) :
    stripEchoes symbolLabel normalized = some core ↔ Echoes symbolLabel normalized core := by
  refine ⟨fun h => ?_, fun h => h.stripEchoes_eq⟩
  induction hlength : normalized.length using Nat.strong_induction_on generalizing normalized with
  | _ n ih =>
    cases hcut : symbolLabel.isPrefixOf? normalized with
    | none =>
      rw [stripEchoes_of_none hcut] at h
      rw [← Option.some.inj h]
      refine .settled ⟨hne, fun after hafter => ?_⟩
      rw [hafter, isPrefixOf?_append] at hcut
      cases hcut
    | some after =>
      rw [isPrefixOf?_eq_some] at hcut
      rw [hcut] at h ⊢
      cases htrim : trimStart after with
      | nil =>
        rw [stripEchoes_append_nil htrim] at h
        cases h
      | cons c rest =>
        rw [stripEchoes_append_cons htrim] at h
        by_cases hc : c = ':'
        · rw [if_pos hc] at h
          split at h
          · cases h
          -- The white space before the colon, the separators behind it, and the rest of the text.
          · rename_i hrest
            have hsplit : after = after.takeWhile isWhitespace ++
                ':' :: (rest.takeWhile isSeparator ++ rest.dropWhile isSeparator) := by
              rw [List.takeWhile_append_dropWhile, ← hc, ← htrim]
              exact List.takeWhile_append_dropWhile.symm
            have hlengths := congrArg List.length hcut
            have hafter := length_trimStart_le after
            have hdropped := (List.dropWhile_suffix (l := rest) isSeparator).length_le
            rw [htrim, List.length_cons] at hafter
            rw [List.length_append] at hlengths
            have hechoes := ih _ (by omega) hrest h rfl
            rw [hsplit]
            refine .echo (fun c hc => ?_) (fun c hc => List.mem_takeWhile_imp hc) ?_ hechoes
            · exact List.mem_takeWhile_imp hc
            · intro c hc
              have hhead := List.head?_dropWhile_not isSeparator rest
              rw [Option.mem_def.mp hc] at hhead
              simpa using hhead
        · rw [if_neg hc] at h
          rw [← Option.some.inj h]
          refine .settled ⟨hcut ▸ hne, fun after' hafter' => ?_⟩
          rw [← List.append_cancel_left hafter']
          exact ⟨c, rest, htrim, hc⟩

/-- A text without white space at its ends leaves one without. -/
theorem Echoes.trim_core (h : Echoes symbolLabel normalized core)
    (hhead : ∀ c ∈ normalized.head?, isWhitespace c = false)
    (hlast : ∀ c ∈ normalized.getLast?, isWhitespace c = false) : trim core = core := by
  induction h with
  | settled hcore => exact trim_eq_self hhead hlast
  | @echo pad seps rest core hpad hseps hrest hechoes ih =>
    apply ih
    · intro c hc
      have hsep := hrest c hc
      unfold isSeparator at hsep
      rw [Bool.or_eq_false_iff] at hsep
      exact hsep.1
    · intro c hc
      apply hlast
      obtain ⟨c', rest', hrest'⟩ := List.exists_cons_of_ne_nil hechoes.ne_nil
      rw [← List.cons_append, ← List.append_assoc, ← List.append_assoc, hrest',
        List.getLast?_append_of_ne_nil _ (List.cons_ne_nil _ _), ← hrest']
      exact hc

/-- The detail without the echoes, or nothing; normalizing again changes nothing. -/
theorem normalize_spec (symbolLabel detail : List Char) :
    (∀ core, normalizeDlsymMissingSymbolDetail symbolLabel detail = some core ↔
      Echoes symbolLabel (trim detail) core) ∧
    ∀ core, normalizeDlsymMissingSymbolDetail symbolLabel detail = some core →
      trim core = core ∧ normalizeDlsymMissingSymbolDetail symbolLabel core = some core := by
  have hiff : ∀ core, normalizeDlsymMissingSymbolDetail symbolLabel detail = some core ↔
      Echoes symbolLabel (trim detail) core := by
    intro core
    unfold normalizeDlsymMissingSymbolDetail
    dsimp only
    split
    · rename_i hnil
      constructor
      · intro h
        cases h
      · exact fun h => absurd hnil h.ne_nil
    · rename_i hne
      exact stripEchoes_eq_some hne
  refine ⟨hiff, fun core hcore => ?_⟩
  have hechoes := (hiff core).mp hcore
  have htrim := hechoes.trim_core (trim_head detail) (trim_getLast detail)
  refine ⟨htrim, ?_⟩
  unfold normalizeDlsymMissingSymbolDetail
  dsimp only
  rw [htrim, if_neg hechoes.settled_core.1]
  exact hechoes.settled_core.stripEchoes_eq

end Echoes

/-! ## Scopes -/

/-- The definitions of this library, and the loader of the host. -/
structure SymbolTables where
  resolveRlibcSymbol : List UInt8 → Option Handle
  /-- `host_dlsym()`, which returns null for what it does not find. -/
  hostDlsym : Option (Handle → List UInt8 → Handle)
  /-- `take_host_dlerror_message()` after a lookup that found nothing. -/
  hostMessage : Handle → List UInt8 → Option (List Char)
  toStringLossy : List UInt8 → List Char

namespace SymbolTables

variable (tables : SymbolTables) (handle : Handle) (symbol : List UInt8)

/-- `set_dlsym_missing_symbol_message` -/
def missingSymbolMessage (detail : Option (List Char)) : List Char :=
  if symbol = [] then "rlibc: requested symbol was not found: <empty symbol>".toList
  else
    let symbolLabel := tables.toStringLossy symbol
    withDetail ("rlibc: requested symbol was not found: ".toList ++ symbolLabel)
      (detail.bind (normalizeDlsymMissingSymbolDetail symbolLabel))

def performHostDlsymLookup (hostHandle : Handle) : Option (Handle × Option (List Char)) :=
  tables.hostDlsym.map fun hostDlsym =>
    let resolved := hostDlsym hostHandle symbol
    (resolved, if resolved = nullHandle then tables.hostMessage hostHandle symbol else none)

/-- The handle that the host is asked with. -/
def hostLookupHandle : DlsymHandleKind → Handle
  | .default => nullHandle
  | .next => handle
  | .external => handle
  | .mainProgram => if handle = internalMainProgramHandleId then nullHandle else handle
  | .internal => nullHandle

/-- `dlsym_with_registry_guard`, once the handle is classified and the symbol is not null. -/
def dlsymLookup (handleKind : DlsymHandleKind) : Except (List Char) Handle :=
  if handleKind = .internal then
    match tables.resolveRlibcSymbol symbol with
    | some rlibcSymbol => .ok rlibcSymbol
    | none =>
      match (if handle = internalProcSelfExeHandleId then
          tables.performHostDlsymLookup symbol nullHandle else none) with
      | some (resolved, _) =>
        if resolved ≠ nullHandle then .ok resolved
        else .error (tables.missingSymbolMessage symbol none)
      | none => .error (tables.missingSymbolMessage symbol none)
  else
    match (if handleKind = .default ∨ handleKind = .mainProgram then
        tables.resolveRlibcSymbol symbol else none) with
    | some rlibcSymbol => .ok rlibcSymbol
    | none =>
      match tables.performHostDlsymLookup symbol (hostLookupHandle handle handleKind) with
      | none =>
        match (if handleKind = .next then tables.resolveRlibcSymbol symbol else none) with
        | some rlibcSymbol => .ok rlibcSymbol
        | none => .error "rlibc: host dlsym resolver unavailable".toList
      | some (resolved, hostDetail) =>
        if resolved = nullHandle then
          match (if handleKind = .next then tables.resolveRlibcSymbol symbol else none) with
          | some rlibcSymbol => .ok rlibcSymbol
          | none => .error (tables.missingSymbolMessage symbol hostDetail)
        else .ok resolved

end SymbolTables

/-- Where a symbol can be defined: in this library, or in what the host finds from a handle. -/
inductive Scope where
  | rlibc
  | host (handle : Handle)
deriving DecidableEq

/-- The scopes that stand behind a handle, in the order in which they count. -/
def searchOrder (handle : Handle) : DlsymHandleKind → List Scope
  | .default => [.rlibc, .host nullHandle]
  | .next => [.host handle, .rlibc]
  | .mainProgram =>
    [.rlibc, .host (if handle = internalMainProgramHandleId then nullHandle else handle)]
  | .internal =>
    if handle = internalProcSelfExeHandleId then [.rlibc, .host nullHandle] else [.rlibc]
  | .external => [.host handle]

/-- The definition that a scope has. -/
def SymbolTables.find (tables : SymbolTables) (symbol : List UInt8) : Scope → Option Handle
  | .rlibc => tables.resolveRlibcSymbol symbol
  | .host handle =>
    tables.hostDlsym.bind fun hostDlsym =>
      if hostDlsym handle symbol = nullHandle then none else some (hostDlsym handle symbol)

/-- Why nothing was found: the host could not be asked, or it has no such symbol either. -/
def SymbolTables.failureMessage (tables : SymbolTables) (handle : Handle) (symbol : List UInt8)
    (handleKind : DlsymHandleKind) : List Char :=
  if handleKind = .internal then tables.missingSymbolMessage symbol none
  else if tables.hostDlsym.isNone then "rlibc: host dlsym resolver unavailable".toList
  else
    tables.missingSymbolMessage symbol
      (tables.hostMessage (SymbolTables.hostLookupHandle handle handleKind) symbol)

/-- What the host answers, and what its scope has. -/
theorem SymbolTables.performHostDlsymLookup_cases (tables : SymbolTables) (symbol : List UInt8)
    (hostHandle : Handle) :
    (tables.hostDlsym.isNone = true ∧ tables.performHostDlsymLookup symbol hostHandle = none ∧
      tables.find symbol (.host hostHandle) = none) ∨
    (tables.hostDlsym.isNone = false ∧ tables.performHostDlsymLookup symbol hostHandle =
        some (nullHandle, tables.hostMessage hostHandle symbol) ∧
      tables.find symbol (.host hostHandle) = none) ∨
    ∃ resolved, resolved ≠ nullHandle ∧
      tables.performHostDlsymLookup symbol hostHandle = some (resolved, none) ∧
      tables.find symbol (.host hostHandle) = some resolved := by
  unfold performHostDlsymLookup find
  cases tables.hostDlsym with
  | none => exact Or.inl ⟨rfl, rfl, rfl⟩
  | some hostDlsym =>
    by_cases hnull : hostDlsym hostHandle symbol = nullHandle
    · refine Or.inr (Or.inl ⟨rfl, ?_, if_pos hnull⟩)
      rw [Option.map_some]
      dsimp only
      rw [hnull, if_pos rfl]
    · refine Or.inr (Or.inr ⟨_, hnull, ?_, if_neg hnull⟩)
      rw [Option.map_some]
      dsimp only
      rw [if_neg hnull]

theorem findSome?_pair {α β : Type} (f : α → Option β) (x y : α) :
    [x, y].findSome? f = (f x).or (f y) := by
  cases hx : f x <;> cases hy : f y <;> simp [List.findSome?, hx, hy]

theorem findSome?_single {α β : Type} (f : α → Option β) (x : α) : [x].findSome? f = f x := by
  cases hx : f x <;> simp [List.findSome?, hx]

/-- The lookup finds the first definition in the order of the scopes. -/
theorem SymbolTables.dlsymLookup_eq (tables : SymbolTables) (handle : Handle)
    (symbol : List UInt8) (handleKind : DlsymHandleKind) :
    tables.dlsymLookup handle symbol handleKind =
      ((searchOrder handle handleKind).findSome? (tables.find symbol)).elim
        (.error (tables.failureMessage handle symbol handleKind)) .ok := by
  have hrlibc : tables.find symbol .rlibc = tables.resolveRlibcSymbol symbol := rfl
  have hhost := tables.performHostDlsymLookup_cases symbol (hostLookupHandle handle handleKind)
  unfold dlsymLookup failureMessage searchOrder
  cases handleKind with
  | default =>
    rw [if_neg (by decide), if_pos (Or.inl rfl), findSome?_pair, hrlibc]
    cases tables.resolveRlibcSymbol symbol with
    | some rlibcSymbol => rfl
    | none =>
      rw [hostLookupHandle] at hhost ⊢
      rcases hhost with ⟨hnone, hperform, hfind⟩ | ⟨hsome, hperform, hfind⟩ |
        ⟨resolved, hnull, hperform, hfind⟩
      · rw [hperform, hfind, if_neg (by decide), hnone]
        rfl
      · rw [hperform, hfind, if_neg (by decide), hsome]
        rfl
      · rw [hperform, hfind]
        exact if_neg hnull
  -- The host comes first; this library is what is left when it has nothing or cannot be asked.
  | next =>
    rw [if_neg (by decide), if_neg (by decide), findSome?_pair, hrlibc]
    rw [hostLookupHandle] at hhost ⊢
    rcases hhost with ⟨hnone, hperform, hfind⟩ | ⟨hsome, hperform, hfind⟩ |
      ⟨resolved, hnull, hperform, hfind⟩
    · rw [hperform, hfind, if_pos rfl, if_neg (by decide), hnone]
      cases tables.resolveRlibcSymbol symbol with
      | some rlibcSymbol => rfl
      | none => rfl
    · rw [hperform, hfind, if_pos rfl, if_neg (by decide), hsome]
      cases tables.resolveRlibcSymbol symbol with
      | some rlibcSymbol => rfl
      | none => rfl
    · rw [hperform, hfind]
      exact if_neg hnull
  | mainProgram =>
    rw [if_neg (by decide), if_pos (Or.inr rfl), findSome?_pair, hrlibc]
    cases tables.resolveRlibcSymbol symbol with
    | some rlibcSymbol => rfl
    | none =>
      rw [show (if handle = internalMainProgramHandleId then nullHandle else handle) =
        hostLookupHandle handle .mainProgram from rfl]
      rcases hhost with ⟨hnone, hperform, hfind⟩ | ⟨hsome, hperform, hfind⟩ |
        ⟨resolved, hnull, hperform, hfind⟩
      · rw [hperform, hfind, if_neg (by decide), hnone]
        rfl
      · rw [hperform, hfind, if_neg (by decide), hsome]
        rfl
      · rw [hperform, hfind]
        exact if_neg hnull
  -- The host is asked only for `/proc/self/exe`, and what it says is dropped.
  | internal =>
    rw [if_pos rfl, if_pos rfl]
    rw [hostLookupHandle] at hhost
    by_cases hexe : handle = internalProcSelfExeHandleId
    · rw [if_pos hexe, if_pos hexe, findSome?_pair, hrlibc]
      cases tables.resolveRlibcSymbol symbol with
      | some rlibcSymbol => rfl
      | none =>
        rcases hhost with ⟨hnone, hperform, hfind⟩ | ⟨hsome, hperform, hfind⟩ |
          ⟨resolved, hnull, hperform, hfind⟩
        · rw [hperform, hfind]
          rfl
        · rw [hperform, hfind]
          rfl
        · rw [hperform, hfind]
          exact if_pos hnull
    · rw [if_neg hexe, if_neg hexe, findSome?_single, hrlibc]
      cases tables.resolveRlibcSymbol symbol with
      | some rlibcSymbol => rfl
      | none => rfl
  | external =>
    rw [if_neg (by decide), if_neg (by decide), findSome?_single]
    rw [hostLookupHandle] at hhost ⊢
    rcases hhost with ⟨hnone, hperform, hfind⟩ | ⟨hsome, hperform, hfind⟩ |
      ⟨resolved, hnull, hperform, hfind⟩
    · rw [hperform, hfind, if_neg (by decide), hnone]
      rfl
    · rw [hperform, hfind, if_neg (by decide), hsome]
      rfl
    · rw [hperform, hfind]
      exact if_neg hnull

theorem withDetail_of_trim {baseMessage core : List Char} (htrim : trim core = core)
    (hne : core ≠ []) :
    withDetail baseMessage (some core) = baseMessage ++ ": ".toList ++ core := by
  have hfilter : ((some core).map trim).filter (· ≠ []) = some core := by
    rw [Option.map_some, htrim]
    simp [Option.filter, hne]
  unfold withDetail
  rw [hfilter]

/-- **No echo.**  The message of a missing symbol names it once: what the host says follows without
the echoes of the symbol before it, and is left out if nothing else is said; and what follows has no
echo to remove. -/
theorem SymbolTables.missingSymbolMessage_echoes (tables : SymbolTables) {symbol : List UInt8}
    (hsymbol : symbol ≠ []) (detail : List Char) :
    (∀ core, Echoes (tables.toStringLossy symbol) (trim detail) core →
      tables.missingSymbolMessage symbol (some detail) =
          "rlibc: requested symbol was not found: ".toList ++ tables.toStringLossy symbol ++
            ": ".toList ++ core ∧
        tables.missingSymbolMessage symbol (some core) =
          tables.missingSymbolMessage symbol (some detail)) ∧
    ((∀ core, ¬ Echoes (tables.toStringLossy symbol) (trim detail) core) →
      tables.missingSymbolMessage symbol (some detail) =
        "rlibc: requested symbol was not found: ".toList ++ tables.toStringLossy symbol) := by
  have hspec := normalize_spec (tables.toStringLossy symbol) detail
  refine ⟨fun core hcore => ?_, fun hnone => ?_⟩
  · have hnormalized := (hspec.1 core).mpr hcore
    obtain ⟨htrim, hagain⟩ := hspec.2 core hnormalized
    unfold missingSymbolMessage
    rw [if_neg hsymbol, if_neg hsymbol]
    dsimp only
    rw [Option.bind_some, Option.bind_some, hnormalized, hagain]
    exact ⟨withDetail_of_trim htrim hcore.settled_core.1, rfl⟩
  · have hnormalized :
        normalizeDlsymMissingSymbolDetail (tables.toStringLossy symbol) detail = none := by
      rw [Option.eq_none_iff_forall_ne_some]
      exact fun core hcore => hnone core ((hspec.1 core).mp hcore)
    unfold missingSymbolMessage
    rw [if_neg hsymbol]
    dsimp only
    rw [Option.bind_some, hnormalized]
    rfl

/-- A host that knows one symbol of the object at `0x1000`, and not `g`. -/
def sampleTables : SymbolTables where
  resolveRlibcSymbol _ := none
  hostDlsym := some fun handle symbol => if handle = 0x1000 ∧ symbol = [102] then 0x2000 else 0
  hostMessage _ _ := some ['g', ':', ':', 'g', ':', ' ', 'n', 'o']
  toStringLossy _ := ['g']

theorem missingSymbolMessage_echoes_chain :
    sampleTables.missingSymbolMessage [103] (some ['g', ':', ':', 'g', ':', ' ', 'n', 'o']) =
      "rlibc: requested symbol was not found: ".toList ++ ['g'] ++ ": ".toList ++ ['n', 'o'] := by
  have hcore : Echoes ['g'] ['n', 'o'] ['n', 'o'] := by
    refine .settled ⟨List.cons_ne_nil _ _, fun after hafter => ?_⟩
    cases hafter
  have hblank : Blank [] := fun _ h => absurd h List.not_mem_nil
  have hinner : Echoes ['g'] ['g', ':', ' ', 'n', 'o'] ['n', 'o'] :=
    @Echoes.echo _ [] [' '] _ _ hblank (by simp [isSeparator, isWhitespace])
      (by simp [isSeparator, isWhitespace]) hcore
  have houter : Echoes ['g'] (trim ['g', ':', ':', 'g', ':', ' ', 'n', 'o']) ['n', 'o'] :=
    @Echoes.echo _ [] [':'] _ _ hblank (by simp [isSeparator])
      (by simp [isSeparator, isWhitespace]) hinner
  exact ((sampleTables.missingSymbolMessage_echoes (List.cons_ne_nil _ _) _).1 _ houter).1

/-! ## From any state of the loader -/

section Search

variable {Thread Path Object Symbol : Type} [DecidableEq Thread] [DecidableEq Path]

/-- What a handle stands for after the calls so far: a handle of `dlopen` that is still open stands
for what it was opened as last. -/
def Loader.openedAs (s : Loader Thread) (handle : Handle) : Option DlsymHandleKind :=
  if handle = nullHandle then some .default
  else if handle = rtldNext then some .next
  else if s.closes handle < s.opens handle then (s.origin handle).map OpenOrigin.kind
  else none

omit [DecidableEq Thread] in
theorem Consistent.classify_eq {s : Loader Thread} (h : Consistent s) {handle : Handle}
    (hexact : Exact usizeMax handle s.history) :
    (∀ kind, s.openedAs handle = some kind → classifyDlsymHandle handle s.registry = .ok kind) ∧
    (s.openedAs handle = none → classifyDlsymHandle handle s.registry =
      .error (if s.opens handle = 0 then dlerrorInvalidHandle else dlerrorAlreadyClosed)) := by
  unfold Loader.openedAs
  by_cases hnull : handle = nullHandle
  · rw [if_pos hnull, hnull]
    exact ⟨fun kind hkind => congrArg Except.ok (Option.some.inj hkind), fun h => by cases h⟩
  by_cases hnext : handle = rtldNext
  · rw [if_neg hnull, if_pos hnext, hnext]
    exact ⟨fun kind hkind => congrArg Except.ok (Option.some.inj hkind), fun h => by cases h⟩
  rw [if_neg hnull, if_neg hnext]
  have hstatus := hexact.status_eq
  by_cases hopen : s.closes handle < s.opens handle
  · rw [if_pos hopen]
    obtain ⟨count, hcount⟩ := Status.ofCounts_eq_live.mpr hopen
    obtain ⟨origin, horigin, hclassify⟩ :=
      h.records.classify_live hnull hnext (hstatus.trans hcount)
    have horigin' : s.origin handle = some origin := horigin
    rw [horigin', hclassify]
    exact ⟨fun kind hkind => congrArg Except.ok (Option.some.inj hkind), fun h => by cases h⟩
  · rw [if_neg hopen]
    refine ⟨fun kind hkind => (Option.some_ne_none kind hkind.symm).elim, fun _ => ?_⟩
    have hle : s.closes handle ≤ s.opens handle := hexact.closes_le
    by_cases hzero : s.opens handle = 0
    · rw [if_pos hzero]
      exact h.records.classify_absent hnull hnext (status_eq_absent.mpr hzero)
    · rw [if_neg hzero]
      apply h.records.classify_released hnull hnext
      rw [hstatus]
      exact Status.ofCounts_eq_released.mpr ⟨Nat.le_of_not_lt hopen, Nat.pos_of_ne_zero hzero⟩

/-- **Search order.**  In whatever state any interleaving of calls has left the loader, `dlsym`
finds the first definition in the scopes that the handle stands for; if there is none, or the handle
is not open, it returns null and only the message of its thread has changed. -/
theorem dlsym_searches {host : Host Path Object} (hhost : host.Regular)
    {actions : List (Loader.Action Thread Path Object Symbol)} {s : Loader Thread}
    (hrun : Lts.run (Loader.step host) Loader.start actions = some s) (tables : SymbolTables)
    (t : Thread) (handle : Handle) (symbol : List UInt8)
    (hbound : Lts.Always (Loader.step host)
      (fun s => s.opens handle ≤ s.closes handle + usizeMax) Loader.start actions) :
    (∀ kind, s.openedAs handle = some kind →
      s.dlsym t handle (some symbol) (fun kind symbol => tables.dlsymLookup handle symbol kind) =
        ((searchOrder handle kind).findSome? (tables.find symbol)).elim
          (nullHandle, s.setDlerrorMessage t (tables.failureMessage handle symbol kind))
          (fun address => (address, s))) ∧
    (s.openedAs handle = none →
      s.dlsym t handle (some symbol) (fun kind symbol => tables.dlsymLookup handle symbol kind) =
        (nullHandle, s.setDlerrorMessage t
          (if s.opens handle = 0 then dlerrorInvalidHandle else dlerrorAlreadyClosed))) := by
  have hclassify :=
    (Consistent.run hhost hrun).classify_eq (exact_of_bounded hhost hrun hbound)
  refine ⟨fun kind hkind => ?_, fun hnone => ?_⟩
  · unfold Loader.dlsym
    rw [hclassify.1 kind hkind]
    dsimp only
    rw [tables.dlsymLookup_eq]
    cases (searchOrder handle kind).findSome? (tables.find symbol) with
    | none => rfl
    | some address => rfl
  · unfold Loader.dlsym
    rw [hclassify.2 hnone]

def sampleState : Loader Unit :=
  ((Loader.start.dlopen sampleHost () sampleCall).register () .external 0x1000).2

def sampleActions : List (Loader.Action Unit Bool Unit Unit) :=
  [.dlopen () sampleCall, .register ()]

/-- An object that was opened is searched by the host. -/
theorem dlsym_searches_sample :
    sampleState.dlsym () 0x1000 (some [102])
      (fun kind symbol => sampleTables.dlsymLookup 0x1000 symbol kind) = (0x2000, sampleState) := by
  have hbound : Lts.Always (Loader.step sampleHost)
      (fun s => s.opens 0x1000 ≤ s.closes 0x1000 + usizeMax) Loader.start sampleActions :=
    Consistent.start.bounded sampleHost_regular (by decide)
  have hrun : Lts.run (Loader.step sampleHost) Loader.start sampleActions = some sampleState := rfl
  have hkind : sampleState.openedAs 0x1000 = some .external := by decide
  have hfound : (searchOrder 0x1000 .external).findSome? (sampleTables.find [102]) =
      some 0x2000 := by decide
  rw [(dlsym_searches sampleHost_regular hrun sampleTables () 0x1000 [102] hbound).1 _ hkind,
    hfound]
  rfl

end Search

end Rlibc.Dlfcn
