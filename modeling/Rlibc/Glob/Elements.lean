import Rlibc.Glob.Pattern

/-!
# What a pattern says

A pattern as tokens, a segment as a list of elements, and when a name matches it.  Here nothing
is scanned twice and no candidate is needed to read a bracket expression; the functions of the
source are related to this reading one by one.
-/

namespace Rlibc.Glob

/-- A byte of a pattern, with or without a backslash before it. -/
structure Token where
  escaped : Bool
  byte : UInt8
deriving DecidableEq

abbrev Token.plain (byte : UInt8) : Token := ⟨false, byte⟩

/-- A backslash at the end stands for itself. -/
def tokens (noEscape : Bool) : List UInt8 → List Token
  | [] => []
  | [last] => [.plain last]
  | first :: second :: rest =>
    if first = backslash ∧ ¬noEscape then ⟨true, second⟩ :: tokens noEscape rest
    else .plain first :: tokens noEscape (second :: rest)

inductive Element where
  | literal (byte : UInt8)
  | any
  | star
  | set (negated : Bool) (items : List BracketItem)
deriving DecidableEq

/-- An item of a bracket expression: only an unescaped byte starts a range. -/
def readItem (token : Token) (rest : List Token) : BracketItem × List Token :=
  match rest with
  | dash :: last :: after =>
    if ¬token.escaped ∧ dash = .plain 45 ∧ last ≠ .plain closeBracket then
      (.range token.byte last.byte, after)
    else (.literal token.byte, rest)
  | _ => (.literal token.byte, rest)

theorem readItem_suffix (token : Token) (rest : List Token) :
    (readItem token rest).2 <:+ rest := by
  unfold readItem
  split
  · rename_i dash last after
    split
    · exact List.suffix_append [dash, last] after
    · exact List.suffix_refl _
  · exact List.suffix_refl _

/-- The items up to the closing bracket; a bracket before any item is one itself. -/
def readItems : List Token → Bool → Option (List BracketItem × List Token)
  | [], _ => none
  | token :: rest, hasAnyItem =>
    if token = .plain closeBracket ∧ hasAnyItem then some ([], rest)
    else
      (readItems (readItem token rest).2 true).map fun r => ((readItem token rest).1 :: r.1, r.2)
termination_by tokens => tokens.length
decreasing_by exact Nat.lt_succ_of_le (readItem_suffix token rest).length_le

/-- A bracket expression after its opening bracket. -/
def readBracket (pattern : List Token) : Option (Element × List Token) :=
  match pattern with
  | [] => none
  | first :: rest =>
    let negated := first = .plain 33 ∨ first = .plain 94
    let body := if negated then rest else first :: rest
    if body.head? = some (.plain closeBracket) then
      (readItems body.tail true).map fun r =>
        (.set negated (.literal closeBracket :: r.1), r.2)
    else (readItems body false).map fun r => (.set negated r.1, r.2)

theorem readItems_suffix {pattern next : List Token} {hasAnyItem : Bool}
    {items : List BracketItem} (h : readItems pattern hasAnyItem = some (items, next)) :
    ∃ first rest, pattern = first :: rest ∧ next <:+ rest := by
  induction pattern using (measure List.length).wf.induction generalizing hasAnyItem items with
  | _ pattern ih =>
    cases pattern with
    | nil =>
      unfold readItems at h
      cases h
    | cons token rest =>
      have hitem := readItem_suffix token rest
      refine ⟨token, rest, rfl, ?_⟩
      unfold readItems at h
      split at h
      · cases h
        exact List.suffix_refl _
      · obtain ⟨⟨items', next'⟩, hitems, hresult⟩ := Option.map_eq_some_iff.mp h
        cases hresult
        obtain ⟨first, after, hafter, hsuffix⟩ := ih _ (Nat.lt_succ_of_le hitem.length_le) hitems
        rw [hafter] at hitem
        exact (hsuffix.trans (List.suffix_cons first after)).trans hitem

/-- What follows a bracket expression is a proper end of the pattern. -/
theorem readBracket_suffix {pattern next : List Token} {element : Element}
    (h : readBracket pattern = some (element, next)) :
    next <:+ pattern ∧ next.length < pattern.length := by
  unfold readBracket at h
  split at h
  · cases h
  · rename_i first rest
    dsimp only at h
    have hbody : (if first = .plain 33 ∨ first = .plain 94 then rest else first :: rest) <:+
        first :: rest := by
      split
      · exact List.suffix_cons first rest
      · exact List.suffix_refl _
    generalize (if first = .plain 33 ∨ first = .plain 94 then rest else first :: rest) = body
      at h hbody
    have hstrict : ∀ {hasAnyItem : Bool} {items : List BracketItem} {tail : List Token},
        tail <:+ body → readItems tail hasAnyItem = some (items, next) →
        next <:+ first :: rest ∧ next.length < (first :: rest).length := by
      intro hasAnyItem items tail htail hitems
      obtain ⟨head, after, rfl, hsuffix⟩ := readItems_suffix hitems
      have hall := htail.trans hbody
      exact ⟨(hsuffix.trans (List.suffix_cons head after)).trans hall,
        Nat.lt_of_lt_of_le (Nat.lt_succ_of_le hsuffix.length_le) hall.length_le⟩
    split at h
    · obtain ⟨⟨items, next'⟩, hitems, hresult⟩ := Option.map_eq_some_iff.mp h
      cases hresult
      exact hstrict (List.tail_suffix body) hitems
    · obtain ⟨⟨items, next'⟩, hitems, hresult⟩ := Option.map_eq_some_iff.mp h
      cases hresult
      exact hstrict (List.suffix_refl body) hitems

theorem readBracket_set {pattern next : List Token} {element : Element}
    (h : readBracket pattern = some (element, next)) :
    ∃ negated items, element = .set negated items := by
  unfold readBracket at h
  split at h
  · cases h
  · rename_i first rest
    dsimp only at h
    generalize (if first = .plain 33 ∨ first = .plain 94 then rest else first :: rest) = body at h
    split at h
    · obtain ⟨result, -, hresult⟩ := Option.map_eq_some_iff.mp h
      cases hresult
      exact ⟨_, _, rfl⟩
    · obtain ⟨result, -, hresult⟩ := Option.map_eq_some_iff.mp h
      cases hresult
      exact ⟨_, _, rfl⟩

/-- The elements of a segment. -/
def elements : List Token → List Element
  | [] => []
  | token :: rest =>
    if token = .plain starByte then .star :: elements rest
    else if token = .plain questionByte then .any :: elements rest
    else if token = .plain openBracket then
      match _h : readBracket rest with
      | none => .literal openBracket :: elements rest
      | some (element, next) => element :: elements next
    else .literal token.byte :: elements rest
termination_by segment => segment.length
decreasing_by
  · exact Nat.lt_succ_self _
  · exact Nat.lt_succ_self _
  · exact Nat.lt_succ_self _
  · exact Nat.lt_succ_of_lt (readBracket_suffix _h).2
  · exact Nat.lt_succ_self _

/-- A bracket expression accepts a byte. -/
def setAccepts (negated : Bool) (items : List BracketItem) (byte : UInt8) : Bool :=
  xor negated (items.any fun item => item.accepts byte)

/-- A name matches a list of elements. -/
inductive Matches : List Element → List UInt8 → Prop
  | nil : Matches [] []
  | literal {byte : UInt8} {es : List Element} {name : List UInt8} (hrest : Matches es name) :
      Matches (.literal byte :: es) (byte :: name)
  | any {byte : UInt8} {es : List Element} {name : List UInt8} (hrest : Matches es name) :
      Matches (.any :: es) (byte :: name)
  | star (skipped : List UInt8) {es : List Element} {name : List UInt8} (hrest : Matches es name) :
      Matches (.star :: es) (skipped ++ name)
  | set {negated : Bool} {items : List BracketItem} {byte : UInt8} {es : List Element}
      {name : List UInt8} (hbyte : setAccepts negated items byte) (hrest : Matches es name) :
      Matches (.set negated items :: es) (byte :: name)

/-- An element that is not a byte standing for itself. -/
def Element.isMeta : Element → Bool
  | literal _ => false
  | _ => true

/-- The name that a segment without such elements spells. -/
def literalName (es : List Element) : List UInt8 :=
  es.filterMap fun
    | .literal byte => some byte
    | _ => none

/-- The segment may match an entry that starts with a dot. -/
def matchesHidden (es : List Element) : Bool :=
  match es.head? with
  | some (.literal byte) => byte = dot
  | some (.set false items) => setAccepts false items dot
  | _ => false

/-! ## Tokens -/

theorem tokens_plain {noEscape : Bool} {first : UInt8} (rest : List UInt8)
    (h : ¬(first = backslash ∧ ¬noEscape)) :
    tokens noEscape (first :: rest) = .plain first :: tokens noEscape rest := by
  cases rest with
  | nil => rfl
  | cons second rest =>
    rw [tokens, if_neg h]

theorem tokens_escaped {noEscape : Bool} (h : ¬noEscape) (second : UInt8) (rest : List UInt8) :
    tokens noEscape (backslash :: second :: rest) = ⟨true, second⟩ :: tokens noEscape rest := by
  rw [tokens, if_pos ⟨rfl, h⟩]

/-- A pattern that is not empty is an escaped byte, or a byte that stands for itself. -/
theorem tokens_cases (noEscape : Bool) (first : UInt8) (rest : List UInt8) :
    (first = backslash ∧ ¬noEscape ∧ ∃ second after, rest = second :: after ∧
      tokens noEscape (first :: rest) = ⟨true, second⟩ :: tokens noEscape after) ∨
    ((first ≠ backslash ∨ noEscape ∨ rest = []) ∧
      tokens noEscape (first :: rest) = .plain first :: tokens noEscape rest) := by
  cases rest with
  | nil => exact Or.inr ⟨Or.inr (Or.inr rfl), rfl⟩
  | cons second after =>
    by_cases h : first = backslash ∧ ¬noEscape
    · refine Or.inl ⟨h.1, h.2, second, after, rfl, ?_⟩
      rw [h.1, tokens_escaped h.2]
    · refine Or.inr ⟨?_, tokens_plain _ h⟩
      rw [not_and, not_not] at h
      by_cases hfirst : first = backslash
      · exact Or.inr (Or.inl (h hfirst))
      · exact Or.inl hfirst

theorem tokens_ne_nil (noEscape : Bool) (first : UInt8) (rest : List UInt8) :
    tokens noEscape (first :: rest) ≠ [] := by
  rcases tokens_cases noEscape first rest with ⟨-, -, second, after, -, htokens⟩ | ⟨-, htokens⟩
  · rw [htokens]
    exact List.cons_ne_nil _ _
  · rw [htokens]
    exact List.cons_ne_nil _ _

/-- The first byte is unescaped in the pattern when the first token is. -/
theorem tokens_head_plain (noEscape : Bool) {byte : UInt8} (hbyte : byte ≠ backslash)
    (first : UInt8) (rest : List UInt8) :
    (tokens noEscape (first :: rest)).head? = some (.plain byte) ↔ first = byte := by
  rcases tokens_cases noEscape first rest with ⟨hfirst, -, second, after, -, htokens⟩ | ⟨-, htokens⟩
  · rw [htokens, List.head?_cons]
    constructor
    · intro h
      cases h
    · intro h
      exact absurd (h.symm.trans hfirst) hbyte
  · rw [htokens, List.head?_cons]
    constructor
    · intro h
      cases h
      rfl
    · intro h
      rw [h]

/-! ## Bracket expressions -/

theorem readItem_escaped (byte : UInt8) (rest : List Token) :
    readItem ⟨true, byte⟩ rest = (.literal byte, rest) := by
  unfold readItem
  split
  · rw [if_neg (fun h => h.1 rfl)]
  · rfl

theorem readItem_range (first : UInt8) {last : Token} (rest : List Token)
    (hlast : last ≠ .plain closeBracket) :
    readItem (.plain first) (.plain 45 :: last :: rest) = (.range first last.byte, rest) := by
  unfold readItem
  exact if_pos ⟨Bool.false_ne_true, rfl, hlast⟩

theorem readItem_literal (token : Token) {rest : List Token}
    (h : ∀ last after, rest = .plain 45 :: last :: after → last = .plain closeBracket) :
    readItem token rest = (.literal token.byte, rest) := by
  unfold readItem
  split
  · rename_i dash last after
    rw [if_neg]
    rintro ⟨-, rfl, hlast⟩
    exact hlast (h last after rfl)
  · rfl

/-- The end of a range is one token. -/
theorem rangeEnd_tokens (noEscape : Bool) {last : UInt8} (rest : List UInt8)
    (hlast : last ≠ closeBracket) :
    ∃ token, token ≠ .plain closeBracket ∧ token.byte = (rangeEnd noEscape last rest).1 ∧
      tokens noEscape (last :: rest) = token :: tokens noEscape (rangeEnd noEscape last rest).2 := by
  have hplain : Token.plain last ≠ .plain closeBracket := fun h => hlast (Token.mk.inj h).2
  unfold rangeEnd
  cases rest with
  | nil => exact ⟨.plain last, hplain, rfl, rfl⟩
  | cons escaped after =>
    dsimp only
    by_cases h : last = backslash ∧ ¬noEscape
    · rw [if_pos h]
      refine ⟨⟨true, escaped⟩, fun heq => Bool.noConfusion (Token.mk.inj heq).1, rfl, ?_⟩
      rw [h.1, tokens_escaped h.2]
    · rw [if_neg h]
      exact ⟨.plain last, hplain, rfl, tokens_plain _ h⟩

/-- The source reads the same item from the bytes as stands in the tokens. -/
theorem bracketItem_tokens (noEscape : Bool) (current : UInt8) (rest : List UInt8) :
    ∃ token after, tokens noEscape (current :: rest) = token :: after ∧
      readItem token after = ((bracketItem noEscape current rest).1,
        tokens noEscape (bracketItem noEscape current rest).2) := by
  cases rest with
  | nil => exact ⟨.plain current, [], rfl, rfl⟩
  | cons next after =>
    unfold bracketItem
    dsimp only
    by_cases h : current = backslash ∧ ¬noEscape
    · rw [if_pos h, h.1, tokens_escaped h.2]
      exact ⟨_, _, rfl, readItem_escaped next _⟩
    · rw [if_neg h, tokens_plain _ h]
      refine ⟨_, _, rfl, ?_⟩
      cases after with
      | nil => rfl
      | cons last after =>
        dsimp only
        by_cases hrange : next = 45 ∧ last ≠ closeBracket
        · obtain ⟨token, hne, hbyte, htokens⟩ := rangeEnd_tokens noEscape after hrange.2
          have hdash : ¬(next = backslash ∧ ¬noEscape) := by
            rw [hrange.1]
            exact fun hdash => absurd hdash.1 (by decide)
          rw [if_pos hrange, tokens_plain _ hdash, hrange.1, htokens, readItem_range _ _ hne, hbyte]
        · rw [if_neg hrange]
          apply readItem_literal
          intro last' after' heq
          have hnext : next = 45 :=
            (tokens_head_plain noEscape (by decide) next (last :: after)).mp (by rw [heq]; rfl)
          have hlast : last = closeBracket :=
            Classical.byContradiction fun hne => hrange ⟨hnext, hne⟩
          rw [hnext, tokens_plain _ (fun hdash => absurd hdash.1 (by decide)), hlast,
            tokens_plain _ (fun hclose => absurd hclose.1 (by decide))] at heq
          exact (List.cons.inj (List.cons.inj heq).2).1.symm

/-- The two loops over the items stop together. -/
theorem bracketItems_tokens (noEscape : Bool) (pattern : List UInt8) (hasAnyItem : Bool) :
    (readItems (tokens noEscape pattern) hasAnyItem = none ∧
      ∀ candidate matched, bracketItems candidate noEscape pattern matched hasAnyItem = none) ∨
    ∃ items next, readItems (tokens noEscape pattern) hasAnyItem =
        some (items, tokens noEscape next) ∧
      ∀ candidate matched, bracketItems candidate noEscape pattern matched hasAnyItem =
        some (matched || items.any fun item => item.accepts candidate, next) := by
  induction pattern using (measure List.length).wf.induction generalizing hasAnyItem with
  | _ pattern ih =>
    cases pattern with
    | nil =>
      refine Or.inl ⟨?_, fun candidate matched => ?_⟩
      · rw [tokens, readItems]
      · rw [bracketItems]
    | cons current rest =>
      obtain ⟨token, after, htokens, hitem⟩ := bracketItem_tokens noEscape current rest
      have hclose : token = .plain closeBracket ↔ current = closeBracket := by
        rw [← tokens_head_plain noEscape (by decide) current rest, htokens]
        exact ⟨fun h => congrArg some h, fun h => Option.some.inj h⟩
      rw [htokens, readItems, hitem]
      by_cases hstop : current = closeBracket ∧ hasAnyItem
      · rw [if_pos ⟨hclose.mpr hstop.1, hstop.2⟩]
        obtain rfl := hstop.1
        refine Or.inr ⟨[], rest, ?_, fun candidate matched => ?_⟩
        · rw [tokens_plain _ (fun h => absurd h.1 (by decide))] at htokens
          rw [(List.cons.inj htokens).2]
        · rw [bracketItems, if_pos hstop, List.any_nil, Bool.or_false]
      · rw [if_neg (fun h => hstop ⟨hclose.mp h.1, h.2⟩)]
        rcases ih _ (Nat.lt_succ_of_le (bracketItem_length noEscape current rest)) true with
          ⟨hnone, hloop⟩ | ⟨items, next, hsome, hloop⟩
        · refine Or.inl ⟨by rw [hnone]; rfl, fun candidate matched => ?_⟩
          rw [bracketItems, if_neg hstop, hloop]
        · refine Or.inr ⟨_, next, by rw [hsome]; rfl, fun candidate matched => ?_⟩
          rw [bracketItems, if_neg hstop, hloop, List.any_cons, Bool.or_assoc]

/-- After the negation, a closing bracket at once is an item. -/
theorem bracketBody_tokens (noEscape negated : Bool) (body : List UInt8) :
    ((if (tokens noEscape body).head? = some (.plain closeBracket) then
        (readItems (tokens noEscape body).tail true).map fun r =>
          (Element.set negated (.literal closeBracket :: r.1), r.2)
      else (readItems (tokens noEscape body) false).map fun r =>
        (.set negated r.1, r.2)) = none ∧
      ∀ candidate, (if body.head? = some closeBracket then
          bracketItems candidate noEscape body.tail (candidate = closeBracket) true
        else bracketItems candidate noEscape body false false) = none) ∨
    ∃ items next, (if (tokens noEscape body).head? = some (.plain closeBracket) then
        (readItems (tokens noEscape body).tail true).map fun r =>
          (Element.set negated (.literal closeBracket :: r.1), r.2)
      else (readItems (tokens noEscape body) false).map fun r =>
        (.set negated r.1, r.2)) = some (.set negated items, tokens noEscape next) ∧
      ∀ candidate, (if body.head? = some closeBracket then
          bracketItems candidate noEscape body.tail (candidate = closeBracket) true
        else bracketItems candidate noEscape body false false) =
          some (items.any fun item => item.accepts candidate, next) := by
  -- A backslash starts no `]`, so the first token is a plain `]` exactly when the first byte is.
  have hhead : (tokens noEscape body).head? = some (.plain closeBracket) ↔
      body.head? = some closeBracket := by
    cases body with
    | nil =>
      constructor
      · intro h
        cases h
      · intro h
        cases h
    | cons first rest =>
      rw [tokens_head_plain noEscape (by decide), List.head?_cons, Option.some.injEq]
  -- A `]` right at the start is a member and does not close the expression.
  by_cases hclose : body.head? = some closeBracket
  · obtain ⟨rest, rfl⟩ := List.head?_eq_some_iff.mp hclose
    rw [tokens_plain _ (fun h => absurd h.1 (by decide))] at hhead ⊢
    rcases bracketItems_tokens noEscape rest true with ⟨hnone, hloop⟩ | ⟨items, next, hsome, hloop⟩
    · refine Or.inl ⟨?_, fun candidate => ?_⟩
      · rw [if_pos (hhead.mpr hclose), List.tail_cons, hnone]
        rfl
      · rw [if_pos hclose, List.tail_cons, hloop]
    · refine Or.inr ⟨.literal closeBracket :: items, next, ?_, fun candidate => ?_⟩
      · rw [if_pos (hhead.mpr hclose), List.tail_cons, hsome]
        rfl
      · rw [if_pos hclose, List.tail_cons, hloop]
        rfl
  · rcases bracketItems_tokens noEscape body false with ⟨hnone, hloop⟩ | ⟨items, next, hsome, hloop⟩
    · refine Or.inl ⟨?_, fun candidate => ?_⟩
      · rw [if_neg (fun h => hclose (hhead.mp h)), hnone]
        rfl
      · rw [if_neg hclose, hloop]
    · refine Or.inr ⟨items, next, ?_, fun candidate => ?_⟩
      · rw [if_neg (fun h => hclose (hhead.mp h)), hsome]
        rfl
      · rw [if_neg hclose, hloop, Bool.false_or]

/-- `bracket_match` finds a bracket expression where one stands in the tokens. -/
theorem bracketMatch_tokens (noEscape : Bool) (pattern : List UInt8) :
    (readBracket (tokens noEscape pattern) = none ∧
      ∀ candidate, bracketMatch pattern candidate noEscape = none) ∨
    ∃ negated items next, readBracket (tokens noEscape pattern) =
        some (.set negated items, tokens noEscape next) ∧
      (negated = true ↔ pattern.head? = some 33 ∨ pattern.head? = some 94) ∧
      ∀ candidate, bracketMatch pattern candidate noEscape =
        some (setAccepts negated items candidate, next) := by
  cases pattern with
  | nil => exact Or.inl ⟨rfl, fun _ => rfl⟩
  | cons first rest =>
    obtain ⟨token, after, htokens⟩ : ∃ token after,
        tokens noEscape (first :: rest) = token :: after :=
      List.exists_cons_of_ne_nil (tokens_ne_nil noEscape first rest)
    -- `!` and `^` are no backslash, so bytes and tokens agree on the negation.
    have hinvert : (token = .plain 33 ∨ token = .plain 94) ↔ (first = 33 ∨ first = 94) := by
      have h33 := tokens_head_plain noEscape (show (33 : UInt8) ≠ backslash by decide) first rest
      have h94 := tokens_head_plain noEscape (show (94 : UInt8) ≠ backslash by decide) first rest
      rw [htokens, List.head?_cons, Option.some.injEq] at h33 h94
      rw [h33, h94]
    rw [List.head?_cons, Option.some.injEq, Option.some.injEq]
    unfold readBracket bracketMatch
    rw [htokens]
    dsimp only
    -- Both sides drop the mark of negation, or both keep the first member.
    by_cases hfirst : first = 33 ∨ first = 94
    · have hplain : ¬(first = backslash ∧ ¬noEscape) := by
        rintro ⟨hbackslash, -⟩
        rw [hbackslash] at hfirst
        exact absurd hfirst (by decide)
      rw [tokens_plain _ hplain] at htokens
      simp only [decide_eq_true (hinvert.mpr hfirst), if_pos (hinvert.mpr hfirst), if_pos hfirst]
      rw [← (List.cons.inj htokens).2]
      rcases bracketBody_tokens noEscape true rest with ⟨hnone, hloop⟩ | ⟨items, next, hsome, hloop⟩
      · refine Or.inl ⟨hnone, fun candidate => ?_⟩
        rw [hloop]
        rfl
      · refine Or.inr ⟨true, items, next, hsome, ⟨fun _ => hfirst, fun _ => rfl⟩,
          fun candidate => ?_⟩
        rw [hloop, setAccepts, Bool.true_xor]
        rfl
    · have hnot : ¬(token = .plain 33 ∨ token = .plain 94) := fun h => hfirst (hinvert.mp h)
      simp only [decide_eq_false hnot, if_neg hnot, if_neg hfirst]
      rw [← htokens]
      rcases bracketBody_tokens noEscape false (first :: rest) with
        ⟨hnone, hloop⟩ | ⟨items, next, hsome, hloop⟩
      · refine Or.inl ⟨hnone, fun candidate => ?_⟩
        rw [hloop]
        rfl
      · refine Or.inr ⟨false, items, next, hsome, ⟨fun h => Bool.noConfusion h,
          fun h => absurd h hfirst⟩, fun candidate => ?_⟩
        rw [hloop, setAccepts, Bool.false_xor]
        rfl

end Rlibc.Glob
