import Rlibc.Glob.Elements

/-!
# The set of a bracket expression

The members of a closed bracket expression, the items that POSIX reads from them and the items
that the source reads.  The two readings differ where a range starts at a quoted character or at
a closing bracket placed first: the source takes such a member as a literal and goes on at the
hyphen.
-/

namespace Rlibc.Glob

/-- A closed bracket expression after its opening bracket: whether it is complemented, its
members, and what follows its closing bracket.  The first member may be a closing bracket. -/
inductive ClosedBracket (noEscape : Bool) (pattern : List UInt8) :
    Bool → List Token → List UInt8 → Prop
  | members {first : Token} {rest : List Token} {next : List UInt8}
      (hmark : ¬(first = .plain 33 ∨ first = .plain 94)) (hclose : .plain closeBracket ∉ rest)
      (htokens : tokens noEscape pattern =
        first :: (rest ++ .plain closeBracket :: tokens noEscape next)) :
      ClosedBracket noEscape pattern false (first :: rest) next
  | complement {mark first : Token} {rest : List Token} {next : List UInt8}
      (hmark : mark = .plain 33 ∨ mark = .plain 94) (hclose : .plain closeBracket ∉ rest)
      (htokens : tokens noEscape pattern =
        mark :: first :: (rest ++ .plain closeBracket :: tokens noEscape next)) :
      ClosedBracket noEscape pattern true (first :: rest) next

/-- The characters an item stands for. -/
def BracketItem.Denotes : BracketItem → UInt8 → Prop
  | literal byte, c => c = byte
  | range first last, c => first ≤ c ∧ c ≤ last

/-- The POSIX reading: a member, a hyphen and another member are a range, however the two members
are written; a hyphen without a member on either side is one itself.  A hyphen placed first may
still start a range, as in `[--@]`. -/
def posixItems : List Token → List BracketItem
  | [] => []
  | [first] => [.literal first.byte]
  | [first, second] => [.literal first.byte, .literal second.byte]
  | first :: dash :: last :: rest =>
    if dash = .plain 45 then .range first.byte last.byte :: posixItems rest
    else .literal first.byte :: posixItems (dash :: last :: rest)

/-- The POSIX set of a bracket expression. -/
def PosixMember (negated : Bool) (members : List Token) (c : UInt8) : Prop :=
  if negated then ¬∃ item ∈ posixItems members, item.Denotes c
  else ∃ item ∈ posixItems members, item.Denotes c

/-- A member from which the source does not start a range. -/
def Token.isQuoted (token : Token) : Bool :=
  token.escaped || token = .plain closeBracket

/-- Some range of the expression starts at a quoted character or at a closing bracket placed
first. -/
def quotedStart : List Token → Bool
  | first :: dash :: last :: rest =>
    if dash = .plain 45 then first.isQuoted || quotedStart rest
    else quotedStart (dash :: last :: rest)
  | _ => false

/-- The reading of the source. -/
def sourceItems : List Token → List BracketItem
  | [] => []
  | [first] => [.literal first.byte]
  | [first, second] => [.literal first.byte, .literal second.byte]
  | first :: dash :: last :: rest =>
    if ¬first.isQuoted ∧ dash = .plain 45 then .range first.byte last.byte :: sourceItems rest
    else .literal first.byte :: sourceItems (dash :: last :: rest)

/-! ## The two readings -/

/-- The readings agree exactly where no range has such a start. -/
theorem sourceItems_eq_iff (members : List Token) :
    sourceItems members = posixItems members ↔ quotedStart members = false := by
  induction members using posixItems.induct with
  | case1 => exact iff_of_true rfl rfl
  | case2 first => exact iff_of_true rfl rfl
  | case3 first second => exact iff_of_true rfl rfl
  | case4 first last rest ih =>
    rw [sourceItems, posixItems, quotedStart, if_pos rfl, if_pos rfl, Bool.or_eq_false_iff, ← ih]
    cases hquoted : first.isQuoted with
    | true =>
      rw [if_neg (fun h => h.1 rfl)]
      refine iff_of_false (fun h => ?_) (fun h => Bool.noConfusion h.1)
      cases (List.cons.inj h).1
    | false =>
      rw [if_pos ⟨Bool.false_ne_true, rfl⟩, List.cons_inj_right]
      exact (and_iff_right rfl).symm
  | case5 first dash last rest hdash ih =>
    rw [sourceItems, posixItems, quotedStart, if_neg hdash, if_neg hdash,
      if_neg (fun h => hdash h.2), List.cons_inj_right, ih]

theorem accepts_iff (item : BracketItem) (c : UInt8) : item.accepts c = true ↔ item.Denotes c := by
  cases item with
  | literal byte => exact decide_eq_true_iff
  | range first last =>
    unfold BracketItem.accepts BracketItem.Denotes
    rw [decide_eq_true_iff]
    exact ⟨fun h => h.2, fun h => ⟨UInt8.le_trans h.1 h.2, h⟩⟩

theorem setAccepts_posixItems (negated : Bool) (members : List Token) (c : UInt8) :
    setAccepts negated (posixItems members) c = true ↔ PosixMember negated members c := by
  have hany : ((posixItems members).any fun item => item.accepts c) = true ↔
      ∃ item ∈ posixItems members, item.Denotes c := by
    rw [List.any_eq_true]
    exact exists_congr fun item => and_congr_right fun _ => accepts_iff item c
  unfold setAccepts PosixMember
  cases negated with
  | false =>
    rw [Bool.false_xor, if_neg Bool.false_ne_true]
    exact hany
  | true =>
    rw [Bool.true_xor, if_pos rfl, ← hany, Bool.not_eq_true', Bool.not_eq_true]

/-! ## What the source reads -/

theorem readItem_quoted {token : Token} (h : token.escaped = true) (rest : List Token) :
    readItem token rest = (.literal token.byte, rest) := by
  obtain ⟨escaped, byte⟩ := token
  cases h
  exact readItem_escaped byte rest

theorem readItems_cons {token : Token} (h : token ≠ .plain closeBracket) (rest : List Token)
    (hasAnyItem : Bool) : readItems (token :: rest) hasAnyItem =
      (readItems (readItem token rest).2 true).map fun r =>
        ((readItem token rest).1 :: r.1, r.2) := by
  rw [readItems, if_neg (fun hc => h hc.1)]

/-- A member before which no range can be read. -/
theorem readItems_literal {token : Token} (h : token ≠ .plain closeBracket) {rest next : List Token}
    {items : List BracketItem} (hitem : readItem token rest = (.literal token.byte, rest))
    (hrest : readItems rest true = some (items, next)) (hasAnyItem : Bool) :
    readItems (token :: rest) hasAnyItem = some (.literal token.byte :: items, next) := by
  rw [readItems_cons h, hitem, hrest]
  rfl

/-- The last member before the closing bracket starts no range. -/
theorem readItem_last (token : Token) (next : List Token) :
    readItem token (.plain closeBracket :: next) =
      (.literal token.byte, .plain closeBracket :: next) := by
  apply readItem_literal
  intro last after heq
  cases (List.cons.inj heq).1

/-- The items of the source, from the members and the bracket that closes them. -/
theorem readItems_members (members : List Token) (hclose : .plain closeBracket ∉ members)
    (next : List Token) :
    readItems (members ++ .plain closeBracket :: next) true = some (sourceItems members, next) := by
  have hend : readItems (.plain closeBracket :: next) true = some ([], next) := by
    rw [readItems, if_pos ⟨rfl, rfl⟩]
  have hhead : ∀ {first : Token} {rest : List Token}, .plain closeBracket ∉ first :: rest →
      first ≠ .plain closeBracket := fun h heq => h (heq ▸ List.mem_cons_self)
  induction members using sourceItems.induct with
  | case1 => exact hend
  | case2 first =>
    exact readItems_literal (hhead hclose) (readItem_last first next) hend true
  | case3 first second =>
    have hsecond : .plain closeBracket ∉ [second] := fun h => hclose (List.mem_cons_of_mem _ h)
    have htail := readItems_literal (hhead hsecond) (readItem_last second next) hend true
    refine readItems_literal (hhead hclose) (readItem_literal first ?_) htail true
    intro last after heq
    exact (List.cons.inj (List.cons.inj heq).2).1.symm
  | case4 first dash last rest hrange ih =>
    have hlast : last ≠ .plain closeBracket := fun heq =>
      hclose (heq ▸ List.mem_cons_of_mem _ (List.mem_cons_of_mem _ List.mem_cons_self))
    have hrest : .plain closeBracket ∉ rest := fun h =>
      hclose (List.mem_cons_of_mem _ (List.mem_cons_of_mem _ (List.mem_cons_of_mem _ h)))
    have hplain : ¬first.escaped = true := fun h => hrange.1 (by rw [Token.isQuoted, h]; rfl)
    have hitem : readItem first (dash :: last :: (rest ++ .plain closeBracket :: next)) =
        (.range first.byte last.byte, rest ++ .plain closeBracket :: next) := by
      unfold readItem
      exact if_pos ⟨hplain, hrange.2, hlast⟩
    rw [sourceItems, if_pos hrange]
    change readItems (first :: dash :: last :: (rest ++ .plain closeBracket :: next)) true = _
    rw [readItems_cons (hhead hclose), hitem, ih hrest]
    rfl
  | case5 first dash last rest hrange ih =>
    have hrest : .plain closeBracket ∉ dash :: last :: rest :=
      fun h => hclose (List.mem_cons_of_mem _ h)
    rw [sourceItems, if_neg hrange]
    refine readItems_literal (hhead hclose) ?_ (ih hrest) true
    -- Either the member is escaped, or no hyphen follows it.
    by_cases hescaped : first.escaped = true
    · exact readItem_quoted hescaped _
    · apply readItem_literal
      intro last' after heq
      have hdash : dash = .plain 45 := (List.cons.inj heq).1
      have hquoted : ¬first.isQuoted = true := by
        unfold Token.isQuoted
        rw [Bool.eq_false_iff.mpr hescaped, Bool.false_or, decide_eq_true_eq]
        exact hhead hclose
      exact absurd ⟨hquoted, hdash⟩ hrange

/-- A closing bracket placed first starts no range in the source. -/
theorem sourceItems_close (rest : List Token) :
    sourceItems (.plain closeBracket :: rest) = .literal closeBracket :: sourceItems rest := by
  cases rest with
  | nil => rfl
  | cons second rest =>
    cases rest with
    | nil => rfl
    | cons third rest => rw [sourceItems, if_neg (fun h => h.1 (by decide))]

/-- The members after the mark of complement, with a closing bracket that may come first. -/
theorem readBody_members {first : Token} {rest : List Token}
    (hclose : .plain closeBracket ∉ rest) (negated : Bool) (next : List Token) :
    (if (first :: (rest ++ .plain closeBracket :: next)).head? = some (.plain closeBracket) then
        (readItems (first :: (rest ++ .plain closeBracket :: next)).tail true).map fun r =>
          (Element.set negated (.literal closeBracket :: r.1), r.2)
      else (readItems (first :: (rest ++ .plain closeBracket :: next)) false).map fun r =>
        (.set negated r.1, r.2)) =
      some (.set negated (sourceItems (first :: rest)), next) := by
  rw [List.head?_cons, List.tail_cons]
  by_cases hfirst : first = .plain closeBracket
  · rw [if_pos (congrArg some hfirst), readItems_members rest hclose, hfirst, sourceItems_close]
    rfl
  · have hmembers : .plain closeBracket ∉ first :: rest := by
      intro h
      rcases List.mem_cons.mp h with h | h
      · exact hfirst h.symm
      · exact hclose h
    have hread := readItems_members (first :: rest) hmembers next
    rw [List.cons_append, readItems_cons hfirst] at hread
    rw [if_neg (fun h => hfirst (Option.some.inj h)), readItems_cons hfirst, hread]
    rfl

/-- The bytes of a token. -/
def Token.bytes (token : Token) : List UInt8 :=
  if token.escaped then [backslash, token.byte] else [token.byte]

/-- The tokens determine the bytes. -/
theorem flatMap_tokens (noEscape : Bool) (pattern : List UInt8) :
    (tokens noEscape pattern).flatMap Token.bytes = pattern := by
  induction pattern using (tokens.induct noEscape) with
  | case1 => rfl
  | case2 last => rfl
  | case3 first second rest hescape ih =>
    rw [tokens, if_pos hescape, List.flatMap_cons, ih, hescape.1]
    rfl
  | case4 first second rest hescape ih =>
    rw [tokens, if_neg hescape, List.flatMap_cons, ih]
    rfl

/-- `bracket_match` on a closed bracket expression: the items as the source reads them, and an
index behind the bracket that does not depend on the candidate. -/
theorem bracketMatch_closed {noEscape negated : Bool} {pattern next : List UInt8}
    {members : List Token} (h : ClosedBracket noEscape pattern negated members next)
    (candidate : UInt8) : bracketMatch pattern candidate noEscape =
      some (setAccepts negated (sourceItems members) candidate, next) := by
  have hread : readBracket (tokens noEscape pattern) =
      some (.set negated (sourceItems members), tokens noEscape next) := by
    unfold readBracket
    cases h with
    | members hmark hclose htokens =>
      rw [htokens]
      dsimp only
      rw [if_neg hmark, decide_eq_false hmark]
      exact readBody_members hclose false _
    | complement hmark hclose htokens =>
      rw [htokens]
      dsimp only
      rw [if_pos hmark, decide_eq_true hmark]
      exact readBody_members hclose true _
  rcases bracketMatch_tokens noEscape pattern with
    ⟨hnone, -⟩ | ⟨negated', items, next', hsome, -, hmatch⟩
  · cases hnone.symm.trans hread
  · have hpair := Prod.mk.inj (Option.some.inj (hsome.symm.trans hread))
    have helement := Element.set.inj hpair.1
    have hnext : next' = next := by
      rw [← flatMap_tokens noEscape next', hpair.2, flatMap_tokens]
    rw [hmatch, helement.1, helement.2, hnext]

theorem readItems_closed {ts next : List Token} {items : List BracketItem}
    (h : readItems ts true = some (items, next)) :
    ∃ members, .plain closeBracket ∉ members ∧ ts = members ++ .plain closeBracket :: next := by
  induction ts using (measure List.length).wf.induction generalizing items with
  | _ ts ih =>
    cases ts with
    | nil =>
      rw [readItems] at h
      cases h
    | cons token rest =>
      by_cases hclose : token = .plain closeBracket
      · rw [hclose, readItems, if_pos ⟨rfl, rfl⟩] at h
        cases h
        exact ⟨[], List.not_mem_nil, by rw [hclose]; rfl⟩
      · rw [readItems_cons hclose] at h
        obtain ⟨⟨items', next'⟩, hitems, hresult⟩ := Option.map_eq_some_iff.mp h
        cases hresult
        obtain ⟨members, hmembers, hrest⟩ :=
          ih _ (Nat.lt_succ_of_le (readItem_suffix token rest).length_le) hitems
        -- The tokens of the item itself: none of them closes the expression.
        obtain ⟨front, hfront, heq⟩ : ∃ front, .plain closeBracket ∉ front ∧
            rest = front ++ (readItem token rest).2 := by
          unfold readItem
          split
          · rename_i dash last after
            split
            · rename_i hrange
              refine ⟨[dash, last], ?_, rfl⟩
              rw [hrange.2.1]
              intro hmem
              rcases List.mem_cons.mp hmem with h | h
              · exact absurd (Token.mk.inj h).2 (by decide)
              · exact hrange.2.2 (List.mem_singleton.mp h).symm
            · exact ⟨[], List.not_mem_nil, rfl⟩
          · exact ⟨[], List.not_mem_nil, rfl⟩
        refine ⟨token :: (front ++ members), ?_, ?_⟩
        · intro hmem
          rcases List.mem_cons.mp hmem with h | h
          · exact hclose h.symm
          · rcases List.mem_append.mp h with h | h
            · exact hfront h
            · exact hmembers h
        · rw [List.cons_append, List.append_assoc, ← hrest, ← heq]

/-- The members that were read behind the mark of complement, the first of them apart. -/
theorem readBody_closed {body next : List Token} {negated : Bool} {element : Element}
    (h : (if body.head? = some (.plain closeBracket) then
        (readItems body.tail true).map fun r =>
          (Element.set negated (.literal closeBracket :: r.1), r.2)
      else (readItems body false).map fun r => (.set negated r.1, r.2)) = some (element, next)) :
    ∃ first rest, .plain closeBracket ∉ rest ∧
      body = first :: (rest ++ .plain closeBracket :: next) := by
  cases body with
  | nil =>
    rw [if_neg (by simp), readItems] at h
    cases h
  | cons first after =>
    rw [List.head?_cons, List.tail_cons] at h
    by_cases hfirst : first = .plain closeBracket
    · rw [if_pos (congrArg some hfirst)] at h
      obtain ⟨⟨items, next'⟩, hitems, hresult⟩ := Option.map_eq_some_iff.mp h
      cases hresult
      obtain ⟨members, hmembers, hafter⟩ := readItems_closed hitems
      exact ⟨first, members, hmembers, by rw [hafter]⟩
    · rw [if_neg (fun hc => hfirst (Option.some.inj hc)), readItems_cons hfirst,
        ← readItems_cons hfirst after true] at h
      obtain ⟨⟨items, next'⟩, hitems, hresult⟩ := Option.map_eq_some_iff.mp h
      cases hresult
      obtain ⟨members, hmembers, hafter⟩ := readItems_closed hitems
      cases members with
      | nil => exact absurd (List.cons.inj hafter).1 hfirst
      | cons member members =>
        exact ⟨member, members, fun hmem => hmembers (List.mem_cons_of_mem _ hmem), hafter⟩

/-- What `bracket_match` takes for a bracket expression is a closed one. -/
theorem closedBracket_of_bracketMatch {noEscape matched : Bool} {pattern next : List UInt8}
    {candidate : UInt8} (h : bracketMatch pattern candidate noEscape = some (matched, next)) :
    ∃ negated members, ClosedBracket noEscape pattern negated members next := by
  rcases bracketMatch_tokens noEscape pattern with
    ⟨-, hnone⟩ | ⟨negated, items, next', hsome, -, hmatch⟩
  · cases (hnone candidate).symm.trans h
  have hnext : next' = next := (Prod.mk.inj (Option.some.inj ((hmatch candidate).symm.trans h))).2
  rw [hnext] at hsome
  unfold readBracket at hsome
  split at hsome
  · cases hsome
  · rename_i mark after htokens
    dsimp only at hsome
    by_cases hmark : mark = .plain 33 ∨ mark = .plain 94
    · rw [if_pos hmark] at hsome
      obtain ⟨first, rest, hclose, hbody⟩ := readBody_closed hsome
      exact ⟨true, first :: rest, .complement hmark hclose (by rw [htokens, hbody])⟩
    · rw [if_neg hmark] at hsome
      obtain ⟨first, rest, hclose, hbody⟩ := readBody_closed hsome
      have hfirst := (List.cons.inj hbody).1
      exact ⟨false, first :: rest, .members (hfirst ▸ hmark) hclose (by rw [htokens, hbody])⟩

/-- A bracket expression against POSIX.  The source takes for one exactly what is closed, and the
index behind the closing bracket never depends on the candidate.  It reads the items that POSIX
reads exactly where no range starts at a quoted member, and there it accepts the characters of the
POSIX set. -/
theorem bracketMatch_posix (noEscape : Bool) (pattern : List UInt8) :
    (∀ candidate next, (∃ matched, bracketMatch pattern candidate noEscape = some (matched, next)) ↔
      ∃ negated members, ClosedBracket noEscape pattern negated members next) ∧
    ∀ negated members next, ClosedBracket noEscape pattern negated members next →
      (∀ candidate, ∃ matched, bracketMatch pattern candidate noEscape = some (matched, next)) ∧
      (sourceItems members = posixItems members ↔ quotedStart members = false) ∧
      (quotedStart members = false → ∀ candidate,
        (bracketMatch pattern candidate noEscape = some (true, next) ↔
          PosixMember negated members candidate)) := by
  constructor
  · intro candidate next
    constructor
    · rintro ⟨matched, hmatch⟩
      exact closedBracket_of_bracketMatch hmatch
    · rintro ⟨negated, members, hclosed⟩
      exact ⟨_, bracketMatch_closed hclosed candidate⟩
  · intro negated members next h
    refine ⟨fun candidate => ⟨_, bracketMatch_closed h candidate⟩, sourceItems_eq_iff members,
      fun hstart candidate => ?_⟩
    rw [bracketMatch_closed h, (sourceItems_eq_iff members).mpr hstart,
      ← setAccepts_posixItems, Option.some.injEq, Prod.mk.injEq]
    exact and_iff_left rfl

/-- `[!a-c]`: every character outside the interval. -/
theorem bracketMatch_posix_complement :
    ClosedBracket false [33, 97, 45, 99, closeBracket] true [.plain 97, .plain 45, .plain 99] [] ∧
      ∀ candidate, (bracketMatch [33, 97, 45, 99, closeBracket] candidate false = some (true, []) ↔
        PosixMember true [.plain 97, .plain 45, .plain 99] candidate) := by
  have hclosed : ClosedBracket false [33, 97, 45, 99, closeBracket] true
      [.plain 97, .plain 45, .plain 99] [] :=
    .complement (Or.inl rfl) (by decide) (by decide)
  exact ⟨hclosed, ((bracketMatch_posix false _).2 _ _ _ hclosed).2.2 (by decide)⟩

/-- `[\a-c]` and `[]-a]` leave out the inside of their ranges: `b`, and `^`. -/
theorem bracketMatch_misses_range :
    (ClosedBracket false [backslash, 97, 45, 99, closeBracket] false
        [⟨true, 97⟩, .plain 45, .plain 99] [] ∧
      PosixMember false [⟨true, 97⟩, .plain 45, .plain 99] 98 ∧
      bracketMatch [backslash, 97, 45, 99, closeBracket] 98 false = some (false, [])) ∧
    ClosedBracket false [closeBracket, 45, 97, closeBracket] false
        [.plain closeBracket, .plain 45, .plain 97] [] ∧
      PosixMember false [.plain closeBracket, .plain 45, .plain 97] 94 ∧
      bracketMatch [closeBracket, 45, 97, closeBracket] 94 false = some (false, []) := by
  have hquoted : ClosedBracket false [backslash, 97, 45, 99, closeBracket] false
      [⟨true, 97⟩, .plain 45, .plain 99] [] := .members (by decide) (by decide) (by decide)
  have hfirst : ClosedBracket false [closeBracket, 45, 97, closeBracket] false
      [.plain closeBracket, .plain 45, .plain 97] [] := .members (by decide) (by decide) (by decide)
  refine ⟨⟨hquoted, ?_, ?_⟩, hfirst, ?_, ?_⟩
  · exact (setAccepts_posixItems _ _ _).mp (by decide)
  · rw [bracketMatch_closed hquoted]
    decide
  · exact (setAccepts_posixItems _ _ _).mp (by decide)
  · rw [bracketMatch_closed hfirst]
    decide

end Rlibc.Glob
