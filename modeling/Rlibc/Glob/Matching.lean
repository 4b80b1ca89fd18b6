import Mathlib.Data.List.Infix
import Rlibc.Glob.Elements

/-!
# The segment functions

`pattern_matches`, `segment_has_pattern_meta`, `should_match_hidden_name` and `unescape_segment`
in terms of the elements of the segment.
-/

namespace Rlibc.Glob

/-- The elements of the bytes of a segment. -/
def segmentElements (noEscape : Bool) (segment : List UInt8) : List Element :=
  elements (tokens noEscape segment)

/-! ## Reading a segment from the left -/

theorem segmentElements_nil (noEscape : Bool) : segmentElements noEscape [] = [] := by
  rw [segmentElements, tokens, elements]

theorem elements_escaped (byte : UInt8) (rest : List Token) :
    elements (⟨true, byte⟩ :: rest) = .literal byte :: elements rest := by
  rw [elements, if_neg (fun h => Bool.noConfusion (Token.mk.inj h).1),
    if_neg (fun h => Bool.noConfusion (Token.mk.inj h).1),
    if_neg (fun h => Bool.noConfusion (Token.mk.inj h).1)]

theorem elements_plain {byte : UInt8} (hstar : byte ≠ starByte) (hquestion : byte ≠ questionByte)
    (hopen : byte ≠ openBracket) (rest : List Token) :
    elements (.plain byte :: rest) = .literal byte :: elements rest := by
  rw [elements, if_neg (fun h => hstar (Token.mk.inj h).2),
    if_neg (fun h => hquestion (Token.mk.inj h).2), if_neg (fun h => hopen (Token.mk.inj h).2)]

theorem elements_star (rest : List Token) :
    elements (.plain starByte :: rest) = .star :: elements rest := by
  rw [elements, if_pos rfl]

theorem elements_question (rest : List Token) :
    elements (.plain questionByte :: rest) = .any :: elements rest := by
  rw [elements, if_neg (by decide), if_pos rfl]

theorem elements_open {rest : List Token} (h : readBracket rest = none) :
    elements (.plain openBracket :: rest) = .literal openBracket :: elements rest := by
  rw [elements, if_neg (by decide), if_neg (by decide), if_pos rfl]
  split
  · rfl
  · rename_i hsome
    cases h.symm.trans hsome

theorem elements_set {rest next : List Token} {element : Element}
    (h : readBracket rest = some (element, next)) :
    elements (.plain openBracket :: rest) = element :: elements next := by
  rw [elements, if_neg (by decide), if_neg (by decide), if_pos rfl]
  split
  · rename_i hnone
    cases hnone.symm.trans h
  · rename_i hsome
    cases h.symm.trans hsome
    rfl

/-- The ways a segment that is not empty begins. -/
inductive SegmentStart (noEscape : Bool) : UInt8 → List UInt8 → Prop
  | escaped {second : UInt8} {after : List UInt8} (hescape : ¬noEscape)
      (helements : segmentElements noEscape (backslash :: second :: after) =
        .literal second :: segmentElements noEscape after) :
      SegmentStart noEscape backslash (second :: after)
  | star {rest : List UInt8} (helements : segmentElements noEscape (starByte :: rest) =
        .star :: segmentElements noEscape rest) : SegmentStart noEscape starByte rest
  | question {rest : List UInt8} (helements : segmentElements noEscape (questionByte :: rest) =
        .any :: segmentElements noEscape rest) : SegmentStart noEscape questionByte rest
  | open {rest : List UInt8} (hnone : ∀ candidate, bracketMatch rest candidate noEscape = none)
      (helements : segmentElements noEscape (openBracket :: rest) =
        .literal openBracket :: segmentElements noEscape rest) :
      SegmentStart noEscape openBracket rest
  | set {rest next : List UInt8} {negated : Bool} {items : List BracketItem}
      (hnegated : negated = true ↔ rest.head? = some 33 ∨ rest.head? = some 94)
      (hmatch : ∀ candidate, bracketMatch rest candidate noEscape =
        some (setAccepts negated items candidate, next))
      (helements : segmentElements noEscape (openBracket :: rest) =
        .set negated items :: segmentElements noEscape next) :
      SegmentStart noEscape openBracket rest
  | literal {first : UInt8} {rest : List UInt8} (hstar : first ≠ starByte)
      (hquestion : first ≠ questionByte) (hopen : first ≠ openBracket)
      (hescape : first ≠ backslash ∨ noEscape ∨ rest = [])
      (helements : segmentElements noEscape (first :: rest) =
        .literal first :: segmentElements noEscape rest) : SegmentStart noEscape first rest

theorem segmentStart (noEscape : Bool) (first : UInt8) (rest : List UInt8) :
    SegmentStart noEscape first rest := by
  rcases tokens_cases noEscape first rest with
    ⟨rfl, hescape, second, after, rfl, htokens⟩ | ⟨hescape, htokens⟩
  · refine .escaped hescape ?_
    unfold segmentElements
    rw [htokens, elements_escaped]
  · have hshape : segmentElements noEscape (first :: rest) =
        elements (.plain first :: tokens noEscape rest) := congrArg elements htokens
    by_cases hstar : first = starByte
    · subst hstar
      exact .star (hshape.trans (elements_star _))
    by_cases hquestion : first = questionByte
    · subst hquestion
      exact .question (hshape.trans (elements_question _))
    by_cases hopen : first = openBracket
    · subst hopen
      rcases bracketMatch_tokens noEscape rest with
        ⟨hnone, hmatch⟩ | ⟨negated, items, next, hsome, hnegated, hmatch⟩
      · exact .open hmatch (hshape.trans (elements_open hnone))
      · exact .set hnegated hmatch (hshape.trans (elements_set hsome))
    exact .literal hstar hquestion hopen hescape
      (hshape.trans (elements_plain hstar hquestion hopen _))

/-! ## Matching -/

theorem matches_nil {name : List UInt8} : Matches [] name ↔ name = [] := by
  constructor
  · intro h
    cases h
    rfl
  · rintro rfl
    exact .nil

theorem matches_literal {byte : UInt8} {es : List Element} {name : List UInt8} :
    Matches (.literal byte :: es) name ↔ ∃ rest, name = byte :: rest ∧ Matches es rest := by
  constructor
  · intro h
    cases h with
    | literal hrest => exact ⟨_, rfl, hrest⟩
  · rintro ⟨rest, rfl, hrest⟩
    exact .literal hrest

theorem matches_any {es : List Element} {name : List UInt8} :
    Matches (.any :: es) name ↔ ∃ byte rest, name = byte :: rest ∧ Matches es rest := by
  constructor
  · intro h
    cases h with
    | any hrest => exact ⟨_, _, rfl, hrest⟩
  · rintro ⟨byte, rest, rfl, hrest⟩
    exact .any hrest

theorem matches_set {negated : Bool} {items : List BracketItem} {es : List Element}
    {name : List UInt8} : Matches (.set negated items :: es) name ↔
      ∃ byte rest, name = byte :: rest ∧ setAccepts negated items byte ∧ Matches es rest := by
  constructor
  · intro h
    cases h with
    | set hbyte hrest => exact ⟨_, _, rfl, hbyte, hrest⟩
  · rintro ⟨byte, rest, rfl, hbyte, hrest⟩
    exact .set hbyte hrest

theorem matches_star {es : List Element} {name : List UInt8} :
    Matches (.star :: es) name ↔ ∃ suffix, suffix <:+ name ∧ Matches es suffix := by
  constructor
  · intro h
    cases h with
    | star skipped hrest => exact ⟨_, List.suffix_append _ _, hrest⟩
  · rintro ⟨suffix, ⟨skipped, rfl⟩, hrest⟩
    exact .star skipped hrest

/-- Stars in a row are one star. -/
theorem matches_star_dropWhile (noEscape : Bool) (rest name : List UInt8) :
    Matches (.star :: segmentElements noEscape rest) name ↔
      Matches (.star :: segmentElements noEscape (rest.dropWhile (· = starByte))) name := by
  induction rest generalizing name with
  | nil => rfl
  | cons first rest ih =>
    by_cases hstar : first = starByte
    · subst hstar
      have helements : segmentElements noEscape (starByte :: rest) =
          .star :: segmentElements noEscape rest := by
        cases segmentStart noEscape starByte rest with
        | star helements => exact helements
        | literal hstar => exact absurd rfl hstar
      rw [List.dropWhile_cons_of_pos (by decide), ← ih, helements]
      constructor
      · intro h
        obtain ⟨suffix, hsuffix, hrest⟩ := matches_star.mp h
        obtain ⟨suffix', hsuffix', hrest'⟩ := matches_star.mp hrest
        exact matches_star.mpr ⟨suffix', hsuffix'.trans hsuffix, hrest'⟩
      · intro h
        exact matches_star.mpr ⟨name, List.suffix_refl name, h⟩
    · rw [List.dropWhile_cons_of_neg (by simpa using hstar)]

/-- `pattern_matches_from` decides matching. -/
theorem patternMatchesFrom_iff (noEscape : Bool) (pattern candidate : List UInt8) :
    patternMatchesFrom noEscape pattern candidate = true ↔
      Matches (segmentElements noEscape pattern) candidate := by
  -- Induction on the length of the pattern: a bracket expression or an escape skips several bytes.
  induction pattern using (measure List.length).wf.induction generalizing candidate with
  | _ pattern ih =>
    cases pattern with
    | nil =>
      rw [patternMatchesFrom, decide_eq_true_eq, segmentElements_nil]
      exact matches_nil.symm
    | cons first rest =>
      have hrest := fun name => ih rest (Nat.lt_succ_self _) name
      cases segmentStart noEscape first rest with
      | @escaped second after hescape helements =>
        have hafter := fun name => ih after (Nat.lt_succ_of_lt (Nat.lt_succ_self _)) name
        rw [helements, matches_literal]
        unfold patternMatchesFrom
        rw [if_neg (by decide)]
        cases candidate with
        | nil => simp
        | cons byte candidate =>
          dsimp only
          rw [if_neg (by decide), if_neg (by decide), if_pos ⟨rfl, hescape⟩]
          simp [hafter]
      | star helements =>
        rw [helements, matches_star_dropWhile]
        unfold patternMatchesFrom
        rw [if_pos rfl]
        -- A run of stars at the end takes whatever is left of the name.
        by_cases hend : rest.dropWhile (· = starByte) = []
        · rw [if_pos hend, hend, segmentElements_nil]
          have hall : Matches [.star] candidate :=
            matches_star.mpr ⟨[], List.nil_suffix, .nil⟩
          exact iff_of_true rfl hall
        · have hlt : (rest.dropWhile (· = starByte)).length < (starByte :: rest).length :=
            Nat.lt_succ_of_le (List.dropWhile_suffix _).length_le
          -- Otherwise the loop tries every suffix of the name, as the meaning of a star does.
          rw [if_neg hend, List.any_eq_true, matches_star]
          constructor
          · rintro ⟨suffix, hmem, hmatch⟩
            exact ⟨suffix, (List.mem_tails suffix candidate).mp hmem, (ih _ hlt suffix).mp hmatch⟩
          · rintro ⟨suffix, hsuffix, hmatch⟩
            exact ⟨suffix, (List.mem_tails suffix candidate).mpr hsuffix, (ih _ hlt suffix).mpr hmatch⟩
      | question helements =>
        rw [helements, matches_any]
        unfold patternMatchesFrom
        rw [if_neg (by decide)]
        cases candidate with
        | nil => simp
        | cons byte candidate =>
          dsimp only
          rw [if_pos rfl]
          simp [hrest]
      | «open» hnone helements =>
        rw [helements, matches_literal]
        unfold patternMatchesFrom
        rw [if_neg (by decide)]
        cases candidate with
        | nil => simp
        | cons byte candidate =>
          dsimp only
          rw [if_neg (by decide), if_pos rfl]
          split
          · simp [hrest]
          · rename_i hsome
            cases (hnone byte).symm.trans hsome
      | @set rest next negated items hnegated hmatch helements =>
        rw [helements, matches_set]
        unfold patternMatchesFrom
        rw [if_neg (by decide)]
        cases candidate with
        | nil => simp
        | cons byte candidate =>
          have hnext := ih next (Nat.lt_succ_of_lt (bracketMatch_length (hmatch byte))) candidate
          dsimp only
          rw [if_neg (by decide), if_pos rfl]
          split
          · rename_i hnone
            cases hnone.symm.trans (hmatch byte)
          · rename_i hsome
            cases hsome.symm.trans (hmatch byte)
            -- A closed bracket expression takes one byte of the name and goes on behind the `]`.
            rw [Bool.and_eq_true, hnext]
            constructor
            · rintro ⟨hbyte, hmatch⟩
              exact ⟨byte, candidate, rfl, hbyte, hmatch⟩
            · rintro ⟨byte', candidate', heq, hbyte, hmatch⟩
              cases heq
              exact ⟨hbyte, hmatch⟩
      | literal hstar hquestion hopen hescape helements =>
        rw [helements, matches_literal]
        unfold patternMatchesFrom
        rw [if_neg hstar]
        cases candidate with
        | nil => simp
        | cons byte candidate =>
          dsimp only
          rw [if_neg hquestion, if_neg hopen]
          by_cases hlast : first = backslash ∧ ¬noEscape
          · -- Only a backslash at the end is left here.
            obtain rfl : rest = [] := by
              rcases hescape with h | h | h
              · exact absurd hlast.1 h
              · exact absurd h hlast.2
              · exact h
            rw [if_pos hlast, hlast.1]
            simp [hrest]
          · rw [if_neg hlast]
            simp [hrest]

/-! ## The other readings of a segment -/

/-- `segment_has_pattern_meta` looks for an element that is no literal. -/
theorem segmentHasPatternMeta_eq (noEscape : Bool) (segment : List UInt8) :
    segmentHasPatternMeta noEscape segment =
      (segmentElements noEscape segment).any Element.isMeta := by
  -- Induction on the length, as the scan jumps over an escaped byte.
  induction segment using (measure List.length).wf.induction with
  | _ segment ih =>
    cases segment with
    | nil =>
      rw [segmentHasPatternMeta, segmentElements_nil, List.any_nil]
    | cons first rest =>
      have hrest := ih rest (Nat.lt_succ_self _)
      unfold segmentHasPatternMeta
      cases segmentStart noEscape first rest with
      | @escaped second after hescape helements =>
        have hafter := ih after (Nat.lt_succ_of_lt (Nat.lt_succ_self _))
        rw [helements, List.any_cons, if_pos ⟨rfl, hescape, List.cons_ne_nil _ _⟩, List.tail_cons,
          hafter]
        rfl
      | star helements =>
        rw [helements, List.any_cons, if_neg (fun h => absurd h.1 (by decide)), if_pos (Or.inl rfl)]
        rfl
      | question helements =>
        rw [helements, List.any_cons, if_neg (fun h => absurd h.1 (by decide)), if_pos (Or.inr rfl)]
        rfl
      | «open» hnone helements =>
        rw [helements, List.any_cons, if_neg (fun h => absurd h.1 (by decide)), if_neg (by decide),
          hnone, if_neg (fun h => Bool.false_ne_true h.2), hrest]
        rfl
      | set hnegated hmatch helements =>
        rw [helements, List.any_cons, if_neg (fun h => absurd h.1 (by decide)), if_neg (by decide),
          hmatch, if_pos ⟨rfl, rfl⟩]
        rfl
      | literal hstar hquestion hopen hescape helements =>
        -- A backslash left here is the last byte or not an escape, so it is no metacharacter.
        have hlast : ¬(first = backslash ∧ ¬noEscape ∧ rest ≠ []) := by
          rintro ⟨hfirst, hno, hne⟩
          rcases hescape with h | h | h
          · exact h hfirst
          · exact hno h
          · exact hne h
        rw [helements, List.any_cons, if_neg hlast, if_neg (not_or.mpr ⟨hstar, hquestion⟩),
          if_neg (fun h => hopen h.1), hrest]
        rfl

/-- `should_match_hidden_name` looks at the first element. -/
theorem shouldMatchHiddenName_eq (noEscape : Bool) (segment : List UInt8) :
    shouldMatchHiddenName noEscape segment =
      matchesHidden (segmentElements noEscape segment) := by
  cases segment with
  | nil =>
    rw [segmentElements_nil]
    rfl
  | cons first rest =>
    unfold shouldMatchHiddenName
    dsimp only
    -- Only the first element of the segment counts, in the order in which the source tries them.
    cases segmentStart noEscape first rest with
    | @escaped second after hescape helements =>
      rw [helements, if_neg (by decide), if_neg (fun h => absurd h.1 (by decide)), if_neg hescape]
      change _ = decide (second = dot)
      simp
    | star helements =>
      rw [helements, if_neg (by decide), if_neg (fun h => absurd h.1 (by decide))]
      cases noEscape <;> rfl
    | question helements =>
      rw [helements, if_neg (by decide), if_neg (fun h => absurd h.1 (by decide))]
      cases noEscape <;> rfl
    | «open» hnone helements =>
      rw [helements, if_neg (by decide), hnone,
        if_neg (fun h => Bool.false_ne_true h.2.2.2)]
      cases noEscape <;> rfl
    | @set rest next negated items hnegated hmatch helements =>
      rw [helements, if_neg (by decide), hmatch]
      cases negated with
      | true =>
        -- A negated set never accepts a leading dot, whatever its members are.
        have hfirst : ¬(rest.head? ≠ some 33 ∧ rest.head? ≠ some 94) := fun h =>
          (hnegated.mp rfl).elim h.1 h.2
        rw [if_neg (fun h => hfirst ⟨h.2.1, h.2.2.1⟩)]
        cases noEscape <;> rfl
      | false =>
        have hfirst : rest.head? ≠ some 33 ∧ rest.head? ≠ some 94 :=
          ⟨fun h => Bool.false_ne_true (hnegated.mpr (Or.inl h)),
            fun h => Bool.false_ne_true (hnegated.mpr (Or.inr h))⟩
        change _ = setAccepts false items dot
        by_cases hdot : setAccepts false items dot = true
        · rw [if_pos ⟨rfl, hfirst.1, hfirst.2, hdot⟩, hdot]
        · rw [if_neg (fun h => hdot h.2.2.2), Bool.eq_false_iff.mpr hdot]
          cases noEscape <;> rfl
    | literal hstar hquestion hopen hescape helements =>
      rw [helements, if_neg (fun h : first = openBracket ∧ _ => hopen h.1)]
      change _ = decide (first = dot)
      by_cases hdot : first = dot
      · rw [if_pos hdot, decide_eq_true hdot]
      · rw [if_neg hdot, decide_eq_false hdot]
        cases noEscape with
        | true => rfl
        | false =>
          have hnot : ¬(first = backslash ∧ rest.head? = some dot) := by
            rintro ⟨hfirst, hhead⟩
            rcases hescape with h | h | h
            · exact h hfirst
            · exact Bool.false_ne_true h
            · rw [h] at hhead
              cases hhead
          rw [if_neg Bool.false_ne_true, decide_eq_false hnot]

theorem unescapeSegment_cons {noEscape : Bool} {first : UInt8} {rest : List UInt8}
    (h : first ≠ backslash ∨ noEscape ∨ rest = []) :
    unescapeSegment noEscape (first :: rest) = first :: unescapeSegment noEscape rest := by
  unfold unescapeSegment
  cases noEscape with
  | true => rw [if_pos rfl, if_pos rfl]
  | false =>
    rw [if_neg Bool.false_ne_true, if_neg Bool.false_ne_true]
    cases rest with
    | nil => rfl
    | cons second rest =>
      have hfirst : first ≠ backslash := by
        rcases h with h | h | h
        · exact h
        · exact absurd h Bool.false_ne_true
        · exact absurd h (List.cons_ne_nil _ _)
      rw [unescapeLoop, if_neg hfirst]

/-- `unescape_segment` spells the name of a segment that has only literals. -/
theorem unescapeSegment_eq (noEscape : Bool) (segment : List UInt8)
    (h : (segmentElements noEscape segment).any Element.isMeta = false) :
    unescapeSegment noEscape segment = literalName (segmentElements noEscape segment) := by
  induction segment using (measure List.length).wf.induction with
  | _ segment ih =>
    cases segment with
    | nil =>
      rw [segmentElements_nil]
      cases noEscape <;> rfl
    | cons first rest =>
      cases segmentStart noEscape first rest with
      | @escaped second after hescape helements =>
        rw [helements, List.any_cons, Bool.or_eq_false_iff] at h
        have hafter := ih after (Nat.lt_succ_of_lt (Nat.lt_succ_self _)) h.2
        unfold unescapeSegment at hafter ⊢
        rw [if_neg hescape] at hafter
        rw [helements, if_neg hescape, unescapeLoop, if_pos rfl, hafter]
        rfl
      | star helements =>
        rw [helements, List.any_cons] at h
        cases h
      | question helements =>
        rw [helements, List.any_cons] at h
        cases h
      | «open» hnone helements =>
        rw [helements, List.any_cons, Bool.or_eq_false_iff] at h
        rw [helements, unescapeSegment_cons (Or.inl (by decide)), ih rest (Nat.lt_succ_self _) h.2]
        rfl
      | set hnegated hmatch helements =>
        rw [helements, List.any_cons] at h
        cases h
      | literal hstar hquestion hopen hescape helements =>
        rw [helements, List.any_cons, Bool.or_eq_false_iff] at h
        rw [helements, unescapeSegment_cons hescape, ih rest (Nat.lt_succ_self _) h.2]
        rfl

end Rlibc.Glob
