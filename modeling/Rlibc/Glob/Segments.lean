import Rlibc.Foundations.Runs
import Rlibc.Glob.Matching

/-!
# Segments

`parse_segments_with_separators`, and the same cut made on the tokens of the pattern.  The source
first drops the backslash of every `\/`, also where that backslash is itself escaped; the segment
then ends with a backslash that stands for itself, so the elements are the same.
-/

namespace Rlibc.Glob

def isSeparatorByte (byte : UInt8) : Bool := byte = PATH_SEPARATOR

/-- `parse_segments_with_separators`: the leading separators, and each segment with the number of
separators before it. -/
def parseSegmentsWithSeparators (pattern : List UInt8) : Nat × Runs.Cut UInt8 :=
  ((pattern.takeWhile isSeparatorByte).length,
    Runs.cut isSeparatorByte 0 (pattern.dropWhile isSeparatorByte))

/-- `normalized_pattern`. -/
def normalizedPattern (pattern : List UInt8) (noEscape : Bool) : List UInt8 :=
  if ¬noEscape ∧ hasEscapedSeparator pattern then normalizeEscapedSeparators pattern else pattern

/-- A slash separates, escaped or not. -/
def Token.isSeparator (token : Token) : Bool := token.byte = PATH_SEPARATOR

/-- The segments of a pattern as it is written. -/
def patternSegments (noEscape : Bool) (pattern : List UInt8) : Nat × Runs.Cut Token :=
  (((tokens noEscape pattern).takeWhile Token.isSeparator).length,
    Runs.cut Token.isSeparator 0 ((tokens noEscape pattern).dropWhile Token.isSeparator))

/-! ## A backslash at the end of a segment -/

/-- Two segments that differ at most in how their last backslash is written. -/
def SameSegment (segment segment' : List Token) : Prop :=
  segment = segment' ∨ ∃ front, segment = front ++ [.plain backslash] ∧
    segment' = front ++ [⟨true, backslash⟩]

theorem SameSegment.cons {segment segment' : List Token} (h : SameSegment segment segment')
    (token : Token) : SameSegment (token :: segment) (token :: segment') := by
  rcases h with rfl | ⟨front, rfl, rfl⟩
  · exact Or.inl rfl
  · exact Or.inr ⟨token :: front, rfl, rfl⟩

theorem readItems_concat {last : Token} (hlast : last.byte = backslash) (front : List Token)
    (hasAnyItem : Bool) :
    readItems (front ++ [last]) hasAnyItem =
      (readItems front hasAnyItem).map fun r => (r.1, r.2 ++ [last]) := by
  have hclose : last ≠ .plain closeBracket := by
    rintro rfl
    exact absurd hlast (by decide)
  have hnil : ∀ hasAnyItem, readItems [] hasAnyItem = none := fun hasAnyItem => by rw [readItems]
  -- The backslash cannot close the brackets, and nothing behind it can.
  have hone : ∀ hasAnyItem, readItems [last] hasAnyItem = none := by
    intro hasAnyItem
    rw [readItems, if_neg (fun h => hclose h.1)]
    change (readItems [] true).map _ = none
    rw [hnil]
    rfl
  -- Induction on the length, as a range takes three tokens at once.
  induction front using (measure List.length).wf.induction generalizing hasAnyItem with
  | _ front ih =>
    cases front with
    | nil =>
      rw [List.nil_append, hone, hnil]
      rfl
    | cons token rest =>
      rw [List.cons_append, readItems, readItems]
      by_cases hstop : token = .plain closeBracket ∧ hasAnyItem
      · rw [if_pos hstop, if_pos hstop]
        rfl
      · rw [if_neg hstop, if_neg hstop]
        cases rest with
        | nil =>
          change (readItems [last] true).map _ = ((readItems [] true).map _).map _
          rw [hone, hnil]
          rfl
        | cons dash after =>
          cases after with
          | nil =>
            have hrest := ih [dash] (Nat.lt_succ_self _) true
            change (readItems (readItem token [dash, last]).2 true).map
                (fun r => ((readItem token [dash, last]).1 :: r.1, r.2)) =
              ((readItems [dash] true).map _).map _
            by_cases hrange : ¬token.escaped ∧ dash = .plain 45
            · -- The backslash ends a range, and nothing is left to close the brackets.
              have hopen : readItems [dash] true = none := by
                rw [readItems, if_neg (by rw [hrange.2]; decide)]
                change (readItems [] true).map _ = none
                rw [hnil]
                rfl
              have hitem : readItem token [dash, last] = (.range token.byte last.byte, []) :=
                if_pos ⟨hrange.1, hrange.2, hclose⟩
              rw [hopen, hitem, hnil]
              rfl
            · have hitem : readItem token [dash, last] = (.literal token.byte, [dash, last]) :=
                if_neg fun h => hrange ⟨h.1, h.2.1⟩
              change readItems [dash, last] true = _ at hrest
              rw [hitem, hrest, Option.map_map, Option.map_map]
              rfl
          | cons second rest =>
            rw [List.cons_append, List.cons_append]
            by_cases hrange : ¬token.escaped ∧ dash = .plain 45 ∧ second ≠ .plain closeBracket
            · have hitem : ∀ tail, readItem token (dash :: second :: tail) =
                  (.range token.byte second.byte, tail) := fun tail => if_pos hrange
              rw [hitem, hitem, ih rest (Nat.lt_succ_of_lt (Nat.lt_succ_of_lt (Nat.lt_succ_self _))),
                Option.map_map, Option.map_map]
              rfl
            · have hitem : ∀ tail, readItem token (dash :: second :: tail) =
                  (.literal token.byte, dash :: second :: tail) := fun tail => if_neg hrange
              have hrest := ih (dash :: second :: rest) (Nat.lt_succ_self _) true
              rw [List.cons_append, List.cons_append] at hrest
              rw [hitem, hitem, hrest, Option.map_map, Option.map_map]
              rfl

theorem readBracket_concat {last : Token} (hlast : last.byte = backslash) (front : List Token) :
    readBracket (front ++ [last]) =
      (readBracket front).map fun r => (r.1, r.2 ++ [last]) := by
  have hclose : last ≠ .plain closeBracket := by
    rintro rfl
    exact absurd hlast (by decide)
  -- Behind the mark of negation, the backslash only joins what is left over.
  have hbody : ∀ (negated : Bool) (body : List Token),
      (if (body ++ [last]).head? = some (.plain closeBracket) then
        (readItems (body ++ [last]).tail true).map fun r =>
          (Element.set negated (.literal closeBracket :: r.1), r.2)
      else (readItems (body ++ [last]) false).map fun r =>
        (.set negated r.1, r.2)) =
      (if body.head? = some (.plain closeBracket) then
        (readItems body.tail true).map fun r =>
          (Element.set negated (.literal closeBracket :: r.1), r.2)
      else (readItems body false).map fun r =>
        (.set negated r.1, r.2)).map fun r => (r.1, r.2 ++ [last]) := by
    intro negated body
    cases body with
    | nil =>
      have hhead : [last].head? ≠ some (.plain closeBracket) := fun h =>
        hclose (Option.some.inj h)
      have hnil : ([] : List Token).head? ≠ some (.plain closeBracket) := fun h =>
        Option.some_ne_none _ h.symm
      rw [List.nil_append, if_neg hhead, if_neg hnil, ← List.nil_append [last],
        readItems_concat hlast, Option.map_map, Option.map_map]
      rfl
    | cons first rest =>
      rw [List.cons_append, List.head?_cons, List.head?_cons, List.tail_cons, List.tail_cons]
      by_cases hfirst : some first = some (.plain closeBracket)
      · rw [if_pos hfirst, if_pos hfirst, readItems_concat hlast, Option.map_map, Option.map_map]
        rfl
      · rw [if_neg hfirst, if_neg hfirst, ← List.cons_append, readItems_concat hlast,
          Option.map_map, Option.map_map]
        rfl
  cases front with
  | nil =>
    have hinvert : ¬(last = .plain 33 ∨ last = .plain 94) := by
      rintro (rfl | rfl)
      · exact absurd hlast (by decide)
      · exact absurd hlast (by decide)
    have hnone := hbody false []
    rw [List.nil_append] at hnone ⊢
    unfold readBracket
    simp only [if_neg hinvert, decide_eq_false hinvert]
    rw [hnone, if_neg (fun h => by cases h), readItems]
    rfl
  | cons first rest =>
    rw [List.cons_append]
    unfold readBracket
    by_cases hinvert : first = .plain 33 ∨ first = .plain 94
    · simp only [if_pos hinvert, decide_eq_true hinvert]
      exact hbody true rest
    · simp only [if_neg hinvert, decide_eq_false hinvert]
      exact hbody false (first :: rest)

/-- How the last backslash is written does not matter. -/
theorem elements_concat {last : Token} (hlast : last.byte = backslash) (front : List Token) :
    elements (front ++ [last]) = elements front ++ [.literal backslash] := by
  -- Induction on the length: a bracket expression takes several tokens.
  induction front using (measure List.length).wf.induction with
  | _ front ih =>
    cases front with
    | nil =>
      have hstar : last ≠ .plain starByte := by
        rintro rfl
        exact absurd hlast (by decide)
      have hquestion : last ≠ .plain questionByte := by
        rintro rfl
        exact absurd hlast (by decide)
      have hopen : last ≠ .plain openBracket := by
        rintro rfl
        exact absurd hlast (by decide)
      have hnil : elements [] = [] := by rw [elements]
      rw [List.nil_append, hnil, elements, if_neg hstar, if_neg hquestion, if_neg hopen, hnil, hlast]
      rfl
    | cons first rest =>
      have hrest := ih rest (Nat.lt_succ_self _)
      rw [List.cons_append]
      by_cases hstar : first = .plain starByte
      · rw [hstar, elements_star, elements_star, hrest]
        rfl
      by_cases hquestion : first = .plain questionByte
      · rw [hquestion, elements_question, elements_question, hrest]
        rfl
      by_cases hopen : first = .plain openBracket
      · rw [hopen]
        -- A bracket expression that is not closed without the backslash is not closed with it.
        have hbracket := readBracket_concat hlast rest
        cases hread : readBracket rest with
        | none =>
          rw [hread] at hbracket
          rw [elements_open hread, elements_open hbracket, hrest]
          rfl
        | some result =>
          obtain ⟨element, next⟩ := result
          rw [hread] at hbracket
          rw [elements_set hread, elements_set hbracket,
            ih next (Nat.lt_succ_of_lt ((readBracket_suffix hread).2))]
          rfl
      rw [elements, if_neg hstar, if_neg hquestion, if_neg hopen, hrest]
      rw [elements, if_neg hstar, if_neg hquestion, if_neg hopen]
      rfl

theorem SameSegment.elements_eq {segment segment' : List Token}
    (h : SameSegment segment segment') : elements segment = elements segment' := by
  rcases h with rfl | ⟨front, rfl, rfl⟩
  · rfl
  · rw [elements_concat rfl, elements_concat rfl]

/-! ## The two cuts -/

/-- The pattern as the source splits it. -/
def splitPattern (noEscape : Bool) (pattern : List UInt8) : List UInt8 :=
  if noEscape then pattern else normalizeEscapedSeparators pattern

theorem normalizeEscapedSeparators_of_not {pattern : List UInt8}
    (h : hasEscapedSeparator pattern = false) : normalizeEscapedSeparators pattern = pattern := by
  induction pattern with
  | nil => rfl
  | cons first rest ih =>
    cases rest with
    | nil => rfl
    | cons second rest =>
      rw [hasEscapedSeparator, Bool.or_eq_false_iff] at h
      rw [normalizeEscapedSeparators, if_neg (of_decide_eq_false h.1), ih h.2]

/-- The pattern is copied only where it has an escaped separator. -/
theorem normalizedPattern_eq (pattern : List UInt8) (noEscape : Bool) :
    normalizedPattern pattern noEscape = splitPattern noEscape pattern := by
  unfold normalizedPattern splitPattern
  cases noEscape with
  | true => rw [if_neg (fun h => h.1 rfl), if_pos rfl]
  | false =>
    rw [if_neg Bool.false_ne_true]
    by_cases h : hasEscapedSeparator pattern = true
    · rw [if_pos ⟨Bool.false_ne_true, h⟩]
    · rw [if_neg (fun hboth => h hboth.2),
        normalizeEscapedSeparators_of_not (Bool.eq_false_iff.mpr h)]

theorem tokens_true (pattern : List UInt8) : tokens true pattern = pattern.map .plain := by
  induction pattern with
  | nil => rfl
  | cons first rest ih => rw [tokens_plain _ (fun h => h.2 rfl), ih, List.map_cons]

/-- What is left of the pattern, in bytes and in tokens. -/
def Aligned (noEscape : Bool) (bytes : List UInt8) (ts : List Token) : Prop :=
  ∃ pattern, bytes = splitPattern noEscape pattern ∧ ts = tokens noEscape pattern

theorem normalizeEscapedSeparators_cons {first : UInt8} {rest : List UInt8}
    (h : ¬(first = backslash ∧ rest.head? = some PATH_SEPARATOR)) :
    normalizeEscapedSeparators (first :: rest) = first :: normalizeEscapedSeparators rest := by
  cases rest with
  | nil => rfl
  | cons second rest =>
    rw [normalizeEscapedSeparators, if_neg (fun hboth => h ⟨hboth.1, congrArg some hboth.2⟩)]

theorem normalizeEscapedSeparators_slash (rest : List UInt8) :
    normalizeEscapedSeparators (PATH_SEPARATOR :: rest) =
      PATH_SEPARATOR :: normalizeEscapedSeparators rest :=
  normalizeEscapedSeparators_cons fun h => absurd h.1 (by decide)

/-- A step over the first segment, when escapes count. -/
theorem normalized_piece (pattern : List UInt8) :
    SameSegment (tokens false ((normalizeEscapedSeparators pattern).takeWhile (!isSeparatorByte ·)))
        ((tokens false pattern).takeWhile (!Token.isSeparator ·)) ∧
      Aligned false ((normalizeEscapedSeparators pattern).dropWhile (!isSeparatorByte ·))
        ((tokens false pattern).dropWhile (!Token.isSeparator ·)) := by
  -- Induction on the length; normalising can only drop a backslash right before a separator.
  induction pattern using (measure List.length).wf.induction with
  | _ pattern ih =>
    cases pattern with
    | nil => exact ⟨Or.inl rfl, [], rfl, rfl⟩
    | cons first rest =>
      by_cases hslash : first = PATH_SEPARATOR
      · -- The segment is empty.
        subst hslash
        refine ⟨Or.inl ?_, PATH_SEPARATOR :: rest, ?_, ?_⟩
        · rw [normalizeEscapedSeparators_slash, List.takeWhile_cons_of_neg (by decide),
            tokens_plain _ (fun h => absurd h.1 (by decide)),
            List.takeWhile_cons_of_neg (by decide)]
          rfl
        · rw [normalizeEscapedSeparators_slash, List.dropWhile_cons_of_neg (by decide)]
          exact (normalizeEscapedSeparators_slash rest).symm
        · rw [tokens_plain _ (fun h => absurd h.1 (by decide)),
            List.dropWhile_cons_of_neg (by decide)]
      by_cases hplain : first = backslash ∧ rest ≠ []
      · obtain ⟨rfl, hne⟩ := hplain
        obtain ⟨second, after, rfl⟩ := List.exists_cons_of_ne_nil hne
        have hescaped : tokens false (backslash :: second :: after) =
            ⟨true, second⟩ :: tokens false after := tokens_escaped Bool.false_ne_true second after
        by_cases hsecond : second = PATH_SEPARATOR
        · -- An escaped separator at once.
          subst hsecond
          have hnormal : normalizeEscapedSeparators (backslash :: PATH_SEPARATOR :: after) =
              PATH_SEPARATOR :: normalizeEscapedSeparators after := by
            rw [normalizeEscapedSeparators, if_pos ⟨rfl, rfl⟩]
          refine ⟨Or.inl ?_, backslash :: PATH_SEPARATOR :: after, ?_, ?_⟩
          · rw [hnormal, hescaped, List.takeWhile_cons_of_neg (by decide),
              List.takeWhile_cons_of_neg (by simp [Token.isSeparator])]
            rfl
          · rw [hnormal, List.dropWhile_cons_of_neg (by decide)]
            exact hnormal.symm
          · rw [hescaped, List.dropWhile_cons_of_neg (by simp [Token.isSeparator])]
        have hnormal : normalizeEscapedSeparators (backslash :: second :: after) =
            backslash :: normalizeEscapedSeparators (second :: after) :=
          normalizeEscapedSeparators_cons fun h => hsecond (Option.some.inj h.2)
        by_cases hdouble : second = backslash ∧ after.head? = some PATH_SEPARATOR
        · -- The backslash that is dropped is the escaped one.
          obtain ⟨rfl, hhead⟩ := hdouble
          obtain ⟨after, rfl⟩ := List.head?_eq_some_iff.mp hhead
          have hinner : normalizeEscapedSeparators (backslash :: PATH_SEPARATOR :: after) =
              PATH_SEPARATOR :: normalizeEscapedSeparators after := by
            rw [normalizeEscapedSeparators, if_pos ⟨rfl, rfl⟩]
          have hslash' : tokens false (PATH_SEPARATOR :: after) =
              .plain PATH_SEPARATOR :: tokens false after :=
            tokens_plain _ fun h => absurd h.1 (by decide)
          refine ⟨Or.inr ⟨[], ?_, ?_⟩, PATH_SEPARATOR :: after, ?_, ?_⟩
          · rw [hnormal, hinner, List.takeWhile_cons_of_pos (by decide),
              List.takeWhile_cons_of_neg (by decide)]
            rfl
          · rw [hescaped, hslash', List.takeWhile_cons_of_pos (by decide),
              List.takeWhile_cons_of_neg (by decide)]
            rfl
          · rw [hnormal, hinner, List.dropWhile_cons_of_pos (by decide),
              List.dropWhile_cons_of_neg (by decide)]
            exact (normalizeEscapedSeparators_slash after).symm
          · rw [hescaped, hslash', List.dropWhile_cons_of_pos (by decide),
              List.dropWhile_cons_of_neg (by decide)]
        · obtain ⟨hsame, haligned⟩ :=
            ih after (Nat.lt_succ_of_lt (Nat.lt_succ_self _))
          have hsecondByte : (!isSeparatorByte second) = true := by
            simp [isSeparatorByte, hsecond]
          have hsecondToken : (!Token.isSeparator ⟨true, second⟩) = true := by
            simp [Token.isSeparator, hsecond]
          rw [hnormal, normalizeEscapedSeparators_cons hdouble, hescaped,
            List.takeWhile_cons_of_pos (by decide),
            List.takeWhile_cons_of_pos (p := (!isSeparatorByte ·)) hsecondByte,
            List.takeWhile_cons_of_pos (p := (!Token.isSeparator ·)) hsecondToken,
            List.dropWhile_cons_of_pos (by decide),
            List.dropWhile_cons_of_pos (p := (!isSeparatorByte ·)) hsecondByte,
            List.dropWhile_cons_of_pos (p := (!Token.isSeparator ·)) hsecondToken,
            tokens_escaped Bool.false_ne_true]
          exact ⟨hsame.cons _, haligned⟩
      · have hsecond : ¬(first = backslash ∧ rest.head? = some PATH_SEPARATOR) := by
          rintro ⟨hfirst, hhead⟩
          apply hplain
          refine ⟨hfirst, ?_⟩
          rintro rfl
          cases hhead
        have htokens : ∀ tail, (first = backslash → tail = []) →
            tokens false (first :: tail) = .plain first :: tokens false tail := by
          intro tail htail
          by_cases hfirst : first = backslash
          · rw [htail hfirst]
            rfl
          · exact tokens_plain _ fun h => hfirst h.1
        have hend : first = backslash → rest = [] := fun hfirst =>
          Classical.byContradiction fun hne => hplain ⟨hfirst, hne⟩
        -- A byte that neither separates nor escapes stays in the segment on both sides.
        obtain ⟨hsame, haligned⟩ := ih rest (Nat.lt_succ_self _)
        have hbyte : (!isSeparatorByte first) = true := by
          simp [isSeparatorByte, hslash]
        have htoken : (!Token.isSeparator (.plain first)) = true := by
          simp [Token.isSeparator, hslash]
        rw [normalizeEscapedSeparators_cons hsecond, htokens rest hend,
          List.takeWhile_cons_of_pos (p := (!isSeparatorByte ·)) hbyte,
          List.takeWhile_cons_of_pos (p := (!Token.isSeparator ·)) htoken,
          List.dropWhile_cons_of_pos (p := (!isSeparatorByte ·)) hbyte,
          List.dropWhile_cons_of_pos (p := (!Token.isSeparator ·)) htoken, htokens]
        · exact ⟨hsame.cons _, haligned⟩
        · intro hfirst
          rw [hend hfirst]
          rfl

theorem tokens_eq_nil {noEscape : Bool} {bytes : List UInt8} :
    tokens noEscape bytes = [] ↔ bytes = [] := by
  constructor
  · intro h
    cases bytes with
    | nil => rfl
    | cons first rest => exact absurd h (tokens_ne_nil noEscape first rest)
  · rintro rfl
    rfl

theorem SameSegment.eq_nil {segment segment' : List Token} (h : SameSegment segment segment') :
    segment = [] ↔ segment' = [] := by
  rcases h with rfl | ⟨front, rfl, rfl⟩
  · rfl
  · rw [List.append_eq_nil_iff, List.append_eq_nil_iff]
    exact iff_of_false (fun h => List.cons_ne_nil _ _ h.2) (fun h => List.cons_ne_nil _ _ h.2)

theorem Aligned.piece {noEscape : Bool} {bytes : List UInt8} {ts : List Token}
    (h : Aligned noEscape bytes ts) :
    SameSegment (tokens noEscape (bytes.takeWhile (!isSeparatorByte ·)))
        (ts.takeWhile (!Token.isSeparator ·)) ∧
      Aligned noEscape (bytes.dropWhile (!isSeparatorByte ·))
        (ts.dropWhile (!Token.isSeparator ·)) := by
  obtain ⟨pattern, rfl, rfl⟩ := h
  cases noEscape with
  | true =>
    rw [splitPattern, if_pos rfl, tokens_true, tokens_true, List.takeWhile_map, List.dropWhile_map]
    exact ⟨Or.inl rfl, pattern.dropWhile (!isSeparatorByte ·), rfl, (tokens_true _).symm⟩
  | false => exact normalized_piece pattern

theorem Aligned.separators {noEscape : Bool} {bytes : List UInt8} {ts : List Token}
    (h : Aligned noEscape bytes ts) :
    (bytes.takeWhile isSeparatorByte).length = (ts.takeWhile Token.isSeparator).length ∧
      Aligned noEscape (bytes.dropWhile isSeparatorByte) (ts.dropWhile Token.isSeparator) := by
  obtain ⟨pattern, rfl, rfl⟩ := h
  -- Without escapes bytes and tokens are the same; otherwise the pattern is normalised.
  cases noEscape with
  | true =>
    rw [splitPattern, if_pos rfl, tokens_true, List.takeWhile_map, List.dropWhile_map,
      List.length_map]
    exact ⟨rfl, pattern.dropWhile isSeparatorByte, rfl, (tokens_true _).symm⟩
  | false =>
    change ((normalizeEscapedSeparators pattern).takeWhile isSeparatorByte).length = _ ∧
      Aligned false ((normalizeEscapedSeparators pattern).dropWhile isSeparatorByte) _
    induction pattern using (measure List.length).wf.induction with
    | _ pattern ih =>
      cases pattern with
      | nil => exact ⟨rfl, [], rfl, rfl⟩
      | cons first rest =>
        by_cases hslash : first = PATH_SEPARATOR
        · subst hslash
          obtain ⟨hlength, haligned⟩ := ih rest (Nat.lt_succ_self _)
          rw [normalizeEscapedSeparators_slash, tokens_plain _ (fun h => absurd h.1 (by decide)),
            List.takeWhile_cons_of_pos (by decide), List.takeWhile_cons_of_pos (by decide),
            List.dropWhile_cons_of_pos (by decide), List.dropWhile_cons_of_pos (by decide),
            List.length_cons, List.length_cons, hlength]
          exact ⟨rfl, haligned⟩
        by_cases hescaped : first = backslash ∧ rest.head? = some PATH_SEPARATOR
        · obtain ⟨rfl, hhead⟩ := hescaped
          obtain ⟨after, rfl⟩ := List.head?_eq_some_iff.mp hhead
          obtain ⟨hlength, haligned⟩ := ih after (Nat.lt_succ_of_lt (Nat.lt_succ_self _))
          rw [normalizeEscapedSeparators, if_pos ⟨rfl, rfl⟩, tokens_escaped Bool.false_ne_true,
            List.takeWhile_cons_of_pos (by decide), List.takeWhile_cons_of_pos (by decide),
            List.dropWhile_cons_of_pos (by decide), List.dropWhile_cons_of_pos (by decide),
            List.length_cons, List.length_cons, hlength]
          exact ⟨rfl, haligned⟩
        · -- No separator comes first, in bytes or in tokens.
          have hbyte : ¬isSeparatorByte first = true := by simpa [isSeparatorByte] using hslash
          obtain ⟨token, after, htokens, htoken⟩ : ∃ token after,
              tokens false (first :: rest) = token :: after ∧ ¬token.isSeparator = true := by
            rcases tokens_cases false first rest with
              ⟨hfirst, -, second, after, rfl, htokens⟩ | ⟨-, htokens⟩
            · refine ⟨_, _, htokens, ?_⟩
              intro hsep
              exact hescaped ⟨hfirst, congrArg some (of_decide_eq_true hsep)⟩
            · exact ⟨_, _, htokens, hbyte⟩
          have hnormal := normalizeEscapedSeparators_cons hescaped
          refine ⟨?_, first :: rest, ?_, ?_⟩
          · rw [hnormal, htokens, List.takeWhile_cons_of_neg hbyte,
              List.takeWhile_cons_of_neg htoken]
            rfl
          · rw [hnormal, List.dropWhile_cons_of_neg hbyte]
            exact hnormal.symm
          · rw [htokens, List.dropWhile_cons_of_neg htoken]

theorem Aligned.eq_nil {noEscape : Bool} {bytes : List UInt8} {ts : List Token}
    (h : Aligned noEscape bytes ts) : bytes = [] ↔ ts = [] := by
  obtain ⟨pattern, rfl, rfl⟩ := h
  rw [tokens_eq_nil]
  cases noEscape with
  | true => rfl
  | false =>
    change normalizeEscapedSeparators pattern = [] ↔ pattern = []
    match pattern with
    | [] => rfl
    | [_] => rfl
    | first :: second :: rest =>
      rw [normalizeEscapedSeparators]
      split
      · exact iff_of_false (List.cons_ne_nil _ _) (List.cons_ne_nil _ _)
      · exact iff_of_false (List.cons_ne_nil _ _) (List.cons_ne_nil _ _)

/-- The source finds the segments of the pattern as it is written, up to how a last backslash is
spelled. -/
theorem parseSegments_spec (noEscape : Bool) (pattern : List UInt8) :
    (parseSegmentsWithSeparators (normalizedPattern pattern noEscape)).1 =
        (patternSegments noEscape pattern).1 ∧
      List.Forall₂ (fun x y => x.1 = y.1 ∧ SameSegment (tokens noEscape x.2) y.2)
        (parseSegmentsWithSeparators (normalizedPattern pattern noEscape)).2.pieces
        (patternSegments noEscape pattern).2.pieces ∧
      (parseSegmentsWithSeparators (normalizedPattern pattern noEscape)).2.trailing =
        (patternSegments noEscape pattern).2.trailing := by
  have haligned : Aligned noEscape (normalizedPattern pattern noEscape)
      (tokens noEscape pattern) := ⟨pattern, normalizedPattern_eq pattern noEscape, rfl⟩
  obtain ⟨hlength, hrest⟩ := haligned.separators
  obtain ⟨hpieces, htrailing⟩ := Runs.cut_simulation (Aligned noEscape)
    (fun x y => SameSegment (tokens noEscape x) y) (fun _ _ h => h.eq_nil)
    (fun _ _ h => ⟨h.piece.1, tokens_eq_nil.symm.trans h.piece.1.eq_nil, h.piece.2⟩)
    (fun _ _ h => h.separators) 0 hrest
  exact ⟨hlength, hpieces, htrailing⟩

theorem findEscapedSeparator_eq (pattern : List UInt8) (found : Bool) :
    findEscapedSeparator pattern found =
      (found || ((tokens false pattern).takeWhile Token.isSeparator).any Token.escaped) := by
  -- Induction on the length, as an escaped separator is two bytes of the pattern.
  induction pattern using (measure List.length).wf.induction generalizing found with
  | _ pattern ih =>
    match pattern with
    | [] => exact (Bool.or_false found).symm
    | [last] =>
      rw [findEscapedSeparator, tokens]
      by_cases hslash : last = PATH_SEPARATOR
      · subst hslash
        exact (Bool.or_false found).symm
      · rw [List.takeWhile_cons_of_neg (by simpa [Token.isSeparator] using hslash), List.any_nil,
          Bool.or_false]
    | first :: second :: rest =>
      rw [findEscapedSeparator]
      by_cases hslash : first = PATH_SEPARATOR
      · subst hslash
        have htokens : tokens false (PATH_SEPARATOR :: second :: rest) =
            .plain PATH_SEPARATOR :: tokens false (second :: rest) :=
          tokens_plain _ fun h => absurd h.1 (by decide)
        rw [if_pos rfl, ih (second :: rest) (Nat.lt_succ_self _), htokens,
          List.takeWhile_cons_of_pos (by decide), List.any_cons, Bool.false_or]
      · rw [if_neg hslash]
        by_cases hescaped : first = backslash ∧ second = PATH_SEPARATOR
        · obtain ⟨rfl, rfl⟩ := hescaped
          rw [if_pos ⟨rfl, rfl⟩, ih rest (Nat.lt_succ_of_lt (Nat.lt_succ_self _)),
            tokens_escaped Bool.false_ne_true, List.takeWhile_cons_of_pos (by decide),
            List.any_cons, Bool.true_or, Bool.or_true]
        · rw [if_neg hescaped]
          -- The scan stops at the first byte that starts no separator.
          have hfirst : ((tokens false (first :: second :: rest)).takeWhile Token.isSeparator) =
              [] := by
            rw [tokens]
            by_cases hbackslash : first = backslash ∧ ¬false = true
            · rw [if_pos hbackslash]
              apply List.takeWhile_cons_of_neg
              intro hsep
              exact hescaped ⟨hbackslash.1, of_decide_eq_true hsep⟩
            · rw [if_neg hbackslash]
              apply List.takeWhile_cons_of_neg
              intro hsep
              exact hslash (of_decide_eq_true hsep)
          rw [hfirst, List.any_nil, Bool.or_false]

/-- Some leading separator is written with a backslash. -/
theorem leadingSeparatorsIncludeEscaped_eq (pattern : List UInt8) (noEscape : Bool) :
    leadingSeparatorsIncludeEscaped pattern noEscape =
      ((tokens noEscape pattern).takeWhile Token.isSeparator).any Token.escaped := by
  unfold leadingSeparatorsIncludeEscaped
  cases noEscape with
  | true =>
    rw [if_pos rfl, tokens_true, List.takeWhile_map, List.any_map]
    exact (List.any_eq_false.mpr fun _ _ => Bool.false_ne_true).symm
  | false => rw [if_neg Bool.false_ne_true, findEscapedSeparator_eq, Bool.false_or]

end Rlibc.Glob
