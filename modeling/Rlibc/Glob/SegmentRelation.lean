import Rlibc.Glob.Matching

/-!
# What a segment matches

The relation between a segment and a name, read off the segment from left to right with the
bracket expressions left to `bracket_match`; and the loops of `pattern_matches_from` turn by turn,
which end on every segment and decide the relation.
-/

namespace Rlibc.Glob

/-- The name can be split to match the segment. -/
inductive SegmentMatches (noEscape : Bool) : List UInt8 → List UInt8 → Prop
  | nil : SegmentMatches noEscape [] []
  | star (skipped : List UInt8) {rest name : List UInt8}
      (hrest : SegmentMatches noEscape rest name) :
      SegmentMatches noEscape (starByte :: rest) (skipped ++ name)
  | any {byte : UInt8} {rest name : List UInt8} (hrest : SegmentMatches noEscape rest name) :
      SegmentMatches noEscape (questionByte :: rest) (byte :: name)
  | bracket {byte : UInt8} {rest next name : List UInt8}
      (hbyte : bracketMatch rest byte noEscape = some (true, next))
      (hrest : SegmentMatches noEscape next name) :
      SegmentMatches noEscape (openBracket :: rest) (byte :: name)
  | unclosed {rest name : List UInt8}
      (hopen : ∀ candidate, bracketMatch rest candidate noEscape = none)
      (hrest : SegmentMatches noEscape rest name) :
      SegmentMatches noEscape (openBracket :: rest) (openBracket :: name)
  | escaped {byte : UInt8} {rest name : List UInt8} (hescape : ¬noEscape)
      (hrest : SegmentMatches noEscape rest name) :
      SegmentMatches noEscape (backslash :: byte :: rest) (byte :: name)
  | literal {byte : UInt8} {rest name : List UInt8} (hstar : byte ≠ starByte)
      (hquestion : byte ≠ questionByte) (hopen : byte ≠ openBracket)
      (hbackslash : byte = backslash → noEscape ∨ rest = [])
      (hrest : SegmentMatches noEscape rest name) :
      SegmentMatches noEscape (byte :: rest) (byte :: name)

/-! ## The relation and the elements -/

/-- The relation on bytes is matching of the elements that the bytes spell. -/
theorem segmentMatches_iff (noEscape : Bool) (segment name : List UInt8) :
    SegmentMatches noEscape segment name ↔ Matches (segmentElements noEscape segment) name := by
  -- Induction on the length; a rule of the relation applies exactly where its element starts.
  induction segment using (measure List.length).wf.induction generalizing name with
  | _ segment ih =>
    cases segment with
    | nil =>
      rw [segmentElements_nil, matches_nil]
      constructor
      · intro h
        cases h
        rfl
      · intro h
        rw [h]
        exact .nil
    | cons first rest =>
      have hrest := fun name => ih rest (Nat.lt_succ_self _) name
      cases segmentStart noEscape first rest with
      | @escaped second after hescape helements =>
        have hafter := fun name => ih after (Nat.lt_succ_of_lt (Nat.lt_succ_self _)) name
        rw [helements, matches_literal]
        constructor
        · intro h
          cases h with
          | escaped _ hmatch => exact ⟨_, rfl, (hafter _).mp hmatch⟩
          | literal _ _ _ hbackslash =>
            rcases hbackslash rfl with h | h
            · exact absurd h hescape
            · cases h
        · rintro ⟨tail, rfl, hmatch⟩
          exact .escaped hescape ((hafter _).mpr hmatch)
      | star helements =>
        rw [helements, matches_star]
        constructor
        · intro h
          cases h with
          | star skipped hmatch => exact ⟨_, List.suffix_append _ _, (hrest _).mp hmatch⟩
          | literal hstar => exact absurd rfl hstar
        · rintro ⟨suffix, ⟨skipped, rfl⟩, hmatch⟩
          exact .star skipped ((hrest _).mpr hmatch)
      | question helements =>
        rw [helements, matches_any]
        constructor
        · intro h
          cases h with
          | any hmatch => exact ⟨_, _, rfl, (hrest _).mp hmatch⟩
          | literal _ hquestion => exact absurd rfl hquestion
        · rintro ⟨byte, tail, rfl, hmatch⟩
          exact .any ((hrest _).mpr hmatch)
      | «open» hnone helements =>
        rw [helements, matches_literal]
        constructor
        · intro h
          cases h with
          | bracket hbyte => cases (hnone _).symm.trans hbyte
          | unclosed _ hmatch => exact ⟨_, rfl, (hrest _).mp hmatch⟩
          | literal _ _ hopen => exact absurd rfl hopen
        · rintro ⟨tail, rfl, hmatch⟩
          exact .unclosed hnone ((hrest _).mpr hmatch)
      | @set rest next negated items hnegated hmatch helements =>
        have hlength := bracketMatch_length (hmatch 0)
        have hnext := fun name => ih next (Nat.lt_succ_of_lt hlength) name
        rw [helements, matches_set]
        constructor
        · intro h
          cases h with
          | bracket hbyte hrest =>
            have hsame := Prod.mk.inj (Option.some.inj (hbyte.symm.trans (hmatch _)))
            rw [hsame.2] at hrest
            exact ⟨_, _, rfl, hsame.1.symm, (hnext _).mp hrest⟩
          | unclosed hopen => cases (hopen 0).symm.trans (hmatch 0)
          | literal _ _ hopen => exact absurd rfl hopen
        · rintro ⟨byte, tail, rfl, hbyte, hrest⟩
          exact .bracket (by rw [hmatch, hbyte]) ((hnext _).mpr hrest)
      | literal hstar hquestion hopen hescape helements =>
        have hbackslash : first = backslash → noEscape ∨ rest = [] := fun hfirst =>
          hescape.resolve_left (not_not_intro hfirst)
        rw [helements, matches_literal]
        constructor
        · intro h
          cases h with
          | star => exact absurd rfl hstar
          | any => exact absurd rfl hquestion
          | bracket => exact absurd rfl hopen
          | unclosed => exact absurd rfl hopen
          | escaped hno =>
            rcases hbackslash rfl with h | h
            · exact absurd h hno
            · cases h
          | literal _ _ _ _ hmatch => exact ⟨_, rfl, (hrest _).mp hmatch⟩
        · rintro ⟨tail, rfl, hmatch⟩
          exact .literal hstar hquestion hopen hbackslash ((hrest _).mpr hmatch)

/-! ## The loops, turn by turn -/

/-- Where a run of `pattern_matches_from` stands: at the head of its outer loop, among the stars
it skips, or at one turn of the scan behind a star. -/
inductive MatchPoint where
  | outer (patternIndex candidateIndex : Nat)
  | stars (patternIndex candidateIndex : Nat)
  | scan (patternIndex scanIndex : Nat)

/-- A byte of the candidate against the pattern at an index where no star stands: the index where
the pattern goes on, or `none` where the byte does not match. -/
def matchByte (noEscape : Bool) (pattern : List UInt8) (i : Nat) (hi : i < pattern.length)
    (byte : UInt8) : Option Nat :=
  let current := pattern[i]
  if current = questionByte then some (i + 1)
  else if current = openBracket then
    match bracketMatch (pattern.drop (i + 1)) byte noEscape with
    | none => if byte ≠ openBracket then none else some (i + 1)
    | some (matched, next) => if ¬matched then none else some (pattern.length - next.length)
  else if current = backslash ∧ ¬noEscape then
    if hescaped : i + 1 < pattern.length then
      if byte ≠ pattern[i + 1] then none else some (i + 2)
    else if byte ≠ backslash then none
    else some (i + 1)
  else if byte ≠ current then none
  else some (i + 1)

/-- `pattern_matches_from` with its indices; `none` where the turns allowed are used up. -/
def matchRun (noEscape : Bool) (pattern candidate : List UInt8) :
    Nat → MatchPoint → Option Bool
  | 0, _ => none
  | fuel + 1, .outer i j =>
    if hi : i < pattern.length then
      if pattern[i] = starByte then matchRun noEscape pattern candidate fuel (.stars i j)
      else if hj : j < candidate.length then
        match matchByte noEscape pattern i hi candidate[j] with
        | none => some false
        | some i' => matchRun noEscape pattern candidate fuel (.outer i' (j + 1))
      else some false
    else some (j = candidate.length)
  | fuel + 1, .stars i j =>
    if hi : i < pattern.length then
      if pattern[i] = starByte then matchRun noEscape pattern candidate fuel (.stars (i + 1) j)
      else matchRun noEscape pattern candidate fuel (.scan i j)
    else some true
  | fuel + 1, .scan i s =>
    if s ≤ candidate.length then
      match matchRun noEscape pattern candidate fuel (.outer i s) with
      | none => none
      | some true => some true
      | some false => matchRun noEscape pattern candidate fuel (.scan i (s + 1))
    else some false

/-- Where the pattern goes on behind a bracket expression. -/
theorem drop_bracketMatch {noEscape matched : Bool} {pattern next : List UInt8} {i : Nat}
    {byte : UInt8} (h : bracketMatch (pattern.drop (i + 1)) byte noEscape = some (matched, next)) :
    next.length < pattern.length - i ∧ pattern.drop (pattern.length - next.length) = next := by
  have hsuffix := bracketMatch_suffix h
  have hlength := hsuffix.2
  rw [List.length_drop] at hlength
  have hall : next <:+ pattern := hsuffix.1.trans (List.drop_suffix (i + 1) pattern)
  exact ⟨by omega, (List.suffix_iff_eq_drop.mp hall).symm⟩

/-- A byte that matches uses up some of the pattern. -/
theorem matchByte_bounds {noEscape : Bool} {pattern : List UInt8} {i i' : Nat}
    {hi : i < pattern.length} {byte : UInt8}
    (h : matchByte noEscape pattern i hi byte = some i') : i < i' ∧ i' ≤ pattern.length := by
  unfold matchByte at h
  dsimp only at h
  by_cases hquestion : pattern[i] = questionByte
  · rw [if_pos hquestion] at h
    cases h
    omega
  rw [if_neg hquestion] at h
  by_cases hopen : pattern[i] = openBracket
  · rw [if_pos hopen] at h
    cases hmatch : bracketMatch (pattern.drop (i + 1)) byte noEscape with
    | none =>
      simp only [hmatch, Option.ite_none_left_eq_some, Option.some.injEq] at h
      omega
    | some result =>
      obtain ⟨matched, next⟩ := result
      have hnext := (drop_bracketMatch hmatch).1
      simp only [hmatch, Option.ite_none_left_eq_some, Option.some.injEq] at h
      omega
  rw [if_neg hopen] at h
  split_ifs at h <;> cases h <;> omega

/-- One turn at a byte of the candidate, where no star stands. -/
theorem patternMatchesFrom_drop {noEscape : Bool} {pattern : List UInt8} {i : Nat}
    (hi : i < pattern.length) (hstar : pattern[i] ≠ starByte) (byte : UInt8)
    (tail : List UInt8) :
    patternMatchesFrom noEscape (pattern.drop i) (byte :: tail) =
      (matchByte noEscape pattern i hi byte).any fun i' =>
        patternMatchesFrom noEscape (pattern.drop i') tail := by
  unfold matchByte
  rw [List.drop_eq_getElem_cons hi, patternMatchesFrom.eq_def]
  dsimp only
  rw [if_neg hstar]
  -- One byte of the name against what stands at `i`, in the order of the source's tests.
  by_cases hquestion : pattern[i] = questionByte
  · rw [if_pos hquestion, if_pos hquestion]
    rfl
  rw [if_neg hquestion, if_neg hquestion]
  by_cases hopen : pattern[i] = openBracket
  · rw [if_pos hopen, if_pos hopen]
    cases hmatch : bracketMatch (pattern.drop (i + 1)) byte noEscape with
    | none =>
      by_cases hbyte : byte = openBracket
      · simp [hbyte]
      · simp [hbyte]
    | some result =>
      obtain ⟨matched, next⟩ := result
      have hnext := (drop_bracketMatch hmatch).2
      cases matched with
      | false => simp
      | true =>
        simp only [Bool.true_and, not_true_eq_false, if_false, Option.any_some]
        rw [hnext]
  rw [if_neg hopen, if_neg hopen]
  by_cases hescape : pattern[i] = backslash ∧ ¬noEscape
  · rw [if_pos hescape, if_pos hescape]
    -- A backslash at the very end of the pattern stands for itself.
    by_cases hlast : i + 1 < pattern.length
    · rw [dif_pos hlast, List.drop_eq_getElem_cons hlast]
      dsimp only
      by_cases hbyte : byte = pattern[i + 1]
      · simp [hbyte]
      · simp [hbyte]
    · have hempty : pattern.drop (i + 1) = [] := List.drop_eq_nil_of_le (by omega)
      rw [dif_neg hlast, hempty]
      dsimp only
      by_cases hbyte : byte = backslash
      · simp [hbyte, hempty]
      · simp [hbyte]
  rw [if_neg hescape, if_neg hescape]
  by_cases hbyte : byte = pattern[i]
  · simp [hbyte]
  · simp [hbyte]

/-- A run from here ends with the answer, in however many turns. -/
def Answers (noEscape : Bool) (pattern candidate : List UInt8) (point : MatchPoint)
    (answer : Bool) : Prop :=
  ∃ turns, ∀ fuel ≥ turns, matchRun noEscape pattern candidate fuel point = some answer

section Runs

variable {noEscape : Bool} {pattern candidate : List UInt8} {point : MatchPoint} {answer : Bool}

/-- A run that ends at once. -/
theorem Answers.done
    (hstep : ∀ fuel, matchRun noEscape pattern candidate (fuel + 1) point = some answer) :
    Answers noEscape pattern candidate point answer := by
  refine ⟨1, fun fuel hfuel => ?_⟩
  cases fuel with
  | zero => omega
  | succ fuel => exact hstep fuel

/-- A run that goes on somewhere else. -/
theorem Answers.step {next : MatchPoint}
    (hstep : ∀ fuel, matchRun noEscape pattern candidate (fuel + 1) point =
      matchRun noEscape pattern candidate fuel next)
    (hnext : Answers noEscape pattern candidate next answer) :
    Answers noEscape pattern candidate point answer := by
  obtain ⟨turns, hturns⟩ := hnext
  refine ⟨turns + 1, fun fuel hfuel => ?_⟩
  cases fuel with
  | zero => omega
  | succ fuel =>
    rw [hstep]
    exact hturns fuel (by omega)

/-- The scan behind a star tries every end of the candidate. -/
theorem answers_scan {i : Nat} {decides : List UInt8 → Bool}
    (hdecides : ∀ s ≤ candidate.length,
      Answers noEscape pattern candidate (.outer i s) (decides (candidate.drop s)))
    (s : Nat) (hs : s ≤ candidate.length) :
    Answers noEscape pattern candidate (.scan i s) ((candidate.drop s).tails.any decides) := by
  induction hleft : candidate.length - s generalizing s with
  | zero =>
    obtain rfl : s = candidate.length := by omega
    obtain ⟨turns, hturns⟩ := hdecides candidate.length (Nat.le_refl _)
    rw [List.drop_length] at hturns ⊢
    refine ⟨turns + 2, fun fuel hfuel => ?_⟩
    obtain ⟨fuel, rfl⟩ : ∃ fuel', fuel = fuel' + 2 := ⟨fuel - 2, by omega⟩
    rw [matchRun, if_pos (Nat.le_refl _), hturns _ (by omega)]
    cases hanswer : decides [] with
    | true => simp [hanswer]
    | false =>
      dsimp only
      rw [matchRun, if_neg (by omega)]
      simp [hanswer]
  | succ left ih =>
    have hlt : s < candidate.length := by omega
    obtain ⟨turns, hturns⟩ := hdecides s hs
    obtain ⟨turns', hturns'⟩ := ih (s + 1) hlt (by omega)
    have htails : (candidate.drop s).tails =
        candidate.drop s :: (candidate.drop (s + 1)).tails := by
      rw [List.drop_eq_getElem_cons hlt, List.tails_cons]
    refine ⟨max turns turns' + 1, fun fuel hfuel => ?_⟩
    obtain ⟨fuel, rfl⟩ : ∃ fuel', fuel = fuel' + 1 := ⟨fuel - 1, by omega⟩
    rw [matchRun, if_pos hs, hturns _ (by omega), htails, List.any_cons]
    cases decides (candidate.drop s) with
    | true => rfl
    | false =>
      dsimp only
      rw [hturns' _ (by omega), Bool.false_or]

/-- Skipping the stars first, the scan is the star case of `pattern_matches_from`. -/
theorem answers_stars {decides : List UInt8 → List UInt8 → Bool} {j : Nat}
    (hj : j ≤ candidate.length) (i : Nat) (hi : i ≤ pattern.length)
    (hdecides : ∀ i' ≥ i, i' < pattern.length → ∀ s ≤ candidate.length,
      Answers noEscape pattern candidate (.outer i' s)
        (decides (pattern.drop i') (candidate.drop s))) :
    Answers noEscape pattern candidate (.stars i j)
      (if (pattern.drop i).dropWhile (· = starByte) = [] then true
        else (candidate.drop j).tails.any
          (decides ((pattern.drop i).dropWhile (· = starByte)))) := by
  induction hleft : pattern.length - i generalizing i with
  | zero =>
    obtain rfl : i = pattern.length := by omega
    rw [List.drop_length, List.dropWhile_nil, if_pos rfl]
    refine .done fun fuel => ?_
    rw [matchRun, dif_neg (Nat.lt_irrefl _)]
  | succ left ih =>
    have hlt : i < pattern.length := by omega
    rw [List.drop_eq_getElem_cons hlt]
    by_cases hstar : pattern[i] = starByte
    · rw [List.dropWhile_cons_of_pos (by simpa using hstar)]
      refine .step (fun fuel => ?_)
        (ih (i + 1) hlt (fun i' hi' => hdecides i' (by omega)) (by omega))
      rw [matchRun, dif_pos hlt, if_pos hstar]
    · rw [List.dropWhile_cons_of_neg (by simpa using hstar), if_neg (List.cons_ne_nil _ _),
        ← List.drop_eq_getElem_cons hlt]
      refine .step (fun fuel => ?_)
        (answers_scan (hdecides i (Nat.le_refl _) hlt) j hj)
      rw [matchRun, dif_pos hlt, if_neg hstar]

end Runs

/-- From every point the loops end, with the answer for what is left of the two strings. -/
theorem answers_outer (noEscape : Bool) (pattern candidate : List UInt8) (i j : Nat)
    (hi : i ≤ pattern.length) (hj : j ≤ candidate.length) :
    Answers noEscape pattern candidate (.outer i j)
      (patternMatchesFrom noEscape (pattern.drop i) (candidate.drop j)) := by
  -- Induction on what is left of the pattern: every turn of the outer loop uses some of it up.
  induction hleft : pattern.length - i using Nat.strongRecOn generalizing i j with
  | ind left ih =>
    by_cases hend : i < pattern.length
    swap
    · rw [List.drop_eq_nil_of_le (by omega), patternMatchesFrom]
      refine .done fun fuel => ?_
      rw [matchRun, dif_neg hend]
      congr 1
      simp only [List.drop_eq_nil_iff, decide_eq_decide]
      omega
    by_cases hstar : pattern[i] = starByte
    · rw [List.drop_eq_getElem_cons hend, patternMatchesFrom.eq_def]
      dsimp only
      rw [if_pos hstar]
      have hstars : Answers noEscape pattern candidate (.stars i j) _ :=
        .step (fun fuel => by rw [matchRun, dif_pos hend, if_pos hstar])
          (answers_stars hj (i + 1) hend fun i' hi' hlt s hs =>
            ih (pattern.length - i') (by omega) i' s (Nat.le_of_lt hlt) hs rfl)
      exact .step (fun fuel => by rw [matchRun, dif_pos hend, if_pos hstar]) hstars
    by_cases hread : j < candidate.length
    · rw [List.drop_eq_getElem_cons hread, patternMatchesFrom_drop hend hstar]
      cases hbyte : matchByte noEscape pattern i hend candidate[j] with
      | none =>
        exact .done fun fuel => by
          rw [matchRun, dif_pos hend, if_neg hstar, dif_pos hread, hbyte]
          rfl
      | some i' =>
        have hbounds := matchByte_bounds hbyte
        refine .step (fun fuel => ?_)
          (ih (pattern.length - i') (by omega) i' (j + 1) hbounds.2 hread rfl)
        rw [matchRun, dif_pos hend, if_neg hstar, dif_pos hread, hbyte]
    · have hempty : candidate.drop j = [] := List.drop_eq_nil_of_le (by omega)
      rw [hempty, List.drop_eq_getElem_cons hend, patternMatchesFrom.eq_def]
      dsimp only
      rw [if_neg hstar]
      exact .done fun fuel => by rw [matchRun, dif_pos hend, if_neg hstar, dif_neg hread]

/-- `pattern_matches` ends on every segment and every name, with the answer whether the name can
be split to match the segment. -/
theorem patternMatches_decides (segmentPattern candidateName : List UInt8) (flags : Flags) :
    (∃ turns, ∀ fuel ≥ turns,
        matchRun (hasFlag flags GLOB_NOESCAPE) segmentPattern candidateName fuel (.outer 0 0) =
          some (patternMatches segmentPattern candidateName flags)) ∧
      (patternMatches segmentPattern candidateName flags = true ↔
        SegmentMatches (hasFlag flags GLOB_NOESCAPE) segmentPattern candidateName) := by
  constructor
  · exact answers_outer _ segmentPattern candidateName 0 0 (Nat.zero_le _) (Nat.zero_le _)
  · rw [segmentMatches_iff]
    exact patternMatchesFrom_iff _ segmentPattern candidateName

end Rlibc.Glob
