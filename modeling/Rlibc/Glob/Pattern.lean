import Mathlib.Data.List.Basic
import Rlibc.Machine

/-!
# Patterns of `glob`

The functions that read a pattern byte by byte.  An index into a pattern is what is left of the
pattern from there, so that a position after a bracket expression is a shorter list.
-/

namespace Rlibc.Glob

/-- A `c_int` of flags. -/
abbrev Flags := BitVec 32

def GLOB_ERR : Flags := 0x0001
def GLOB_NOSORT : Flags := 0x0004
def GLOB_DOOFFS : Flags := 0x0008
def GLOB_NOCHECK : Flags := 0x0010
def GLOB_APPEND : Flags := 0x0020
def GLOB_NOESCAPE : Flags := 0x0040

/-- `flags & flag != 0`. -/
def hasFlag (flags flag : Flags) : Bool := flags &&& flag != 0

abbrev PATH_SEPARATOR : UInt8 := 47
abbrev backslash : UInt8 := 92
abbrev dot : UInt8 := 46
abbrev starByte : UInt8 := 42
abbrev questionByte : UInt8 := 63
abbrev openBracket : UInt8 := 91
abbrev closeBracket : UInt8 := 93

/-! ## Bracket expressions -/

/-- An item of a bracket expression. -/
inductive BracketItem where
  | literal (byte : UInt8)
  | range (first last : UInt8)
deriving DecidableEq

def BracketItem.accepts : BracketItem → UInt8 → Bool
  | literal byte, candidate => candidate = byte
  | range first last, candidate => first ≤ last ∧ first ≤ candidate ∧ candidate ≤ last

/-- The end of a range: its byte, and what follows it. -/
def rangeEnd (noEscape : Bool) (last : UInt8) (rest : List UInt8) : UInt8 × List UInt8 :=
  match rest with
  | [] => (last, [])
  | escaped :: after =>
    if last = backslash ∧ ¬noEscape then (escaped, after) else (last, escaped :: after)

/-- One turn of the loop over the items: the item at `current`, and what follows it. -/
def bracketItem (noEscape : Bool) (current : UInt8) (rest : List UInt8) :
    BracketItem × List UInt8 :=
  match rest with
  | [] => (.literal current, [])
  | next :: after =>
    if current = backslash ∧ ¬noEscape then (.literal next, after)
    else
      match after with
      | [] => (.literal current, rest)
      | last :: after =>
        if next = 45 ∧ last ≠ closeBracket then
          (.range current (rangeEnd noEscape last after).1, (rangeEnd noEscape last after).2)
        else (.literal current, rest)

theorem rangeEnd_suffix (noEscape : Bool) (last : UInt8) (rest : List UInt8) :
    (rangeEnd noEscape last rest).2 <:+ rest := by
  unfold rangeEnd
  split
  · exact List.suffix_refl _
  · rename_i escaped after
    split
    · exact List.suffix_cons escaped after
    · exact List.suffix_refl _

theorem bracketItem_suffix (noEscape : Bool) (current : UInt8) (rest : List UInt8) :
    (bracketItem noEscape current rest).2 <:+ rest := by
  unfold bracketItem
  split
  · exact List.suffix_refl _
  · rename_i next after
    split
    · exact List.suffix_cons next after
    · split
      · exact List.suffix_refl _
      · rename_i last after
        split
        · exact (rangeEnd_suffix noEscape last after).trans (List.suffix_append [next, last] after)
        · exact List.suffix_refl _

theorem bracketItem_length (noEscape : Bool) (current : UInt8) (rest : List UInt8) :
    (bracketItem noEscape current rest).2.length ≤ rest.length :=
  (bracketItem_suffix noEscape current rest).length_le

/-- The loop over the items, up to the closing bracket. -/
def bracketItems (candidate : UInt8) (noEscape : Bool) :
    List UInt8 → Bool → Bool → Option (Bool × List UInt8)
  | [], _, _ => none
  | current :: rest, matched, hasAnyItem =>
    if current = closeBracket ∧ hasAnyItem then some (matched, rest)
    else
      bracketItems candidate noEscape (bracketItem noEscape current rest).2
        (matched || (bracketItem noEscape current rest).1.accepts candidate) true
termination_by pattern => pattern.length
decreasing_by exact Nat.lt_succ_of_le (bracketItem_length noEscape current rest)

/-- `bracket_match`, for the pattern after the opening bracket. -/
def bracketMatch (pattern : List UInt8) (candidate : UInt8) (noEscape : Bool) :
    Option (Bool × List UInt8) :=
  match pattern with
  | [] => none
  | first :: rest =>
    let invert := first = 33 ∨ first = 94
    let items := if invert then rest else first :: rest
    let closes := items.head? = some closeBracket
    let result :=
      if closes then bracketItems candidate noEscape items.tail (candidate = closeBracket) true
      else bracketItems candidate noEscape items false false
    result.map fun r => (if invert then !r.1 else r.1, r.2)

theorem bracketItems_suffix {candidate : UInt8} {noEscape matched hasAnyItem final : Bool}
    {pattern next : List UInt8}
    (h : bracketItems candidate noEscape pattern matched hasAnyItem = some (final, next)) :
    ∃ first rest, pattern = first :: rest ∧ next <:+ rest := by
  induction pattern using (measure List.length).wf.induction generalizing matched hasAnyItem with
  | _ pattern ih =>
    cases pattern with
    | nil =>
      unfold bracketItems at h
      cases h
    | cons current rest =>
      have hitem := bracketItem_suffix noEscape current rest
      refine ⟨current, rest, rfl, ?_⟩
      unfold bracketItems at h
      split at h
      · cases h
        exact List.suffix_refl _
      · obtain ⟨first, after, hafter, hsuffix⟩ := ih _ (Nat.lt_succ_of_le hitem.length_le) h
        rw [hafter] at hitem
        exact (hsuffix.trans (List.suffix_cons first after)).trans hitem

/-- What follows a bracket expression is a proper end of the pattern. -/
theorem bracketMatch_suffix {pattern next : List UInt8} {candidate : UInt8}
    {noEscape matched : Bool} (h : bracketMatch pattern candidate noEscape = some (matched, next)) :
    next <:+ pattern ∧ next.length < pattern.length := by
  unfold bracketMatch at h
  split at h
  · cases h
  · rename_i first rest
    dsimp only at h
    obtain ⟨⟨final, next'⟩, hitems, hresult⟩ := Option.map_eq_some_iff.mp h
    cases hresult
    change next' <:+ first :: rest ∧ next'.length < (first :: rest).length
    have hbody : (if first = 33 ∨ first = 94 then rest else first :: rest) <:+ first :: rest := by
      split
      · exact List.suffix_cons first rest
      · exact List.suffix_refl _
    generalize (if first = 33 ∨ first = 94 then rest else first :: rest) = items at hitems hbody
    have hstrict : ∀ {matched hasAnyItem : Bool} {tail : List UInt8}, tail <:+ items →
        bracketItems candidate noEscape tail matched hasAnyItem = some (final, next') →
        next' <:+ first :: rest ∧ next'.length < (first :: rest).length := by
      intro matched hasAnyItem tail htail hloop
      obtain ⟨head, after, rfl, hsuffix⟩ := bracketItems_suffix hloop
      have hall := htail.trans hbody
      exact ⟨(hsuffix.trans (List.suffix_cons head after)).trans hall,
        Nat.lt_of_lt_of_le (Nat.lt_succ_of_le hsuffix.length_le) hall.length_le⟩
    split at hitems
    · exact hstrict (List.tail_suffix items) hitems
    · exact hstrict (List.suffix_refl items) hitems

theorem bracketMatch_length {pattern next : List UInt8} {candidate : UInt8}
    {noEscape matched : Bool} (h : bracketMatch pattern candidate noEscape = some (matched, next)) :
    next.length < pattern.length :=
  (bracketMatch_suffix h).2

/-! ## Segments -/

/-- `pattern_matches_from`. -/
def patternMatchesFrom (noEscape : Bool) : List UInt8 → List UInt8 → Bool
  | [], candidate => candidate = []
  | current :: rest, candidate =>
    if current = starByte then
      if rest.dropWhile (· = starByte) = [] then true
      else candidate.tails.any (patternMatchesFrom noEscape (rest.dropWhile (· = starByte)))
    else
      match candidate with
      | [] => false
      | byte :: candidate =>
        if current = questionByte then patternMatchesFrom noEscape rest candidate
        else if current = openBracket then
          match _h : bracketMatch rest byte noEscape with
          | none => byte = openBracket && patternMatchesFrom noEscape rest candidate
          | some (matched, next) => matched && patternMatchesFrom noEscape next candidate
        else if current = backslash ∧ ¬noEscape then
          match rest with
          | [] => byte = backslash && patternMatchesFrom noEscape [] candidate
          | escaped :: rest => byte = escaped && patternMatchesFrom noEscape rest candidate
        else byte = current && patternMatchesFrom noEscape rest candidate
termination_by pattern => pattern.length
decreasing_by
  · exact Nat.lt_succ_of_le (List.dropWhile_suffix _).length_le
  · exact Nat.lt_succ_self _
  · exact Nat.lt_succ_self _
  · exact Nat.lt_succ_of_lt (bracketMatch_length _h)
  · exact Nat.lt_succ_self _
  · simp only [List.length_cons]
    omega
  · exact Nat.lt_succ_self _

/-- `pattern_matches`. -/
def patternMatches (segmentPattern candidateName : List UInt8) (flags : Flags) : Bool :=
  patternMatchesFrom (hasFlag flags GLOB_NOESCAPE) segmentPattern candidateName

/-- `segment_has_pattern_meta`. -/
def segmentHasPatternMeta (noEscape : Bool) : List UInt8 → Bool
  | [] => false
  | current :: rest =>
    if current = backslash ∧ ¬noEscape ∧ rest ≠ [] then segmentHasPatternMeta noEscape rest.tail
    else if current = starByte ∨ current = questionByte then true
    else if current = openBracket ∧ (bracketMatch rest dot noEscape).isSome then true
    else segmentHasPatternMeta noEscape rest
termination_by segment => segment.length
decreasing_by
  · simp only [List.length_tail, List.length_cons]
    omega
  · exact Nat.lt_succ_self _

/-- `should_match_hidden_name`. -/
def shouldMatchHiddenName (noEscape : Bool) (segmentPattern : List UInt8) : Bool :=
  match segmentPattern with
  | [] => false
  | first :: rest =>
    if first = dot then true
    else if first = openBracket ∧ rest.head? ≠ some 33 ∧ rest.head? ≠ some 94 ∧
        (bracketMatch rest dot noEscape).any (·.1) then true
    else if noEscape then false
    else first = backslash ∧ rest.head? = some dot

/-- The loop of `unescape_segment`. -/
def unescapeLoop : List UInt8 → List UInt8
  | [] => []
  | [last] => [last]
  | first :: second :: rest =>
    if first = backslash then second :: unescapeLoop rest else first :: unescapeLoop (second :: rest)

/-- `unescape_segment`. -/
def unescapeSegment (noEscape : Bool) (segmentPattern : List UInt8) : List UInt8 :=
  if noEscape then segmentPattern else unescapeLoop segmentPattern

/-! ## Separators -/

/-- `pattern.windows(2).any(|window| window == b"\\/")`. -/
def hasEscapedSeparator : List UInt8 → Bool
  | first :: second :: rest =>
    (first = backslash ∧ second = PATH_SEPARATOR) || hasEscapedSeparator (second :: rest)
  | _ => false

/-- `normalize_escaped_separators`. -/
def normalizeEscapedSeparators : List UInt8 → List UInt8
  | [] => []
  | [last] => [last]
  | first :: second :: rest =>
    if first = backslash ∧ second = PATH_SEPARATOR then
      PATH_SEPARATOR :: normalizeEscapedSeparators rest
    else first :: normalizeEscapedSeparators (second :: rest)

/-- `found_escaped_separator` of `leading_separators_include_escaped`. -/
def findEscapedSeparator : List UInt8 → Bool → Bool
  | [], found => found
  | [_], found => found
  | first :: second :: rest, found =>
    if first = PATH_SEPARATOR then findEscapedSeparator (second :: rest) found
    else if first = backslash ∧ second = PATH_SEPARATOR then findEscapedSeparator rest true
    else found

/-- `leading_separators_include_escaped`. -/
def leadingSeparatorsIncludeEscaped (pattern : List UInt8) (noEscape : Bool) : Bool :=
  if noEscape then false else findEscapedSeparator pattern false

/-- `root_only_result_path`. -/
def rootOnlyResultPath (leadingSeparators : Nat) (leadingHasEscapedSeparator : Bool) :
    List UInt8 :=
  if leadingSeparators ≥ 3 ∨ (leadingSeparators = 2 ∧ leadingHasEscapedSeparator) then
    [PATH_SEPARATOR, PATH_SEPARATOR]
  else [PATH_SEPARATOR]

/-- How many backslashes the reversed text starts with. -/
def backslashCount (reversed : List UInt8) : Nat := (reversed.takeWhile (· = backslash)).length

/-- `separator_is_escaped`, for a separator with the reversed text before it. -/
def separatorIsEscaped (before : List UInt8) (noEscape : Bool) : Bool :=
  if noEscape ∨ before = [] then false else backslashCount before % 2 = 1

/-- The trailing loop of `nocheck_fallback_pattern`, on the reversed pattern. -/
def trimTrailingSeparators (noEscape : Bool) : List UInt8 → List UInt8
  | [] => []
  | last :: before =>
    if last = PATH_SEPARATOR ∧ ¬separatorIsEscaped before noEscape then
      trimTrailingSeparators noEscape before
    else last :: before

/-- `nocheck_fallback_pattern`. -/
def nocheckFallbackPattern (pattern : List UInt8) (noEscape : Bool) : List UInt8 :=
  let kept := (trimTrailingSeparators noEscape pattern.reverse).reverse
  let trimmed := if kept = [] then pattern else kept
  if [PATH_SEPARATOR, PATH_SEPARATOR].isPrefixOf trimmed ∧ trimmed.length > 2 ∧
      PATH_SEPARATOR ∉ trimmed.drop 2 then trimmed.tail
  else trimmed

end Rlibc.Glob
