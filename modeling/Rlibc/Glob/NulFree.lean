import Rlibc.Glob.Search

/-!
# Results can be C strings

The texts of a search come from the pattern, from directories and from the separator, so a
pattern without NUL has no result with one, whoever asks for the search to end.  A search that is
ended has one return code.
-/

namespace Rlibc.Glob

theorem mem_of_mem_unescapeLoop {byte : UInt8} {segment : List UInt8}
    (h : byte ∈ unescapeLoop segment) : byte ∈ segment := by
  induction segment using unescapeLoop.induct with
  | case1 => exact h
  | case2 last => exact h
  | case3 second rest ih =>
    rw [unescapeLoop, if_pos rfl] at h
    rcases List.mem_cons.mp h with rfl | h
    · exact List.mem_cons_of_mem _ List.mem_cons_self
    · exact List.mem_cons_of_mem _ (List.mem_cons_of_mem _ (ih h))
  | case4 first second rest hfirst ih =>
    rw [unescapeLoop, if_neg hfirst] at h
    rcases List.mem_cons.mp h with rfl | h
    · exact List.mem_cons_self
    · exact List.mem_cons_of_mem _ (ih h)

theorem mem_of_mem_unescapeSegment {noEscape : Bool} {byte : UInt8} {segment : List UInt8}
    (h : byte ∈ unescapeSegment noEscape segment) : byte ∈ segment := by
  unfold unescapeSegment at h
  split at h
  · exact h
  · exact mem_of_mem_unescapeLoop h

theorem mem_of_mem_normalizeEscapedSeparators {byte : UInt8} {pattern : List UInt8}
    (h : byte ∈ normalizeEscapedSeparators pattern) : byte ∈ pattern := by
  induction pattern using normalizeEscapedSeparators.induct with
  | case1 => exact h
  | case2 last => exact h
  | case3 first second rest hescaped ih =>
    rw [normalizeEscapedSeparators, if_pos hescaped] at h
    rcases List.mem_cons.mp h with rfl | h
    · rw [hescaped.2]
      exact List.mem_cons_of_mem _ List.mem_cons_self
    · exact List.mem_cons_of_mem _ (List.mem_cons_of_mem _ (ih h))
  | case4 first second rest hescaped ih =>
    rw [normalizeEscapedSeparators, if_neg hescaped] at h
    rcases List.mem_cons.mp h with rfl | h
    · exact List.mem_cons_self
    · exact List.mem_cons_of_mem _ (ih h)

theorem mem_of_mem_normalizedPattern {noEscape : Bool} {byte : UInt8} {pattern : List UInt8}
    (h : byte ∈ normalizedPattern pattern noEscape) : byte ∈ pattern := by
  unfold normalizedPattern at h
  split at h
  · exact mem_of_mem_normalizeEscapedSeparators h
  · exact h

theorem trimTrailingSeparators_suffix (noEscape : Bool) (reversed : List UInt8) :
    trimTrailingSeparators noEscape reversed <:+ reversed := by
  induction reversed with
  | nil => exact List.suffix_refl _
  | cons last before ih =>
    unfold trimTrailingSeparators
    split
    · exact ih.trans (List.suffix_cons last before)
    · exact List.suffix_refl _

theorem mem_of_mem_nocheckFallbackPattern {noEscape : Bool} {byte : UInt8} {pattern : List UInt8}
    (h : byte ∈ nocheckFallbackPattern pattern noEscape) : byte ∈ pattern := by
  have htrimmed : ∀ b, b ∈ (if (trimTrailingSeparators noEscape pattern.reverse).reverse = [] then
      pattern else (trimTrailingSeparators noEscape pattern.reverse).reverse) → b ∈ pattern := by
    intro b hb
    split at hb
    · exact hb
    · have hsuffix := trimTrailingSeparators_suffix noEscape pattern.reverse
      exact List.mem_reverse.mp (hsuffix.subset (List.mem_reverse.mp hb))
  unfold nocheckFallbackPattern at h
  dsimp only at h
  generalize (if (trimTrailingSeparators noEscape pattern.reverse).reverse = [] then
    pattern else (trimTrailingSeparators noEscape pattern.reverse).reverse) = trimmed at h htrimmed
  split at h
  · exact htrimmed byte (List.mem_of_mem_tail h)
  · exact htrimmed byte h

/-! ## The search -/

/-- Texts without NUL. -/
def NulFree (candidates : List CandidatePath) : Prop :=
  ∀ candidate ∈ candidates, 0 ∉ candidate.resultPath

theorem joinResultPath_nulFree {base : List UInt8} {name : Name} (hbase : 0 ∉ base)
    (hname : 0 ∉ name) (separatorCount : Nat) : 0 ∉ joinResultPath base separatorCount name := by
  unfold joinResultPath
  rw [List.mem_append, List.mem_append]
  rintro ((h | h) | h)
  · exact hbase h
  · exact absurd (List.eq_of_mem_replicate h) (by decide)
  · exact hname h

theorem nextCandidates_nulFree {fs : FileSystem} {flags : Flags} {errfunc : GlobErrorFn}
    {separatorCount : Nat} {segment : List UInt8} {candidate : CandidatePath}
    {next : List CandidatePath} (hsegment : 0 ∉ segment) (hcandidate : 0 ∉ candidate.resultPath)
    (h : nextCandidates fs flags errfunc separatorCount segment candidate = .ok next) :
    NulFree next := by
  unfold nextCandidates at h
  split at h
  · split at h
    · cases hproc : processDirectoryError candidate _ flags errfunc with
      | error failure =>
        rw [hproc] at h
        cases h
      | ok _ =>
        rw [hproc] at h
        cases h
        exact fun _ hmem => absurd hmem List.not_mem_nil
    · rename_i entries hread
      cases h
      intro result hresult
      obtain ⟨name, hname, rfl⟩ := List.mem_map.mp hresult
      have hentry := (List.mem_filter.mp hname).1
      exact joinResultPath_nulFree hcandidate (fs.valid _ _ hread name hentry).2.2 separatorCount
  · dsimp only at h
    split at h
    · cases h
      intro result hresult
      rw [List.mem_singleton.mp hresult]
      exact joinResultPath_nulFree hcandidate
        (fun hnul => hsegment (mem_of_mem_unescapeSegment hnul)) separatorCount
    · cases h
      exact fun _ hmem => absurd hmem List.not_mem_nil

/-- From `x >>= f = .ok r`, what `x` returned. -/
theorem bind_eq_ok {α β : Type} {x : Except Failure α} {f : α → Except Failure β} {r : β}
    (h : (x >>= f) = .ok r) : ∃ a, x = .ok a ∧ f a = .ok r := by
  cases x with
  | error failure => cases h
  | ok a => exact ⟨a, rfl, h⟩

theorem expandCandidates_nulFree {fs : FileSystem} {flags : Flags} {errfunc : GlobErrorFn}
    {separatorCount : Nat} {segment : List UInt8} (hsegment : 0 ∉ segment)
    {candidates next : List CandidatePath} (hcandidates : NulFree candidates)
    (h : expandCandidates fs flags errfunc separatorCount segment candidates = .ok next) :
    NulFree next := by
  induction candidates generalizing next with
  | nil =>
    cases h
    exact hcandidates
  | cons candidate candidates ih =>
    obtain ⟨first, hfirst, h⟩ := bind_eq_ok h
    obtain ⟨rest, hrest, h⟩ := bind_eq_ok h
    cases h
    intro result hresult
    rcases List.mem_append.mp hresult with hmem | hmem
    · exact nextCandidates_nulFree hsegment (hcandidates candidate List.mem_cons_self) hfirst
        result hmem
    · exact ih (fun c hc => hcandidates c (List.mem_cons_of_mem _ hc)) hrest result hmem

theorem expandSegments_nulFree {fs : FileSystem} {flags : Flags} {errfunc : GlobErrorFn}
    {segments : List (Nat × List UInt8)} (hsegments : ∀ piece ∈ segments, 0 ∉ piece.2)
    {candidates found : List CandidatePath} (hcandidates : NulFree candidates)
    (h : expandSegments fs flags errfunc segments candidates = .ok found) : NulFree found := by
  induction segments generalizing candidates with
  | nil =>
    cases h
    exact hcandidates
  | cons piece segments ih =>
    obtain ⟨next, hnext, h⟩ := bind_eq_ok h
    split at h
    · cases h
      exact fun _ hmem => absurd hmem List.not_mem_nil
    · exact ih (fun p hp => hsegments p (List.mem_cons_of_mem _ hp))
        (expandCandidates_nulFree (hsegments piece List.mem_cons_self) hcandidates hnext) h

theorem mem_separatorCounts {piece : Nat × List UInt8} {pieces : List (Nat × List UInt8)}
    (h : piece ∈ separatorCounts pieces) : ∃ count, (count, piece.2) ∈ pieces := by
  cases pieces with
  | nil => exact absurd h List.not_mem_nil
  | cons first pieces =>
    rcases List.mem_cons.mp h with rfl | h
    · exact ⟨first.1, List.mem_cons_self⟩
    · exact ⟨piece.1, List.mem_cons_of_mem _ h⟩

theorem collectMatches_nulFree {fs : FileSystem} {pattern : List UInt8} {flags : Flags}
    {errfunc : GlobErrorFn} {found : List (List UInt8)} (hpattern : 0 ∉ pattern)
    (h : collectMatches fs pattern flags errfunc = .ok found) : ∀ path ∈ found, 0 ∉ path := by
  -- The segments are cut out of the pattern, and the root is made of slashes.
  have hpieces : ∀ piece ∈ separatorCounts (parseSegmentsWithSeparators
      (normalizedPattern pattern (hasFlag flags GLOB_NOESCAPE))).2.pieces, 0 ∉ piece.2 := by
    intro piece hpiece hnul
    obtain ⟨count, hmem⟩ := mem_separatorCounts hpiece
    have hcut := Runs.mem_of_mem_cut hmem hnul
    exact hpattern (mem_of_mem_normalizedPattern ((List.dropWhile_suffix _).subset hcut))
  have hroot : ∀ leading segmentCount, NulFree [rootCandidate leading segmentCount] := by
    intro leading segmentCount candidate hcandidate
    rw [List.mem_singleton.mp hcandidate, rootCandidate_eq]
    unfold candidateOf
    rw [spell_nil, List.append_nil]
    exact rootText_not_nul leading segmentCount
  unfold collectMatches at h
  dsimp only at h
  split at h
  · cases h
    intro path hpath
    rw [List.mem_singleton.mp hpath]
    unfold rootOnlyResultPath
    split
    · decide
    · decide
  · split at h
    · cases h
      exact fun _ hmem => absurd hmem List.not_mem_nil
    -- The search only adds names of directory entries and literal segments to the root.
    · obtain ⟨candidates, hcandidates, h⟩ := bind_eq_ok h
      have hfree := expandSegments_nulFree hpieces (hroot _ _) hcandidates
      split at h
      · cases h
        intro path hpath
        obtain ⟨candidate, hmem, rfl⟩ := List.mem_map.mp hpath
        rw [List.mem_append]
        rintro (hnul | hnul)
        · exact hfree candidate (List.mem_filter.mp hmem).1 hnul
        · exact absurd (List.mem_singleton.mp hnul) (by decide)
      · cases h
        intro path hpath
        obtain ⟨candidate, hmem, rfl⟩ := List.mem_map.mp hpath
        exact hfree candidate hmem

/-- What `glob` is about to store. -/
theorem matchedPaths_nulFree {fs : FileSystem} {pattern : List UInt8} {flags : Flags}
    {errfunc : GlobErrorFn} {matched : List (List UInt8)} (hpattern : 0 ∉ pattern)
    (h : matchedPaths fs pattern flags errfunc = .ok matched) : ∀ path ∈ matched, 0 ∉ path := by
  obtain ⟨found, hfound, h⟩ := bind_eq_ok h
  have hfree := collectMatches_nulFree hpattern hfound
  split at h
  · cases h
  · have hkept : ∀ path ∈ (if found = [] then
        [nocheckFallbackPattern pattern (hasFlag flags GLOB_NOESCAPE)] else found), 0 ∉ path := by
      intro path hpath hnul
      split at hpath
      · rw [List.mem_singleton.mp hpath] at hnul
        exact hpattern (mem_of_mem_nocheckFallbackPattern hnul)
      · exact hfree path hpath hnul
    cases h
    intro path hpath
    split at hpath
    · exact hkept path hpath
    · exact hkept path (List.mem_mergeSort.mp hpath)

/-! ## Failures -/

theorem bind_eq_error {α β : Type} {x : Except Failure α} {f : α → Except Failure β}
    {failure : Failure} (h : (x >>= f) = .error failure) :
    x = .error failure ∨ ∃ a, x = .ok a ∧ f a = .error failure := by
  cases x with
  | error failure' =>
    cases h
    exact Or.inl rfl
  | ok a => exact Or.inr ⟨a, rfl, h⟩

theorem callErrfunc_error {candidate : CandidatePath} {errnoValue : Int} {errfunc : GlobErrorFn}
    {failure : Failure} (h : callErrfunc candidate errnoValue errfunc = .error failure) :
    failure.code = GLOB_ABORTED := by
  unfold callErrfunc at h
  split at h
  · cases h
  · split at h
    · cases h
      rfl
    · split at h
      · cases h
        rfl
      · cases h

theorem processDirectoryError_error {candidate : CandidatePath} {errnoValue : Int} {flags : Flags}
    {errfunc : GlobErrorFn} {failure : Failure}
    (h : processDirectoryError candidate errnoValue flags errfunc = .error failure) :
    failure.code = GLOB_ABORTED := by
  rcases bind_eq_error h with hcall | ⟨_, -, hflag⟩
  · exact callErrfunc_error hcall
  · split at hflag
    · cases hflag
      rfl
    · cases hflag

theorem nextCandidates_error {fs : FileSystem} {flags : Flags} {errfunc : GlobErrorFn}
    {separatorCount : Nat} {segment : List UInt8} {candidate : CandidatePath} {failure : Failure}
    (h : nextCandidates fs flags errfunc separatorCount segment candidate = .error failure) :
    failure.code = GLOB_ABORTED := by
  unfold nextCandidates at h
  split at h
  · split at h
    · cases hproc : processDirectoryError candidate _ flags errfunc with
      | error failure' =>
        rw [hproc] at h
        cases h
        exact processDirectoryError_error hproc
      | ok _ =>
        rw [hproc] at h
        cases h
    · cases h
  · dsimp only at h
    split at h
    · cases h
    · cases h

theorem expandCandidates_error {fs : FileSystem} {flags : Flags} {errfunc : GlobErrorFn}
    {separatorCount : Nat} {segment : List UInt8} {candidates : List CandidatePath}
    {failure : Failure}
    (h : expandCandidates fs flags errfunc separatorCount segment candidates = .error failure) :
    failure.code = GLOB_ABORTED := by
  induction candidates with
  | nil => cases h
  | cons candidate candidates ih =>
    rcases bind_eq_error h with hfirst | ⟨_, -, h⟩
    · exact nextCandidates_error hfirst
    · rcases bind_eq_error h with hrest | ⟨_, -, h⟩
      · exact ih hrest
      · cases h

theorem expandSegments_error {fs : FileSystem} {flags : Flags} {errfunc : GlobErrorFn}
    {segments : List (Nat × List UInt8)} {candidates : List CandidatePath} {failure : Failure}
    (h : expandSegments fs flags errfunc segments candidates = .error failure) :
    failure.code = GLOB_ABORTED := by
  induction segments generalizing candidates with
  | nil => cases h
  | cons piece segments ih =>
    rcases bind_eq_error h with hfirst | ⟨_, -, h⟩
    · exact expandCandidates_error hfirst
    · split at h
      · cases h
      · exact ih h

theorem collectMatches_error {fs : FileSystem} {pattern : List UInt8} {flags : Flags}
    {errfunc : GlobErrorFn} {failure : Failure}
    (h : collectMatches fs pattern flags errfunc = .error failure) :
    failure.code = GLOB_ABORTED := by
  unfold collectMatches at h
  dsimp only at h
  split at h
  · cases h
  · split at h
    · cases h
    · rcases bind_eq_error h with hsearch | ⟨_, -, h⟩
      · exact expandSegments_error hsearch
      · split at h
        · cases h
        · cases h

/-- A call that finds nothing to store does not return zero. -/
theorem matchedPaths_error {fs : FileSystem} {pattern : List UInt8} {flags : Flags}
    {errfunc : GlobErrorFn} {failure : Failure}
    (h : matchedPaths fs pattern flags errfunc = .error failure) : failure.code ≠ 0 := by
  rcases bind_eq_error h with hsearch | ⟨_, -, h⟩
  · rw [collectMatches_error hsearch]
    decide
  · split at h
    · cases h
      decide
    · cases h

end Rlibc.Glob
