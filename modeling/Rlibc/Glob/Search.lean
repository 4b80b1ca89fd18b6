import Mathlib.Data.List.Nodup
import Rlibc.Glob.Collect

/-!
# What the search finds

A path is reached when each of its names fits the segment at its place.  The search keeps the
list of the paths reached so far, each of them once.
-/

namespace Rlibc.Glob

/-- A name at a path fits a segment: a segment of literals must exist there, any other one is
matched against the entries of the directory. -/
inductive Enters (fs : FileSystem) (path : FsPath) (segment : List Element) : Name → Prop
  | literal (hplain : segment.any Element.isMeta = false)
      (hexists : fs.literalPathExists (path.join (literalName segment))) :
      Enters fs path segment (literalName segment)
  | entry {entries : List Name} {name : Name} (hmeta : segment.any Element.isMeta = true)
      (hread : fs.readDirectoryNames path = .ok entries) (hmem : name ∈ entries)
      (hhidden : name.head? = some dot → matchesHidden segment = true)
      (hmatch : Matches segment name) : Enters fs path segment name

/-- The names of a path fit the segments in their order. -/
inductive Reached (fs : FileSystem) (absolute : Bool) : List (List Element) → List Name → Prop
  | start : Reached fs absolute [] []
  | next {segments : List (List Element)} {names : List Name} {segment : List Element}
      {name : Name} (hpath : Reached fs absolute segments names)
      (henters : Enters fs ⟨absolute, names⟩ segment name) :
      Reached fs absolute (segments ++ [segment]) (names ++ [name])

/-- Names with the separators before them. -/
def spell : List Nat → List Name → List UInt8
  | count :: counts, name :: names =>
    List.replicate count PATH_SEPARATOR ++ name ++ spell counts names
  | _, _ => []

/-- The text a result begins with. -/
def rootText (leadingSeparators segmentCount : Nat) : List UInt8 :=
  List.replicate (if leadingSeparators = 2 ∧ segmentCount = 1 then 1 else leadingSeparators)
    PATH_SEPARATOR

/-- The text of a path: the separators between names are those between the segments. -/
def pathText (leadingSeparators : Nat) (counts : List Nat) (names : List Name) : List UInt8 :=
  rootText leadingSeparators counts.length ++ spell (0 :: counts.tail) names

/-- What a pattern asks for. -/
inductive Expected (fs : FileSystem) (noEscape : Bool) (pattern : List UInt8) : List UInt8 → Prop
  | root (hleading : 0 < (patternSegments noEscape pattern).1)
      (hnone : (patternSegments noEscape pattern).2.pieces = []) :
      Expected fs noEscape pattern (rootOnlyResultPath (patternSegments noEscape pattern).1
        (((tokens noEscape pattern).takeWhile Token.isSeparator).any Token.escaped))
  | path {names : List Name} (hsome : (patternSegments noEscape pattern).2.pieces ≠ [])
      (hreached : Reached fs (0 < (patternSegments noEscape pattern).1)
        ((patternSegments noEscape pattern).2.pieces.map fun piece => elements piece.2) names)
      (hnotrailing : (patternSegments noEscape pattern).2.trailing = 0) :
      Expected fs noEscape pattern (pathText (patternSegments noEscape pattern).1
        ((patternSegments noEscape pattern).2.pieces.map Prod.fst) names)
  | directory {names : List Name} (hsome : (patternSegments noEscape pattern).2.pieces ≠ [])
      (hreached : Reached fs (0 < (patternSegments noEscape pattern).1)
        ((patternSegments noEscape pattern).2.pieces.map fun piece => elements piece.2) names)
      (htrailing : 0 < (patternSegments noEscape pattern).2.trailing)
      (hdir : fs.isDir ⟨0 < (patternSegments noEscape pattern).1, names⟩) :
      Expected fs noEscape pattern (pathText (patternSegments noEscape pattern).1
        ((patternSegments noEscape pattern).2.pieces.map Prod.fst) names ++ [PATH_SEPARATOR])

/-- No one asks for the search to end: `GLOB_ERR` is not set and the callback returns zero. -/
def NoAbort (flags : Flags) (errfunc : GlobErrorFn) : Prop :=
  hasFlag flags GLOB_ERR = false ∧
    ∀ callback, errfunc = some callback → ∀ path errnoValue, callback path errnoValue = 0

/-! ## Names -/

/-- The bytes of the name a segment spells can stand in a file name. -/
def PlainSegment (segment : List Element) : Prop :=
  ∀ byte ∈ literalName segment, byte ≠ 0 ∧ byte ≠ PATH_SEPARATOR

theorem Enters.valid {fs : FileSystem} {path : FsPath} {segment : List Element} {name : Name}
    (h : Enters fs path segment name) (hsegment : PlainSegment segment) :
    ∀ byte ∈ name, byte ≠ 0 ∧ byte ≠ PATH_SEPARATOR := by
  cases h with
  | literal hplain hexists => exact hsegment
  | entry hmeta hread hmem hhidden hmatch =>
    intro byte hbyte
    obtain ⟨-, hslash, hnul⟩ := fs.valid _ _ hread name hmem
    exact ⟨fun h => hnul (h ▸ hbyte), fun h => hslash (h ▸ hbyte)⟩

theorem Reached.length {fs : FileSystem} {absolute : Bool} {segments : List (List Element)}
    {names : List Name} (h : Reached fs absolute segments names) :
    names.length = segments.length := by
  induction h with
  | start => rfl
  | next hpath henters ih => rw [List.length_append, List.length_append, ih]; rfl

theorem Reached.valid {fs : FileSystem} {absolute : Bool} {segments : List (List Element)}
    {names : List Name} (h : Reached fs absolute segments names)
    (hsegments : ∀ segment ∈ segments, PlainSegment segment) :
    ∀ name ∈ names, ∀ byte ∈ name, byte ≠ 0 ∧ byte ≠ PATH_SEPARATOR := by
  induction h with
  | start => exact fun name hmem => absurd hmem List.not_mem_nil
  | next hpath henters ih =>
    intro name hmem
    rcases List.mem_append.mp hmem with hmem | hmem
    · exact ih (fun segment hsegment => hsegments segment (List.mem_append_left _ hsegment))
        name hmem
    · rw [List.mem_singleton.mp hmem]
      exact henters.valid (hsegments _ (List.mem_append_right _ List.mem_cons_self))

/-- A path for more segments goes through one for the first of them. -/
theorem Reached.front {fs : FileSystem} {absolute : Bool} {segments more : List (List Element)}
    {names : List Name} (h : Reached fs absolute (segments ++ more) names) :
    ∃ front, Reached fs absolute segments front := by
  induction more using List.reverseRecOn generalizing names with
  | nil => exact ⟨names, by rwa [List.append_nil] at h⟩
  | append_singleton more segment ih =>
    rw [← List.append_assoc] at h
    generalize hall : segments ++ more ++ [segment] = all at h
    cases h with
    | start => exact absurd hall (List.append_ne_nil_of_right_ne_nil _ (List.cons_ne_nil _ _))
    | next hpath henters =>
      obtain ⟨hfront, -⟩ := List.append_inj' hall rfl
      rw [← hfront] at hpath
      exact ih hpath

/-! ## Texts -/

theorem spell_nil (names : List Name) : spell [] names = [] := by
  cases names <;> rfl

theorem spell_nil_names (counts : List Nat) : spell counts [] = [] := by
  cases counts <;> rfl

theorem spell_concat {counts : List Nat} {names : List Name} (h : names.length = counts.length)
    (count : Nat) (name : Name) :
    spell (counts ++ [count]) (names ++ [name]) =
      spell counts names ++ List.replicate count PATH_SEPARATOR ++ name := by
  induction counts generalizing names with
  | nil =>
    rw [List.length_eq_zero_iff.mp h, List.nil_append, List.nil_append, spell, spell_nil,
      List.append_nil, List.nil_append]
  | cons first counts ih =>
    obtain ⟨head, rest, rfl⟩ := List.exists_cons_of_length_eq_add_one h
    rw [List.cons_append, List.cons_append, spell, spell, ih (Nat.succ.inj h)]
    simp only [List.append_assoc]

/-- Separators and names can be told apart. -/
theorem spell_injective {counts : List Nat} (hcounts : ∀ count ∈ counts.tail, 0 < count)
    {names names' : List Name} (hlength : names.length = counts.length)
    (hlength' : names'.length = counts.length)
    (hnames : ∀ name ∈ names, PATH_SEPARATOR ∉ name)
    (hnames' : ∀ name ∈ names', PATH_SEPARATOR ∉ name)
    (h : spell counts names = spell counts names') : names = names' := by
  induction counts generalizing names names' with
  | nil => rw [List.length_eq_zero_iff.mp hlength, List.length_eq_zero_iff.mp hlength']
  | cons count counts ih =>
    obtain ⟨name, rest, rfl⟩ := List.exists_cons_of_length_eq_add_one hlength
    obtain ⟨name', rest', rfl⟩ := List.exists_cons_of_length_eq_add_one hlength'
    rw [spell, spell, List.append_assoc, List.append_assoc] at h
    have htext := List.append_cancel_left h
    -- A name ends where the next separator stands, or with the text.
    have hend : ∀ (name : Name) (rest : List Name), PATH_SEPARATOR ∉ name →
        (name ++ spell counts rest).takeWhile (!isSeparatorByte ·) = name := by
      intro name rest hname
      have hall : ∀ byte ∈ name, (!isSeparatorByte byte) = true := by
        intro byte hbyte
        have hne : byte ≠ PATH_SEPARATOR := fun heq => hname (heq ▸ hbyte)
        simpa [isSeparatorByte] using hne
      rw [List.takeWhile_append_of_pos hall]
      cases counts with
      | nil => rw [spell_nil, List.takeWhile_nil, List.append_nil]
      | cons next counts =>
        obtain ⟨more, hmore⟩ := Nat.exists_eq_succ_of_ne_zero
          (Nat.ne_of_gt (hcounts next List.mem_cons_self))
        cases rest with
        | nil => rw [spell_nil_names, List.takeWhile_nil, List.append_nil]
        | cons second rest =>
          rw [spell, hmore, List.replicate_succ, List.cons_append, List.cons_append,
            List.takeWhile_cons_of_neg (by decide), List.append_nil]
    have hname : name = name' := by
      rw [← hend name rest (hnames name List.mem_cons_self), htext,
        hend name' rest' (hnames' name' List.mem_cons_self)]
    rw [hname] at htext ⊢
    have htail : ∀ count ∈ counts.tail, 0 < count := fun count hmem =>
      hcounts count (List.mem_of_mem_tail hmem)
    rw [ih htail (Nat.succ.inj hlength) (Nat.succ.inj hlength')
      (fun name hmem => hnames name (List.mem_cons_of_mem _ hmem))
      (fun name hmem => hnames' name (List.mem_cons_of_mem _ hmem))
      (List.append_cancel_left htext)]

/-! ## The search -/

/-- A directory that cannot be read is skipped. -/
theorem processDirectoryError_noAbort {flags : Flags} {errfunc : GlobErrorFn}
    (hquiet : NoAbort flags errfunc) {candidate : CandidatePath} (hnul : 0 ∉ candidate.resultPath)
    (errnoValue : Int) : processDirectoryError candidate errnoValue flags errfunc = .ok () := by
  have hpath : 0 ∉ callbackPath candidate := by
    unfold callbackPath
    split
    · decide
    · exact hnul
  have hcall : callErrfunc candidate errnoValue errfunc = .ok () := by
    cases herrfunc : errfunc with
    | none => rfl
    | some callback =>
      have hzero := hquiet.2 callback herrfunc (callbackPath candidate) errnoValue
      rw [callErrfunc, if_neg hpath, if_neg (not_not_intro hzero)]
  unfold processDirectoryError
  rw [hcall, hquiet.1]
  rfl

/-- What one candidate becomes. -/
theorem nextCandidates_spec (fs : FileSystem) {flags : Flags} {errfunc : GlobErrorFn}
    (hquiet : NoAbort flags errfunc) {candidate : CandidatePath} (hnul : 0 ∉ candidate.resultPath)
    (count : Nat) (segment : List UInt8) :
    ∃ found : List Name, nextCandidates fs flags errfunc count segment candidate =
        .ok (found.map fun name =>
          ⟨candidate.fsPath.join name, joinResultPath candidate.resultPath count name⟩) ∧
      found.Nodup ∧ ∀ name, name ∈ found ↔ Enters fs candidate.fsPath
        (segmentElements (hasFlag flags GLOB_NOESCAPE) segment) name := by
  unfold nextCandidates
  rw [segmentHasPatternMeta_eq]
  -- A segment with a metacharacter reads the directory; a literal one only asks for its name.
  by_cases hmeta : (segmentElements (hasFlag flags GLOB_NOESCAPE) segment).any Element.isMeta = true
  · rw [if_pos hmeta]
    cases hread : fs.readDirectoryNames candidate.fsPath with
    | error errnoValue =>
      refine ⟨[], ?_, List.nodup_nil, fun name => ?_⟩
      · dsimp only
        -- A directory that cannot be read has no entries, as nothing aborts the search.
        rw [processDirectoryError_noAbort hquiet hnul]
        rfl
      · refine iff_of_false List.not_mem_nil fun h => ?_
        cases h with
        | literal hplain hexists => exact Bool.false_ne_true (hplain.symm.trans hmeta)
        | entry _ hread' => cases hread.symm.trans hread'
    | ok entries =>
      refine ⟨keepEntries flags segment entries, rfl, (fs.nodup _ _ hread).filter _,
        fun name => ?_⟩
      unfold keepEntries patternMatches
      rw [List.mem_filter, decide_eq_true_eq, shouldMatchHiddenName_eq, patternMatchesFrom_iff]
      constructor
      · rintro ⟨hmem, hhidden, hmatch⟩
        refine .entry hmeta hread hmem (fun hdot => ?_) hmatch
        exact Classical.byContradiction fun hno => hhidden ⟨hdot, hno⟩
      · intro h
        cases h with
        | literal hplain hexists => exact absurd (hplain.symm.trans hmeta) Bool.false_ne_true
        | entry _ hread' hmem hhidden hmatch =>
          cases hread.symm.trans hread'
          exact ⟨hmem, fun h => h.2 (hhidden h.1), hmatch⟩
  · rw [if_neg hmeta]
    have hplain := Bool.eq_false_iff.mpr hmeta
    dsimp only
    rw [unescapeSegment_eq _ _ hplain]
    generalize hname : literalName (segmentElements (hasFlag flags GLOB_NOESCAPE) segment) = name
    -- The name without its escapes is looked up, and found at most once.
    by_cases hexists : fs.literalPathExists (candidate.fsPath.join name) = true
    · rw [if_pos hexists]
      refine ⟨[name], rfl, List.nodup_singleton name, fun name' => ?_⟩
      rw [List.mem_singleton]
      constructor
      · rintro rfl
        rw [← hname] at hexists ⊢
        exact .literal hplain hexists
      · intro h
        cases h with
        | literal => exact hname
        | entry hmeta' => exact absurd hmeta' hmeta
    · rw [if_neg hexists]
      refine ⟨[], rfl, List.nodup_nil, fun name' => iff_of_false List.not_mem_nil fun h => ?_⟩
      cases h with
      | literal _ hexists' =>
        rw [hname] at hexists'
        exact hexists hexists'
      | entry hmeta' => exact hmeta hmeta'

/-- The candidate for a path, after the segments with these separators before them. -/
def candidateOf (absolute : Bool) (root : List UInt8) (counts : List Nat) (names : List Name) :
    CandidatePath :=
  ⟨⟨absolute, names⟩, root ++ spell counts names⟩

theorem candidateOf_next (absolute : Bool) (root : List UInt8) {counts : List Nat}
    {names : List Name} (hlength : names.length = counts.length) (count : Nat) (name : Name) :
    (⟨(candidateOf absolute root counts names).fsPath.join name,
      joinResultPath (candidateOf absolute root counts names).resultPath count name⟩ :
        CandidatePath) =
      candidateOf absolute root (counts ++ [count]) (names ++ [name]) := by
  unfold candidateOf joinResultPath
  rw [spell_concat hlength]
  simp only [List.append_assoc]
  rfl

/-- What all candidates become: each path goes on with each name that fits. -/
theorem expandCandidates_spec (fs : FileSystem) {flags : Flags} {errfunc : GlobErrorFn}
    (hquiet : NoAbort flags errfunc) (absolute : Bool) (root : List UInt8) {counts : List Nat}
    (count : Nat) (segment : List UInt8) {paths : List (List Name)}
    (hlength : ∀ names ∈ paths, names.length = counts.length)
    (hnul : ∀ names ∈ paths, 0 ∉ (candidateOf absolute root counts names).resultPath) :
    ∃ next : List (List Name), expandCandidates fs flags errfunc count segment
        (paths.map (candidateOf absolute root counts)) =
          .ok (next.map (candidateOf absolute root (counts ++ [count]))) ∧
      (paths.Nodup → next.Nodup) ∧
      ∀ path, path ∈ next ↔ ∃ names ∈ paths, ∃ name, path = names ++ [name] ∧
        Enters fs ⟨absolute, names⟩ (segmentElements (hasFlag flags GLOB_NOESCAPE) segment) name := by
  -- Induction on the candidates, each of which is followed by its own next names.
  induction paths with
  | nil =>
    refine ⟨[], rfl, fun _ => List.nodup_nil, fun path => ?_⟩
    refine iff_of_false List.not_mem_nil ?_
    rintro ⟨names, hmem, -⟩
    exact List.not_mem_nil hmem
  | cons names paths ih =>
    obtain ⟨next, hnext, hnodup, hspec⟩ := ih
      (fun names' hmem => hlength names' (List.mem_cons_of_mem _ hmem))
      (fun names' hmem => hnul names' (List.mem_cons_of_mem _ hmem))
    obtain ⟨found, hfound, hfoundNodup, hfoundSpec⟩ := nextCandidates_spec fs hquiet
      (hnul names List.mem_cons_self) count segment
    have hmap : (found.map fun name =>
        (⟨(candidateOf absolute root counts names).fsPath.join name,
          joinResultPath (candidateOf absolute root counts names).resultPath count name⟩ :
            CandidatePath)) =
        (found.map fun name => names ++ [name]).map
          (candidateOf absolute root (counts ++ [count])) := by
      rw [List.map_map]
      exact List.map_congr_left fun name _ =>
        candidateOf_next absolute root (hlength names List.mem_cons_self) count name
    refine ⟨(found.map fun name => names ++ [name]) ++ next, ?_, ?_, fun path => ?_⟩
    · rw [List.map_cons, expandCandidates, hfound, hnext, hmap, List.map_append]
      rfl
    · intro hpaths
      obtain ⟨hhead, htail⟩ := List.nodup_cons.mp hpaths
      refine List.Nodup.append (hfoundNodup.map fun name name' heq => ?_) (hnodup htail) ?_
      · exact List.singleton_inj.mp (List.append_cancel_left heq)
      · -- A path that goes on from another one is another path.
        intro path hleft hright
        obtain ⟨name, -, rfl⟩ := List.mem_map.mp hleft
        obtain ⟨names', hmem, name', heq, -⟩ := (hspec _).mp hright
        rw [(List.append_inj' heq rfl).1] at hhead
        exact hhead hmem
    · rw [List.mem_append, List.mem_map, hspec]
      constructor
      · rintro (⟨name, hmem, rfl⟩ | ⟨names', hmem, name, rfl, henters⟩)
        · exact ⟨names, List.mem_cons_self, name, rfl, (hfoundSpec name).mp hmem⟩
        · exact ⟨names', List.mem_cons_of_mem _ hmem, name, rfl, henters⟩
      · rintro ⟨names', hmem, name, rfl, henters⟩
        rcases List.mem_cons.mp hmem with rfl | hmem
        · exact Or.inl ⟨name, (hfoundSpec name).mpr henters, rfl⟩
        · exact Or.inr ⟨names', hmem, name, rfl, henters⟩

theorem reached_concat {fs : FileSystem} {absolute : Bool} {segments : List (List Element)}
    {segment : List Element} {path : List Name} :
    Reached fs absolute (segments ++ [segment]) path ↔ ∃ names name, path = names ++ [name] ∧
      Reached fs absolute segments names ∧ Enters fs ⟨absolute, names⟩ segment name := by
  constructor
  · intro h
    generalize hall : segments ++ [segment] = all at h
    cases h with
    | start => exact absurd hall (List.append_ne_nil_of_right_ne_nil _ (List.cons_ne_nil _ _))
    | next hpath henters =>
      obtain ⟨hfront, hlast⟩ := List.append_inj' hall rfl
      rw [hfront, List.singleton_inj.mp hlast]
      exact ⟨_, _, rfl, hpath, henters⟩
  · rintro ⟨names, name, rfl, hpath, henters⟩
    exact .next hpath henters

/-- The list holds each path that is reached, once. -/
def Frontier (fs : FileSystem) (absolute : Bool) (segments : List (List Element))
    (paths : List (List Name)) : Prop :=
  paths.Nodup ∧ ∀ names, names ∈ paths ↔ Reached fs absolute segments names

theorem spell_not_nul {counts : List Nat} {names : List Name} (h : ∀ name ∈ names, 0 ∉ name) :
    0 ∉ spell counts names := by
  induction counts generalizing names with
  | nil =>
    rw [spell_nil]
    exact List.not_mem_nil
  | cons count counts ih =>
    cases names with
    | nil =>
      rw [spell_nil_names]
      exact List.not_mem_nil
    | cons name names =>
      rw [spell, List.mem_append, List.mem_append]
      rintro ((hsep | hname) | hrest)
      · exact absurd (List.eq_of_mem_replicate hsep) (by decide)
      · exact h name List.mem_cons_self hname
      · exact ih (fun name' hmem => h name' (List.mem_cons_of_mem _ hmem)) hrest

/-- The search over the segments, from a list of paths for the segments before. -/
theorem expandSegments_spec (fs : FileSystem) {flags : Flags} {errfunc : GlobErrorFn}
    (hquiet : NoAbort flags errfunc) (absolute : Bool) {root : List UInt8} (hroot : 0 ∉ root)
    (pieces : List (Nat × List UInt8)) {segments : List (List Element)} (counts : List Nat)
    {paths : List (List Name)} (hlength : segments.length = counts.length)
    (hplain : ∀ segment ∈ segments ++ pieces.map fun piece =>
      segmentElements (hasFlag flags GLOB_NOESCAPE) piece.2, PlainSegment segment)
    (hfrontier : Frontier fs absolute segments paths) :
    ∃ next : List (List Name), expandSegments fs flags errfunc pieces
        (paths.map (candidateOf absolute root counts)) =
          .ok (next.map (candidateOf absolute root (counts ++ pieces.map Prod.fst))) ∧
      Frontier fs absolute (segments ++ pieces.map fun piece =>
        segmentElements (hasFlag flags GLOB_NOESCAPE) piece.2) next := by
  -- Induction on the segments left; the frontier of the segments read so far is the invariant.
  induction pieces generalizing segments counts paths with
  | nil =>
    refine ⟨paths, ?_, ?_⟩
    · rw [List.map_nil, List.append_nil]
      rfl
    · rw [List.map_nil, List.append_nil]
      exact hfrontier
  | cons piece pieces ih =>
    obtain ⟨count, bytes⟩ := piece
    rw [List.map_cons] at hplain
    have hvalid : ∀ names ∈ paths, names.length = counts.length ∧
        0 ∉ (candidateOf absolute root counts names).resultPath := by
      intro names hmem
      have hreached := (hfrontier.2 names).mp hmem
      have hnames := hreached.valid fun segment hsegment =>
        hplain segment (List.mem_append_left _ hsegment)
      refine ⟨hreached.length.trans hlength, ?_⟩
      unfold candidateOf
      rw [List.mem_append]
      rintro (h | h)
      · exact hroot h
      · exact spell_not_nul (fun name hname hnul => (hnames name hname 0 hnul).1 rfl) h
    obtain ⟨middle, hmiddle, hnodup, hspec⟩ := expandCandidates_spec fs hquiet absolute root count
      bytes (fun names hmem => (hvalid names hmem).1) (fun names hmem => (hvalid names hmem).2)
    -- One more segment: the frontier moves by one name.
    have hmiddleFrontier : Frontier fs absolute
        (segments ++ [segmentElements (hasFlag flags GLOB_NOESCAPE) bytes]) middle := by
      refine ⟨hnodup hfrontier.1, fun path => ?_⟩
      rw [hspec, reached_concat]
      constructor
      · rintro ⟨names, hmem, name, heq, henters⟩
        exact ⟨names, name, heq, (hfrontier.2 names).mp hmem, henters⟩
      · rintro ⟨names, name, heq, hreached, henters⟩
        exact ⟨names, (hfrontier.2 names).mpr hreached, name, heq, henters⟩
    rw [List.map_cons, List.map_cons, List.append_cons counts, List.append_cons segments]
    have hrun : expandSegments fs flags errfunc ((count, bytes) :: pieces)
        (paths.map (candidateOf absolute root counts)) =
        if middle.map (candidateOf absolute root (counts ++ [count])) = [] then .ok []
        else expandSegments fs flags errfunc pieces
          (middle.map (candidateOf absolute root (counts ++ [count]))) := by
      rw [expandSegments, hmiddle]
      rfl
    rw [hrun]
    by_cases hempty : middle.map (candidateOf absolute root (counts ++ [count])) = []
    · -- Nothing is reached any more, so nothing is reached at the end.
      rw [if_pos hempty]
      refine ⟨[], rfl, List.nodup_nil, fun names => iff_of_false List.not_mem_nil fun h => ?_⟩
      obtain ⟨front, hfront⟩ := h.front
      have hmem := (hmiddleFrontier.2 front).mpr hfront
      rw [List.map_eq_nil_iff.mp hempty] at hmem
      exact List.not_mem_nil hmem
    · rw [if_neg hempty]
      apply ih
      · rw [List.length_append, List.length_append, hlength]
        rfl
      · rw [← List.append_cons]
        exact hplain
      · exact hmiddleFrontier

/-! ## The results -/

/-- The bytes of a segment's name are bytes of its tokens. -/
theorem mem_literalName_elements {segment : List Token} {byte : UInt8}
    (h : byte ∈ literalName (elements segment)) : ∃ token ∈ segment, token.byte = byte := by
  induction segment using (measure List.length).wf.induction with
  | _ segment ih =>
    cases segment with
    | nil =>
      rw [elements] at h
      exact absurd h List.not_mem_nil
    | cons first rest =>
      -- A literal element is its token's byte; every other element adds no byte to the name.
      have hliteral : ∀ b, byte ∈ literalName (.literal b :: elements rest) → first.byte = b →
          ∃ token ∈ first :: rest, token.byte = byte := by
        intro b hmem hfirst
        rcases List.mem_cons.mp (show byte ∈ b :: literalName (elements rest) from hmem) with
          heq | hmem
        · exact ⟨first, List.mem_cons_self, hfirst.trans heq.symm⟩
        · obtain ⟨token, htoken, hbyte⟩ := ih rest (Nat.lt_succ_self _) hmem
          exact ⟨token, List.mem_cons_of_mem _ htoken, hbyte⟩
      have hskip : ∀ next, next <:+ rest → next.length < (first :: rest).length →
          byte ∈ literalName (elements next) → ∃ token ∈ first :: rest, token.byte = byte := by
        intro next hsuffix hlt hmem
        obtain ⟨token, htoken, hbyte⟩ := ih next hlt hmem
        exact ⟨token, List.mem_cons_of_mem _ (hsuffix.subset htoken), hbyte⟩
      by_cases hstar : first = .plain starByte
      · rw [hstar, elements_star] at h
        exact hskip rest (List.suffix_refl _) (Nat.lt_succ_self _) h
      by_cases hquestion : first = .plain questionByte
      · rw [hquestion, elements_question] at h
        exact hskip rest (List.suffix_refl _) (Nat.lt_succ_self _) h
      by_cases hopen : first = .plain openBracket
      · cases hread : readBracket rest with
        | none =>
          rw [hopen, elements_open hread] at h
          exact hliteral _ h (by rw [hopen])
        | some result =>
          obtain ⟨element, next⟩ := result
          obtain ⟨negated, items, rfl⟩ := readBracket_set hread
          rw [hopen, elements_set hread] at h
          obtain ⟨hsuffix, hlt⟩ := readBracket_suffix hread
          exact hskip next hsuffix (Nat.lt_succ_of_lt hlt) h
      rw [elements, if_neg hstar, if_neg hquestion, if_neg hopen] at h
      exact hliteral _ h rfl

theorem mem_tokens {noEscape : Bool} {pattern : List UInt8} {token : Token}
    (h : token ∈ tokens noEscape pattern) : token.byte ∈ pattern := by
  induction pattern using (measure List.length).wf.induction with
  | _ pattern ih =>
    cases pattern with
    | nil => exact absurd h List.not_mem_nil
    | cons first rest =>
      rcases tokens_cases noEscape first rest with
        ⟨-, -, second, after, rfl, htokens⟩ | ⟨-, htokens⟩
      · rw [htokens] at h
        rcases List.mem_cons.mp h with rfl | h
        · exact List.mem_cons_of_mem _ List.mem_cons_self
        · exact List.mem_cons_of_mem _ (List.mem_cons_of_mem _
            (ih after (Nat.lt_succ_of_lt (Nat.lt_succ_self _)) h))
      · rw [htokens] at h
        rcases List.mem_cons.mp h with rfl | h
        · exact List.mem_cons_self
        · exact List.mem_cons_of_mem _ (ih rest (Nat.lt_succ_self _) h)

theorem separatorCounts_fst (pieces : List (Nat × List UInt8)) (h : pieces ≠ []) :
    (separatorCounts pieces).map Prod.fst = 0 :: (pieces.map Prod.fst).tail := by
  cases pieces with
  | nil => exact absurd rfl h
  | cons piece pieces => rfl

theorem separatorCounts_snd {β : Type*} (f : List UInt8 → β) (pieces : List (Nat × List UInt8)) :
    (separatorCounts pieces).map (fun piece => f piece.2) = pieces.map fun piece => f piece.2 := by
  cases pieces with
  | nil => rfl
  | cons piece pieces => rfl

theorem rootCandidate_eq (leadingSeparators segmentCount : Nat) :
    rootCandidate leadingSeparators segmentCount =
      candidateOf (0 < leadingSeparators) (rootText leadingSeparators segmentCount) [] [] := by
  unfold rootCandidate candidateOf rootText
  rw [spell_nil, List.append_nil]
  by_cases h : leadingSeparators > 0
  · rw [if_pos h, decide_eq_true h]
  · rw [if_neg h, decide_eq_false h, Nat.eq_zero_of_not_pos h]
    rfl

theorem rootText_not_nul (leadingSeparators segmentCount : Nat) :
    0 ∉ rootText leadingSeparators segmentCount := by
  intro h
  exact absurd (List.eq_of_mem_replicate h) (by decide)

/-- A segment of a pattern without NUL spells a name that can stand in a directory. -/
theorem patternSegments_plain {noEscape : Bool} {pattern : List UInt8} (hpattern : 0 ∉ pattern) :
    ∀ piece ∈ (patternSegments noEscape pattern).2.pieces, PlainSegment (elements piece.2) := by
  intro piece hpiece byte hbyte
  obtain ⟨token, htoken, rfl⟩ := mem_literalName_elements hbyte
  constructor
  · rintro hnul
    have hmem : token ∈ tokens noEscape pattern := by
      have hcut := Runs.mem_of_mem_cut hpiece htoken
      exact (List.dropWhile_suffix _).subset hcut
    exact hpattern (hnul ▸ mem_tokens hmem)
  · have hsep := (Runs.cut_pieces piece hpiece).2 token htoken
    exact of_decide_eq_false hsep

/-- Two paths for the same segments are written differently. -/
theorem pathText_injective {noEscape : Bool} {pattern : List UInt8} (hpattern : 0 ∉ pattern)
    {fs : FileSystem} {absolute : Bool} {names names' : List Name}
    (hsome : (patternSegments noEscape pattern).2.pieces ≠ [])
    (hreached : Reached fs absolute ((patternSegments noEscape pattern).2.pieces.map
      fun piece => elements piece.2) names)
    (hreached' : Reached fs absolute ((patternSegments noEscape pattern).2.pieces.map
      fun piece => elements piece.2) names') {root : List UInt8}
    (h : root ++ spell (0 :: ((patternSegments noEscape pattern).2.pieces.map Prod.fst).tail) names
      = root ++ spell (0 :: ((patternSegments noEscape pattern).2.pieces.map Prod.fst).tail) names') :
    names = names' := by
  have hplain : ∀ segment ∈ (patternSegments noEscape pattern).2.pieces.map
      (fun piece => elements piece.2), PlainSegment segment := by
    intro segment hsegment
    obtain ⟨piece, hpiece, rfl⟩ := List.mem_map.mp hsegment
    exact patternSegments_plain hpattern piece hpiece
  have hcounts : ∀ count ∈ (0 :: ((patternSegments noEscape pattern).2.pieces.map
      Prod.fst).tail).tail, 0 < count := by
    intro count hcount
    rw [List.tail_cons, ← List.map_tail] at hcount
    obtain ⟨piece, hpiece, rfl⟩ := List.mem_map.mp hcount
    exact Runs.cut_tail_count_pos piece hpiece
  have hlength : (0 :: ((patternSegments noEscape pattern).2.pieces.map Prod.fst).tail).length =
      ((patternSegments noEscape pattern).2.pieces.map fun piece => elements piece.2).length := by
    rw [List.length_cons, List.length_tail, List.length_map, List.length_map]
    exact Nat.sub_add_cancel (List.length_pos_of_ne_nil hsome)
  refine spell_injective hcounts (hreached.length.trans hlength.symm)
    (hreached'.length.trans hlength.symm) ?_ ?_ (List.append_cancel_left h)
  · intro name hmem hslash
    exact (hreached.valid hplain name hmem _ hslash).2 rfl
  · intro name hmem hslash
    exact (hreached'.valid hplain name hmem _ hslash).2 rfl

theorem map_eq_map_of_forall₂ {α β γ : Type*} {R : α → β → Prop} {f : α → γ} {g : β → γ}
    (hfg : ∀ a b, R a b → f a = g b) {l : List α} {l' : List β} (h : List.Forall₂ R l l') :
    l.map f = l'.map g := by
  induction h with
  | nil => rfl
  | cons hhead htail ih => rw [List.map_cons, List.map_cons, hfg _ _ hhead, ih]

/-- The list at the end of the search, with each path once. -/
theorem expandSegments_root (fs : FileSystem) {pattern : List UInt8} {flags : Flags}
    {errfunc : GlobErrorFn} (hpattern : 0 ∉ pattern) (hquiet : NoAbort flags errfunc)
    {pieces : List (Nat × List UInt8)}
    (hpieces : List.Forall₂ (fun x y => x.1 = y.1 ∧
      SameSegment (tokens (hasFlag flags GLOB_NOESCAPE) x.2) y.2) pieces
      (patternSegments (hasFlag flags GLOB_NOESCAPE) pattern).2.pieces)
    (hsome : pieces ≠ []) (leading : Nat) :
    ∃ paths, expandSegments fs flags errfunc (separatorCounts pieces)
        [rootCandidate leading pieces.length] =
          .ok (paths.map (candidateOf (0 < leading) (rootText leading pieces.length)
            (0 :: (pieces.map Prod.fst).tail))) ∧
      Frontier fs (0 < leading)
        ((patternSegments (hasFlag flags GLOB_NOESCAPE) pattern).2.pieces.map
          fun piece => elements piece.2) paths := by
  -- The number of separators before a segment does not change what the segment says.
  have hsegments : (separatorCounts pieces).map (fun piece =>
      segmentElements (hasFlag flags GLOB_NOESCAPE) piece.2) =
      (patternSegments (hasFlag flags GLOB_NOESCAPE) pattern).2.pieces.map
        fun piece => elements piece.2 := by
    rw [separatorCounts_snd]
    exact map_eq_map_of_forall₂ (fun _ _ h => h.2.elements_eq) hpieces
  have hplain : ∀ segment ∈ [] ++ (separatorCounts pieces).map (fun piece =>
      segmentElements (hasFlag flags GLOB_NOESCAPE) piece.2), PlainSegment segment := by
    rw [hsegments, List.nil_append]
    intro segment hsegment
    obtain ⟨piece, hpiece, rfl⟩ := List.mem_map.mp hsegment
    exact patternSegments_plain hpattern piece hpiece
  -- Before the first segment, the root alone is reached.
  have hstart : Frontier fs (0 < leading) [] [[]] := by
    refine ⟨List.nodup_singleton _, fun names => ?_⟩
    rw [List.mem_singleton]
    constructor
    · rintro rfl
      exact .start
    · intro h
      exact List.length_eq_zero_iff.mp h.length
  obtain ⟨paths, hpaths, hfrontier⟩ := expandSegments_spec fs hquiet (0 < leading)
    (rootText_not_nul leading pieces.length) (separatorCounts pieces) []
    rfl hplain hstart
  refine ⟨paths, ?_, ?_⟩
  · rw [rootCandidate_eq]
    rw [List.nil_append, separatorCounts_fst pieces hsome] at hpaths
    exact hpaths
  · rw [List.nil_append, hsegments] at hfrontier
    exact hfrontier

/-- `collect_matches` finds what the pattern asks for, and nothing twice. -/
theorem collectMatches_spec (fs : FileSystem) {pattern : List UInt8} {flags : Flags}
    {errfunc : GlobErrorFn} (hpattern : 0 ∉ pattern) (hquiet : NoAbort flags errfunc) :
    ∃ found, collectMatches fs pattern flags errfunc = .ok found ∧ found.Nodup ∧
      ∀ path, path ∈ found ↔ Expected fs (hasFlag flags GLOB_NOESCAPE) pattern path := by
  obtain ⟨hleading, hpieces, htrailing⟩ :=
    parseSegments_spec (hasFlag flags GLOB_NOESCAPE) pattern
  unfold collectMatches
  dsimp only
  rw [hleading, htrailing, leadingSeparatorsIncludeEscaped_eq]
  generalize (parseSegmentsWithSeparators
    (normalizedPattern pattern (hasFlag flags GLOB_NOESCAPE))).2.pieces = pieces at hpieces ⊢
  have hnil : pieces = [] ↔ (patternSegments (hasFlag flags GLOB_NOESCAPE) pattern).2.pieces = [] := by
    rw [← List.length_eq_zero_iff, ← List.length_eq_zero_iff, hpieces.length_eq]
  -- A pattern without segments is the root or nothing.
  by_cases hempty : pieces = []
  · have hnone := hnil.mp hempty
    by_cases hroot : (patternSegments (hasFlag flags GLOB_NOESCAPE) pattern).1 > 0
    · rw [if_pos ⟨hroot, hempty⟩]
      refine ⟨_, rfl, List.nodup_singleton _, fun path => ?_⟩
      rw [List.mem_singleton]
      constructor
      · rintro rfl
        exact .root hroot hnone
      · intro h
        cases h with
        | root => rfl
        | path hsome => exact absurd hnone hsome
        | directory hsome => exact absurd hnone hsome
    · rw [if_neg (fun h => hroot h.1), if_pos hempty]
      refine ⟨[], rfl, List.nodup_nil, fun path => iff_of_false List.not_mem_nil fun h => ?_⟩
      cases h with
      | root hroot' => exact hroot hroot'
      | path hsome => exact hsome hnone
      | directory hsome => exact hsome hnone
  · have hsome := fun h => hempty (hnil.mpr h)
    obtain ⟨paths, hpaths, hnodup, hreached⟩ :=
      expandSegments_root fs hpattern hquiet hpieces hempty
        (patternSegments (hasFlag flags GLOB_NOESCAPE) pattern).1
    have hcounts : pieces.map Prod.fst =
        (patternSegments (hasFlag flags GLOB_NOESCAPE) pattern).2.pieces.map Prod.fst := by
      exact map_eq_map_of_forall₂ (fun _ _ h => h.1) hpieces
    -- The text of a result is spelled with the separators of the pattern.
    have htext : ∀ names, (candidateOf
        (0 < (patternSegments (hasFlag flags GLOB_NOESCAPE) pattern).1)
        (rootText (patternSegments (hasFlag flags GLOB_NOESCAPE) pattern).1 pieces.length)
        (0 :: (pieces.map Prod.fst).tail) names).resultPath =
        pathText (patternSegments (hasFlag flags GLOB_NOESCAPE) pattern).1
          ((patternSegments (hasFlag flags GLOB_NOESCAPE) pattern).2.pieces.map Prod.fst)
          names := by
      intro names
      unfold candidateOf pathText
      rw [hcounts, List.length_map, hpieces.length_eq]
    -- Different paths are spelled differently, so no result comes twice.
    have hinjective : ∀ names ∈ paths, ∀ names' ∈ paths,
        pathText (patternSegments (hasFlag flags GLOB_NOESCAPE) pattern).1
          ((patternSegments (hasFlag flags GLOB_NOESCAPE) pattern).2.pieces.map Prod.fst) names =
        pathText (patternSegments (hasFlag flags GLOB_NOESCAPE) pattern).1
          ((patternSegments (hasFlag flags GLOB_NOESCAPE) pattern).2.pieces.map Prod.fst) names' →
        names = names' := by
      intro names hmem names' hmem' heq
      exact pathText_injective hpattern hsome ((hreached names).mp hmem)
        ((hreached names').mp hmem') heq
    rw [if_neg (fun h => hempty h.2), if_neg hempty, hpaths]
    by_cases hslash : (patternSegments (hasFlag flags GLOB_NOESCAPE) pattern).2.trailing > 0
    · -- Only directories remain, with a slash behind them.
      refine ⟨(paths.filter fun names => fs.isDir
          ⟨0 < (patternSegments (hasFlag flags GLOB_NOESCAPE) pattern).1, names⟩).map fun names =>
        pathText (patternSegments (hasFlag flags GLOB_NOESCAPE) pattern).1
          ((patternSegments (hasFlag flags GLOB_NOESCAPE) pattern).2.pieces.map Prod.fst) names ++
            [PATH_SEPARATOR], ?_, ?_, fun path => ?_⟩
      · simp only [← htext]
        change (if (patternSegments (hasFlag flags GLOB_NOESCAPE) pattern).2.trailing > 0 then _
          else _) = _
        rw [if_pos hslash, List.filter_map, List.map_map]
        rfl
      · refine (hnodup.filter _).map_on fun names hmem names' hmem' heq => ?_
        exact hinjective names (List.mem_filter.mp hmem).1 names' (List.mem_filter.mp hmem').1
          (List.append_cancel_right heq)
      · rw [List.mem_map]
        constructor
        · rintro ⟨names, hmem, rfl⟩
          obtain ⟨hpath, hdir⟩ := List.mem_filter.mp hmem
          exact .directory hsome ((hreached names).mp hpath) hslash hdir
        · intro h
          cases h with
          | root _ hnone => exact absurd hnone hsome
          | path _ _ hnotrailing => exact absurd hnotrailing (Nat.ne_of_gt hslash)
          | directory _ hpath _ hdir =>
            exact ⟨_, List.mem_filter.mpr ⟨(hreached _).mpr hpath, hdir⟩, rfl⟩
    · refine ⟨paths.map fun names =>
        pathText (patternSegments (hasFlag flags GLOB_NOESCAPE) pattern).1
          ((patternSegments (hasFlag flags GLOB_NOESCAPE) pattern).2.pieces.map Prod.fst) names,
        ?_, ?_, fun path => ?_⟩
      · simp only [← htext]
        change (if (patternSegments (hasFlag flags GLOB_NOESCAPE) pattern).2.trailing > 0 then _
          else _) = _
        rw [if_neg hslash, List.map_map]
        rfl
      · exact hnodup.map_on fun names hmem names' hmem' heq =>
          hinjective names hmem names' hmem' heq
      · rw [List.mem_map]
        constructor
        · rintro ⟨names, hmem, rfl⟩
          exact .path hsome ((hreached names).mp hmem) (Nat.eq_zero_of_not_pos hslash)
        · intro h
          cases h with
          | root _ hnone => exact absurd hnone hsome
          | path _ hpath => exact ⟨_, (hreached _).mpr hpath, rfl⟩
          | directory _ _ htrailing => exact absurd htrailing hslash

end Rlibc.Glob
