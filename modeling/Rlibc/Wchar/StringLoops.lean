import Rlibc.Wchar.StringConversion

/-!
# What the conversion loops compute

The pending bytes and the text are a row of sequences and a rest that no sequence begins.  The
loops deliver the characters of the row, as far as there is room, and fail at the rest.
-/

namespace Rlibc.Wchar

open Utf8Sequences

/-- The wide characters of a row of scalar values. -/
def wides (cs : List Char) : List Int := cs.map fun c => (c.toNat : Int)

theorem wides_length (cs : List Char) : (wides cs).length = cs.length := List.length_map _

/-- The bytes before the cursor and the text, cut into sequences. -/
structure Split (before text : List UInt8) (cs : List Char) (stuck : List UInt8) : Prop where
  eq : before ++ text = cs.flatMap encode ++ stuck
  stuck : Stuck stuck

theorem exists_split (before text : List UInt8) : ∃ cs stuck, Split before text cs stuck := by
  obtain ⟨cs, stuck, heq, hstuck⟩ := exists_segments (before ++ text)
  exact ⟨cs, stuck, heq, hstuck⟩

/-- How much of the text a row of sequences takes, behind the bytes before it. -/
def past (before : List UInt8) (cs : List Char) : Nat :=
  (cs.flatMap encode).length - before.length

theorem past_nil (before : List UInt8) : past before [] = 0 := Nat.zero_sub _

/-- Behind the first character, only the text is left. -/
theorem Split.next {before text stuck : List UInt8} {c : Char} {cs : List Char}
    (h : Split before text (c :: cs) stuck) (hlt : before.length < (encode c).length) :
    Split [] (text.drop ((encode c).length - before.length)) cs stuck := by
  refine ⟨?_, h.stuck⟩
  have hdrop := congrArg (List.drop (encode c).length) h.eq
  rw [List.flatMap_cons, List.append_assoc, List.drop_left, List.drop_append,
    List.drop_eq_nil_of_le (by omega)] at hdrop
  exact hdrop

theorem past_cons {before : List UInt8} {c : Char} (cs : List Char)
    (hlt : before.length < (encode c).length) :
    past before (c :: cs) = ((encode c).length - before.length) + past [] cs := by
  unfold past
  rw [List.flatMap_cons, List.length_append, List.length_nil]
  omega

/-! ## Reading one character -/

/-- Pending bytes have no zero among them. -/
theorem zero_notMem_pending {state : MbState} (hvalid : state.Valid) : 0 ∉ state.pending := by
  obtain ⟨p, hload⟩ := Option.isSome_iff_exists.mp hvalid
  cases (loadPending_holds hload).2 with
  | inl hnil =>
    rw [hnil]
    exact List.not_mem_nil
  | inr hs =>
    intro hmem
    obtain ⟨hne, c, hpre, hneq⟩ := hs
    have hcode := (zero_mem_encode (hpre.subset hmem)).1
    rw [hcode] at hpre hneq
    have hle := hpre.length_le
    have hpos := List.length_pos_iff.mpr hne
    exact hneq (hpre.eq_of_length (Nat.le_antisymm hle hpos))

theorem readWide_char {state : MbState} (hvalid : state.Valid) {cursor : List UInt8}
    (hnul : 0 ∉ cursor) {c : Char} {cs : List Char} {stuck : List UInt8}
    (h : Split state.pending cursor (c :: cs) stuck) :
    state.pending.length < (encode c).length ∧ c.toNat ≠ 0 ∧
      readWide state cursor =
        ⟨.new, (encode c).length - state.pending.length, some (c.toNat : Int), none⟩ := by
  have hfront : encode c <+: state.pending ++ cursor := by
    rw [h.eq, List.flatMap_cons, List.append_assoc]
    exact List.prefix_append _ _
  have hfrontNul : encode c <+: state.pending ++ (cursor ++ [0]) := by
    rw [← List.append_assoc]
    exact hfront.trans (List.prefix_append _ _)
  have hc : c.toNat ≠ 0 := by
    intro hzero
    have hcode : encode c = [0] := by
      rw [encode_eq, hzero]
      rfl
    have hmem : 0 ∈ state.pending ++ cursor :=
      hfront.subset (hcode ▸ List.mem_singleton_self _)
    cases List.mem_append.mp hmem with
    | inl hpending => exact zero_notMem_pending hvalid hpending
    | inr htext => exact hnul htext
  have hne : cursor ++ [0] ≠ [] := List.append_ne_nil_of_right_ne_nil _ (List.cons_ne_nil _ _)
  cases mbrtowcWithState_verdict hvalid hne with
  | decoded d front longer call =>
    have hd : d = c := encode_unique front hfrontNul
    subst hd
    refine ⟨longer, hc, call.trans ?_⟩
    rw [if_neg hc]
  | incomplete next begun valid kept call => exact absurd hfrontNul (begun.stuck c)
  | invalid rejected call => exact absurd hfrontNul (rejected.stuck c)

/-- The terminator, read between characters. -/
theorem readWide_terminator : readWide .new [] = ⟨.new, 0, some 0, none⟩ := rfl

/-- Bytes that no sequence begins are refused, at the latest at the terminator. -/
theorem readWide_stuck {state : MbState} (hvalid : state.Valid) {cursor : List UInt8}
    (hstuck : Stuck (state.pending ++ cursor)) (hne : state.pending ++ cursor ≠ []) :
    readWide state cursor = resetStateAndFail := by
  have hinput : cursor ++ [0] ≠ [] :=
    List.append_ne_nil_of_right_ne_nil _ (List.cons_ne_nil _ _)
  cases mbrtowcWithState_verdict hvalid hinput with
  | decoded c front longer call =>
    rw [← List.append_assoc] at front
    rcases List.prefix_concat_iff.mp front with heq | hpre
    · have hmem : 0 ∈ encode c := heq ▸ List.mem_append_right _ (List.mem_singleton_self _)
      rw [(zero_mem_encode hmem).1] at heq
      have hlen := congrArg List.length heq
      have hpos := List.length_pos_iff.mpr hne
      rw [List.length_append, List.length_singleton] at hlen
      omega
    · exact absurd hpre (hstuck c)
  | incomplete next begun valid kept call =>
    rw [← List.append_assoc] at begun
    have hfits := (started_iff.mp begun).2.1
    cases hlist : state.pending ++ cursor with
    | nil => exact absurd hlist hne
    | cons lead rest =>
      rw [hlist] at hfits
      exact absurd hfits.tail_of_concat.1 (by decide)
  | invalid rejected call => exact call

/-! ## The loop of `mbstowcs` and `mbsrtowcs` -/

theorem toWideLoop_full (state : MbState) (cursor : List UInt8) (converted : List Int) :
    toWideLoop (some converted.length) state cursor converted =
      ⟨.full, converted, cursor, state⟩ := by
  rw [toWideLoop, if_pos rfl]

section

variable {limit : Option Nat} {state : MbState} {cursor : List UInt8} {converted : List Int}

/-- One turn of the loop delivers one character. -/
theorem toWideLoop_char (hvalid : state.Valid) (hnul : 0 ∉ cursor) {c : Char} {cs : List Char}
    {stuck : List UInt8} (h : Split state.pending cursor (c :: cs) stuck)
    (hroom : limit ≠ some converted.length) :
    toWideLoop limit state cursor converted =
      toWideLoop limit .new (cursor.drop ((encode c).length - state.pending.length))
        (converted ++ wides [c]) := by
  obtain ⟨hlonger, hc, hread⟩ := readWide_char hvalid hnul h
  have hle := encode_length_le c
  have hret : (readWide state cursor).ret = (encode c).length - state.pending.length :=
    congrArg MbrtowcResult.ret hread
  rw [toWideLoop, if_neg hroom, dif_neg (by rw [hret]; unfold mbrErrInvalid usizeMax; omega),
    dif_neg (by rw [hret]; unfold mbrErrIncomplete usizeMax; omega),
    dif_neg (by rw [hret]; omega), hread]
  rfl

theorem toWideLoop_terminator (hroom : limit ≠ some converted.length) :
    toWideLoop limit .new [] converted = ⟨.terminator, converted, [], .new⟩ := by
  have hret : (readWide .new []).ret = 0 := congrArg MbrtowcResult.ret readWide_terminator
  rw [toWideLoop, if_neg hroom, dif_neg (by rw [hret]; decide), dif_neg (by rw [hret]; decide),
    dif_pos hret, readWide_terminator]

theorem toWideLoop_stuck (hvalid : state.Valid) (hstuck : Stuck (state.pending ++ cursor))
    (hne : state.pending ++ cursor ≠ []) (hroom : limit ≠ some converted.length) :
    toWideLoop limit state cursor converted = ⟨.invalid, converted, cursor, .new⟩ := by
  have hread := readWide_stuck hvalid hstuck hne
  have hret : (readWide state cursor).ret = mbrErrInvalid := congrArg MbrtowcResult.ret hread
  rw [toWideLoop, if_neg hroom, dif_pos hret, hread]
  rfl

end

theorem drop_nul {cursor : List UInt8} (hnul : 0 ∉ cursor) (n : Nat) : 0 ∉ cursor.drop n :=
  fun hmem => hnul (List.mem_of_mem_drop hmem)

/-- With room for no more than the row, the loop fills the destination. -/
theorem toWideLoop_fills {state : MbState} (hvalid : state.Valid) {cursor : List UInt8}
    (hnul : 0 ∉ cursor) {cs : List Char} {stuck : List UInt8}
    (h : Split state.pending cursor cs stuck) (converted : List Int) {n : Nat}
    (hn : n ≤ cs.length) :
    toWideLoop (some (converted.length + n)) state cursor converted =
      ⟨.full, converted ++ wides (cs.take n), cursor.drop (past state.pending (cs.take n)),
        if n = 0 then state else .new⟩ := by
  induction cs generalizing state cursor converted n with
  | nil =>
    have hzero : n = 0 := Nat.eq_zero_of_le_zero hn
    subst hzero
    rw [Nat.add_zero, toWideLoop_full, if_pos rfl, List.take_zero, past_nil, List.drop_zero]
    simp only [wides, List.map_nil, List.append_nil]
  | cons c cs ih =>
    cases n with
    | zero =>
      rw [Nat.add_zero, toWideLoop_full, if_pos rfl, List.take_zero, past_nil, List.drop_zero]
      simp only [wides, List.map_nil, List.append_nil]
    | succ n =>
      have hlonger := (readWide_char hvalid hnul h).1
      have hroom : some (converted.length + (n + 1)) ≠ some converted.length := by
        simp only [ne_eq, Option.some.injEq]
        omega
      have hcount : converted.length + (n + 1) = (converted ++ wides [c]).length + n := by
        rw [List.length_append, wides_length, List.length_singleton]
        omega
      have hrest := ih MbState.new_valid (drop_nul hnul _) (h.next hlonger)
        (converted ++ wides [c]) (Nat.le_of_succ_le_succ hn)
      rw [toWideLoop_char hvalid hnul h hroom, hcount, hrest, List.take_succ_cons,
        past_cons _ hlonger, if_neg (Nat.succ_ne_zero n), ite_self, List.drop_drop,
        List.append_assoc]
      rfl

/-- Room beyond the row: a limit that the loop does not reach. -/
def Roomy (limit : Option Nat) (count : Nat) : Prop := ∀ n, limit = some n → count < n

/-- With room beyond the row, the loop goes on to where the row ends. -/
theorem toWideLoop_ends {limit : Option Nat} {state : MbState} (hvalid : state.Valid)
    {cursor : List UInt8} (hnul : 0 ∉ cursor) {cs : List Char} {stuck : List UInt8}
    (h : Split state.pending cursor cs stuck) (converted : List Int)
    (hroom : Roomy limit (converted.length + cs.length)) :
    toWideLoop limit state cursor converted =
      ⟨if stuck = [] then .terminator else .invalid, converted ++ wides cs,
        cursor.drop (past state.pending cs), .new⟩ := by
  induction cs generalizing state cursor converted with
  | nil =>
    have hlimit : limit ≠ some converted.length := fun heq =>
      absurd (hroom _ heq) (Nat.lt_irrefl _)
    have heq : state.pending ++ cursor = stuck := h.eq
    rw [past_nil, List.drop_zero]
    simp only [wides, List.map_nil, List.append_nil]
    by_cases hnil : stuck = []
    · rw [if_pos hnil]
      rw [hnil, List.append_eq_nil_iff] at heq
      rw [hvalid.eq_new heq.1, heq.2, toWideLoop_terminator hlimit]
    · rw [if_neg hnil, toWideLoop_stuck hvalid (heq ▸ h.stuck) (heq ▸ hnil) hlimit]
  | cons c cs ih =>
    have hlonger := (readWide_char hvalid hnul h).1
    have hlimit : limit ≠ some converted.length := by
      intro heq
      have hlt := hroom _ heq
      omega
    have hmore : Roomy limit ((converted ++ wides [c]).length + cs.length) := by
      intro n heq
      have hlt := hroom n heq
      rw [List.length_cons] at hlt
      rw [List.length_append, wides_length, List.length_singleton]
      omega
    have hrest := ih MbState.new_valid (drop_nul hnul _) (h.next hlonger) _ hmore
    rw [toWideLoop_char hvalid hnul h hlimit, hrest, past_cons _ hlonger, List.drop_drop,
      List.append_assoc]
    rfl

/-! ## The loops of `wcstombs` and `wcsrtombs` -/

/-- A wide string, cut where its first element that is no scalar value stands. -/
structure WideSplit (units : List Int) (cs : List Char) (bad : List Int) : Prop where
  eq : units = wides cs ++ bad
  bad : ∀ wide rest, bad = wide :: rest → ∀ c : Char, wide ≠ c.toNat

theorem exists_wideSplit (units : List Int) : ∃ cs bad, WideSplit units cs bad := by
  induction units with
  | nil => exact ⟨[], [], rfl, fun wide rest h => absurd h (List.cons_ne_nil _ _).symm⟩
  | cons wide units ih =>
    by_cases hscalar : ∃ c : Char, wide = c.toNat
    · obtain ⟨c, hc⟩ := hscalar
      obtain ⟨cs, bad, heq, hbad⟩ := ih
      refine ⟨c :: cs, bad, ?_, hbad⟩
      rw [heq, hc]
      rfl
    · refine ⟨[], wide :: units, rfl, ?_⟩
      intro w rest h c hw
      rw [List.cons.injEq] at h
      exact hscalar ⟨c, h.1.trans hw⟩

theorem overflows_iff {limit : Option Nat} {count : Nat} :
    overflows limit count = true ↔ ∃ n, limit = some n ∧ n < count := by
  unfold overflows
  rw [Option.any_eq_true]
  simp only [decide_eq_true_eq]

theorem overflows_mono {limit : Option Nat} {count more : Nat} (hle : count ≤ more)
    (h : overflows limit more = false) : overflows limit count = false := by
  rw [Bool.eq_false_iff, ne_eq, overflows_iff] at h ⊢
  rintro ⟨n, hn, hlt⟩
  exact h ⟨n, hn, by omega⟩

section

variable {limit : Option Nat} {bad : List Int} {produced : List UInt8}

theorem wcsrtombsLoop_char {c : Char} (cs : List Char)
    (hfits : overflows limit (produced.length + (encode c).length) = false) :
    wcsrtombsLoop limit (wides (c :: cs) ++ bad) produced =
      wcsrtombsLoop limit (wides cs ++ bad) (produced ++ encode c) := by
  obtain ⟨bytes, hencode, htake⟩ := encodeUtf8Scalar_char c
  change wcsrtombsLoop limit ((c.toNat : Int) :: (wides cs ++ bad)) produced = _
  rw [wcsrtombsLoop, hencode]
  dsimp only
  rw [hfits, htake, if_neg (by decide)]

theorem wcsrtombsLoop_overflow {c : Char} (cs : List Char)
    (hfull : overflows limit (produced.length + (encode c).length) = true) :
    wcsrtombsLoop limit (wides (c :: cs) ++ bad) produced =
      ⟨.full, produced, wides (c :: cs) ++ bad⟩ := by
  obtain ⟨bytes, hencode, htake⟩ := encodeUtf8Scalar_char c
  change wcsrtombsLoop limit ((c.toNat : Int) :: (wides cs ++ bad)) produced = _
  rw [wcsrtombsLoop, hencode]
  dsimp only
  rw [hfull, if_pos rfl]
  rfl

theorem wcstombsLoop_full (cursor : List Int) (produced : List UInt8) :
    wcstombsLoop (some produced.length) cursor produced = ⟨.full, produced, cursor⟩ := by
  cases cursor with
  | nil => rw [wcstombsLoop, if_pos rfl]
  | cons wide rest => rw [wcstombsLoop, if_pos rfl]

theorem wcstombsLoop_char {c : Char} (cs : List Char) (hroom : limit ≠ some produced.length)
    (hfits : overflows limit (produced.length + (encode c).length) = false) :
    wcstombsLoop limit (wides (c :: cs) ++ bad) produced =
      wcstombsLoop limit (wides cs ++ bad) (produced ++ encode c) := by
  obtain ⟨bytes, hencode, htake⟩ := encodeUtf8Scalar_char c
  change wcstombsLoop limit ((c.toNat : Int) :: (wides cs ++ bad)) produced = _
  rw [wcstombsLoop, if_neg hroom, hencode]
  dsimp only
  rw [hfits, htake, if_neg (by decide)]

/-- Behind the row: the terminator, or an element that is refused. -/
theorem wcsrtombsLoop_end (hbad : ∀ wide rest, bad = wide :: rest → ∀ c : Char, wide ≠ c.toNat) :
    wcsrtombsLoop limit bad produced =
      ⟨if bad = [] then .terminator else .invalid, produced, bad⟩ := by
  cases bad with
  | nil =>
    rw [wcsrtombsLoop, if_pos rfl]
  | cons wide rest =>
    rw [wcsrtombsLoop, encodeUtf8Scalar_none (hbad wide rest rfl), if_neg (List.cons_ne_nil _ _)]

theorem wcstombsLoop_end (hroom : limit ≠ some produced.length)
    (hbad : ∀ wide rest, bad = wide :: rest → ∀ c : Char, wide ≠ c.toNat) :
    wcstombsLoop limit bad produced =
      ⟨if bad = [] then .terminator else .invalid, produced, bad⟩ := by
  cases bad with
  | nil =>
    rw [wcstombsLoop, if_neg hroom, if_pos rfl]
  | cons wide rest =>
    rw [wcstombsLoop, if_neg hroom, encodeUtf8Scalar_none (hbad wide rest rfl),
      if_neg (List.cons_ne_nil _ _)]

/-- With room for the row, the loop goes on to where the row ends. -/
theorem wcsrtombsLoop_ends (cs : List Char)
    (hbad : ∀ wide rest, bad = wide :: rest → ∀ c : Char, wide ≠ c.toNat)
    (hroom : overflows limit (produced.length + (cs.flatMap encode).length) = false) :
    wcsrtombsLoop limit (wides cs ++ bad) produced =
      ⟨if bad = [] then .terminator else .invalid, produced ++ cs.flatMap encode, bad⟩ := by
  induction cs generalizing produced with
  | nil =>
    rw [List.flatMap_nil, List.append_nil]
    exact wcsrtombsLoop_end hbad
  | cons c cs ih =>
    rw [List.flatMap_cons, List.length_append, ← Nat.add_assoc] at hroom
    rw [wcsrtombsLoop_char cs (overflows_mono (Nat.le_add_right _ _) hroom),
      ih (by rw [List.length_append]; exact hroom), List.flatMap_cons, List.append_assoc]

/-- With less room, the loop stops in front of the first character that does not fit. -/
theorem wcsrtombsLoop_fills {n : Nat} (cs : List Char) (hle : produced.length ≤ n)
    (hshort : n < produced.length + (cs.flatMap encode).length) :
    ∃ k, k < cs.length ∧
      wcsrtombsLoop (some n) (wides cs ++ bad) produced =
        ⟨.full, produced ++ (cs.take k).flatMap encode, wides (cs.drop k) ++ bad⟩ ∧
      n < produced.length + ((cs.take (k + 1)).flatMap encode).length := by
  induction cs generalizing produced with
  | nil =>
    rw [List.flatMap_nil, List.length_nil] at hshort
    omega
  | cons c cs ih =>
    by_cases hfull : overflows (some n) (produced.length + (encode c).length) = true
    · refine ⟨0, Nat.succ_pos _, ?_, ?_⟩
      · rw [wcsrtombsLoop_overflow cs hfull, List.take_zero, List.flatMap_nil, List.append_nil]
        rfl
      · obtain ⟨m, hm, hlt⟩ := overflows_iff.mp hfull
        rw [Option.some.injEq] at hm
        rw [List.take_succ_cons, List.take_zero, List.flatMap_cons, List.flatMap_nil,
          List.append_nil]
        omega
    · rw [Bool.not_eq_true] at hfull
      have hfits : produced.length + (encode c).length ≤ n := by
        rw [Bool.eq_false_iff, ne_eq, overflows_iff] at hfull
        exact Nat.le_of_not_lt fun hlt => hfull ⟨n, rfl, hlt⟩
      rw [List.flatMap_cons, List.length_append] at hshort
      obtain ⟨k, hk, hloop, hnext⟩ := @ih (produced ++ encode c)
        (by rw [List.length_append]; exact hfits) (by rw [List.length_append]; omega)
      refine ⟨k + 1, Nat.succ_lt_succ hk, ?_, ?_⟩
      · rw [wcsrtombsLoop_char cs hfull, hloop, List.take_succ_cons, List.flatMap_cons,
          List.append_assoc]
        rfl
      · rw [List.take_succ_cons, List.flatMap_cons, List.length_append]
        rw [List.length_append] at hnext
        omega

/-- `wcstombs` with room beyond the row. -/
theorem wcstombsLoop_ends (cs : List Char)
    (hbad : ∀ wide rest, bad = wide :: rest → ∀ c : Char, wide ≠ c.toNat)
    (hroom : Roomy limit (produced.length + (cs.flatMap encode).length)) :
    wcstombsLoop limit (wides cs ++ bad) produced =
      ⟨if bad = [] then .terminator else .invalid, produced ++ cs.flatMap encode, bad⟩ := by
  induction cs generalizing produced with
  | nil =>
    rw [List.flatMap_nil, List.append_nil]
    refine wcstombsLoop_end ?_ hbad
    intro heq
    exact absurd (hroom _ heq) (Nat.lt_irrefl _)
  | cons c cs ih =>
    rw [List.flatMap_cons, List.length_append, ← Nat.add_assoc] at hroom
    have hlimit : limit ≠ some produced.length := by
      intro heq
      have hlt := hroom _ heq
      omega
    have hfits : overflows limit (produced.length + (encode c).length) = false := by
      rw [Bool.eq_false_iff, ne_eq, overflows_iff]
      rintro ⟨n, hn, hlt⟩
      have hroom' := hroom n hn
      omega
    rw [wcstombsLoop_char cs hlimit hfits, ih (by rw [List.length_append]; exact hroom),
      List.flatMap_cons, List.append_assoc]

/-- `wcstombs` with room for exactly the row. -/
theorem wcstombsLoop_exact (cs : List Char) :
    wcstombsLoop (some (produced.length + (cs.flatMap encode).length)) (wides cs ++ bad) produced =
      ⟨.full, produced ++ cs.flatMap encode, bad⟩ := by
  induction cs generalizing produced with
  | nil =>
    rw [List.flatMap_nil, List.append_nil, List.length_nil, Nat.add_zero]
    exact wcstombsLoop_full bad produced
  | cons c cs ih =>
    have hpos := List.length_pos_iff.mpr (encode_ne_nil c)
    rw [List.flatMap_cons, List.length_append, ← Nat.add_assoc]
    have hlimit : some (produced.length + (encode c).length + (cs.flatMap encode).length) ≠
        some produced.length := by
      simp only [ne_eq, Option.some.injEq]
      omega
    have hfits : overflows (some (produced.length + (encode c).length +
        (cs.flatMap encode).length)) (produced.length + (encode c).length) = false := by
      rw [Bool.eq_false_iff, ne_eq, overflows_iff]
      rintro ⟨n, hn, hlt⟩
      rw [Option.some.injEq] at hn
      omega
    have hrest := @ih (produced ++ encode c)
    rw [List.length_append] at hrest
    rw [wcstombsLoop_char cs hlimit hfits, hrest, List.append_assoc]

end

end Rlibc.Wchar
