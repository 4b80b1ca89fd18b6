import Rlibc.Wchar.Mbrtowc

/-!
# Restartable decoding does not see chunk borders

`decodeChunks` is the caller's loop: it feeds chunk after chunk to `mbrtowc` with one conversion
state.  `feedBytes` is the abstract decoder that takes one byte at a time.  A chunk is decoded
as its bytes are (`decodeChunk_eq_feedBytes`), and `feedBytes` is a fold, so how a string is cut
into chunks cannot matter.
-/

namespace Rlibc.Wchar

/-- Why decoding stops before the input is used up. -/
inductive StopKind where
  | invalid
  | nul
  deriving DecidableEq, Repr

/-- How a chunk ends: decoding goes on with the next chunk from a state, or it has stopped. -/
inductive ChunkEnd where
  | more (state : MbState)
  | stop (kind : StopKind)
  deriving DecidableEq, Repr

/-- The caller's loop over one chunk: the wide characters, and how the chunk ends. -/
def decodeChunk (state : MbState) (chunk : List UInt8) : List Int × ChunkEnd :=
  let r := mbrtowcWithState state (some chunk)
  if r.ret = mbrErrInvalid then ([], .stop .invalid)
  else if r.ret = mbrErrIncomplete then ([], .more r.state)
  else if r.ret = 0 then (r.wide.toList, .stop .nul)
  else
    let d := decodeChunk r.state (chunk.drop r.ret)
    (r.wide.toList ++ d.1, d.2)
termination_by chunk.length
decreasing_by
  rename_i hinvalid hincomplete hnul
  rw [List.length_drop]
  cases chunk with
  | nil => exact absurd (mbrtowcWithState_nil state) (not_or.mpr ⟨hinvalid, hincomplete⟩)
  | cons byte rest =>
    rw [List.length_cons]
    exact Nat.sub_lt (Nat.succ_pos _) (Nat.pos_of_ne_zero hnul)

/-- The caller's loop over the chunks of a string. -/
def decodeChunks (state : MbState) : List (List UInt8) → List Int × ChunkEnd
  | [] => ([], .more state)
  | chunk :: chunks =>
    let d := decodeChunk state chunk
    match d.2 with
    | .stop kind => (d.1, .stop kind)
    | .more state' =>
      let e := decodeChunks state' chunks
      (d.1 ++ e.1, e.2)

/-- The same loop, one byte at a time. -/
def feedBytes (state : MbState) : List UInt8 → List Int × ChunkEnd
  | [] => ([], .more state)
  | byte :: rest =>
    let r := mbrtowcWithState state (some [byte])
    if r.ret = mbrErrInvalid then ([], .stop .invalid)
    else if r.ret = mbrErrIncomplete then feedBytes r.state rest
    else if r.ret = 0 then (r.wide.toList, .stop .nul)
    else
      let d := feedBytes r.state rest
      (r.wide.toList ++ d.1, d.2)

/-! ## One call, byte by byte -/

/-- The result of a call as the caller of a call one byte earlier would see it. -/
def MbrtowcResult.oneLater (r : MbrtowcResult) : MbrtowcResult :=
  if r.ret = mbrErrInvalid ∨ r.ret = mbrErrIncomplete ∨ r.ret = 0 then r
  else { r with ret := r.ret + 1 }

theorem finishPending_shift (q : Pending) (hc : q.consumed ≤ 4) (hpos : 0 < q.consumed) :
    finishPending (q.shift 1) = (finishPending q).oneLater := by
  unfold finishPending Pending.shift
  dsimp only
  split
  · rfl
  · cases decodeUtf8Scalar q.bytes q.expectedLen with
    | none => rfl
    | some scalar =>
      dsimp only
      by_cases hs : scalar = 0
      · rw [if_pos hs, if_pos hs]
        rfl
      · rw [if_neg hs, if_neg hs]
        unfold MbrtowcResult.oneLater
        rw [if_neg]
        dsimp only
        unfold mbrErrIncomplete mbrErrInvalid usizeMax
        omega

/-- **Resumption.**  When one byte leaves a partial sequence, reading on in the same call gives
what a second call on the stored state gives. -/
theorem mbrtowcWithState_resume {state : MbState} {p q : Pending} {byte : UInt8}
    (hload : loadPending state = some p) (hq : acceptByte p byte = .ok q)
    (hpart : partialPrefixIsValid q.bytes q.bufferedLen q.expectedLen = true)
    (rest : List UInt8) (hrest : rest ≠ []) :
    mbrtowcWithState state (some (byte :: rest)) =
      (mbrtowcWithState (.setPartial q.bytes q.bufferedLen q.expectedLen) (some rest)).oneLater := by
  have hopen := loadPending_open hload
  have hok := acceptByte_ok hopen.1 hq
  have hbounds := partialPrefixIsValid_bounds hpart
  have hload' : loadPending (.setPartial q.bytes q.bufferedLen q.expectedLen) = some q.restart :=
    MbState.loadPending_setPartial hpart
  have hopen' : q.restart.Open := Or.inr hpart
  have hshift : q = q.restart.shift 1 := by
    cases q
    simp only [Pending.shift, Pending.restart, Pending.mk.injEq, true_and]
    simp only at hok
    omega
  cases rest with
  | nil => exact absurd rfl hrest
  | cons byte' rest =>
    rw [mbrtowcWithState_cons hload, mbrtowcWithState_cons hload', hq]
    have hdecode : decodeLoop q (byte' :: rest) = decodeLoop (q.restart.shift 1) (byte' :: rest) :=
      congrArg (decodeLoop · (byte' :: rest)) hshift
    dsimp only
    rw [hdecode, decodeLoop_shift, decodeLoop_cons hopen']
    cases hacc : acceptByte q.restart byte' with
    | error consumed => rfl
    | ok r =>
      dsimp only
      -- The second call has read its first byte, so it consumes something.
      have hr := acceptByte_ok hopen' hacc
      have hlen : r.bufferedLen ≤ 4 ∧ r.consumed ≤ r.bufferedLen ∧ 0 < r.consumed := by
        have hc : q.restart.consumed = 0 := rfl
        have hl : q.restart.bufferedLen = q.bufferedLen := rfl
        omega
      cases hloop : decodeLoop r rest with
      | error consumed => rfl
      | ok r' =>
        have hmono := decodeLoop_consumed hloop hlen.2.1 hlen.1
        exact finishPending_shift r' (by omega) (by omega)

/-! ## A chunk is decoded as its bytes are -/

/-- The caller's loop, after a call whose result it has looked at. -/
def afterCall (r : MbrtowcResult) (more char : List Int × ChunkEnd) : List Int × ChunkEnd :=
  if r.ret = mbrErrInvalid then ([], .stop .invalid)
  else if r.ret = mbrErrIncomplete then more
  else if r.ret = 0 then (r.wide.toList, .stop .nul)
  else (r.wide.toList ++ char.1, char.2)

theorem decodeChunk_eq (state : MbState) (chunk : List UInt8) :
    decodeChunk state chunk =
      let r := mbrtowcWithState state (some chunk)
      afterCall r ([], .more r.state) (decodeChunk r.state (chunk.drop r.ret)) := by
  rw [decodeChunk]
  rfl

theorem feedBytes_cons (state : MbState) (byte : UInt8) (rest : List UInt8) :
    feedBytes state (byte :: rest) =
      let r := mbrtowcWithState state (some [byte])
      afterCall r (feedBytes r.state rest) (feedBytes r.state rest) := by
  rw [feedBytes]
  rfl

/-- Where one byte leaves a partial sequence, the rest of the chunk is decoded from there. -/
theorem decodeChunk_of_incomplete {state : MbState} {p q : Pending} {byte : UInt8}
    (hload : loadPending state = some p) (hq : acceptByte p byte = .ok q)
    (hpart : partialPrefixIsValid q.bytes q.bufferedLen q.expectedLen = true)
    (rest : List UInt8) :
    decodeChunk state (byte :: rest) =
      decodeChunk (.setPartial q.bytes q.bufferedLen q.expectedLen) rest := by
  by_cases hrest : rest = []
  · subst hrest
    rw [decodeChunk_eq state, mbrtowcWithState_incomplete hload hq hpart, decodeChunk_eq,
      mbrtowcWithState_empty (MbState.setPartial_valid hpart)]
    rfl
  · rw [decodeChunk_eq state, decodeChunk_eq (.setPartial _ _ _),
      mbrtowcWithState_resume hload hq hpart rest hrest]
    have hret := mbrtowcWithState_ret (.setPartial q.bytes q.bufferedLen q.expectedLen) rest
    generalize mbrtowcWithState (.setPartial q.bytes q.bufferedLen q.expectedLen) (some rest) = r
      at hret ⊢
    unfold MbrtowcResult.oneLater
    by_cases hstop : r.ret = mbrErrInvalid ∨ r.ret = mbrErrIncomplete ∨ r.ret = 0
    · simp only [if_pos hstop]
      unfold afterCall
      split_ifs with h1 h2 h3
      · rfl
      · rfl
      · rfl
      · omega
    · simp only [if_neg hstop]
      have hle : r.ret ≤ 4 := by omega
      unfold afterCall
      rw [if_neg (by dsimp only [mbrErrInvalid, usizeMax]; omega),
        if_neg (by dsimp only [mbrErrIncomplete, usizeMax]; omega), if_neg (by dsimp only; omega),
        if_neg (by omega), if_neg (by omega), if_neg (by omega), List.drop_succ_cons]

/-- A chunk read in one call after another is decoded as its bytes are. -/
theorem decodeChunk_eq_feedBytes {state : MbState} (hvalid : state.Valid) (chunk : List UInt8) :
    decodeChunk state chunk = feedBytes state chunk := by
  induction chunk generalizing state with
  | nil =>
    rw [decodeChunk_eq, mbrtowcWithState_empty hvalid]
    rfl
  | cons byte rest ih =>
    have hload := Option.isSome_iff_exists.mp hvalid
    obtain ⟨p, hp⟩ := hload
    rw [feedBytes_cons]
    cases hacc : acceptByte p byte with
    | error consumed =>
      rw [decodeChunk_eq, mbrtowcWithState_cons hp, mbrtowcWithState_cons hp, hacc]
      rfl
    | ok q =>
      have hok := acceptByte_ok (loadPending_open hp).1 hacc
      cases hok.2.2 with
      | inr hpart =>
        rw [decodeChunk_of_incomplete hp hacc hpart, mbrtowcWithState_incomplete hp hacc hpart,
          ih (MbState.setPartial_valid hpart)]
        rfl
      | inl hfull =>
        -- The sequence is complete, so the rest of the chunk is not looked at.
        have hcall : ∀ bytes, mbrtowcWithState state (some (byte :: bytes)) = finishPending q := by
          intro bytes
          rw [mbrtowcWithState_cons hp, hacc]
          dsimp only
          rw [decodeLoop_complete hfull]
        have hone : q.consumed = 1 := by
          have hz := (loadPending_open hp).2
          omega
        rw [decodeChunk_eq, hcall, hcall]
        unfold finishPending
        rw [if_neg (by omega)]
        cases decodeUtf8Scalar q.bytes q.expectedLen with
        | none => rfl
        | some scalar =>
          dsimp only
          by_cases hs : scalar = 0
          · rw [if_pos hs]
            rfl
          · rw [if_neg hs, hone, List.drop_succ_cons, List.drop_zero, ih MbState.new_valid]
            rfl

/-! ## Cutting a string -/

/-- A state from which decoding goes on is one that the next call accepts. -/
theorem feedBytes_valid {state state' : MbState} (hvalid : state.Valid) {bytes : List UInt8}
    (h : (feedBytes state bytes).2 = .more state') : state'.Valid := by
  induction bytes generalizing state with
  | nil =>
    simp only [feedBytes, ChunkEnd.more.injEq] at h
    exact h ▸ hvalid
  | cons byte rest ih =>
    obtain ⟨p, hp⟩ := Option.isSome_iff_exists.mp hvalid
    have hnext := mbrtowcWithState_one_valid hvalid byte
    rw [feedBytes_cons] at h
    unfold afterCall at h
    dsimp only at h
    split_ifs at h
    · exact ih hnext h
    · exact ih hnext h

theorem feedBytes_append {state : MbState} (xs ys : List UInt8) :
    feedBytes state (xs ++ ys) =
      match (feedBytes state xs).2 with
      | .stop kind => ((feedBytes state xs).1, .stop kind)
      | .more state' =>
        ((feedBytes state xs).1 ++ (feedBytes state' ys).1, (feedBytes state' ys).2) := by
  induction xs generalizing state with
  | nil => rfl
  | cons byte rest ih =>
    rw [List.cons_append, feedBytes_cons, feedBytes_cons]
    dsimp only
    rw [ih]
    unfold afterCall
    split_ifs
    · rfl
    · rfl
    · rfl
    · dsimp only
      cases (feedBytes (mbrtowcWithState state (some [byte])).state rest).2 with
      | stop kind => rfl
      | more state' => simp only [List.append_assoc]

theorem decodeChunks_eq_feedBytes {state : MbState} (hvalid : state.Valid)
    (chunks : List (List UInt8)) : decodeChunks state chunks = feedBytes state chunks.flatten := by
  induction chunks generalizing state with
  | nil => rfl
  | cons chunk chunks ih =>
    rw [decodeChunks, List.flatten_cons, feedBytes_append, decodeChunk_eq_feedBytes hvalid]
    dsimp only
    cases hend : (feedBytes state chunk).2 with
    | stop kind => rfl
    | more state' =>
      dsimp only
      rw [ih (feedBytes_valid hvalid hend)]

/-- **Chunk invariance.**  However a byte string is cut into consecutive chunks, decoding it
from the initial state yields the same wide characters and ends in the same way, in the same
state, as decoding it in one piece. -/
theorem decodeChunks_chunk_invariant (chunks : List (List UInt8)) :
    decodeChunks .new chunks = decodeChunks .new [chunks.flatten] := by
  rw [decodeChunks_eq_feedBytes MbState.new_valid, decodeChunks_eq_feedBytes MbState.new_valid]
  simp only [List.flatten_cons, List.flatten_nil, List.append_nil]

end Rlibc.Wchar
