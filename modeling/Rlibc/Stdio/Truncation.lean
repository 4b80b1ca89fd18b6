import Rlibc.Stdio.Footprint
import Rlibc.Stdio.LengthSums

/-!
# Truncation

The sink of `vsnprintf` keeps as much of the output as its capacity leaves, and counts all of it.
With a destination that is apart from what the formatting touches, a call leaves the beginning of
the whole output there and replies with the length of it.
-/

namespace Rlibc.Stdio

open ByteMem ByteOrder

theorem Piece.text_length (m : Mem) (piece : Piece) : (piece.text m).length = piece.length := by
  cases piece with
  | repeated byte count => exact List.length_replicate
  | bytes text => rfl
  | slice address length => exact bytesAt_length m address length

/-- Writing the first bytes of a piece is writing the beginning of its text. -/
theorem Piece.write_eq (m : Mem) {target count : Nat} {piece : Piece} (h : count ≤ piece.length) :
    piece.write m target count = writeBytes m target ((piece.text m).take count) := by
  cases piece with
  | repeated byte n =>
    change count ≤ n at h
    change fill m target count byte = writeBytes m target ((List.replicate n byte).take count)
    rw [fill_eq_writeBytes, List.take_replicate, Nat.min_eq_left h]
  | bytes text => rfl
  | slice address n =>
    change count ≤ n at h
    change copy m address target count = writeBytes m target ((bytesAt m address n).take count)
    rw [copy_eq_writeBytes, bytesAt_take m address h]

/-- A sink that takes no more bytes counts them still. -/
theorem push_counted (m : Mem) {s n written : Nat} (required : Nat) {piece : Piece}
    (h : (piece.length = 0 ∨ n = 0 ∨ s = 0) ∨ n - 1 ≤ written) :
    OutputSink.push m ⟨s, n, written, required⟩ piece =
      (m, ⟨s, n, written, saturatingAdd required piece.length⟩) := by
  unfold OutputSink.push
  dsimp only
  by_cases hskip : piece.length = 0 ∨ n = 0 ∨ s = 0
  · exact if_pos hskip
  · exact (if_neg hskip).trans (if_pos (h.resolve_left hskip))

theorem push_written (m : Mem) {s n written : Nat} (required : Nat) {piece : Piece}
    (hskip : ¬(piece.length = 0 ∨ n = 0 ∨ s = 0)) (hroom : written < n - 1) :
    OutputSink.push m ⟨s, n, written, required⟩ piece =
      (piece.write m (s + written) (min piece.length (n - 1 - written)),
        ⟨s, n, written + min piece.length (n - 1 - written),
          saturatingAdd required piece.length⟩) := by
  unfold OutputSink.push
  dsimp only
  rw [if_neg hskip, if_neg (Nat.not_le.mpr hroom)]

/-- The sink of a call holds the beginning of what the recorder holds. -/
structure Mirrors (s n : Nat) (st : FormatState OutputSink) (st' : FormatState (List UInt8)) :
    Prop where
  cursor : st.cursor = st'.cursor
  mem : st.mem = writeBytes st'.mem s (st'.sink.take (n - 1))
  sink : st.sink = ⟨s, n, (st'.sink.take (n - 1)).length, min st'.sink.length usizeMax⟩

namespace Mirrors

section

variable {s n : Nat} {st : FormatState OutputSink} {st' : FormatState (List UInt8)}

/-- The memories differ within the destination only. -/
theorem outside (h : Mirrors s n st st') {b : Nat} (hb : b < s ∨ s + n ≤ b) :
    st.mem b = st'.mem b := by
  rw [h.mem]
  apply writeBytes_outside
  have hle : (st'.sink.take (n - 1)).length ≤ n - 1 := List.length_take_le _ _
  omega

theorem push (h : Mirrors s n st st') (hvalid : n = 0 ∨ s ≠ 0) {piece : Piece}
    (hapart : ∀ b, piece.reads b → b < s ∨ s + n ≤ b) :
    Mirrors s n (pushPiece outputSink st piece) (pushPiece recorder st' piece) := by
  have htext : piece.text st.mem = piece.text st'.mem :=
    Piece.text_congr fun b hb => h.outside (hapart b hb)
  have hlength : (piece.text st'.mem).length = piece.length := Piece.text_length _ _
  have hcount : saturatingAdd (min st'.sink.length usizeMax) piece.length =
      min (st'.sink ++ piece.text st'.mem).length usizeMax := by
    rw [List.length_append, hlength]
    unfold saturatingAdd
    omega
  have hmem := h.mem
  obtain ⟨m, c, sink⟩ := st
  obtain rfl := h.sink
  obtain rfl := h.cursor
  by_cases hkept : (piece.length = 0 ∨ n = 0 ∨ s = 0) ∨ n - 1 ≤ (st'.sink.take (n - 1)).length
  · have hsame : (st'.sink ++ piece.text st'.mem).take (n - 1) = st'.sink.take (n - 1) := by
      by_cases hempty : piece.length = 0
      · rw [List.eq_nil_of_length_eq_zero (hlength.trans hempty), List.append_nil]
      · apply List.take_append_of_le_length
        rw [List.length_take] at hkept
        omega
    have hpush := push_counted m (min st'.sink.length usizeMax) hkept
    rw [hcount] at hpush
    constructor
    · rfl
    · change (OutputSink.push m _ piece).1 = writeBytes st'.mem s
        ((st'.sink ++ piece.text st'.mem).take (n - 1))
      rw [hpush, hsame]
      exact hmem
    · change (OutputSink.push m _ piece).2 = ⟨s, n,
        ((st'.sink ++ piece.text st'.mem).take (n - 1)).length, _⟩
      rw [hpush, hsame]
      rfl
  · rw [not_or, Nat.not_le] at hkept
    obtain ⟨hskip, hroom⟩ := hkept
    have hall : st'.sink.take (n - 1) = st'.sink := by
      rw [List.length_take] at hroom
      apply List.take_of_length_le
      omega
    rw [hall] at hroom hmem
    -- The output so far is shorter than what the sink holds, and this piece is cut off, if any.
    have hlonger : (st'.sink ++ piece.text st'.mem).take (n - 1) = st'.sink ++
        (piece.text st'.mem).take (min piece.length (n - 1 - st'.sink.length)) := by
      rw [List.take_append, List.take_of_length_le (Nat.le_of_lt hroom), ← hlength,
        Nat.min_comm, ← List.take_eq_take_min]
    have hwritten : (st'.sink ++ (piece.text st'.mem).take
        (min piece.length (n - 1 - st'.sink.length))).length =
          st'.sink.length + min piece.length (n - 1 - st'.sink.length) := by
      rw [List.length_append, List.length_take, hlength, Nat.min_eq_left (Nat.min_le_left _ _)]
    have hpush := push_written m (min st'.sink.length usizeMax) hskip hroom
    rw [hcount, Piece.write_eq m (Nat.min_le_left _ _)] at hpush
    change piece.text m = _ at htext
    rw [htext] at hpush
    constructor
    · rfl
    · change (OutputSink.push m ⟨s, n, (st'.sink.take (n - 1)).length, _⟩ piece).1 =
        writeBytes st'.mem s ((st'.sink ++ piece.text st'.mem).take (n - 1))
      rw [hall, hpush, hlonger, ← writeBytes_append, ← hmem]
    · change (OutputSink.push m ⟨s, n, (st'.sink.take (n - 1)).length, _⟩ piece).2 =
        ⟨s, n, ((st'.sink ++ piece.text st'.mem).take (n - 1)).length, _⟩
      rw [hall, hpush, hlonger, hwritten]
      rfl

/-- A count that is stored apart from the destination is stored in both memories. -/
theorem count (h : Mirrors s n st st') (c : VarArgCursor) {pointer size : Nat}
    (hapart : ∀ b, pointer ≤ b ∧ b < pointer + size → b < s ∨ s + n ≤ b) (v : Nat) :
    Mirrors s n { st with mem := storeNat st.mem size pointer v, cursor := c }
      { st' with mem := storeNat st'.mem size pointer v, cursor := c } := by
  constructor
  · rfl
  · change storeNat st.mem size pointer v =
      writeBytes (storeNat st'.mem size pointer v) s (st'.sink.take (n - 1))
    rw [h.mem, storeNat_eq_writeBytes, storeNat_eq_writeBytes]
    by_cases hzero : n = 0 ∨ size = 0
    · rcases hzero with rfl | rfl
      · rfl
      · rfl
    · apply writeBytes_comm
      rw [leBytes_length, List.length_take]
      have hfirst := hapart pointer ⟨Nat.le_refl _, by omega⟩
      by_cases hinside : pointer ≤ s ∧ s < pointer + size
      · have hs := hapart s hinside
        omega
      · omega
  · exact h.sink

theorem required (h : Mirrors s n st st') :
    outputSink.required st.sink = recorder.required st'.sink := by
  change st.sink.bytesRequired = min st'.sink.length usizeMax
  rw [h.sink]

theorem pushAll (h : Mirrors s n st st') (hvalid : n = 0 ∨ s ≠ 0) {pieces : List Piece}
    (hapart : ∀ piece ∈ pieces, ∀ b, piece.reads b → b < s ∨ s + n ≤ b) :
    Mirrors s n (pushPieces outputSink st pieces) (pushPieces recorder st' pieces) := by
  unfold pushPieces
  induction pieces generalizing st st' with
  | nil => exact h
  | cons piece pieces ih =>
    exact ih (h.push hvalid (hapart piece List.mem_cons_self))
      fun p hp => hapart p (List.mem_cons_of_mem piece hp)

/-- A directive does the same to both, if the destination is apart from what it touches. -/
theorem directive (h : Mirrors s n st st') (hvalid : n = 0 ∨ s ≠ 0) {d : FormatDirective}
    {tokens : List Token}
    (hreads : ∀ b, runReads st' (.directive d :: tokens) b → b < s ∨ s + n ≤ b)
    (hstores : ∀ b, runStores st' (.directive d :: tokens) b → b < s ∨ s + n ≤ b) :
    Agree (fun st st' => Mirrors s n st st' ∧ (∀ b, runReads st' tokens b → b < s ∨ s + n ≤ b) ∧
        ∀ b, runStores st' tokens b → b < s ∨ s + n ≤ b)
      (applyDirective outputSink st d) (applyDirective recorder st' d) := by
  have hread : ∀ b, directiveReads st'.mem st'.cursor d b → b < s ∨ s + n ≤ b :=
    fun b hb => hreads b (Or.inl hb)
  -- What the directive reads lies outside the buffer, so both runs read the same.
  rw [applyDirective_eq, applyDirective_eq, h.cursor,
    directiveAction_congr fun b hb => h.outside (hread b hb)]
  cases haction : directiveAction st'.mem st'.cursor d with
  | none => exact .error _
  | some r =>
    obtain ⟨action, c⟩ := r
    dsimp only
    have hnext : ∀ next, action.apply recorder st' c = .ok next →
        (∀ b, runReads next tokens b → b < s ∨ s + n ≤ b) ∧
          ∀ b, runStores next tokens b → b < s ∨ s + n ≤ b := by
      intro next happly
      have hstep : applyDirective recorder st' d = .ok next := by
        rw [applyDirective_eq, haction]
        exact happly
      exact ⟨fun b hb => hreads b (Or.inr ⟨next, hstep, hb⟩),
        fun b hb => hstores b (Or.inr ⟨next, hstep, hb⟩)⟩
    cases action with
    | render rendered =>
      -- Both sinks refuse the same lengths, as the bound does not depend on the room.
      by_cases hfits : fitsUsize rendered.lengthSum = true
      · have hout : (Action.render rendered).apply outputSink st c =
            .ok (pushPieces outputSink { st with cursor := c } rendered.pieces) := if_pos hfits
        have hrec : (Action.render rendered).apply recorder st' c =
            .ok (pushPieces recorder { st' with cursor := c } rendered.pieces) := if_pos hfits
        have hstart : Mirrors s n { st with cursor := c } { st' with cursor := c } :=
          ⟨rfl, h.mem, h.sink⟩
        rw [hout, hrec]
        refine .ok ⟨hstart.pushAll hvalid ?_, hnext _ hrec⟩
        intro piece hmem b hb
        exact hread b (directiveAction_reads haction hmem hb)
      · have hout : (Action.render rendered).apply outputSink st c = .error .overflow :=
          if_neg hfits
        have hrec : (Action.render rendered).apply recorder st' c = .error .overflow :=
          if_neg hfits
        rw [hout, hrec]
        exact .error _
    | count pointer size =>
      unfold Action.apply at hnext ⊢
      dsimp only at hnext ⊢
      rw [h.required]
      split
      · rename_i hfits
        refine .ok ⟨h.count c (fun b hb => ?_) _, hnext _ (if_pos hfits)⟩
        exact hstores b (Or.inl ⟨_, haction, hb⟩)
      · exact .error _

end

end Mirrors

/-! ## A whole call -/

/-- The destination is apart from what formatting reads and stores. -/
def Apart (m : Mem) (s n format ap : Nat) : Prop :=
  ∀ b, callReads m format ap b ∨ callStores m format ap b → b < s ∨ s + n ≤ b

/-- What a destination holds of an output: the beginning of it, and a NUL. -/
def deliver (m : Mem) (s n : Nat) (out : List UInt8) : Mem :=
  if n = 0 then m else writeBytes m s (out.take (n - 1) ++ [0])

/-- The reply that a call owes, when the whole output is known. -/
def truncatedReply (s n : Nat) (r : FormatState (List UInt8) × Option Failure) : Option Reply :=
  match r.2 with
  | none => some ⟨min r.1.sink.length cIntMax, deliver r.1.mem s n r.1.sink, none⟩
  | some .einval => some ⟨-1, deliver r.1.mem s n r.1.sink, some EINVAL⟩
  | some .overflow => none

theorem Mirrors.terminate {s n : Nat} {st : FormatState OutputSink}
    {st' : FormatState (List UInt8)} (h : Mirrors s n st st') (hvalid : n = 0 ∨ s ≠ 0) :
    st.sink.terminate st.mem = deliver st'.mem s n st'.sink := by
  have hle : (st'.sink.take (n - 1)).length ≤ n - 1 := List.length_take_le _ _
  rw [h.sink, h.mem]
  unfold OutputSink.terminate deliver
  dsimp only
  by_cases hzero : n = 0
  · rw [if_pos (Or.inl hzero), if_pos hzero, hzero]
    rfl
  · rw [if_neg (not_or.mpr ⟨hzero, hvalid.resolve_left hzero⟩), if_neg hzero,
      Nat.min_eq_left hle, ← writeBytes_append]
    rfl

/-- **A call replies with the whole length and delivers the beginning of the output.** -/
theorem vsnprintf_eq_truncated {m : Mem} {s n format ap : Nat} (hformat : format ≠ 0)
    (hvalid : n = 0 ∨ s ≠ 0) (hapart : Apart m s n format ap) :
    vsnprintf m s n format ap = truncatedReply s n (formatAll m format ap) := by
  have hinvalid : ¬(format = 0 ∨ n ≠ 0 ∧ s = 0) := by omega
  obtain ⟨hsame, left, hmirrors, -⟩ := runTokens_simulation outputSink recorder
    (fun tokens st st' => Mirrors s n st st' ∧ (∀ b, runReads st' tokens b → b < s ∨ s + n ≤ b) ∧
      ∀ b, runStores st' tokens b → b < s ∨ s + n ≤ b)
    (fun byte tokens st st' h => ⟨h.1.push hvalid (fun b hb => False.elim hb), h.2⟩)
    (fun d tokens st st' h => h.1.directive hvalid h.2.1 h.2.2)
    (formatTokens (cString m format)) ⟨m, .fromVaList m ap, ⟨s, n, 0, 0⟩⟩
    ⟨m, .fromVaList m ap, []⟩
    ⟨⟨rfl, by rw [List.take_nil]; rfl, by rw [List.take_nil]; rfl⟩,
      fun b hb => hapart b (Or.inl (Or.inr (Or.inr hb))), fun b hb => hapart b (Or.inr hb)⟩
  rw [vsnprintf_eq m hinvalid]
  unfold formatAll replyOf truncatedReply
  rw [formatLoop_eq, hsame, hmirrors.terminate hvalid, hmirrors.sink]
  generalize runTokens recorder ⟨m, .fromVaList m ap, []⟩ (formatTokens (cString m format)) = r
  have hvalue : requiredLenToCInt (min r.1.sink.length usizeMax) =
      min (r.1.sink.length : Int) cIntMax := by
    unfold requiredLenToCInt usizeMax cIntMax
    omega
  cases r.2 with
  | none =>
    dsimp only
    rw [hvalue]
  | some failure =>
    cases failure with
    | einval => rfl
    | overflow => rfl

end Rlibc.Stdio
