import Rlibc.Wchar.Mbrtowc
import Rlibc.Wchar.Utf8Tables

/-!
# What one `mbrtowc` call decides

The pending bytes of a state and the bytes of a call are one byte list.  The decoding loop stops
behind the first complete sequence, at the end of the input while a sequence is begun, or at the
first byte with which no sequence can go on.
-/

namespace Rlibc.Wchar

open Utf8Sequences

/-- The bytes that a state keeps from earlier calls. -/
def MbState.pending (state : MbState) : List UInt8 :=
  state.bytes.toList.take state.pendingLen.toNat

/-- The locals of a call hold the bytes `seen` of one sequence, padded with zeros. -/
structure Pending.Holds (p : Pending) (seen : List UInt8) : Prop where
  buffer : p.bytes.toList = seen ++ List.replicate (4 - seen.length) 0
  buffered : p.bufferedLen = seen.length
  expected : p.expectedLen = leadLen seen

namespace Pending.Holds

variable {p : Pending} {seen : List UInt8}

theorem length_le (h : p.Holds seen) : seen.length ≤ 4 := by
  have hlen := congrArg List.length h.buffer
  rw [Vector.length_toList, List.length_append] at hlen
  change 4 = _ at hlen
  omega

theorem take (h : p.Holds seen) : p.bytes.toList.take p.bufferedLen = seen := by
  rw [h.buffer, h.buffered, List.take_left]

/-- The source's test of the stored bytes is that a sequence is begun. -/
theorem partial_iff (h : p.Holds seen) :
    partialPrefixIsValid p.bytes p.bufferedLen p.expectedLen = true ↔ Started seen := by
  rw [partialPrefixIsValid_iff, h.take, h.expected]
  constructor
  · exact fun hs => hs.1
  · intro hs
    refine ⟨hs, rfl, ?_⟩
    intro b hb
    rw [h.buffer, h.buffered, List.drop_left] at hb
    exact List.eq_of_mem_replicate hb

/-- The locals of a call are open while no sequence is complete. -/
theorem isOpen (h : p.Holds seen) (hseen : seen = [] ∨ Started seen) : p.Open := by
  cases hseen with
  | inl hnil =>
    subst hnil
    exact Or.inl ⟨h.buffered, h.expected⟩
  | inr hs => exact Or.inr (h.partial_iff.mpr hs)

/-- The buffer with one more byte. -/
theorem push (h : p.Holds seen) (byte : UInt8) (hlt : seen.length < 4) (consumed : Nat) :
    Pending.Holds ⟨p.bytes.setIfInBounds p.bufferedLen byte, p.bufferedLen + 1,
      leadLen (seen ++ [byte]), consumed⟩ (seen ++ [byte]) := by
  refine ⟨?_, ?_, rfl⟩
  · change (p.bytes.setIfInBounds p.bufferedLen byte).toList = _
    have hroom : 4 - seen.length = 4 - (seen ++ [byte]).length + 1 := by
      rw [List.length_append, List.length_singleton]
      omega
    rw [Vector.toList_setIfInBounds, h.buffer, h.buffered,
      List.set_append_right _ _ (Nat.le_refl _), Nat.sub_self, hroom, List.replicate_succ,
      List.set_cons_zero, List.append_assoc]
    rfl
  · rw [List.length_append, h.buffered]
    rfl

end Pending.Holds

/-- What the entry checks load from a state. -/
theorem loadPending_holds {state : MbState} {p : Pending} (h : loadPending state = some p) :
    p.Holds state.pending ∧ (state.pending = [] ∨ Started state.pending) := by
  unfold loadPending at h
  dsimp only at h
  -- Only the initial state and a valid prefix are loaded.
  split_ifs at h with h1 h2 h3 h4
  · simp only [Option.some.injEq] at h
    subst h
    have hnil : state.pending = [] := by
      unfold MbState.pending
      rw [h2, List.take_zero]
    refine ⟨⟨?_, ?_, ?_⟩, Or.inl hnil⟩
    · rw [hnil]
      have hzero : bytesAreZero state.bytes = true := by
        by_cases hz : bytesAreZero state.bytes = true
        · exact hz
        · exact absurd (Or.inr hz) h3
      unfold bytesAreZero at hzero
      rw [List.all_eq_true] at hzero
      refine List.eq_replicate_iff.mpr ⟨state.bytes.length_toList, ?_⟩
      intro b hb
      exact eq_of_beq (hzero b hb)
    · rw [hnil]
      rfl
    · rw [hnil]
      rfl
  · simp only [Option.some.injEq] at h
    subst h
    have hvalid : partialPrefixIsValid state.bytes state.pendingLen.toNat
        state.expectedLen.toNat = true := by
      by_cases hv : partialPrefixIsValid state.bytes state.pendingLen.toNat
          state.expectedLen.toNat = true
      · exact hv
      · exact absurd (Or.inr (Or.inr hv)) h4
    have hb := partialPrefixIsValid_bounds hvalid
    obtain ⟨hs, hlead, hzero⟩ := (partialPrefixIsValid_iff _ _ _).mp hvalid
    have hlen : state.pending.length = state.pendingLen.toNat := by
      unfold MbState.pending
      rw [List.length_take, Vector.length_toList]
      change min _ 4 = _
      omega
    refine ⟨⟨?_, hlen.symm, hlead.symm⟩, Or.inr hs⟩
    change state.bytes.toList = _
    have hdrop : state.bytes.toList.drop state.pendingLen.toNat =
        List.replicate (4 - state.pending.length) 0 := by
      refine List.eq_replicate_iff.mpr ⟨?_, hzero⟩
      rw [List.length_drop, Vector.length_toList, hlen]
    rw [← hdrop]
    exact (List.take_append_drop _ _).symm

/-- The sequence length that the source expects once a byte is accepted is the announced one. -/
theorem nextExpectedLen_eq {p : Pending} {seen : List UInt8} (h : p.Holds seen) (byte : UInt8)
    (hnext : Fits (seen ++ [byte])) : nextExpectedLen p byte = some (leadLen (seen ++ [byte])) := by
  unfold nextExpectedLen
  rw [h.buffered, h.expected]
  cases seen with
  | nil =>
    have hne : seqLen byte ≠ 0 := hnext
    rw [if_pos List.length_nil]
    exact (expectedLenFromLeadByte_some hne).mpr rfl
  | cons lead rest =>
    rw [if_neg (by rw [List.length_cons]; omega),
      if_pos ((isContinuationByte_iff byte).mpr hnext.tail_of_concat)]
    rfl

/-- A byte that continues or completes the sequence is taken. -/
theorem acceptByte_taken {p : Pending} {seen : List UInt8} (h : p.Holds seen) {byte : UInt8}
    (hnext : Started (seen ++ [byte]) ∨ Complete (seen ++ [byte])) :
    ∃ q, acceptByte p byte = .ok q ∧ q.Holds (seen ++ [byte]) ∧ q.consumed = p.consumed + 1 := by
  have hfits : Fits (seen ++ [byte]) := by
    cases hnext with
    | inl hs => exact (started_iff.mp hs).2.1
    | inr hc => exact (complete_iff.mp hc).2.1
  have hlen : (seen ++ [byte]).length ≤ leadLen (seen ++ [byte]) := by
    cases hnext with
    | inl hs => exact Nat.le_of_lt (started_iff.mp hs).2.2
    | inr hc => exact Nat.le_of_eq (complete_iff.mp hc).2.2
  have hfour : leadLen (seen ++ [byte]) ≤ 4 := by
    cases seen with
    | nil => exact seqLen_le byte
    | cons lead rest => exact seqLen_le lead
  have hpush := h.push byte (by
    rw [List.length_append, List.length_singleton] at hlen
    omega) (p.consumed + 1)
  refine ⟨_, ?_, hpush, rfl⟩
  unfold acceptByte
  rw [nextExpectedLen_eq h byte hfits]
  dsimp only
  rw [if_neg]
  rintro ⟨hlt, hbad⟩
  refine hbad (hpush.partial_iff.mpr ?_)
  cases hnext with
  | inl hs => exact hs
  | inr hc =>
    have heq := (complete_iff.mp hc).2.2
    rw [h.buffered] at hlt
    rw [List.length_append, List.length_singleton] at heq
    omega

/-- The last byte of a sequence has only to be a tail byte. -/
theorem complete_concat {seen : List UInt8} {byte : UInt8} (hs : Started seen) (htail : Tail byte)
    (hlen : seen.length + 1 = leadLen seen) : Complete (seen ++ [byte]) := by
  have hfits := (started_iff.mp hs).2.1
  rw [complete_iff, ← leadLen_of_begins hs.1 (List.prefix_append seen [byte])]
  refine ⟨List.append_ne_nil_of_right_ne_nil _ (List.cons_ne_nil _ _), ?_, ?_⟩
  · rcases seen with _ | ⟨a, _ | ⟨b, rest⟩⟩
    · exact absurd rfl hs.1
    · exact ⟨hfits, secondFits_of_two hlen.symm htail, fun x hx => absurd hx List.not_mem_nil⟩
    · exact hfits.concat htail
  · rw [List.length_append, List.length_singleton]
    exact hlen

/-- Any other byte is refused. -/
theorem acceptByte_refused {p : Pending} {seen : List UInt8} (h : p.Holds seen)
    (hseen : seen = [] ∨ Started seen) {byte : UInt8} (hs : ¬ Started (seen ++ [byte]))
    (hc : ¬ Complete (seen ++ [byte])) : ∃ consumed, acceptByte p byte = .error consumed := by
  unfold acceptByte
  cases hnext : nextExpectedLen p byte with
  | none => exact ⟨_, rfl⟩
  | some len =>
    dsimp only
    unfold nextExpectedLen at hnext
    rw [h.buffered, h.expected] at hnext
    cases seen with
    | nil =>
      -- A byte that starts a sequence is one or begins one.
      rw [if_pos List.length_nil, expectedLenFromLeadByte_eq] at hnext
      split_ifs at hnext with hzero
      have hle : seqLen byte = 1 ∨ 1 < seqLen byte := by omega
      cases hle with
      | inl hone =>
        have hwhole : Complete [byte] :=
          complete_iff.mpr ⟨List.cons_ne_nil byte [], hzero, hone.symm⟩
        exact absurd hwhole hc
      | inr hmore =>
        have hbegun : Started [byte] := started_iff.mpr ⟨List.cons_ne_nil byte [], hzero, hmore⟩
        exact absurd hbegun hs
    | cons lead rest =>
      have hstarted : Started (lead :: rest) := hseen.resolve_left (List.cons_ne_nil _ _)
      have hbound := (started_iff.mp hstarted).2.2
      rw [if_neg (by rw [List.length_cons]; omega)] at hnext
      split_ifs at hnext with htail
      rw [Option.some.injEq] at hnext
      by_cases hlast : (lead :: rest).length + 1 = leadLen (lead :: rest)
      · exact absurd (complete_concat hstarted ((isContinuationByte_iff byte).mp htail) hlast) hc
      · have hpush := h.push byte (by
          have hfour : leadLen (lead :: rest) ≤ 4 := seqLen_le lead
          omega) (p.consumed + 1)
        have hlead : leadLen (lead :: rest ++ [byte]) = len := hnext
        rw [hlead] at hpush
        have hbad : ¬ partialPrefixIsValid (p.bytes.setIfInBounds p.bufferedLen byte)
            (p.bufferedLen + 1) len = true := fun hv => hs (hpush.partial_iff.mp hv)
        rw [if_pos ⟨by rw [h.buffered]; omega, hbad⟩]
        exact ⟨_, rfl⟩

/-- The three ways in which the decoding loop stops. -/
inductive Verdict (p : Pending) (seen input : List UInt8) : Prop
  /-- Behind the first complete sequence. -/
  | decoded (c : Char) (q : Pending) (front : encode c <+: seen ++ input)
      (loop : decodeLoop p input = .ok q) (holds : q.Holds (encode c))
      (consumed : q.consumed + seen.length = p.consumed + (encode c).length)
  /-- At the end of the input, inside a sequence. -/
  | ended (q : Pending) (begun : seen ++ input = [] ∨ Started (seen ++ input))
      (loop : decodeLoop p input = .ok q) (holds : q.Holds (seen ++ input))
  /-- At a byte with which no sequence goes on. -/
  | refused (consumed : Nat) (rejected : Rejected (seen ++ input))
      (loop : decodeLoop p input = .error consumed)

theorem stuck_of_open {seen : List UInt8} (h : seen = [] ∨ Started seen) : Stuck seen := by
  cases h with
  | inl hnil => exact hnil ▸ stuck_nil
  | inr hs => exact hs.stuck

theorem decodeLoop_verdict {p : Pending} {seen : List UInt8} (input : List UInt8) (h : p.Holds seen)
    (hseen : seen = [] ∨ Started seen) : Verdict p seen input := by
  -- Induction on the input; the bytes taken so far begin a character or are none at all.
  induction input generalizing p seen with
  | nil =>
    refine .ended p ?_ rfl ?_
    · rwa [List.append_nil]
    · rwa [List.append_nil]
  | cons byte rest ih =>
    have hassoc : seen ++ byte :: rest = seen ++ [byte] ++ rest :=
      (List.append_cons seen byte rest)
    have hloop := decodeLoop_cons (h.isOpen hseen) byte rest
    -- One more byte completes the sequence, keeps it begun, or cannot continue it.
    by_cases hc : Complete (seen ++ [byte])
    · obtain ⟨q, hq, hholds, hcons⟩ := acceptByte_taken h (Or.inr hc)
      obtain ⟨c, hcode⟩ := hc
      rw [hq] at hloop
      have hlen := (encode_row c).2.1
      rw [← hcode] at hholds
      have hfull : q.bufferedLen = q.expectedLen ∧ q.expectedLen ≠ 0 := by
        rw [hholds.buffered, hholds.expected, ← hlen]
        exact ⟨rfl, by
          have hpos := List.length_pos_iff.mpr (encode_ne_nil c)
          omega⟩
      refine .decoded c q ?_ (hloop.trans (decodeLoop_complete hfull rest)) hholds ?_
      · rw [hcode, hassoc]
        exact List.prefix_append _ _
      · rw [hcode, List.length_append, List.length_singleton]
        omega
    by_cases hs : Started (seen ++ [byte])
    · obtain ⟨q, hq, hholds, hcons⟩ := acceptByte_taken h (Or.inl hs)
      rw [hq] at hloop
      cases ih hholds (Or.inr hs) with
      | decoded c r front loop holds consumed =>
        refine .decoded c r (hassoc ▸ front) (hloop.trans loop) holds ?_
        rw [List.length_append, List.length_singleton] at consumed
        omega
      | ended r begun loop holds =>
        rw [← hassoc] at begun holds
        exact .ended r begun (hloop.trans loop) holds
      | refused k rejected loop =>
        rw [← hassoc] at rejected
        exact .refused k rejected (hloop.trans loop)
    · obtain ⟨k, hk⟩ := acceptByte_refused h hseen hs hc
      rw [hk] at hloop
      refine .refused k ?_ hloop
      rw [hassoc]
      exact (rejected_concat (stuck_of_open hseen) hs hc).append rest

/-! ## One call -/

/-- The three outcomes of a call on a valid state with something to read. -/
inductive CallVerdict (state : MbState) (input : List UInt8) : Prop
  | decoded (c : Char) (front : encode c <+: state.pending ++ input)
      (longer : state.pending.length < (encode c).length)
      (call : mbrtowcWithState state (some input) =
        ⟨.new, if c.toNat = 0 then 0 else (encode c).length - state.pending.length,
          some (c.toNat : Int), none⟩)
  | incomplete (next : MbState) (begun : Started (state.pending ++ input)) (valid : next.Valid)
      (kept : next.pending = state.pending ++ input)
      (call : mbrtowcWithState state (some input) = ⟨next, mbrErrIncomplete, none, none⟩)
  | invalid (rejected : Rejected (state.pending ++ input))
      (call : mbrtowcWithState state (some input) = resetStateAndFail)

theorem finishPending_complete {q : Pending} {c : Char} (h : q.Holds (encode c)) :
    finishPending q = ⟨.new, if c.toNat = 0 then 0 else q.consumed, some (c.toNat : Int), none⟩ := by
  have hlen := (encode_row c).2.1
  have hpos := List.length_pos_iff.mpr (encode_ne_nil c)
  have hexp : q.expectedLen = (encode c).length := h.expected.trans hlen.symm
  have hfront : encode c <+: q.bytes.toList := by
    rw [h.buffer]
    exact List.prefix_append _ _
  unfold finishPending
  rw [if_neg (by rw [hexp, h.buffered]; omega), hexp, decodeUtf8Scalar_encode hfront]
  have hzero : (c.val = 0) = (c.toNat = 0) := by
    rw [← UInt32.toNat_inj]
    rfl
  dsimp only
  simp only [hzero]
  rfl

theorem finishPending_started {q : Pending} {seen : List UInt8} (h : q.Holds seen)
    (hs : Started seen) :
    ∃ next : MbState, next.Valid ∧ next.pending = seen ∧
      finishPending q = ⟨next, mbrErrIncomplete, none, none⟩ := by
  have hlt := (started_iff.mp hs).2.2
  refine ⟨.setPartial q.bytes q.bufferedLen q.expectedLen,
    MbState.setPartial_valid (h.partial_iff.mpr hs), ?_, ?_⟩
  · have hsmall : (UInt8.ofNat q.bufferedLen).toNat = q.bufferedLen := by
      have hle := h.length_le
      apply UInt8.toNat_ofNat_of_lt'
      rw [h.buffered]
      unfold UInt8.size
      omega
    change q.bytes.toList.take (UInt8.ofNat q.bufferedLen).toNat = seen
    rw [hsmall, h.take]
  · unfold finishPending
    rw [if_pos (Or.inr (by rw [h.buffered, h.expected]; exact hlt))]

theorem mbrtowcWithState_ok {state : MbState} {p q : Pending} {input : List UInt8}
    (hload : loadPending state = some p) (hne : input ≠ []) (hloop : decodeLoop p input = .ok q) :
    mbrtowcWithState state (some input) = finishPending q := by
  unfold mbrtowcWithState
  simp only [hload]
  rw [if_neg (by rw [List.length_eq_zero_iff]; exact hne), hloop]

theorem mbrtowcWithState_error {state : MbState} {p : Pending} {input : List UInt8} {consumed : Nat}
    (hload : loadPending state = some p) (hne : input ≠ [])
    (hloop : decodeLoop p input = .error consumed) :
    mbrtowcWithState state (some input) = resetStateAndFail := by
  unfold mbrtowcWithState
  simp only [hload]
  rw [if_neg (by rw [List.length_eq_zero_iff]; exact hne), hloop]

theorem mbrtowcWithState_verdict {state : MbState} (hvalid : state.Valid) {input : List UInt8}
    (hne : input ≠ []) : CallVerdict state input := by
  obtain ⟨p, hload⟩ := Option.isSome_iff_exists.mp hvalid
  obtain ⟨hholds, hseen⟩ := loadPending_holds hload
  have hconsumed := (loadPending_open hload).2
  have hlong : state.pending ++ input ≠ [] := List.append_ne_nil_of_right_ne_nil _ hne
  cases decodeLoop_verdict input hholds hseen with
  | decoded c q front loop holds consumed =>
    have hlonger : state.pending.length < (encode c).length := by
      rcases Nat.lt_or_ge state.pending.length (encode c).length with hlt | hge
      · exact hlt
      · exact absurd (List.prefix_of_prefix_length_le front (List.prefix_append _ _) hge)
          (stuck_of_open hseen c)
    refine .decoded c front hlonger ?_
    rw [mbrtowcWithState_ok hload hne loop, finishPending_complete holds,
      show q.consumed = (encode c).length - state.pending.length by omega]
  | ended q begun loop holds =>
    have hs := begun.resolve_left hlong
    obtain ⟨next, hnext, hkept, hfinish⟩ := finishPending_started holds hs
    exact .incomplete next hs hnext hkept ((mbrtowcWithState_ok hload hne loop).trans hfinish)
  | refused consumed rejected loop =>
    exact .invalid rejected (mbrtowcWithState_error hload hne loop)

/-! ## Reachable states -/

/-- The states that `mbrtowc` calls lead to from the initial one. -/
inductive Reached : MbState → Prop
  | initial : Reached .new
  | call {state : MbState} (s : Option (List UInt8)) (h : Reached state) :
      Reached (mbrtowcWithState state s).state

theorem Reached.valid {state : MbState} (h : Reached state) : state.Valid := by
  induction h with
  | initial => exact MbState.new_valid
  | @call state s _ ih =>
    cases s with
    | none => exact MbState.new_valid
    | some input =>
      by_cases hne : input = []
      · rw [hne, mbrtowcWithState_empty ih]
        exact ih
      · cases mbrtowcWithState_verdict ih hne with
        | decoded c front longer call => exact call ▸ MbState.new_valid
        | incomplete next begun valid kept call => exact call ▸ valid
        | invalid rejected call => exact call ▸ MbState.new_valid

/-- A valid state is the initial one or holds a prefix that the source's own test accepts. -/
theorem MbState.Valid.shape {state : MbState} (h : state.Valid) :
    state.isInitial = true ∨ partialPrefixIsValid state.bytes state.pendingLen.toNat
      state.expectedLen.toNat = true := by
  obtain ⟨p, hload⟩ := Option.isSome_iff_exists.mp h
  unfold loadPending at hload
  dsimp only at hload
  split_ifs at hload with h1 h2 h3 h4
  · left
    have hp : state.pendingLen = 0 := UInt8.toNat_inj.mp h2
    have hx : state.expectedLen = 0 := by
      by_cases hzero : state.expectedLen.toNat = 0
      · exact UInt8.toNat_inj.mp hzero
      · exact absurd (Or.inl hzero) h3
    have hb : bytesAreZero state.bytes = true := by
      by_cases hzero : bytesAreZero state.bytes = true
      · exact hzero
      · exact absurd (Or.inr hzero) h3
    unfold isInitial
    rw [hp, hx, hb, h1]
    rfl
  · right
    by_cases hv : partialPrefixIsValid state.bytes state.pendingLen.toNat
        state.expectedLen.toNat = true
    · exact hv
    · exact absurd (Or.inr (Or.inr hv)) h4

theorem MbState.eq_new_of_isInitial {state : MbState} (h : state.isInitial = true) :
    state = .new := by
  unfold isInitial bytesAreZero shortBytesAreZero at h
  simp only [Bool.and_eq_true, beq_iff_eq, List.all_eq_true] at h
  obtain ⟨⟨⟨hp, hx⟩, hb⟩, hr⟩ := h
  have hbytes : state.bytes = #v[0, 0, 0, 0] :=
    Vector.toList_inj.mp (List.eq_replicate_iff.mpr ⟨state.bytes.length_toList, hb⟩)
  have hreserved : state.reserved = #v[0, 0] := by
    ext i hi
    rcases i with _ | _ | i
    · exact congrArg UInt8.toNat hr.1
    · exact congrArg UInt8.toNat hr.2
    · omega
  cases state
  simp only at hp hx hbytes hreserved
  subst hp hx hbytes hreserved
  rfl

/-- A valid state that keeps no bytes is the initial one. -/
theorem MbState.Valid.eq_new {state : MbState} (h : state.Valid) (hnil : state.pending = []) :
    state = .new := by
  cases h.shape with
  | inl hinit => exact eq_new_of_isInitial hinit
  | inr hpartial => exact absurd hnil ((partialPrefixIsValid_iff _ _ _).mp hpartial).1.1

/-- **Exactness of the restartable decoder.**  A state that calls lead to is initial or holds a
prefix that can be completed, so no call takes it for corrupted; a call with input asks for more
exactly inside a sequence, fails exactly where no sequence goes on, decodes the one sequence in
front otherwise, and leaves the initial state unless it asks for more. -/
theorem mbrtowc_exact {state : MbState} (h : Reached state) :
    (state.isInitial = true ∨ partialPrefixIsValid state.bytes state.pendingLen.toNat
        state.expectedLen.toNat = true) ∧
      (loadPending state).isSome ∧
      ∀ input : List UInt8, input ≠ [] →
        ((mbrtowcWithState state (some input)).ret = mbrErrIncomplete ↔
            Started (state.pending ++ input)) ∧
          ((mbrtowcWithState state (some input)).ret = mbrErrInvalid ↔
            Rejected (state.pending ++ input)) ∧
          (¬ Started (state.pending ++ input) → ¬ Rejected (state.pending ++ input) →
            ∃! c : Char, encode c <+: state.pending ++ input ∧
              (mbrtowcWithState state (some input)).wide = some (c.toNat : Int) ∧
              (mbrtowcWithState state (some input)).ret =
                if c.toNat = 0 then 0 else (encode c).length - state.pending.length) ∧
          ((mbrtowcWithState state (some input)).ret ≠ mbrErrIncomplete →
            (mbrtowcWithState state (some input)).state = .new) := by
  refine ⟨h.valid.shape, h.valid, ?_⟩
  intro input hne
  -- The three verdicts exclude one another, which gives all four equivalences.
  cases mbrtowcWithState_verdict h.valid hne with
  | decoded c front longer call =>
    have hle := encode_length_le c
    have hret : (if c.toNat = 0 then 0 else (encode c).length - state.pending.length) ≤ 4 := by
      split_ifs <;> omega
    have hns : ¬ Started (state.pending ++ input) := fun hs => hs.stuck c front
    have hnr : ¬ Rejected (state.pending ++ input) := fun hr => hr.stuck c front
    rw [call]
    dsimp only
    unfold mbrErrIncomplete mbrErrInvalid usizeMax
    refine ⟨⟨fun heq => by omega, fun hs => absurd hs hns⟩,
      ⟨fun heq => by omega, fun hr => absurd hr hnr⟩, fun _ _ => ?_, fun _ => rfl⟩
    refine ⟨c, ⟨front, rfl, rfl⟩, ?_⟩
    rintro d ⟨hd, _, _⟩
    exact encode_unique hd front
  | incomplete next begun valid kept call =>
    rw [call]
    dsimp only
    refine ⟨⟨fun _ => begun, fun _ => rfl⟩, ⟨fun heq => ?_, fun hr => absurd begun hr.not_started⟩,
      fun hns => absurd begun hns, fun hbad => absurd rfl hbad⟩
    exact absurd heq (by decide)
  | invalid rejected call =>
    rw [call]
    refine ⟨⟨fun heq => ?_, fun hs => absurd hs rejected.not_started⟩,
      ⟨fun _ => rejected, fun _ => rfl⟩, fun _ hnr => absurd rejected hnr, fun _ => rfl⟩
    exact absurd heq (by decide)

/-- Inside the three bytes of U+20AC. -/
theorem mbrtowc_exact_euro :
    Reached (mbrtowcWithState .new (some [0xE2])).state ∧
      ((mbrtowcWithState (mbrtowcWithState .new (some [0xE2])).state (some [0x82])).ret =
          mbrErrIncomplete ↔
        Started [0xE2, 0x82]) := by
  have hreached : Reached (mbrtowcWithState .new (some [0xE2])).state := .call (some [0xE2]) .initial
  have hexact := mbrtowc_exact hreached
  exact ⟨hreached, (hexact.2.2 [0x82] (List.cons_ne_nil _ _)).1⟩

end Rlibc.Wchar
