import Rlibc.Wchar.Utf8

/-!
# `mbrtowc`

`mbrtowc` decodes one character from the bytes pending in its `mbstate_t` and the bytes of the
current call.  The conversion state of the source is kept whole, so that a corrupted snapshot is
a value of `MbState` too.
-/

namespace Rlibc.Wchar

/-- `mbstate_t`. -/
structure MbState where
  bytes : SeqBuffer
  pendingLen : UInt8
  expectedLen : UInt8
  reserved : Vector UInt8 2
  deriving DecidableEq, Repr

/-- `(size_t)-1`. -/
abbrev mbrErrInvalid : Nat := usizeMax

/-- `(size_t)-2`. -/
abbrev mbrErrIncomplete : Nat := usizeMax - 1

namespace MbState

def new : MbState :=
  { bytes := #v[0, 0, 0, 0], pendingLen := 0, expectedLen := 0, reserved := #v[0, 0] }

def isInitial (state : MbState) : Bool :=
  state.pendingLen == 0 && state.expectedLen == 0 && bytesAreZero state.bytes &&
    shortBytesAreZero state.reserved

/-- `set_partial` overwrites every field, so it takes no earlier state. -/
def setPartial (bytes : SeqBuffer) (pendingLen expectedLen : Nat) : MbState :=
  { bytes := bytes, pendingLen := .ofNat pendingLen, expectedLen := .ofNat expectedLen,
    reserved := #v[0, 0] }

end MbState

/-- The local variables of one decoding call. -/
structure Pending where
  bytes : SeqBuffer
  bufferedLen : Nat
  expectedLen : Nat
  consumed : Nat
  deriving DecidableEq, Repr

/-- What a call leaves: the conversion state, its return value, the wide character it stores
through a non-null `pwc`, and the `errno` it sets. -/
structure MbrtowcResult where
  state : MbState
  ret : Nat
  wide : Option Int
  errno : Option Int
  deriving DecidableEq, Repr

/-- The checks on entry: the locals of the call, or `none` on a corrupted state. -/
def loadPending (state : MbState) : Option Pending :=
  let bytes := state.bytes
  let bufferedLen := state.pendingLen.toNat
  let expectedLen := state.expectedLen.toNat
  if ¬ shortBytesAreZero state.reserved then none
  else if bufferedLen = 0 then
    if expectedLen ≠ 0 ∨ ¬ bytesAreZero bytes then none
    else some { bytes := bytes, bufferedLen := 0, expectedLen := 0, consumed := 0 }
  else if ¬ (2 ≤ expectedLen ∧ expectedLen ≤ maxUtf8Bytes) ∨ expectedLen ≤ bufferedLen ∨
      ¬ partialPrefixIsValid bytes bufferedLen expectedLen then none
  else some { bytes := bytes, bufferedLen := bufferedLen, expectedLen := expectedLen, consumed := 0 }

/-- The sequence length once `byte` is read, or `none` where `byte` cannot stand there. -/
def nextExpectedLen (p : Pending) (byte : UInt8) : Option Nat :=
  if p.bufferedLen = 0 then expectedLenFromLeadByte byte
  else if isContinuationByte byte then some p.expectedLen
  else none

/-- One turn of the decoding loop: the byte is taken, or the sequence is refused after
`consumed` bytes of this call. -/
def acceptByte (p : Pending) (byte : UInt8) : Except Nat Pending :=
  match nextExpectedLen p byte with
  | none => .error p.consumed
  | some expectedLen =>
    let bytes := p.bytes.setIfInBounds p.bufferedLen byte
    if p.bufferedLen + 1 < expectedLen ∧
        ¬ partialPrefixIsValid bytes (p.bufferedLen + 1) expectedLen then
      .error (p.consumed + 1)
    else
      .ok { bytes := bytes, bufferedLen := p.bufferedLen + 1, expectedLen := expectedLen,
            consumed := p.consumed + 1 }

/-- The decoding loop over the bytes of this call that are still unread. -/
def decodeLoop (p : Pending) : List UInt8 → Except Nat Pending
  | [] => .ok p
  | byte :: rest =>
    if p.bufferedLen < maxUtf8Bytes ∧ ¬ (p.expectedLen ≠ 0 ∧ p.bufferedLen = p.expectedLen) then
      match acceptByte p byte with
      | .error consumed => .error consumed
      | .ok q => decodeLoop q rest
    else .ok p

/-- `reset_state_and_fail`. -/
def resetStateAndFail : MbrtowcResult :=
  { state := .new, ret := mbrErrInvalid, wide := none, errno := some EILSEQ }

/-- What happens after the loop. -/
def finishPending (q : Pending) : MbrtowcResult :=
  if q.expectedLen = 0 ∨ q.bufferedLen < q.expectedLen then
    { state := .setPartial q.bytes q.bufferedLen q.expectedLen, ret := mbrErrIncomplete,
      wide := none, errno := none }
  else
    match decodeUtf8Scalar q.bytes q.expectedLen with
    | none => resetStateAndFail
    | some scalar =>
      { state := .new, ret := if scalar = 0 then 0 else q.consumed, wide := some scalar.toNat,
        errno := none }

/-- `mbrtowc_with_state`.  `s` is `none` for a null pointer; otherwise it holds the `n` bytes
that the call may read. -/
def mbrtowcWithState (state : MbState) (s : Option (List UInt8)) : MbrtowcResult :=
  match s with
  | none => { state := .new, ret := 0, wide := some 0, errno := none }
  | some input =>
    match loadPending state with
    | none => resetStateAndFail
    | some p =>
      if input.length = 0 then
        { state := state, ret := mbrErrIncomplete, wide := none, errno := none }
      else
        match decodeLoop p input with
        | .error _ => resetStateAndFail
        | .ok q => finishPending q

/-! ## States that calls produce -/

namespace MbState

/-- A state that no call has to refuse: initial, or holding a prefix that can be completed. -/
def Valid (state : MbState) : Prop :=
  (loadPending state).isSome

theorem new_valid : new.Valid := rfl

/-- Resuming from a stored prefix gives back the locals that were stored. -/
theorem loadPending_setPartial {bytes : SeqBuffer} {pendingLen expectedLen : Nat}
    (h : partialPrefixIsValid bytes pendingLen expectedLen = true) :
    loadPending (setPartial bytes pendingLen expectedLen) =
      some ⟨bytes, pendingLen, expectedLen, 0⟩ := by
  have hb := partialPrefixIsValid_bounds h
  have hp : (UInt8.ofNat pendingLen).toNat = pendingLen :=
    UInt8.toNat_ofNat_of_lt' (by unfold UInt8.size; omega)
  have he : (UInt8.ofNat expectedLen).toNat = expectedLen :=
    UInt8.toNat_ofNat_of_lt' (by unfold UInt8.size; omega)
  unfold loadPending setPartial
  simp only [hp, he]
  rw [if_neg (by decide), if_neg (by omega), if_neg]
  intro hbad
  rcases hbad with hbad | hbad | hbad
  · exact hbad hb.2.2
  · omega
  · exact hbad h

theorem setPartial_valid {bytes : SeqBuffer} {pendingLen expectedLen : Nat}
    (h : partialPrefixIsValid bytes pendingLen expectedLen = true) :
    (setPartial bytes pendingLen expectedLen).Valid := by
  unfold Valid
  rw [loadPending_setPartial h]
  rfl

end MbState

/-- The locals a call can start from or reach before the sequence is complete. -/
def Pending.Open (p : Pending) : Prop :=
  (p.bufferedLen = 0 ∧ p.expectedLen = 0) ∨
    partialPrefixIsValid p.bytes p.bufferedLen p.expectedLen = true

theorem loadPending_open {state : MbState} {p : Pending} (h : loadPending state = some p) :
    p.Open ∧ p.consumed = 0 := by
  unfold loadPending at h
  dsimp only at h
  split_ifs at h with h1 h2 h3 h4
  · simp only [Option.some.injEq] at h
    subst h
    exact ⟨Or.inl ⟨rfl, rfl⟩, rfl⟩
  · simp only [Option.some.injEq] at h
    subst h
    refine ⟨Or.inr ?_, rfl⟩
    by_cases hv : partialPrefixIsValid state.bytes state.pendingLen.toNat state.expectedLen.toNat
    · exact hv
    · exact absurd (Or.inr (Or.inr hv)) h4

theorem Pending.Open.not_full {p : Pending} (h : p.Open) :
    p.bufferedLen < maxUtf8Bytes ∧ ¬ (p.expectedLen ≠ 0 ∧ p.bufferedLen = p.expectedLen) := by
  change p.bufferedLen < 4 ∧ _
  cases h with
  | inl h => omega
  | inr h =>
    have hb := partialPrefixIsValid_bounds h
    omega

/-- An accepted byte either completes the sequence or leaves a prefix that can be completed. -/
theorem acceptByte_ok {p q : Pending} {byte : UInt8} (hopen : p.Open)
    (h : acceptByte p byte = .ok q) :
    q.consumed = p.consumed + 1 ∧ q.bufferedLen = p.bufferedLen + 1 ∧
      ((q.bufferedLen = q.expectedLen ∧ q.expectedLen ≠ 0) ∨
        partialPrefixIsValid q.bytes q.bufferedLen q.expectedLen = true) := by
  unfold acceptByte at h
  split at h
  · exact absurd h (by simp)
  · rename_i len hlen
    have hle : p.bufferedLen + 1 ≤ len := by
      unfold nextExpectedLen at hlen
      by_cases h0 : p.bufferedLen = 0
      · rw [if_pos h0] at hlen
        have hl := expectedLenFromLeadByte_le hlen
        omega
      · rw [if_neg h0] at hlen
        have hb : p.bufferedLen < p.expectedLen := by
          cases hopen with
          | inl hi => exact absurd hi.1 h0
          | inr hv => exact (partialPrefixIsValid_bounds hv).2.1
        split at hlen
        · rw [Option.some.injEq] at hlen
          omega
        · exact absurd hlen (by simp)
    dsimp only at h
    split at h
    · exact absurd h (by simp)
    · rename_i hv
      simp only [Except.ok.injEq] at h
      subst h
      refine ⟨rfl, rfl, ?_⟩
      by_cases heq : p.bufferedLen + 1 = len
      · exact Or.inl ⟨heq, by dsimp only; omega⟩
      · refine Or.inr ?_
        by_cases hpv : partialPrefixIsValid (p.bytes.setIfInBounds p.bufferedLen byte)
            (p.bufferedLen + 1) len
        · exact hpv
        · exact absurd ⟨by omega, hpv⟩ hv

theorem decodeLoop_complete {q : Pending} (h : q.bufferedLen = q.expectedLen ∧ q.expectedLen ≠ 0)
    (rest : List UInt8) : decodeLoop q rest = .ok q := by
  cases rest with
  | nil => rfl
  | cons byte rest =>
    rw [decodeLoop, if_neg]
    intro hc
    exact hc.2 ⟨h.2, h.1⟩

theorem decodeLoop_cons {p : Pending} (hopen : p.Open) (byte : UInt8) (rest : List UInt8) :
    decodeLoop p (byte :: rest) =
      match acceptByte p byte with
      | .error consumed => .error consumed
      | .ok q => decodeLoop q rest := by
  rw [decodeLoop, if_pos hopen.not_full]

/-- The locals after `k` more bytes of the same call. -/
def Pending.shift (k : Nat) (p : Pending) : Pending :=
  { p with consumed := p.consumed + k }

/-- The locals with which a later call resumes. -/
def Pending.restart (p : Pending) : Pending :=
  { p with consumed := 0 }

theorem acceptByte_shift (k : Nat) (p : Pending) (byte : UInt8) :
    acceptByte (p.shift k) byte =
      match acceptByte p byte with
      | .error consumed => .error (consumed + k)
      | .ok q => .ok (q.shift k) := by
  unfold acceptByte Pending.shift
  rw [show nextExpectedLen { p with consumed := p.consumed + k } byte = nextExpectedLen p byte
    from rfl]
  cases nextExpectedLen p byte with
  | none => rfl
  | some len =>
    dsimp only
    split <;> simp only [Except.error.injEq, Except.ok.injEq, Pending.mk.injEq, true_and] <;> omega

theorem decodeLoop_shift (k : Nat) (p : Pending) (rest : List UInt8) :
    decodeLoop (p.shift k) rest =
      match decodeLoop p rest with
      | .error consumed => .error (consumed + k)
      | .ok q => .ok (q.shift k) := by
  induction rest generalizing p with
  | nil => rfl
  | cons byte rest ih =>
    rw [decodeLoop, decodeLoop, acceptByte_shift]
    by_cases hg : p.bufferedLen < maxUtf8Bytes ∧
        ¬ (p.expectedLen ≠ 0 ∧ p.bufferedLen = p.expectedLen)
    · rw [if_pos hg, if_pos (show (p.shift k).bufferedLen < maxUtf8Bytes ∧
        ¬ ((p.shift k).expectedLen ≠ 0 ∧ (p.shift k).bufferedLen = (p.shift k).expectedLen)
        from hg)]
      cases acceptByte p byte with
      | error consumed => rfl
      | ok q => exact ih q
    · rw [if_neg hg, if_neg (show ¬ ((p.shift k).bufferedLen < maxUtf8Bytes ∧
        ¬ ((p.shift k).expectedLen ≠ 0 ∧ (p.shift k).bufferedLen = (p.shift k).expectedLen))
        from hg)]

/-- A call never reports more bytes than a sequence has. -/
theorem decodeLoop_consumed {p q : Pending} {rest : List UInt8} (h : decodeLoop p rest = .ok q)
    (hc : p.consumed ≤ p.bufferedLen) (hb : p.bufferedLen ≤ 4) :
    p.consumed ≤ q.consumed ∧ q.consumed ≤ q.bufferedLen ∧ q.bufferedLen ≤ 4 := by
  induction rest generalizing p with
  | nil =>
    simp only [decodeLoop, Except.ok.injEq] at h
    subst h
    omega
  | cons byte rest ih =>
    rw [decodeLoop] at h
    split at h
    · rename_i hg
      have hlt : p.bufferedLen < 4 := hg.1
      unfold acceptByte at h
      cases hn : nextExpectedLen p byte with
      | none => simp [hn] at h
      | some len =>
        simp only [hn] at h
        split at h
        · exact absurd h (by simp)
        · rename_i q' hq'
          split at hq'
          · exact absurd hq' (by simp)
          · simp only [Except.ok.injEq] at hq'
            subst hq'
            have hi := ih h (by dsimp only; omega) (by dsimp only; omega)
            dsimp only at hi
            omega
    · simp only [Except.ok.injEq] at h
      subst h
      omega

/-! ## One call on a valid state -/

/-- With nothing to read, a call only asks for more input. -/
theorem mbrtowcWithState_nil (state : MbState) :
    (mbrtowcWithState state (some [])).ret = mbrErrInvalid ∨
      (mbrtowcWithState state (some [])).ret = mbrErrIncomplete := by
  unfold mbrtowcWithState
  cases loadPending state with
  | none => exact Or.inl rfl
  | some p => exact Or.inr rfl

theorem mbrtowcWithState_empty {state : MbState} (hvalid : state.Valid) :
    mbrtowcWithState state (some []) = ⟨state, mbrErrIncomplete, none, none⟩ := by
  have hload := Option.isSome_iff_exists.mp hvalid
  cases hload with
  | intro p hp =>
    unfold mbrtowcWithState
    simp only [hp, List.length_nil, if_true]

theorem mbrtowcWithState_cons {state : MbState} {p : Pending} (hload : loadPending state = some p)
    (byte : UInt8) (rest : List UInt8) :
    mbrtowcWithState state (some (byte :: rest)) =
      match acceptByte p byte with
      | .error _ => resetStateAndFail
      | .ok q =>
        match decodeLoop q rest with
        | .error _ => resetStateAndFail
        | .ok q' => finishPending q' := by
  unfold mbrtowcWithState
  simp only [hload]
  rw [if_neg (by simp), decodeLoop_cons (loadPending_open hload).1]
  cases acceptByte p byte with
  | error consumed => rfl
  | ok q => rfl

/-- One byte that leaves a partial sequence stores it. -/
theorem mbrtowcWithState_incomplete {state : MbState} {p q : Pending} {byte : UInt8}
    (hload : loadPending state = some p) (hq : acceptByte p byte = .ok q)
    (hpart : partialPrefixIsValid q.bytes q.bufferedLen q.expectedLen = true) :
    mbrtowcWithState state (some [byte]) =
      ⟨.setPartial q.bytes q.bufferedLen q.expectedLen, mbrErrIncomplete, none, none⟩ := by
  have hbounds := partialPrefixIsValid_bounds hpart
  rw [mbrtowcWithState_cons hload, hq]
  simp only [decodeLoop]
  unfold finishPending
  rw [if_pos (Or.inr hbounds.2.1)]

/-- A return value is one of the two errors or a number of bytes. -/
theorem mbrtowcWithState_ret (state : MbState) (input : List UInt8) :
    (mbrtowcWithState state (some input)).ret = mbrErrInvalid ∨
      (mbrtowcWithState state (some input)).ret = mbrErrIncomplete ∨
      (mbrtowcWithState state (some input)).ret ≤ 4 := by
  cases hload : loadPending state with
  | none =>
    left
    unfold mbrtowcWithState
    rw [hload]
    rfl
  | some p =>
    cases input with
    | nil =>
      have hnil := mbrtowcWithState_nil state
      omega
    | cons byte rest =>
      rw [mbrtowcWithState_cons hload]
      cases hacc : acceptByte p byte with
      | error consumed => exact Or.inl rfl
      | ok q =>
        dsimp only
        cases hloop : decodeLoop q rest with
        | error consumed => exact Or.inl rfl
        | ok r =>
          have hopen := loadPending_open hload
          have hlt : p.bufferedLen < 4 := hopen.1.not_full.1
          have hok := acceptByte_ok hopen.1 hacc
          have hbound := decodeLoop_consumed hloop (by omega) (by omega)
          dsimp only
          unfold finishPending
          split
          · exact Or.inr (Or.inl rfl)
          · cases decodeUtf8Scalar r.bytes r.expectedLen with
            | none => exact Or.inl rfl
            | some scalar =>
              dsimp only
              split <;> omega

/-- One byte takes a valid state to a valid state. -/
theorem mbrtowcWithState_one_valid {state : MbState} (hvalid : state.Valid) (byte : UInt8) :
    (mbrtowcWithState state (some [byte])).state.Valid := by
  obtain ⟨p, hp⟩ := Option.isSome_iff_exists.mp hvalid
  cases hacc : acceptByte p byte with
  | error consumed =>
    rw [mbrtowcWithState_cons hp, hacc]
    exact MbState.new_valid
  | ok q =>
    have hok := acceptByte_ok (loadPending_open hp).1 hacc
    cases hok.2.2 with
    | inr hpart =>
      rw [mbrtowcWithState_incomplete hp hacc hpart]
      exact MbState.setPartial_valid hpart
    | inl hfull =>
      rw [mbrtowcWithState_cons hp, hacc]
      simp only [decodeLoop]
      unfold finishPending
      rw [if_neg (by omega)]
      cases decodeUtf8Scalar q.bytes q.expectedLen with
      | none => exact MbState.new_valid
      | some scalar => exact MbState.new_valid

end Rlibc.Wchar
