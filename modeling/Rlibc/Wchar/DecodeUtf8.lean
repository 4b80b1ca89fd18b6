import Rlibc.Wchar.Mbrtowc

/-!
# `decode_utf8`

The decoder behind the Rust interface.  The source writes the state machine of `mbrtowc` out a
second time, over a slice and with exits of its own, and so does this module; that the two are
one decoder is the last theorem.
-/

namespace Rlibc.Wchar

/-- `Utf8DecodeResult`. -/
inductive Utf8DecodeResult where
  | complete (codePoint : UInt32) (consumed : Nat)
  | incomplete (consumed : Nat)
  | invalid (consumed : Nat)
  deriving DecidableEq, Repr

/-- The `while` loop of `decode_utf8`: its locals when it is left, or the number of bytes after
which the sequence is refused. -/
def decodeUtf8Loop (input : List UInt8) (bytes : SeqBuffer)
    (bufferedLen expectedLen consumed : Nat) : Except Nat Pending :=
  if bufferedLen < maxUtf8Bytes then
    if expectedLen ≠ 0 ∧ bufferedLen = expectedLen then
      .ok ⟨bytes, bufferedLen, expectedLen, consumed⟩
    else if h : consumed < input.length then
      let byte := input[consumed]
      let nextExpectedLen :=
        if bufferedLen = 0 then expectedLenFromLeadByte byte
        else if ¬ isContinuationByte byte then none
        else some expectedLen
      match nextExpectedLen with
      | none => .error consumed
      | some expectedLen =>
        let bytes := bytes.setIfInBounds bufferedLen byte
        if bufferedLen + 1 < expectedLen ∧
            ¬ partialPrefixIsValid bytes (bufferedLen + 1) expectedLen then
          .error (consumed + 1)
        else decodeUtf8Loop input bytes (bufferedLen + 1) expectedLen (consumed + 1)
    else .ok ⟨bytes, bufferedLen, expectedLen, consumed⟩
  else .ok ⟨bytes, bufferedLen, expectedLen, consumed⟩
termination_by maxUtf8Bytes - bufferedLen

/-- What `decode_utf8` does after the loop: the state it leaves and its result. -/
def decodeUtf8Finish : Except Nat Pending → MbState × Utf8DecodeResult
  | .error consumed => (.new, .invalid consumed)
  | .ok q =>
    if q.expectedLen = 0 ∨ q.bufferedLen < q.expectedLen then
      (.setPartial q.bytes q.bufferedLen q.expectedLen, .incomplete q.consumed)
    else
      match decodeUtf8Scalar q.bytes q.expectedLen with
      | none => (.new, .invalid q.consumed)
      | some codePoint => (.new, .complete codePoint q.consumed)

/-- `decode_utf8`: the state it leaves and its result. -/
def decodeUtf8 (state : MbState) (input : List UInt8) : MbState × Utf8DecodeResult :=
  let bytes := state.bytes
  let bufferedLen := state.pendingLen.toNat
  let expectedLen := state.expectedLen.toNat
  if ¬ shortBytesAreZero state.reserved then (.new, .invalid 0)
  else if bufferedLen = 0 ∧ (expectedLen ≠ 0 ∨ ¬ bytesAreZero bytes) then (.new, .invalid 0)
  else if bufferedLen ≠ 0 ∧ (¬ (2 ≤ expectedLen ∧ expectedLen ≤ maxUtf8Bytes) ∨
      expectedLen ≤ bufferedLen ∨ ¬ partialPrefixIsValid bytes bufferedLen expectedLen) then
    (.new, .invalid 0)
  else decodeUtf8Finish (decodeUtf8Loop input bytes bufferedLen expectedLen 0)

/-! ## One decoder -/

/-- The result of `mbrtowc` that says the same. -/
def Utf8DecodeResult.Corresponds : Utf8DecodeResult → MbrtowcResult → Prop
  | complete codePoint consumed, result =>
    result.ret = (if codePoint = 0 then 0 else consumed) ∧
      result.wide = some codePoint.toNat ∧ result.errno = none
  | incomplete _, result =>
    result.ret = mbrErrIncomplete ∧ result.wide = none ∧ result.errno = none
  | invalid _, result =>
    result.ret = mbrErrInvalid ∧ result.wide = none ∧ result.errno = some EILSEQ

/-- The two spellings of what a byte makes of the expected length. -/
theorem nextExpectedLen_eq_ite (p : Pending) (byte : UInt8) :
    (if p.bufferedLen = 0 then expectedLenFromLeadByte byte
      else if ¬ isContinuationByte byte then none
      else some p.expectedLen) = nextExpectedLen p byte := by
  unfold nextExpectedLen
  by_cases hlead : p.bufferedLen = 0
  · rw [if_pos hlead, if_pos hlead]
  · rw [if_neg hlead, if_neg hlead]
    by_cases hcont : isContinuationByte byte = true
    · rw [if_neg (not_not_intro hcont), if_pos hcont]
    · rw [if_pos hcont, if_neg hcont]

/-- The loop over a slice takes the same turns as the loop over the bytes not yet read. -/
theorem decodeUtf8Loop_eq (input : List UInt8) (p : Pending) :
    decodeUtf8Loop input p.bytes p.bufferedLen p.expectedLen p.consumed =
      decodeLoop p (input.drop p.consumed) := by
  -- Induction on the room left in the buffer: every turn that goes on fills one byte.
  induction hroom : maxUtf8Bytes - p.bufferedLen generalizing p with
  | zero =>
    have hfull : ¬ p.bufferedLen < maxUtf8Bytes := by omega
    rw [decodeUtf8Loop, if_neg hfull]
    cases input.drop p.consumed with
    | nil => rfl
    | cons byte rest =>
      rw [decodeLoop, if_neg (fun hc => hfull hc.1)]
  | succ room ih =>
    have hlt : p.bufferedLen < maxUtf8Bytes := by omega
    rw [decodeUtf8Loop, if_pos hlt]
    by_cases hdone : p.expectedLen ≠ 0 ∧ p.bufferedLen = p.expectedLen
    · rw [if_pos hdone, decodeLoop_complete ⟨hdone.2, hdone.1⟩]
    rw [if_neg hdone]
    by_cases hread : p.consumed < input.length
    · rw [dif_pos hread, List.drop_eq_getElem_cons hread, decodeLoop, if_pos ⟨hlt, hdone⟩]
      dsimp only
      rw [nextExpectedLen_eq_ite p input[p.consumed]]
      unfold acceptByte
      cases nextExpectedLen p input[p.consumed] with
      | none => rfl
      | some len =>
        dsimp only
        by_cases hbad : p.bufferedLen + 1 < len ∧
            ¬ partialPrefixIsValid (p.bytes.setIfInBounds p.bufferedLen input[p.consumed])
              (p.bufferedLen + 1) len
        · rw [if_pos hbad, if_pos hbad]
        · rw [if_neg hbad, if_neg hbad]
          exact ih ⟨_, p.bufferedLen + 1, len, p.consumed + 1⟩ (by dsimp only; omega)
    · rw [dif_neg hread, List.drop_eq_nil_of_le (by omega)]
      rfl

/-- The entry checks of `decode_utf8` refuse the states that `mbrtowc` refuses. -/
theorem decodeUtf8_refused {state : MbState} (h : loadPending state = none)
    (input : List UInt8) : decodeUtf8 state input = (.new, .invalid 0) := by
  unfold loadPending at h
  unfold decodeUtf8
  dsimp only at h ⊢
  by_cases hreserved : ¬ shortBytesAreZero state.reserved
  · rw [if_pos hreserved]
  rw [if_neg hreserved] at h ⊢
  by_cases hempty : state.pendingLen.toNat = 0
  · rw [if_pos hempty] at h
    by_cases hstale : state.expectedLen.toNat ≠ 0 ∨ ¬ bytesAreZero state.bytes
    · rw [if_pos ⟨hempty, hstale⟩]
    · rw [if_neg hstale] at h
      exact absurd h (by simp)
  · rw [if_neg hempty] at h
    rw [if_neg (fun hc => hempty hc.1)]
    split at h
    · rename_i hbad
      rw [if_pos ⟨hempty, hbad⟩]
    · exact absurd h (by simp)

/-- Loading a state copies its fields, and nothing of it is lost. -/
theorem loadPending_fields {state : MbState} {p : Pending} (h : loadPending state = some p) :
    shortBytesAreZero state.reserved = true ∧ p.bytes = state.bytes ∧
      p.bufferedLen = state.pendingLen.toNat ∧ p.expectedLen = state.expectedLen.toNat ∧
      p.consumed = 0 := by
  unfold loadPending at h
  dsimp only at h
  by_cases hreserved : ¬ shortBytesAreZero state.reserved
  · rw [if_pos hreserved] at h
    exact absurd h (by simp)
  rw [if_neg hreserved] at h
  have hzero : shortBytesAreZero state.reserved = true := Classical.not_not.mp hreserved
  by_cases hempty : state.pendingLen.toNat = 0
  · rw [if_pos hempty] at h
    by_cases hstale : state.expectedLen.toNat ≠ 0 ∨ ¬ bytesAreZero state.bytes
    · rw [if_pos hstale] at h
      exact absurd h (by simp)
    · rw [if_neg hstale, Option.some.injEq] at h
      subst h
      exact ⟨hzero, rfl, hempty.symm, by dsimp only; omega, rfl⟩
  · rw [if_neg hempty] at h
    split at h
    · exact absurd h (by simp)
    · rw [Option.some.injEq] at h
      subst h
      exact ⟨hzero, rfl, rfl, rfl, rfl⟩

theorem shortBytesAreZero_eq {bytes : Vector UInt8 2} (h : shortBytesAreZero bytes = true) :
    bytes = #v[0, 0] := by
  unfold shortBytesAreZero at h
  rw [Bool.and_eq_true, beq_iff_eq, beq_iff_eq] at h
  apply Vector.ext
  intro i hi
  cases i with
  | zero => exact h.1
  | succ i =>
    cases i with
    | zero => exact h.2
    | succ i => omega

/-- Storing the locals that were just loaded changes nothing. -/
theorem setPartial_loadPending {state : MbState} {p : Pending} (h : loadPending state = some p) :
    MbState.setPartial p.bytes p.bufferedLen p.expectedLen = state := by
  have hfields := loadPending_fields h
  unfold MbState.setPartial
  rw [hfields.2.1, hfields.2.2.1, hfields.2.2.2.1, UInt8.ofNat_toNat, UInt8.ofNat_toNat,
    ← shortBytesAreZero_eq hfields.1]

/-- The entry checks of `decode_utf8` pass the states that `mbrtowc` loads. -/
theorem decodeUtf8_loaded {state : MbState} {p : Pending} (h : loadPending state = some p)
    (input : List UInt8) :
    decodeUtf8 state input = decodeUtf8Finish (decodeLoop p input) := by
  have hfields := loadPending_fields h
  have hloop := decodeUtf8Loop_eq input p
  rw [hfields.2.2.2.2, hfields.2.1, hfields.2.2.1, hfields.2.2.2.1, List.drop_zero] at hloop
  unfold decodeUtf8
  dsimp only
  rw [if_neg (not_not_intro hfields.1), hloop]
  unfold loadPending at h
  dsimp only at h
  rw [if_neg (not_not_intro hfields.1)] at h
  by_cases hempty : state.pendingLen.toNat = 0
  · rw [if_pos hempty] at h
    have hstale : ¬ (state.expectedLen.toNat ≠ 0 ∨ ¬ bytesAreZero state.bytes) := by
      intro hbad
      rw [if_pos hbad] at h
      exact absurd h (by simp)
    rw [if_neg (fun hc => hstale hc.2), if_neg (fun hc => hc.1 hempty)]
  · rw [if_neg hempty] at h
    rw [if_neg (fun hc => hempty hc.1), if_neg]
    rintro ⟨-, hbad⟩
    rw [if_pos hbad] at h
    exact absurd h (by simp)

/-- `decode_utf8` and `mbrtowc` are one decoder: on every state, well formed or not, and on every
input they report the same and leave the same state. -/
theorem decodeUtf8_mbrtowc (state : MbState) (input : List UInt8) :
    (decodeUtf8 state input).2.Corresponds (mbrtowcWithState state (some input)) ∧
      (decodeUtf8 state input).1 = (mbrtowcWithState state (some input)).state := by
  unfold mbrtowcWithState
  cases hload : loadPending state with
  | none =>
    rw [decodeUtf8_refused hload]
    exact ⟨⟨rfl, rfl, rfl⟩, rfl⟩
  | some p =>
    rw [decodeUtf8_loaded hload]
    dsimp only
    by_cases hinput : input.length = 0
    · -- `mbrtowc` returns before its loop; `decode_utf8` stores what it loaded.
      have hpart : p.expectedLen = 0 ∨ p.bufferedLen < p.expectedLen := by
        cases (loadPending_open hload).1 with
        | inl hinit => exact Or.inl hinit.2
        | inr hvalid => exact Or.inr (partialPrefixIsValid_bounds hvalid).2.1
      rw [if_pos hinput, List.length_eq_zero_iff.mp hinput]
      simp only [decodeLoop, decodeUtf8Finish, if_pos hpart]
      exact ⟨⟨rfl, rfl, rfl⟩, setPartial_loadPending hload⟩
    · rw [if_neg hinput]
      cases decodeLoop p input with
      | error consumed => exact ⟨⟨rfl, rfl, rfl⟩, rfl⟩
      | ok q =>
        dsimp only
        unfold finishPending decodeUtf8Finish
        dsimp only
        by_cases hpart : q.expectedLen = 0 ∨ q.bufferedLen < q.expectedLen
        · rw [if_pos hpart, if_pos hpart]
          exact ⟨⟨rfl, rfl, rfl⟩, rfl⟩
        · rw [if_neg hpart, if_neg hpart]
          cases decodeUtf8Scalar q.bytes q.expectedLen with
          | none => exact ⟨⟨rfl, rfl, rfl⟩, rfl⟩
          | some codePoint => exact ⟨⟨rfl, rfl, rfl⟩, rfl⟩

end Rlibc.Wchar
