import Rlibc.Wchar.DecoderExact

/-!
# Whole-string conversions

`mbstowcs`, `mbsrtowcs`, `wcstombs` and `wcsrtombs` run the one-character conversions over a
terminated string.  A string is the list of its elements before the terminator, and a pointer
into it is the list of those from there on.  A destination is `none` for a null pointer and
otherwise its `len`; what a call stores there is the list of the elements from the first one.
-/

namespace Rlibc.Wchar

open Utf8Sequences

/-- A C string: no zero byte, and it lies in memory with its terminator. -/
structure CText where
  bytes : List UInt8
  noNul : 0 ∉ bytes
  fits : bytes.length < usizeMax

/-- A wide C string. -/
structure WideText where
  units : List Int
  units_fit : ∀ wide ∈ units, FitsCInt wide
  noNul : 0 ∉ units
  fits : 4 * units.length < usizeMax

/-- `mbrtowc_with_state` on the `bytes_until_nul(cursor) + 1` bytes from the cursor. -/
def readWide (state : MbState) (cursor : List UInt8) : MbrtowcResult :=
  mbrtowcWithState state (some (cursor ++ [0]))

theorem readWide_invalid_state {state : MbState} (h : ¬ state.Valid) (cursor : List UInt8) :
    readWide state cursor = resetStateAndFail := by
  unfold MbState.Valid at h
  rw [Option.not_isSome_iff_eq_none] at h
  unfold readWide mbrtowcWithState
  rw [h]

/-- A character other than the terminator lies before the terminator. -/
theorem readWide_ret_le {state : MbState} {cursor : List UInt8}
    (hinvalid : (readWide state cursor).ret ≠ mbrErrInvalid)
    (hincomplete : (readWide state cursor).ret ≠ mbrErrIncomplete)
    (hzero : (readWide state cursor).ret ≠ 0) : (readWide state cursor).ret ≤ cursor.length := by
  by_cases hvalid : state.Valid
  · have hne : cursor ++ [0] ≠ [] :=
      List.append_ne_nil_of_right_ne_nil _ (List.cons_ne_nil _ _)
    unfold readWide at hinvalid hincomplete hzero ⊢
    cases mbrtowcWithState_verdict hvalid hne with
    | decoded c front longer call =>
      rw [call] at hzero ⊢
      dsimp only at hzero ⊢
      by_cases hc : c.toNat = 0
      · exact absurd (if_pos hc) hzero
      rw [if_neg hc]
      rw [← List.append_assoc] at front
      rcases List.prefix_concat_iff.mp front with heq | hpre
      · have hmem : 0 ∈ encode c := heq ▸ List.mem_append_right _ (List.mem_singleton_self _)
        exact absurd (zero_mem_encode hmem).2 hc
      · have hle := hpre.length_le
        rw [List.length_append] at hle
        omega
    | incomplete next begun valid kept call => exact absurd (by rw [call]) hincomplete
    | invalid rejected call => exact absurd (by rw [call]; rfl) hinvalid
  · exact absurd (by rw [readWide_invalid_state hvalid]; rfl) hinvalid

/-! ## From bytes to wide characters -/

/-- Why a conversion loop stops. -/
inductive StopReason where
  | invalid
  | incomplete
  | terminator
  /-- The destination has no room for more. -/
  | full
  deriving DecidableEq, Repr

/-- The locals of a loop from bytes to wide characters when it stops. -/
structure WideStop where
  reason : StopReason
  converted : List Int
  cursor : List UInt8
  state : MbState
  deriving DecidableEq, Repr

/-- The loop that `mbstowcs` and `mbsrtowcs` share; without a limit it only counts. -/
def toWideLoop (limit : Option Nat) (state : MbState) (cursor : List UInt8) (converted : List Int) :
    WideStop :=
  if limit = some converted.length then ⟨.full, converted, cursor, state⟩
  else if _hinvalid : (readWide state cursor).ret = mbrErrInvalid then
    ⟨.invalid, converted, cursor, (readWide state cursor).state⟩
  else if _hincomplete : (readWide state cursor).ret = mbrErrIncomplete then
    ⟨.incomplete, converted, cursor, (readWide state cursor).state⟩
  else if _hzero : (readWide state cursor).ret = 0 then
    ⟨.terminator, converted, cursor, (readWide state cursor).state⟩
  else
    toWideLoop limit (readWide state cursor).state (cursor.drop (readWide state cursor).ret)
      (converted ++ (readWide state cursor).wide.toList)
termination_by cursor.length
decreasing_by
  have hle := readWide_ret_le _hinvalid _hincomplete _hzero
  rw [List.length_drop]
  omega

/-- What `mbstowcs` and `wcstombs` leave: the return value, the elements stored and `errno`. -/
structure StringResult (α : Type) where
  ret : Nat
  written : List α
  errno : Option Int
  deriving DecidableEq, Repr

/-- `size_t_error_with_eilseq`, after the elements already stored. -/
def sizeTErrorWithEilseq {α : Type} (written : List α) : StringResult α :=
  ⟨usizeMax, written, some EILSEQ⟩

/-- What is stored of the converted elements: nothing through a null pointer. -/
def storedIn {α : Type} (dst : Option Nat) (converted : List α) : List α :=
  if dst.isSome then converted else []

/-- `mbstowcs`. -/
def mbstowcs (dst : Option Nat) (src : Option (List UInt8)) : StringResult Int :=
  match src with
  | none => sizeTErrorWithEilseq []
  | some text =>
    if dst = some 0 then ⟨0, [], none⟩
    else
      let stop := toWideLoop dst .new text []
      match stop.reason with
      | .full => ⟨stop.converted.length, storedIn dst stop.converted, none⟩
      | .invalid | .incomplete => sizeTErrorWithEilseq (storedIn dst stop.converted)
      -- The loop head leaves `count < limit` here, so there is room for the terminator.
      | .terminator => ⟨stop.converted.length, storedIn dst (stop.converted ++ [0]), none⟩

/-- What `mbsrtowcs` and `wcsrtombs` leave: the return value, the elements stored, the pointer in
`*src`, the conversion state and `errno`. -/
structure ResumeResult (σ α : Type) where
  ret : Nat
  written : List α
  src : Option (List σ)
  state : MbState
  errno : Option Int
  deriving DecidableEq, Repr

/-- `mbsrtowcs`.  `src` is `none` for a null pointer, and `some none` where it points to one. -/
def mbsrtowcs (dst : Option Nat) (src : Option (Option (List UInt8))) (state : MbState) :
    ResumeResult UInt8 Int :=
  match src with
  | none => ⟨usizeMax, [], none, state, some EILSEQ⟩
  | some none => ⟨0, [], none, .new, none⟩
  | some (some text) =>
    match dst with
    | none =>
      let stop := toWideLoop none state text []
      match stop.reason with
      | .invalid => ⟨mbrErrInvalid, [], some text, stop.state, some EILSEQ⟩
      | .incomplete => ⟨mbrErrInvalid, [], some text, .new, some EILSEQ⟩
      -- Without a limit the loop is never full.
      | .terminator | .full => ⟨stop.converted.length, [], some text, stop.state, none⟩
    | some capacity =>
      if capacity = 0 then ⟨0, [], some text, state, none⟩
      else
        let stop := toWideLoop (some capacity) state text []
        match stop.reason with
        | .invalid =>
          ⟨mbrErrInvalid, stop.converted, some stop.cursor, stop.state, some EILSEQ⟩
        | .incomplete => ⟨mbrErrInvalid, stop.converted, some stop.cursor, .new, some EILSEQ⟩
        | .terminator => ⟨stop.converted.length, stop.converted ++ [0], none, stop.state, none⟩
        | .full => ⟨stop.converted.length, stop.converted, some stop.cursor, stop.state, none⟩

/-! ## From wide characters to bytes -/

/-- The locals of a loop from wide characters to bytes when it stops. -/
structure ByteStop where
  reason : StopReason
  produced : List UInt8
  cursor : List Int
  deriving DecidableEq, Repr

/-- `byte_count + encoded_len > limit`, where there is a limit. -/
def overflows (limit : Option Nat) (byteCount : Nat) : Bool :=
  limit.any (· < byteCount)

/-- The loop of `wcsrtombs`. -/
def wcsrtombsLoop (limit : Option Nat) (cursor : List Int) (produced : List UInt8) : ByteStop :=
  match cursor with
  | [] => ⟨.terminator, produced, cursor⟩
  | wide :: rest =>
    match encodeUtf8Scalar wide with
    | none => ⟨.invalid, produced, cursor⟩
    | some (encoded, encodedLen) =>
      if overflows limit (produced.length + encodedLen) then ⟨.full, produced, cursor⟩
      else wcsrtombsLoop limit rest (produced ++ encoded.toList.take encodedLen)

/-- The loop of `wcstombs`, which looks at the room before it looks at the next character. -/
def wcstombsLoop (limit : Option Nat) (cursor : List Int) (produced : List UInt8) : ByteStop :=
  if limit = some produced.length then ⟨.full, produced, cursor⟩
  else
    match cursor with
    | [] => ⟨.terminator, produced, cursor⟩
    | wide :: rest =>
      match encodeUtf8Scalar wide with
      | none => ⟨.invalid, produced, cursor⟩
      | some (encoded, encodedLen) =>
        if overflows limit (produced.length + encodedLen) then ⟨.full, produced, cursor⟩
        else wcstombsLoop limit rest (produced ++ encoded.toList.take encodedLen)

/-- `wcstombs`. -/
def wcstombs (dst : Option Nat) (src : Option (List Int)) : StringResult UInt8 :=
  match src with
  | none => sizeTErrorWithEilseq []
  | some text =>
    if dst = some 0 then ⟨0, [], none⟩
    else
      let stop := wcstombsLoop dst text []
      match stop.reason with
      | .full => ⟨stop.produced.length, storedIn dst stop.produced, none⟩
      | .invalid | .incomplete => sizeTErrorWithEilseq (storedIn dst stop.produced)
      | .terminator => ⟨stop.produced.length, storedIn dst (stop.produced ++ [0]), none⟩

/-- `wcsrtombs`, with `src` as in `mbsrtowcs`. -/
def wcsrtombs (dst : Option Nat) (src : Option (Option (List Int))) (state : MbState) :
    ResumeResult Int UInt8 :=
  match src with
  | none => ⟨usizeMax, [], none, state, some EILSEQ⟩
  | some none => ⟨0, [], none, .new, none⟩
  | some (some text) =>
    if dst = some 0 then ⟨0, [], some text, state, none⟩
    else if ¬ state.isInitial then ⟨mbrErrInvalid, [], some text, .new, some EILSEQ⟩
    else
      match dst with
      | none =>
        let stop := wcsrtombsLoop none text []
        match stop.reason with
        | .invalid | .incomplete => ⟨mbrErrInvalid, [], some text, .new, some EILSEQ⟩
        | .terminator | .full => ⟨stop.produced.length, [], some text, .new, none⟩
      | some capacity =>
        let stop := wcsrtombsLoop (some capacity) text []
        match stop.reason with
        | .invalid | .incomplete =>
          ⟨mbrErrInvalid, stop.produced, some stop.cursor, .new, some EILSEQ⟩
        | .full => ⟨stop.produced.length, stop.produced, some stop.cursor, state, none⟩
        | .terminator =>
          if stop.produced.length < capacity then
            ⟨stop.produced.length, stop.produced ++ [0], none, .new, none⟩
          else ⟨stop.produced.length, stop.produced, some stop.cursor, state, none⟩

end Rlibc.Wchar
