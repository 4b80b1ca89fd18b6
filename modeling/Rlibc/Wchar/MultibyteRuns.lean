import Rlibc.Foundations.Calls
import Rlibc.Wchar.MultibyteCalls

/-!
# Decoders behind the conversion states

A conversion state is a decoder in the middle of a character: it holds the bytes of the character
that it has seen.  A snapshot that no call leaves holds nothing, and is given up by the first call
that reads with it.  Every `mbstate_t` of the program and of each thread answers as such a decoder
would if it were the only one.
-/

namespace Rlibc.Wchar

open Utf8Sequences

/-- What a decoder says to the bytes of a call. -/
inductive Decoded where
  | reset
  | char (c : Char) (taken : Nat)
  | more
  | refused

namespace Decoded

/-- The reply of a function that returns a `size_t`. -/
def sizeReply (pwc : Bool) : Decoded → Reply
  | .reset => ⟨0, if pwc then some 0 else none, [], none⟩
  | .char c taken =>
    ⟨if c.toNat = 0 then 0 else taken, if pwc then some (c.toNat : Int) else none, [], none⟩
  | .more => .value mbrErrIncomplete
  | .refused => .fail mbrErrInvalid

/-- The reply of a function that returns an `int` and has no number for an unfinished character. -/
def intReply (pwc : Bool) : Decoded → Reply
  | .reset => .value 0
  | .char c taken =>
    ⟨if c.toNat = 0 then 0 else taken, if pwc then some (c.toNat : Int) else none, [], none⟩
  | .more => .fail (-1)
  | .refused => .fail (-1)

end Decoded

/-- The bytes held and the new ones are one text, of which the first character counts. -/
noncomputable def decode (before input : List UInt8) : Decoded × List UInt8 :=
  haveI := Classical.dec (∃ c, encode c <+: before ++ input)
  haveI := Classical.dec (Rejected (before ++ input))
  if h : ∃ c, encode c <+: before ++ input then
    (.char h.choose ((encode h.choose).length - before.length), [])
  else if Rejected (before ++ input) then (.refused, [])
  else (.more, before ++ input)

/-- The sequence of a `wchar_t` that is a character. -/
def encodeWide (wc : Int) : Option (List UInt8) :=
  if 0 ≤ wc ∧ wc.toNat.isValidChar then some (encode (.ofNat wc.toNat)) else none

/-- What a conversion state holds. -/
abbrev Held := Option (List UInt8)

noncomputable def Held.read (held : Held) (s : Option (List UInt8)) : Decoded × List UInt8 :=
  match s, held with
  | none, _ => (.reset, [])
  | some _, none => (.refused, [])
  | some input, some before => decode before input

/-- Writing with a state resets it, and fails in the middle of a character. -/
def Held.writeRestartable (held : Held) (wc : Int) : Reply × Held :=
  match if held = some [] then encodeWide wc else none with
  | none => (.fail mbrErrInvalid, some [])
  | some bytes => (.stored bytes.length bytes, some [])

/-- Writing without a state. -/
def write (wc : Int) : Reply :=
  match encodeWide wc with
  | none => .fail (-1)
  | some bytes => .stored bytes.length bytes

/-- The answer of one decoder. -/
noncomputable def Held.answer {T : Type} (held : Held) (request : Request T) : Reply × Held :=
  match request.call with
  | .mbrtowc pwc s _ => ((held.read s).1.sizeReply pwc, some (held.read s).2)
  | .mbrlen s _ => ((held.read s).1.sizeReply false, some (held.read s).2)
  | .mbsinit ps => (.value (if ps = none ∨ held = some [] then 1 else 0), held)
  | .wcrtomb s wc _ => if s then held.writeRestartable wc else (.value 1, some [])
  | .mblen s => ((held.read s).1.intReply false, some (held.read s).2)
  | .mbtowc pwc s => ((held.read s).1.intReply pwc, some (held.read s).2)
  | .wctomb s wc => if s then (write wc, held) else (.value 0, some [])

/-- The decoder that a state stands for. -/
def MbState.held (state : MbState) : Held :=
  if (loadPending state).isSome then some state.pending else none

/-! ## The decoder's cases -/

theorem decode_char {before input : List UInt8} {c : Char} (h : encode c <+: before ++ input) :
    decode before input = (.char c ((encode c).length - before.length), []) := by
  have hex : ∃ d, encode d <+: before ++ input := ⟨c, h⟩
  have hsame : hex.choose = c := encode_unique hex.choose_spec h
  unfold decode
  rw [dif_pos hex, hsame]

theorem decode_rejected {before input : List UInt8} (h : Rejected (before ++ input)) :
    decode before input = (.refused, []) := by
  have hnone : ¬ ∃ c, encode c <+: before ++ input := fun hex => h.stuck hex.choose hex.choose_spec
  unfold decode
  rw [dif_neg hnone, if_pos h]

/-- Inside a character, or before the first byte of one. -/
theorem decode_more {before input : List UInt8}
    (h : before ++ input = [] ∨ Started (before ++ input)) :
    decode before input = (.more, before ++ input) := by
  have hnone : ¬ ∃ c, encode c <+: before ++ input :=
    fun hex => stuck_of_open h hex.choose hex.choose_spec
  have hnot : ¬ Rejected (before ++ input) := by
    intro hrej
    cases h with
    | inl hnil =>
      obtain ⟨pre, hpre, hno, _⟩ := hrej
      rw [hnil, List.prefix_nil] at hpre
      apply hno 'a'
      rw [hpre]
      exact List.nil_prefix
    | inr hs => exact hrej.not_started hs
  unfold decode
  rw [dif_neg hnone, if_neg hnot]

theorem encodeWide_char (c : Char) : encodeWide c.toNat = some (encode c) := by
  have hvalid : 0 ≤ (c.toNat : Int) ∧ (c.toNat : Int).toNat.isValidChar :=
    ⟨Int.natCast_nonneg _, c.valid⟩
  unfold encodeWide
  rw [if_pos hvalid, Int.toNat_natCast, Char.ofNat_toNat]

theorem encodeWide_none {wc : Int} (h : ∀ c : Char, wc ≠ c.toNat) : encodeWide wc = none := by
  unfold encodeWide
  rw [if_neg]
  rintro ⟨hnonneg, hvalid⟩
  obtain ⟨c, hc⟩ := exists_char hvalid
  apply h c
  omega

/-! ## What a state holds -/

theorem held_of_valid {state : MbState} (h : state.Valid) : state.held = some state.pending :=
  if_pos h

theorem held_of_corrupted {state : MbState} (h : ¬ state.Valid) : state.held = none := if_neg h

@[simp]
theorem held_new : MbState.new.held = some [] := rfl

theorem isInitial_iff_held {state : MbState} :
    state.isInitial = true ↔ state.held = some [] := by
  constructor
  · intro h
    rw [MbState.eq_new_of_isInitial h]
    rfl
  · intro h
    by_cases hvalid : state.Valid
    · rw [held_of_valid hvalid, Option.some.injEq] at h
      rw [hvalid.eq_new h]
      rfl
    · rw [held_of_corrupted hvalid] at h
      cases h

/-- A character is at most four bytes long, so its length is an `int`. -/
theorem cIntTryFrom_of_le {n : Nat} (h : n ≤ 4) : cIntTryFrom (n : Int) = some (n : Int) := by
  have hfits : FitsCInt (n : Int) := ⟨by omega, by omega⟩
  exact if_pos hfits

theorem mbrResultToInt_of_le {n : Nat} (h : n ≤ 4) (wide errno : Option Int) :
    mbrResultToInt ⟨n, wide, [], errno⟩ = some ⟨n, wide, [], errno⟩ := by
  unfold mbrResultToInt
  dsimp only
  rw [if_neg, cIntTryFrom_of_le h]
  · rfl
  · unfold mbrErrInvalid mbrErrIncomplete usizeMax
    omega

/-- What one call of `mbrtowc` does, in terms of the decoder. -/
structure Follows (result : MbrtowcResult) (answer : Decoded × List UInt8) : Prop where
  ret : (result.ret : Int) = (answer.1.sizeReply true).ret
  wide : result.wide = (answer.1.sizeReply true).wide
  errno : result.errno = (answer.1.sizeReply true).errno
  held : result.state.held = some answer.2
  taken : ∀ c taken, answer.1 = .char c taken → taken ≤ 4

theorem follows_fail : Follows resetStateAndFail (.refused, []) where
  ret := rfl
  wide := rfl
  errno := rfl
  held := rfl
  taken c taken h := by cases h

theorem mbrtowcWithState_follows (state : MbState) (s : Option (List UInt8)) :
    Follows (mbrtowcWithState state s) (state.held.read s) := by
  cases s with
  | none => exact ⟨rfl, rfl, rfl, rfl, fun c taken h => by cases h⟩
  | some input =>
    by_cases hvalid : state.Valid
    · rw [held_of_valid hvalid]
      show Follows _ (decode state.pending input)
      by_cases hne : input = []
      · subst hne
        obtain ⟨p, hload⟩ := Option.isSome_iff_exists.mp hvalid
        have hseen := (loadPending_holds hload).2
        rw [mbrtowcWithState_empty hvalid, decode_more (by rwa [List.append_nil]), List.append_nil]
        exact ⟨rfl, rfl, rfl, held_of_valid hvalid, fun c taken h => by cases h⟩
      · cases mbrtowcWithState_verdict hvalid hne with
        | decoded c front longer call =>
          have hlen := encode_length_le c
          rw [call, decode_char front]
          refine ⟨?_, rfl, rfl, rfl, ?_⟩
          · show (((if c.toNat = 0 then 0 else _ : Nat)) : Int) = if c.toNat = 0 then 0 else _
            split_ifs <;> rfl
          · intro d taken h
            injection h with _ htaken
            omega
        | incomplete next begun valid kept call =>
          rw [call, decode_more (Or.inr begun)]
          refine ⟨rfl, rfl, rfl, ?_, fun c taken h => by cases h⟩
          rw [held_of_valid valid, kept]
        | invalid rejected call =>
          rw [call, decode_rejected rejected]
          exact follows_fail
    · have hload : loadPending state = none := Option.not_isSome_iff_eq_none.mp hvalid
      have hcall : mbrtowcWithState state (some input) = resetStateAndFail := by
        unfold mbrtowcWithState
        simp only [hload]
      rw [hcall, held_of_corrupted hvalid]
      exact follows_fail

theorem Follows.sizeReply {result : MbrtowcResult} {answer : Decoded × List UInt8}
    (h : Follows result answer) (pwc : Bool) :
    (⟨result.ret, if pwc then result.wide else none, [], result.errno⟩ : Reply) =
      answer.1.sizeReply pwc := by
  rw [h.ret, h.wide, h.errno]
  cases answer.1 <;> cases pwc <;> rfl

/-- Where an `int` is returned, an unfinished character is an error, and no count is too large. -/
theorem mbrResultToInt_sizeReply {d : Decoded} (hreset : d ≠ .reset)
    (htaken : ∀ c taken, d = .char c taken → taken ≤ 4) (pwc : Bool) :
    mbrResultToInt (d.sizeReply pwc) = some (d.intReply pwc) := by
  cases d with
  | reset => exact absurd rfl hreset
  | char c taken =>
    have hle := htaken c taken rfl
    generalize hcount : (if c.toNat = 0 then 0 else taken) = count
    have hsmall : count ≤ 4 := by
      rw [← hcount]
      split_ifs <;> omega
    have hret : (if c.toNat = 0 then 0 else (taken : Int)) = (count : Int) := by
      rw [← hcount]
      split_ifs <;> rfl
    unfold Decoded.sizeReply Decoded.intReply
    dsimp only
    rw [hret]
    exact mbrResultToInt_of_le hsmall _ _
  | more => rfl
  | refused => rfl

theorem read_ne_reset (held : Held) (input : List UInt8) : (held.read (some input)).1 ≠ .reset := by
  cases held with
  | none =>
    intro h
    cases h
  | some before =>
    show (decode before input).1 ≠ .reset
    unfold decode
    intro h
    split_ifs at h

/-- The two encoders agree: on the bytes of a character, or on a refusal. -/
theorem encodes_or_refuses (wc : Int) :
    (∃ c bytes, encodeUtf8Scalar wc = some (bytes, (encode c).length) ∧
        bytes.toList.take (encode c).length = encode c ∧ encodeWide wc = some (encode c)) ∨
      (encodeUtf8Scalar wc = none ∧ encodeWide wc = none) := by
  by_cases hchar : ∃ c : Char, wc = c.toNat
  · left
    obtain ⟨c, rfl⟩ := hchar
    obtain ⟨bytes, hcode, htake⟩ := encodeUtf8Scalar_char c
    exact ⟨c, bytes, hcode, htake, encodeWide_char c⟩
  · right
    have hno : ∀ c : Char, wc ≠ c.toNat := fun c hc => hchar ⟨c, hc⟩
    exact ⟨encodeUtf8Scalar_none hno, encodeWide_none hno⟩

theorem writeRestartable_stored {held : Held} {wc : Int} {bytes : List UInt8}
    (hheld : held = some []) (hwide : encodeWide wc = some bytes) :
    held.writeRestartable wc = (.stored bytes.length bytes, some []) := by
  unfold Held.writeRestartable
  rw [if_pos hheld, hwide]

theorem writeRestartable_fails {held : Held} {wc : Int}
    (h : held = some [] → encodeWide wc = none) :
    held.writeRestartable wc = (.fail mbrErrInvalid, some []) := by
  unfold Held.writeRestartable
  by_cases hheld : held = some []
  · rw [if_pos hheld, h hheld]
  · rw [if_neg hheld]

/-! ## One request -/

section
variable {T : Type} [DecidableEq T]

/-- A request answers as the decoder of its state does, and changes that state alone. -/
def Answered (states : States T) (request : Request T) : Prop :=
  ∃ state : MbState,
    request.perform states = some (((states request.ptr).held.answer request).1,
      Function.update states request.ptr state) ∧
    state.held = ((states request.ptr).held.answer request).2

theorem Answered.intro {states : States T} {request : Request T} (reply : Reply) (state : MbState)
    (hperform : request.perform states =
      some (reply, Function.update states request.ptr state))
    (hanswer : (states request.ptr).held.answer request = (reply, state.held)) :
    Answered states request := by
  refine ⟨state, ?_, ?_⟩
  · rw [hperform, hanswer]
  · rw [hanswer]

theorem mbrtowc_answered (states : States T) (thread : T) (pwc : Bool) (s : Option (List UInt8))
    (ps : Option Nat) : Answered states ⟨thread, .mbrtowc pwc s ps⟩ := by
  have h := mbrtowcWithState_follows (states (resolveStatePtr thread ps)) s
  exact ⟨_, congrArg some (Prod.ext (h.sizeReply pwc) rfl), h.held⟩

theorem mbtowc_answered (states : States T) (thread : T) (pwc : Bool) (s : Option (List UInt8)) :
    Answered states ⟨thread, .mbtowc pwc s⟩ := by
  cases s with
  | none => exact ⟨.new, rfl, rfl⟩
  | some input =>
    have h := mbrtowcWithState_follows (states (.internal thread)) (some input)
    have hint := mbrResultToInt_sizeReply (read_ne_reset _ input) h.taken pwc
    rw [← h.sizeReply pwc] at hint
    refine ⟨_, ?_, h.held⟩
    exact congrArg (Option.map fun reply => (reply, _)) hint

theorem mbsinit_answered (states : States T) (thread : T) (ps : Option Nat) :
    Answered states ⟨thread, .mbsinit ps⟩ := by
  refine ⟨states (resolveStatePtr thread ps), ?_, ?_⟩
  · show some (Reply.value (mbsinit ps states), states) =
      some (_, Function.update states (resolveStatePtr thread ps) _)
    rw [Function.update_eq_self]
    have hone : mbsinit ps states =
        if ps = none ∨ (states (resolveStatePtr thread ps)).held = some [] then 1 else 0 := by
      cases ps with
      | none => rfl
      | some ps =>
        rw [if_congr (or_iff_right (Option.some_ne_none ps)) rfl rfl]
        exact if_congr isInitial_iff_held rfl rfl
    rw [hone]
    rfl
  · rfl

theorem wcrtomb_stored {states : States T} {thread : T} {wc : Int} {ps : Option Nat}
    {bytes : SeqBuffer} {c : Char}
    (hinit : (states (resolveStatePtr thread ps)).isInitial = true)
    (hcode : encodeUtf8Scalar wc = some (bytes, (encode c).length))
    (htake : bytes.toList.take (encode c).length = encode c) :
    wcrtomb thread true wc ps states = (.stored (encode c).length (encode c),
      Function.update states (resolveStatePtr thread ps) .new) := by
  unfold wcrtomb
  dsimp only
  rw [if_neg (by decide), if_neg (not_not.mpr hinit), hcode]
  dsimp only
  rw [htake]

theorem wcrtomb_fails {states : States T} {thread : T} {wc : Int} {ps : Option Nat}
    (h : (states (resolveStatePtr thread ps)).isInitial = true → encodeUtf8Scalar wc = none) :
    wcrtomb thread true wc ps states =
      (.fail mbrErrInvalid, Function.update states (resolveStatePtr thread ps) .new) := by
  unfold wcrtomb
  dsimp only
  rw [if_neg (by decide)]
  by_cases hinit : (states (resolveStatePtr thread ps)).isInitial = true
  · rw [if_neg (not_not.mpr hinit), h hinit]
  · rw [if_pos hinit]

theorem wcrtomb_answered (states : States T) (thread : T) (s : Bool) (wc : Int)
    (ps : Option Nat) : Answered states ⟨thread, .wcrtomb s wc ps⟩ := by
  cases s with
  | false => exact ⟨.new, rfl, rfl⟩
  | true =>
    have hheld : (states (resolveStatePtr thread ps)).isInitial = true ↔ _ := isInitial_iff_held
    by_cases hready : (states (resolveStatePtr thread ps)).isInitial = true ∧
        encodeUtf8Scalar wc ≠ none
    · have hcodes := (encodes_or_refuses wc).resolve_right fun h => hready.2 h.1
      obtain ⟨c, bytes, hcode, htake, hwide⟩ := hcodes
      apply Answered.intro (.stored (encode c).length (encode c)) .new
      · exact congrArg some (wcrtomb_stored hready.1 hcode htake)
      · exact writeRestartable_stored (hheld.mp hready.1) hwide
    · have hnone : (states (resolveStatePtr thread ps)).isInitial = true →
          encodeUtf8Scalar wc = none := by
        intro hinit
        by_contra hcode
        exact hready ⟨hinit, hcode⟩
      apply Answered.intro (.fail mbrErrInvalid) .new
      · exact congrArg some (wcrtomb_fails hnone)
      · apply writeRestartable_fails
        intro h
        cases encodes_or_refuses wc with
        | inl hcodes =>
          obtain ⟨c, bytes, hcode, _⟩ := hcodes
          rw [hnone (hheld.mpr h)] at hcode
          cases hcode
        | inr hrefuses => exact hrefuses.2

theorem wctomb_answered (states : States T) (thread : T) (s : Bool) (wc : Int) :
    Answered states ⟨thread, .wctomb s wc⟩ := by
  cases s with
  | false => exact ⟨.new, rfl, rfl⟩
  | true =>
    rcases encodes_or_refuses wc with ⟨c, bytes, hcode, htake, hwide⟩ | ⟨hcode, hwide⟩
    · have hwrite : write wc = .stored (encode c).length (encode c) := by
        unfold write
        rw [hwide]
      apply Answered.intro (.stored (encode c).length (encode c)) (states (.internal thread))
      · show wctomb thread true wc states = some (_, Function.update states (.internal thread) _)
        unfold wctomb
        rw [if_neg (by decide), hcode, Function.update_eq_self]
        dsimp only
        rw [cIntTryFrom_of_le (encode_length_le c), htake]
        rfl
      · exact congrArg (·, (states (.internal thread)).held) hwrite
    · have hwrite : write wc = .fail (-1) := by
        unfold write
        rw [hwide]
      apply Answered.intro (.fail (-1)) (states (.internal thread))
      · show wctomb thread true wc states = some (_, Function.update states (.internal thread) _)
        unfold wctomb
        rw [if_neg (by decide), hcode, Function.update_eq_self]
      · exact congrArg (·, (states (.internal thread)).held) hwrite

theorem answered (states : States T) (request : Request T) : Answered states request := by
  obtain ⟨thread, call⟩ := request
  cases call with
  | mbrtowc pwc s ps => exact mbrtowc_answered states thread pwc s ps
  | mbrlen s ps => exact mbrtowc_answered states thread false s ps
  | mbsinit ps => exact mbsinit_answered states thread ps
  | wcrtomb s wc ps => exact wcrtomb_answered states thread s wc ps
  | mblen s => exact mbtowc_answered states thread false s
  | mbtowc pwc s => exact mbtowc_answered states thread pwc s
  | wctomb s wc => exact wctomb_answered states thread s wc

/-! ## Runs -/

/-- Every state stands for its decoder. -/
def Stands (states : States T) (decoders : StatePtr T → Held) : Prop :=
  ∀ ptr, (states ptr).held = decoders ptr

theorem stands_perform (states : States T) (decoders : StatePtr T → Held) (request : Request T)
    (h : Stands states decoders) :
    ∃ after, request.perform states =
        some ((Calls.onCells Request.ptr Held.answer decoders request).1, after) ∧
      Stands after (Calls.onCells Request.ptr Held.answer decoders request).2 := by
  obtain ⟨state, hperform, hstate⟩ := answered states request
  rw [h request.ptr] at hperform hstate
  refine ⟨_, hperform, ?_⟩
  intro ptr
  show (Function.update states request.ptr state ptr).held =
    Function.update decoders request.ptr ((decoders request.ptr).answer request).2 ptr
  by_cases hptr : ptr = request.ptr
  · rw [hptr, Function.update_self, Function.update_self]
    exact hstate
  · rw [Function.update_of_ne hptr, Function.update_of_ne hptr]
    exact h ptr

/-- **The calls on single characters are decoders that do not meet.**  In every run of calls by any
threads nothing is `unreachable!`, and each conversion state answers the calls on it as its
decoder does, whatever is called on other states in between. -/
theorem conversions_answer (states : States T) (requests : List (Request T)) :
    ∃ replies after, Calls.run Request.perform states requests = some (replies, after) ∧
      ∀ ptr, (Calls.repliesAt Request.ptr ptr requests replies, (after ptr).held) =
        Calls.answers Held.answer (states ptr).held (Calls.callsAt Request.ptr ptr requests) := by
  have hstart : Stands states fun ptr => (states ptr).held := fun _ => rfl
  obtain ⟨after, hafter, hheld⟩ := Calls.run_refines stands_perform hstart requests
  refine ⟨_, after, hafter, ?_⟩
  intro ptr
  rw [hheld ptr]
  exact Calls.answers_onCells Request.ptr Held.answer _ requests ptr

end

end Rlibc.Wchar
