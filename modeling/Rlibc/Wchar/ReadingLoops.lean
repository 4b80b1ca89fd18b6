import Rlibc.Wchar.MultibyteRuns
import Rlibc.Wchar.StringRoundTrip

/-!
# Reading a string one character after another

A program can convert a string with one call of `mbstowcs`, or reset the state of `mbtowc` and call
it again and again, each time behind the bytes that it took.  Both ways see the same characters.
-/

namespace Rlibc.Wchar

open Utf8Sequences

section
variable {T : Type} [DecidableEq T]

/-- The calls of `mbtowc` on what is left of a string and its terminator, up to the terminator or
the first failure: the characters, whether the terminator was reached, and the states after it. -/
inductive ReadsString (thread : T) :
    States T → List UInt8 → List Int → Bool → States T → Prop
  | terminator {states states' : States T} {cursor : List UInt8} {reply : Reply}
      (call : mbtowc thread true (some (cursor ++ [0])) states = some (reply, states'))
      (zero : reply.ret = 0) : ReadsString thread states cursor [] true states'
  | failure {states states' : States T} {cursor : List UInt8} {reply : Reply}
      (call : mbtowc thread true (some (cursor ++ [0])) states = some (reply, states'))
      (negative : reply.ret = -1) : ReadsString thread states cursor [] false states'
  | next {states states' states'' : States T} {cursor : List UInt8} {reply : Reply} {wide : Int}
      {rest : List Int} {ended : Bool}
      (call : mbtowc thread true (some (cursor ++ [0])) states = some (reply, states'))
      (positive : 0 < reply.ret) (stored : reply.wide = some wide)
      (later : ReadsString thread states' (cursor.drop reply.ret.toNat) rest ended states'') :
      ReadsString thread states cursor (wide :: rest) ended states''

/-- The calls determine what is read. -/
theorem ReadsString.unique {thread : T} {states left right : States T} {cursor : List UInt8}
    {chars chars' : List Int} {ended ended' : Bool}
    (h : ReadsString thread states cursor chars ended left)
    (h' : ReadsString thread states cursor chars' ended' right) :
    chars = chars' ∧ ended = ended' ∧ left = right := by
  -- induction on the first run; both make the same call
  induction h generalizing chars' ended' right with
  | terminator call zero =>
    cases h' with
    | terminator call' zero' =>
      cases call.symm.trans call'
      exact ⟨rfl, rfl, rfl⟩
    | failure call' negative =>
      cases call.symm.trans call'
      omega
    | next call' positive stored later =>
      cases call.symm.trans call'
      omega
  | failure call negative =>
    cases h' with
    | terminator call' zero =>
      cases call.symm.trans call'
      omega
    | failure call' negative' =>
      cases call.symm.trans call'
      exact ⟨rfl, rfl, rfl⟩
    | next call' positive stored later =>
      cases call.symm.trans call'
      omega
  | next call positive stored later ih =>
    cases h' with
    | terminator call' zero =>
      cases call.symm.trans call'
      omega
    | failure call' negative =>
      cases call.symm.trans call'
      omega
    | next call' positive' stored' later' =>
      cases call.symm.trans call'
      rw [stored, Option.some.injEq] at stored'
      obtain ⟨hchars, hended, hstates⟩ := ih later'
      rw [stored', hchars]
      exact ⟨rfl, hended, hstates⟩

/-- A call between characters is `readWide` on the state of the thread. -/
theorem mbtowc_readWide {thread : T} {states : States T} {cursor : List UInt8}
    {result : MbrtowcResult} (hnew : states (.internal thread) = .new)
    (hread : readWide .new cursor = result) :
    mbtowc thread true (some (cursor ++ [0])) states =
      (mbrResultToInt ⟨result.ret, result.wide, [], result.errno⟩).map fun reply =>
        (reply, Function.update states (.internal thread) result.state) := by
  rw [← hread, ← hnew]
  rfl

/-- Behind a reset, the calls read the sequences of the string and stop where none begins. -/
theorem readsString_split {thread : T} {states : States T}
    (hnew : states (.internal thread) = .new) {cursor stuck : List UInt8} {cs : List Char}
    (hnul : 0 ∉ cursor) (h : Split [] cursor cs stuck) :
    ReadsString thread states cursor (wides cs) (decide (stuck = [])) states := by
  have hsame : Function.update states (.internal thread) .new = states := by
    rw [← hnew]
    exact Function.update_eq_self _ _
  induction cs generalizing cursor with
  | nil =>
    have hrest : cursor = stuck := h.eq
    by_cases hempty : stuck = []
    · subst hempty
      subst hrest
      have hcall := mbtowc_readWide hnew readWide_terminator
      rw [hsame] at hcall
      exact .terminator hcall rfl
    · have hread : readWide .new cursor = resetStateAndFail :=
        readWide_stuck MbState.new_valid (hrest ▸ h.stuck) (hrest ▸ hempty)
      have hcall := mbtowc_readWide hnew hread
      rw [show resetStateAndFail.state = MbState.new from rfl, hsame] at hcall
      rw [decide_eq_false hempty]
      exact .failure hcall rfl
  | cons c cs ih =>
    obtain ⟨hlonger, hc, hread⟩ := readWide_char MbState.new_valid hnul h
    have hlen : (encode c).length ≤ 4 := encode_length_le c
    have hcall := mbtowc_readWide hnew hread
    rw [mbrResultToInt_of_le (by rw [Nat.sub_le_iff_le_add]; omega) _ _, hsame] at hcall
    have hlater := ih (drop_nul hnul _) (h.next hlonger)
    exact .next hcall (Int.natCast_pos.mpr (Nat.sub_pos_of_lt hlonger)) rfl hlater

theorem resetInternalMultibyteState_new (thread : T) (states : States T) :
    resetInternalMultibyteState thread states (.internal thread) = .new :=
  Function.update_self _ _ _

/-- **A loop over `mbtowc` reads what `mbstowcs` reads.**  A thread that resets its state, whatever
the state was, and calls `mbtowc` on what is left of a string until the terminator or a failure has
one run; it gets the characters that `mbstowcs` stores, fails where `mbstowcs` fails, and leaves the
state as the reset did. -/
theorem readsString_mbstowcs (thread : T) (states : States T) (text : CText) :
    ∃ chars ended,
      (∀ chars' ended' after,
        ReadsString thread (resetInternalMultibyteState thread states) text.bytes chars' ended'
            after ↔
          chars' = chars ∧ ended' = ended ∧ after = resetInternalMultibyteState thread states) ∧
      ∀ room, chars.length < room → mbstowcs (some room) (some text.bytes) =
        if ended then ⟨chars.length, chars ++ [0], none⟩ else sizeTErrorWithEilseq chars := by
  obtain ⟨cs, stuck, hsplit⟩ := exists_split [] text.bytes
  have hrun := readsString_split (resetInternalMultibyteState_new thread states) text.noNul hsplit
  refine ⟨wides cs, decide (stuck = []), ?_, ?_⟩
  · intro chars' ended' after
    constructor
    · intro h
      exact h.unique hrun
    · intro h
      rw [h.1, h.2.1, h.2.2]
      exact hrun
  · intro room hroom
    rw [wides_length] at hroom ⊢
    rw [mbstowcs_roomy text.noNul hsplit (roomy_some hroom)]
    by_cases hnil : stuck = []
    · rw [if_pos hnil, decide_eq_true hnil]
      rfl
    · rw [if_neg hnil, decide_eq_false hnil]
      rfl

end

end Rlibc.Wchar
