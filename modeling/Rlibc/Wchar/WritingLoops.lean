import Rlibc.Wchar.ReadingLoops

/-!
# Writing one wide character after another

A program can convert a wide string with one call of `wcstombs` or with a call of `wctomb` for each
character of it.  Both ways write the same bytes, and what was read one character after another is
written back as it was.
-/

namespace Rlibc.Wchar

open Utf8Sequences

section
variable {T : Type} [DecidableEq T]

/-- A call of `wctomb` for each wide character, up to the first failure: the bytes written, whether
all were written, and the states after it. -/
inductive WritesWide (thread : T) : States T → List Int → List UInt8 → Bool → States T → Prop
  | done {states : States T} : WritesWide thread states [] [] true states
  | failure {states states' : States T} {wide : Int} {units : List Int} {reply : Reply}
      (call : wctomb thread true wide states = some (reply, states')) (negative : reply.ret = -1) :
      WritesWide thread states (wide :: units) [] false states'
  | next {states states' states'' : States T} {wide : Int} {units : List Int} {reply : Reply}
      {bytes : List UInt8} {ended : Bool}
      (call : wctomb thread true wide states = some (reply, states')) (written : 0 ≤ reply.ret)
      (later : WritesWide thread states' units bytes ended states'') :
      WritesWide thread states (wide :: units) (reply.bytes ++ bytes) ended states''

/-- The calls determine what is written. -/
theorem WritesWide.unique {thread : T} {states left right : States T} {units : List Int}
    {bytes bytes' : List UInt8} {ended ended' : Bool}
    (h : WritesWide thread states units bytes ended left)
    (h' : WritesWide thread states units bytes' ended' right) :
    bytes = bytes' ∧ ended = ended' ∧ left = right := by
  induction h generalizing bytes' ended' right with
  | done =>
    cases h'
    exact ⟨rfl, rfl, rfl⟩
  | failure call negative =>
    cases h' with
    | failure call' negative' =>
      cases call.symm.trans call'
      exact ⟨rfl, rfl, rfl⟩
    | next call' written later =>
      cases call.symm.trans call'
      omega
  | next call written later ih =>
    cases h' with
    | failure call' negative =>
      cases call.symm.trans call'
      omega
    | next call' written' later' =>
      cases call.symm.trans call'
      obtain ⟨hbytes, hended, hstates⟩ := ih later'
      rw [hbytes]
      exact ⟨rfl, hended, hstates⟩

theorem wctomb_char (thread : T) (states : States T) (c : Char) :
    wctomb thread true c.toNat states =
      some (.stored (encode c).length (encode c), states) := by
  obtain ⟨bytes, hencode, htake⟩ := encodeUtf8Scalar_char c
  unfold wctomb
  rw [if_neg (by decide), hencode]
  dsimp only
  rw [htake, cIntTryFrom_of_le (encode_length_le c)]
  rfl

theorem wctomb_refused (thread : T) (states : States T) {wide : Int}
    (h : ∀ c : Char, wide ≠ c.toNat) :
    wctomb thread true wide states = some (.fail (-1), states) := by
  unfold wctomb
  rw [if_neg (by decide), encodeUtf8Scalar_none h]

/-- The calls write the characters in front, and stop at what is none. -/
theorem writesWide_split (thread : T) (states : States T) {units bad : List Int} {cs : List Char}
    (h : WideSplit units cs bad) :
    WritesWide thread states units (cs.flatMap encode) (decide (bad = [])) states := by
  induction cs generalizing units with
  | nil =>
    have hunits : units = bad := h.eq
    cases bad with
    | nil =>
      rw [hunits]
      exact .done
    | cons wide rest =>
      rw [hunits]
      exact .failure (wctomb_refused thread states (h.bad wide rest rfl)) rfl
  | cons c cs ih =>
    have hunits : units = (c.toNat : Int) :: (wides cs ++ bad) := h.eq
    have hlater := ih ⟨rfl, h.bad⟩
    rw [hunits, List.flatMap_cons]
    exact .next (wctomb_char thread states c) (Int.natCast_nonneg _) hlater

/-- **A loop over `wctomb` writes what `wcstombs` writes.**  The calls for the characters of a wide
string, up to the first failure, write the bytes that `wcstombs` stores, fail where `wcstombs` fails,
and leave every state alone. -/
theorem writesWide_wcstombs (thread : T) (states : States T) (wide : WideText) :
    ∃ bytes ended,
      (∀ bytes' ended' after, WritesWide thread states wide.units bytes' ended' after ↔
        bytes' = bytes ∧ ended' = ended ∧ after = states) ∧
      ∀ room, bytes.length < room → wcstombs (some room) (some wide.units) =
        if ended then ⟨bytes.length, bytes ++ [0], none⟩ else sizeTErrorWithEilseq bytes := by
  obtain ⟨cs, bad, hsplit⟩ := exists_wideSplit wide.units
  have hrun := writesWide_split thread states hsplit
  refine ⟨cs.flatMap encode, decide (bad = []), ?_, ?_⟩
  · intro bytes' ended' after
    constructor
    · intro h
      exact h.unique hrun
    · intro h
      rw [h.1, h.2.1, h.2.2]
      exact hrun
  · intro room hroom
    rw [wcstombs_roomy hsplit (roomy_some hroom)]
    by_cases hnil : bad = []
    · rw [if_pos hnil, decide_eq_true hnil]
      rfl
    · rw [if_neg hnil, decide_eq_false hnil]
      rfl

/-- **What is read is written back.**  What the calls of `mbtowc` read of a string, the calls of
`wctomb` write without a failure, and the bytes are the string as far as it was read: all of it
exactly if the reading reached the terminator, which it does exactly on a well-formed string. -/
theorem copiesString (thread : T) (states : States T) (text : CText) {chars : List Int}
    {ended : Bool} {after : States T}
    (h : ReadsString thread (resetInternalMultibyteState thread states) text.bytes chars ended
      after) :
    ∃ bytes rest, WritesWide thread after chars bytes true after ∧ text.bytes = bytes ++ rest ∧
      Stuck rest ∧ (ended = true ↔ rest = []) ∧ (ended = true ↔ WellFormed text.bytes) := by
  obtain ⟨cs, stuck, hsplit⟩ := exists_split [] text.bytes
  have hrun := readsString_split (resetInternalMultibyteState_new thread states) text.noNul hsplit
  obtain ⟨hchars, hended, -⟩ := h.unique hrun
  have hwrites := writesWide_split thread after (wideSplit_wides cs)
  rw [hchars]
  refine ⟨cs.flatMap encode, stuck, hwrites, hsplit.eq, hsplit.stuck, ?_, ?_⟩
  · rw [hended, decide_eq_true_eq]
  · rw [hended, decide_eq_true_eq, hsplit.wellFormed_iff]

end

/-- The three bytes of U+20AC are read as one character and written back. -/
theorem copiesString_euro :
    WritesWide () (fun _ => .new) [0x20AC] [0xE2, 0x82, 0xAC] true (fun _ => .new) := by
  have hreset : resetInternalMultibyteState () (fun _ => .new) = fun _ => .new :=
    Function.update_eq_self _ _
  have hsplit : Split [] [0xE2, 0x82, 0xAC] ['€'] [] := split_flatMap ['€']
  have hread : ReadsString () (fun _ => .new) [0xE2, 0x82, 0xAC] [0x20AC] true (fun _ => .new) :=
    readsString_split rfl (by decide) hsplit
  rw [← hreset] at hread ⊢
  obtain ⟨bytes, rest, hwrites, heq, -, hnil, -⟩ :=
    copiesString () (fun _ => .new) ⟨[0xE2, 0x82, 0xAC], by decide, by decide⟩ hread
  have hbytes : [0xE2, 0x82, 0xAC] = bytes := by
    rw [hnil.mp rfl, List.append_nil] at heq
    exact heq
  rw [hbytes]
  exact hwrites

end Rlibc.Wchar
