import Rlibc.Stdio.FormatActions
import Rlibc.Stdio.IntegerConversion

/-!
# Sums of lengths

Which directives make `vsnprintf` compute a sum that does not fit, how many bytes it has produced at
the end, and what its result says of them.
-/

namespace Rlibc.Stdio

open ByteMem

/-! ## Directives with a short number -/

/-- A directive, and the memory and the cursor when the loop reaches it. -/
structure Reached where
  mem : Mem
  cursor : VarArgCursor
  directive : FormatDirective

namespace FormatDirective

def IsNumber (d : FormatDirective) : Prop :=
  d.conversion = 'p'.toUInt8 ∨ isIntegerConversion d.conversion = true

/-- An argument word, converted to the type of the directive. -/
def argument (d : FormatDirective) (word : Nat) : Int :=
  if d.conversion = 'p'.toUInt8 then word
  else if isSignedConversion d.conversion then Int.bmod word (2 ^ d.length.bits)
  else (word % 2 ^ d.length.bits : Nat)

/-- The characters in front of the digits of a number: one for a sign, two for `0x`. -/
def marks (d : FormatDirective) (value : Int) : Nat :=
  let flagged : Bool := d.flags.forceSign ∨ d.flags.leadingSpaceForPositive
  if d.conversion = 'p'.toUInt8 then (if flagged then 1 else 0) + 2
  else
    (if isSignedConversion d.conversion ∧ (value < 0 ∨ flagged) then 1 else 0) +
      (if (d.conversion = 'x'.toUInt8 ∨ d.conversion = 'X'.toUInt8) ∧ d.flags.alternateForm ∧
        value ≠ 0 then 2 else 0)

end FormatDirective

/-- If it is a number with a precision, so many digits behind the characters in front of them are
not too long for a `usize`. -/
def Reached.Short (r : Reached) : Prop :=
  r.directive.IsNumber → ∀ counts, resolveCounts r.mem r.cursor r.directive = some counts →
    ∀ precision, counts.precision = some precision →
      ∀ argument, counts.cursor.nextU64 r.mem = some argument →
        r.directive.marks (r.directive.argument argument.1) + precision ≤ usizeMax

theorem argument_natAbs_lt (d : FormatDirective) {word : Nat} (h : word < 2 ^ 64) :
    (d.argument word).natAbs < 2 ^ 64 := by
  unfold FormatDirective.argument
  split
  · exact h
  · split
    · rw [Int.bmod_def]
      rcases d.length.bits_cases with hbits | hbits | hbits | hbits
      all_goals
        rw [hbits]
        omega
    · rw [Int.natAbs_natCast]
      exact Nat.lt_of_le_of_lt (Nat.mod_le _ _) h

theorem argument_nonneg (d : FormatDirective) (word : Nat)
    (h : isSignedConversion d.conversion = false) : 0 ≤ d.argument word := by
  unfold FormatDirective.argument
  rw [if_neg (Bool.eq_false_iff.mp h)]
  split
  · exact Int.natCast_nonneg _
  · exact Int.natCast_nonneg _

/-- The marks of an integer are its sign and its radix mark. -/
theorem marks_field (d : FormatDirective) (leftAlign : Bool) (width : Nat)
    (precision : Option Nat) {value : Int} (h : isIntegerConversion d.conversion = true)
    (hvalue : isSignedConversion d.conversion = false → 0 ≤ value) :
    d.marks value =
      (d.field leftAlign width precision value.natAbs (value < 0)).sign.length +
        (d.field leftAlign width precision value.natAbs (value < 0)).radixMark.length := by
  have hpointer : d.conversion ≠ 'p'.toUInt8 := (integer_other h).2.2.2
  have hsign : (d.field leftAlign width precision value.natAbs (value < 0)).sign.length =
      if isSignedConversion d.conversion ∧
        (value < 0 ∨ d.flags.forceSign ∨ d.flags.leadingSpaceForPositive) then 1 else 0 := by
    rw [field_sign]
    unfold integerSign
    cases hsigned : isSignedConversion d.conversion with
    | true =>
      by_cases hneg : value < 0
      · simp [hneg]
      · cases hforce : d.flags.forceSign with
        | true => simp [hneg]
        | false =>
          cases hspace : d.flags.leadingSpaceForPositive with
          | true => simp [hneg]
          | false => simp [hneg]
    | false => simp [hvalue hsigned]
  have hradix : (d.field leftAlign width precision value.natAbs (value < 0)).radixMark.length =
      if (d.conversion = 'x'.toUInt8 ∨ d.conversion = 'X'.toUInt8) ∧ d.flags.alternateForm ∧
        value ≠ 0 then 2 else 0 := by
    change (if ¬d.flags.alternateForm = true ∨ value.natAbs = 0 then [] else
      if d.conversion = 'x'.toUInt8 then ['0'.toUInt8, 'x'.toUInt8]
      else if d.conversion = 'X'.toUInt8 then ['0'.toUInt8, 'X'.toUInt8] else []).length = _
    by_cases hplain : ¬d.flags.alternateForm = true ∨ value.natAbs = 0
    · rw [if_pos hplain, if_neg]
      · rfl
      · rintro ⟨-, hflag, hzero⟩
        exact hplain.elim (fun hnot => hnot hflag) fun habs => hzero (Int.natAbs_eq_zero.mp habs)
    · rw [if_neg hplain]
      have hmarked : d.flags.alternateForm = true ∧ value ≠ 0 := by
        rw [not_or, not_not, Int.natAbs_eq_zero] at hplain
        exact hplain
      by_cases hlower : d.conversion = 'x'.toUInt8
      · rw [if_pos hlower, if_pos ⟨Or.inl hlower, hmarked⟩]
        rfl
      · rw [if_neg hlower]
        by_cases hupper : d.conversion = 'X'.toUInt8
        · rw [if_pos hupper, if_pos ⟨Or.inr hupper, hmarked⟩]
          rfl
        · rw [if_neg hupper, if_neg fun hall => hall.1.elim hlower hupper]
          rfl
  rw [hsign, hradix]
  unfold FormatDirective.marks
  dsimp only
  rw [if_neg hpointer]
  simp only [decide_eq_true_eq]

theorem marks_le (d : FormatDirective) (value : Int) : d.marks value ≤ 3 := by
  unfold FormatDirective.marks
  dsimp only
  split
  · split
    · omega
    · omega
  · split
    · split
      · omega
      · omega
    · split
      · omega
      · omega

/-- A sum within the bounds that the precision sets fits exactly if the precision does. -/
theorem fits_iff {marks sum : Nat} {precision : Option Nat} (hmarks : marks ≤ 3)
    (hlow : marks + precision.getD 0 ≤ sum) (hhigh : sum ≤ marks + max (precision.getD 0) 65) :
    sum ≤ usizeMax ↔ ∀ p, precision = some p → marks + p ≤ usizeMax := by
  have hroom : 68 ≤ usizeMax := by decide
  cases precision with
  | none =>
    rw [Option.getD_none] at hhigh
    exact iff_of_true (by omega) fun p hp => by cases hp
  | some p =>
    rw [Option.getD_some] at hlow hhigh
    simp only [Option.some.injEq, forall_eq']
    omega

theorem renderFormattedInteger_fits (d : FormatDirective) (leftAlign : Bool) (width : Nat)
    (precision : Option Nat) {word : Nat} (h : isIntegerConversion d.conversion = true)
    (hword : word < 2 ^ 64) :
    (renderFormattedInteger d leftAlign width precision (d.argument word).natAbs
        (d.argument word < 0)).lengthSum ≤ usizeMax ↔
      ∀ p, precision = some p → d.marks (d.argument word) + p ≤ usizeMax := by
  have hmagnitude := argument_natAbs_lt d hword
  have hmarks := marks_field d leftAlign width precision h (argument_nonneg d word)
  have hsmall := marks_le d (d.argument word)
  rw [(renderFormattedInteger_text d leftAlign width precision _ _ (fun _ => 0) hmagnitude).2]
  generalize hfield : d.field leftAlign width precision (d.argument word).natAbs
    (d.argument word < 0) = f at hmarks
  have hprecision : f.precision = precision := by rw [← hfield]; rfl
  have hlow := f.precision_le_body
  have hhigh := f.body_length_le (by rw [← hfield]; exact hmagnitude)
  rw [hprecision] at hlow hhigh
  have hcontent : f.content.length = f.sign.length + f.radixMark.length + f.body.length := by
    unfold IntegerField.content
    rw [List.length_append, List.length_append]
  apply fits_iff hsmall
  · omega
  · omega

theorem renderFormattedPointer_fits (d : FormatDirective) (leftAlign : Bool) (width : Nat)
    (precision : Option Nat) {word : Nat} (h : d.conversion = 'p'.toUInt8)
    (hword : word < 2 ^ 64) :
    (renderFormattedPointer leftAlign d.flags.zeroPad width precision
        (if d.flags.forceSign then ['+'.toUInt8]
          else if d.flags.leadingSpaceForPositive then [' '.toUInt8] else []) word).lengthSum ≤
        usizeMax ↔
      ∀ p, precision = some p → d.marks (d.argument word) + p ≤ usizeMax := by
  have hdigits : (unsignedToAscii word 16 false).length ≤ 64 := by
    unfold unsignedToAscii
    rw [List.length_map]
    exact Numeral.digits_length_le (by decide)
      (Nat.lt_of_lt_of_le hword (Nat.pow_le_pow_left (by decide) 64)) (by decide)
  have hmarks : d.marks (d.argument word) =
      (if d.flags.forceSign then ['+'.toUInt8]
        else if d.flags.leadingSpaceForPositive then [' '.toUInt8] else []).length + 2 := by
    unfold FormatDirective.marks
    dsimp only
    rw [if_pos h]
    cases d.flags.forceSign with
    | true => rfl
    | false =>
      cases d.flags.leadingSpaceForPositive with
      | true => rfl
      | false => rfl
  have hsum : (renderFormattedPointer leftAlign d.flags.zeroPad width precision
      (if d.flags.forceSign then ['+'.toUInt8]
        else if d.flags.leadingSpaceForPositive then [' '.toUInt8] else []) word).lengthSum =
      d.marks (d.argument word) +
        (precision.getD 0 - (unsignedToAscii word 16 false).length) +
        (unsignedToAscii word 16 false).length := by
    rw [hmarks]
    cases precision with
    | none =>
      rw [Option.getD_none, Nat.zero_sub]
      rfl
    | some p => rfl
  rw [hsum]
  have hsmall := marks_le d (d.argument word)
  apply fits_iff hsmall
  · omega
  · omega

/-- A conversion of another kind computes no sum. -/
theorem renderConversion_other {m : Mem} {c : VarArgCursor} {d : FormatDirective}
    {leftAlign : Bool} {width : Nat} {precision : Option Nat} {r : Rendered × VarArgCursor}
    (h : ¬d.IsNumber) (hr : renderConversion m c d leftAlign width precision = some r) :
    r.1.lengthSum = 0 := by
  obtain ⟨hpointer, hinteger⟩ := not_or.mp h
  have hsigned : ¬isSignedConversion d.conversion = true := by
    intro hsigned
    apply hinteger
    rcases of_decide_eq_true hsigned with heq | heq
    all_goals
      rw [heq]
      decide
  unfold renderConversion at hr
  dsimp only at hr
  split at hr
  · obtain ⟨_, -, hr⟩ := Option.map_eq_some_iff.mp hr
    rw [← hr]
    rfl
  · split at hr
    · split at hr
      · cases hr
      · obtain ⟨_, -, hr⟩ := Option.map_eq_some_iff.mp hr
        rw [← hr]
        rfl
    · cases hr

theorem renderConversion_pointer {m : Mem} {c : VarArgCursor} {d : FormatDirective}
    {r : Nat × VarArgCursor} (h : d.conversion = 'p'.toUInt8) (hr : c.nextU64 m = some r)
    (leftAlign : Bool) (width : Nat) (precision : Option Nat) :
    renderConversion m c d leftAlign width precision =
      some (renderFormattedPointer leftAlign d.flags.zeroPad width precision
        (if d.flags.forceSign then ['+'.toUInt8]
          else if d.flags.leadingSpaceForPositive then [' '.toUInt8] else []) r.1, r.2) := by
  have hptr : c.nextPtr m = some r := hr
  unfold renderConversion
  dsimp only
  rw [if_neg (by rw [h]; decide), if_neg (by rw [h]; decide), if_pos h, hptr]
  rfl

theorem renderConversion_none {m : Mem} {c : VarArgCursor} {d : FormatDirective} (h : d.IsNumber)
    (hr : c.nextU64 m = none) (leftAlign : Bool) (width : Nat) (precision : Option Nat) :
    renderConversion m c d leftAlign width precision = none := by
  have hptr : c.nextPtr m = none := hr
  unfold renderConversion
  dsimp only
  rw [readSignedArgument_eq, readUnsignedArgument_eq, hr, hptr]
  rcases h with h | h
  · rw [if_neg (by rw [h]; decide), if_neg (by rw [h]; decide), if_pos h]
    rfl
  · obtain ⟨-, hs, hc, hp⟩ := integer_other h
    rw [if_neg hs, if_neg hc, if_neg hp]
    split
    · rfl
    · rfl

/-- The sum of a number fits exactly if its precision leaves room for its marks. -/
theorem renderConversion_fits {m : Mem} {c : VarArgCursor} {d : FormatDirective}
    {r : Nat × VarArgCursor} (h : d.IsNumber) (hr : c.nextU64 m = some r) (leftAlign : Bool)
    (width : Nat) (precision : Option Nat) :
    ∃ rendered, renderConversion m c d leftAlign width precision = some (rendered, r.2) ∧
      (rendered.lengthSum ≤ usizeMax ↔
        ∀ p, precision = some p → d.marks (d.argument r.1) + p ≤ usizeMax) := by
  have hword := nextU64_lt hr
  rcases h with h | h
  · exact ⟨_, renderConversion_pointer h hr leftAlign width precision,
      renderFormattedPointer_fits d leftAlign width precision h hword⟩
  · have hpointer : d.conversion ≠ 'p'.toUInt8 := (integer_other h).2.2.2
    refine ⟨_, renderConversion_integer h hr leftAlign width precision, ?_⟩
    have hvalue : (if isSignedConversion d.conversion = true then Int.bmod r.1 (2 ^ d.length.bits)
        else (r.1 % 2 ^ d.length.bits : Nat)) = d.argument r.1 := by
      unfold FormatDirective.argument
      rw [if_neg hpointer]
    rw [hvalue]
    exact renderFormattedInteger_fits d leftAlign width precision h hword

/-- **Which sums fit.** -/
theorem short_iff (r : Reached) :
    r.Short ↔ ∀ action, directiveAction r.mem r.cursor r.directive = some action →
      action.1.lengthSum ≤ usizeMax := by
  obtain ⟨m, c, d⟩ := r
  unfold Reached.Short directiveAction
  dsimp only
  cases resolveCounts m c d with
  | none => exact iff_of_true (fun _ _ h => by cases h) (fun _ h => by cases h)
  | some counts =>
    simp only [Option.some.injEq, forall_eq', Option.bind_some]
    by_cases hnumber : d.IsNumber
    · have hcount : ¬isCountConversion d.conversion = true := by
        intro hcount
        have heq : d.conversion = 'n'.toUInt8 := of_decide_eq_true hcount
        rcases hnumber with h | h
        · rw [heq] at h
          exact absurd h (by decide)
        · rw [heq] at h
          exact absurd h (by decide)
      rw [if_neg hcount]
      cases hnext : counts.cursor.nextU64 m with
      | none =>
        rw [renderConversion_none hnumber hnext]
        exact iff_of_true (fun _ _ _ _ h => by cases h) (fun _ h => by cases h)
      | some r =>
        obtain ⟨rendered, hrendered, hfits⟩ := renderConversion_fits hnumber hnext
          counts.leftAlign counts.width counts.precision
        rw [hrendered]
        simp only [hnumber, Option.map_some, Option.some.injEq, forall_eq', true_implies]
        exact hfits.symm
    · refine iff_of_true (fun h => absurd h hnumber) fun action haction => ?_
      split at haction
      · obtain ⟨pointer, -, haction⟩ := Option.bind_eq_some_iff.mp haction
        split at haction
        · cases haction
        · cases haction
          exact Nat.zero_le _
      · obtain ⟨rendered, hrendered, haction⟩ := Option.map_eq_some_iff.mp haction
        rw [← haction]
        exact (renderConversion_other hnumber hrendered).le.trans (Nat.zero_le _)

section

variable {σ : Type} (S : Sink σ)

/-- The directives that a run reaches. -/
def directivesReached (st : FormatState σ) : List Token → List Reached
  | [] => []
  | .literal byte :: tokens => directivesReached (pushPiece S st (.repeated byte 1)) tokens
  | .invalid :: _ => []
  | .directive d :: tokens =>
    ⟨st.mem, st.cursor, d⟩ ::
      match applyDirective S st d with
      | .error _ => []
      | .ok st => directivesReached st tokens

theorem apply_overflow (hfits : S.fits = fitsUsize) (st : FormatState σ) (c : VarArgCursor)
    (action : Action) :
    action.apply S st c = .error .overflow ↔ usizeMax < action.lengthSum := by
  cases action with
  | render rendered =>
    unfold Action.apply Action.lengthSum
    dsimp only
    rw [hfits]
    unfold fitsUsize
    by_cases hle : rendered.lengthSum ≤ usizeMax
    · rw [if_pos (decide_eq_true hle)]
      exact iff_of_false (fun h => by cases h) (Nat.not_lt.mpr hle)
    · rw [if_neg (fun h => hle (of_decide_eq_true h))]
      exact iff_of_true rfl (Nat.not_le.mp hle)
  | count pointer size =>
    unfold Action.apply Action.lengthSum
    dsimp only
    split
    · exact iff_of_false (fun h => by cases h) (Nat.not_lt_zero _)
    · exact iff_of_false (fun h => by cases h) (Nat.not_lt_zero _)

theorem applyDirective_overflow (hfits : S.fits = fitsUsize) (st : FormatState σ)
    (d : FormatDirective) :
    applyDirective S st d = .error .overflow ↔ ¬Reached.Short ⟨st.mem, st.cursor, d⟩ := by
  rw [applyDirective_eq, short_iff]
  cases haction : directiveAction st.mem st.cursor d with
  | none => exact iff_of_false (fun h => by cases h) (fun h => h fun _ h => by cases h)
  | some r =>
    dsimp only
    rw [apply_overflow S hfits]
    simp only [Option.some.injEq, forall_eq', Nat.not_le]

/-- A run ends with an overflow if and only if it reaches a number that is too long. -/
theorem runTokens_overflow (hfits : S.fits = fitsUsize) (st : FormatState σ)
    (tokens : List Token) :
    (runTokens S st tokens).2 = some .overflow ↔ ∃ r ∈ directivesReached S st tokens, ¬r.Short := by
  have hnil : ¬∃ r ∈ ([] : List Reached), ¬r.Short := by
    rintro ⟨r, hmem, -⟩
    cases hmem
  induction tokens generalizing st with
  | nil => exact iff_of_false (fun h => by cases h) hnil
  | cons token tokens ih =>
    cases token with
    | literal byte => exact ih _
    | invalid => exact iff_of_false (fun h => by cases h) hnil
    | directive d =>
      have hover := applyDirective_overflow S hfits st d
      unfold runTokens directivesReached
      cases happly : applyDirective S st d with
      | error failure =>
        rw [happly] at hover
        simp only [List.mem_singleton, exists_eq_left, Option.some.injEq]
        rwa [Except.error.injEq] at hover
      | ok next =>
        rw [happly] at hover
        have hshort : Reached.Short ⟨st.mem, st.cursor, d⟩ := by
          by_contra hlong
          cases hover.mpr hlong
        simp only [List.mem_cons, exists_eq_or_imp, hshort, not_true_eq_false, false_or]
        exact ih next

end

/-! ## The length of the output -/

/-- A sink, and the number of all bytes that are pushed into it. -/
def Sink.tallied {σ : Type} (S : Sink σ) : Sink (σ × Nat) where
  push m sink piece := ((S.push m sink.1 piece).1, (S.push m sink.1 piece).2, sink.2 + piece.length)
  required sink := S.required sink.1
  fits := S.fits

/-- The length of what `vsnprintf` has formatted, unless it fails. -/
def formattedLength (m : Mem) (s n format ap : Nat) : Option Nat :=
  let r := formatLoop outputSink.tallied ⟨m, .fromVaList m ap, ⟨s, n, 0, 0⟩, 0⟩ (cString m format)
  if r.2 = none then some r.1.sink.2 else none

/-- The directives that a call of `vsnprintf` reaches. -/
def reachedBy (m : Mem) (s n format ap : Nat) : List Reached :=
  directivesReached outputSink ⟨m, .fromVaList m ap, ⟨s, n, 0, 0⟩⟩ (formatTokens (cString m format))

/-- The tally is what the saturating counter of the sink is about. -/
def Tallies (st : FormatState OutputSink) (st' : FormatState (OutputSink × Nat)) : Prop :=
  st = ⟨st'.mem, st'.cursor, st'.sink.1⟩ ∧ st.sink.bytesRequired = min st'.sink.2 usizeMax

theorem push_required (m : Mem) (sink : OutputSink) (piece : Piece) :
    (sink.push m piece).2.bytesRequired = saturatingAdd sink.bytesRequired piece.length := by
  unfold OutputSink.push
  dsimp only
  split
  · rfl
  · split
    · rfl
    · rfl

theorem Tallies.push {st : FormatState OutputSink} {st' : FormatState (OutputSink × Nat)}
    (h : Tallies st st') (piece : Piece) :
    Tallies (pushPiece outputSink st piece) (pushPiece outputSink.tallied st' piece) := by
  obtain ⟨rfl, hrequired⟩ := h
  refine ⟨rfl, ?_⟩
  change (st'.sink.1.push st'.mem piece).2.bytesRequired = min (st'.sink.2 + piece.length) usizeMax
  change st'.sink.1.bytesRequired = _ at hrequired
  rw [push_required, hrequired]
  unfold saturatingAdd
  omega

theorem Tallies.apply {st : FormatState OutputSink} {st' : FormatState (OutputSink × Nat)}
    (h : Tallies st st') (d : FormatDirective) :
    Agree Tallies (applyDirective outputSink st d) (applyDirective outputSink.tallied st' d) := by
  rw [applyDirective_eq, applyDirective_eq]
  obtain ⟨rfl, hrequired⟩ := h
  dsimp only
  cases directiveAction st'.mem st'.cursor d with
  | none => exact .error _
  | some r =>
    obtain ⟨action, c⟩ := r
    cases action with
    | render rendered =>
      change Agree Tallies (if fitsUsize rendered.lengthSum = true then _ else _)
        (if fitsUsize rendered.lengthSum = true then _ else _)
      split
      · apply Agree.ok
        apply pushPieces_simulation
        · intro st st' piece h
          exact h.push piece
        · exact ⟨rfl, hrequired⟩
      · exact .error _
    | count pointer size =>
      change Agree Tallies (if countFits size st'.sink.1.bytesRequired = true then _ else _)
        (if countFits size st'.sink.1.bytesRequired = true then _ else _)
      split
      · exact .ok ⟨rfl, hrequired⟩
      · exact .error _

/-! ## The result -/

/-- The reply to a run over a format. -/
def replyOf (r : FormatState OutputSink × Option Failure) : Option Reply :=
  match r.2 with
  | none => some ⟨requiredLenToCInt r.1.sink.bytesRequired, r.1.sink.terminate r.1.mem, none⟩
  | some .einval => some ⟨-1, r.1.sink.terminate r.1.mem, some EINVAL⟩
  | some .overflow => none

theorem vsnprintf_eq (m : Mem) {s n format ap : Nat} (h : ¬(format = 0 ∨ n ≠ 0 ∧ s = 0)) :
    vsnprintf m s n format ap = replyOf (runTokens outputSink
      ⟨m, .fromVaList m ap, ⟨s, n, 0, 0⟩⟩ (formatTokens (cString m format))) := by
  unfold vsnprintf
  rw [if_neg h]
  dsimp only
  rw [formatLoop_eq]
  rfl

/-- No sum overflows, and a length that an `int` cannot hold is reported as a failure. -/
def LengthsReported (m : Mem) (s n format ap : Nat) : Prop :=
  ∃ reply, vsnprintf m s n format ap = some reply ∧
    ∀ total, formattedLength m s n format ap = some total → cIntMax < total → reply.value = -1

/-- **Lengths are reported** if and only if no number is reached whose precision leaves no room in a
`usize` for its sign and its `0x`, and the output is not longer than an `int` says. -/
theorem lengthsReported_iff (m : Mem) (s n format ap : Nat) :
    LengthsReported m s n format ap ↔ (format = 0 ∨ n ≠ 0 ∧ s = 0) ∨
      (∀ r ∈ reachedBy m s n format ap, r.Short) ∧
        ∀ total, formattedLength m s n format ap = some total → total ≤ cIntMax := by
  by_cases hinvalid : format = 0 ∨ n ≠ 0 ∧ s = 0
  · apply iff_of_true _ (Or.inl hinvalid)
    refine ⟨⟨-1, m, some EINVAL⟩, if_pos hinvalid, fun _ _ _ => rfl⟩
  · have hover := runTokens_overflow outputSink rfl ⟨m, .fromVaList m ap, ⟨s, n, 0, 0⟩⟩
      (formatTokens (cString m format))
    -- The run with a tally goes through the same states and counts without a bound.
    obtain ⟨hsame, left, hstate, htotal⟩ := runTokens_simulation outputSink outputSink.tallied
      (fun _ => Tallies) (fun byte _ _ _ h => h.push (.repeated byte 1))
      (fun d _ _ _ h => h.apply d) (formatTokens (cString m format))
      ⟨m, .fromVaList m ap, ⟨s, n, 0, 0⟩⟩ ⟨m, .fromVaList m ap, ⟨s, n, 0, 0⟩, 0⟩ ⟨rfl, rfl⟩
    unfold LengthsReported formattedLength reachedBy
    rw [vsnprintf_eq m hinvalid, formatLoop_eq]
    dsimp only
    rw [← hsame]
    generalize runTokens outputSink ⟨m, .fromVaList m ap, ⟨s, n, 0, 0⟩⟩
      (formatTokens (cString m format)) = run at hover hstate htotal ⊢
    generalize (runTokens outputSink.tallied ⟨m, .fromVaList m ap, ⟨s, n, 0, 0⟩, 0⟩
      (formatTokens (cString m format))).1 = counted at htotal ⊢
    -- The format loop stops early exactly at a number that is too long.
    have hshort : run.2 ≠ some .overflow ↔ ∀ r ∈ directivesReached outputSink
        ⟨m, .fromVaList m ap, ⟨s, n, 0, 0⟩⟩ (formatTokens (cString m format)), r.Short := by
      rw [ne_eq, hover]
      simp only [not_exists, not_and, not_not]
    rw [← hshort, or_iff_right hinvalid]
    cases hend : run.2 with
    | none =>
      have hreply : replyOf run = some
          ⟨requiredLenToCInt run.1.sink.bytesRequired, run.1.sink.terminate run.1.mem, none⟩ := by
        unfold replyOf
        rw [hend]
      rw [hreply, htotal]
      constructor
      · rintro ⟨reply, heq, hreported⟩
        refine ⟨Option.some_ne_none _ |>.symm, fun total hlength => ?_⟩
        cases heq
        -- The total is clamped to `c_int`, so a longer one is reported as a shorter text.
        by_contra hlong
        have hvalue := hreported total hlength (Nat.not_le.mp hlong)
        cases hlength
        change min ((min counted.sink.2 usizeMax : Nat) : Int) (cIntMax : Int) = -1 at hvalue
        omega
      · rintro ⟨-, hshort⟩
        exact ⟨_, rfl, fun total hlength hlong =>
          absurd (hshort total hlength) (Nat.not_le.mpr hlong)⟩
    | some failure =>
      cases failure with
      | einval =>
        have hreply : replyOf run = some ⟨-1, run.1.sink.terminate run.1.mem, some EINVAL⟩ := by
          unfold replyOf
          rw [hend]
        rw [hreply]
        apply iff_of_true
        · exact ⟨_, rfl, fun _ _ _ => rfl⟩
        · exact ⟨(fun h => by cases h), (fun total h => by cases h)⟩
      | overflow =>
        have hreply : replyOf run = none := by
          unfold replyOf
          rw [hend]
        rw [hreply]
        apply iff_of_false
        · rintro ⟨reply, h, -⟩
          cases h
        · rintro ⟨h, -⟩
          exact h rfl

/-- A format at address 64, and a `va_list` at 1024 whose arguments are zero. -/
def formatMem (format : String) : Mem :=
  ByteOrder.writeBytes (storeNat (fun _ => 0) 8 1040 2048) 64 (format.toList.map Char.toUInt8)

/-- The first format is too long for an `int`, and the second one for a `usize`. -/
theorem lengths_not_reported :
    ¬LengthsReported (formatMem "%.2147483648p") 0 0 64 1024 ∧
      ¬LengthsReported (formatMem "%+.18446744073709551615d") 0 0 64 1024 := by
  constructor
  · rintro ⟨reply, hreply, h⟩
    have hlength : formattedLength (formatMem "%.2147483648p") 0 0 64 1024 = some 2147483650 := by
      decide +kernel
    have hvalue : (vsnprintf (formatMem "%.2147483648p") 0 0 64 1024).map Reply.value =
        some 2147483647 := by
      decide +kernel
    rw [hreply, Option.map_some, h _ hlength (by decide)] at hvalue
    cases hvalue
  · rintro ⟨reply, hreply, -⟩
    have hnone : (vsnprintf (formatMem "%+.18446744073709551615d") 0 0 64 1024).isSome = false := by
      decide +kernel
    rw [hreply] at hnone
    cases hnone

end Rlibc.Stdio
