import Rlibc.Stdio.IntegerConversion
import Rlibc.Stdio.PrintedNewlines

/-!
# A directive under the newline analysis

The analysis passes the arguments of a directive as printf does, and answers `true` at it just when
printf rejects the directive or prints a newline for it.  The exception is a floating conversion
with an `l`: the analysis takes it for a `long double` and passes two words of the overflow area.
-/

namespace Rlibc.Stdio

open ByteMem ByteOrder

/-- A floating conversion with an `l`, as in `%lf`. -/
def FormatDirective.longFloat (d : FormatDirective) : Bool :=
  isFloatConversion d.conversion ∧ d.length = .l

/-! ## Asterisks -/

section

variable {m : Mem} {c c' : VarArgCursor} {d : FormatDirective}

/-- The analysis and the formatter pass the asterisks in the same way. -/
structure PassedCounts (m : Mem) (c : VarArgCursor) (d : FormatDirective)
    (counts : ResolvedCounts) : Prop where
  resolved : resolveCounts m c d = some counts
  aligned : counts.cursor.Aligned
  passed : PassedGeneral c counts.cursor
  scan : scanDirective m c d = scanConversion m counts.cursor d counts.precision
  precision : d.precision = none → counts.precision = none

theorem passedCounts_of_countsCursor (m : Mem) (halign : c.Aligned)
    (h : countsCursor c d = some c') : ∃ counts, PassedCounts m c d counts ∧ counts.cursor = c' := by
  unfold countsCursor at h
  rcases Option.bind_eq_some_iff.mp h with ⟨c₁, hwidth, hprecision⟩
  rcases starCursor_passed halign hwidth with ⟨hpassed₁, halign₁⟩
  rcases starCursor_passed halign₁ hprecision with ⟨hpassed₂, halign₂⟩
  rcases @resolveWidth_of_starCursor m c c₁ d.width d.flags.leftAlign halign hwidth with
    ⟨width, hresolved₁⟩
  rcases @resolvePrecision_of_starCursor m c₁ c' d.precision halign₁ hprecision with
    ⟨precision, hresolved₂⟩
  refine ⟨⟨width.1, width.2, precision, c'⟩, ⟨?_, halign₂, hpassed₁.trans hpassed₂, ?_, ?_⟩, rfl⟩
  · unfold resolveCounts
    rw [hresolved₁, Option.bind_some]
    dsimp only
    rw [hresolved₂]
    rfl
  · unfold scanDirective
    rw [hresolved₁]
    dsimp only
    rw [hresolved₂]
  · intro hnone
    rw [hnone] at hresolved₂
    cases hresolved₂
    rfl

end

/-! ## Conversions -/

/-- What the analysis makes of a directive. -/
structure Scanned (float : FloatText) (m : Mem) (c : VarArgCursor) (d : FormatDirective)
    (c' : VarArgCursor) : Prop where
  cursor : (scanDirective m c d).2 = c'
  aligned : c'.Aligned
  answer : (scanDirective m c d).1 = true ↔
    ∀ r, printfAction float m c d = some r → newline ∈ r.1.text m
  next : ∀ r, printfAction float m c d = some r → r.2 = c'

section

variable {float : FloatText} {m : Mem} {c c' : VarArgCursor} {d : FormatDirective}

/-- A directive that is accepted. -/
theorem Scanned.of_some {answer : Bool} {action : Action} (halign : c'.Aligned)
    (hscan : scanDirective m c d = (answer, c'))
    (haction : printfAction float m c d = some (action, c'))
    (hanswer : answer = true ↔ newline ∈ action.text m) : Scanned float m c d c' := by
  refine ⟨by rw [hscan], halign, ?_, ?_⟩
  · rw [hscan, haction]
    constructor
    · intro htrue r hr
      cases hr
      exact hanswer.mp htrue
    · exact fun hall => hanswer.mpr (hall _ rfl)
  · intro r hr
    rw [haction] at hr
    cases hr
    rfl

/-- A directive that is rejected. -/
theorem Scanned.of_none (halign : c'.Aligned) (hscan : scanDirective m c d = (true, c'))
    (haction : printfAction float m c d = none) : Scanned float m c d c' := by
  refine ⟨by rw [hscan], halign, ?_, ?_⟩
  · rw [hscan, haction]
    exact iff_of_true rfl fun r hr => by cases hr
  · intro r hr
    rw [haction] at hr
    cases hr

theorem conversion_cases (h : d.Allowed) :
    d.conversion = 's'.toUInt8 ∨ d.conversion = 'c'.toUInt8 ∨ d.conversion = 'p'.toUInt8 ∨
      isFloatConversion d.conversion = true ∨ d.conversion = 'n'.toUInt8 ∨
      isIntegerConversion d.conversion = true := by
  unfold FormatDirective.Allowed conversionAllowed at h
  split at h
  · rename_i hstring
    have hcases : d.conversion = 's'.toUInt8 ∨ d.conversion = 'c'.toUInt8 :=
      of_decide_eq_true hstring
    cases hcases with
    | inl hs => exact Or.inl hs
    | inr hc => exact Or.inr (Or.inl hc)
  · split at h
    · rename_i hpointer
      exact Or.inr (Or.inr (Or.inl (of_decide_eq_true hpointer)))
    · split at h
      · rename_i hfloat
        exact Or.inr (Or.inr (Or.inr (Or.inl hfloat)))
      · split at h
        · rename_i hcount
          exact Or.inr (Or.inr (Or.inr (Or.inr (Or.inl (of_decide_eq_true hcount)))))
        · exact Or.inr (Or.inr (Or.inr (Or.inr (Or.inr (of_decide_eq_true h).1))))

/-- A floating conversion takes no other modifier than `l`. -/
theorem length_of_float (h : d.Allowed) (hfloat : isFloatConversion d.conversion = true) :
    d.length = .default ∨ d.length = .l := by
  have hstring : isStringOrChar d.conversion = false := by
    cases hd : isStringOrChar d.conversion with
    | false => rfl
    | true =>
      have hcases : d.conversion = 's'.toUInt8 ∨ d.conversion = 'c'.toUInt8 := of_decide_eq_true hd
      cases hcases with
      | inl hs => rw [hs] at hfloat; cases hfloat
      | inr hc => rw [hc] at hfloat; cases hfloat
  have hpointer : isPointerConversion d.conversion = false := by
    cases hd : isPointerConversion d.conversion with
    | false => rfl
    | true =>
      have hp : d.conversion = 'p'.toUInt8 := of_decide_eq_true hd
      rw [hp] at hfloat
      cases hfloat
  unfold FormatDirective.Allowed conversionAllowed at h
  rw [hstring, hpointer, hfloat, if_neg Bool.false_ne_true, if_neg Bool.false_ne_true,
    if_pos rfl] at h
  exact of_decide_eq_true h

theorem float_other (hfloat : isFloatConversion d.conversion = true) :
    d.conversion ≠ 's'.toUInt8 ∧ d.conversion ≠ 'c'.toUInt8 ∧
      ¬ isSignedConversion d.conversion = true := by
  have hne : ∀ conversion : UInt8, isFloatConversion conversion = false →
      d.conversion ≠ conversion := by
    intro conversion hother heq
    rw [heq, hother] at hfloat
    cases hfloat
  refine ⟨hne _ (by decide), hne _ (by decide), ?_⟩
  intro hsigned
  have hcases : d.conversion = 'd'.toUInt8 ∨ d.conversion = 'i'.toUInt8 :=
    of_decide_eq_true hsigned
  cases hcases with
  | inl heq => exact hne _ (by decide) heq
  | inr heq => exact hne _ (by decide) heq

/-- Floating conversions without an `l`. -/
theorem scanned_float {counts : ResolvedCounts} {slot : Nat}
    (hnone : ∀ width leftAlign precision bits, newline ∉ float d width leftAlign precision bits)
    (hfloat : isFloatConversion d.conversion = true) (hlength : d.length = .default)
    (hcounts : PassedCounts m c d counts) (hslot : counts.cursor.vaArgDouble = some (slot, c')) :
    Scanned float m c d c' := by
  rcases float_other hfloat with ⟨hs, hc, hsigned⟩
  have hscan : scanDirective m c d = (false, c') := by
    rw [hcounts.scan]
    unfold scanConversion
    dsimp only
    rw [if_neg hs, if_neg hc, if_neg hsigned, if_pos hfloat, hlength,
      advanceLineBufferFloatArgument_eq hcounts.aligned hslot]
  have haction : printfAction float m c d = some (.render ⟨[.bytes (float d counts.width
      counts.leftAlign counts.precision (wordAt m slot))], 0⟩, c') := by
    unfold printfAction
    rw [if_pos hfloat, hcounts.resolved, Option.bind_some, hslot]
    rfl
  apply Scanned.of_some (aligned_of_vaArgDouble hcounts.aligned hslot) hscan haction
  apply iff_of_false Bool.false_ne_true
  change newline ∉ [Piece.bytes _].flatMap fun p => p.text m
  rw [List.flatMap_singleton]
  exact hnone _ _ _ _

/-- The argument of any other conversion is in a general slot. -/
theorem nextU64_of_vaArgGeneral {slot : Nat} (halign : c.Aligned)
    (hslot : c.vaArgGeneral = some (slot, c')) : c.nextU64 m = some (wordAt m slot, c') := by
  unfold VarArgCursor.nextU64
  rw [nextSlot_eq halign hslot]
  rfl

theorem directiveAction_of_counts {counts : ResolvedCounts} (hcounts : PassedCounts m c d counts)
    (hfloat : isFloatConversion d.conversion = false)
    (hcount : isCountConversion d.conversion = false) :
    printfAction float m c d = (renderConversion m counts.cursor d counts.leftAlign counts.width
      counts.precision).map fun r => (.render r.1, r.2) := by
  rw [printfAction_other hfloat]
  unfold directiveAction
  rw [hcounts.resolved, Option.bind_some, hcount, if_neg Bool.false_ne_true]

theorem scanned_string {counts : ResolvedCounts} {slot : Nat} (hs : d.conversion = 's'.toUInt8)
    (hcounts : PassedCounts m c d counts) (hslot : counts.cursor.vaArgGeneral = some (slot, c')) :
    Scanned float m c d c' := by
  have hnext : counts.cursor.nextPtr m = some (wordAt m slot, c') :=
    nextU64_of_vaArgGeneral hcounts.aligned hslot
  have hscan : scanDirective m c d = (decide (wordAt m slot ≠ 0 ∧ cStringPrefixContainsByte m
      (wordAt m slot) newline counts.precision = true), c') := by
    rw [hcounts.scan]
    unfold scanConversion scanString
    dsimp only
    rw [if_pos hs, hnext]
  have haction : printfAction float m c d = some (.render (renderString m counts.leftAlign
      counts.width counts.precision (wordAt m slot)), c') := by
    rw [directiveAction_of_counts hcounts (by rw [hs]; rfl) (by rw [hs]; rfl)]
    unfold renderConversion
    dsimp only
    rw [if_pos hs, hnext, Option.map_some, Option.map_some]
  apply Scanned.of_some (aligned_of_vaArgGeneral hcounts.aligned hslot) hscan haction
  rw [decide_eq_true_eq]
  exact (newline_mem_renderString m _ _ _ _).symm

theorem scanned_char {counts : ResolvedCounts} {slot : Nat} (hc : d.conversion = 'c'.toUInt8)
    (hprecision : d.precision = none) (hcounts : PassedCounts m c d counts)
    (hslot : counts.cursor.vaArgGeneral = some (slot, c')) : Scanned float m c d c' := by
  have hnext : counts.cursor.nextCInt m = some (cInt (wordAt m slot), c') := by
    rw [nextCInt_eq, nextU64_of_vaArgGeneral hcounts.aligned hslot, Option.map_some]
  have hs : d.conversion ≠ 's'.toUInt8 := by
    rw [hc]
    decide
  have hscan : scanDirective m c d =
      (decide (UInt8.ofNat (cInt (wordAt m slot) % 2 ^ 8).toNat = newline), c') := by
    rw [hcounts.scan]
    unfold scanConversion scanChar
    dsimp only
    rw [if_neg hs, if_pos hc, hnext]
  have haction : printfAction float m c d = some (.render (renderChar counts.leftAlign
      counts.width (cInt (wordAt m slot))), c') := by
    rw [directiveAction_of_counts hcounts (by rw [hc]; rfl) (by rw [hc]; rfl),
      hcounts.precision hprecision]
    unfold renderConversion
    dsimp only
    rw [if_neg hs, if_pos hc, if_neg (by decide), hnext, Option.map_some, Option.map_some]
  apply Scanned.of_some (aligned_of_vaArgGeneral hcounts.aligned hslot) hscan haction
  rw [decide_eq_true_eq]
  exact (newline_mem_renderChar m _ _ _).symm

theorem scanned_pointer {counts : ResolvedCounts} {slot : Nat} (hp : d.conversion = 'p'.toUInt8)
    (hcounts : PassedCounts m c d counts) (hslot : counts.cursor.vaArgGeneral = some (slot, c')) :
    Scanned float m c d c' := by
  have hnext : counts.cursor.nextPtr m = some (wordAt m slot, c') :=
    nextU64_of_vaArgGeneral hcounts.aligned hslot
  have hs : d.conversion ≠ 's'.toUInt8 := by
    rw [hp]
    decide
  have hc : d.conversion ≠ 'c'.toUInt8 := by
    rw [hp]
    decide
  have hscan : scanDirective m c d = (false, c') := by
    rw [hcounts.scan]
    unfold scanConversion passArgument
    dsimp only
    rw [if_neg hs, if_neg hc, if_neg (by rw [hp]; decide), if_neg (by rw [hp]; decide),
      if_neg (by rw [hp]; decide), if_pos (by rw [hp]; rfl), hnext]
  have hrender : ∃ sign : List UInt8, newline ∉ sign ∧
      renderConversion m counts.cursor d counts.leftAlign counts.width counts.precision =
        some (renderFormattedPointer counts.leftAlign d.flags.zeroPad counts.width
          counts.precision sign (wordAt m slot), c') := by
    refine ⟨if d.flags.forceSign then ['+'.toUInt8]
      else if d.flags.leadingSpaceForPositive then [' '.toUInt8] else [], ?_, ?_⟩
    · repeat' split
      all_goals decide
    · unfold renderConversion
      dsimp only
      rw [if_neg hs, if_neg hc, if_pos hp, hnext, Option.map_some]
  rcases hrender with ⟨sign, hsign, hrender⟩
  have haction : printfAction float m c d = some (.render (renderFormattedPointer
      counts.leftAlign d.flags.zeroPad counts.width counts.precision sign (wordAt m slot)), c') := by
    rw [directiveAction_of_counts hcounts (by rw [hp]; rfl) (by rw [hp]; rfl), hrender,
      Option.map_some]
  apply Scanned.of_some (aligned_of_vaArgGeneral hcounts.aligned hslot) hscan haction
  apply iff_of_false Bool.false_ne_true
  exact newline_notMem_renderFormattedPointer m _ _ _ _ _ hsign

theorem scanned_integer {counts : ResolvedCounts} {slot : Nat}
    (hinteger : isIntegerConversion d.conversion = true) (hcounts : PassedCounts m c d counts)
    (hslot : counts.cursor.vaArgGeneral = some (slot, c')) : Scanned float m c d c' := by
  have hnext : counts.cursor.nextU64 m = some (wordAt m slot, c') :=
    nextU64_of_vaArgGeneral hcounts.aligned hslot
  rcases integer_other hinteger with ⟨hcount, hs, hc, _⟩
  have hfloat : isFloatConversion d.conversion = false := by
    rcases integer_cases hinteger with h | h | h | h | h | h
    all_goals
      rw [h]
      rfl
  have hscan : scanDirective m c d = (false, c') := by
    rw [hcounts.scan]
    unfold scanConversion
    dsimp only
    rw [if_neg hs, if_neg hc, hfloat, if_neg Bool.false_ne_true, if_pos hinteger,
      readSignedArgument_eq, readUnsignedArgument_eq, hnext, Option.map_some, Option.map_some]
    split <;> rfl
  have hrender := renderConversion_integer hinteger hnext counts.leftAlign counts.width
    counts.precision
  dsimp only at hrender
  have haction := @directiveAction_of_counts float m c d counts hcounts hfloat hcount
  rw [hrender, Option.map_some] at haction
  apply Scanned.of_some (aligned_of_vaArgGeneral hcounts.aligned hslot) hscan haction
  apply iff_of_false Bool.false_ne_true
  exact newline_notMem_renderFormattedInteger m _ _ _ _ _ _

theorem scanned_count {counts : ResolvedCounts} {slot : Nat} (hn : d.conversion = 'n'.toUInt8)
    (hcounts : PassedCounts m c d counts) (hslot : counts.cursor.vaArgGeneral = some (slot, c')) :
    Scanned float m c d c' := by
  have hnext : counts.cursor.nextPtr m = some (wordAt m slot, c') :=
    nextU64_of_vaArgGeneral hcounts.aligned hslot
  have halign := aligned_of_vaArgGeneral hcounts.aligned hslot
  have hscan : scanDirective m c d = (decide (wordAt m slot = 0), c') := by
    rw [hcounts.scan]
    unfold scanConversion consumeCountConversionArgument
    dsimp only
    rw [if_neg (by rw [hn]; decide), if_neg (by rw [hn]; decide), if_neg (by rw [hn]; decide),
      if_neg (by rw [hn]; decide), if_neg (by rw [hn]; decide), if_neg (by rw [hn]; decide), hnext]
  have haction : printfAction float m c d =
      if wordAt m slot = 0 then none
      else some (.count (wordAt m slot) d.length.countSize, c') := by
    rw [printfAction_other (by rw [hn]; rfl)]
    unfold directiveAction
    rw [hcounts.resolved, Option.bind_some, if_pos (by rw [hn]; rfl), hnext, Option.bind_some]
  by_cases hnull : wordAt m slot = 0
  · rw [if_pos hnull] at haction
    rw [decide_eq_true hnull] at hscan
    exact Scanned.of_none halign hscan haction
  · rw [if_neg hnull] at haction
    rw [decide_eq_false hnull] at hscan
    exact Scanned.of_some halign hscan haction (iff_of_false Bool.false_ne_true List.not_mem_nil)

/-- **A directive under the analysis.** -/
theorem scanDirective_scanned
    (hnone : ∀ width leftAlign precision bits, newline ∉ float d width leftAlign precision bits)
    (hallowed : d.Allowed) (hsupported : lineBufferNewlineAnalysisSupportsDirective d = true)
    (hlong : d.longFloat = false) (halign : c.Aligned) (hcursor : printfCursor c d = some c') :
    Scanned float m c d c' := by
  unfold printfCursor at hcursor
  rcases Option.bind_eq_some_iff.mp hcursor with ⟨c₂, hstars, hconversion⟩
  rcases Option.map_eq_some_iff.mp hconversion with ⟨⟨slot, c''⟩, hslot, heq⟩
  dsimp only at heq
  rw [heq] at hslot
  -- The scanner reads the stars as the printing function does.
  rcases passedCounts_of_countsCursor m halign hstars with ⟨counts, hcounts, hc₂⟩
  rw [← hc₂] at hslot
  unfold conversionSlot at hslot
  have hgeneral : isFloatConversion d.conversion = false →
      counts.cursor.vaArgGeneral = some (slot, c') := by
    intro hfloat
    rw [hfloat, if_neg Bool.false_ne_true] at hslot
    exact hslot
  -- One lemma for each kind of conversion; a supported float is a `double`.
  rcases conversion_cases hallowed with hs | hc | hp | hfloat | hn | hinteger
  · exact scanned_string hs hcounts (hgeneral (by rw [hs]; rfl))
  · have hprecision : d.precision = none := by
      cases hspec : d.precision with
      | none => rfl
      | some spec =>
        unfold lineBufferNewlineAnalysisSupportsDirective
          internalVfprintfSupportsDirective at hsupported
        rw [hc, hspec] at hsupported
        cases hsupported
    exact scanned_char hc hprecision hcounts (hgeneral (by rw [hc]; rfl))
  · exact scanned_pointer hp hcounts (hgeneral (by rw [hp]; rfl))
  · rw [if_pos hfloat] at hslot
    have hlength : d.length = .default := by
      cases length_of_float hallowed hfloat with
      | inl hdefault => exact hdefault
      | inr hl => exact absurd ⟨hfloat, hl⟩ (of_decide_eq_false hlong)
    exact scanned_float hnone hfloat hlength hcounts hslot
  · exact scanned_count hn hcounts (hgeneral (by rw [hn]; rfl))
  · have hfloat : isFloatConversion d.conversion = false := by
      rcases integer_cases hinteger with h | h | h | h | h | h
      all_goals
        rw [h]
        rfl
    exact scanned_integer hinteger hcounts (hgeneral hfloat)

/-! ## Floating conversions with an `l` -/

theorem length_slotsUpTo (c c' : VarArgCursor) :
    (c.slotsUpTo c').length = (c'.gpOffset - c.gpOffset) / 8 + (c'.fpOffset - c.fpOffset) / 16 +
      (c'.overflowArgArea - c.overflowArgArea) / 8 := by
  unfold VarArgCursor.slotsUpTo
  simp only [List.length_append, List.length_map, List.length_range]

/-- The analysis passes other slots than printf. -/
theorem longFloat_slots (hlong : d.longFloat = true) (halign : c.Aligned)
    (hcursor : printfCursor c d = some c') :
    c.slotsUpTo (scanDirective m c d).2 ≠ c.slotsUpTo c' := by
  rcases of_decide_eq_true hlong with ⟨hfloat, hl⟩
  unfold printfCursor at hcursor
  rcases Option.bind_eq_some_iff.mp hcursor with ⟨c₂, hstars, hconversion⟩
  rcases Option.map_eq_some_iff.mp hconversion with ⟨⟨slot, c''⟩, hslot, heq⟩
  dsimp only at heq
  rw [heq] at hslot
  rcases passedCounts_of_countsCursor m halign hstars with ⟨counts, hcounts, hc₂⟩
  rw [← hc₂] at hslot
  unfold conversionSlot at hslot
  rw [if_pos hfloat] at hslot
  rcases float_other hfloat with ⟨hs, hc, hsigned⟩
  -- no word of the overflow area is passed, or two are
  have hscan : scanDirective m c d = (true, counts.cursor) ∨ scanDirective m c d = (false,
      { counts.cursor with overflowArgArea := counts.cursor.overflowArgArea + 16 }) := by
    rw [hcounts.scan]
    unfold scanConversion advanceLineBufferFloatArgument VarArgCursor.skipLongDouble
    dsimp only
    rw [if_neg hs, if_neg hc, if_neg hsigned, if_pos hfloat, hl]
    by_cases hnull : counts.cursor.overflowArgArea = 0
    · left
      dsimp only
      rw [if_pos hnull]
    · right
      dsimp only
      rw [if_neg hnull]
  rcases hcounts.passed.gp with ⟨i, hgp⟩
  rcases hcounts.passed.overflow with ⟨k, hoverflow⟩
  have hfp := hcounts.passed.fp
  intro hsame
  have hlength := congrArg List.length hsame
  rw [length_slotsUpTo, length_slotsUpTo] at hlength
  rcases vaArgDouble_eq_some hslot with ⟨_, _, _, hnext⟩ | ⟨_, _, _, hnext⟩
  · rw [hnext] at hlength
    rcases hscan with hscan | hscan
    all_goals
      rw [hscan] at hlength
      dsimp only at hlength
      omega
  · rw [hnext] at hlength
    rcases hscan with hscan | hscan
    all_goals
      rw [hscan] at hlength
      dsimp only at hlength
      omega

end

end Rlibc.Stdio
