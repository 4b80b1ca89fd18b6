import Rlibc.Stdio.TwoPasses
import Rlibc.Stdio.VarArgRules

/-!
# What printf prints

The text of a format and its arguments, as C has it: a floating conversion takes a `double`
whether an `l` stands before it or not, and its text is a parameter, since the library leaves it to
the host; the other directives print what the library's own formatter prints for them.  `%n` stores
the count so far, which is kept apart from what later directives read.
-/

namespace Rlibc.Stdio

open ByteMem ByteOrder

/-- The text of a floating conversion: its directive, width, alignment and precision, and the bits
of the `double`. -/
abbrev FloatText := FormatDirective → Nat → Bool → Option Nat → Nat → List UInt8

variable (float : FloatText)

/-! ## One directive -/

/-- The action of a directive, and the cursor behind its arguments, unless it is rejected. -/
def printfAction (m : Mem) (c : VarArgCursor) (d : FormatDirective) :
    Option (Action × VarArgCursor) :=
  if isFloatConversion d.conversion then
    (resolveCounts m c d).bind fun counts => counts.cursor.vaArgDouble.map fun r =>
      (.render ⟨[.bytes (float d counts.width counts.leftAlign counts.precision (wordAt m r.1))], 0⟩,
        r.2)
  else directiveAction m c d

/-- What an action prints. -/
def Action.text (m : Mem) : Action → List UInt8
  | render rendered => rendered.text m
  | count _ _ => []

/-- The memory after an action. -/
def Action.memory (m : Mem) (printed : Nat) : Action → Mem
  | render _ => m
  | count pointer size => storeNat m size pointer printed

/-- The lengths of an action fit where they are kept. -/
def Action.Fits (printed : Nat) : Action → Prop
  | render rendered => rendered.lengthSum ≤ usizeMax
  | count _ size => countFits size printed = true

/-! ## A run -/

structure PrintfState where
  mem : Mem
  cursor : VarArgCursor
  printed : Nat

def PrintfState.literal (st : PrintfState) : PrintfState := { st with printed := st.printed + 1 }

def PrintfState.next (st : PrintfState) (r : Action × VarArgCursor) : PrintfState where
  mem := r.1.memory st.mem st.printed
  cursor := r.2
  printed := st.printed + (r.1.text st.mem).length

/-- The text, unless a directive is rejected. -/
def printfText (st : PrintfState) : List Token → Option (List UInt8)
  | [] => some []
  | .literal byte :: tokens => (printfText st.literal tokens).map fun text => byte :: text
  | .directive d :: tokens => (printfAction float st.mem st.cursor d).bind fun r =>
    (printfText (st.next r) tokens).map fun text => r.1.text st.mem ++ text
  | .invalid :: _ => none

/-- All lengths of a run fit where they are kept. -/
def AllFit (st : PrintfState) : List Token → Prop
  | [] => True
  | .literal _ :: tokens => AllFit st.literal tokens
  | .directive d :: tokens => ∀ r, printfAction float st.mem st.cursor d = some r →
    r.1.Fits st.printed ∧ AllFit (st.next r) tokens
  | .invalid :: _ => True

/-- The bytes that a directive reads. -/
def printfReads (m : Mem) (c : VarArgCursor) (d : FormatDirective) (b : Nat) : Prop :=
  if isFloatConversion d.conversion then
    countsReads m c d b ∨ ∃ counts r, resolveCounts m c d = some counts ∧
      counts.cursor.vaArgDouble = some r ∧ r.1 ≤ b ∧ b < r.1 + 8
  else directiveReads m c d b

/-- The bytes that the directives read, as the memory is before the call. -/
def laterReads (m : Mem) (c : VarArgCursor) : List Token → Nat → Prop
  | [], _ => False
  | .literal _ :: tokens, b => laterReads m c tokens b
  | .directive d :: tokens, b => printfReads m c d b ∨
    ∃ r, printfAction float m c d = some r ∧ laterReads m r.2 tokens b
  | .invalid :: _, _ => False

/-- No `%n` stores into what a later directive reads. -/
def Unaliased (m : Mem) (c : VarArgCursor) : List Token → Prop
  | [] => True
  | .literal _ :: tokens => Unaliased m c tokens
  | .directive d :: tokens => ∀ r, printfAction float m c d = some r →
    (∀ b, r.1.writes b → ¬ laterReads float m r.2 tokens b) ∧ Unaliased m r.2 tokens
  | .invalid :: _ => True

/-! ## Reading -/

section

variable {float} {m m' : Mem} {c : VarArgCursor} {d : FormatDirective}

theorem printfReads_float (hfloat : isFloatConversion d.conversion = true) (b : Nat) :
    printfReads m c d b ↔ countsReads m c d b ∨ ∃ counts r, resolveCounts m c d = some counts ∧
      counts.cursor.vaArgDouble = some r ∧ r.1 ≤ b ∧ b < r.1 + 8 := by
  unfold printfReads
  rw [if_pos hfloat]

theorem printfReads_other (hfloat : isFloatConversion d.conversion = false) (b : Nat) :
    printfReads m c d b ↔ directiveReads m c d b := by
  unfold printfReads
  rw [hfloat, if_neg Bool.false_ne_true]

theorem printfAction_other (hfloat : isFloatConversion d.conversion = false) :
    printfAction float m c d = directiveAction m c d := by
  unfold printfAction
  rw [hfloat, if_neg Bool.false_ne_true]

theorem printfAction_congr (h : ∀ b, printfReads m c d b → m' b = m b) :
    printfAction float m' c d = printfAction float m c d := by
  cases hfloat : isFloatConversion d.conversion with
  | true =>
    have hcounts : resolveCounts m' c d = resolveCounts m c d :=
      resolveCounts_congr fun b hb => h b ((printfReads_float hfloat b).mpr (Or.inl hb))
    unfold printfAction
    rw [if_pos hfloat, if_pos hfloat, hcounts]
    cases hresolved : resolveCounts m c d with
    | none => rw [Option.bind_none, Option.bind_none]
    | some counts =>
      rw [Option.bind_some, Option.bind_some]
      cases hslot : counts.cursor.vaArgDouble with
      | none => rw [Option.map_none, Option.map_none]
      | some r =>
        have hword : wordAt m' r.1 = wordAt m r.1 := by
          apply natAt_congr
          intro b hlow hhigh
          exact h b ((printfReads_float hfloat b).mpr
            (Or.inr ⟨counts, r, hresolved, hslot, hlow, hhigh⟩))
        rw [Option.map_some, Option.map_some, hword]
  | false =>
    rw [printfAction_other hfloat, printfAction_other hfloat]
    exact directiveAction_congr fun b hb => h b ((printfReads_other hfloat b).mpr hb)

/-- What is printed depends on the bytes that the directive reads. -/
theorem text_congr {r : Action × VarArgCursor} (h : ∀ b, printfReads m c d b → m' b = m b)
    (haction : printfAction float m c d = some r) : r.1.text m' = r.1.text m := by
  cases hfloat : isFloatConversion d.conversion with
  | true =>
    unfold printfAction at haction
    rw [if_pos hfloat] at haction
    rcases Option.bind_eq_some_iff.mp haction with ⟨counts, _, hrender⟩
    rcases Option.map_eq_some_iff.mp hrender with ⟨s, _, heq⟩
    rw [← heq]
    rfl
  | false =>
    rw [printfAction_other hfloat] at haction
    cases hr : r.1 with
    | count pointer size => rfl
    | render rendered =>
      have hsome : directiveAction m c d = some (.render rendered, r.2) := by
        rw [haction, ← hr]
      apply List.flatMap_congr
      intro piece hmem
      apply Piece.text_congr
      intro b hb
      exact h b ((printfReads_other hfloat b).mpr (directiveAction_reads hsome hmem hb))

end

/-- The memory is, for what the tokens read, the one before the call. -/
def Undisturbed (m : Mem) (st : PrintfState) (tokens : List Token) : Prop :=
  ∀ b, laterReads float m st.cursor tokens b → st.mem b = m b

section

variable {float} {m : Mem} {st : PrintfState} {d : FormatDirective} {tokens : List Token}

theorem Undisturbed.now (h : Undisturbed float m st (.directive d :: tokens)) :
    ∀ b, printfReads m st.cursor d b → st.mem b = m b := fun b hb => h b (Or.inl hb)

/-- A directive leaves alone what the ones behind it read. -/
theorem Undisturbed.next {r : Action × VarArgCursor}
    (h : Undisturbed float m st (.directive d :: tokens))
    (hapart : Unaliased float m st.cursor (.directive d :: tokens))
    (haction : printfAction float m st.cursor d = some r) :
    Undisturbed float m (st.next r) tokens := by
  intro b hb
  have hkept : st.mem b = m b := h b (Or.inr ⟨r, haction, hb⟩)
  have hwrites := (hapart r haction).1 b
  change r.1.memory st.mem st.printed b = m b
  cases hr : r.1 with
  | render rendered => exact hkept
  | count pointer size =>
    change storeNat st.mem size pointer st.printed b = m b
    rw [storeNat_outside, hkept]
    rw [hr] at hwrites
    by_contra hinside
    exact hwrites (by change pointer ≤ b ∧ b < pointer + size; omega) hb

end

/-! ## The library's formatter -/

/-- A count that saturates does not fit, and does not fit either before it saturates. -/
theorem countFits_required (size printed : Nat) :
    countFits size (min printed usizeMax) = countFits size printed := by
  have hmax : cIntMax < usizeMax := by decide
  by_cases hle : printed ≤ usizeMax
  · rw [Nat.min_eq_left hle]
  · have hlarge : ∀ n, cIntMax < n → countFits size n = false :=
      fun n hn => decide_eq_false fun h => absurd h.1 (Nat.not_le.mpr hn)
    rw [hlarge _ (by omega), hlarge _ (by omega)]

/-- What the formatter does for an action whose lengths fit. -/
theorem apply_of_fits {action : Action} {mem : Mem} {c c' : VarArgCursor} {out : List UInt8}
    (h : action.Fits out.length) :
    action.apply recorder ⟨mem, c, out⟩ c' =
      .ok ⟨action.memory mem out.length, c', out ++ action.text mem⟩ := by
  cases action with
  | render rendered =>
    have hfits : recorder.fits rendered.lengthSum = true := decide_eq_true h
    unfold Action.apply
    dsimp only
    rw [if_pos hfits, recorder_pushPieces]
    rfl
  | count pointer size =>
    have hfits : countFits size (recorder.required out) = true :=
      (countFits_required size out.length).trans h
    have hrequired : recorder.required out = out.length := by
      have hle : out.length ≤ cIntMax := (of_decide_eq_true h).1
      exact Nat.min_eq_left (Nat.le_trans hle (by decide))
    unfold Action.apply
    dsimp only
    rw [if_pos hfits, hrequired, Action.text, List.append_nil]
    rfl

theorem apply_of_not_fits {action : Action} {mem : Mem} {c c' : VarArgCursor} {out : List UInt8}
    (h : ¬ action.Fits out.length) :
    ∃ failure, action.apply recorder ⟨mem, c, out⟩ c' = .error failure := by
  cases action with
  | render rendered =>
    have hfits : ¬ recorder.fits rendered.lengthSum = true := by
      intro heq
      exact h (show rendered.lengthSum ≤ usizeMax from of_decide_eq_true heq)
    unfold Action.apply
    dsimp only
    rw [if_neg hfits]
    exact ⟨_, rfl⟩
  | count pointer size =>
    have hfits : ¬ countFits size (recorder.required out) = true :=
      fun heq => h ((countFits_required size out.length).symm.trans heq)
    unfold Action.apply
    dsimp only
    rw [if_neg hfits]
    exact ⟨_, rfl⟩

theorem runTokens_of_fits {d : FormatDirective} {tokens : List Token} {mem : Mem}
    {c : VarArgCursor} {out : List UInt8} {r : Action × VarArgCursor}
    (haction : directiveAction mem c d = some r) (hfits : r.1.Fits out.length) :
    runTokens recorder ⟨mem, c, out⟩ (.directive d :: tokens) =
      runTokens recorder ⟨r.1.memory mem out.length, r.2, out ++ r.1.text mem⟩ tokens := by
  rw [runTokens, applyDirective_eq]
  dsimp only
  rw [haction]
  dsimp only
  rw [apply_of_fits hfits]

/-- A directive that lets a run go on is accepted, and its lengths fit. -/
theorem fits_of_runTokens {d : FormatDirective} {tokens : List Token} {mem : Mem}
    {c : VarArgCursor} {out : List UInt8}
    (hrun : (runTokens recorder ⟨mem, c, out⟩ (.directive d :: tokens)).2 = none) :
    ∃ r, directiveAction mem c d = some r ∧ r.1.Fits out.length := by
  rw [runTokens, applyDirective_eq] at hrun
  dsimp only at hrun
  cases haction : directiveAction mem c d with
  | none =>
    rw [haction] at hrun
    cases hrun
  | some r =>
    refine ⟨r, rfl, ?_⟩
    by_contra hfits
    rcases @apply_of_not_fits r.1 mem c r.2 out hfits with ⟨failure, herror⟩
    rw [haction] at hrun
    dsimp only at hrun
    rw [herror] at hrun
    cases hrun

section

variable {float}

/-- What the formatter prints is the text, and all lengths have fitted. -/
theorem printfText_of_runTokens {tokens : List Token}
    (hfloat : ∀ d, .directive d ∈ tokens → isFloatConversion d.conversion = false)
    {mem : Mem} {c : VarArgCursor} {out : List UInt8}
    (hrun : (runTokens recorder ⟨mem, c, out⟩ tokens).2 = none) :
    ∃ R, printfText float ⟨mem, c, out.length⟩ tokens = some R ∧
      AllFit float ⟨mem, c, out.length⟩ tokens ∧
      (runTokens recorder ⟨mem, c, out⟩ tokens).1.sink = out ++ R := by
  -- Induction on the tokens, with the bytes that are out already as the count of `%n`.
  induction tokens generalizing mem c out with
  | nil => exact ⟨[], rfl, trivial, (List.append_nil out).symm⟩
  | cons token tokens ih =>
    have hrest : ∀ d, .directive d ∈ tokens → isFloatConversion d.conversion = false :=
      fun d hd => hfloat d (List.mem_cons_of_mem token hd)
    cases token with
    | invalid => cases hrun
    | literal byte =>
      change (runTokens recorder ⟨mem, c, out ++ [byte]⟩ tokens).2 = none at hrun
      rcases ih hrest hrun with ⟨R, htext, hfit, hsink⟩
      rw [List.length_append, List.length_singleton] at htext hfit
      refine ⟨byte :: R, ?_, hfit, ?_⟩
      · change (printfText float ⟨mem, c, out.length + 1⟩ tokens).map _ = _
        rw [htext]
        rfl
      · change (runTokens recorder ⟨mem, c, out ++ [byte]⟩ tokens).1.sink = _
        rw [hsink, List.append_assoc]
        rfl
    | directive d =>
      have hother := hfloat d List.mem_cons_self
      rcases fits_of_runTokens hrun with ⟨r, haction, hfits⟩
      have hsome : printfAction float mem c d = some r := (printfAction_other hother).trans haction
      rw [runTokens_of_fits haction hfits] at hrun ⊢
      rcases ih hrest hrun with ⟨R, htext, hfit, hsink⟩
      rw [List.length_append] at htext hfit
      refine ⟨r.1.text mem ++ R, ?_, ?_, ?_⟩
      · change (printfAction float mem c d).bind _ = _
        rw [hsome, Option.bind_some]
        change (printfText float ⟨_, _, _⟩ tokens).map _ = _
        rw [htext]
        rfl
      · intro r' hr'
        cases hsome.symm.trans hr'
        exact ⟨hfits, hfit⟩
      · rw [hsink, List.append_assoc]

/-- If the text is accepted and all lengths fit, the formatter goes through. -/
theorem runTokens_of_printfText {tokens : List Token}
    (hfloat : ∀ d, .directive d ∈ tokens → isFloatConversion d.conversion = false)
    {mem : Mem} {c : VarArgCursor} {out R : List UInt8}
    (htext : printfText float ⟨mem, c, out.length⟩ tokens = some R)
    (hfit : AllFit float ⟨mem, c, out.length⟩ tokens) :
    (runTokens recorder ⟨mem, c, out⟩ tokens).2 = none := by
  induction tokens generalizing mem c out R with
  | nil => rfl
  | cons token tokens ih =>
    have hrest : ∀ d, .directive d ∈ tokens → isFloatConversion d.conversion = false :=
      fun d hd => hfloat d (List.mem_cons_of_mem token hd)
    cases token with
    | invalid => cases htext
    | literal byte =>
      change (printfText float ⟨mem, c, out.length + 1⟩ tokens).map _ = _ at htext
      rcases Option.map_eq_some_iff.mp htext with ⟨R', htext', _⟩
      have hlen : (out ++ [byte]).length = out.length + 1 := by
        rw [List.length_append, List.length_singleton]
      change (runTokens recorder ⟨mem, c, out ++ [byte]⟩ tokens).2 = none
      apply ih hrest
      · rw [hlen]
        exact htext'
      · rw [hlen]
        exact hfit
    | directive d =>
      have hother := hfloat d List.mem_cons_self
      change (printfAction float mem c d).bind _ = _ at htext
      rcases Option.bind_eq_some_iff.mp htext with ⟨r, hsome, hmap⟩
      rcases Option.map_eq_some_iff.mp hmap with ⟨R', htext', _⟩
      rcases hfit r hsome with ⟨hfits, hfit'⟩
      have haction : directiveAction mem c d = some r := (printfAction_other hother).symm.trans hsome
      rw [runTokens_of_fits haction hfits]
      apply ih hrest
      · rw [List.length_append]
        exact htext'
      · rw [List.length_append]
        exact hfit'

/-- A call of the library's formatter renders the text, unless a length does not fit. -/
theorem rendering_eq_some_iff {m : Mem} {format ap : Nat}
    (hfloat : ∀ d, .directive d ∈ formatTokens (cString m format) →
      isFloatConversion d.conversion = false) (R : List UInt8) :
    rendering m format ap = some R ↔
      printfText float ⟨m, .fromVaList m ap, 0⟩ (formatTokens (cString m format)) = some R ∧
        AllFit float ⟨m, .fromVaList m ap, 0⟩ (formatTokens (cString m format)) := by
  rw [rendering_eq_some, formatAll_eq]
  constructor
  · intro h
    rcases @printfText_of_runTokens float _ hfloat _ _ _ h.1 with ⟨R', htext, hfit, hsink⟩
    have heq : R' = R := hsink.symm.trans h.2
    rw [← heq]
    exact ⟨htext, hfit⟩
  · intro h
    have hrun := @runTokens_of_printfText float _ hfloat m (.fromVaList m ap) [] R h.1 h.2
    rcases @printfText_of_runTokens float _ hfloat _ _ _ hrun with ⟨R', htext, _, hsink⟩
    have heq : R = R' := Option.some.inj (h.1.symm.trans htext)
    rw [heq]
    exact ⟨hrun, hsink⟩

end

end Rlibc.Stdio
