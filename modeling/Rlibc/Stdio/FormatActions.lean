import Rlibc.Stdio.FormatTokens

/-!
# What a directive does

A directive reads its arguments and then either pushes pieces or stores the count so far.  Which
of these it is does not depend on the sink, and a run is a sequence of such actions.
-/

namespace Rlibc.Stdio

open ByteMem

/-- The width, the alignment, the precision and the cursor behind their arguments. -/
structure ResolvedCounts where
  width : Nat
  leftAlign : Bool
  precision : Option Nat
  cursor : VarArgCursor

def resolveCounts (m : Mem) (c : VarArgCursor) (d : FormatDirective) : Option ResolvedCounts :=
  (resolveWidth m d.width c d.flags.leftAlign).bind fun width =>
    (resolvePrecision m d.precision width.2).map fun precision =>
      ⟨width.1.1, width.1.2, precision.1, precision.2⟩

inductive Action where
  | render (rendered : Rendered)
  /-- `%n`. -/
  | count (pointer size : Nat)

/-- The action of a directive, and the cursor behind its arguments, unless it is rejected. -/
def directiveAction (m : Mem) (c : VarArgCursor) (d : FormatDirective) :
    Option (Action × VarArgCursor) :=
  (resolveCounts m c d).bind fun counts =>
    if isCountConversion d.conversion then
      (counts.cursor.nextPtr m).bind fun r =>
        if r.1 = 0 then none else some (.count r.1 d.length.countSize, r.2)
    else
      (renderConversion m counts.cursor d counts.leftAlign counts.width counts.precision).map
        fun r => (.render r.1, r.2)

/-- The sum of lengths that is computed for an action. -/
def Action.lengthSum : Action → Nat
  | render rendered => rendered.lengthSum
  | count _ _ => 0

/-- A count fits into an `int`, and into the object that it is stored in. -/
def countFits (size required : Nat) : Bool :=
  required ≤ cIntMax ∧ required < 2 ^ (8 * size - 1)

section

variable {σ : Type} (S : Sink σ)

def Action.apply (st : FormatState σ) (c : VarArgCursor) : Action → Except Failure (FormatState σ)
  | render rendered =>
    if S.fits rendered.lengthSum then
      .ok (pushPieces S { st with cursor := c } rendered.pieces)
    else .error .overflow
  | count pointer size =>
    if countFits size (S.required st.sink) then
      .ok { st with mem := storeNat st.mem size pointer (S.required st.sink), cursor := c }
    else .error .einval

theorem writeCountConversion_eq (m : Mem) (c : VarArgCursor) (length : LengthModifier)
    (required : Nat) :
    writeCountConversion m c length required =
      (c.nextPtr m).bind fun r =>
        if r.1 = 0 ∨ countFits length.countSize required = false then none
        else some (storeNat m length.countSize r.1 required, r.2) := by
  unfold writeCountConversion countFits
  by_cases hmax : required > cIntMax
  · rw [if_pos hmax]
    cases c.nextPtr m with
    | none => rfl
    | some r =>
      rw [Option.bind_some, if_pos]
      exact Or.inr (decide_eq_false fun h => Nat.not_lt.mpr h.1 hmax)
  · rw [if_neg hmax]
    cases c.nextPtr m with
    | none => rfl
    | some r =>
      have hiff : r.1 = 0 ∨ required ≥ 2 ^ (8 * length.countSize - 1) ↔
          r.1 = 0 ∨ decide (required ≤ cIntMax ∧ required < 2 ^ (8 * length.countSize - 1)) =
            false := by
        rw [decide_eq_false_iff_not]
        omega
      change (if r.1 = 0 ∨ required ≥ 2 ^ (8 * length.countSize - 1) then none else _) = _
      rw [Option.bind_some]
      exact if_congr hiff rfl rfl

/-- **What a directive does.** -/
theorem applyDirective_eq (st : FormatState σ) (d : FormatDirective) :
    applyDirective S st d =
      match directiveAction st.mem st.cursor d with
      | none => .error .einval
      | some r => r.1.apply S st r.2 := by
  unfold applyDirective directiveAction resolveCounts
  cases resolveWidth st.mem d.width st.cursor d.flags.leftAlign with
  | none => rfl
  | some width =>
    rw [Option.bind_some]
    dsimp only
    cases resolvePrecision st.mem d.precision width.2 with
    | none => rfl
    | some precision =>
      rw [Option.map_some, Option.bind_some]
      dsimp only
      unfold applyConversion
      -- A `%n` stores the count and prints nothing; every other conversion prints its pieces.
      by_cases hcount : isCountConversion d.conversion = true
      · rw [if_pos hcount, if_pos hcount, writeCountConversion_eq]
        dsimp only
        cases precision.2.nextPtr st.mem with
        | none => rfl
        | some r =>
          rw [Option.bind_some, Option.bind_some]
          by_cases hnull : r.1 = 0
          · rw [if_pos (Or.inl hnull), if_pos hnull]
          · rw [if_neg hnull]
            dsimp only
            cases hfits : countFits d.length.countSize (S.required st.sink) with
            | true =>
              rw [if_neg fun h => h.elim hnull Bool.noConfusion]
              exact (if_pos hfits).symm
            | false =>
              rw [if_pos (Or.inr rfl)]
              exact (if_neg (Bool.eq_false_iff.mp hfits)).symm
      · rw [if_neg hcount, if_neg hcount]
        dsimp only
        cases renderConversion st.mem precision.2 d width.1.2 width.1.1 precision.1 with
        | none => rfl
        | some r => rfl

end

/-! ## Two runs of one format -/

/-- Both fail in one way, or both go on in related states. -/
inductive Agree {α β : Type} (rel : α → β → Prop) : Except Failure α → Except Failure β → Prop
  | error (failure : Failure) : Agree rel (.error failure) (.error failure)
  | ok {a : α} {b : β} (h : rel a b) : Agree rel (.ok a) (.ok b)

section

variable {σ τ : Type} (S : Sink σ) (T : Sink τ)

/-- **Simulation.**  A relation that each token keeps, for the tokens behind it, relates the ends
of two runs. -/
theorem runTokens_simulation (rel : List Token → FormatState σ → FormatState τ → Prop)
    (hliteral : ∀ byte tokens st st', rel (.literal byte :: tokens) st st' →
      rel tokens (pushPiece S st (.repeated byte 1)) (pushPiece T st' (.repeated byte 1)))
    (hdirective : ∀ d tokens st st', rel (.directive d :: tokens) st st' →
      Agree (rel tokens) (applyDirective S st d) (applyDirective T st' d))
    (tokens : List Token) (st : FormatState σ) (st' : FormatState τ) (h : rel tokens st st') :
    (runTokens S st tokens).2 = (runTokens T st' tokens).2 ∧
      ∃ left, rel left (runTokens S st tokens).1 (runTokens T st' tokens).1 := by
  induction tokens generalizing st st' with
  | nil => exact ⟨rfl, [], h⟩
  | cons token tokens ih =>
    cases token with
    | literal byte => exact ih _ _ (hliteral byte tokens st st' h)
    | invalid => exact ⟨rfl, _, h⟩
    | directive d =>
      have hagree := hdirective d tokens st st' h
      unfold runTokens
      generalize applyDirective S st d = r at hagree
      generalize applyDirective T st' d = r' at hagree
      cases hagree with
      | error failure => exact ⟨rfl, _, h⟩
      | ok hrel => exact ih _ _ hrel

theorem pushPieces_simulation {rel : FormatState σ → FormatState τ → Prop}
    (hpush : ∀ st st' piece, rel st st' → rel (pushPiece S st piece) (pushPiece T st' piece))
    {st : FormatState σ} {st' : FormatState τ} (h : rel st st') (pieces : List Piece) :
    rel (pushPieces S st pieces) (pushPieces T st' pieces) := by
  unfold pushPieces
  induction pieces generalizing st st' with
  | nil => exact h
  | cons piece pieces ih => exact ih (hpush st st' piece h)

end

end Rlibc.Stdio
