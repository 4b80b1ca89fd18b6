import Rlibc.Stdio.Vsnprintf

/-!
# A format as a list of tokens

Parsing does not look at arguments.  The loop over a format is a fold over its tokens, and the
proofs about formatting are inductions on them.
-/

namespace Rlibc.Stdio

open ByteMem

inductive Token where
  | literal (byte : UInt8)
  | directive (d : FormatDirective)
  | invalid
deriving DecidableEq

/-- The tokens of a format, up to the first one that is not valid. -/
def formatTokens : List UInt8 → List Token
  | [] => []
  | byte :: rest =>
    if byte ≠ '%'.toUInt8 then .literal byte :: formatTokens rest
    else if rest = [] then [.invalid]
    else if rest.head? = some '%'.toUInt8 then .literal '%'.toUInt8 :: formatTokens rest.tail
    else
      match _hparse : parseFormatDirective rest with
      | none => [.invalid]
      | some (directive, next) => .directive directive :: formatTokens next
termination_by bytes => bytes.length
decreasing_by
  · exact Nat.lt_succ_self _
  · rw [List.length_tail, List.length_cons]
    omega
  · have hlt := parseFormatDirective_length _hparse
    rw [List.length_cons]
    omega

section

variable {σ : Type} (S : Sink σ)

def runTokens (st : FormatState σ) : List Token → FormatState σ × Option Failure
  | [] => (st, none)
  | .literal byte :: tokens => runTokens (pushPiece S st (.repeated byte 1)) tokens
  | .directive d :: tokens =>
    match applyDirective S st d with
    | .error failure => (st, some failure)
    | .ok st => runTokens st tokens
  | .invalid :: _ => (st, some .einval)

theorem formatLoop_eq (st : FormatState σ) (bytes : List UInt8) :
    formatLoop S st bytes = runTokens S st (formatTokens bytes) := by
  fun_induction formatTokens bytes generalizing st with
  | case1 => rw [formatLoop, runTokens]
  | case2 byte rest hbyte ih =>
    rw [formatLoop, if_pos hbyte, runTokens]
    exact ih _
  | case3 byte hbyte => rw [formatLoop, if_neg hbyte, if_pos rfl, runTokens]
  | case4 byte rest hbyte hrest hhead ih =>
    rw [formatLoop, if_neg hbyte, if_neg hrest, if_pos hhead, runTokens]
    exact ih _
  | case5 byte rest hbyte hrest hhead hparse =>
    rw [formatLoop, if_neg hbyte, if_neg hrest, if_neg hhead, runTokens]
    split
    · rfl
    · rename_i hsome
      cases hparse.symm.trans hsome
  | case6 byte rest hbyte hrest hhead directive next hparse ih =>
    rw [formatLoop, if_neg hbyte, if_neg hrest, if_neg hhead, runTokens]
    split
    · rename_i hnone
      cases hparse.symm.trans hnone
    · rename_i hsome
      cases hparse.symm.trans hsome
      cases applyDirective S st directive with
      | error failure => rfl
      | ok st' => exact ih st'

end

/-! ## The recorder -/

def Rendered.text (m : Mem) (r : Rendered) : List UInt8 := r.pieces.flatMap fun p => p.text m

theorem recorder_pushPieces (st : FormatState (List UInt8)) (pieces : List Piece) :
    pushPieces recorder st pieces =
      { st with sink := st.sink ++ pieces.flatMap fun p => p.text st.mem } := by
  unfold pushPieces
  induction pieces generalizing st with
  | nil => rw [List.foldl_nil, List.flatMap_nil, List.append_nil]
  | cons piece pieces ih =>
    rw [List.foldl_cons, ih, List.flatMap_cons, ← List.append_assoc]
    rfl

end Rlibc.Stdio
