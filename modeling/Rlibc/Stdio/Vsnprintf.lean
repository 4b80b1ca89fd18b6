import Rlibc.Foundations.ByteOrder
import Rlibc.Foundations.Numeral
import Rlibc.Stdio.VarArgs

/-!
# vsnprintf

The formatter writes pieces into a sink: a byte a number of times, some bytes, or a stretch of
memory.  Which sink it is makes no difference to the loop over the format, so that a sink without
a limit says what the whole rendering is.
-/

namespace Rlibc.Stdio

open ByteMem ByteOrder

/-! ## Pieces -/

inductive Piece where
  | repeated (byte : UInt8) (count : Nat)
  | bytes (text : List UInt8)
  | slice (address length : Nat)

def Piece.length : Piece → Nat
  | repeated _ count => count
  | bytes text => text.length
  | slice _ length => length

/-- What a piece stands for. -/
def Piece.text (m : Mem) : Piece → List UInt8
  | repeated byte count => List.replicate count byte
  | bytes text => text
  | slice address length => bytesAt m address length

/-- Write the first bytes of a piece. -/
def Piece.write (m : Mem) (target count : Nat) : Piece → Mem
  | repeated byte _ => fill m target count byte
  | bytes text => writeBytes m target (text.take count)
  | slice address _ => copy m address target count

def digitToAscii (value : Nat) (uppercase : Bool) : UInt8 :=
  UInt8.ofNat (if value ≤ 9 then 48 + value else if uppercase then 65 + (value - 10)
    else 97 + (value - 10))

def unsignedToAscii (value base : Nat) (uppercase : Bool) : List UInt8 :=
  (Numeral.digits base value).map fun digit => digitToAscii digit uppercase

/-- The pieces of a conversion, and the sum of lengths that is computed for them. -/
structure Rendered where
  pieces : List Piece
  lengthSum : Nat

def renderPadding (width contentLen : Nat) (leftAlign : Bool) : List Piece :=
  if leftAlign ∨ width ≤ contentLen then [] else [.repeated ' '.toUInt8 (width - contentLen)]

def renderTrailingPadding (width contentLen : Nat) (leftAlign : Bool) : List Piece :=
  if ¬leftAlign ∨ width ≤ contentLen then [] else [.repeated ' '.toUInt8 (width - contentLen)]

/-- A field of sign, prefix, zeros and digits. -/
def renderNumber (leftAlign useZeroPad : Bool) (width : Nat) (sign radixMark : List UInt8)
    (precisionZeros : Nat) (digits : List UInt8) : Rendered :=
  let contentLen := sign.length + radixMark.length + precisionZeros + digits.length
  { pieces :=
      (if ¬leftAlign ∧ ¬useZeroPad ∧ width > contentLen then
        [.repeated ' '.toUInt8 (width - contentLen)] else []) ++
      [.bytes sign, .bytes radixMark] ++
      (if ¬leftAlign ∧ useZeroPad ∧ width > contentLen then
        [.repeated '0'.toUInt8 (width - contentLen)] else []) ++
      [.repeated '0'.toUInt8 precisionZeros, .bytes digits] ++
      (if leftAlign ∧ width > contentLen then
        [.repeated ' '.toUInt8 (width - contentLen)] else [])
    lengthSum := contentLen }

def integerBase (conversion : UInt8) : Nat :=
  if conversion = 'x'.toUInt8 ∨ conversion = 'X'.toUInt8 then 16
  else if conversion = 'o'.toUInt8 then 8
  else 10

def integerSign (directive : FormatDirective) (isNegative : Bool) : List UInt8 :=
  if isNegative then ['-'.toUInt8]
  else if isSignedConversion directive.conversion ∧ directive.flags.forceSign then ['+'.toUInt8]
  else if isSignedConversion directive.conversion ∧ directive.flags.leadingSpaceForPositive then
    [' '.toUInt8]
  else []

def integerDigits (conversion : UInt8) (precision : Option Nat) (value : Nat) : List UInt8 :=
  if precision = some 0 ∧ value = 0 then []
  else unsignedToAscii value (integerBase conversion) (conversion = 'X'.toUInt8)

/-- `%#o`. -/
def FormatDirective.octalAlternate (directive : FormatDirective) : Bool :=
  directive.conversion = 'o'.toUInt8 ∧ directive.flags.alternateForm

def octalAlternatePrefix (directive : FormatDirective) (precision : Option Nat) (value : Nat) :
    List UInt8 :=
  if directive.octalAlternate ∧
      (value = 0 ∧ precision = some 0 ∨ value ≠ 0 ∧ precision = none) then ['0'.toUInt8]
  else []

def effectivePrecision (directive : FormatDirective) (precision : Option Nat) (value digitsLen : Nat) :
    Option Nat :=
  if directive.octalAlternate ∧ value ≠ 0 ∧ precision.isSome then
    some (max (precision.getD 0) (saturatingAdd digitsLen 1))
  else precision

def integerPrefix (directive : FormatDirective) (precision : Option Nat) (value : Nat) :
    List UInt8 :=
  if directive.flags.alternateForm ∧ value ≠ 0 then
    if directive.conversion = 'o'.toUInt8 then octalAlternatePrefix directive precision value
    else if directive.conversion = 'x'.toUInt8 then ['0'.toUInt8, 'x'.toUInt8]
    else if directive.conversion = 'X'.toUInt8 then ['0'.toUInt8, 'X'.toUInt8]
    else []
  else octalAlternatePrefix directive precision value

def renderFormattedInteger (directive : FormatDirective) (leftAlign : Bool) (width : Nat)
    (precision : Option Nat) (value : Nat) (isNegative : Bool) : Rendered :=
  let digits := integerDigits directive.conversion precision value
  let effective := effectivePrecision directive precision value digits.length
  let precisionZeros := effective.elim 0 fun target => target - digits.length
  let useZeroPad := directive.flags.zeroPad ∧ ¬leftAlign ∧ effective = none
  renderNumber leftAlign useZeroPad width (integerSign directive isNegative)
    (integerPrefix directive precision value) precisionZeros digits

def renderFormattedPointer (leftAlign zeroPad : Bool) (width : Nat) (precision : Option Nat)
    (sign : List UInt8) (pointerAddr : Nat) : Rendered :=
  let digits := unsignedToAscii pointerAddr 16 false
  let precisionZeros := precision.elim 0 fun target => target - digits.length
  let useZeroPad := zeroPad ∧ ¬leftAlign ∧ precision = none
  renderNumber leftAlign useZeroPad width sign ['0'.toUInt8, 'x'.toUInt8] precisionZeros digits

/-- `(null)`. -/
def nullFallback : List UInt8 :=
  ['('.toUInt8, 'n'.toUInt8, 'u'.toUInt8, 'l'.toUInt8, 'l'.toUInt8, ')'.toUInt8]

/-- The branch of `%s`. -/
def renderString (m : Mem) (leftAlign : Bool) (width : Nat) (precision : Option Nat)
    (pointer : Nat) : Rendered :=
  let source : Piece :=
    if pointer = 0 then .bytes (nullFallback.take (precision.getD nullFallback.length))
    else .slice pointer (cStringPrefixLen m pointer precision)
  { pieces := renderPadding width source.length leftAlign ++ [source] ++
      renderTrailingPadding width source.length leftAlign
    lengthSum := 0 }

/-- The branch of `%c`. -/
def renderChar (leftAlign : Bool) (width : Nat) (value : Int) : Rendered where
  pieces := renderPadding width 1 leftAlign ++ [.bytes [UInt8.ofNat (value % 2 ^ 8).toNat]] ++
    renderTrailingPadding width 1 leftAlign
  lengthSum := 0

/-- What a conversion pushes, unless it is `%n`. -/
def renderConversion (m : Mem) (c : VarArgCursor) (directive : FormatDirective) (leftAlign : Bool)
    (width : Nat) (precision : Option Nat) : Option (Rendered × VarArgCursor) :=
  let conversion := directive.conversion
  if conversion = 's'.toUInt8 then
    (c.nextPtr m).map fun r => (renderString m leftAlign width precision r.1, r.2)
  else if conversion = 'c'.toUInt8 then
    if precision.isSome then none
    else (c.nextCInt m).map fun r => (renderChar leftAlign width r.1, r.2)
  else if conversion = 'p'.toUInt8 then
    (c.nextPtr m).map fun r =>
      let sign :=
        if directive.flags.forceSign then ['+'.toUInt8]
        else if directive.flags.leadingSpaceForPositive then [' '.toUInt8]
        else []
      (renderFormattedPointer leftAlign directive.flags.zeroPad width precision sign r.1, r.2)
  else if isSignedConversion conversion then
    (readSignedArgument m c directive.length).map fun r =>
      (renderFormattedInteger directive leftAlign width precision r.1.natAbs (r.1 < 0), r.2)
  else if isIntegerConversion conversion then
    (readUnsignedArgument m c directive.length).map fun r =>
      (renderFormattedInteger directive leftAlign width precision r.1 false, r.2)
  else none

/-- The bytes of the object that `%n` writes. -/
def LengthModifier.countSize : LengthModifier → Nat
  | default => 4
  | hh => 1
  | h => 2
  | _ => 8

def writeCountConversion (m : Mem) (c : VarArgCursor) (length : LengthModifier)
    (bytesRequired : Nat) : Option (Mem × VarArgCursor) :=
  if bytesRequired > cIntMax then none
  else
    match c.nextPtr m with
    | none => none
    | some (pointer, c) =>
      if pointer = 0 ∨ bytesRequired ≥ 2 ^ (8 * length.countSize - 1) then none
      else some (storeNat m length.countSize pointer bytesRequired, c)

/-! ## Sinks -/

/-- Why a call does not go through: it returns `EINVAL`, or a sum of lengths does not fit, which
ends the process where such sums are checked. -/
inductive Failure where
  | einval
  | overflow
deriving DecidableEq

/-- Where pieces go, and which sums of lengths fit. -/
structure Sink (σ : Type) where
  push : Mem → σ → Piece → Mem × σ
  required : σ → Nat
  fits : Nat → Bool

structure OutputSink where
  buffer : Nat
  capacity : Nat
  bytesWritten : Nat
  bytesRequired : Nat

namespace OutputSink

/-- `push_repeated` and `push_bytes`. -/
def push (m : Mem) (sink : OutputSink) (piece : Piece) : Mem × OutputSink :=
  let sink := { sink with bytesRequired := saturatingAdd sink.bytesRequired piece.length }
  if piece.length = 0 ∨ sink.capacity = 0 ∨ sink.buffer = 0 then (m, sink)
  else
    let writableLimit := sink.capacity - 1
    if sink.bytesWritten ≥ writableLimit then (m, sink)
    else
      let writableLen := min piece.length (writableLimit - sink.bytesWritten)
      (piece.write m (sink.buffer + sink.bytesWritten) writableLen,
        { sink with bytesWritten := sink.bytesWritten + writableLen })

def terminate (m : Mem) (sink : OutputSink) : Mem :=
  if sink.capacity = 0 ∨ sink.buffer = 0 then m
  else store m (sink.buffer + min sink.bytesWritten (sink.capacity - 1)) 0

end OutputSink

/-- `usize` holds the number. -/
def fitsUsize (n : Nat) : Bool := n ≤ usizeMax

def outputSink : Sink OutputSink := ⟨OutputSink.push, OutputSink.bytesRequired, fitsUsize⟩

/-- A sink that keeps all of its bytes and leaves the memory alone. -/
def recorder : Sink (List UInt8) where
  push m out piece := (m, out ++ piece.text m)
  required out := min out.length usizeMax
  fits := fitsUsize

/-! ## The loop -/

structure FormatState (σ : Type) where
  mem : Mem
  cursor : VarArgCursor
  sink : σ

variable {σ : Type} (S : Sink σ)

def pushPiece (st : FormatState σ) (piece : Piece) : FormatState σ :=
  let r := S.push st.mem st.sink piece
  { st with mem := r.1, sink := r.2 }

def pushPieces (st : FormatState σ) (pieces : List Piece) : FormatState σ :=
  pieces.foldl (pushPiece S) st

/-- One conversion, its width and precision being known. -/
def applyConversion (st : FormatState σ) (directive : FormatDirective) (leftAlign : Bool)
    (width : Nat) (precision : Option Nat) : Except Failure (FormatState σ) :=
  if isCountConversion directive.conversion then
    match writeCountConversion st.mem st.cursor directive.length (S.required st.sink) with
    | none => .error .einval
    | some (m, c) => .ok { st with mem := m, cursor := c }
  else
    match renderConversion st.mem st.cursor directive leftAlign width precision with
    | none => .error .einval
    | some (rendered, c) =>
      if S.fits rendered.lengthSum then .ok (pushPieces S { st with cursor := c } rendered.pieces)
      else .error .overflow

def applyDirective (st : FormatState σ) (directive : FormatDirective) :
    Except Failure (FormatState σ) :=
  match resolveWidth st.mem directive.width st.cursor directive.flags.leftAlign with
  | none => .error .einval
  | some ((width, leftAlign), c) =>
    match resolvePrecision st.mem directive.precision c with
    | none => .error .einval
    | some (precision, c) =>
      applyConversion S { st with cursor := c } directive leftAlign width precision

/-- The loop over the format: its last state, and why it stopped before the end. -/
def formatLoop (st : FormatState σ) : List UInt8 → FormatState σ × Option Failure
  | [] => (st, none)
  | byte :: rest =>
    if byte ≠ '%'.toUInt8 then formatLoop (pushPiece S st (.repeated byte 1)) rest
    else if rest = [] then (st, some .einval)
    else if rest.head? = some '%'.toUInt8 then
      formatLoop (pushPiece S st (.repeated '%'.toUInt8 1)) rest.tail
    else
      match _hparse : parseFormatDirective rest with
      | none => (st, some .einval)
      | some (directive, next) =>
        match applyDirective S st directive with
        | .error failure => (st, some failure)
        | .ok st => formatLoop st next
termination_by bytes => bytes.length
decreasing_by
  · exact Nat.lt_succ_self _
  · rw [List.length_tail, List.length_cons]
    omega
  · have hlt := parseFormatDirective_length _hparse
    rw [List.length_cons]
    omega

def requiredLenToCInt (requiredLen : Nat) : Int := min requiredLen cIntMax

structure Reply where
  value : Int
  mem : Mem
  /-- What the call sets `errno` to. -/
  errno : Option Int

/-- `none` where the process ends. -/
def vsnprintf (m : Mem) (s n format ap : Nat) : Option Reply :=
  if format = 0 ∨ n ≠ 0 ∧ s = 0 then some ⟨-1, m, some EINVAL⟩
  else
    let r := formatLoop outputSink ⟨m, .fromVaList m ap, ⟨s, n, 0, 0⟩⟩ (cString m format)
    match r.2 with
    | none => some ⟨requiredLenToCInt r.1.sink.bytesRequired, r.1.sink.terminate r.1.mem, none⟩
    | some .einval => some ⟨-1, r.1.sink.terminate r.1.mem, some EINVAL⟩
    | some .overflow => none

/-- Formatting into a sink without a limit. -/
def formatAll (m : Mem) (format ap : Nat) : FormatState (List UInt8) × Option Failure :=
  formatLoop recorder ⟨m, .fromVaList m ap, []⟩ (cString m format)

/-- The whole rendering, unless formatting fails. -/
def rendering (m : Mem) (format ap : Nat) : Option (List UInt8) :=
  if (formatAll m format ap).2 = none then some (formatAll m format ap).1.sink else none

end Rlibc.Stdio
