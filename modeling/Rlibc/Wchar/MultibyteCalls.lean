import Mathlib.Logic.Function.Basic
import Rlibc.Wchar.DecoderExact

/-!
# Calls on single characters

`mbrtowc`, `mbrlen`, `mbsinit` and `wcrtomb` work on the `mbstate_t` that the program passes, or on
one of the calling thread where it passes none.  `mblen`, `mbtowc` and `wctomb` have only the latter,
so what one of them leaves there is read by all.
-/

namespace Rlibc.Wchar

/-- `INTERNAL_STATE` of a thread, or an object of the program. -/
inductive StatePtr (T : Type) where
  | internal (thread : T)
  | object (ps : Nat)
deriving DecidableEq

abbrev States (T : Type) := StatePtr T → MbState

/-- What a call returns, the wide character it stores through `pwc`, the bytes it stores through
`s`, and the `errno` it sets. -/
structure Reply where
  ret : Int
  wide : Option Int
  bytes : List UInt8
  errno : Option Int
deriving DecidableEq, Repr

/-- A return value and nothing else. -/
def Reply.value (ret : Int) : Reply := ⟨ret, none, [], none⟩

def Reply.fail (ret : Int) : Reply := ⟨ret, none, [], some EILSEQ⟩

/-- The bytes of a character, stored and counted. -/
def Reply.stored (ret : Int) (bytes : List UInt8) : Reply := ⟨ret, none, bytes, none⟩

section
variable {T : Type}

def resolveStatePtr (thread : T) : Option Nat → StatePtr T
  | none => .internal thread
  | some ps => .object ps

def mbsinit (ps : Option Nat) (states : States T) : Int :=
  match ps with
  | none => 1
  | some ps => if (states (.object ps)).isInitial then 1 else 0

variable [DecidableEq T]

/-- `pwc` tells whether the pointer is non-null, and `s` is as in `mbrtowcWithState`. -/
def mbrtowc (thread : T) (pwc : Bool) (s : Option (List UInt8)) (ps : Option Nat)
    (states : States T) : Reply × States T :=
  let ptr := resolveStatePtr thread ps
  let result := mbrtowcWithState (states ptr) s
  (⟨result.ret, if pwc then result.wide else none, [], result.errno⟩,
    Function.update states ptr result.state)

def mbrlen (thread : T) (s : Option (List UInt8)) (ps : Option Nat) (states : States T) :
    Reply × States T :=
  mbrtowc thread false s ps states

/-- `s` tells whether the pointer is non-null. -/
def wcrtomb (thread : T) (s : Bool) (wc : Int) (ps : Option Nat) (states : States T) :
    Reply × States T :=
  let ptr := resolveStatePtr thread ps
  if ¬ s then (.value 1, Function.update states ptr .new)
  else if ¬ (states ptr).isInitial then (.fail mbrErrInvalid, Function.update states ptr .new)
  else
    match encodeUtf8Scalar wc with
    | none => (.fail mbrErrInvalid, Function.update states ptr .new)
    | some (encoded, encodedLen) =>
      (.stored encodedLen (encoded.toList.take encodedLen), Function.update states ptr .new)

/-- `none` stands for `unreachable!`. -/
def mbrResultToInt (reply : Reply) : Option Reply :=
  if reply.ret = mbrErrInvalid ∨ reply.ret = mbrErrIncomplete then
    -- `errno` is already set for an invalid sequence
    some { reply with
      ret := -1
      errno := if reply.ret = mbrErrIncomplete then some EILSEQ else reply.errno }
  else (cIntTryFrom reply.ret).map fun ret => { reply with ret := ret }

def resetInternalMultibyteState (thread : T) (states : States T) : States T :=
  (mbrtowc thread false none none states).2

def mblen (thread : T) (s : Option (List UInt8)) (states : States T) : Option (Reply × States T) :=
  match s with
  | none => some (.value 0, resetInternalMultibyteState thread states)
  | some input =>
    let result := mbrlen thread (some input) none states
    (mbrResultToInt result.1).map fun reply => (reply, result.2)

def mbtowc (thread : T) (pwc : Bool) (s : Option (List UInt8)) (states : States T) :
    Option (Reply × States T) :=
  match s with
  | none => some (.value 0, resetInternalMultibyteState thread states)
  | some input =>
    let result := mbrtowc thread pwc (some input) none states
    (mbrResultToInt result.1).map fun reply => (reply, result.2)

/-- The state is reset on request and not consulted otherwise. -/
def wctomb (thread : T) (s : Bool) (wc : Int) (states : States T) : Option (Reply × States T) :=
  if ¬ s then some (.value 0, resetInternalMultibyteState thread states)
  else
    match encodeUtf8Scalar wc with
    | none => some (.fail (-1), states)
    | some (encoded, encodedLen) =>
      (cIntTryFrom encodedLen).map fun ret =>
        (.stored ret (encoded.toList.take encodedLen), states)

end

/-! ## Requests of threads -/

inductive MultibyteCall where
  | mbrtowc (pwc : Bool) (s : Option (List UInt8)) (ps : Option Nat)
  | mbrlen (s : Option (List UInt8)) (ps : Option Nat)
  | mbsinit (ps : Option Nat)
  | wcrtomb (s : Bool) (wc : Int) (ps : Option Nat)
  | mblen (s : Option (List UInt8))
  | mbtowc (pwc : Bool) (s : Option (List UInt8))
  | wctomb (s : Bool) (wc : Int)

/-- A call and the thread that makes it. -/
structure Request (T : Type) where
  thread : T
  call : MultibyteCall

namespace Request

variable {T : Type}

/-- The pointer that the call passes. -/
def ps (request : Request T) : Option Nat :=
  match request.call with
  | .mbrtowc _ _ ps => ps
  | .mbrlen _ ps => ps
  | .mbsinit ps => ps
  | .wcrtomb _ _ ps => ps
  | .mblen _ => none
  | .mbtowc _ _ => none
  | .wctomb _ _ => none

def ptr (request : Request T) : StatePtr T := resolveStatePtr request.thread request.ps

def perform [DecidableEq T] (states : States T) (request : Request T) : Option (Reply × States T) :=
  match request.call with
  | .mbrtowc pwc s ps => some (mbrtowc request.thread pwc s ps states)
  | .mbrlen s ps => some (mbrlen request.thread s ps states)
  | .mbsinit ps => some (.value (mbsinit ps states), states)
  | .wcrtomb s wc ps => some (wcrtomb request.thread s wc ps states)
  | .mblen s => mblen request.thread s states
  | .mbtowc pwc s => mbtowc request.thread pwc s states
  | .wctomb s wc => wctomb request.thread s wc states

end Request

end Rlibc.Wchar
