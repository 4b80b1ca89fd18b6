import Rlibc.Machine

/-!
# UTF-8 tables

The length, prefix and scalar tables that every multibyte conversion shares.  A sequence is held
in a four-byte buffer; `partialPrefixIsValid` says which prefixes may still be completed, and
`decodeUtf8Scalar` reads a complete sequence.
-/

namespace Rlibc.Wchar

/-- `MAX_UTF8_BYTES`. -/
abbrev maxUtf8Bytes : Nat := 4

/-- `[u8; MAX_UTF8_BYTES]`. -/
abbrev SeqBuffer := Vector UInt8 maxUtf8Bytes

def isContinuationByte (byte : UInt8) : Bool :=
  byte &&& 0b11000000 == 0b10000000

def bytesAreZero (bytes : SeqBuffer) : Bool :=
  bytes.toList.all (· == 0)

def shortBytesAreZero (bytes : Vector UInt8 2) : Bool :=
  bytes[0] == 0 && bytes[1] == 0

def expectedLenFromLeadByte (byte : UInt8) : Option Nat :=
  if byte < 0x80 then some 1
  else if 0xC2 ≤ byte ∧ byte ≤ 0xDF then some 2
  else if 0xE0 ≤ byte ∧ byte ≤ 0xEF then some 3
  else if 0xF0 ≤ byte ∧ byte ≤ 0xF4 then some 4
  else none

def decodeUtf8Scalar (bytes : SeqBuffer) (len : Nat) : Option UInt32 :=
  let b0 := bytes[0]
  let b1 := bytes[1]
  let b2 := bytes[2]
  let b3 := bytes[3]
  match len with
  | 1 => if b0 < 0x80 then some b0.toUInt32 else none
  | 2 =>
    if ¬ (0xC2 ≤ b0 ∧ b0 ≤ 0xDF) ∨ ¬ isContinuationByte b1 then none
    else some (((b0 &&& 0x1F).toUInt32 <<< 6) ||| (b1 &&& 0x3F).toUInt32)
  | 3 =>
    if ¬ (0xE0 ≤ b0 ∧ b0 ≤ 0xEF) ∨ ¬ isContinuationByte b1 ∨ ¬ isContinuationByte b2 then none
    else if (b0 = 0xE0 ∧ b1 < 0xA0) ∨ (b0 = 0xED ∧ b1 > 0x9F) then none
    else some (((b0 &&& 0x0F).toUInt32 <<< 12) ||| ((b1 &&& 0x3F).toUInt32 <<< 6) |||
      (b2 &&& 0x3F).toUInt32)
  | 4 =>
    if ¬ (0xF0 ≤ b0 ∧ b0 ≤ 0xF4) ∨ ¬ isContinuationByte b1 ∨ ¬ isContinuationByte b2 ∨
        ¬ isContinuationByte b3 then none
    else if (b0 = 0xF0 ∧ b1 < 0x90) ∨ (b0 = 0xF4 ∧ b1 > 0x8F) then none
    else
      let scalar := ((b0 &&& 0x07).toUInt32 <<< 18) ||| ((b1 &&& 0x3F).toUInt32 <<< 12) |||
        ((b2 &&& 0x3F).toUInt32 <<< 6) ||| (b3 &&& 0x3F).toUInt32
      if scalar > 0x10FFFF then none else some scalar
  | _ => none

def partialPrefixIsValid (bytes : SeqBuffer) (pendingLen expectedLen : Nat) : Bool :=
  if pendingLen = 0 ∨ expectedLen ≤ pendingLen then false
  else if ¬ (2 ≤ expectedLen ∧ expectedLen ≤ maxUtf8Bytes) then false
  else
    let lead := bytes[0]
    if expectedLenFromLeadByte lead ≠ some expectedLen then false
    else if ((bytes.toList.take pendingLen).drop 1).any fun byte => ¬ isContinuationByte byte then
      false
    -- Bytes beyond `pending_len` stay zero in every state that a call stores.
    else if (bytes.toList.drop pendingLen).any (· != 0) then false
    else if 2 ≤ pendingLen then
      let second := bytes[1]
      if expectedLen = 3 ∧ ((lead = 0xE0 ∧ second < 0xA0) ∨ (lead = 0xED ∧ second > 0x9F)) then
        false
      else if expectedLen = 4 ∧
          ((lead = 0xF0 ∧ second < 0x90) ∨ (lead = 0xF4 ∧ second > 0x8F)) then false
      else true
    else true

/-- `encode_utf8_scalar`: the bytes in a four-byte buffer and how many of them count. -/
def encodeUtf8Scalar (scalar : Int) : Option (SeqBuffer × Nat) :=
  -- `u32::try_from` refuses a negative `wchar_t`.
  if scalar < 0 then none
  else
    let scalar := scalar.toNat
    if (0xD800 ≤ scalar ∧ scalar ≤ 0xDFFF) ∨ scalar > 0x10FFFF then none
    else if scalar ≤ 0x7F then some (#v[.ofNat scalar, 0, 0, 0], 1)
    else if scalar ≤ 0x7FF then
      let top := UInt8.ofNat ((scalar >>> 6) &&& 0x1F)
      let low := UInt8.ofNat (scalar &&& 0x3F)
      some (#v[0xC0 ||| top, 0x80 ||| low, 0, 0], 2)
    else if scalar ≤ 0xFFFF then
      let top := UInt8.ofNat ((scalar >>> 12) &&& 0x0F)
      let mid := UInt8.ofNat ((scalar >>> 6) &&& 0x3F)
      let low := UInt8.ofNat (scalar &&& 0x3F)
      some (#v[0xE0 ||| top, 0x80 ||| mid, 0x80 ||| low, 0], 3)
    else
      let top := UInt8.ofNat ((scalar >>> 18) &&& 0x07)
      let upperMid := UInt8.ofNat ((scalar >>> 12) &&& 0x3F)
      let lowerMid := UInt8.ofNat ((scalar >>> 6) &&& 0x3F)
      let low := UInt8.ofNat (scalar &&& 0x3F)
      some (#v[0xF0 ||| top, 0x80 ||| upperMid, 0x80 ||| lowerMid, 0x80 ||| low], 4)

theorem expectedLenFromLeadByte_le {byte : UInt8} {len : Nat}
    (h : expectedLenFromLeadByte byte = some len) : 1 ≤ len ∧ len ≤ 4 := by
  unfold expectedLenFromLeadByte at h
  split_ifs at h <;> simp only [Option.some.injEq] at h <;> subst h <;> decide

/-- A valid prefix is nonempty and shorter than the sequence it starts. -/
theorem partialPrefixIsValid_bounds {bytes : SeqBuffer} {pendingLen expectedLen : Nat}
    (h : partialPrefixIsValid bytes pendingLen expectedLen = true) :
    0 < pendingLen ∧ pendingLen < expectedLen ∧ 2 ≤ expectedLen ∧ expectedLen ≤ 4 := by
  unfold partialPrefixIsValid at h
  by_cases h0 : pendingLen = 0 ∨ expectedLen ≤ pendingLen
  · rw [if_pos h0] at h
    exact absurd h (by decide)
  · by_cases h1 : 2 ≤ expectedLen ∧ expectedLen ≤ maxUtf8Bytes
    · change 2 ≤ expectedLen ∧ expectedLen ≤ 4 at h1
      omega
    · rw [if_neg h0, if_pos h1] at h
      exact absurd h (by decide)

end Rlibc.Wchar
