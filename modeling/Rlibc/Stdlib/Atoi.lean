import Rlibc.Stdlib.StrtoContract

/-!
# `atoi`, `atol` and `atoll`

They read a decimal number with `strtol` or `strtoll`, and put `errno` back where there is none.
-/

namespace Rlibc.Stdlib

def decimalBase : Int := 10

/-- Two pointers into one string are equal where the same bytes follow. -/
def restoreErrnoIfNoConversion (nptr : List UInt8) (endptr : Option (List UInt8))
    (savedErrno errno : Int) : Int :=
  if endptr = some nptr then savedErrno else errno

/-- The value and `errno` after the call.  Whatever `endptr` holds before, it is overwritten. -/
def parseDecimalLong (nptr : Option (List UInt8)) (errno : Int) : Option (Int × Int) :=
  match nptr with
  | none => some (0, EINVAL)
  | some text =>
    (strtol text (some []) decimalBase errno).map fun parsed =>
      (parsed.result, restoreErrnoIfNoConversion text parsed.endptr errno parsed.errno)

def parseDecimalLongLong (nptr : Option (List UInt8)) (errno : Int) : Option (Int × Int) :=
  match nptr with
  | none => some (0, EINVAL)
  | some text =>
    (strtoll text (some []) decimalBase errno).map fun parsed =>
      (parsed.result, restoreErrnoIfNoConversion text parsed.endptr errno parsed.errno)

/-- `none` stands for `unreachable!`. -/
def cLongToCIntWrapping (value : Int) : Option Int :=
  let wrapped := value % 0x100000000
  cIntTryFrom (if wrapped ≥ 0x80000000 then wrapped - 0x100000000 else wrapped)

def atoi (nptr : Option (List UInt8)) (errno : Int) : Option (Int × Int) :=
  (parseDecimalLong nptr errno).bind fun parsed =>
    (cLongToCIntWrapping parsed.1).map fun value => (value, parsed.2)

def atol (nptr : Option (List UInt8)) (errno : Int) : Option (Int × Int) :=
  parseDecimalLong nptr errno

def atoll (nptr : Option (List UInt8)) (errno : Int) : Option (Int × Int) :=
  parseDecimalLongLong nptr errno

/-! ## The decimal number in front -/

/-- What the longest decimal number in front of the string says about the value and `errno`. -/
inductive DecimalReference (errno : Int) : Option (List UInt8) → Int × Int → Prop
  | null : DecimalReference errno none (0, EINVAL)
  | nothing {text : List UInt8}
      (none : ∀ w rest s, text = w ++ rest → ¬ SubjectForm decimalBase w s) :
      DecimalReference errno (some text) (0, errno)
  | number {w rest : List UInt8} {s : Subject} (form : SubjectForm decimalBase w s)
      (longest : ∀ w' rest' s', w ++ rest = w' ++ rest' → SubjectForm decimalBase w' s' →
        w'.length ≤ w.length) :
      DecimalReference errno (some (w ++ rest)) (s.signedResult.1, s.signedResult.2.getD errno)

theorem SubjectForm.ne_nil {w : List UInt8} {s : Subject} (h : SubjectForm decimalBase w s) :
    w ≠ [] := by
  cases h with
  | mk hspace hsign hinteger hdigits hvalid =>
    cases hinteger with
    | plain hbase => exact List.append_ne_nil_of_right_ne_nil _ hdigits
    | hex hbase hx => exact List.append_ne_nil_of_right_ne_nil _ (List.cons_ne_nil _ _)
    | octal hbase => exact List.append_ne_nil_of_right_ne_nil _ (List.cons_ne_nil _ _)
    | decimal hbase hd => exact List.append_ne_nil_of_right_ne_nil _ (List.cons_ne_nil _ _)

theorem parseDecimal_reference (nptr : Option (List UInt8)) (errno : Int) :
    ∃ parsed, DecimalReference errno nptr parsed ∧ parseDecimalLong nptr errno = some parsed := by
  have hbase : ValidBase decimalBase := Or.inr ⟨by decide, by decide⟩
  cases nptr with
  | none => exact ⟨_, .null, rfl⟩
  | some text =>
    rcases parse_validBase text hbase with ⟨hparse, hnone⟩ | ⟨w, rest, s, rfl, hform, hparse, hmax⟩
    · refine ⟨_, .nothing hnone, ?_⟩
      have hcall := (strtoSigned_of_findsNothing hparse (some []) errno).2 rfl
      show (strtoSigned text (some []) decimalBase errno).map _ = _
      rw [hcall, Option.map_some]
      show some ((0 : Int), restoreErrnoIfNoConversion text (some text) errno errno) = _
      unfold restoreErrnoIfNoConversion
      rw [if_pos rfl]
    · refine ⟨_, .number hform fun w' rest' s' h h' => (hmax w' rest' s' h h').1, ?_⟩
      have hcall := strtoSigned_of_finds hparse (some []) errno
      have hmoved : ¬ some rest = some (w ++ rest) := by
        intro h
        have hlength := congrArg List.length (Option.some.inj h)
        have hpos := List.length_pos_iff.mpr hform.ne_nil
        rw [List.length_append] at hlength
        omega
      show (strtoSigned (w ++ rest) (some []) decimalBase errno).map _ = _
      rw [hcall, Option.map_some]
      show some (s.signedResult.1,
        restoreErrnoIfNoConversion (w ++ rest) (some rest) errno (s.signedResult.2.getD errno)) = _
      unfold restoreErrnoIfNoConversion
      rw [if_neg hmoved]

/-- C's narrowing to 32 bits, which never fails. -/
theorem cLongToCIntWrapping_eq (value : Int) :
    cLongToCIntWrapping value = some (value.bmod 0x100000000) := by
  have hlow : 0 ≤ value % 0x100000000 := Int.emod_nonneg _ (by decide)
  have hhigh : value % 0x100000000 < 0x100000000 := Int.emod_lt_of_pos _ (by decide)
  have hbmod : value.bmod 0x100000000 =
      if value % 0x100000000 < 0x80000000 then value % 0x100000000
      else value % 0x100000000 - 0x100000000 := rfl
  unfold cLongToCIntWrapping
  dsimp only
  rw [hbmod]
  by_cases hsmall : value % 0x100000000 < 0x80000000
  · have hfits : FitsCInt (value % 0x100000000) := ⟨by omega, by omega⟩
    rw [if_pos hsmall, if_neg (Int.not_le.mpr hsmall)]
    exact if_pos hfits
  · have hfits : FitsCInt (value % 0x100000000 - 0x100000000) := ⟨by omega, by omega⟩
    rw [if_neg hsmall, if_pos (Int.not_lt.mp hsmall)]
    exact if_pos hfits

/-- **The decimal readers.**  They always return, `atol` and `atoll` the value of the longest decimal
number in front or the nearest `long`, `atoi` its low 32 bits; `errno` is set on a null pointer and
for a number out of range, and is kept otherwise. -/
theorem ato_reference (nptr : Option (List UInt8)) (errno : Int) :
    ∃ value errno', DecimalReference errno nptr (value, errno') ∧
      atol nptr errno = some (value, errno') ∧ atoll nptr errno = some (value, errno') ∧
        atoi nptr errno = some (value.bmod 0x100000000, errno') := by
  obtain ⟨⟨value, errno'⟩, href, hparse⟩ := parseDecimal_reference nptr errno
  refine ⟨value, errno', href, hparse, hparse, ?_⟩
  unfold atoi
  rw [hparse, Option.bind_some, cLongToCIntWrapping_eq]
  rfl

end Rlibc.Stdlib
