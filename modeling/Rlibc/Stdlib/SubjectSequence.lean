import Rlibc.Foundations.Numeral
import Rlibc.Stdlib.Conv

/-!
# The subject sequence

The standard's account of `strtol` and its relatives: the longest prefix of the expected form,
its value, and what is stored.  The parser of the source reads the string once from the left.
-/

namespace Rlibc.Stdlib

/-- The base argument is one of those the standard gives a meaning. -/
def ValidBase (base : Int) : Prop := base = 0 ∨ (2 ≤ base ∧ base ≤ 36)

/-- What a subject sequence denotes. -/
structure Subject where
  negative : Bool
  radix : Nat
  digits : List UInt8

/-- The white space of the C locale: blank, tab, newline, vertical tab, form feed, return. -/
def whiteSpace : List UInt8 := [32, 9, 10, 11, 12, 13]

/-- The digits of the largest base. -/
def numerals : List Char :=
  ['0', '1', '2', '3', '4', '5', '6', '7', '8', '9', 'a', 'b', 'c', 'd', 'e', 'f', 'g', 'h', 'i',
    'j', 'k', 'l', 'm', 'n', 'o', 'p', 'q', 'r', 's', 't', 'u', 'v', 'w', 'x', 'y', 'z']

/-- The place of a byte among the digits, with letters in either case. -/
def numeralValue (byte : UInt8) : Option Nat :=
  numerals.idxOf? (Char.ofNat byte.toNat).toLower

/-- The value of the digits. -/
def Subject.magnitude (s : Subject) : Nat :=
  Numeral.value s.radix (s.digits.map fun byte => (numeralValue byte).getD 0)

/-- An optional sign. -/
inductive SignForm : List UInt8 → Bool → Prop
  | none : SignForm [] false
  | plus : SignForm [43] false
  | minus : SignForm [45] true

/-- What follows the sign, for a base argument: the radix and the digits. -/
inductive IntegerForm (base : Int) : List UInt8 → Nat → List UInt8 → Prop
  | plain {digits : List UInt8} (hbase : 2 ≤ base ∧ base ≤ 36) :
      IntegerForm base digits base.toNat digits
  | hex {x : UInt8} {digits : List UInt8} (hbase : base = 0 ∨ base = 16)
      (hx : x = 120 ∨ x = 88) : IntegerForm base (48 :: x :: digits) 16 digits
  | octal {digits : List UInt8} (hbase : base = 0) :
      IntegerForm base (48 :: digits) 8 (48 :: digits)
  | decimal {d : UInt8} {digits : List UInt8} (hbase : base = 0) (hd : d ≠ 48) :
      IntegerForm base (d :: digits) 10 (d :: digits)

/-- The expected form: white space, a sign, and at least one digit of the radix. -/
inductive SubjectForm (base : Int) : List UInt8 → Subject → Prop
  | mk {space sign integer digits : List UInt8} {negative : Bool} {radix : Nat}
      (hspace : ∀ byte ∈ space, byte ∈ whiteSpace) (hsign : SignForm sign negative)
      (hinteger : IntegerForm base integer radix digits) (hdigits : digits ≠ [])
      (hvalid : ∀ byte ∈ digits, ∃ d ∈ numeralValue byte, d < radix) :
      SubjectForm base (space ++ sign ++ integer) ⟨negative, radix, digits⟩

/-- The value a signed function returns, with the error it reports. -/
def Subject.signedResult (s : Subject) : Int × Option Int :=
  let value : Int := if s.negative then -s.magnitude else s.magnitude
  if FitsCLong value then (value, none)
  else (if s.negative then C_LONG_MIN else C_LONG_MAX, some ERANGE)

/-- The value an unsigned function returns, with the error it reports. -/
def Subject.unsignedResult (s : Subject) : Int × Option Int :=
  if s.magnitude ≤ C_ULONG_MAX then
    ((if s.negative then -(s.magnitude : Int) else s.magnitude) % (2 ^ 64 : Int), none)
  else (C_ULONG_MAX, some ERANGE)

/-- What the standard says a call may leave. -/
inductive StrtoReference (result : Subject → Int × Option Int) (nptr : List UInt8)
    (endptr : Option (List UInt8)) (base errno : Int) : Conversion → Prop
  | invalidBase (hbase : ¬ValidBase base) :
      StrtoReference result nptr endptr base errno ⟨0, endptr, EINVAL⟩
  | noConversion (hbase : ValidBase base)
      (hnone : ∀ w rest s, nptr = w ++ rest → ¬SubjectForm base w s) :
      StrtoReference result nptr endptr base errno ⟨0, endptr.map fun _ => nptr, errno⟩
  | converted {w rest : List UInt8} {s : Subject} (hbase : ValidBase base)
      (hsplit : nptr = w ++ rest) (hform : SubjectForm base w s)
      (hlongest : ∀ w' rest' s', nptr = w' ++ rest' → SubjectForm base w' s' →
        w'.length ≤ w.length) :
      StrtoReference result nptr endptr base errno
        ⟨(result s).1, endptr.map fun _ => rest, (result s).2.getD errno⟩

/-- A function of the family returns, and leaves what the standard says and nothing else. -/
def MeetsReference (result : Subject → Int × Option Int)
    (function : List UInt8 → Option (List UInt8) → Int → Int → Option Conversion) : Prop :=
  ∀ nptr endptr base errno, ∃ c, function nptr endptr base errno = some c ∧
    ∀ c', StrtoReference result nptr endptr base errno c' ↔ c' = c

/-! ## Bytes -/

theorem mem_whiteSpace (byte : UInt8) : byte ∈ whiteSpace ↔ isAsciiSpace byte = true := by
  unfold whiteSpace isAsciiSpace
  simp only [List.mem_cons, List.not_mem_nil, or_false, decide_eq_true_eq]
  tauto

/-- The table of the parser has every digit at its place. -/
theorem numeralValue_eq (byte : UInt8) : numeralValue byte = digitValue byte := by
  have hcheck : ∀ n < 256, numeralValue (UInt8.ofNat n) = digitValue (UInt8.ofNat n) := by
    decide +kernel
  have hbyte := hcheck byte.toNat byte.toNat_lt
  rwa [UInt8.ofNat_toNat] at hbyte

theorem isValidDigitForBase_iff (byte : UInt8) (radix : Nat) :
    (∃ d ∈ numeralValue byte, d < radix) ↔ isValidDigitForBase byte radix = true := by
  rw [numeralValue_eq]
  unfold isValidDigitForBase
  cases digitValue byte with
  | none => simp
  | some digit => simp

theorem Subject.magnitude_eq (s : Subject) :
    s.magnitude = Numeral.value s.radix (s.digits.map fun byte => (digitValue byte).getD 0) := by
  unfold magnitude
  simp only [numeralValue_eq]

theorem readByte_cons (byte : UInt8) (cursor : List UInt8) : readByte (byte :: cursor) = byte := rfl

/-- A digit of any base is neither white space nor a sign. -/
theorem isValidDigitForBase_not_space {byte : UInt8} {base : Nat}
    (h : isValidDigitForBase byte base = true) :
    isAsciiSpace byte = false ∧ byte ≠ 43 ∧ byte ≠ 45 := by
  have hcheck : ∀ n < 256, digitValue (UInt8.ofNat n) ≠ none →
      isAsciiSpace (UInt8.ofNat n) = false ∧ UInt8.ofNat n ≠ 43 ∧ UInt8.ofNat n ≠ 45 := by
    decide +kernel
  have hbyte := hcheck byte.toNat byte.toNat_lt
  rw [UInt8.ofNat_toNat] at hbyte
  apply hbyte
  intro hnone
  unfold isValidDigitForBase at h
  rw [hnone] at h
  cases h

/-- The `x` of the prefix is no digit of a base up to sixteen. -/
theorem not_isValidDigitForBase_x {x : UInt8} (hx : x = 120 ∨ x = 88) {base : Nat}
    (hbase : base ≤ 16) : isValidDigitForBase x base = false := by
  rcases hx with rfl | rfl
  · change decide (33 < base) = false
    exact decide_eq_false (by omega)
  · change decide (33 < base) = false
    exact decide_eq_false (by omega)

theorem isValidDigitForBase_of_lt {byte : UInt8} {digit base : Nat}
    (h : digitValue byte = some digit) (hdigit : digit < base) :
    isValidDigitForBase byte base = true := by
  unfold isValidDigitForBase
  rw [h]
  exact decide_eq_true hdigit

/-! ## The digit loop -/

/-- The bytes the loop reads. -/
def isDigit (radix : Nat) (byte : UInt8) : Bool := isValidDigitForBase byte radix

/-- The digits read so far determine the variables of the loop. -/
def DigitScan.of (limit radix : Nat) (ds : List Nat) : DigitScan :=
  ⟨min (Numeral.value radix ds) limit, limit < Numeral.value radix ds, ds ≠ []⟩

/-- One turn of the loop, which never leaves the range of `u128`. -/
theorem DigitScan.push_of {limit radix digit : Nat} {ds : List Nat} (hradix : radix ≤ limit)
    (hlimit : limit ≤ u128Max) (hdigit : digit < radix) :
    (DigitScan.of limit radix ds).push limit radix digit =
      some (DigitScan.of limit radix (ds ++ [digit])) := by
  have hne : (ds ++ [digit] ≠ []) := List.append_ne_nil_of_right_ne_nil ds (List.cons_ne_nil _ _)
  have hvalue := Numeral.value_concat radix ds digit
  unfold push of
  dsimp only
  by_cases hover : limit < Numeral.value radix ds
  · have hgrow := Nat.le_mul_of_pos_right (Numeral.value radix ds) (Nat.zero_lt_of_lt hdigit)
    have hover' : limit < Numeral.value radix (ds ++ [digit]) := by omega
    rw [if_pos (decide_eq_true hover), decide_eq_true hover, decide_eq_true hover',
      decide_eq_true hne, Nat.min_eq_right (Nat.le_of_lt hover),
      Nat.min_eq_right (Nat.le_of_lt hover')]
  · have hcutoff : (limit - digit) / radix < Numeral.value radix ds ↔
        limit < Numeral.value radix ds * radix + digit := by
      rw [Nat.div_lt_iff_lt_mul (Nat.zero_lt_of_lt hdigit)]
      omega
    rw [if_neg (by simpa using hover), if_neg (by omega), Nat.min_eq_left (Nat.le_of_not_lt hover)]
    by_cases hcut : (limit - digit) / radix < Numeral.value radix ds
    · have hover' : limit < Numeral.value radix (ds ++ [digit]) := hvalue ▸ hcutoff.mp hcut
      rw [if_pos hcut, decide_eq_true hover', decide_eq_true hne,
        Nat.min_eq_right (Nat.le_of_lt hover')]
    · have hfits : ¬limit < Numeral.value radix (ds ++ [digit]) :=
        fun h => hcut (hcutoff.mpr (hvalue ▸ h))
      rw [if_neg hcut, if_neg (by omega), decide_eq_false hfits, decide_eq_true hne,
        Nat.min_eq_left (Nat.le_of_not_lt hfits), hvalue]

/-- The loop reads all digits of the radix, and keeps their value up to the limit. -/
theorem scanDigits_of {limit radix : Nat} (hradix : radix ≤ limit) (hlimit : limit ≤ u128Max)
    (scan : List UInt8) (ds : List Nat) :
    scanDigits limit radix scan (DigitScan.of limit radix ds) =
      some (DigitScan.of limit radix (ds ++
        (scan.takeWhile (isDigit radix)).map fun byte => (digitValue byte).getD 0),
        scan.dropWhile (isDigit radix)) := by
  induction scan generalizing ds with
  | nil =>
    rw [List.takeWhile_nil, List.map_nil, List.append_nil]
    rfl
  | cons byte scan ih =>
    unfold scanDigits
    cases hdigit : digitValue byte with
    | none =>
      have hinvalid : ¬isDigit radix byte = true := by
        unfold isDigit isValidDigitForBase
        rw [hdigit]
        exact Bool.false_ne_true
      rw [List.takeWhile_cons_of_neg hinvalid, List.dropWhile_cons_of_neg hinvalid, List.map_nil,
        List.append_nil]
    | some digit =>
      dsimp only
      by_cases hlt : digit < radix
      · have hvalid : isDigit radix byte = true := isValidDigitForBase_of_lt hdigit hlt
        rw [if_neg (by omega), DigitScan.push_of hradix hlimit hlt, Option.bind_some, ih,
          List.takeWhile_cons_of_pos hvalid, List.dropWhile_cons_of_pos hvalid, List.map_cons,
          hdigit, List.append_assoc]
        rfl
      · have hinvalid : ¬isDigit radix byte = true := by
          unfold isDigit isValidDigitForBase
          rw [hdigit]
          exact fun h => hlt (of_decide_eq_true h)
        rw [if_pos (by omega), List.takeWhile_cons_of_neg hinvalid,
          List.dropWhile_cons_of_neg hinvalid, List.map_nil, List.append_nil]

/-! ## The prefix and the radix -/

/-- The three bytes that make a prefix count. -/
theorem hasHexPrefix_cons {digits : List UInt8} (h : hasHexPrefix digits = true) :
    ∃ x third rest, digits = 48 :: x :: third :: rest ∧ (x = 120 ∨ x = 88) ∧
      isDigit 16 third = true := by
  obtain ⟨hzero, hx, hthird⟩ := of_decide_eq_true h
  match digits with
  | [] => cases hzero
  | [_] => rcases hx with hx | hx <;> cases hx
  | [_, _] => cases hthird
  | first :: x :: third :: rest =>
    change first = 48 at hzero
    exact ⟨x, third, rest, by rw [hzero], hx, hthird⟩

theorem hasHexPrefix_of_cons {x third : UInt8} {rest : List UInt8} (hx : x = 120 ∨ x = 88)
    (hthird : isDigit 16 third = true) : hasHexPrefix (48 :: x :: third :: rest) = true :=
  decide_eq_true ⟨rfl, hx, hthird⟩

theorem resolveBase_eq_none {base : Int} {cursor : List UInt8} :
    resolveBase base cursor = none ↔ ¬ValidBase base := by
  unfold resolveBase MIN_BASE MAX_BASE ValidBase
  constructor
  · intro h hvalid
    split at h
    · split at h
      · split at h <;> cases h
      · cases h
    · rw [if_pos (by omega)] at h
      split at h <;> cases h
  · intro h
    rw [if_neg (by omega), if_neg (by omega)]

/-- The resolved radix is one of the supported ones. -/
theorem resolveBase_radix {base : Int} {cursor digits : List UInt8} {radix : Nat}
    (h : resolveBase base cursor = some (radix, digits)) : radix ≤ 36 := by
  unfold resolveBase MIN_BASE MAX_BASE at h
  split at h
  · split at h
    · split at h <;> (cases h; omega)
    · cases h
      omega
  · split at h
    · split at h <;> (cases h; omega)
    · cases h

/-- What the loop then reads, with the prefix, has the form of an integer. -/
theorem resolveBase_form {base : Int} {cursor digits : List UInt8} {radix : Nat}
    (h : resolveBase base cursor = some (radix, digits))
    (hread : digits.takeWhile (isDigit radix) ≠ []) :
    ∃ integer, cursor = integer ++ digits.dropWhile (isDigit radix) ∧
      IntegerForm base integer radix (digits.takeWhile (isDigit radix)) := by
  have hplain : digits.takeWhile (isDigit radix) ++ digits.dropWhile (isDigit radix) = digits :=
    List.takeWhile_append_dropWhile
  unfold resolveBase MIN_BASE MAX_BASE at h
  -- The branches of the source: base 0 by the first characters, then 16 with or without `0x`.
  split at h
  · rename_i hbase
    split at h
    · rename_i hzero
      split at h
      · rename_i hfront
        cases h
        obtain ⟨x, third, rest, rfl, hx, -⟩ := hasHexPrefix_cons hfront
        refine ⟨48 :: x :: (third :: rest).takeWhile (isDigit 16), ?_, .hex (Or.inl hbase) hx⟩
        rw [List.cons_append, List.cons_append]
        exact congrArg (fun tail => 48 :: x :: tail) hplain.symm
      · cases h
        refine ⟨_, hplain.symm, ?_⟩
        match cursor, hzero with
        | first :: rest, hzero =>
          change first = 48 at hzero
          subst hzero
          rw [List.takeWhile_cons_of_pos (by decide)]
          exact .octal hbase
    · rename_i hzero
      cases h
      refine ⟨_, hplain.symm, ?_⟩
      match cursor, hzero, hread with
      | first :: rest, hzero, hread =>
        have hfirst : isDigit 10 first = true := by
          by_contra hinvalid
          exact hread (List.takeWhile_cons_of_neg hinvalid)
        rw [List.takeWhile_cons_of_pos hfirst]
        exact .decimal hbase hzero
  · split at h
    · rename_i hrange
      split at h
      · rename_i hfront
        cases h
        obtain ⟨x, third, rest, rfl, hx, -⟩ := hasHexPrefix_cons hfront.2
        refine ⟨48 :: x :: (third :: rest).takeWhile (isDigit 16), ?_,
          .hex (Or.inr hfront.1) hx⟩
        rw [List.cons_append, List.cons_append]
        exact congrArg (fun tail => 48 :: x :: tail) hplain.symm
      · cases h
        exact ⟨_, hplain.symm, .plain hrange⟩
    · cases h

/-! ## No integer form reaches further -/

/-- Digits of the radix at the front are read. -/
theorem takeWhile_ne_nil_of_digits {radix : Nat} {digits : List UInt8} (rest : List UInt8)
    (hne : digits ≠ []) (hvalid : ∀ byte ∈ digits, isValidDigitForBase byte radix) :
    (digits ++ rest).takeWhile (isDigit radix) ≠ [] := by
  rw [List.takeWhile_append_of_pos (p := isDigit radix) hvalid]
  exact List.append_ne_nil_of_left_ne_nil hne _

/-- Where a prefix counts, reading the zero alone stops earlier. -/
theorem dropWhile_hexPrefix_lt {radix : Nat} {digits rest : List UInt8} (hradix : radix ≤ 16)
    (hne : digits ≠ []) (hvalid : ∀ byte ∈ digits, isValidDigitForBase byte radix)
    (hfront : hasHexPrefix (digits ++ rest) = true) :
    ((digits ++ rest).drop 2).takeWhile (isDigit 16) ≠ [] ∧
      (((digits ++ rest).drop 2).dropWhile (isDigit 16)).length < rest.length := by
  obtain ⟨x, third, tail, hcursor, hx, hthird⟩ := hasHexPrefix_cons hfront
  have hrest : rest = x :: third :: tail := by
    match digits, hne with
    | [first], _ => exact (List.cons.inj hcursor).2
    | first :: second :: more, _ =>
      -- The second byte would be the `x`, which is no digit here.
      have hsecond : second = x := (List.cons.inj (List.cons.inj hcursor).2).1
      have hdigit := hvalid second (List.mem_cons_of_mem _ List.mem_cons_self)
      rw [hsecond, not_isValidDigitForBase_x hx hradix] at hdigit
      cases hdigit
  rw [hcursor, hrest, List.drop_succ_cons, List.drop_succ_cons, List.drop_zero,
    List.takeWhile_cons_of_pos hthird, List.dropWhile_cons_of_pos hthird]
  have hle := (List.dropWhile_suffix (l := tail) (isDigit 16)).length_le
  refine ⟨List.cons_ne_nil _ _, ?_⟩
  rw [List.length_cons, List.length_cons]
  omega

/-- An integer form at the cursor is what the source finds there, or it is shorter. -/
theorem resolveBase_of_form {base : Int} {integer digits : List UInt8} {radix : Nat}
    (rest : List UInt8)
    (hform : IntegerForm base integer radix digits) (hne : digits ≠ [])
    (hvalid : ∀ byte ∈ digits, isValidDigitForBase byte radix) :
    ∃ radix' digits', resolveBase base (integer ++ rest) = some (radix', digits') ∧
      digits'.takeWhile (isDigit radix') ≠ [] ∧
      ((radix' = radix ∧ digits' = digits ++ rest) ∨
        (digits'.dropWhile (isDigit radix')).length < rest.length) := by
  have hread := takeWhile_ne_nil_of_digits rest hne hvalid
  unfold resolveBase MIN_BASE MAX_BASE
  cases hform with
  | plain hbase =>
    rw [if_neg (by omega), if_pos hbase]
    by_cases hfront : base = 16 ∧ hasHexPrefix (integer ++ rest) = true
    · obtain ⟨htake, hlt⟩ := dropWhile_hexPrefix_lt (by omega) hne hvalid hfront.2
      exact ⟨16, _, by rw [if_pos hfront], htake, Or.inr hlt⟩
    · exact ⟨base.toNat, _, by rw [if_neg hfront], hread, Or.inl ⟨rfl, rfl⟩⟩
  | @hex x digits hbase hx =>
    obtain ⟨third, more, rfl⟩ := List.exists_cons_of_ne_nil hne
    have hfront : hasHexPrefix (48 :: x :: (third :: more) ++ rest) = true :=
      hasHexPrefix_of_cons hx (hvalid third List.mem_cons_self)
    refine ⟨16, third :: more ++ rest, ?_, hread, Or.inl ⟨rfl, rfl⟩⟩
    rcases hbase with hbase | hbase
    · have hzero : readByte (48 :: x :: (third :: more) ++ rest) = 48 := rfl
      rw [if_pos hbase, if_pos hzero, if_pos hfront]
      rfl
    · rw [if_neg (by omega), if_pos (by omega), if_pos ⟨hbase, hfront⟩]
      rfl
  | @octal digits hbase =>
    have hzero : readByte (48 :: digits ++ rest) = 48 := rfl
    rw [if_pos hbase, if_pos hzero]
    by_cases hfront : hasHexPrefix (48 :: digits ++ rest) = true
    · obtain ⟨htake, hlt⟩ := dropWhile_hexPrefix_lt (by omega) hne hvalid hfront
      exact ⟨16, _, by rw [if_pos hfront], htake, Or.inr hlt⟩
    · exact ⟨8, _, by rw [if_neg hfront], hread, Or.inl ⟨rfl, rfl⟩⟩
  | @decimal d digits hbase hd =>
    have hfirst : readByte (d :: digits ++ rest) ≠ 48 := hd
    exact ⟨10, _, by rw [if_pos hbase, if_neg hfirst], hread, Or.inl ⟨rfl, rfl⟩⟩

/-! ## White space and the sign -/

theorem readSign_form (cursor : List UInt8) :
    ∃ sign, cursor = sign ++ (readSign cursor).2 ∧ SignForm sign (readSign cursor).1 := by
  unfold readSign
  match cursor with
  | [] => exact ⟨[], rfl, .none⟩
  | byte :: rest =>
    rw [readByte_cons]
    by_cases hplus : byte = 43
    · rw [if_pos hplus, hplus]
      exact ⟨[43], rfl, .plus⟩
    · rw [if_neg hplus]
      by_cases hminus : byte = 45
      · rw [if_pos hminus, hminus]
        exact ⟨[45], rfl, .minus⟩
      · rw [if_neg hminus]
        exact ⟨[], rfl, .none⟩

/-- An integer starts with a digit. -/
theorem IntegerForm.head {base : Int} {integer digits : List UInt8} {radix : Nat}
    (hform : IntegerForm base integer radix digits) (hne : digits ≠ [])
    (hvalid : ∀ byte ∈ digits, isValidDigitForBase byte radix) :
    ∃ first more, integer = first :: more ∧ isAsciiSpace first = false ∧ first ≠ 43 ∧
      first ≠ 45 := by
  obtain ⟨first, more, rfl⟩ := List.exists_cons_of_ne_nil hne
  have hfirst := isValidDigitForBase_not_space (hvalid first List.mem_cons_self)
  cases hform with
  | plain hbase => exact ⟨first, more, rfl, hfirst⟩
  | hex hbase hx => exact ⟨_, _, rfl, by decide, by decide, by decide⟩
  | octal hbase => exact ⟨_, _, rfl, hfirst⟩
  | decimal hbase hd => exact ⟨_, _, rfl, hfirst⟩

/-- White space and the sign before an integer are read as such. -/
theorem readSign_of_form {base : Int} {space sign integer digits rest : List UInt8}
    {negative : Bool} {radix : Nat} (hspace : ∀ byte ∈ space, isAsciiSpace byte)
    (hsign : SignForm sign negative) (hform : IntegerForm base integer radix digits)
    (hne : digits ≠ []) (hvalid : ∀ byte ∈ digits, isValidDigitForBase byte radix) :
    readSign ((space ++ sign ++ integer ++ rest).dropWhile isAsciiSpace) =
      (negative, integer ++ rest) := by
  obtain ⟨first, more, rfl, hnotSpace, hplus, hminus⟩ := hform.head hne hvalid
  rw [List.append_assoc, List.append_assoc, List.dropWhile_append_of_pos hspace]
  unfold readSign
  cases hsign with
  | none =>
    rw [List.nil_append, List.cons_append, List.dropWhile_cons_of_neg (by simpa using hnotSpace),
      readByte_cons, if_neg hplus, if_neg hminus]
  | plus => rfl
  | minus => rfl

end Rlibc.Stdlib
