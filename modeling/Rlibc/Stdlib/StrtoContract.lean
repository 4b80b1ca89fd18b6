import Rlibc.Stdlib.SubjectSequence

/-!
# The `strto*` functions against the standard

What the parser finds is the longest subject sequence, and each function stores the value of that
sequence or the saturated limit.
-/

namespace Rlibc.Stdlib

/-! ## The parser -/

/-- The parser found this subject before the rest, whatever limit it was given. -/
def Finds (nptr : List UInt8) (base : Int) (s : Subject) (rest : List UInt8) : Prop :=
  ∀ limit, 36 ≤ limit → limit ≤ u128Max → parseUnsignedMagnitude nptr base limit =
    some ⟨min s.magnitude limit, rest, .converted, limit < s.magnitude, s.negative⟩

/-- The parser ended without a value, in this status. -/
def FindsNothing (nptr : List UInt8) (base : Int) (status : ParseStatus) : Prop :=
  ∀ limit, 36 ≤ limit → limit ≤ u128Max → ∃ negative, parseUnsignedMagnitude nptr base limit =
    some ⟨0, nptr, status, false, negative⟩

/-- The parser in terms of the digits after the prefix. -/
theorem parseUnsignedMagnitude_eq {nptr cursor digits : List UInt8} {base : Int} {radix : Nat}
    {negative : Bool} (hsign : readSign (nptr.dropWhile isAsciiSpace) = (negative, cursor))
    (hbase : resolveBase base cursor = some (radix, digits)) {limit : Nat} (hlow : 36 ≤ limit)
    (hhigh : limit ≤ u128Max) :
    parseUnsignedMagnitude nptr base limit = some
      (if digits.takeWhile (isDigit radix) ≠ [] then
        let s : Subject := ⟨negative, radix, digits.takeWhile (isDigit radix)⟩
        ⟨min s.magnitude limit, digits.dropWhile (isDigit radix), .converted,
          limit < s.magnitude, negative⟩
      else ⟨0, nptr, .noConversion, false, negative⟩) := by
  have hradix := Nat.le_trans (resolveBase_radix hbase) hlow
  have hscan := scanDigits_of hradix hhigh digits []
  rw [List.nil_append] at hscan
  have hinitial : DigitScan.of limit radix [] = ⟨0, false, false⟩ := by
    have hvalue : Numeral.value radix [] = 0 := rfl
    unfold DigitScan.of
    rw [hvalue, Nat.zero_min, decide_eq_false (Nat.not_lt_zero limit)]
    rfl
  rw [hinitial] at hscan
  unfold parseUnsignedMagnitude
  rw [hsign]
  dsimp only
  rw [hbase]
  dsimp only
  rw [hscan, Option.map_some]
  by_cases hread : digits.takeWhile (isDigit radix) = []
  · rw [if_neg (not_not_intro hread), hread]
    rfl
  · have hread' : (digits.takeWhile (isDigit radix)).map
        (fun byte => (digitValue byte).getD 0) ≠ [] := fun h => hread (List.map_eq_nil_iff.mp h)
    rw [if_pos hread]
    unfold DigitScan.of
    rw [if_pos (decide_eq_true hread')]
    dsimp only
    rw [Subject.magnitude_eq]

theorem parse_invalidBase {nptr : List UInt8} {base : Int} (h : ¬ValidBase base) :
    FindsNothing nptr base .invalidBase := by
  intro limit _ _
  refine ⟨(readSign (nptr.dropWhile isAsciiSpace)).1, ?_⟩
  unfold parseUnsignedMagnitude
  dsimp only
  rw [resolveBase_eq_none.mpr h]

/-- Every subject sequence at the front of the string is the one found, or shorter. -/
theorem SubjectForm.bound {base : Int} {nptr w rest : List UInt8} {s : Subject}
    (hform : SubjectForm base w s) (hsplit : nptr = w ++ rest) :
    ∃ cursor radix digits, readSign (nptr.dropWhile isAsciiSpace) = (s.negative, cursor) ∧
      resolveBase base cursor = some (radix, digits) ∧ digits.takeWhile (isDigit radix) ≠ [] ∧
      (digits.dropWhile (isDigit radix)).length ≤ rest.length ∧
      ((digits.dropWhile (isDigit radix)).length = rest.length →
        s = ⟨s.negative, radix, digits.takeWhile (isDigit radix)⟩) := by
  obtain @⟨space, sign, integer, found, negative, radix, hspace, hsign, hinteger, hne, hvalid⟩ :=
    hform
  replace hspace := fun byte hbyte => (mem_whiteSpace byte).mp (hspace byte hbyte)
  replace hvalid := fun byte hbyte => (isValidDigitForBase_iff byte radix).mp (hvalid byte hbyte)
  obtain ⟨radix', digits, hbase, hread, hcases⟩ := resolveBase_of_form rest hinteger hne
    hvalid
  refine ⟨integer ++ rest, radix', digits, ?_, hbase, hread, ?_⟩
  · rw [hsplit]
    exact readSign_of_form hspace hsign hinteger hne hvalid
  · rcases hcases with ⟨rfl, rfl⟩ | hlt
    · have hdrop : (found ++ rest).dropWhile (isDigit radix') = rest.dropWhile (isDigit radix') :=
        List.dropWhile_append_of_pos hvalid
      have htake : (found ++ rest).takeWhile (isDigit radix') =
          found ++ rest.takeWhile (isDigit radix') := List.takeWhile_append_of_pos hvalid
      have hlength := congrArg List.length
        (List.takeWhile_append_dropWhile (p := isDigit radix') (l := rest))
      rw [List.length_append] at hlength
      rw [hdrop, htake]
      refine ⟨by omega, fun heq => ?_⟩
      rw [List.length_eq_zero_iff.mp (by omega : (rest.takeWhile (isDigit radix')).length = 0),
        List.append_nil]
    · exact ⟨Nat.le_of_lt hlt, fun heq => absurd heq (Nat.ne_of_lt hlt)⟩

/-- What the parser finds with a valid base: nothing, when there is no subject sequence, or the
longest one. -/
theorem parse_validBase (nptr : List UInt8) {base : Int} (h : ValidBase base) :
    (FindsNothing nptr base .noConversion ∧
      ∀ w rest s, nptr = w ++ rest → ¬SubjectForm base w s) ∨
    ∃ w rest s, nptr = w ++ rest ∧ SubjectForm base w s ∧ Finds nptr base s rest ∧
      ∀ w' rest' s', nptr = w' ++ rest' → SubjectForm base w' s' →
        w'.length ≤ w.length ∧ (w'.length = w.length → s' = s) := by
  obtain ⟨⟨negative, cursor⟩, hsign⟩ : ∃ r, readSign (nptr.dropWhile isAsciiSpace) = r := ⟨_, rfl⟩
  cases hbase : resolveBase base cursor with
  | none => exact absurd h (resolveBase_eq_none.mp hbase)
  | some resolved =>
    obtain ⟨radix, digits⟩ := resolved
    -- Either no digit of the base comes first, and there is no subject sequence at all,
    -- or the whitespace, the sign and the digits read are the longest one.
    by_cases hread : digits.takeWhile (isDigit radix) = []
    · refine Or.inl ⟨?_, ?_⟩
      · intro limit hlow hhigh
        refine ⟨negative, ?_⟩
        rw [parseUnsignedMagnitude_eq hsign hbase hlow hhigh, if_neg (not_not_intro hread)]
      · intro w rest s hsplit hform
        obtain ⟨cursor', radix', digits', hsign', hbase', hread', -⟩ := hform.bound hsplit
        rw [hsign] at hsign'
        cases hsign'
        rw [hbase] at hbase'
        cases hbase'
        exact hread' hread
    · obtain ⟨sign, hcursor, hsignForm⟩ := readSign_form (nptr.dropWhile isAsciiSpace)
      obtain ⟨integer, hinteger, hintegerForm⟩ := resolveBase_form hbase hread
      rw [hsign] at hcursor hsignForm
      have hsplit : nptr = (nptr.takeWhile isAsciiSpace ++ sign ++ integer) ++
          digits.dropWhile (isDigit radix) := by
        calc nptr = nptr.takeWhile isAsciiSpace ++ nptr.dropWhile isAsciiSpace :=
              List.takeWhile_append_dropWhile.symm
          _ = nptr.takeWhile isAsciiSpace ++
              (sign ++ (integer ++ digits.dropWhile (isDigit radix))) := by
            rw [hcursor, ← hinteger]
          _ = _ := by rw [List.append_assoc, List.append_assoc]
      have hspaces := List.all_eq_true.mp (List.all_takeWhile (p := isAsciiSpace) (l := nptr))
      have hdigits := List.all_eq_true.mp (List.all_takeWhile (p := isDigit radix) (l := digits))
      refine Or.inr ⟨_, _, ⟨negative, radix, digits.takeWhile (isDigit radix)⟩, hsplit,
        .mk (fun byte hbyte => (mem_whiteSpace byte).mpr (hspaces byte hbyte)) hsignForm
          hintegerForm hread
          (fun byte hbyte => (isValidDigitForBase_iff byte radix).mpr (hdigits byte hbyte)), ?_, ?_⟩
      · intro limit hlow hhigh
        rw [parseUnsignedMagnitude_eq hsign hbase hlow hhigh, if_pos hread]
      -- Another subject sequence has the same sign and base, and at most these digits.
      · intro w' rest' s' hsplit' hform'
        obtain ⟨cursor', radix', digits', hsign', hbase', -, hle, hsame⟩ := hform'.bound hsplit'
        rw [hsign] at hsign'
        cases hsign'
        rw [hbase] at hbase'
        cases hbase'
        have hlength := congrArg List.length (hsplit.symm.trans hsplit')
        rw [List.length_append, @List.length_append _ w'] at hlength
        exact ⟨by omega, fun heq => hsame (by omega)⟩

/-! ## The functions -/

/-- A function that turns what the parser finds into these results meets the standard. -/
theorem meetsReference_of_parse {result : Subject → Int × Option Int}
    {function : List UInt8 → Option (List UInt8) → Int → Int → Option Conversion}
    (hinvalid : ∀ nptr endptr base errno, FindsNothing nptr base .invalidBase →
      function nptr endptr base errno = some ⟨0, endptr, EINVAL⟩)
    (hnothing : ∀ nptr endptr base errno, FindsNothing nptr base .noConversion →
      function nptr endptr base errno = some ⟨0, endptr.map fun _ => nptr, errno⟩)
    (hfinds : ∀ nptr endptr base errno s rest, Finds nptr base s rest →
      function nptr endptr base errno =
        some ⟨(result s).1, endptr.map fun _ => rest, (result s).2.getD errno⟩) :
    MeetsReference result function := by
  intro nptr endptr base errno
  by_cases hbase : ValidBase base
  · rcases parse_validBase nptr hbase with ⟨hparse, hnone⟩ | ⟨w, rest, s, hsplit, hform, hparse, hmax⟩
    · refine ⟨_, hnothing nptr endptr base errno hparse, fun c' => ⟨fun href => ?_, ?_⟩⟩
      · cases href with
        | invalidBase hbase' => exact absurd hbase hbase'
        | noConversion => rfl
        | converted _ hsplit hform => exact absurd hform (hnone _ _ _ hsplit)
      · rintro rfl
        exact .noConversion hbase hnone
    · refine ⟨_, hfinds nptr endptr base errno s rest hparse, fun c' => ⟨fun href => ?_, ?_⟩⟩
      · cases href with
        | invalidBase hbase' => exact absurd hbase hbase'
        | noConversion _ hnone => exact absurd hform (hnone _ _ _ hsplit)
        | @converted w' rest' s' _ hsplit' hform' hlongest =>
          -- Both are longest, so they are the same prefix with the same meaning.
          obtain ⟨hle, hsame⟩ := hmax w' rest' s' hsplit' hform'
          have hlength := Nat.le_antisymm hle (hlongest w rest s hsplit hform)
          have hrest := (List.append_inj (hsplit'.symm.trans hsplit) hlength).2
          rw [hsame hlength, hrest]
      · rintro rfl
        exact .converted hbase hsplit hform fun w' rest' s' hsplit' hform' =>
          (hmax w' rest' s' hsplit' hform').1
  · refine ⟨_, hinvalid nptr endptr base errno (parse_invalidBase hbase), fun c' => ⟨fun href => ?_,
      ?_⟩⟩
    · cases href with
      | invalidBase => rfl
      | noConversion hbase' => exact absurd hbase' hbase
      | converted hbase' => exact absurd hbase' hbase
    · rintro rfl
      exact .invalidBase hbase

theorem strtoSigned_of_finds {nptr : List UInt8} {base : Int} {s : Subject} {rest : List UInt8}
    (h : Finds nptr base s rest) (endptr : Option (List UInt8)) (errno : Int) :
    strtoSigned nptr endptr base errno =
      some ⟨s.signedResult.1, endptr.map fun _ => rest, s.signedResult.2.getD errno⟩ := by
  have hmax : C_LONG_MAX = 0x7fffffffffffffff := rfl
  have hmin : C_LONG_MIN = -0x8000000000000000 := rfl
  have hparse := h (C_LONG_MAX + 1) (by decide) (by decide)
  unfold strtoSigned Subject.signedResult writeEndptr
  rw [hparse]
  cases hsign : s.negative with
  | true =>
    by_cases hover : C_LONG_MAX + 1 < s.magnitude
    · have hfits : ¬FitsCLong (-(s.magnitude : Int)) := by
        unfold FitsCLong
        omega
      simp [hover, hfits]
    · have hvalue : min s.magnitude (C_LONG_MAX + 1) = s.magnitude := by omega
      have hfits : FitsCLong (-(s.magnitude : Int)) := by
        unfold FitsCLong
        omega
      rw [hvalue]
      by_cases hlimit : s.magnitude = C_LONG_MAX + 1
      · have hexact : -(s.magnitude : Int) = C_LONG_MIN := by omega
        rw [if_pos rfl, hexact, if_pos (by decide)]
        simp [hlimit]
      · simp [hover, hfits, hlimit]
  | false =>
    by_cases hover : C_LONG_MAX < s.magnitude
    · have hfits : ¬FitsCLong (s.magnitude : Int) := by
        unfold FitsCLong
        omega
      simp [hover, hfits]
    · have hvalue : min s.magnitude (C_LONG_MAX + 1) = s.magnitude := by omega
      have hbelow : ¬C_LONG_MAX + 1 < s.magnitude := by omega
      have hfits : FitsCLong (s.magnitude : Int) := by
        unfold FitsCLong
        omega
      rw [hvalue]
      simp [hover, hbelow, hfits]

theorem strtoUnsigned_of_finds {nptr : List UInt8} {base : Int} {s : Subject} {rest : List UInt8}
    (h : Finds nptr base s rest) (endptr : Option (List UInt8)) (errno : Int) :
    strtoUnsigned nptr endptr base errno =
      some ⟨s.unsignedResult.1, endptr.map fun _ => rest, s.unsignedResult.2.getD errno⟩ := by
  have hmax : C_ULONG_MAX = 0xffffffffffffffff := rfl
  have hparse := h C_ULONG_MAX (by decide) (by decide)
  unfold strtoUnsigned Subject.unsignedResult writeEndptr
  rw [hparse]
  by_cases hover : C_ULONG_MAX < s.magnitude
  · have hfits : ¬s.magnitude ≤ C_ULONG_MAX := Nat.not_le_of_lt hover
    simp [hover, hfits]
  · have hvalue : min s.magnitude C_ULONG_MAX = s.magnitude := by omega
    have hfits : s.magnitude ≤ C_ULONG_MAX := by omega
    rw [hvalue]
    cases hsign : s.negative with
    | true =>
      have hneg : -(s.magnitude : Int) % 2 ^ 64 = wrappingNeg s.magnitude := by
        unfold wrappingNeg
        rw [hmax]
        omega
      rw [if_pos hfits, if_pos rfl, hneg]
      simp [hover, hfits]
    | false =>
      have hpos : (s.magnitude : Int) % 2 ^ 64 = s.magnitude := by omega
      rw [if_pos hfits, if_neg Bool.false_ne_true, hpos]
      simp [hover, hfits]

/-- Without a value, both bodies return zero and report an invalid base only. -/
theorem strtoSigned_of_findsNothing {nptr : List UInt8} {base : Int} {status : ParseStatus}
    (h : FindsNothing nptr base status) (endptr : Option (List UInt8)) (errno : Int) :
    (status = .invalidBase → strtoSigned nptr endptr base errno = some ⟨0, endptr, EINVAL⟩) ∧
      (status = .noConversion →
        strtoSigned nptr endptr base errno = some ⟨0, endptr.map fun _ => nptr, errno⟩) := by
  obtain ⟨negative, hparse⟩ := h (C_LONG_MAX + 1) (by decide) (by decide)
  unfold strtoSigned writeEndptr
  rw [hparse]
  constructor
  · rintro rfl
    rfl
  · rintro rfl
    cases negative <;> rfl

theorem strtoUnsigned_of_findsNothing {nptr : List UInt8} {base : Int} {status : ParseStatus}
    (h : FindsNothing nptr base status) (endptr : Option (List UInt8)) (errno : Int) :
    (status = .invalidBase → strtoUnsigned nptr endptr base errno = some ⟨0, endptr, EINVAL⟩) ∧
      (status = .noConversion →
        strtoUnsigned nptr endptr base errno = some ⟨0, endptr.map fun _ => nptr, errno⟩) := by
  obtain ⟨negative, hparse⟩ := h C_ULONG_MAX (by decide) (by decide)
  unfold strtoUnsigned writeEndptr
  rw [hparse]
  constructor
  · rintro rfl
    rfl
  · rintro rfl
    rfl

theorem strtoSigned_meetsReference : MeetsReference Subject.signedResult strtoSigned :=
  meetsReference_of_parse
    (fun _ endptr _ errno h => (strtoSigned_of_findsNothing h endptr errno).1 rfl)
    (fun _ endptr _ errno h => (strtoSigned_of_findsNothing h endptr errno).2 rfl)
    (fun _ endptr _ errno _ _ h => strtoSigned_of_finds h endptr errno)

theorem strtoUnsigned_meetsReference : MeetsReference Subject.unsignedResult strtoUnsigned :=
  meetsReference_of_parse
    (fun _ endptr _ errno h => (strtoUnsigned_of_findsNothing h endptr errno).1 rfl)
    (fun _ endptr _ errno h => (strtoUnsigned_of_findsNothing h endptr errno).2 rfl)
    (fun _ endptr _ errno _ _ h => strtoUnsigned_of_finds h endptr errno)

/-- The four functions always return, and leave exactly what the standard says. -/
theorem strto_reference :
    MeetsReference Subject.signedResult strtol ∧ MeetsReference Subject.signedResult strtoll ∧
      MeetsReference Subject.unsignedResult strtoul ∧
      MeetsReference Subject.unsignedResult strtoull :=
  ⟨strtoSigned_meetsReference, strtoSigned_meetsReference, strtoUnsigned_meetsReference,
    strtoUnsigned_meetsReference⟩

/-- `strtol(" -0x1Fg", &end, 0)` reads up to the `g`. -/
example : strtol [32, 45, 48, 120, 49, 70, 103] (some []) 0 0 = some ⟨-31, some [103], 0⟩ := by
  decide

end Rlibc.Stdlib
