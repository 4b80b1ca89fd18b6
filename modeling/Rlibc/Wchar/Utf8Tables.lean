import Rlibc.Foundations.Utf8Sequences
import Rlibc.Wchar.Utf8

/-!
# The tables are those of UTF-8

The bit tests of the source against the byte lists of `Utf8Sequences`: which lead and which
second bytes are let through, which prefixes are kept, what a complete buffer decodes to and what
a scalar value is written as.
-/

namespace Rlibc.Wchar

open Utf8Sequences

theorem forall_byte {P : UInt8 → Prop} (h : ∀ n < 256, P (.ofNat n)) (byte : UInt8) : P byte := by
  have hbyte := h byte.toNat byte.toNat_lt
  rwa [UInt8.ofNat_toNat] at hbyte

theorem isContinuationByte_iff (byte : UInt8) : isContinuationByte byte = true ↔ Tail byte := by
  revert byte
  apply forall_byte
  unfold isContinuationByte Tail
  decide +kernel

theorem expectedLenFromLeadByte_eq (byte : UInt8) :
    expectedLenFromLeadByte byte = if seqLen byte = 0 then none else some (seqLen byte) := by
  revert byte
  apply forall_byte
  unfold expectedLenFromLeadByte seqLen
  decide +kernel

theorem seqBuffer_cases (bytes : SeqBuffer) : ∃ a b c d, bytes = #v[a, b, c, d] := by
  refine ⟨bytes[0], bytes[1], bytes[2], bytes[3], ?_⟩
  ext i hi
  match i, hi with
  | 0, _ => rfl
  | 1, _ => rfl
  | 2, _ => rfl
  | 3, _ => rfl

/-- The second-byte test of the source, on a byte that continues a sequence. -/
theorem secondFits_iff {lead second : UInt8} {len : Nat} (htail : Tail second)
    (hlen : seqLen lead = len) :
    SecondFits lead second ↔
      ¬ (len = 3 ∧ ((lead = 0xE0 ∧ second < 0xA0) ∨ (lead = 0xED ∧ second > 0x9F))) ∧
        ¬ (len = 4 ∧ ((lead = 0xF0 ∧ second < 0x90) ∨ (lead = 0xF4 ∧ second > 0x8F))) := by
  unfold SecondFits
  simp only [← UInt8.toNat_inj, UInt8.lt_iff_toNat_lt, gt_iff_lt, UInt8.reduceToNat]
  have h3 : lead.toNat = 0xE0 ∨ lead.toNat = 0xED → len = 3 := by
    intro h
    rw [← hlen]
    unfold seqLen
    rw [if_neg (by omega), if_neg (by omega), if_neg (by omega), if_pos (by omega)]
  have h4 : lead.toNat = 0xF0 ∨ lead.toNat = 0xF4 → len = 4 := by
    intro h
    rw [← hlen]
    unfold seqLen
    rw [if_neg (by omega), if_neg (by omega), if_neg (by omega), if_neg (by omega),
      if_pos (by omega)]
  constructor
  · rintro ⟨_, h1, h2, h3, h4⟩
    omega
  · rintro ⟨h1, h2⟩
    exact ⟨htail, by omega, by omega, by omega, by omega⟩

/-- The announced length is the source's, where there is one. -/
theorem expectedLenFromLeadByte_some {byte : UInt8} {len : Nat} (hlen : len ≠ 0) :
    expectedLenFromLeadByte byte = some len ↔ seqLen byte = len := by
  rw [expectedLenFromLeadByte_eq]
  by_cases h0 : seqLen byte = 0
  · rw [if_pos h0]
    simp only [reduceCtorEq, false_iff]
    omega
  · rw [if_neg h0, Option.some.injEq]

/-- An early `return false`. -/
theorem ite_false_iff {c : Prop} [Decidable c] {e : Bool} :
    (if c then false else e) = true ↔ ¬ c ∧ e = true := by
  by_cases h : c
  · rw [if_pos h]
    simp only [Bool.false_eq_true, h, not_true_eq_false, false_and]
  · rw [if_neg h]
    simp only [h, not_false_eq_true, true_and]

/-- A test made only under a condition. -/
theorem ite_true_iff {c : Prop} [Decidable c] {e : Bool} :
    (if c then e else true) = true ↔ (c → e = true) := by
  by_cases h : c
  · rw [if_pos h]
    simp only [h, true_implies]
  · rw [if_neg h]
    simp only [h, false_implies]

theorem not_any_iff {p : UInt8 → Bool} {l : List UInt8} :
    ¬ l.any p = true ↔ ∀ b ∈ l, ¬ p b = true := by
  simp only [List.any_eq_true, not_exists, not_and]

/-- The prefix test with its early returns read as one conjunction. -/
theorem partialPrefixIsValid_and (bytes : SeqBuffer) (pendingLen expectedLen : Nat) :
    partialPrefixIsValid bytes pendingLen expectedLen = true ↔
      (0 < pendingLen ∧ pendingLen < expectedLen) ∧ (2 ≤ expectedLen ∧ expectedLen ≤ 4) ∧
        seqLen bytes[0] = expectedLen ∧
        (∀ b ∈ (bytes.toList.take pendingLen).drop 1, Tail b) ∧
        (∀ b ∈ bytes.toList.drop pendingLen, b = 0) ∧
        (2 ≤ pendingLen →
          ¬ (expectedLen = 3 ∧ ((bytes[0] = 0xE0 ∧ bytes[1] < 0xA0) ∨
            (bytes[0] = 0xED ∧ bytes[1] > 0x9F))) ∧
          ¬ (expectedLen = 4 ∧ ((bytes[0] = 0xF0 ∧ bytes[1] < 0x90) ∨
            (bytes[0] = 0xF4 ∧ bytes[1] > 0x8F)))) := by
  unfold partialPrefixIsValid
  dsimp only
  simp only [ite_false_iff]
  simp only [ite_true_iff]
  simp only [ite_false_iff, not_any_iff, decide_eq_true_eq, bne_iff_ne, isContinuationByte_iff,
    not_not, and_true]
  constructor
  · rintro ⟨h0, h1, h2, h3, h4, h5⟩
    have h1' : 2 ≤ expectedLen ∧ expectedLen ≤ 4 := h1
    rw [expectedLenFromLeadByte_some (by omega)] at h2
    exact ⟨by omega, h1', h2, h3, h4, h5⟩
  · rintro ⟨h0, h1, h2, h3, h4, h5⟩
    rw [expectedLenFromLeadByte_some (by omega)]
    exact ⟨by omega, h1, h2, h3, h4, h5⟩

/-- The stored prefixes are the beginnings of sequences, with zeros in the rest of the buffer. -/
theorem partialPrefixIsValid_iff (bytes : SeqBuffer) (pendingLen expectedLen : Nat) :
    partialPrefixIsValid bytes pendingLen expectedLen = true ↔
      Started (bytes.toList.take pendingLen) ∧ leadLen (bytes.toList.take pendingLen) = expectedLen ∧
        ∀ b ∈ bytes.toList.drop pendingLen, b = 0 := by
  rw [partialPrefixIsValid_and, started_iff]
  obtain ⟨a, b, c, d, rfl⟩ := seqBuffer_cases bytes
  change (_ ∧ _ ∧ seqLen a = expectedLen ∧ (∀ x ∈ ([a, b, c, d].take pendingLen).drop 1, Tail x) ∧
    (∀ x ∈ [a, b, c, d].drop pendingLen, x = 0) ∧ (2 ≤ pendingLen →
      ¬ (expectedLen = 3 ∧ ((a = 0xE0 ∧ b < 0xA0) ∨ (a = 0xED ∧ b > 0x9F))) ∧
      ¬ (expectedLen = 4 ∧ ((a = 0xF0 ∧ b < 0x90) ∨ (a = 0xF4 ∧ b > 0x8F))))) ↔
    ([a, b, c, d].take pendingLen ≠ [] ∧ Fits ([a, b, c, d].take pendingLen) ∧
      ([a, b, c, d].take pendingLen).length < leadLen ([a, b, c, d].take pendingLen)) ∧
      leadLen ([a, b, c, d].take pendingLen) = expectedLen ∧
      ∀ x ∈ [a, b, c, d].drop pendingLen, x = 0
  have hle := seqLen_le a
  -- A prefix has one to three bytes; no bytes or four of them are none.
  rcases pendingLen with _ | _ | _ | _ | n
  · simp only [List.take_zero, ne_eq, not_true_eq_false, false_and, Nat.lt_irrefl]
  · simp only [List.take_succ_cons, List.take_zero, Fits, leadLen, List.length_singleton,
      List.drop_succ_cons, List.drop_zero]
    constructor
    · rintro ⟨h0, h1, h2, _, h4, _⟩
      exact ⟨⟨List.cons_ne_nil _ _, by omega, by omega⟩, h2, h4⟩
    · rintro ⟨⟨_, h0, h1⟩, h2, h4⟩
      refine ⟨by omega, by omega, h2, ?_, h4, fun h => by omega⟩
      exact fun x hx => absurd hx List.not_mem_nil
  · simp only [List.take_succ_cons, List.take_zero, Fits, leadLen, List.length_cons,
      List.length_nil, List.drop_succ_cons, List.drop_zero, List.mem_singleton, forall_eq]
    constructor
    · rintro ⟨h0, h1, h2, h3, h4, h5⟩
      have hsecond := (secondFits_iff h3 h2).mpr (h5 (by omega))
      exact ⟨⟨List.cons_ne_nil _ _, ⟨by omega, hsecond, by simp⟩, by omega⟩, h2, h4⟩
    · rintro ⟨⟨_, ⟨h0, hsecond, _⟩, h1⟩, h2, h4⟩
      exact ⟨by omega, by omega, h2, hsecond.1, h4,
        fun _ => (secondFits_iff hsecond.1 h2).mp hsecond⟩
  · simp only [List.take_succ_cons, List.take_zero, Fits, leadLen, List.length_cons,
      List.length_nil, List.drop_succ_cons, List.drop_zero, List.mem_cons, List.not_mem_nil,
      or_false, forall_eq_or_imp, forall_eq]
    constructor
    · rintro ⟨h0, h1, h2, h3, h4, h5⟩
      have hsecond := (secondFits_iff h3.1 h2).mpr (h5 (by omega))
      exact ⟨⟨List.cons_ne_nil _ _, ⟨by omega, hsecond, h3.2⟩, by omega⟩, h2, h4⟩
    · rintro ⟨⟨_, ⟨h0, hsecond, h3⟩, h1⟩, h2, h4⟩
      exact ⟨by omega, by omega, h2, ⟨hsecond.1, h3⟩, h4,
        fun _ => (secondFits_iff hsecond.1 h2).mp hsecond⟩
  · constructor
    · rintro ⟨h0, h1, _⟩
      omega
    · rintro ⟨⟨_, _, h1⟩, h2, _⟩
      rw [List.length_take] at h1
      change _ < seqLen a at h1
      simp only [List.length_cons, List.length_nil] at h1
      omega

/-! ## Whole sequences -/

/-- Six payload bits below a multiple of 64 are added by `|||`. -/
theorem or_eq_add {a b k : Nat} (ha : a % 2 ^ k = 0) (hb : b < 2 ^ k) : a ||| b = a + b := by
  have hdiv := Nat.div_add_mod a (2 ^ k)
  rw [ha, Nat.add_zero] at hdiv
  rw [← hdiv, Nat.two_pow_add_eq_or_of_lt hb]

theorem tail_payload {b : UInt8} (h : Tail b) : (b &&& 0x3F).toUInt32.toNat = b.toNat - 0x80 := by
  unfold Tail at h
  rw [UInt8.toNat_toUInt32, UInt8.toNat_and]
  change b.toNat &&& (2 ^ 6 - 1) = _
  rw [Nat.and_two_pow_sub_one_eq_mod]
  omega

theorem shift_payload {x k : UInt32} {n : Nat} (hk : k.toNat = n) (hn : n < 32)
    (hx : x.toNat * 2 ^ n < 2 ^ 32) : (x <<< k).toNat = x.toNat * 2 ^ n := by
  rw [UInt32.toNat_shiftLeft, hk, Nat.mod_eq_of_lt hn, Nat.shiftLeft_eq, Nat.mod_eq_of_lt hx]

theorem decodeUtf8Scalar_one {a b c d : UInt8} {ch : Char} (h : encode ch = [a]) :
    decodeUtf8Scalar #v[a, b, c, d] 1 = some ch.val := by
  have hrow := encode_row ch
  rw [h] at hrow
  have ha := seqLen_eq_one hrow.2.1.symm
  have hscalar : leadBits a = ch.toNat := hrow.2.2
  unfold leadBits at hscalar
  rw [if_pos ha] at hscalar
  change (if a < 0x80 then some a.toUInt32 else none) = _
  rw [if_pos (UInt8.lt_iff_toNat_lt.mpr ha), Option.some.injEq, ← UInt32.toNat_inj,
    UInt8.toNat_toUInt32]
  exact hscalar

theorem decodeUtf8Scalar_two {a b c d : UInt8} {ch : Char} (h : encode ch = [a, b]) :
    decodeUtf8Scalar #v[a, b, c, d] 2 = some ch.val := by
  have hrow := encode_row ch
  rw [h] at hrow
  obtain ⟨⟨_, hsecond, _⟩, hlen, hscalar⟩ := hrow
  have ha := seqLen_eq_two hlen.symm
  have hb : Tail b := hsecond.1
  simp only [scalar, leadBits, List.foldl_cons, List.foldl_nil] at hscalar
  rw [if_neg (by omega), if_pos ha.2] at hscalar
  have hlead : (a &&& 0x1F).toUInt32.toNat = a.toNat - 0xC0 := by
    rw [UInt8.toNat_toUInt32, UInt8.toNat_and]
    change a.toNat &&& (2 ^ 5 - 1) = _
    rw [Nat.and_two_pow_sub_one_eq_mod]
    omega
  have hbp := tail_payload hb
  unfold Tail at hb
  change (if ¬ (0xC2 ≤ a ∧ a ≤ 0xDF) ∨ ¬ isContinuationByte b then none
    else some (((a &&& 0x1F).toUInt32 <<< 6) ||| (b &&& 0x3F).toUInt32)) = _
  rw [if_neg (by
    simp only [UInt8.le_iff_toNat_le, UInt8.reduceToNat, isContinuationByte_iff]
    exact not_or.mpr ⟨by omega, not_not.mpr hsecond.1⟩)]
  rw [Option.some.injEq, ← UInt32.toNat_inj, UInt32.toNat_or,
    shift_payload (n := 6) rfl (by omega) (by omega), or_eq_add (k := 6) (by omega) (by omega),
    hlead, hbp]
  change _ = ch.toNat
  omega

theorem decodeUtf8Scalar_three {a b c d : UInt8} {ch : Char} (h : encode ch = [a, b, c]) :
    decodeUtf8Scalar #v[a, b, c, d] 3 = some ch.val := by
  have hrow := encode_row ch
  rw [h] at hrow
  obtain ⟨⟨_, hsecond, hrest⟩, hlen, hscalar⟩ := hrow
  have hsurr := (secondFits_iff hsecond.1 hlen.symm).mp hsecond
  have ha := seqLen_eq_three hlen.symm
  have hb : Tail b := hsecond.1
  have hc : Tail c := hrest c List.mem_cons_self
  have hbc := not_not.mpr ((isContinuationByte_iff b).mpr hb)
  have hcc := not_not.mpr ((isContinuationByte_iff c).mpr hc)
  simp only [scalar, leadBits, List.foldl_cons, List.foldl_nil] at hscalar
  rw [if_neg (by omega), if_neg (by omega), if_pos ha.2] at hscalar
  have hlead : (a &&& 0x0F).toUInt32.toNat = a.toNat - 0xE0 := by
    rw [UInt8.toNat_toUInt32, UInt8.toNat_and]
    change a.toNat &&& (2 ^ 4 - 1) = _
    rw [Nat.and_two_pow_sub_one_eq_mod]
    omega
  have hbp := tail_payload hb
  have hcp := tail_payload hc
  unfold Tail at hb hc
  have hrange : 0xE0 ≤ a ∧ a ≤ 0xEF := by
    simp only [UInt8.le_iff_toNat_le, UInt8.reduceToNat]
    omega
  change (if ¬ (0xE0 ≤ a ∧ a ≤ 0xEF) ∨ ¬ isContinuationByte b ∨ ¬ isContinuationByte c then none
    else if (a = 0xE0 ∧ b < 0xA0) ∨ (a = 0xED ∧ b > 0x9F) then none
    else some (((a &&& 0x0F).toUInt32 <<< 12) ||| ((b &&& 0x3F).toUInt32 <<< 6) |||
      (c &&& 0x3F).toUInt32)) = _
  rw [if_neg (not_or.mpr ⟨not_not.mpr hrange, not_or.mpr ⟨hbc, hcc⟩⟩),
    if_neg (fun hbad => hsurr.1 ⟨rfl, hbad⟩)]
  rw [Option.some.injEq, ← UInt32.toNat_inj, UInt32.toNat_or, UInt32.toNat_or,
    shift_payload (n := 12) rfl (by omega) (by omega),
    shift_payload (n := 6) rfl (by omega) (by omega), hlead, hbp, hcp,
    or_eq_add (a := (a.toNat - 0xE0) * 2 ^ 12) (k := 12) (by omega) (by omega),
    or_eq_add (k := 6) (by omega) (by omega)]
  change _ = ch.toNat
  omega

theorem decodeUtf8Scalar_four {a b c d : UInt8} {ch : Char} (h : encode ch = [a, b, c, d]) :
    decodeUtf8Scalar #v[a, b, c, d] 4 = some ch.val := by
  have hrow := encode_row ch
  rw [h] at hrow
  obtain ⟨⟨_, hsecond, hrest⟩, hlen, hscalar⟩ := hrow
  have hover := (secondFits_iff hsecond.1 hlen.symm).mp hsecond
  have ha := seqLen_eq_four hlen.symm
  have hb : Tail b := hsecond.1
  have hc : Tail c := hrest c List.mem_cons_self
  have hd : Tail d := hrest d (List.mem_cons_of_mem _ List.mem_cons_self)
  have hbc := not_not.mpr ((isContinuationByte_iff b).mpr hb)
  have hcc := not_not.mpr ((isContinuationByte_iff c).mpr hc)
  have hdc := not_not.mpr ((isContinuationByte_iff d).mpr hd)
  simp only [scalar, leadBits, List.foldl_cons, List.foldl_nil] at hscalar
  rw [if_neg (by omega), if_neg (by omega), if_neg (by omega)] at hscalar
  -- The payload bits of the four bytes do not overlap, so that or-ing them adds them.
  have hlead : (a &&& 0x07).toUInt32.toNat = a.toNat - 0xF0 := by
    rw [UInt8.toNat_toUInt32, UInt8.toNat_and]
    change a.toNat &&& (2 ^ 3 - 1) = _
    rw [Nat.and_two_pow_sub_one_eq_mod]
    omega
  have hbp := tail_payload hb
  have hcp := tail_payload hc
  have hdp := tail_payload hd
  unfold Tail at hb hc hd
  have hrange : 0xF0 ≤ a ∧ a ≤ 0xF4 := by
    simp only [UInt8.le_iff_toNat_le, UInt8.reduceToNat]
    omega
  have hvalid : ch.toNat < 0xD800 ∨ (0xDFFF < ch.toNat ∧ ch.toNat < 0x110000) := ch.valid
  have hvalue : (((a &&& 0x07).toUInt32 <<< 18) ||| ((b &&& 0x3F).toUInt32 <<< 12) |||
      ((c &&& 0x3F).toUInt32 <<< 6) ||| (d &&& 0x3F).toUInt32) = ch.val := by
    rw [← UInt32.toNat_inj, UInt32.toNat_or, UInt32.toNat_or, UInt32.toNat_or,
      shift_payload (n := 18) rfl (by omega) (by omega),
      shift_payload (n := 12) rfl (by omega) (by omega),
      shift_payload (n := 6) rfl (by omega) (by omega), hlead, hbp, hcp, hdp,
      or_eq_add (a := (a.toNat - 0xF0) * 2 ^ 18) (k := 18) (by omega) (by omega),
      or_eq_add (a := (a.toNat - 0xF0) * 2 ^ 18 + (b.toNat - 0x80) * 2 ^ 12) (k := 12) (by omega)
        (by omega), or_eq_add (k := 6) (by omega) (by omega)]
    change _ = ch.toNat
    omega
  have hmax : ¬ ch.val > 0x10FFFF := by
    rw [gt_iff_lt, UInt32.lt_iff_toNat_lt]
    change ¬ 0x10FFFF < ch.toNat
    omega
  change (if ¬ (0xF0 ≤ a ∧ a ≤ 0xF4) ∨ ¬ isContinuationByte b ∨ ¬ isContinuationByte c ∨
      ¬ isContinuationByte d then none
    else if (a = 0xF0 ∧ b < 0x90) ∨ (a = 0xF4 ∧ b > 0x8F) then none
    else if (((a &&& 0x07).toUInt32 <<< 18) ||| ((b &&& 0x3F).toUInt32 <<< 12) |||
      ((c &&& 0x3F).toUInt32 <<< 6) ||| (d &&& 0x3F).toUInt32) > 0x10FFFF then none
    else some (((a &&& 0x07).toUInt32 <<< 18) ||| ((b &&& 0x3F).toUInt32 <<< 12) |||
      ((c &&& 0x3F).toUInt32 <<< 6) ||| (d &&& 0x3F).toUInt32)) = _
  rw [hvalue, if_neg (not_or.mpr ⟨not_not.mpr hrange, not_or.mpr ⟨hbc, not_or.mpr ⟨hcc, hdc⟩⟩⟩),
    if_neg (fun hbad => hover.2 ⟨rfl, hbad⟩), if_neg hmax]

/-- A complete sequence in front of the buffer is decoded to its scalar value. -/
theorem decodeUtf8Scalar_encode {bytes : SeqBuffer} {ch : Char} (h : encode ch <+: bytes.toList) :
    decodeUtf8Scalar bytes (encode ch).length = some ch.val := by
  have htake := List.prefix_iff_eq_take.mp h
  have hpos := List.length_pos_iff.mpr (encode_ne_nil ch)
  have hle : (encode ch).length ≤ 4 := by
    have hlen := h.length_le
    rwa [Vector.length_toList] at hlen
  obtain ⟨a, b, c, d, rfl⟩ := seqBuffer_cases bytes
  change encode ch = [a, b, c, d].take (encode ch).length at htake
  generalize hn : (encode ch).length = n at htake hpos hle
  have hcases : n = 1 ∨ n = 2 ∨ n = 3 ∨ n = 4 := by omega
  rcases hcases with rfl | rfl | rfl | rfl
  · exact decodeUtf8Scalar_one htake
  · exact decodeUtf8Scalar_two htake
  · exact decodeUtf8Scalar_three htake
  · exact decodeUtf8Scalar_four htake

/-! ## Encoding -/

/-- A marker byte joined with payload bits below it. -/
theorem marker_or {m : UInt8} {v s k d : Nat} (hd : 2 ^ s = d) (hm : m.toNat % 2 ^ k = 0)
    (hfit : m.toNat + 2 ^ k ≤ 256) :
    m ||| .ofNat ((v >>> s) &&& (2 ^ k - 1)) = .ofNat (v / d % 2 ^ k + m.toNat) := by
  subst hd
  have hlt := Nat.mod_lt (v / 2 ^ s) (Nat.two_pow_pos k)
  rw [Nat.and_two_pow_sub_one_eq_mod, Nat.shiftRight_eq_div_pow, ← UInt8.toNat_inj, UInt8.toNat_or,
    UInt8.toNat_ofNat', UInt8.toNat_ofNat',
    Nat.mod_eq_of_lt (a := v / 2 ^ s % 2 ^ k) (b := 2 ^ 8) (by omega), or_eq_add hm hlt,
    Nat.mod_eq_of_lt (b := 2 ^ 8) (by omega), Nat.add_comm]

theorem tail_or (v : Nat) {s d : Nat} (hd : 2 ^ s = d) :
    (0x80 : UInt8) ||| .ofNat ((v >>> s) &&& 0x3F) = .ofNat (v / d % 0x40 + 0x80) :=
  marker_or (m := 0x80) (k := 6) hd (by decide) (by decide)

theorem tail_or_low (v : Nat) : (0x80 : UInt8) ||| .ofNat (v &&& 0x3F) = .ofNat (v % 0x40 + 0x80) := by
  have hlow := tail_or v (show 2 ^ 0 = 1 by decide)
  rwa [Nat.shiftRight_zero, Nat.div_one] at hlow

theorem encodeUtf8Scalar_natCast (v : Nat) :
    encodeUtf8Scalar v =
      if (0xD800 ≤ v ∧ v ≤ 0xDFFF) ∨ v > 0x10FFFF then none
      else if v ≤ 0x7F then some (#v[.ofNat v, 0, 0, 0], 1)
      else if v ≤ 0x7FF then
        some (#v[0xC0 ||| .ofNat ((v >>> 6) &&& 0x1F), 0x80 ||| .ofNat (v &&& 0x3F), 0, 0], 2)
      else if v ≤ 0xFFFF then
        some (#v[0xE0 ||| .ofNat ((v >>> 12) &&& 0x0F), 0x80 ||| .ofNat ((v >>> 6) &&& 0x3F),
          0x80 ||| .ofNat (v &&& 0x3F), 0], 3)
      else
        some (#v[0xF0 ||| .ofNat ((v >>> 18) &&& 0x07), 0x80 ||| .ofNat ((v >>> 12) &&& 0x3F),
          0x80 ||| .ofNat ((v >>> 6) &&& 0x3F), 0x80 ||| .ofNat (v &&& 0x3F)], 4) := by
  have hneg : ¬ (v : Int) < 0 := by omega
  unfold encodeUtf8Scalar
  rw [if_neg hneg]
  rfl

theorem encodeUtf8Scalar_one {v : Nat} (h : v ≤ 0x7F) :
    encodeUtf8Scalar v = some (#v[.ofNat v, 0, 0, 0], 1) := by
  rw [encodeUtf8Scalar_natCast, if_neg (by omega), if_pos h]

theorem encodeUtf8Scalar_two {v : Nat} (h1 : 0x7F < v) (h2 : v ≤ 0x7FF) :
    encodeUtf8Scalar v =
      some (#v[.ofNat (v / 64 % 0x20 + 0xC0), .ofNat (v % 0x40 + 0x80), 0, 0], 2) := by
  have ha : (0xC0 : UInt8) ||| .ofNat ((v >>> 6) &&& 0x1F) = .ofNat (v / 64 % 0x20 + 0xC0) :=
    marker_or (m := 0xC0) (k := 5) (by decide) (by decide) (by decide)
  have hb := tail_or_low v
  rw [encodeUtf8Scalar_natCast, if_neg (by omega), if_neg (by omega), if_pos h2, ha, hb]

theorem encodeUtf8Scalar_three {v : Nat} (hvalid : v < 0xD800 ∨ 0xDFFF < v) (h1 : 0x7FF < v)
    (h2 : v ≤ 0xFFFF) :
    encodeUtf8Scalar v =
      some (#v[.ofNat (v / 4096 % 0x10 + 0xE0), .ofNat (v / 64 % 0x40 + 0x80),
        .ofNat (v % 0x40 + 0x80), 0], 3) := by
  have ha : (0xE0 : UInt8) ||| .ofNat ((v >>> 12) &&& 0x0F) = .ofNat (v / 4096 % 0x10 + 0xE0) :=
    marker_or (m := 0xE0) (k := 4) (by decide) (by decide) (by decide)
  have hb := tail_or v (show 2 ^ 6 = 64 by decide)
  have hc := tail_or_low v
  rw [encodeUtf8Scalar_natCast, if_neg (by omega), if_neg (by omega), if_neg (by omega), if_pos h2, ha, hb, hc]

theorem encodeUtf8Scalar_four {v : Nat} (h1 : 0xFFFF < v) (h2 : v ≤ 0x10FFFF) :
    encodeUtf8Scalar v =
      some (#v[.ofNat (v / 262144 % 0x08 + 0xF0), .ofNat (v / 4096 % 0x40 + 0x80),
        .ofNat (v / 64 % 0x40 + 0x80), .ofNat (v % 0x40 + 0x80)], 4) := by
  have ha : (0xF0 : UInt8) ||| .ofNat ((v >>> 18) &&& 0x07) = .ofNat (v / 262144 % 0x08 + 0xF0) :=
    marker_or (m := 0xF0) (k := 3) (by decide) (by decide) (by decide)
  have hb := tail_or v (show 2 ^ 12 = 4096 by decide)
  have hc := tail_or v (show 2 ^ 6 = 64 by decide)
  have hd := tail_or_low v
  rw [encodeUtf8Scalar_natCast, if_neg (by omega), if_neg (by omega), if_neg (by omega), if_neg (by omega), ha, hb, hc, hd]

/-- A scalar value is written as its sequence. -/
theorem encodeUtf8Scalar_char (c : Char) :
    ∃ bytes, encodeUtf8Scalar c.toNat = some (bytes, (encode c).length) ∧
      bytes.toList.take (encode c).length = encode c := by
  have hvalid : c.toNat < 0xD800 ∨ (0xDFFF < c.toNat ∧ c.toNat < 0x110000) := c.valid
  by_cases h1 : c.toNat ≤ 0x7F
  · rw [encodeUtf8Scalar_one h1, encode_eq, if_pos h1]
    generalize UInt8.ofNat c.toNat = a
    exact ⟨_, rfl, rfl⟩
  by_cases h2 : c.toNat ≤ 0x7FF
  · rw [encodeUtf8Scalar_two (by omega) h2, encode_eq, if_neg h1, if_pos h2]
    generalize UInt8.ofNat (c.toNat / 64 % 0x20 + 0xC0) = a
    generalize UInt8.ofNat (c.toNat % 0x40 + 0x80) = b
    exact ⟨_, rfl, rfl⟩
  by_cases h3 : c.toNat ≤ 0xFFFF
  · rw [encodeUtf8Scalar_three (by omega) (by omega) h3, encode_eq, if_neg h1, if_neg h2, if_pos h3]
    generalize UInt8.ofNat (c.toNat / 4096 % 0x10 + 0xE0) = a
    generalize UInt8.ofNat (c.toNat / 64 % 0x40 + 0x80) = b
    generalize UInt8.ofNat (c.toNat % 0x40 + 0x80) = d
    exact ⟨_, rfl, rfl⟩
  · rw [encodeUtf8Scalar_four (by omega) (by omega), encode_eq, if_neg h1, if_neg h2, if_neg h3]
    generalize UInt8.ofNat (c.toNat / 262144 % 0x08 + 0xF0) = a
    generalize UInt8.ofNat (c.toNat / 4096 % 0x40 + 0x80) = b
    generalize UInt8.ofNat (c.toNat / 64 % 0x40 + 0x80) = d
    generalize UInt8.ofNat (c.toNat % 0x40 + 0x80) = e
    exact ⟨_, rfl, rfl⟩

/-- A `wchar_t` that is no scalar value is refused. -/
theorem encodeUtf8Scalar_none {wide : Int} (h : ∀ c : Char, wide ≠ c.toNat) :
    encodeUtf8Scalar wide = none := by
  unfold encodeUtf8Scalar
  by_cases hneg : wide < 0
  · rw [if_pos hneg]
  rw [if_neg hneg]
  dsimp only
  by_cases hbad : (0xD800 ≤ wide.toNat ∧ wide.toNat ≤ 0xDFFF) ∨ wide.toNat > 0x10FFFF
  · rw [if_pos hbad]
  · obtain ⟨c, hc⟩ := exists_char (n := wide.toNat) (by omega)
    refine absurd ?_ (h c)
    omega

end Rlibc.Wchar
