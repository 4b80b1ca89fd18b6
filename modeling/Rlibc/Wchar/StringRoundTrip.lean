import Rlibc.Wchar.StringLoops

/-!
# `mbstowcs` and `wcstombs` are inverse

On the characters in front of the first byte, or the first element, that does not belong to a
character, both functions carry one representation over into the other.
-/

namespace Rlibc.Wchar

open Utf8Sequences

theorem length_le_flatMap (cs : List Char) : cs.length ≤ (cs.flatMap encode).length := by
  induction cs with
  | nil => exact Nat.le_refl 0
  | cons c cs ih =>
    have hpos := List.length_pos_iff.mpr (encode_ne_nil c)
    rw [List.flatMap_cons, List.length_append, List.length_cons]
    omega

theorem flatMap_length_le (cs : List Char) : (cs.flatMap encode).length ≤ 4 * cs.length := by
  induction cs with
  | nil => exact Nat.le_refl 0
  | cons c cs ih =>
    have hle := encode_length_le c
    rw [List.flatMap_cons, List.length_append, List.length_cons]
    omega

/-- A text has at least one byte for each of its characters, and one more for a rest. -/
theorem Split.count_le {text stuck : List UInt8} {cs : List Char} (h : Split [] text cs stuck) :
    cs.length + stuck.length ≤ text.length := by
  have hlen := congrArg List.length h.eq
  have hle := length_le_flatMap cs
  rw [List.nil_append, List.length_append] at hlen
  omega

theorem Split.wellFormed_iff {text stuck : List UInt8} {cs : List Char}
    (h : Split [] text cs stuck) : WellFormed text ↔ stuck = [] := by
  have heq : text = cs.flatMap encode ++ stuck := h.eq
  rw [heq]
  exact Utf8Sequences.wellFormed_iff h.stuck

/-! ## One call -/

theorem mbstowcs_roomy {text stuck : List UInt8} {cs : List Char} (hnul : 0 ∉ text)
    (h : Split [] text cs stuck) {dst : Option Nat} (hroom : Roomy dst cs.length) :
    mbstowcs dst (some text) =
      if stuck = [] then ⟨cs.length, storedIn dst (wides cs ++ [0]), none⟩
      else sizeTErrorWithEilseq (storedIn dst (wides cs)) := by
  have hzero : dst ≠ some 0 := fun heq => absurd (hroom 0 heq) (Nat.not_lt_zero _)
  have hroom' : Roomy dst (([] : List Int).length + cs.length) := by
    rw [List.length_nil, Nat.zero_add]
    exact hroom
  have hloop := toWideLoop_ends MbState.new_valid hnul h [] hroom'
  unfold mbstowcs
  dsimp only
  rw [if_neg hzero, hloop, List.nil_append]
  by_cases hnil : stuck = []
  · rw [if_pos hnil, if_pos hnil, wides_length]
  · rw [if_neg hnil, if_neg hnil]

theorem mbstowcs_exact {text stuck : List UInt8} {cs : List Char} (hnul : 0 ∉ text)
    (h : Split [] text cs stuck) :
    mbstowcs (some cs.length) (some text) = ⟨cs.length, wides cs, none⟩ := by
  unfold mbstowcs
  dsimp only
  cases cs with
  | nil =>
    rw [List.length_nil, if_pos rfl]
    rfl
  | cons c cs =>
    have hloop := toWideLoop_fills MbState.new_valid hnul h [] (Nat.le_refl _)
    rw [List.length_nil, Nat.zero_add, List.take_length, List.nil_append] at hloop
    rw [if_neg (by simp), hloop]
    dsimp only
    rw [wides_length]
    rfl

theorem wcstombs_roomy {units bad : List Int} {cs : List Char} (h : WideSplit units cs bad)
    {dst : Option Nat} (hroom : Roomy dst (cs.flatMap encode).length) :
    wcstombs dst (some units) =
      if bad = [] then
        ⟨(cs.flatMap encode).length, storedIn dst (cs.flatMap encode ++ [0]), none⟩
      else sizeTErrorWithEilseq (storedIn dst (cs.flatMap encode)) := by
  have hzero : dst ≠ some 0 := fun heq => absurd (hroom 0 heq) (Nat.not_lt_zero _)
  have hroom' : Roomy dst (([] : List UInt8).length + (cs.flatMap encode).length) := by
    rw [List.length_nil, Nat.zero_add]
    exact hroom
  have hloop := wcstombsLoop_ends cs h.bad hroom'
  unfold wcstombs
  dsimp only
  rw [if_neg hzero, h.eq, hloop, List.nil_append]
  by_cases hnil : bad = []
  · rw [if_pos hnil, if_pos hnil]
  · rw [if_neg hnil, if_neg hnil]

theorem wcstombs_exact {units bad : List Int} {cs : List Char} (h : WideSplit units cs bad) :
    wcstombs (some (cs.flatMap encode).length) (some units) =
      ⟨(cs.flatMap encode).length, cs.flatMap encode, none⟩ := by
  unfold wcstombs
  dsimp only
  by_cases hzero : (cs.flatMap encode).length = 0
  · rw [hzero, if_pos rfl, List.eq_nil_of_length_eq_zero hzero]
  · have hloop := @wcstombsLoop_exact bad [] cs
    rw [List.length_nil, Nat.zero_add, List.nil_append] at hloop
    rw [if_neg (by simp only [Option.some.injEq]; exact hzero), h.eq, hloop]
    rfl

/-! ## The two functions together -/

theorem wides_nonzero {cs : List Char} (h : 0 ∉ wides cs) : ∀ c ∈ cs, c.toNat ≠ 0 := by
  intro c hc hzero
  refine h (List.mem_map.mpr ⟨c, hc, ?_⟩)
  rw [hzero]
  rfl

theorem zero_notMem_flatMap {cs : List Char} (h : ∀ c ∈ cs, c.toNat ≠ 0) :
    0 ∉ cs.flatMap encode := by
  intro hmem
  obtain ⟨c, hc, hbyte⟩ := List.mem_flatMap.mp hmem
  exact h c hc (zero_mem_encode hbyte).2

/-- A row of characters is cut behind its last one. -/
theorem split_flatMap (cs : List Char) : Split [] (cs.flatMap encode) cs [] :=
  ⟨(List.append_nil _).symm, stuck_nil⟩

theorem wideSplit_wides (cs : List Char) : WideSplit (wides cs) cs [] :=
  ⟨(List.append_nil _).symm, fun _ _ h => absurd h.symm (List.cons_ne_nil _ _)⟩

theorem WideSplit.bad_iff {units bad : List Int} {cs : List Char} (h : WideSplit units cs bad) :
    bad ≠ [] ↔ ∃ wide ∈ units, ∀ c : Char, wide ≠ c.toNat := by
  rw [h.eq]
  constructor
  · intro hne
    cases hbad : bad with
    | nil => exact absurd hbad hne
    | cons wide rest =>
      exact ⟨wide, List.mem_append_right _ List.mem_cons_self, h.bad wide rest hbad⟩
  · rintro ⟨wide, hmem, hscalar⟩ hnil
    rw [hnil, List.append_nil] at hmem
    obtain ⟨c, _, hc⟩ := List.mem_map.mp hmem
    exact hscalar c hc.symm

theorem roomy_some {room count : Nat} (h : count < room) : Roomy (some room) count := by
  intro n hn
  rw [Option.some.injEq] at hn
  exact hn ▸ h

theorem Roomy.mono {dst : Option Nat} {count more : Nat} (h : Roomy dst more) (hle : count ≤ more) :
    Roomy dst count := fun n hn => Nat.lt_of_le_of_lt hle (h n hn)

theorem mbstowcs_fails_iff (text : CText) {dst : Option Nat} (hroom : Roomy dst text.bytes.length) :
    (mbstowcs dst (some text.bytes)).ret = usizeMax ↔ ¬ WellFormed text.bytes := by
  obtain ⟨cs, stuck, hsplit⟩ := exists_split [] text.bytes
  have hcount := hsplit.count_le
  have hfits := text.fits
  rw [mbstowcs_roomy text.noNul hsplit (hroom.mono (by omega)), hsplit.wellFormed_iff]
  by_cases hnil : stuck = []
  · rw [if_pos hnil]
    exact ⟨fun h => by dsimp only at h; omega, fun h => absurd hnil h⟩
  · rw [if_neg hnil]
    exact ⟨fun _ => hnil, fun _ => rfl⟩

theorem wcstombs_fails_iff (wide : WideText) {dst : Option Nat}
    (hroom : Roomy dst (4 * wide.units.length)) :
    (wcstombs dst (some wide.units)).ret = usizeMax ↔
      ∃ w ∈ wide.units, ∀ c : Char, w ≠ c.toNat := by
  obtain ⟨cs, bad, hsplit⟩ := exists_wideSplit wide.units
  have hlen := congrArg List.length hsplit.eq
  rw [List.length_append, wides_length] at hlen
  have hcount := flatMap_length_le cs
  have hfits := wide.fits
  rw [wcstombs_roomy hsplit (hroom.mono (by omega)), ← hsplit.bad_iff]
  by_cases hnil : bad = []
  · rw [if_pos hnil]
    exact ⟨fun h => by dsimp only at h; omega, fun h => absurd hnil h⟩
  · rw [if_neg hnil]
    exact ⟨fun _ => hnil, fun _ => rfl⟩

/-- The counting call of `mbstowcs` announces what a destination of that size takes. -/
theorem mbstowcs_count (text : CText) {room : Nat}
    (hroom : (mbstowcs none (some text.bytes)).ret ≤ room) :
    (mbstowcs (some room) (some text.bytes)).ret = (mbstowcs none (some text.bytes)).ret := by
  obtain ⟨cs, stuck, hsplit⟩ := exists_split [] text.bytes
  have hcount := hsplit.count_le
  have hfits := text.fits
  have hnone : Roomy none cs.length := fun n hn => absurd hn.symm (Option.some_ne_none n)
  rw [mbstowcs_roomy text.noNul hsplit hnone] at hroom ⊢
  by_cases hnil : stuck = []
  · rw [if_pos hnil] at hroom ⊢
    rcases Nat.eq_or_lt_of_le hroom with heq | hlt
    · rw [← heq]
      dsimp only
      rw [mbstowcs_exact text.noNul hsplit]
    · rw [mbstowcs_roomy text.noNul hsplit (roomy_some hlt), if_pos hnil]
  · rw [if_neg hnil] at hroom ⊢
    have hmax : usizeMax ≤ room := hroom
    have hlt : cs.length < room := by omega
    rw [mbstowcs_roomy text.noNul hsplit (roomy_some hlt), if_neg hnil]
    rfl

/-- The counting call of `wcstombs` announces what a destination of that size takes. -/
theorem wcstombs_count (wide : WideText) {room : Nat}
    (hroom : (wcstombs none (some wide.units)).ret ≤ room) :
    (wcstombs (some room) (some wide.units)).ret = (wcstombs none (some wide.units)).ret := by
  obtain ⟨cs, bad, hsplit⟩ := exists_wideSplit wide.units
  have hlen := congrArg List.length hsplit.eq
  rw [List.length_append, wides_length] at hlen
  have hcount := flatMap_length_le cs
  have hfits := wide.fits
  have hnone : Roomy none (cs.flatMap encode).length :=
    fun n hn => absurd hn.symm (Option.some_ne_none n)
  rw [wcstombs_roomy hsplit hnone] at hroom ⊢
  by_cases hnil : bad = []
  · rw [if_pos hnil] at hroom ⊢
    rcases Nat.eq_or_lt_of_le hroom with heq | hlt
    · rw [← heq]
      dsimp only
      rw [wcstombs_exact hsplit]
    · rw [wcstombs_roomy hsplit (roomy_some hlt), if_pos hnil]
  · rw [if_neg hnil] at hroom ⊢
    have hmax : usizeMax ≤ room := hroom
    have hlt : (cs.flatMap encode).length < room := by omega
    rw [wcstombs_roomy hsplit (roomy_some hlt), if_neg hnil]
    rfl

/-- **Whole-string conversions are inverse.**  Scalar values go to bytes and back, well-formed
texts go to wide characters and back, exactly the other strings are refused, and a counting call
announces what a large enough destination takes. -/
theorem string_conversions_inverse :
    (∀ wide : WideText, (∀ w ∈ wide.units, ∃ c : Char, w = c.toNat) →
      ∃ text : CText,
        (∀ room, text.bytes.length < room → wcstombs (some room) (some wide.units) =
          ⟨text.bytes.length, text.bytes ++ [0], none⟩) ∧
        ∀ room, wide.units.length < room → mbstowcs (some room) (some text.bytes) =
          ⟨wide.units.length, wide.units ++ [0], none⟩) ∧
      (∀ text : CText, WellFormed text.bytes →
        ∃ units : List Int,
          (∀ room, units.length < room → mbstowcs (some room) (some text.bytes) =
            ⟨units.length, units ++ [0], none⟩) ∧
          ∀ room, text.bytes.length < room → wcstombs (some room) (some units) =
            ⟨text.bytes.length, text.bytes ++ [0], none⟩) ∧
      (∀ (text : CText) (dst : Option Nat), Roomy dst text.bytes.length →
        ((mbstowcs dst (some text.bytes)).ret = usizeMax ↔ ¬ WellFormed text.bytes)) ∧
      (∀ (wide : WideText) (dst : Option Nat), Roomy dst (4 * wide.units.length) →
        ((wcstombs dst (some wide.units)).ret = usizeMax ↔
          ∃ w ∈ wide.units, ∀ c : Char, w ≠ c.toNat)) ∧
      (∀ (text : CText) (room : Nat), (mbstowcs none (some text.bytes)).ret ≤ room →
        (mbstowcs (some room) (some text.bytes)).ret = (mbstowcs none (some text.bytes)).ret) ∧
      ∀ (wide : WideText) (room : Nat), (wcstombs none (some wide.units)).ret ≤ room →
        (wcstombs (some room) (some wide.units)).ret = (wcstombs none (some wide.units)).ret := by
  refine ⟨?_, ?_, fun text dst => mbstowcs_fails_iff text, fun wide dst => wcstombs_fails_iff wide,
    fun text room => mbstowcs_count text, fun wide room => wcstombs_count wide⟩
  · intro wide hscalar
    obtain ⟨cs, bad, hsplit⟩ := exists_wideSplit wide.units
    -- A row of scalar values has no bad one, so it is a row of characters.
    have hnil : bad = [] := by
      by_contra hbad
      obtain ⟨w, hw, hno⟩ := hsplit.bad_iff.mp hbad
      obtain ⟨c, hc⟩ := hscalar w hw
      exact hno c hc
    have hunits : wide.units = wides cs := by
      rw [hsplit.eq, hnil, List.append_nil]
    have hlen : wide.units.length = cs.length := by
      rw [hunits, wides_length]
    have hcount := flatMap_length_le cs
    have hfits := wide.fits
    have hnul := zero_notMem_flatMap (wides_nonzero (hunits ▸ wide.noNul))
    refine ⟨⟨cs.flatMap encode, hnul, by omega⟩, ?_, ?_⟩
    · intro room hroom
      rw [wcstombs_roomy hsplit (roomy_some hroom), if_pos hnil]
      rfl
    · intro room hroom
      rw [hlen] at hroom
      rw [mbstowcs_roomy hnul (split_flatMap cs) (roomy_some hroom), if_pos rfl, hlen, hunits]
      rfl
  · rintro text ⟨cs, hcs⟩
    -- Well formed bytes are the bytes of some characters, and these are their wide ones.
    have hsplit : Split [] text.bytes cs [] := hcs ▸ split_flatMap cs
    refine ⟨wides cs, ?_, ?_⟩
    · intro room hroom
      rw [wides_length] at hroom ⊢
      rw [mbstowcs_roomy text.noNul hsplit (roomy_some hroom), if_pos rfl]
      rfl
    · intro room hroom
      rw [hcs] at hroom ⊢
      rw [wcstombs_roomy (wideSplit_wides cs) (roomy_some hroom), if_pos rfl]
      rfl

/-- The three bytes of U+20AC, which are well formed, in a wide string and back. -/
theorem string_conversions_euro :
    WellFormed [0xE2, 0x82, 0xAC] ∧ ∃ units : List Int,
      (∀ room, units.length < room → mbstowcs (some room) (some [0xE2, 0x82, 0xAC]) =
        ⟨units.length, units ++ [0], none⟩) ∧
      ∀ room, 3 < room → wcstombs (some room) (some units) =
        ⟨3, [0xE2, 0x82, 0xAC, 0], none⟩ := by
  have hformed : WellFormed [0xE2, 0x82, 0xAC] := ⟨['€'], by decide⟩
  exact ⟨hformed, string_conversions_inverse.2.1 ⟨[0xE2, 0x82, 0xAC], by decide, by decide⟩ hformed⟩

end Rlibc.Wchar
