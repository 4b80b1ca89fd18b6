import Mathlib.Algebra.Group.Nat.Defs
import Mathlib.Data.List.Basic
import Mathlib.Tactic.SplitIfs

/-!
# UTF-8 sequences as byte lists

`Char` is the type of Unicode scalar values and `String.utf8EncodeChar` writes one of them as
UTF-8.  A byte list is well formed if it is a row of such sequences.  Here are the tables by which
a decoder recognises a sequence byte by byte, and the facts a decoder's proof needs: the sequences
are prefix-free, and every byte list has one longest row of sequences in front.
-/

namespace Utf8Sequences

/-- The bytes of one scalar value. -/
abbrev encode (c : Char) : List UInt8 := String.utf8EncodeChar c

/-- The byte list is the sequence of one scalar value. -/
def Complete (bs : List UInt8) : Prop := ∃ c, encode c = bs

/-- The byte list is the nonempty beginning of a longer sequence. -/
def Started (bs : List UInt8) : Prop := bs ≠ [] ∧ ∃ c, bs <+: encode c ∧ bs ≠ encode c

/-- The byte list is a row of sequences. -/
def WellFormed (bs : List UInt8) : Prop := ∃ cs : List Char, bs = cs.flatMap encode

/-- Some beginning of the byte list begins no sequence, before one is complete. -/
def Rejected (bs : List UInt8) : Prop :=
  ∃ pre, pre <+: bs ∧ (∀ c, ¬ pre <+: encode c) ∧ ∀ c, ¬ encode c <+: pre

/-- No sequence stands in front of the byte list. -/
def Stuck (bs : List UInt8) : Prop := ∀ c, ¬ encode c <+: bs

/-! ## The table of sequences -/

/-- `10xxxxxx`. -/
def Tail (b : UInt8) : Prop := 0x80 ≤ b.toNat ∧ b.toNat ≤ 0xBF

/-- The length of a sequence by its first byte, and 0 for a byte that starts none. -/
def seqLen (lead : UInt8) : Nat :=
  if lead.toNat < 0x80 then 1
  else if lead.toNat < 0xC2 then 0
  else if lead.toNat < 0xE0 then 2
  else if lead.toNat < 0xF0 then 3
  else if lead.toNat < 0xF5 then 4
  else 0

/-- The second bytes exclude overlong forms, surrogates and values above `0x10FFFF`. -/
def SecondFits (lead second : UInt8) : Prop :=
  Tail second ∧ (lead.toNat = 0xE0 → 0xA0 ≤ second.toNat) ∧
    (lead.toNat = 0xED → second.toNat ≤ 0x9F) ∧ (lead.toNat = 0xF0 → 0x90 ≤ second.toNat) ∧
    (lead.toNat = 0xF4 → second.toNat ≤ 0x8F)

/-- Each byte may stand where it stands. -/
def Fits : List UInt8 → Prop
  | [] => True
  | [lead] => seqLen lead ≠ 0
  | lead :: second :: rest => seqLen lead ≠ 0 ∧ SecondFits lead second ∧ ∀ b ∈ rest, Tail b

/-- The length that the first byte announces. -/
def leadLen : List UInt8 → Nat
  | [] => 0
  | lead :: _ => seqLen lead

/-- The payload bits of a first byte. -/
def leadBits (lead : UInt8) : Nat :=
  if lead.toNat < 0x80 then lead.toNat
  else if lead.toNat < 0xE0 then lead.toNat - 0xC0
  else if lead.toNat < 0xF0 then lead.toNat - 0xE0
  else lead.toNat - 0xF0

/-- The value that the payload bits spell: six bits for each byte after the first. -/
def scalar : List UInt8 → Nat
  | [] => 0
  | lead :: rest => rest.foldl (fun v b => v * 64 + (b.toNat - 0x80)) (leadBits lead)

theorem seqLen_le (lead : UInt8) : seqLen lead ≤ 4 := by
  unfold seqLen
  split_ifs <;> omega

theorem seqLen_eq_one {lead : UInt8} (h : seqLen lead = 1) : lead.toNat < 0x80 := by
  unfold seqLen at h
  split_ifs at h <;> omega

theorem seqLen_eq_two {lead : UInt8} (h : seqLen lead = 2) :
    0xC2 ≤ lead.toNat ∧ lead.toNat < 0xE0 := by
  unfold seqLen at h
  split_ifs at h <;> omega

theorem seqLen_eq_three {lead : UInt8} (h : seqLen lead = 3) :
    0xE0 ≤ lead.toNat ∧ lead.toNat < 0xF0 := by
  unfold seqLen at h
  split_ifs at h <;> omega

theorem seqLen_eq_four {lead : UInt8} (h : seqLen lead = 4) :
    0xF0 ≤ lead.toNat ∧ lead.toNat < 0xF5 := by
  unfold seqLen at h
  split_ifs at h <;> omega

/-- The four rows of the encoding. -/
theorem encode_eq (c : Char) :
    encode c =
      if c.toNat ≤ 0x7F then [.ofNat c.toNat]
      else if c.toNat ≤ 0x7FF then
        [.ofNat (c.toNat / 64 % 0x20 + 0xC0), .ofNat (c.toNat % 0x40 + 0x80)]
      else if c.toNat ≤ 0xFFFF then
        [.ofNat (c.toNat / 4096 % 0x10 + 0xE0), .ofNat (c.toNat / 64 % 0x40 + 0x80),
          .ofNat (c.toNat % 0x40 + 0x80)]
      else
        [.ofNat (c.toNat / 262144 % 0x08 + 0xF0), .ofNat (c.toNat / 4096 % 0x40 + 0x80),
          .ofNat (c.toNat / 64 % 0x40 + 0x80), .ofNat (c.toNat % 0x40 + 0x80)] := rfl

/-- The sequence of a scalar value obeys the table and spells the value. -/
theorem encode_row (c : Char) :
    Fits (encode c) ∧ (encode c).length = leadLen (encode c) ∧ scalar (encode c) = c.toNat := by
  have hvalid : c.toNat < 0xD800 ∨ (0xDFFF < c.toNat ∧ c.toNat < 0x110000) := c.valid
  rw [encode_eq]
  -- The four ranges of a code point, one for each length of its sequence.
  by_cases h1 : c.toNat ≤ 0x7F
  · rw [if_pos h1]
    have ha : c.toNat % 2 ^ 8 = c.toNat := Nat.mod_eq_of_lt (by omega)
    simp only [Fits, leadLen, scalar, leadBits, seqLen, UInt8.toNat_ofNat', List.length_singleton,
      List.foldl_nil, ha]
    rw [if_pos (by omega), if_pos (by omega)]
    omega
  rw [if_neg h1]
  by_cases h2 : c.toNat ≤ 0x7FF
  · rw [if_pos h2]
    have ha : (c.toNat / 64 % 0x20 + 0xC0) % 2 ^ 8 = c.toNat / 64 + 0xC0 := by omega
    have hb : (c.toNat % 0x40 + 0x80) % 2 ^ 8 = c.toNat % 64 + 0x80 := by omega
    simp only [Fits, leadLen, scalar, leadBits, seqLen, SecondFits, Tail, UInt8.toNat_ofNat',
      List.length_cons, List.length_nil, List.not_mem_nil, List.foldl_cons, List.foldl_nil, ha, hb]
    rw [if_neg (by omega), if_neg (by omega), if_pos (by omega), if_neg (by omega),
      if_pos (by omega)]
    refine ⟨⟨by omega, ⟨by omega, by omega, by omega, by omega, by omega⟩, ?_⟩, rfl, by omega⟩
    exact fun b hb => hb.elim
  rw [if_neg h2]
  by_cases h3 : c.toNat ≤ 0xFFFF
  · rw [if_pos h3]
    have ha : (c.toNat / 4096 % 0x10 + 0xE0) % 2 ^ 8 = c.toNat / 4096 + 0xE0 := by omega
    have hb : (c.toNat / 64 % 0x40 + 0x80) % 2 ^ 8 = c.toNat / 64 % 64 + 0x80 := by omega
    have hc : (c.toNat % 0x40 + 0x80) % 2 ^ 8 = c.toNat % 64 + 0x80 := by omega
    simp only [Fits, leadLen, scalar, leadBits, seqLen, SecondFits, Tail, UInt8.toNat_ofNat',
      List.length_cons, List.length_nil, List.mem_singleton, forall_eq, List.foldl_cons,
      List.foldl_nil, ha, hb, hc]
    rw [if_neg (by omega), if_neg (by omega), if_neg (by omega), if_pos (by omega),
      if_neg (by omega), if_neg (by omega), if_pos (by omega)]
    omega
  · rw [if_neg h3]
    have ha : (c.toNat / 262144 % 0x08 + 0xF0) % 2 ^ 8 = c.toNat / 262144 + 0xF0 := by omega
    have hb : (c.toNat / 4096 % 0x40 + 0x80) % 2 ^ 8 = c.toNat / 4096 % 64 + 0x80 := by omega
    have hc : (c.toNat / 64 % 0x40 + 0x80) % 2 ^ 8 = c.toNat / 64 % 64 + 0x80 := by omega
    have hd : (c.toNat % 0x40 + 0x80) % 2 ^ 8 = c.toNat % 64 + 0x80 := by omega
    simp only [Fits, leadLen, scalar, leadBits, seqLen, SecondFits, Tail, UInt8.toNat_ofNat',
      List.length_cons, List.length_nil, List.mem_cons, List.not_mem_nil, or_false,
      forall_eq_or_imp, forall_eq, List.foldl_cons, List.foldl_nil, ha, hb, hc, hd]
    rw [if_neg (by omega), if_neg (by omega), if_neg (by omega), if_neg (by omega),
      if_pos (by omega), if_neg (by omega), if_neg (by omega), if_neg (by omega)]
    omega

theorem exists_char {n : Nat} (h : n < 0xD800 ∨ (0xDFFF < n ∧ n < 0x110000)) :
    ∃ c : Char, c.toNat = n := ⟨Char.ofNatAux n h, rfl⟩

theorem ofNat_eq {n : Nat} {b : UInt8} (h : n = b.toNat) : UInt8.ofNat n = b := by
  rw [h, UInt8.ofNat_toNat]

/-- A byte list that obeys the table is the sequence of the value that it spells. -/
theorem exists_encode {lead : UInt8} {rest : List UInt8} (hfits : Fits (lead :: rest))
    (hlen : rest.length + 1 = seqLen lead) :
    ∃ c : Char, c.toNat = scalar (lead :: rest) ∧ encode c = lead :: rest := by
  have hle := seqLen_le lead
  have hlt := lead.toNat_lt
  -- The number of bytes says which row of the table the sequence is in.
  rcases rest with _ | ⟨b, _ | ⟨d, _ | ⟨e, rest⟩⟩⟩
  · have h1 := seqLen_eq_one hlen.symm
    simp only [scalar, leadBits, List.foldl_nil]
    rw [if_pos h1]
    obtain ⟨c, hc⟩ := exists_char (n := lead.toNat) (by omega)
    refine ⟨c, hc, ?_⟩
    rw [encode_eq, if_pos (by omega), ofNat_eq hc]
  · have h1 := seqLen_eq_two hlen.symm
    simp only [Fits, SecondFits, Tail] at hfits
    simp only [scalar, leadBits, List.foldl_cons, List.foldl_nil]
    rw [if_neg (by omega), if_pos h1.2]
    obtain ⟨c, hc⟩ := exists_char (n := (lead.toNat - 0xC0) * 64 + (b.toNat - 0x80)) (by omega)
    refine ⟨c, hc, ?_⟩
    rw [encode_eq, if_neg (by omega), if_pos (by omega), ofNat_eq (b := lead) (by omega),
      ofNat_eq (b := b) (by omega)]
  · have h1 := seqLen_eq_three hlen.symm
    simp only [Fits, SecondFits, Tail, List.mem_singleton, forall_eq] at hfits
    simp only [scalar, leadBits, List.foldl_cons, List.foldl_nil]
    rw [if_neg (by omega), if_neg (by omega), if_pos h1.2]
    obtain ⟨c, hc⟩ := exists_char
      (n := ((lead.toNat - 0xE0) * 64 + (b.toNat - 0x80)) * 64 + (d.toNat - 0x80)) (by omega)
    refine ⟨c, hc, ?_⟩
    rw [encode_eq, if_neg (by omega), if_neg (by omega), if_pos (by omega),
      ofNat_eq (b := lead) (by omega), ofNat_eq (b := b) (by omega), ofNat_eq (b := d) (by omega)]
  · have hrest : rest = [] := by
      simp only [List.length_cons] at hlen
      exact List.eq_nil_of_length_eq_zero (by omega)
    subst hrest
    have h1 := seqLen_eq_four hlen.symm
    simp only [Fits, SecondFits, Tail, List.mem_cons, List.not_mem_nil, or_false,
      forall_eq_or_imp, forall_eq] at hfits
    simp only [scalar, leadBits, List.foldl_cons, List.foldl_nil]
    rw [if_neg (by omega), if_neg (by omega), if_neg (by omega)]
    obtain ⟨c, hc⟩ := exists_char
      (n := (((lead.toNat - 0xF0) * 64 + (b.toNat - 0x80)) * 64 + (d.toNat - 0x80)) * 64 +
        (e.toNat - 0x80)) (by omega)
    refine ⟨c, hc, ?_⟩
    rw [encode_eq, if_neg (by omega), if_neg (by omega), if_neg (by omega),
      ofNat_eq (b := lead) (by omega), ofNat_eq (b := b) (by omega), ofNat_eq (b := d) (by omega),
      ofNat_eq (b := e) (by omega)]

/-- Only U+0000 has a zero byte. -/
theorem zero_mem_encode {c : Char} (h : 0 ∈ encode c) : encode c = [0] ∧ c.toNat = 0 := by
  obtain ⟨hfits, hlen, hscalar⟩ := encode_row c
  cases hc : encode c with
  | nil => exact absurd (hc ▸ h) List.not_mem_nil
  | cons lead rest =>
    rw [hc] at h hfits hlen hscalar
    cases List.mem_cons.mp h with
    | inl hlead =>
      subst hlead
      have hrest : rest = [] := List.eq_nil_of_length_eq_zero (Nat.succ.inj hlen)
      subst hrest
      exact ⟨rfl, hscalar.symm⟩
    | inr hmem =>
      have htail : Tail 0 := by
        cases rest with
        | nil => exact absurd hmem List.not_mem_nil
        | cons second rest =>
          cases List.mem_cons.mp hmem with
          | inl hsecond => exact hsecond ▸ hfits.2.1.1
          | inr hmem => exact hfits.2.2 0 hmem
      exact absurd htail.1 (by decide)

/-! ## Completeness and beginnings by the table -/

theorem encode_ne_nil (c : Char) : encode c ≠ [] := by
  intro h
  have hlen : (encode c).length = c.utf8Size := String.length_utf8EncodeChar c
  have hpos := c.utf8Size_pos
  rw [h, List.length_nil] at hlen
  omega

theorem encode_injective {c d : Char} (h : encode c = encode d) : c = d := by
  have hc := (encode_row c).2.2
  have hd := (encode_row d).2.2
  rw [h, hd] at hc
  exact Char.toNat_inj.mp hc.symm

theorem complete_iff {bs : List UInt8} :
    Complete bs ↔ bs ≠ [] ∧ Fits bs ∧ bs.length = leadLen bs := by
  constructor
  · rintro ⟨c, rfl⟩
    exact ⟨encode_ne_nil c, (encode_row c).1, (encode_row c).2.1⟩
  · rintro ⟨hne, hfits, hlen⟩
    cases bs with
    | nil => exact absurd rfl hne
    | cons lead rest =>
      obtain ⟨c, _, hc⟩ := exists_encode hfits hlen
      exact ⟨c, hc⟩

theorem encode_length_le (c : Char) : (encode c).length ≤ 4 := by
  have hlen : (encode c).length = c.utf8Size := String.length_utf8EncodeChar c
  rw [hlen]
  exact c.utf8Size_le_four

/-- Beginnings of byte lists that obey the table obey it. -/
theorem Fits.of_begins {bs cs : List UInt8} (h : Fits cs) (hpre : bs <+: cs) : Fits bs := by
  obtain ⟨more, rfl⟩ := hpre
  rcases bs with _ | ⟨a, _ | ⟨b, rest⟩⟩
  · exact trivial
  · rcases more with _ | ⟨b, more⟩
    · exact h
    · exact h.1
  · refine ⟨h.1, h.2.1, ?_⟩
    intro x hx
    exact h.2.2 x (List.mem_append_left _ hx)

theorem leadLen_of_begins {bs cs : List UInt8} (hne : bs ≠ []) (hpre : bs <+: cs) :
    leadLen bs = leadLen cs := by
  obtain ⟨more, rfl⟩ := hpre
  cases bs with
  | nil => exact absurd rfl hne
  | cons a rest => rfl

/-- A second byte that every multibyte lead accepts after it. -/
def filler (lead : UInt8) : UInt8 :=
  if lead.toNat = 0xE0 then 0xA0 else if lead.toNat = 0xF0 then 0x90 else 0x80

theorem secondFits_filler (lead : UInt8) : SecondFits lead (filler lead) := by
  unfold SecondFits filler Tail
  split_ifs with h1 h2
  · rw [h1]
    decide
  · rw [h2]
    decide
  · refine ⟨by decide, ?_, ?_, ?_, ?_⟩
    · exact fun h => absurd h h1
    · exact fun _ => by decide
    · exact fun h => absurd h h2
    · exact fun _ => by decide

theorem tail_filler : Tail 0x80 := by
  unfold Tail
  decide

/-- The beginnings of sequences are the byte lists that obey the table and are shorter than
their first byte announces. -/
theorem started_iff {bs : List UInt8} :
    Started bs ↔ bs ≠ [] ∧ Fits bs ∧ bs.length < leadLen bs := by
  constructor
  -- A beginning of a sequence inherits its lead byte and its rows.
  · rintro ⟨hne, c, hpre, hneq⟩
    have hrow := encode_row c
    refine ⟨hne, hrow.1.of_begins hpre, ?_⟩
    rw [leadLen_of_begins hne hpre, ← hrow.2.1]
    have hle := hpre.length_le
    have hlt : bs.length ≠ (encode c).length := fun h => hneq (hpre.eq_of_length h)
    omega
  -- Bytes that fit can be filled up to a whole sequence, which is some character's.
  · rintro ⟨hne, hfits, hlen⟩
    refine ⟨hne, ?_⟩
    rcases bs with _ | ⟨a, _ | ⟨b, rest⟩⟩
    · exact absurd rfl hne
    · -- One byte: a second one that fits, then plain tail bytes.
      have hlong : 1 < seqLen a := hlen
      have hext : Fits (a :: filler a :: List.replicate (seqLen a - 2) 0x80) := by
        refine ⟨hfits, secondFits_filler a, ?_⟩
        intro x hx
        rw [List.eq_of_mem_replicate hx]
        exact tail_filler
      obtain ⟨c, _, hc⟩ := exists_encode hext (by
        rw [List.length_cons, List.length_replicate]
        omega)
      refine ⟨c, ⟨_, hc.symm⟩, ?_⟩
      intro heq
      rw [← heq] at hc
      simp at hc
    · have hlong : rest.length + 2 < seqLen a := hlen
      have hext : Fits (a :: b :: (rest ++ List.replicate (seqLen a - rest.length - 2) 0x80)) := by
        refine ⟨hfits.1, hfits.2.1, ?_⟩
        intro x hx
        rw [List.mem_append] at hx
        cases hx with
        | inl hx => exact hfits.2.2 x hx
        | inr hx =>
          rw [List.eq_of_mem_replicate hx]
          exact tail_filler
      have hsum : (b :: (rest ++ List.replicate (seqLen a - rest.length - 2)
          (0x80 : UInt8))).length + 1 = seqLen a := by
        rw [List.length_cons, List.length_append, List.length_replicate]
        omega
      obtain ⟨c, _, hc⟩ := exists_encode hext hsum
      refine ⟨c, ⟨_, hc.symm⟩, ?_⟩
      intro heq
      have hcl : (encode c).length = seqLen a := by
        rw [hc, List.length_cons]
        exact hsum
      rw [← heq] at hcl
      simp only [List.length_cons] at hcl
      omega

/-- Behind the second byte only tail bytes can follow. -/
theorem Fits.concat {a b x : UInt8} {rest : List UInt8} (h : Fits (a :: b :: rest)) (hx : Tail x) :
    Fits (a :: b :: rest ++ [x]) := by
  refine ⟨h.1, h.2.1, ?_⟩
  intro y hy
  cases List.mem_append.mp hy with
  | inl hy => exact h.2.2 y hy
  | inr hy =>
    rw [List.mem_singleton.mp hy]
    exact hx

theorem Fits.tail_of_concat {a x : UInt8} {rest : List UInt8} (h : Fits (a :: rest ++ [x])) :
    Tail x := by
  cases rest with
  | nil => exact h.2.1.1
  | cons b rest => exact h.2.2 x (List.mem_append_right _ (List.mem_singleton_self x))

/-- A two-byte sequence takes any tail byte. -/
theorem secondFits_of_two {a x : UInt8} (ha : seqLen a = 2) (hx : Tail x) : SecondFits a x := by
  have hrange := seqLen_eq_two ha
  exact ⟨hx, by omega, by omega, by omega, by omega⟩

/-! ## Rows of sequences -/

/-- No sequence begins another one. -/
theorem encode_begins {c d : Char} (h : encode c <+: encode d) : c = d := by
  apply encode_injective
  apply h.eq_of_length
  rw [(encode_row c).2.1, (encode_row d).2.1]
  exact leadLen_of_begins (encode_ne_nil c) h

/-- At most one sequence stands in front of a byte list. -/
theorem encode_unique {c d : Char} {bs : List UInt8} (hc : encode c <+: bs) (hd : encode d <+: bs) :
    c = d := by
  rcases Nat.le_total (encode c).length (encode d).length with hle | hle
  · exact encode_begins (List.prefix_of_prefix_length_le hc hd hle)
  · exact (encode_begins (List.prefix_of_prefix_length_le hd hc hle)).symm

theorem Started.stuck {bs : List UInt8} (h : Started bs) : Stuck bs := by
  obtain ⟨_, d, hpre, hneq⟩ := h
  intro c hc
  have heq := encode_begins (hc.trans hpre)
  subst heq
  exact hneq (hpre.eq_of_length (Nat.le_antisymm hpre.length_le hc.length_le))

/-- What begins a sequence is the whole of it or a proper beginning. -/
theorem started_or_complete {bs : List UInt8} {c : Char} (hne : bs ≠ []) (h : bs <+: encode c) :
    Started bs ∨ Complete bs := by
  by_cases heq : bs = encode c
  · exact Or.inr ⟨c, heq.symm⟩
  · exact Or.inl ⟨hne, c, h, heq⟩

/-- A rejected byte list is no beginning of a sequence. -/
theorem Rejected.not_started {bs : List UInt8} (h : Rejected bs) : ¬ Started bs := by
  rintro ⟨_, c, hpre, _⟩
  obtain ⟨pre, hbs, hno, _⟩ := h
  exact hno c (hbs.trans hpre)

/-- A rejected byte list has no sequence in front. -/
theorem Rejected.stuck {bs : List UInt8} (h : Rejected bs) : Stuck bs := by
  obtain ⟨pre, hbs, hno, hpre⟩ := h
  intro c hc
  rcases Nat.le_total pre.length (encode c).length with hle | hle
  · exact hno c (List.prefix_of_prefix_length_le hbs hc hle)
  · exact hpre c (List.prefix_of_prefix_length_le hc hbs hle)

theorem Rejected.append {bs : List UInt8} (h : Rejected bs) (more : List UInt8) :
    Rejected (bs ++ more) := by
  obtain ⟨pre, hbs, hno, hpre⟩ := h
  exact ⟨pre, hbs.trans (List.prefix_append _ _), hno, hpre⟩

/-- A byte that neither continues nor completes what stands before it rejects the list. -/
theorem rejected_concat {bs : List UInt8} {b : UInt8} (hstuck : Stuck bs)
    (hs : ¬ Started (bs ++ [b])) (hc : ¬ Complete (bs ++ [b])) : Rejected (bs ++ [b]) := by
  have hne : bs ++ [b] ≠ [] := List.append_ne_nil_of_right_ne_nil _ (List.cons_ne_nil _ _)
  refine ⟨bs ++ [b], List.prefix_refl _, ?_, ?_⟩
  · intro c hpre
    cases started_or_complete hne hpre with
    | inl h => exact hs h
    | inr h => exact hc h
  · intro c hpre
    rcases List.prefix_concat_iff.mp hpre with heq | hbs
    · exact hc ⟨c, heq⟩
    · exact hstuck c hbs

theorem stuck_nil : Stuck [] := by
  intro c hc
  exact encode_ne_nil c (List.prefix_nil.mp hc)

/-- Every byte list is a row of sequences and a rest that no sequence begins. -/
theorem exists_segments (bs : List UInt8) :
    ∃ (cs : List Char) (rest : List UInt8), bs = cs.flatMap encode ++ rest ∧ Stuck rest := by
  induction hn : bs.length using Nat.strongRecOn generalizing bs with
  | ind n ih =>
    by_cases hstuck : Stuck bs
    · exact ⟨[], bs, rfl, hstuck⟩
    · unfold Stuck at hstuck
      push Not at hstuck
      obtain ⟨c, more, hc⟩ := hstuck
      have hpos := List.length_pos_iff.mpr (encode_ne_nil c)
      have hlen : (encode c).length + more.length = bs.length := by
        rw [← List.length_append, hc]
      obtain ⟨cs, rest, hmore, hrest⟩ := ih more.length (by omega) more rfl
      refine ⟨c :: cs, rest, ?_, hrest⟩
      rw [← hc, hmore, List.flatMap_cons, List.append_assoc]

/-- The row and the rest are determined. -/
theorem segments_unique {cs ds : List Char} {r r' : List UInt8} (hr : Stuck r) (hr' : Stuck r')
    (h : cs.flatMap encode ++ r = ds.flatMap encode ++ r') : cs = ds ∧ r = r' := by
  induction cs generalizing ds with
  | nil =>
    cases ds with
    | nil => exact ⟨rfl, h⟩
    | cons d ds =>
      refine absurd ?_ (hr d)
      change r = _ at h
      rw [h, List.flatMap_cons, List.append_assoc]
      exact List.prefix_append _ _
  | cons c cs ih =>
    cases ds with
    | nil =>
      refine absurd ?_ (hr' c)
      change _ = r' at h
      rw [← h, List.flatMap_cons, List.append_assoc]
      exact List.prefix_append _ _
    | cons d ds =>
      simp only [List.flatMap_cons, List.append_assoc] at h
      have hd : encode d <+: encode c ++ (cs.flatMap encode ++ r) := by
        rw [h]
        exact List.prefix_append _ _
      have hcd : c = d := encode_unique (List.prefix_append _ _) hd
      subst hcd
      have hrest := ih (List.append_cancel_left h)
      exact ⟨by rw [hrest.1], hrest.2⟩

theorem wellFormed_iff {cs : List Char} {r : List UInt8} (hr : Stuck r) :
    WellFormed (cs.flatMap encode ++ r) ↔ r = [] := by
  constructor
  · rintro ⟨ds, hds⟩
    rw [← List.append_nil (ds.flatMap encode)] at hds
    exact (segments_unique hr stuck_nil hds).2
  · rintro rfl
    exact ⟨cs, List.append_nil _⟩

end Utf8Sequences
