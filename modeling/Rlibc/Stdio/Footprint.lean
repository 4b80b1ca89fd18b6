import Rlibc.Stdio.FormatActions

/-!
# What formatting touches

The bytes that a directive reads besides the format: the slots of its arguments, and its string.
Memories that agree on them give it the same action.
-/

namespace Rlibc.Stdio

open ByteMem ByteOrder

/-- The bytes of the slot that is read next. -/
def slotBytes (c : VarArgCursor) (b : Nat) : Prop :=
  ∃ r, c.nextSlot = some r ∧ r.1 ≤ b ∧ b < r.1 + 8

/-- The bytes of a string that are looked at: up to its NUL, or as far as the precision goes. -/
def stringBytes (m : Mem) (pointer : Nat) (precision : Option Nat) (b : Nat) : Prop :=
  pointer ≤ b ∧ b ≤ pointer + cStringPrefixLen m pointer precision ∧
    b < pointer + precision.getD usizeMax

/-- The bytes of the asterisks' arguments. -/
def countsReads (m : Mem) (c : VarArgCursor) (d : FormatDirective) (b : Nat) : Prop :=
  (d.width = some .fromArgs ∧ slotBytes c b) ∨
  ∃ width, resolveWidth m d.width c d.flags.leftAlign = some width ∧
    d.precision = some .fromArgs ∧ slotBytes width.2 b

/-- The bytes that a directive reads. -/
def directiveReads (m : Mem) (c : VarArgCursor) (d : FormatDirective) (b : Nat) : Prop :=
  (d.width = some .fromArgs ∧ slotBytes c b) ∨
  (∃ width, resolveWidth m d.width c d.flags.leftAlign = some width ∧
    d.precision = some .fromArgs ∧ slotBytes width.2 b) ∨
  ∃ counts, resolveCounts m c d = some counts ∧
    (slotBytes counts.cursor b ∨
      d.conversion = 's'.toUInt8 ∧ ∃ r, counts.cursor.nextPtr m = some r ∧ r.1 ≠ 0 ∧
        stringBytes m r.1 counts.precision b)

/-- The bytes of the object that an action stores. -/
def Action.writes : Action → Nat → Prop
  | render _, _ => False
  | count pointer size, b => pointer ≤ b ∧ b < pointer + size

/-- The bytes that the directives of a run touch, each in the state that it is reached in. -/
def alongRun (touched : FormatState (List UInt8) → FormatDirective → Nat → Prop)
    (st : FormatState (List UInt8)) : List Token → Nat → Prop
  | [], _ => False
  | .invalid :: _, _ => False
  | .literal byte :: tokens, b =>
    alongRun touched (pushPiece recorder st (.repeated byte 1)) tokens b
  | .directive d :: tokens, b =>
    touched st d b ∨ ∃ next, applyDirective recorder st d = .ok next ∧ alongRun touched next tokens b

/-- The bytes that a run reads. -/
def runReads : FormatState (List UInt8) → List Token → Nat → Prop :=
  alongRun fun st d => directiveReads st.mem st.cursor d

/-- The bytes that a run stores for `%n`. -/
def runStores : FormatState (List UInt8) → List Token → Nat → Prop :=
  alongRun fun st d b => ∃ r, directiveAction st.mem st.cursor d = some r ∧ r.1.writes b

/-- The bytes that a call of `vsnprintf` reads. -/
def callReads (m : Mem) (format ap b : Nat) : Prop :=
  (format ≤ b ∧ b ≤ format + (cString m format).length) ∨ (ap ≠ 0 ∧ ap ≤ b ∧ b < ap + 24) ∨
    runReads ⟨m, .fromVaList m ap, []⟩ (formatTokens (cString m format)) b

/-- The bytes that a call of `vsnprintf` stores, besides its destination. -/
def callStores (m : Mem) (format ap b : Nat) : Prop :=
  runStores ⟨m, .fromVaList m ap, []⟩ (formatTokens (cString m format)) b

/-! ## Arguments -/

section

variable {m m' : Mem} {c : VarArgCursor}

theorem nextU64_congr (h : ∀ b, slotBytes c b → m' b = m b) : c.nextU64 m' = c.nextU64 m := by
  unfold VarArgCursor.nextU64
  cases hslot : c.nextSlot with
  | none => rfl
  | some r =>
    have hword : wordAt m' r.1 = wordAt m r.1 :=
      natAt_congr fun b hlow hhigh => h b ⟨r, hslot, hlow, hhigh⟩
    rw [Option.map_some, Option.map_some, hword]

theorem nextCInt_congr (h : ∀ b, slotBytes c b → m' b = m b) : c.nextCInt m' = c.nextCInt m := by
  unfold VarArgCursor.nextCInt VarArgCursor.nextU32
  rw [nextU64_congr h]

theorem resolveWidth_congr {spec : Option CountSpec} {leftAlign : Bool}
    (h : spec = some .fromArgs → ∀ b, slotBytes c b → m' b = m b) :
    resolveWidth m' spec c leftAlign = resolveWidth m spec c leftAlign := by
  unfold resolveWidth
  cases spec with
  | none => rfl
  | some count =>
    cases count with
    | literal value => rfl
    | fromArgs =>
      dsimp only
      rw [nextCInt_congr (h rfl)]

theorem resolvePrecision_congr {spec : Option CountSpec}
    (h : spec = some .fromArgs → ∀ b, slotBytes c b → m' b = m b) :
    resolvePrecision m' spec c = resolvePrecision m spec c := by
  unfold resolvePrecision
  cases spec with
  | none => rfl
  | some count =>
    cases count with
    | literal value => rfl
    | fromArgs =>
      dsimp only
      rw [nextCInt_congr (h rfl)]

theorem directiveReads_of_counts {d : FormatDirective} {b : Nat} (h : countsReads m c d b) :
    directiveReads m c d b := by
  cases h with
  | inl hwidth => exact Or.inl hwidth
  | inr hprecision => exact Or.inr (Or.inl hprecision)

theorem resolveCounts_congr {d : FormatDirective}
    (h : ∀ b, countsReads m c d b → m' b = m b) :
    resolveCounts m' c d = resolveCounts m c d := by
  unfold resolveCounts
  rw [resolveWidth_congr fun hstar b hb => h b (Or.inl ⟨hstar, hb⟩)]
  cases hwidth : resolveWidth m d.width c d.flags.leftAlign with
  | none => rw [Option.bind_none, Option.bind_none]
  | some width =>
    rw [Option.bind_some, Option.bind_some, resolvePrecision_congr fun hstar b hb =>
      h b (Or.inr ⟨width, hwidth, hstar, hb⟩)]

theorem cStringPrefix_congr {pointer : Nat} {precision : Option Nat}
    (h : ∀ b, stringBytes m pointer precision b → m' b = m b) :
    cStringPrefix m' pointer precision = cStringPrefix m pointer precision := by
  unfold cStringPrefix
  apply untilNul_congr
  intro i hi hlimit
  apply h
  refine ⟨Nat.le_add_right pointer i, Nat.add_le_add_left hi pointer, ?_⟩
  omega

theorem renderString_congr {leftAlign : Bool} {width pointer : Nat} {precision : Option Nat}
    (h : pointer ≠ 0 → ∀ b, stringBytes m pointer precision b → m' b = m b) :
    renderString m' leftAlign width precision pointer =
      renderString m leftAlign width precision pointer := by
  unfold renderString
  by_cases hnull : pointer = 0
  · rw [if_pos hnull, if_pos hnull]
  · unfold cStringPrefixLen
    rw [if_neg hnull, if_neg hnull, cStringPrefix_congr (h hnull)]

/-- Integers, characters and pointers come from the slot. -/
theorem renderConversion_congr {d : FormatDirective} {leftAlign : Bool} {width : Nat}
    {precision : Option Nat} (hslot : ∀ b, slotBytes c b → m' b = m b)
    (hstring : d.conversion = 's'.toUInt8 → ∀ r, c.nextPtr m = some r → r.1 ≠ 0 →
      ∀ b, stringBytes m r.1 precision b → m' b = m b) :
    renderConversion m' c d leftAlign width precision =
      renderConversion m c d leftAlign width precision := by
  have hword := nextU64_congr hslot
  have hptr : c.nextPtr m' = c.nextPtr m := hword
  have hint : c.nextU32 m' = c.nextU32 m := by
    unfold VarArgCursor.nextU32
    rw [hword]
  have hsigned : readSignedArgument m' c d.length = readSignedArgument m c d.length := by
    unfold readSignedArgument
    rw [nextCInt_congr hslot, hword]
  have hunsigned : readUnsignedArgument m' c d.length = readUnsignedArgument m c d.length := by
    unfold readUnsignedArgument
    rw [hint, hword]
  unfold renderConversion
  rw [hptr, nextCInt_congr hslot, hsigned, hunsigned]
  by_cases hs : d.conversion = 's'.toUInt8
  · dsimp only
    rw [if_pos hs, if_pos hs]
    cases hnext : c.nextPtr m with
    | none => rw [Option.map_none, Option.map_none]
    | some r => rw [Option.map_some, Option.map_some, renderString_congr (hstring hs r hnext)]
  · dsimp only
    rw [if_neg hs, if_neg hs]

/-- **The action of a directive** depends on the bytes that it reads. -/
theorem directiveAction_congr {d : FormatDirective}
    (h : ∀ b, directiveReads m c d b → m' b = m b) :
    directiveAction m' c d = directiveAction m c d := by
  unfold directiveAction
  rw [resolveCounts_congr fun b hb => h b (directiveReads_of_counts hb)]
  cases hcounts : resolveCounts m c d with
  | none => rw [Option.bind_none, Option.bind_none]
  | some counts =>
    have hslot : ∀ b, slotBytes counts.cursor b → m' b = m b := fun b hb =>
      h b (Or.inr (Or.inr ⟨counts, hcounts, Or.inl hb⟩))
    have hptr : counts.cursor.nextPtr m' = counts.cursor.nextPtr m := nextU64_congr hslot
    rw [Option.bind_some, Option.bind_some, hptr, renderConversion_congr hslot]
    intro hs r hnext hnull b hb
    exact h b (Or.inr (Or.inr ⟨counts, hcounts, Or.inr ⟨hs, r, hnext, hnull, hb⟩⟩))

/-! ## Pieces -/

/-- The bytes of memory that a piece is made of. -/
def Piece.reads : Piece → Nat → Prop
  | slice address length, b => address ≤ b ∧ b < address + length
  | _, _ => False

theorem Piece.text_congr {piece : Piece} (h : ∀ b, piece.reads b → m' b = m b) :
    piece.text m' = piece.text m := by
  cases piece with
  | repeated byte count => rfl
  | bytes text => rfl
  | slice address length => exact bytesAt_congr fun b hlow hhigh => h b ⟨hlow, hhigh⟩

theorem renderNumber_reads {leftAlign useZeroPad : Bool} {width zeros : Nat}
    {sign radixMark digits : List UInt8} {piece : Piece}
    (hmem : piece ∈ (renderNumber leftAlign useZeroPad width sign radixMark zeros digits).pieces)
    (b : Nat) : ¬piece.reads b := by
  have hpad : ∀ (p : Prop) [Decidable p] (byte : UInt8) (count : Nat),
      piece ∈ (if p then [Piece.repeated byte count] else []) → ¬piece.reads b := by
    intro p _ byte count hmem
    split at hmem
    · rw [List.mem_singleton.mp hmem]
      exact id
    · cases hmem
  unfold renderNumber at hmem
  simp only [List.mem_append] at hmem
  rcases hmem with (((hmem | hmem) | hmem) | hmem) | hmem
  · exact hpad _ _ _ hmem
  · simp only [List.mem_cons, List.not_mem_nil, or_false] at hmem
    rcases hmem with rfl | rfl
    · exact id
    · exact id
  · exact hpad _ _ _ hmem
  · simp only [List.mem_cons, List.not_mem_nil, or_false] at hmem
    rcases hmem with rfl | rfl
    · exact id
    · exact id
  · exact hpad _ _ _ hmem

theorem padding_reads {width contentLen : Nat} {leftAlign : Bool} {piece : Piece}
    (hmem : piece ∈ renderPadding width contentLen leftAlign ∨
      piece ∈ renderTrailingPadding width contentLen leftAlign) (b : Nat) : ¬piece.reads b := by
  unfold renderPadding renderTrailingPadding at hmem
  rcases hmem with hmem | hmem
  all_goals
    split at hmem
    · cases hmem
    · rw [List.mem_singleton.mp hmem]
      exact id

theorem renderString_reads {leftAlign : Bool} {width pointer : Nat} {precision : Option Nat}
    {piece : Piece} (hmem : piece ∈ (renderString m leftAlign width precision pointer).pieces)
    {b : Nat} (hb : piece.reads b) : pointer ≠ 0 ∧ stringBytes m pointer precision b := by
  unfold renderString at hmem
  simp only [List.mem_append, List.mem_singleton] at hmem
  rcases hmem with (hmem | hmem) | hmem
  · exact absurd hb (padding_reads (Or.inl hmem) b)
  · by_cases hnull : pointer = 0
    · rw [hmem, if_pos hnull] at hb
      cases hb
    · rw [hmem, if_neg hnull] at hb
      refine ⟨hnull, hb.1, Nat.le_of_lt hb.2, Nat.lt_of_lt_of_le hb.2 ?_⟩
      have hlimit : cStringPrefixLen m pointer precision ≤
          min (precision.getD usizeMax) (0x10000000000000000 - pointer) :=
        untilNul_length_le m _ pointer
      omega
  · exact absurd hb (padding_reads (Or.inr hmem) b)

/-- A conversion reads memory through the string that it prints, and through no other piece. -/
theorem renderConversion_reads {d : FormatDirective} {leftAlign : Bool} {width : Nat}
    {precision : Option Nat} {rendered : Rendered} {c' : VarArgCursor}
    (hrender : renderConversion m c d leftAlign width precision = some (rendered, c'))
    {piece : Piece} (hmem : piece ∈ rendered.pieces) {b : Nat} (hb : piece.reads b) :
    d.conversion = 's'.toUInt8 ∧ ∃ r, c.nextPtr m = some r ∧ r.1 ≠ 0 ∧
      stringBytes m r.1 precision b := by
  unfold renderConversion at hrender
  dsimp only at hrender
  by_cases hs : d.conversion = 's'.toUInt8
  · rw [if_pos hs] at hrender
    obtain ⟨r, hnext, heq⟩ := Option.map_eq_some_iff.mp hrender
    cases heq
    exact ⟨hs, r, hnext, renderString_reads hmem hb⟩
  -- Every other piece is literal or made of an argument, which is no memory.
  · rw [if_neg hs] at hrender
    exfalso
    split at hrender
    · split at hrender
      · cases hrender
      · obtain ⟨r, -, heq⟩ := Option.map_eq_some_iff.mp hrender
        cases heq
        unfold renderChar at hmem
        simp only [List.mem_append, List.mem_singleton] at hmem
        rcases hmem with (hmem | hmem) | hmem
        · exact padding_reads (Or.inl hmem) b hb
        · rw [hmem] at hb
          exact hb
        · exact padding_reads (Or.inr hmem) b hb
    · split at hrender
      · obtain ⟨r, -, heq⟩ := Option.map_eq_some_iff.mp hrender
        cases heq
        exact renderNumber_reads hmem b hb
      · split at hrender
        · obtain ⟨r, -, heq⟩ := Option.map_eq_some_iff.mp hrender
          cases heq
          exact renderNumber_reads hmem b hb
        · split at hrender
          · obtain ⟨r, -, heq⟩ := Option.map_eq_some_iff.mp hrender
            cases heq
            exact renderNumber_reads hmem b hb
          · cases hrender

theorem directiveAction_reads {d : FormatDirective} {rendered : Rendered} {c' : VarArgCursor}
    (haction : directiveAction m c d = some (.render rendered, c')) {piece : Piece}
    (hmem : piece ∈ rendered.pieces) {b : Nat} (hb : piece.reads b) : directiveReads m c d b := by
  unfold directiveAction at haction
  obtain ⟨counts, hcounts, haction⟩ := Option.bind_eq_some_iff.mp haction
  split at haction
  · obtain ⟨r, -, hcount⟩ := Option.bind_eq_some_iff.mp haction
    split at hcount
    · cases hcount
    · cases hcount
  · obtain ⟨r, hrender, heq⟩ := Option.map_eq_some_iff.mp haction
    cases heq
    obtain ⟨hs, r', hnext, hnull, hstring⟩ := renderConversion_reads hrender hmem hb
    exact Or.inr (Or.inr ⟨counts, hcounts, Or.inr ⟨hs, r', hnext, hnull, hstring⟩⟩)

end

end Rlibc.Stdio
