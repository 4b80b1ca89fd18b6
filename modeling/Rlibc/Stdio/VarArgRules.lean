import Rlibc.Stdio.NewlineAnalysis

/-!
# The argument positions of printf

The rules of the x86_64 System V ABI for `va_arg`: an integer or a pointer is taken from the
general registers while one is left, a `double` from the vector registers while one is left, and
what does not fit there from the overflow area.  The rules say where each directive of a format has
its arguments; the cursors of the library follow them.
-/

namespace Rlibc.Stdio

open ByteMem

/-! ## The rules -/

namespace VarArgCursor

/-- `va_arg` of an integer or a pointer: its slot, unless the list has none for it. -/
def vaArgGeneral (c : VarArgCursor) : Option (Nat × VarArgCursor) :=
  if c.gpOffset + 8 ≤ 48 then
    if c.regSaveArea = 0 then none
    else some (c.regSaveArea + c.gpOffset, { c with gpOffset := c.gpOffset + 8 })
  else if c.overflowArgArea = 0 then none
  else some (c.overflowArgArea, { c with overflowArgArea := c.overflowArgArea + 8 })

/-- `va_arg` of a `double`. -/
def vaArgDouble (c : VarArgCursor) : Option (Nat × VarArgCursor) :=
  if c.fpOffset + 16 ≤ 176 then
    if c.regSaveArea = 0 then none
    else some (c.regSaveArea + c.fpOffset, { c with fpOffset := c.fpOffset + 16 })
  else if c.overflowArgArea = 0 then none
  else some (c.overflowArgArea, { c with overflowArgArea := c.overflowArgArea + 8 })

/-- The registers that are left are whole ones. -/
structure Aligned (c : VarArgCursor) : Prop where
  gp : c.gpOffset % 8 = 0
  fp : c.fpOffset % 16 = 0

end VarArgCursor

/-- The cursor behind the `int` of an asterisk. -/
def starCursor (spec : Option CountSpec) (c : VarArgCursor) : Option VarArgCursor :=
  if spec = some .fromArgs then c.vaArgGeneral.map Prod.snd else some c

/-- The cursor behind the asterisks of a directive. -/
def countsCursor (c : VarArgCursor) (d : FormatDirective) : Option VarArgCursor :=
  (starCursor d.width c).bind (starCursor d.precision)

/-- The slot of the argument that a directive converts. -/
def conversionSlot (d : FormatDirective) (c : VarArgCursor) : Option (Nat × VarArgCursor) :=
  if isFloatConversion d.conversion then c.vaArgDouble else c.vaArgGeneral

/-- The cursor behind all arguments of a directive. -/
def printfCursor (c : VarArgCursor) (d : FormatDirective) : Option VarArgCursor :=
  (countsCursor c d).bind fun c => (conversionSlot d c).map Prod.snd

/-- The slots of each directive. -/
def printfSlots (c : VarArgCursor) : List Token → List (List Nat)
  | [] => []
  | .literal _ :: tokens => printfSlots c tokens
  | .directive d :: tokens =>
    match printfCursor c d with
    | none => []
    | some c' => c.slotsUpTo c' :: printfSlots c' tokens
  | .invalid :: _ => []

/-- The list has all the arguments that the directives take. -/
def HasArguments (c : VarArgCursor) : List Token → Prop
  | [] => True
  | .literal _ :: tokens => HasArguments c tokens
  | .directive d :: tokens => ∃ c', printfCursor c d = some c' ∧ HasArguments c' tokens
  | .invalid :: _ => True

/-! ## General registers -/

section

variable {c c' : VarArgCursor} {slot : Nat}

theorem vaArgGeneral_eq_some (h : c.vaArgGeneral = some (slot, c')) :
    (c.gpOffset + 8 ≤ 48 ∧ c.regSaveArea ≠ 0 ∧ slot = c.regSaveArea + c.gpOffset ∧
        c' = { c with gpOffset := c.gpOffset + 8 }) ∨
      (48 < c.gpOffset + 8 ∧ c.overflowArgArea ≠ 0 ∧ slot = c.overflowArgArea ∧
        c' = { c with overflowArgArea := c.overflowArgArea + 8 }) := by
  unfold VarArgCursor.vaArgGeneral at h
  split at h
  · rename_i hgp
    split at h
    · cases h
    · rename_i hsave
      cases h
      exact Or.inl ⟨hgp, hsave, rfl, rfl⟩
  · rename_i hgp
    split at h
    · cases h
    · rename_i hoverflow
      cases h
      exact Or.inr ⟨Nat.lt_of_not_le hgp, hoverflow, rfl, rfl⟩

theorem vaArgDouble_eq_some (h : c.vaArgDouble = some (slot, c')) :
    (c.fpOffset + 16 ≤ 176 ∧ c.regSaveArea ≠ 0 ∧ slot = c.regSaveArea + c.fpOffset ∧
        c' = { c with fpOffset := c.fpOffset + 16 }) ∨
      (176 < c.fpOffset + 16 ∧ c.overflowArgArea ≠ 0 ∧ slot = c.overflowArgArea ∧
        c' = { c with overflowArgArea := c.overflowArgArea + 8 }) := by
  unfold VarArgCursor.vaArgDouble at h
  split at h
  · rename_i hfp
    split at h
    · cases h
    · rename_i hsave
      cases h
      exact Or.inl ⟨hfp, hsave, rfl, rfl⟩
  · rename_i hfp
    split at h
    · cases h
    · rename_i hoverflow
      cases h
      exact Or.inr ⟨Nat.lt_of_not_le hfp, hoverflow, rfl, rfl⟩

theorem aligned_of_vaArgGeneral (halign : c.Aligned) (h : c.vaArgGeneral = some (slot, c')) :
    c'.Aligned := by
  have hgp := halign.gp
  rcases vaArgGeneral_eq_some h with ⟨_, _, _, heq⟩ | ⟨_, _, _, heq⟩
  · rw [heq]
    exact ⟨by change (c.gpOffset + 8) % 8 = 0; omega, halign.fp⟩
  · rw [heq]
    exact ⟨halign.gp, halign.fp⟩

theorem aligned_of_vaArgDouble (halign : c.Aligned) (h : c.vaArgDouble = some (slot, c')) :
    c'.Aligned := by
  have hfp := halign.fp
  rcases vaArgDouble_eq_some h with ⟨_, _, _, heq⟩ | ⟨_, _, _, heq⟩
  · rw [heq]
    exact ⟨halign.gp, by change (c.fpOffset + 16) % 16 = 0; omega⟩
  · rw [heq]
    exact ⟨halign.gp, halign.fp⟩

/-- The cursor reads the slot of the rules. -/
theorem nextSlot_eq (halign : c.Aligned) (h : c.vaArgGeneral = some (slot, c')) :
    c.nextSlot = some (slot, c') := by
  have hgp := halign.gp
  unfold VarArgCursor.nextSlot
  rcases vaArgGeneral_eq_some h with ⟨hleft, hsave, hslot, heq⟩ | ⟨hnone, hoverflow, hslot, heq⟩
  · have hmin : min (c.gpOffset + 8) u32Max = c.gpOffset + 8 := by
      unfold u32Max
      omega
    rw [if_pos ⟨by omega, hsave⟩, hmin, hslot, heq]
  · rw [if_neg (by omega), if_neg hoverflow, hslot, heq]

/-- The newline analysis passes a `double` as the rules say. -/
theorem advanceLineBufferFloatArgument_eq (halign : c.Aligned)
    (h : c.vaArgDouble = some (slot, c')) :
    advanceLineBufferFloatArgument c .default = some c' := by
  have hfp := halign.fp
  unfold advanceLineBufferFloatArgument
  dsimp only
  rcases vaArgDouble_eq_some h with ⟨hleft, hsave, _, heq⟩ | ⟨hnone, hoverflow, _, heq⟩
  · have hmin : min (c.fpOffset + 16) u32Max = c.fpOffset + 16 := by
      unfold u32Max
      omega
    rw [if_pos ⟨by omega, hsave⟩, hmin, heq]
  · rw [if_neg (by omega), if_pos hoverflow, heq]

end

/-! ## Asterisks -/

section

variable {m : Mem} {c c' : VarArgCursor}

/-- General registers and words of the overflow area that have been passed. -/
structure PassedGeneral (c c' : VarArgCursor) : Prop where
  gp : ∃ n, c'.gpOffset = c.gpOffset + 8 * n
  fp : c'.fpOffset = c.fpOffset
  overflow : ∃ n, c'.overflowArgArea = c.overflowArgArea + 8 * n

theorem PassedGeneral.refl (c : VarArgCursor) : PassedGeneral c c := ⟨⟨0, rfl⟩, rfl, ⟨0, rfl⟩⟩

theorem PassedGeneral.trans {c'' : VarArgCursor} (h : PassedGeneral c c')
    (h' : PassedGeneral c' c'') : PassedGeneral c c'' := by
  rcases h.gp with ⟨n, hn⟩
  rcases h'.gp with ⟨n', hn'⟩
  rcases h.overflow with ⟨k, hk⟩
  rcases h'.overflow with ⟨k', hk'⟩
  exact ⟨⟨n + n', by omega⟩, h'.fp.trans h.fp, ⟨k + k', by omega⟩⟩

theorem starCursor_passed {spec : Option CountSpec} (halign : c.Aligned)
    (h : starCursor spec c = some c') : PassedGeneral c c' ∧ c'.Aligned := by
  unfold starCursor at h
  split at h
  · rcases Option.map_eq_some_iff.mp h with ⟨r, hr, heq⟩
    rw [← heq]
    refine ⟨?_, aligned_of_vaArgGeneral halign hr⟩
    rcases vaArgGeneral_eq_some hr with ⟨_, _, _, hnext⟩ | ⟨_, _, _, hnext⟩
    · rw [hnext]
      exact ⟨⟨1, rfl⟩, rfl, ⟨0, rfl⟩⟩
    · rw [hnext]
      exact ⟨⟨0, rfl⟩, rfl, ⟨1, rfl⟩⟩
  · cases h
    exact ⟨PassedGeneral.refl c, halign⟩

theorem nextCInt_of_vaArgGeneral {r : Nat × VarArgCursor} (halign : c.Aligned)
    (h : c.vaArgGeneral = some r) : ∃ value, c.nextCInt m = some (value, r.2) := by
  unfold VarArgCursor.nextCInt VarArgCursor.nextU32 VarArgCursor.nextU64
  rw [nextSlot_eq halign h]
  exact ⟨_, rfl⟩

theorem resolveWidth_of_starCursor {spec : Option CountSpec} (leftAlign : Bool)
    (halign : c.Aligned) (h : starCursor spec c = some c') :
    ∃ width, resolveWidth m spec c leftAlign = some (width, c') := by
  unfold starCursor at h
  cases spec with
  | none =>
    cases h
    exact ⟨_, rfl⟩
  | some count =>
    cases count with
    | literal value =>
      rw [if_neg (by simp)] at h
      cases h
      exact ⟨_, rfl⟩
    | fromArgs =>
      rw [if_pos rfl] at h
      rcases Option.map_eq_some_iff.mp h with ⟨r, hr, heq⟩
      rcases @nextCInt_of_vaArgGeneral m c r halign hr with ⟨value, hvalue⟩
      unfold resolveWidth
      dsimp only
      rw [hvalue, ← heq, Option.map_some]
      dsimp only
      split
      · exact ⟨_, rfl⟩
      · exact ⟨_, rfl⟩

theorem resolvePrecision_of_starCursor {spec : Option CountSpec}
    (halign : c.Aligned) (h : starCursor spec c = some c') :
    ∃ precision, resolvePrecision m spec c = some (precision, c') := by
  unfold starCursor at h
  cases spec with
  | none =>
    cases h
    exact ⟨_, rfl⟩
  | some count =>
    cases count with
    | literal value =>
      rw [if_neg (by simp)] at h
      cases h
      exact ⟨_, rfl⟩
    | fromArgs =>
      rw [if_pos rfl] at h
      rcases Option.map_eq_some_iff.mp h with ⟨r, hr, heq⟩
      rcases @nextCInt_of_vaArgGeneral m c r halign hr with ⟨value, hvalue⟩
      unfold resolvePrecision
      dsimp only
      rw [hvalue, ← heq, Option.map_some]
      dsimp only
      split
      · exact ⟨_, rfl⟩
      · exact ⟨_, rfl⟩

end

end Rlibc.Stdio
