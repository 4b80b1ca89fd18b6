import Rlibc.Alloc.Placement

/-!
# Resizing keeps the contents

`realloc` allocates, copies and frees.  The old block survives until the copy is done: whatever
fails before leaves its mapping alone, and what is done afterwards writes to records only.
-/

namespace Rlibc.Alloc

open ByteMem

/-- An errno that was decoded is not zero. -/
theorem decodeRaw_error_ne {raw errno : Int} (h : decodeRaw raw = .error errno) : errno ≠ 0 := by
  unfold decodeRaw at h
  split at h
  · rename_i hrange
    cases h
    omega
  · cases h

theorem checkedCallocSize_eq (nmemb size : Nat) :
    checkedCallocSize nmemb size =
      if requestTooLarge (nmemb * size) then none else some (nmemb * size) := by
  unfold checkedCallocSize checkedMul
  split
  · rfl
  · rename_i hoverflow
    have hlarge : requestTooLarge (nmemb * size) := by
      show isizeMax < nmemb * size
      unfold usizeMax at hoverflow
      unfold isizeMax
      omega
    rw [if_pos hlarge]
    rfl

section

variable {anchor : Nat} {foreign : List Region} {s : HeapState} {hs : List AllocationHeader}
  {k : Kernel}

/-- A byte of a payload is in no record. -/
theorem Inv.payload_not_record (hi : Inv anchor foreign s hs) {h : AllocationHeader} (hmem : h ∈ hs)
    {b : Nat} (hb : h.InPayload b) : ∀ h' ∈ hs, ¬ h'.InRecord b := fun _ hmem' hrecord =>
  hi.mayWrite_not_metadata (Or.inl ⟨h, hmem, hb⟩) hmem' (Or.inl hrecord)

/-- The bytes that the caller asked for are in the payload. -/
theorem AllocationHeader.inPayload_of_lt {h : AllocationHeader} {i : Nat}
    (hlt : i < h.requestedSize) : h.InPayload (h.payloadAddr + i) := by
  have hsize := le_payloadSizeFor h.requestedSize
  unfold AllocationHeader.InPayload
  omega

/-- An alignment of the registry is not raised any more. -/
theorem AllocationHeader.Placed.effective {h : AllocationHeader} (hp : h.Placed anchor) :
    effectiveAllocationAlignment h.alignment = h.alignment :=
  if_neg (Nat.not_lt.mpr hp.alignment_ge)

/-- The two ways `realloc` of the live block `h` ends for a size that is not zero. -/
inductive Resizes (anchor : Nat) (foreign : List Region) (s : HeapState) (k : Kernel)
    (before after : List AllocationHeader) (h : AllocationHeader) (size : Nat) :
    Nat × HeapState → Prop
  | failed {s' : HeapState} (inv : Inv anchor foreign s' (before ++ h :: after))
      (cause : s'.errno = ENOMEM ∨ ∃ len, decodeRaw (k.mmap len) = .error s'.errno)
      (kept : ∀ mapped ∈ s.mapped, ∀ b, mapped.Contains b → s'.mem b = s.mem b) :
      Resizes anchor foreign s k before after h size (0, s')
  | moved {new : AllocationHeader} {s' : HeapState}
      (inv : Inv anchor foreign s' (new :: (before ++ after)))
      (gone : new.payloadAddr ≠ h.payloadAddr) (fits : ¬ requestTooLarge size)
      (size_eq : new.requestedSize = size) (alignment_eq : new.alignment = h.alignment)
      (copied : ∀ i < min h.requestedSize size,
        s'.mem (new.payloadAddr + i) = s.mem (h.payloadAddr + i))
      (kept : ∀ g ∈ before ++ after, ∀ b, g.InPayload b → s'.mem b = s.mem b) :
      Resizes anchor foreign s k before after h size (new.payloadAddr, s')

/-- The copy of a block's bytes into the payload of a new one. -/
theorem Inv.copyInto {new : AllocationHeader} (hi : Inv anchor foreign s (new :: hs))
    (source n : Nat) (hn : n ≤ new.requestedSize) :
    Inv anchor foreign
      (if 0 < n then { s with mem := copy s.mem source new.payloadAddr n } else s) (new :: hs) := by
  split
  · apply hi.write
    intro b hb
    apply copy_outside
    by_contra hin
    apply hb
    refine Or.inl ⟨new, List.mem_cons_self, ?_⟩
    have hsize := le_payloadSizeFor new.requestedSize
    unfold AllocationHeader.InPayload
    omega
  · exact hi

theorem copyInto_mem (s : HeapState) (source target n : Nat) :
    (if 0 < n then { s with mem := copy s.mem source target n } else s).mem =
      copy s.mem source target n := by
  split
  · rfl
  · rename_i hzero
    funext b
    exact (copy_outside (by omega)).symm

/-- **Resizing.**  `realloc` of a live block fails and leaves it, or moves it. -/
theorem Inv.realloc_live {before after : List AllocationHeader} {h : AllocationHeader}
    (hi : Inv anchor foreign s (before ++ h :: after)) (hk : k.Sound s) {size : Nat}
    (hsize : size ≠ 0) :
    ∃ result, s.realloc anchor k h.payloadAddr size = some result ∧
      Resizes anchor foreign s k before after h size result := by
  have hmem : h ∈ before ++ h :: after := List.mem_append_right _ List.mem_cons_self
  have hp := hi.placed h hmem
  have hlower := hp.lower
  have hmetadata : headerSize = 56 ∧ recordSize = 64 := ⟨rfl, rfl⟩
  -- The lookup finds the block.
  have hfind : (before ++ h :: after).find? (fun g => g.payloadAddr = h.payloadAddr) = some h := by
    cases hlookup : (before ++ h :: after).find? (fun g => g.payloadAddr = h.payloadAddr) with
    | none =>
      have hnone := List.find?_eq_none.mp hlookup h hmem
      exact absurd (decide_eq_true rfl) hnone
    | some g =>
      have hg := find_payload_eq_some hlookup
      rw [hi.payload_unique hg.1 hmem hg.2]
  unfold HeapState.realloc
  rw [if_neg (by omega), if_neg hsize]
  by_cases hlarge : requestTooLarge size
  · rw [if_pos hlarge]
    exact ⟨_, rfl, .failed (hi.withErrno ENOMEM) (Or.inl rfl) fun _ _ _ _ => rfl⟩
  · rw [if_neg hlarge, hi.validate, hfind, Option.bind_some]
    dsimp only
    have hallocate := hi.allocate hk size h.alignment
    generalize s.allocateWithAlignment anchor k size h.alignment = allocated at hallocate ⊢
    cases hallocate with
    | failed inv cause kept => exact ⟨_, rfl, .failed (inv.withErrno _) cause kept⟩
    | @placed new s1 inv size_eq alignment_eq outside =>
      dsimp only
      have hn : min h.requestedSize size ≤ new.requestedSize := by
        rw [size_eq]
        exact Nat.min_le_right _ _
      have hcopied := inv.copyInto h.payloadAddr (min h.requestedSize size) hn
      have hbytes := copyInto_mem s1 h.payloadAddr new.payloadAddr (min h.requestedSize size)
      generalize (if 0 < min h.requestedSize size then
        { s1 with mem := copy s1.mem h.payloadAddr new.payloadAddr (min h.requestedSize size) }
        else s1) = s2 at hcopied hbytes ⊢
      have hsplit : Inv anchor foreign s2 ((new :: before) ++ h :: after) := hcopied
      obtain ⟨s3, hfree, hleft, hkept⟩ := hsplit.free_live (k := k)
      rw [hfree]
      have happart : ∀ g ∈ before ++ h :: after, new.region.Apart g.region :=
        (List.pairwise_cons.mp inv.apart).1
      -- A byte of an old block is not in the new mapping.
      have hold : ∀ g ∈ before ++ h :: after, ∀ b, g.InPayload b → ¬ new.region.Contains b :=
        fun g hg b hb => (happart g hg).symm.not_contains ((hi.placed g hg).payload_in_region hb)
      refine ⟨_, rfl, .moved hleft ?_ hlarge size_eq (alignment_eq.trans hp.effective) ?_ ?_⟩
      · intro hsame
        have hin : h.InPayload h.payloadAddr :=
          ⟨Nat.le_refl _, Nat.lt_add_of_pos_right (payloadSizeFor_pos _)⟩
        apply hold h hmem h.payloadAddr hin
        rw [← hsame]
        exact (inv.placed new List.mem_cons_self).payload_in_region
          ⟨Nat.le_refl _, Nat.lt_add_of_pos_right (payloadSizeFor_pos _)⟩
      · intro i hlt
        have hnew : new.InPayload (new.payloadAddr + i) :=
          AllocationHeader.inPayload_of_lt (by omega)
        have hsource : h.InPayload (h.payloadAddr + i) :=
          AllocationHeader.inPayload_of_lt (by omega)
        rw [hkept _ (hcopied.payload_not_record List.mem_cons_self hnew), hbytes]
        have htarget : copy s1.mem h.payloadAddr new.payloadAddr (min h.requestedSize size)
            (new.payloadAddr + i) = s1.mem (h.payloadAddr + i) := by
          unfold copy
          rw [if_pos (by omega), Nat.add_sub_cancel_left]
        rw [htarget]
        exact outside _ (hold h hmem _ hsource)
      · intro g hg b hb
        have hgmem : g ∈ before ++ h :: after :=
          (List.Sublist.append_left (List.sublist_cons_self h after) before).subset hg
        have hout := hold g hgmem b hb
        rw [hkept _ (hcopied.payload_not_record (List.mem_cons_of_mem _ hgmem) hb), hbytes]
        have htarget : copy s1.mem h.payloadAddr new.payloadAddr (min h.requestedSize size) b =
            s1.mem b := by
          apply copy_outside
          by_contra hin
          apply hout
          apply (inv.placed new List.mem_cons_self).payload_in_region
          have hsizes := le_payloadSizeFor new.requestedSize
          unfold AllocationHeader.InPayload
          omega
        rw [htarget]
        exact outside b hout

/-- `realloc` of a pointer that is no live payload changes nothing. -/
theorem Inv.realloc_unknown (hi : Inv anchor foreign s hs) {ptr : Nat} (hptr : ptr ≠ 0)
    (hunknown : ∀ h ∈ hs, h.payloadAddr ≠ ptr) (size : Nat) :
    ∃ errno, s.realloc anchor k ptr size = some (0, { s with errno := errno }) := by
  unfold HeapState.realloc
  rw [if_neg hptr]
  split
  · rw [hi.free_unknown hunknown]
    exact ⟨s.errno, rfl⟩
  · split
    · exact ⟨ENOMEM, rfl⟩
    · have hfind : hs.find? (fun h => h.payloadAddr = ptr) = none :=
        List.find?_eq_none.mpr fun h hmem => by simpa using hunknown h hmem
      rw [hi.validate, hfind]
      exact ⟨s.errno, rfl⟩

/-- `realloc` of a live block to no bytes frees it. -/
theorem Inv.realloc_zero {before after : List AllocationHeader} {h : AllocationHeader}
    (hi : Inv anchor foreign s (before ++ h :: after)) :
    ∃ s', s.realloc anchor k h.payloadAddr 0 = some (0, s') ∧
      Inv anchor foreign s' (before ++ after) ∧
      ∀ g ∈ before ++ after, ∀ b, g.InPayload b → s'.mem b = s.mem b := by
  have hlower := (hi.placed h (List.mem_append_right _ List.mem_cons_self)).lower
  have hmetadata : headerSize = 56 ∧ recordSize = 64 := ⟨rfl, rfl⟩
  obtain ⟨s', hfree, hleft, hkept⟩ := hi.free_live (k := k)
  refine ⟨s', ?_, hleft, ?_⟩
  · unfold HeapState.realloc
    rw [if_neg (by omega), if_pos rfl, hfree]
    rfl
  · intro g hg b hb
    have hgmem : g ∈ before ++ h :: after :=
      (List.Sublist.append_left (List.sublist_cons_self h after) before).subset hg
    exact hkept b (hi.payload_not_record hgmem hb)

end

end Rlibc.Alloc
