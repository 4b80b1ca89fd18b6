import Rlibc.Alloc.HeapInvariant

/-!
# Allocating and freeing keep the invariant

`allocate_with_alignment` puts one header in front of the registry, `free` takes one out.  Every
entry point is made of these two and of writes into payloads.
-/

namespace Rlibc.Alloc

open ByteMem

/-- What `mmap` may answer: a successful call returns a non-null page-aligned region that does
not wrap and is apart from every region mapped so far. -/
def Kernel.Sound (k : Kernel) (s : HeapState) : Prop :=
  ∀ len addr, decodeRaw (k.mmap len) = .ok addr →
    addr ≠ 0 ∧ addr % pageSize = 0 ∧ addr + len ≤ 0x10000000000000000 ∧
      ∀ r ∈ s.mapped, Region.Apart ⟨addr, len⟩ r

section

variable {anchor : Nat} {foreign : List Region} {s : HeapState} {hs : List AllocationHeader}
  {k : Kernel}

/-- A region that is mapped, belongs to nobody yet and is apart from all that does. -/
structure Free (foreign : List Region) (s : HeapState) (hs : List AllocationHeader)
    (r : Region) : Prop where
  mapped : r ∈ s.mapped
  apartRegistered : ∀ h ∈ hs, r.Apart h.region
  apartForeign : ∀ f ∈ foreign, r.Apart f

/-- What a successful `mmap` leaves behind: a region of its own, and every other byte. -/
structure Fresh (anchor : Nat) (foreign : List Region) (s : HeapState) (hs : List AllocationHeader)
    (r : Region) (s' : HeapState) : Prop where
  inv : Inv anchor foreign s' hs
  free : Free foreign s' hs r
  base_ne : r.base ≠ 0
  base_aligned : r.base % pageSize = 0
  apart : ∀ mapped ∈ s.mapped, r.Apart mapped
  outside : ∀ b, ¬ r.Contains b → s'.mem b = s.mem b

/-- The bytes of the regions mapped before are as they were. -/
theorem Fresh.kept {r : Region} {s' : HeapState} (h : Fresh anchor foreign s hs r s') :
    ∀ mapped ∈ s.mapped, ∀ b, mapped.Contains b → s'.mem b = s.mem b :=
  fun mapped hmem b hb => h.outside b ((h.apart mapped hmem).symm.not_contains hb)

theorem Inv.mmap (hi : Inv anchor foreign s hs) (hk : k.Sound s) {len addr : Nat} {s' : HeapState}
    (h : s.mmapAllocation k len = (.ok addr, s')) :
    Fresh anchor foreign s hs ⟨addr, len⟩ s' := by
  unfold HeapState.mmapAllocation at h
  split at h
  · cases h
  · rename_i hlen
    split at h
    · cases h
    · rename_i raw hraw
      have hsound := hk len raw hraw
      dsimp only at h
      rw [if_neg hsound.1] at h
      cases h
      have hout : ∀ b, ¬ Region.Contains ⟨addr, len⟩ b → fill s.mem addr len 0 b = s.mem b := by
        intro b hb
        unfold Region.Contains at hb
        dsimp only at hb
        exact fill_outside (by omega)
      have hframe := hi.frame (m := fill s.mem addr len 0) fun h hmem b hmeta =>
        hout b ((hsound.2.2.2 h.region (hi.mapped h hmem)).symm.not_contains
          ((hi.placed h hmem).metadata_in_region hmeta))
      exact
        { inv := { hframe with
            mapped := fun h hmem => List.mem_cons_of_mem _ (hi.mapped h hmem)
            foreignMapped := fun r hr => List.mem_cons_of_mem _ (hi.foreignMapped r hr) }
          free :=
            { mapped := List.mem_cons_self
              apartRegistered := fun h hmem => hsound.2.2.2 h.region (hi.mapped h hmem)
              apartForeign := fun f hf => hsound.2.2.2 f (hi.foreignMapped f hf) }
          base_ne := hsound.1
          base_aligned := hsound.2.1
          apart := hsound.2.2.2
          outside := hout }

/-- A failing `mmap` leaves the heap as it is. -/
theorem mmap_error (hk : k.Sound s) {len : Nat} {errno : Int} {s' : HeapState}
    (h : s.mmapAllocation k len = (.error errno, s')) :
    s' = s ∧ (errno = ENOMEM ∨ decodeRaw (k.mmap len) = .error errno) := by
  unfold HeapState.mmapAllocation at h
  split at h
  · cases h
    exact ⟨rfl, Or.inl rfl⟩
  · split at h
    · rename_i raw hraw
      cases h
      exact ⟨rfl, Or.inr hraw⟩
    · rename_i raw hraw
      dsimp only at h
      rw [if_neg (hk len raw hraw).1] at h
      cases h

/-- `munmap` takes a region away and leaves every byte. -/
theorem munmapAllocation_mem (s : HeapState) (k : Kernel) (base len : Nat) :
    (s.munmapAllocation k base len).mem = s.mem := by
  unfold HeapState.munmapAllocation
  split
  · rfl
  · split
    · rfl
    · split
      · rfl
      · rfl

/-- Unmapping a region that nobody has keeps the invariant. -/
theorem Inv.munmap (hi : Inv anchor foreign s hs) (base len : Nat)
    (hother : ∀ h ∈ hs, h.region ≠ ⟨base, len⟩) (hforeign : ∀ f ∈ foreign, f ≠ ⟨base, len⟩) :
    Inv anchor foreign (s.munmapAllocation k base len) hs := by
  unfold HeapState.munmapAllocation
  split
  · exact hi
  · split
    · exact hi
    · split
      · exact { hi with
          mapped := fun h hmem =>
            (List.mem_erase_of_ne (hother h hmem)).mpr (hi.mapped h hmem)
          foreignMapped := fun f hf =>
            (List.mem_erase_of_ne (hforeign f hf)).mpr (hi.foreignMapped f hf) }
      · exact hi

theorem Region.Apart.ne_of_pos {r r' : Region} (h : r.Apart r') (hpos : 0 < r.len) : r' ≠ r := by
  intro hsame
  rw [hsame] at h
  unfold Region.Apart at h
  omega

/-- The head of the list is a `usize`. -/
theorem Inv.head_le (hi : Inv anchor foreign s hs) : s.head ≤ usizeMax := by
  cases hs with
  | nil =>
    have hzero : s.head = 0 := hi.chain
    omega
  | cons h hs =>
    have hwrap := (hi.placed h List.mem_cons_self).noWrap
    have hhead := hi.chain.2.1
    omega

/-- **Registration.**  Writing record and header of a sound placement in a free region, and
linking the record, puts the header in front of the registry. -/
theorem Inv.register (hi : Inv anchor foreign s hs) {h : AllocationHeader}
    (hp : h.Placed anchor) (hfree : Free foreign s hs h.region) :
    Inv anchor foreign (registerAllocation { s with
        mem := writePayloadHeader (writeAllocationRecord s.mem h.mappingBase h) h.payloadAddr h }
      h.mappingBase) (h :: hs) := by
  have hlower := hp.lower
  have hupper := hp.upper
  have hsize : headerSize = 56 ∧ recordSize = 64 := ⟨rfl, rfl⟩
  have hwords : h.words.length = 7 := rfl
  have hhead := hi.head_le
  unfold registerAllocation writePayloadHeader writeAllocationRecord
  dsimp only
  generalize hm1 : storeWords s.mem h.mappingBase (0 :: h.words) = m1
  generalize hm2 : storeWords m1 (h.payloadAddr - headerSize) h.words = m2
  -- The three writes, from the last to the first.
  have hlink : ∀ b, b < h.mappingBase ∨ h.mappingBase + 8 ≤ b →
      storeWord m2 h.mappingBase s.head b = m2 b := fun b hb => storeNat_outside hb
  have hcopy : ∀ b, b < h.payloadAddr - headerSize ∨ h.payloadAddr ≤ b → m2 b = m1 b := by
    intro b hb
    rw [← hm2]
    exact storeWords_outside (by omega)
  have hrecord : ∀ b, b < h.mappingBase ∨ h.mappingBase + recordSize ≤ b → m1 b = s.mem b := by
    intro b hb
    rw [← hm1]
    apply storeWords_outside
    rw [List.length_cons]
    omega
  have hframe : Inv anchor foreign { s with mem := storeWord m2 h.mappingBase s.head } hs := by
    apply hi.frame
    intro h' hmem b hmeta
    have hout := (hfree.apartRegistered h' hmem).symm.not_contains
      ((hi.placed h' hmem).metadata_in_region hmeta)
    unfold Region.Contains AllocationHeader.region at hout
    dsimp only at hout
    rw [hlink b (by omega), hcopy b (by omega), hrecord b (by omega)]
  have hreadRecord : readHeader (storeWord m2 h.mappingBase s.head) (h.mappingBase + 8) = h := by
    have hwritten : readHeader m1 (h.mappingBase + 8) = h := by
      rw [← hm1]
      exact readHeader_storeWords s.mem [0] h.mappingBase 8 hp.fits rfl
    refine (readHeader_congr ?_).trans hwritten
    intro b hlow hhigh
    rw [hlink b (by omega), hcopy b (by omega)]
  have hreadCopy : readHeader (storeWord m2 h.mappingBase s.head) (h.payloadAddr - headerSize) = h := by
    have hwritten : readHeader m2 (h.payloadAddr - headerSize) = h := by
      rw [← hm2]
      exact readHeader_storeWords m1 [] (h.payloadAddr - headerSize) 0 hp.fits rfl
    refine (readHeader_congr ?_).trans hwritten
    intro b hlow hhigh
    exact hlink b (by omega)
  have hnext : wordAt (storeWord m2 h.mappingBase s.head) h.mappingBase = s.head := by
    unfold usizeMax at hhead
    exact natAt_storeNat m2 (by omega)
  exact
    { chain := ⟨hp.base_ne, rfl, hreadRecord, hnext.symm ▸ hframe.chain⟩
      placed := List.forall_mem_cons.mpr ⟨hp, hi.placed⟩
      copies := List.forall_mem_cons.mpr ⟨hreadCopy, hframe.copies⟩
      mapped := List.forall_mem_cons.mpr ⟨hfree.mapped, hi.mapped⟩
      apart := List.pairwise_cons.mpr ⟨hfree.apartRegistered, hi.apart⟩
      foreignMapped := hi.foreignMapped
      foreignApart := fun r hr => List.forall_mem_cons.mpr
        ⟨(hfree.apartForeign r hr).symm, hi.foreignApart r hr⟩ }

/-- Registration writes into the mapping only. -/
theorem AllocationHeader.Placed.register_outside {h : AllocationHeader} (hp : h.Placed anchor)
    (s : HeapState) {b : Nat} (hb : ¬ h.region.Contains b) :
    (registerAllocation { s with
        mem := writePayloadHeader (writeAllocationRecord s.mem h.mappingBase h) h.payloadAddr h }
      h.mappingBase).mem b = s.mem b := by
  have hlower := hp.lower
  have hupper := hp.upper
  have hsize : headerSize = 56 ∧ recordSize = 64 := ⟨rfl, rfl⟩
  have hwords : h.words.length = 7 := rfl
  unfold Region.Contains AllocationHeader.region at hb
  dsimp only at hb
  refine (storeNat_outside (by omega)).trans ((storeWords_outside (by omega)).trans ?_)
  apply storeWords_outside
  rw [List.length_cons]
  omega

/-- The checks of `allocate_with_alignment` make a sound placement. -/
theorem buildAllocationHeader_placed (anchor : Nat) {payload base mappingLen requestedSize alignment lower : Nat}
    (hshape : hasAllocatorAlignmentShape alignment) (hge : mallocAlignment ≤ alignment)
    (hlen : mappingLenFor requestedSize alignment = some mappingLen) (hbase : base ≠ 0)
    (hbaseAligned : base % pageSize = 0) (hlower : payloadLowerBoundFor base = some lower)
    (halign : alignUp lower alignment = some payload)
    (hend : payload + max requestedSize 1 ≤ base + mappingLen)
    (hwrap : base + mappingLen ≤ usizeMax) :
    (buildAllocationHeader anchor payload base mappingLen requestedSize alignment).Placed
      anchor where
  magic := rfl
  cookie := rfl
  base_ne := hbase
  base_aligned := hbaseAligned
  len_aligned := (mappingLenFor_eq_some hlen).1
  shape := hshape
  alignment_ge := hge
  alignment_le := by
    have hroom := (mappingLenFor_eq_some hlen).2
    show alignment ≤ usizeMax
    omega
  aligned := (alignUp_eq_some hshape halign).2.2.1
  lower := by
    have hup := (alignUp_eq_some hshape halign).1
    unfold payloadLowerBoundFor at hlower
    rw [Option.bind_eq_some_iff] at hlower
    cases hlower with
    | intro recordEnd hrecord =>
      rw [checkedAdd_eq_some, checkedAdd_eq_some] at hrecord
      show base + recordSize + headerSize ≤ payload
      omega
  upper := by
    show payload + payloadSizeFor requestedSize ≤ base + mappingLen
    rw [payloadSizeFor_eq_max]
    exact hend
  noWrap := hwrap

/-- The two ways `allocate_with_alignment` ends: with an error and the registry it found, or with
the payload of a new header in front of it; other mappings keep their bytes. -/
inductive Allocates (anchor : Nat) (foreign : List Region) (s : HeapState)
    (hs : List AllocationHeader) (k : Kernel) (requestedSize alignment : Nat) :
    Except Int Nat × HeapState → Prop
  | failed {errno : Int} {s' : HeapState} (inv : Inv anchor foreign s' hs)
      (cause : errno = ENOMEM ∨ ∃ len, decodeRaw (k.mmap len) = .error errno)
      (kept : ∀ mapped ∈ s.mapped, ∀ b, mapped.Contains b → s'.mem b = s.mem b) :
      Allocates anchor foreign s hs k requestedSize alignment (.error errno, s')
  | placed {h : AllocationHeader} {s' : HeapState} (inv : Inv anchor foreign s' (h :: hs))
      (size : h.requestedSize = requestedSize)
      (alignment_eq : h.alignment = effectiveAllocationAlignment alignment)
      (outside : ∀ b, ¬ h.region.Contains b → s'.mem b = s.mem b) :
      Allocates anchor foreign s hs k requestedSize alignment (.ok h.payloadAddr, s')

/-- **Allocation.**  A mapping that does not serve is given back. -/
theorem Inv.allocate (hi : Inv anchor foreign s hs) (hk : k.Sound s)
    (requestedSize alignment : Nat) :
    Allocates anchor foreign s hs k requestedSize alignment
      (s.allocateWithAlignment anchor k requestedSize alignment) := by
  unfold HeapState.allocateWithAlignment
  split
  -- `request_too_large` and a bad alignment are turned away before anything is mapped.
  · exact .failed hi (Or.inl rfl) fun _ _ _ _ => rfl
  · rename_i hrequest
    rw [not_or, not_not] at hrequest
    have hshape := effectiveAllocationAlignment_shape hrequest.2
    dsimp only
    generalize heffective : effectiveAllocationAlignment alignment = effective at hshape
    split
    · exact .failed hi (Or.inl rfl) fun _ _ _ _ => rfl
    · rename_i mappingLen hlen
      have hroom := mappingLenFor_eq_some hlen
      have hsize : headerSize = 56 ∧ recordSize = 64 := ⟨rfl, rfl⟩
      have hpos := payloadSizeFor_pos requestedSize
      split
      · rename_i errno s' hmmap
        have herror := mmap_error hk hmmap
        rw [herror.1]
        exact .failed hi (herror.2.imp_right fun hraw => ⟨_, hraw⟩) fun _ _ _ _ => rfl
      · rename_i base s' hmmap
        have hfresh := hi.mmap hk hmmap
        -- Every check that fails from here on gives the mapping back and leaves the registry alone.
        have hreclaimed : Allocates anchor foreign s hs k requestedSize alignment
            (.error ENOMEM, s'.munmapAllocation k base mappingLen) := by
          have hlenpos : 0 < (⟨base, mappingLen⟩ : Region).len := by
            show 0 < mappingLen
            omega
          refine .failed ?_ (Or.inl rfl) ?_
          · exact hfresh.inv.munmap base mappingLen
              (fun h hmem => (hfresh.free.apartRegistered h hmem).ne_of_pos hlenpos)
              (fun f hf => (hfresh.free.apartForeign f hf).ne_of_pos hlenpos)
          · intro mapped hmem b hb
            rw [munmapAllocation_mem]
            exact hfresh.kept mapped hmem b hb
        split
        · exact hreclaimed
        · rename_i lower hbound
          split
          · exact hreclaimed
          · rename_i payload halign
            split
            · exact hreclaimed
            · rename_i payloadEnd hpayloadEnd
              split
              · exact hreclaimed
              · rename_i mappingEnd hmappingEnd
                split
                · exact hreclaimed
                · rename_i hfits
                  split
                  · exact hreclaimed
                  -- All checks passed: the header describes a block inside the mapping.
                  · rw [checkedAdd_eq_some] at hpayloadEnd hmappingEnd
                    have hmin : minNonzeroAllocation = 1 := rfl
                    have hplaced := buildAllocationHeader_placed anchor hshape.1
                      hshape.2 hlen (show base ≠ 0 from hfresh.base_ne)
                      (show base % pageSize = 0 from hfresh.base_aligned) hbound halign (by omega)
                      (by omega)
                    refine .placed (hfresh.inv.register hplaced hfresh.free) rfl heffective.symm ?_
                    intro b hb
                    exact (hplaced.register_outside s' hb).trans (hfresh.outside b hb)

/-- The bytes of a header's copy are in no record. -/
theorem Inv.copy_not_record (hi : Inv anchor foreign s hs) {h : AllocationHeader} (hmem : h ∈ hs)
    {b : Nat} (hlow : h.payloadAddr - headerSize ≤ b) (hhigh : b < h.payloadAddr)
    {h' : AllocationHeader} (hmem' : h' ∈ hs) : ¬ h'.InRecord b := by
  intro hrecord
  by_cases hsame : h = h'
  · have hlower := (hi.placed h hmem).lower
    have hsize : headerSize = 56 ∧ recordSize = 64 := ⟨rfl, rfl⟩
    rw [← hsame] at hrecord
    unfold AllocationHeader.InRecord at hrecord
    omega
  · exact (hi.apart_of_ne hmem hmem' hsame).not_contains
      ((hi.placed h hmem).metadata_in_region (Or.inr ⟨hlow, hhigh⟩))
      ((hi.placed h' hmem').metadata_in_region (Or.inl hrecord))

/-- The registry without one of its headers. -/
theorem Inv.without {before after : List AllocationHeader} {h : AllocationHeader}
    (hi : Inv anchor foreign s (before ++ h :: after)) {s' : HeapState}
    (hmapped : s'.mapped = s.mapped) (hchain : Chain s'.mem s'.head (before ++ after) 0)
    (hmem : ∀ b, (∀ h' ∈ before ++ h :: after, ¬ h'.InRecord b) → s'.mem b = s.mem b) :
    Inv anchor foreign s' (before ++ after) := by
  have hsub : (before ++ after).Sublist (before ++ h :: after) :=
    List.Sublist.append_left (List.sublist_cons_self h after) before
  have hin : ∀ h' ∈ before ++ after, h' ∈ before ++ h :: after := fun h' hm => hsub.subset hm
  exact
    { chain := hchain
      placed := fun h' hm => hi.placed h' (hin h' hm)
      copies := by
        intro h' hm
        have hlower := (hi.placed h' (hin h' hm)).lower
        refine (readHeader_congr ?_).trans (hi.copies h' (hin h' hm))
        intro b hlow hhigh
        exact hmem b fun g hg => hi.copy_not_record (hin h' hm) hlow (by omega) hg
      mapped := fun h' hm => hmapped ▸ hi.mapped h' (hin h' hm)
      apart := hi.apart.sublist hsub
      foreignMapped := fun r hr => hmapped ▸ hi.foreignMapped r hr
      foreignApart := fun r hr h' hm => hi.foreignApart r hr h' (hin h' hm) }

/-- `free` of a pointer that is no live payload does nothing. -/
theorem Inv.free_unknown (hi : Inv anchor foreign s hs) {ptr : Nat}
    (hunknown : ∀ h ∈ hs, h.payloadAddr ≠ ptr) : s.free anchor k ptr = some s := by
  have hfind : hs.find? (fun h => h.payloadAddr = ptr) = none :=
    List.find?_eq_none.mpr fun h hmem => by simpa using hunknown h hmem
  unfold HeapState.free
  split
  · rfl
  · rw [hi.validate, hfind]
    rfl

/-- **Freeing.**  `free` of a live payload takes its header out of the registry and writes to
records only. -/
theorem Inv.free_live {before after : List AllocationHeader} {h : AllocationHeader}
    (hi : Inv anchor foreign s (before ++ h :: after)) :
    ∃ s', s.free anchor k h.payloadAddr = some s' ∧ Inv anchor foreign s' (before ++ after) ∧
      ∀ b, (∀ h' ∈ before ++ h :: after, ¬ h'.InRecord b) → s'.mem b = s.mem b := by
  have hsize : headerSize = 56 ∧ recordSize = 64 := ⟨rfl, rfl⟩
  have hmid : h ∈ before ++ h :: after := List.mem_append_right _ List.mem_cons_self
  have hp := hi.placed h hmid
  have hlower := hp.lower
  have hupper := hp.upper
  have hpos := payloadSizeFor_pos h.requestedSize
  have happart := List.pairwise_append.mp hi.apart
  have hafter := List.pairwise_cons.mp happart.2.1
  have hlen : 0 < h.region.len := by
    show 0 < h.mappingLen
    omega
  -- No other header has the payload.
  have hother : ∀ h' ∈ before, h'.payloadAddr ≠ h.payloadAddr := by
    intro h' hm hpayload
    have hsame := hi.payload_unique (List.mem_append_left _ hm) hmid hpayload
    exact (happart.2.2 h' hm h List.mem_cons_self).ne_of_pos (hsame ▸ hlen) (hsame ▸ rfl)
  have hfind : (before ++ h :: after).find? (fun h' => h'.payloadAddr = h.payloadAddr) = some h := by
    rw [List.find?_append, List.find?_eq_none.mpr fun h' hm => by simpa using hother h' hm,
      Option.none_or, List.find?_cons, decide_eq_true rfl]
  have hfuel := hi.length_le
  rw [List.length_append, List.length_cons] at hfuel
  have hremoved := unregisterFrom_some (s := s) walkFuel [] (rfl : s.head = _)
    hi.chain (by omega) hi.recordsApart hother rfl
  cases hremoved with
  | intro s1 hs1 =>
    have hwithout := hi.without hs1.2.1 hs1.2.2.2.1 hs1.2.2.2.2
    have hmunmap : Inv anchor foreign (s1.munmapAllocation k h.mappingBase h.mappingLen)
        (before ++ after) := by
      apply hwithout.munmap
      · intro h' hm
        cases List.mem_append.mp hm with
        | inl hb => exact ((happart.2.2 h' hb h List.mem_cons_self).symm).ne_of_pos hlen
        | inr ha => exact (hafter.1 h' ha).ne_of_pos hlen
      · intro f hf
        exact (hi.foreignApart f hf h hmid).symm.ne_of_pos hlen
    have hkept : ∀ b, (∀ h' ∈ before ++ h :: after, ¬ h'.InRecord b) →
        (s1.munmapAllocation k h.mappingBase h.mappingLen).mem b = s.mem b := by
      rw [munmapAllocation_mem]
      exact hs1.2.2.2.2
    refine ⟨_, ?_, hmunmap, hkept⟩
    unfold HeapState.free
    rw [if_neg (by omega), hi.validate, hfind]
    unfold unregisterAllocation
    rw [Option.bind_some, Option.isNone_some, if_neg Bool.false_ne_true]
    have hloop := hs1.1
    rw [show lastRecord [] = 0 from rfl] at hloop
    rw [hloop, Option.map_some]
    dsimp only
    rw [if_neg (by have hbase := hp.base_ne; omega)]

/-- Of two headers of the registry the payloads are different. -/
theorem Inv.payload_gone {before after : List AllocationHeader} {h : AllocationHeader}
    (hi : Inv anchor foreign s (before ++ h :: after)) :
    h.payloadAddr ∉ (before ++ after).map (·.payloadAddr) := by
  intro hmem
  obtain ⟨g, hg, hpayload⟩ := List.mem_map.mp hmem
  have hpos := payloadSizeFor_pos h.requestedSize
  have happart : g.region.Apart h.region := by
    have hsplit := List.pairwise_append.mp hi.apart
    cases List.mem_append.mp hg with
    | inl hbefore => exact hsplit.2.2 g hbefore h List.mem_cons_self
    | inr hafter => exact ((List.pairwise_cons.mp hsplit.2.1).1 g hafter).symm
  have hall : g ∈ before ++ h :: after :=
    (List.Sublist.append_left (List.sublist_cons_self h after) before).subset hg
  have hmid : h ∈ before ++ h :: after := List.mem_append_right _ List.mem_cons_self
  have hin : h.InPayload h.payloadAddr := ⟨Nat.le_refl _, Nat.lt_add_of_pos_right hpos⟩
  have hin' : g.InPayload h.payloadAddr := by
    rw [← hpayload]
    exact ⟨Nat.le_refl _, Nat.lt_add_of_pos_right (payloadSizeFor_pos _)⟩
  exact happart.not_contains ((hi.placed g hall).payload_in_region hin')
    ((hi.placed h hmid).payload_in_region hin)

/-- `free` of any pointer returns, and leaves a sound registry of the other payloads. -/
theorem Inv.free (hi : Inv anchor foreign s hs) (ptr : Nat) :
    ∃ s' hs', s.free anchor k ptr = some s' ∧ Inv anchor foreign s' hs' ∧
      ∀ p, p ∈ hs'.map (·.payloadAddr) ↔ p ∈ hs.map (·.payloadAddr) ∧ p ≠ ptr := by
  cases hfind : hs.find? fun h => h.payloadAddr = ptr with
  | none =>
    have hunknown : ∀ h ∈ hs, h.payloadAddr ≠ ptr := by
      intro h hmem
      simpa using List.find?_eq_none.mp hfind h hmem
    refine ⟨s, hs, hi.free_unknown hunknown, hi, fun p => ?_⟩
    rw [iff_self_and]
    intro hp heq
    obtain ⟨h, hmem, hpayload⟩ := List.mem_map.mp hp
    exact hunknown h hmem (hpayload.trans heq)
  | some h =>
    have hh := find_payload_eq_some hfind
    obtain ⟨before, after, hsplit⟩ := List.append_of_mem hh.1
    rw [hsplit] at hi ⊢
    rw [← hh.2]
    obtain ⟨s', hfree, hleft, -⟩ := hi.free_live (k := k)
    refine ⟨s', before ++ after, hfree, hleft, fun p => ?_⟩
    have hgone := hi.payload_gone
    simp only [List.map_append, List.map_cons, List.mem_append, List.mem_cons] at hgone ⊢
    constructor
    · intro hp
      refine ⟨hp.imp_right Or.inr, fun heq => hgone (heq ▸ hp)⟩
    · rintro ⟨hbefore | heq | hafter, hne⟩
      · exact Or.inl hbefore
      · exact absurd heq hne
      · exact Or.inr hafter

end

end Rlibc.Alloc
