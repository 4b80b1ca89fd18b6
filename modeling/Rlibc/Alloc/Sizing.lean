import Rlibc.Alloc.HeapSafety

/-!
# The sizes of an allocation

`allocate_with_alignment` asks for a mapping before it knows where the payload will stand.  The
length it asks for is exact arithmetic or no mapping is made, and wherever the mapping lies, the
payload fits into it: the error branches behind `mmap` are never taken.
-/

namespace Rlibc.Alloc

/-- The bytes that an allocation needs wherever its mapping lies: metadata, payload, padding. -/
def neededBytes (requestedSize alignment : Nat) : Nat :=
  headerSize + recordSize + max requestedSize minNonzeroAllocation + (alignment - 1)

/-- `mapping_len_for` rounds the needed bytes up to pages, unless that does not fit. -/
theorem mappingLenFor_eq (requestedSize : Nat) {alignment : Nat} (hpos : 0 < alignment) :
    mappingLenFor requestedSize alignment =
      if neededBytes requestedSize alignment + (pageSize - 1) ≤ usizeMax then
        some (roundUp (neededBytes requestedSize alignment) pageSize)
      else none := by
  have hmax := payloadSizeFor_eq_max requestedSize
  have hsize : headerSize = 56 ∧ recordSize = 64 ∧ pageSize = 4096 ∧ minNonzeroAllocation = 1 :=
    ⟨rfl, rfl, rfl, rfl⟩
  split
  · rename_i hfits
    unfold neededBytes at hfits
    have hmask : checkedSub alignment 1 = some (alignment - 1) :=
      checkedSub_eq_some.mpr ⟨rfl, hpos⟩
    have hmetadata : checkedAdd headerSize recordSize = some (headerSize + recordSize) :=
      checkedAdd_eq_some.mpr ⟨rfl, by omega⟩
    have hunpadded : checkedAdd (headerSize + recordSize) (payloadSizeFor requestedSize) =
        some (headerSize + recordSize + payloadSizeFor requestedSize) :=
      checkedAdd_eq_some.mpr ⟨rfl, by omega⟩
    have htotal : checkedAdd (headerSize + recordSize + payloadSizeFor requestedSize)
        (alignment - 1) = some (neededBytes requestedSize alignment) := by
      apply checkedAdd_eq_some.mpr
      unfold neededBytes
      omega
    unfold mappingLenFor
    rw [hmask, Option.bind_some, hmetadata, Option.bind_some, hunpadded, Option.bind_some, htotal,
      Option.bind_some, alignUp_eq _ pageSize_shape]
    exact if_pos hfits
  · rename_i hbig
    cases hlen : mappingLenFor requestedSize alignment with
    | none => rfl
    | some mappingLen =>
      -- Every sum of the chain was in range, the last one included.
      unfold mappingLenFor at hlen
      simp only [Option.bind_eq_some_iff, checkedSub_eq_some, checkedAdd_eq_some] at hlen
      rcases hlen with ⟨padding, hpadding, metadata, hmetadata, unpadded, hunpadded, total, htotal,
        hround⟩
      rw [alignUp_eq _ pageSize_shape] at hround
      split at hround
      · rename_i hfits
        unfold neededBytes at hbig
        omega
      · cases hround

/-- An effective alignment is a multiple of the one asked for. -/
theorem dvd_effectiveAllocationAlignment {alignment : Nat}
    (hshape : hasAllocatorAlignmentShape alignment) :
    alignment ∣ effectiveAllocationAlignment alignment := by
  unfold effectiveAllocationAlignment
  split
  · rename_i hlt
    have hpow : alignment.log2 ≤ 4 := by
      by_contra hlog
      have hbig : 2 ^ 5 ≤ 2 ^ alignment.log2 := Nat.pow_le_pow_right (by omega) (by omega)
      rw [← hshape.1] at hbig
      have hmin : mallocAlignment = 16 := rfl
      omega
    rw [hshape.1]
    exact Nat.pow_dvd_pow 2 hpow
  · exact Nat.dvd_refl alignment

/-- What is known of the addresses inside a mapping of the length that was asked for. -/
structure PayloadFits (requestedSize alignment base mappingLen payload : Nat) : Prop where
  lowerBound : payloadLowerBoundFor base = some (base + recordSize + headerSize)
  alignedUp : alignUp (base + recordSize + headerSize) (effectiveAllocationAlignment alignment) =
    some payload
  exact : payload = roundUp (base + recordSize + headerSize) (effectiveAllocationAlignment alignment)
  aligned : payload % alignment = 0
  before : base + recordSize + headerSize ≤ payload
  after : payload + max requestedSize minNonzeroAllocation ≤ base + mappingLen

/-- The payload of a mapping that does not wrap is computed exactly and lies inside. -/
theorem payloadFits {requestedSize alignment base mappingLen : Nat}
    (hshape : hasAllocatorAlignmentShape alignment)
    (hlen : mappingLenFor requestedSize (effectiveAllocationAlignment alignment) = some mappingLen)
    (hwrap : base + mappingLen ≤ usizeMax) :
    PayloadFits requestedSize alignment base mappingLen
      (roundUp (base + recordSize + headerSize) (effectiveAllocationAlignment alignment)) := by
  have heffective := (effectiveAllocationAlignment_shape hshape).1
  have hpos := Nat.pos_of_ne_zero heffective.2
  have hroom := (mappingLenFor_eq_some hlen).2
  have hmax := payloadSizeFor_eq_max requestedSize
  have hmin : minNonzeroAllocation = 1 := rfl
  have hbounds := roundUp_bounds (base + recordSize + headerSize) hpos
  generalize hpayload : roundUp (base + recordSize + headerSize)
    (effectiveAllocationAlignment alignment) = payload at hbounds ⊢
  have hlower : payloadLowerBoundFor base = some (base + recordSize + headerSize) := by
    have hrecord : checkedAdd base recordSize = some (base + recordSize) :=
      checkedAdd_eq_some.mpr ⟨rfl, by omega⟩
    unfold payloadLowerBoundFor
    rw [hrecord, Option.bind_some]
    exact checkedAdd_eq_some.mpr ⟨rfl, by omega⟩
  exact
    { lowerBound := hlower
      alignedUp := by
        rw [alignUp_eq _ heffective, if_pos (by omega), hpayload]
      exact := hpayload.symm
      aligned := Nat.mod_eq_zero_of_dvd (Nat.dvd_trans
        (dvd_effectiveAllocationAlignment hshape) (Nat.dvd_of_mod_eq_zero hbounds.2.2))
      before := hbounds.1
      after := by omega }

/-- **Sizing.**  A request within `isize::MAX` fails before the mapping, exactly when the needed
pages do not fit a `usize`, or asks for exactly these pages; in any mapping of that length that
does not wrap, the payload is aligned, has room before and behind it, and is returned. -/
theorem HeapState.allocateWithAlignment_sizing (anchor : Nat) (s : HeapState) (k : Kernel)
    {requestedSize alignment : Nat} (hsize : requestedSize ≤ isizeMax)
    (hshape : hasAllocatorAlignmentShape alignment) :
    (usizeMax < neededBytes requestedSize (effectiveAllocationAlignment alignment) +
          (pageSize - 1) ∧
        s.allocateWithAlignment anchor k requestedSize alignment = (.error ENOMEM, s)) ∨
      ∃ mappingLen,
        mappingLenFor requestedSize (effectiveAllocationAlignment alignment) = some mappingLen ∧
        mappingLen =
          roundUp (neededBytes requestedSize (effectiveAllocationAlignment alignment)) pageSize ∧
        mappingLen ≤ usizeMax ∧
        ∀ base s', s.mmapAllocation k mappingLen = (.ok base, s') →
          base + mappingLen ≤ usizeMax →
            ∃ payload, PayloadFits requestedSize alignment base mappingLen payload ∧
              (s.allocateWithAlignment anchor k requestedSize alignment).1 = .ok payload := by
  have heffective := (effectiveAllocationAlignment_shape hshape).1
  have hpos := Nat.pos_of_ne_zero heffective.2
  have hlen := mappingLenFor_eq requestedSize hpos
  have hrequest : ¬ (requestTooLarge requestedSize ∨ ¬ hasAllocatorAlignmentShape alignment) := by
    rw [not_or, not_not]
    exact ⟨Nat.not_lt.mpr hsize, hshape⟩
  have hsizes : headerSize = 56 ∧ recordSize = 64 ∧ minNonzeroAllocation = 1 := ⟨rfl, rfl, rfl⟩
  -- The needed bytes fit with the page round-up, or every sum of the chain overflows.
  split at hlen
  · rename_i hfits
    have hround := roundUp_bounds
      (neededBytes requestedSize (effectiveAllocationAlignment alignment))
      (show 0 < pageSize by decide)
    refine Or.inr ⟨_, hlen, rfl, by omega, ?_⟩
    intro base s' hmmap hwrap
    have hpayload := payloadFits hshape hlen hwrap
    refine ⟨_, hpayload, ?_⟩
    -- With the bounds of `payloadFits`, no branch of the allocator gives the mapping back.
    unfold HeapState.allocateWithAlignment
    rw [if_neg hrequest]
    dsimp only
    rw [hlen]
    dsimp only
    rw [hmmap]
    dsimp only
    rw [hpayload.lowerBound]
    dsimp only
    rw [hpayload.alignedUp]
    dsimp only
    have hbefore := hpayload.before
    have hafter := hpayload.after
    rw [checkedAdd_eq_some.mpr ⟨rfl, by omega⟩]
    dsimp only
    rw [checkedAdd_eq_some.mpr ⟨rfl, by omega⟩]
    dsimp only
    rw [if_neg (by omega), if_neg (by omega)]
  · rename_i hbig
    refine Or.inl ⟨Nat.not_le.mp hbig, ?_⟩
    unfold HeapState.allocateWithAlignment
    rw [if_neg hrequest]
    dsimp only
    rw [hlen]

/-- Ten bytes at a multiple of 64 fit into one page. -/
theorem HeapState.allocateWithAlignment_sizing_page :
    ∃ payload, PayloadFits 10 64 0x10000 4096 payload ∧
      ((HeapState.initial (fun _ => 0) 0 []).allocateWithAlignment 0 onePage 10 64).1 =
        .ok payload := by
  have hcall := allocateWithAlignment_sizing 0 (HeapState.initial (fun _ => 0) 0 []) onePage
    (show 10 ≤ isizeMax by decide) (show hasAllocatorAlignmentShape 64 by decide)
  rcases hcall with hfails | ⟨mappingLen, hlen, -, -, hmaps⟩
  · exact absurd hfails.1 (by decide)
  · have hpage : mappingLen = 4096 := Option.some.inj (hlen.symm.trans (by decide))
    rw [hpage] at hmaps
    exact hmaps 0x10000 _ rfl (by decide)

end Rlibc.Alloc
