import Mathlib.Data.List.Pairwise
import Mathlib.Data.List.Perm.Subperm
import Rlibc.Alloc.Registry

/-!
# The invariant of the heap

`Inv anchor foreign s hs` says that the list in memory is `hs`, that every header describes a
sound placement inside a mapping of its own and has an equal copy in front of its payload, and
that the mappings are apart from each other and from the `foreign` regions, which belong to the
caller.
-/

namespace Rlibc.Alloc

open ByteMem

theorem payloadSizeFor_pos (requestedSize : Nat) : 0 < payloadSizeFor requestedSize := by
  unfold payloadSizeFor minNonzeroAllocation
  split <;> omega

theorem le_payloadSizeFor (requestedSize : Nat) : requestedSize ≤ payloadSizeFor requestedSize := by
  unfold payloadSizeFor minNonzeroAllocation
  split <;> omega

theorem payloadSizeFor_eq_max (requestedSize : Nat) :
    payloadSizeFor requestedSize = max requestedSize 1 := by
  unfold payloadSizeFor minNonzeroAllocation
  split <;> omega

/-! ## Rounding -/

/-- Masking the low bits off rounds down to a multiple of the power of two. -/
theorem and_complement_mask {x k : Nat} (hx : x ≤ usizeMax) (hk : k ≤ 64) :
    x &&& (usizeMax - (2 ^ k - 1)) = x / 2 ^ k * 2 ^ k := by
  have hone : 0 < 2 ^ k := Nat.two_pow_pos k
  have hle : 2 ^ k ≤ 2 ^ 64 := Nat.pow_le_pow_right (by omega) hk
  have hmask : usizeMax - (2 ^ k - 1) = 2 ^ 64 - ((2 ^ k - 1) + 1) := by
    unfold usizeMax
    omega
  rw [hmask]
  apply Nat.eq_of_testBit_eq
  intro i
  rw [Nat.testBit_and, Nat.testBit_two_pow_sub_succ (by omega), Nat.testBit_two_pow_sub_one,
    Nat.testBit_mul_two_pow, Nat.testBit_div_two_pow]
  by_cases hik : i < k
  · simp [hik, Nat.not_le.mpr hik]
  · rw [Nat.sub_add_cancel (by omega)]
    by_cases hi : i < 64
    · simp [hik, hi, Nat.not_lt.mp hik]
    · have hbig : x < 2 ^ i := by
        have hpow : 2 ^ 64 ≤ 2 ^ i := Nat.pow_le_pow_right (by omega) (by omega)
        unfold usizeMax at hx
        omega
      simp [Nat.testBit_lt_two_pow hbig]

/-- The least multiple of the alignment that is not below the value. -/
def roundUp (value alignment : Nat) : Nat := (value + (alignment - 1)) / alignment * alignment

theorem roundUp_bounds (value : Nat) {alignment : Nat} (hpos : 0 < alignment) :
    value ≤ roundUp value alignment ∧ roundUp value alignment ≤ value + (alignment - 1) ∧
      roundUp value alignment % alignment = 0 := by
  have hdiv := Nat.div_add_mod (value + (alignment - 1)) alignment
  have hmod := Nat.mod_lt (value + (alignment - 1)) hpos
  rw [Nat.mul_comm] at hdiv
  unfold roundUp
  refine ⟨by omega, by omega, ?_⟩
  exact Nat.mul_mod_left _ _

/-- `align_up` rounds up, unless the padding does not fit. -/
theorem alignUp_eq (value : Nat) {alignment : Nat} (hshape : hasAllocatorAlignmentShape alignment) :
    alignUp value alignment =
      if value + (alignment - 1) ≤ usizeMax then some (roundUp value alignment) else none := by
  have hpos := Nat.pos_of_ne_zero hshape.2
  have hmask : checkedSub alignment 1 = some (alignment - 1) := checkedSub_eq_some.mpr ⟨rfl, hpos⟩
  unfold alignUp checkedAdd
  rw [hmask, Option.bind_some]
  split
  · rename_i hbound
    have hlog : alignment.log2 ≤ 64 := by
      by_contra hlt
      have hbig : 2 ^ 65 ≤ 2 ^ alignment.log2 := Nat.pow_le_pow_right (by omega) (by omega)
      rw [← hshape.1] at hbig
      unfold usizeMax at hbound
      omega
    have hcut := and_complement_mask hbound hlog
    rw [← hshape.1] at hcut
    rw [Option.map_some, hcut]
    rfl
  · rfl

/-- What `align_up` returns is a multiple of the alignment, and less than one step away. -/
theorem alignUp_eq_some {value alignment aligned : Nat}
    (hshape : hasAllocatorAlignmentShape alignment) (h : alignUp value alignment = some aligned) :
    value ≤ aligned ∧ aligned ≤ value + (alignment - 1) ∧ aligned % alignment = 0 ∧
      aligned ≤ usizeMax := by
  have hround := roundUp_bounds value (Nat.pos_of_ne_zero hshape.2)
  rw [alignUp_eq value hshape] at h
  split at h
  · rename_i hbound
    rw [← Option.some.inj h]
    exact ⟨hround.1, hround.2.1, hround.2.2, by omega⟩
  · cases h

theorem pageSize_shape : hasAllocatorAlignmentShape pageSize := by decide

/-- What `mapping_len_for` returns is whole pages and has room for the metadata, the padding and
the payload. -/
theorem mappingLenFor_eq_some {requestedSize alignment mappingLen : Nat}
    (h : mappingLenFor requestedSize alignment = some mappingLen) :
    mappingLen % pageSize = 0 ∧
      headerSize + recordSize + payloadSizeFor requestedSize + (alignment - 1) ≤ mappingLen := by
  unfold mappingLenFor at h
  simp only [Option.bind_eq_some_iff, checkedSub_eq_some, checkedAdd_eq_some] at h
  cases h with
  | intro padding hpadding =>
    cases hpadding.2 with
    | intro metadata hmetadata =>
      cases hmetadata.2 with
      | intro unpadded hunpadded =>
        cases hunpadded.2 with
        | intro total htotal =>
          have hround := alignUp_eq_some pageSize_shape htotal.2
          exact ⟨hround.2.2.1, by omega⟩

/-- An alignment of the allocator is a power of two, at least sixteen. -/
theorem effectiveAllocationAlignment_shape {alignment : Nat}
    (hshape : hasAllocatorAlignmentShape alignment) :
    hasAllocatorAlignmentShape (effectiveAllocationAlignment alignment) ∧
      mallocAlignment ≤ effectiveAllocationAlignment alignment := by
  unfold effectiveAllocationAlignment
  split
  · exact ⟨by decide, Nat.le_refl _⟩
  · rename_i hge
    exact ⟨hshape, Nat.not_lt.mp hge⟩

/-! ## Placements -/

def Region.Contains (r : Region) (b : Nat) : Prop := r.base ≤ b ∧ b < r.base + r.len

instance (r : Region) (b : Nat) : Decidable (r.Contains b) := inferInstanceAs (Decidable (_ ∧ _))

/-- Two regions have no byte in common: one ends before the other begins. -/
def Region.Apart (r r' : Region) : Prop := r.base + r.len ≤ r'.base ∨ r'.base + r'.len ≤ r.base

theorem Region.Apart.symm {r r' : Region} (h : r.Apart r') : r'.Apart r := Or.symm h

namespace AllocationHeader

/-- The mapping of the allocation. -/
def region (h : AllocationHeader) : Region := ⟨h.mappingBase, h.mappingLen⟩

/-- The bytes of the payload. -/
def InPayload (h : AllocationHeader) (b : Nat) : Prop :=
  h.payloadAddr ≤ b ∧ b < h.payloadAddr + payloadSizeFor h.requestedSize

instance (h : AllocationHeader) (b : Nat) : Decidable (h.InPayload b) :=
  inferInstanceAs (Decidable (_ ∧ _))

/-- The bytes of the record and of the header in front of the payload. -/
def InMetadata (h : AllocationHeader) (b : Nat) : Prop :=
  h.InRecord b ∨ (h.payloadAddr - headerSize ≤ b ∧ b < h.payloadAddr)

/-- A header that `allocate_with_alignment` can have built for its mapping. -/
structure Placed (anchor : Nat) (h : AllocationHeader) : Prop where
  magic : h.magic = headerMagic
  cookie : h.cookie = allocationCookie anchor h.mappingBase h.mappingLen h.payloadAddr
    h.requestedSize h.alignment
  base_ne : h.mappingBase ≠ 0
  base_aligned : h.mappingBase % pageSize = 0
  len_aligned : h.mappingLen % pageSize = 0
  shape : hasAllocatorAlignmentShape h.alignment
  alignment_ge : mallocAlignment ≤ h.alignment
  alignment_le : h.alignment ≤ usizeMax
  aligned : h.payloadAddr % h.alignment = 0
  lower : h.mappingBase + recordSize + headerSize ≤ h.payloadAddr
  upper : h.payloadAddr + payloadSizeFor h.requestedSize ≤ h.mappingBase + h.mappingLen
  noWrap : h.mappingBase + h.mappingLen ≤ usizeMax

section

variable {anchor : Nat} {h : AllocationHeader}

theorem Placed.fits (hp : h.Placed anchor) : h.Fits := by
  have hlower := hp.lower
  have hupper := hp.upper
  have hwrap := hp.noWrap
  have hsize := le_payloadSizeFor h.requestedSize
  have hcookie : h.cookie ≤ usizeMax := by
    rw [hp.cookie]
    exact Nat.le_of_lt_succ (BitVec.isLt _)
  have hmagic : h.magic ≤ usizeMax := by
    rw [hp.magic]
    decide
  intro v hv
  simp only [words, List.mem_cons, List.not_mem_nil, or_false] at hv
  have halign := hp.alignment_le
  rcases hv with hv | hv | hv | hv | hv | hv | hv <;> omega

/-- `validate_header_for_payload` accepts a header that was placed. -/
theorem Placed.validate (hp : h.Placed anchor) :
    validateHeaderForPayload anchor h h.payloadAddr = some h := by
  have hlower := hp.lower
  have hupper := hp.upper
  have hwrap := hp.noWrap
  have hpos := payloadSizeFor_pos h.requestedSize
  have hsize : headerSize = 56 ∧ recordSize = 64 := ⟨rfl, rfl⟩
  have hmetadata : checkedAdd recordSize headerSize = some 120 := by decide
  have hbound : payloadLowerBoundFor h.mappingBase = some (h.mappingBase + recordSize + headerSize) := by
    unfold payloadLowerBoundFor
    rw [Option.bind_eq_some_iff]
    exact ⟨_, checkedAdd_eq_some.mpr ⟨rfl, by omega⟩, checkedAdd_eq_some.mpr ⟨rfl, by omega⟩⟩
  have hend : checkedAdd h.mappingBase h.mappingLen = some (h.mappingBase + h.mappingLen) :=
    checkedAdd_eq_some.mpr ⟨rfl, hwrap⟩
  have hpayload : checkedAdd h.payloadAddr (payloadSizeFor h.requestedSize) =
      some (h.payloadAddr + payloadSizeFor h.requestedSize) :=
    checkedAdd_eq_some.mpr ⟨rfl, by omega⟩
  have hmapping : ¬ (h.mappingBase = 0 ∨ ¬ isPageAligned h.mappingBase ∨ h.mappingLen < 120 ∨
      ¬ isPageAligned h.mappingLen) := by
    have hbase := hp.base_ne
    have hbase' := hp.base_aligned
    have hlen := hp.len_aligned
    omega
  unfold validateHeaderForPayload
  rw [if_neg fun hor => hor.elim (fun hne => hne hp.magic) (fun hne => hne rfl),
    if_neg fun hor => hor.elim (fun hno => hno hp.shape) (fun hne => hne hp.aligned), hmetadata,
    Option.bind_some, if_neg hmapping]
  dsimp only
  rw [hbound, hend, hpayload]
  dsimp only [Option.bind_some]
  rw [if_neg (by omega), if_neg (not_not.mpr hp.cookie)]

theorem Placed.metadata_in_region (hp : h.Placed anchor) {b : Nat} (hb : h.InMetadata b) :
    h.region.Contains b := by
  have hlower := hp.lower
  have hupper := hp.upper
  have hsize : headerSize = 56 ∧ recordSize = 64 := ⟨rfl, rfl⟩
  unfold InMetadata InRecord at hb
  unfold Region.Contains region
  dsimp only
  omega

theorem Placed.payload_in_region (hp : h.Placed anchor) {b : Nat} (hb : h.InPayload b) :
    h.region.Contains b := by
  have hlower := hp.lower
  have hupper := hp.upper
  unfold InPayload at hb
  unfold Region.Contains region
  dsimp only
  omega

/-- The payload and the metadata of an allocation have no byte in common. -/
theorem Placed.payload_not_metadata (hp : h.Placed anchor) {b : Nat} (hb : h.InPayload b) :
    ¬ h.InMetadata b := by
  have hlower := hp.lower
  unfold InPayload at hb
  unfold InMetadata InRecord
  omega

end

end AllocationHeader

theorem Region.Apart.not_contains {r r' : Region} (h : r.Apart r') {b : Nat}
    (hb : r.Contains b) : ¬ r'.Contains b := by
  unfold Region.Apart at h
  unfold Region.Contains at hb ⊢
  omega

/-! ## The invariant -/

structure Inv (anchor : Nat) (foreign : List Region) (s : HeapState)
    (hs : List AllocationHeader) : Prop where
  chain : Chain s.mem s.head hs 0
  placed : ∀ h ∈ hs, h.Placed anchor
  copies : ∀ h ∈ hs, readHeader s.mem (h.payloadAddr - headerSize) = h
  mapped : ∀ h ∈ hs, h.region ∈ s.mapped
  apart : hs.Pairwise fun h h' => h.region.Apart h'.region
  foreignMapped : ∀ r ∈ foreign, r ∈ s.mapped
  foreignApart : ∀ r ∈ foreign, ∀ h ∈ hs, r.Apart h.region

/-- The caller may write a byte of a payload it holds or of a region of its own. -/
def MayWrite (foreign : List Region) (hs : List AllocationHeader) (b : Nat) : Prop :=
  (∃ h ∈ hs, h.InPayload b) ∨ ∃ r ∈ foreign, r.Contains b

instance (foreign : List Region) (hs : List AllocationHeader) (b : Nat) :
    Decidable (MayWrite foreign hs b) := inferInstanceAs (Decidable (_ ∨ _))

section

variable {anchor : Nat} {foreign : List Region} {s : HeapState} {hs : List AllocationHeader}

/-- Memory may change wherever there is no metadata. -/
theorem Inv.frame (hi : Inv anchor foreign s hs) {m : Mem}
    (hm : ∀ h ∈ hs, ∀ b, h.InMetadata b → m b = s.mem b) :
    Inv anchor foreign { s with mem := m } hs :=
  { hi with
    chain := hi.chain.congr fun h hmem b hb => hm h hmem b (Or.inl hb)
    copies := by
      intro h hmem
      have hlower := (hi.placed h hmem).lower
      have hsize : headerSize = 56 ∧ recordSize = 64 := ⟨rfl, rfl⟩
      refine (readHeader_congr ?_).trans (hi.copies h hmem)
      intro b hlow hhigh
      exact hm h hmem b (Or.inr ⟨hlow, by omega⟩) }

/-- Of two different headers of the registry the mappings are apart. -/
theorem Inv.apart_of_ne (hi : Inv anchor foreign s hs) {h h' : AllocationHeader} (hmem : h ∈ hs)
    (hmem' : h' ∈ hs) (hne : h ≠ h') : h.region.Apart h'.region :=
  have : Std.Symm fun h h' : AllocationHeader => h.region.Apart h'.region :=
    ⟨fun _ _ => Region.Apart.symm⟩
  hi.apart.forall hmem hmem' hne

/-- A byte the caller may write is no metadata. -/
theorem Inv.mayWrite_not_metadata (hi : Inv anchor foreign s hs) {b : Nat}
    (hb : MayWrite foreign hs b) {h : AllocationHeader} (hmem : h ∈ hs) : ¬ h.InMetadata b := by
  intro hmeta
  have hregion := (hi.placed h hmem).metadata_in_region hmeta
  cases hb with
  | inl hpayload =>
    cases hpayload with
    | intro h' hh' =>
      by_cases hsame : h' = h
      · exact (hi.placed h hmem).payload_not_metadata (hsame ▸ hh'.2) hmeta
      · have hin := (hi.placed h' hh'.1).payload_in_region hh'.2
        exact (hi.apart_of_ne hh'.1 hmem hsame).not_contains hin hregion
  | inr hforeign =>
    cases hforeign with
    | intro r hr => exact (hi.foreignApart r hr.1 h hmem).not_contains hr.2 hregion

/-- Writes of the caller keep the invariant. -/
theorem Inv.write (hi : Inv anchor foreign s hs) {m : Mem}
    (hm : ∀ b, ¬ MayWrite foreign hs b → m b = s.mem b) :
    Inv anchor foreign { s with mem := m } hs :=
  hi.frame fun _ hmem b hmeta => hm b fun hmay => hi.mayWrite_not_metadata hmay hmem hmeta

/-- `errno` is no part of the heap. -/
theorem Inv.withErrno (hi : Inv anchor foreign s hs) (errno : Int) :
    Inv anchor foreign { s with errno := errno } hs := { hi with }

/-- Payload addresses are distinct. -/
theorem Inv.payload_unique (hi : Inv anchor foreign s hs) {h h' : AllocationHeader} (hmem : h ∈ hs)
    (hmem' : h' ∈ hs) (hpayload : h.payloadAddr = h'.payloadAddr) : h = h' := by
  by_contra hne
  have hin : h.InPayload h.payloadAddr :=
    ⟨Nat.le_refl _, Nat.lt_add_of_pos_right (payloadSizeFor_pos _)⟩
  have hin' : h'.InPayload h.payloadAddr := by
    unfold AllocationHeader.InPayload
    rw [hpayload]
    exact ⟨Nat.le_refl _, Nat.lt_add_of_pos_right (payloadSizeFor_pos _)⟩
  exact (hi.apart_of_ne hmem hmem' hne).not_contains
    ((hi.placed h hmem).payload_in_region hin) ((hi.placed h' hmem').payload_in_region hin')

/-- Records stand in mappings that are apart. -/
theorem Inv.recordsApart (hi : Inv anchor foreign s hs) : RecordsApart hs := by
  apply hi.apart.imp_of_mem
  intro h h' hmem hmem' happart b hb hb'
  exact happart.not_contains ((hi.placed h hmem).metadata_in_region (Or.inl hb))
    ((hi.placed h' hmem').metadata_in_region (Or.inl hb'))

/-- The list is shorter than a walk may be. -/
theorem Inv.length_le (hi : Inv anchor foreign s hs) : hs.length ≤ walkFuel := by
  have hdistinct : (hs.map (·.mappingBase)).Nodup := by
    rw [List.nodup_iff_pairwise_ne, List.pairwise_map]
    apply hi.apart.imp_of_mem
    intro h h' hmem hmem' happart hbase
    change h.mappingBase = h'.mappingBase at hbase
    have hupper := (hi.placed h hmem).upper
    have hlower := (hi.placed h hmem).lower
    have hupper' := (hi.placed h' hmem').upper
    have hlower' := (hi.placed h' hmem').lower
    have hsize : headerSize = 56 ∧ recordSize = 64 := ⟨rfl, rfl⟩
    unfold Region.Apart AllocationHeader.region at happart
    dsimp only at happart
    omega
  have hbound : hs.map (·.mappingBase) ⊆ List.range walkFuel := by
    intro base hbase
    cases List.mem_map.mp hbase with
    | intro h hh =>
      have hwrap := (hi.placed h hh.1).noWrap
      rw [List.mem_range, ← hh.2]
      show h.mappingBase < 0x10000000000000000
      unfold usizeMax at hwrap
      omega
  have hlen := (List.subperm_of_subset hdistinct hbound).length_le
  rwa [List.length_map, List.length_range] at hlen

theorem Inv.registry_eq (hi : Inv anchor foreign s hs) : registry s = some hs :=
  registryFrom_of_chain hi.chain hi.length_le

theorem find_payload_eq_some {h : AllocationHeader} {payload : Nat}
    (hfind : hs.find? (fun h => h.payloadAddr = payload) = some h) :
    h ∈ hs ∧ h.payloadAddr = payload :=
  ⟨List.mem_of_find?_eq_some hfind,
    of_decide_eq_true (List.find?_some (p := fun h : AllocationHeader =>
      decide (h.payloadAddr = payload)) hfind)⟩

/-- **Validation.**  `validate_live_allocation` is the lookup in the registry: a header that the
list has also passes the checks on its copy. -/
theorem Inv.validate (hi : Inv anchor foreign s hs) (payload : Nat) :
    validateLiveAllocation anchor s payload =
      some (hs.find? fun h => h.payloadAddr = payload) := by
  unfold validateLiveAllocation lookupAllocationHeader
  rw [lookupFrom_of_chain hi.chain hi.length_le, Option.map_some]
  cases hfind : hs.find? fun h => h.payloadAddr = payload with
  | none => rfl
  | some h =>
    have hh := find_payload_eq_some hfind
    rw [Option.bind_some, readPayloadHeader, ← hh.2, hi.copies h hh.1, (hi.placed h hh.1).validate,
      Option.bind_some, if_neg (not_not.mpr rfl)]

end

end Rlibc.Alloc
