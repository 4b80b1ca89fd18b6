import Mathlib.Algebra.Group.Nat.Defs
import Rlibc.Foundations.ByteMem
import Rlibc.Machine

/-!
# The allocator

Every allocation has a mapping of its own.  A record stands at the base of the mapping, a copy of
its header in front of the payload, and the records of the live allocations form a list through
memory that starts at `ACTIVE_ALLOCATIONS_HEAD`.
-/

namespace Rlibc.Alloc

open ByteMem

abbrev pageSize : Nat := 4096
abbrev mallocAlignment : Nat := 16
abbrev pointerSize : Nat := 8
abbrev minNonzeroAllocation : Nat := 1
/-- `size_of::<AllocationHeader>()`. -/
abbrev headerSize : Nat := 56
/-- `size_of::<AllocationRecord>()`. -/
abbrev recordSize : Nat := 64
abbrev maxRequestSize : Nat := isizeMax
abbrev headerMagic : Nat := 0x524C4942435F414C

structure AllocationHeader where
  magic : Nat
  mappingBase : Nat
  mappingLen : Nat
  payloadAddr : Nat
  requestedSize : Nat
  alignment : Nat
  cookie : Nat
  deriving DecidableEq, Repr

structure AllocationRecord where
  next : Nat
  header : AllocationHeader
  deriving DecidableEq, Repr

/-! ## Arithmetic -/

abbrev requestTooLarge (size : Nat) : Prop := maxRequestSize < size

def checkedCallocSize (nmemb size : Nat) : Option Nat :=
  (checkedMul nmemb size).bind fun total => if requestTooLarge total then none else some total

def payloadSizeFor (requestedSize : Nat) : Nat :=
  if requestedSize = 0 then minNonzeroAllocation else requestedSize

/-- `align_up`; the complement of the mask is that of a `usize`. -/
def alignUp (value alignment : Nat) : Option Nat :=
  (checkedSub alignment 1).bind fun alignmentMask =>
    (checkedAdd value alignmentMask).map fun padded => padded &&& (usizeMax - alignmentMask)

def mappingLenFor (requestedSize alignment : Nat) : Option Nat :=
  (checkedSub alignment 1).bind fun alignmentPadding =>
    (checkedAdd headerSize recordSize).bind fun metadata =>
      (checkedAdd metadata (payloadSizeFor requestedSize)).bind fun unpadded =>
        (checkedAdd unpadded alignmentPadding).bind fun totalSize => alignUp totalSize pageSize

/-- `allocation_cookie_seed`, over the address of `HEADER_COOKIE_ANCHOR`. -/
def allocationCookieSeed (anchor : Nat) : BitVec 64 :=
  (BitVec.ofNat 64 anchor).rotateLeft 17 ^^^ (BitVec.ofNat 64 headerMagic).rotateRight 7

def allocationCookie (anchor mappingBase mappingLen payloadAddr requestedSize alignment : Nat) :
    Nat :=
  ((BitVec.ofNat 64 mappingBase).rotateLeft 5 ^^^ (BitVec.ofNat 64 mappingLen).rotateLeft 11 ^^^
    (BitVec.ofNat 64 payloadAddr).rotateLeft 17 ^^^
    (BitVec.ofNat 64 requestedSize).rotateLeft 23 ^^^
    (BitVec.ofNat 64 alignment).rotateLeft 29 ^^^ allocationCookieSeed anchor).toNat

abbrev isPageAligned (value : Nat) : Prop := value % pageSize = 0

def payloadLowerBoundFor (mappingBase : Nat) : Option Nat :=
  (checkedAdd mappingBase recordSize).bind fun recordEnd => checkedAdd recordEnd headerSize

/-- `alignment.is_power_of_two() && alignment != 0`. -/
abbrev hasAllocatorAlignmentShape (alignment : Nat) : Prop :=
  alignment = 2 ^ alignment.log2 ∧ alignment ≠ 0

abbrev hasValidAlignmentShape (alignment : Nat) : Prop :=
  hasAllocatorAlignmentShape alignment ∧ pointerSize ≤ alignment

abbrev hasGlibcAlignmentShape (alignment : Nat) : Prop := hasAllocatorAlignmentShape alignment

def effectiveAllocationAlignment (alignment : Nat) : Nat :=
  if alignment < mallocAlignment then mallocAlignment else alignment

/-! ## Headers and records in memory -/

/-- The fields in the order of `#[repr(C)]`. -/
def AllocationHeader.words (h : AllocationHeader) : List Nat :=
  [h.magic, h.mappingBase, h.mappingLen, h.payloadAddr, h.requestedSize, h.alignment, h.cookie]

def readHeader (m : Mem) (a : Nat) : AllocationHeader :=
  { magic := wordAt m (a + 8 * 0), mappingBase := wordAt m (a + 8 * 1),
    mappingLen := wordAt m (a + 8 * 2), payloadAddr := wordAt m (a + 8 * 3),
    requestedSize := wordAt m (a + 8 * 4), alignment := wordAt m (a + 8 * 5),
    cookie := wordAt m (a + 8 * 6) }

def readRecord (m : Mem) (a : Nat) : AllocationRecord :=
  { next := wordAt m a, header := readHeader m (a + 8) }

/-- `validate_header_for_payload`. -/
def validateHeaderForPayload (anchor : Nat) (header : AllocationHeader) (payloadAddr : Nat) :
    Option AllocationHeader :=
  if header.magic ≠ headerMagic ∨ header.payloadAddr ≠ payloadAddr then none
  else if ¬ hasAllocatorAlignmentShape header.alignment ∨ payloadAddr % header.alignment ≠ 0 then
    none
  else
    (checkedAdd recordSize headerSize).bind fun metadata =>
      if header.mappingBase = 0 ∨ ¬ isPageAligned header.mappingBase ∨
          header.mappingLen < metadata ∨ ¬ isPageAligned header.mappingLen then none
      else
        let payloadSize := payloadSizeFor header.requestedSize
        (payloadLowerBoundFor header.mappingBase).bind fun payloadLowerBound =>
          (checkedAdd header.mappingBase header.mappingLen).bind fun mappingEnd =>
            (checkedAdd payloadAddr payloadSize).bind fun payloadEnd =>
              if payloadAddr < payloadLowerBound ∨ mappingEnd < payloadEnd then none
              else if header.cookie ≠ allocationCookie anchor header.mappingBase header.mappingLen
                  header.payloadAddr header.requestedSize header.alignment then none
              else some header

def readPayloadHeader (anchor : Nat) (m : Mem) (payload : Nat) : Option AllocationHeader :=
  validateHeaderForPayload anchor (readHeader m (payload - headerSize)) payload

/-! ## State -/

/-- A mapped region `[base, base + len)`. -/
structure Region where
  base : Nat
  len : Nat
  deriving DecidableEq, Repr

/-- Memory, `ACTIVE_ALLOCATIONS_HEAD`, `errno`, and the regions the kernel has mapped. -/
structure HeapState where
  mem : Mem
  head : Nat
  mapped : List Region
  errno : Int

/-- How the kernel answers during a call: the raw result of `mmap` for each length, and whether
`munmap` succeeds. -/
structure Kernel where
  mmap : Nat → Int
  munmap : Bool

/-- `decode_raw`. -/
def decodeRaw (raw : Int) : Except Int Nat :=
  if -4095 ≤ raw ∧ raw ≤ -1 then .error (-raw) else .ok (raw % 0x10000000000000000).toNat

namespace HeapState

/-- `mmap_allocation`.  A fresh anonymous mapping is all zeros. -/
def mmapAllocation (s : HeapState) (k : Kernel) (mappingLen : Nat) : Except Int Nat × HeapState :=
  if isizeMax < mappingLen then (.error ENOMEM, s)
  else
    match decodeRaw (k.mmap mappingLen) with
    | .error errno => (.error errno, s)
    | .ok addr =>
      let s := { s with mapped := ⟨addr, mappingLen⟩ :: s.mapped, mem := fill s.mem addr mappingLen 0 }
      if addr = 0 then (.error ENOMEM, s) else (.ok addr, s)

def munmapAllocation (s : HeapState) (k : Kernel) (mappingBase mappingLen : Nat) : HeapState :=
  if isizeMax < mappingBase then s
  else if isizeMax < mappingLen then s
  else if k.munmap then { s with mapped := s.mapped.erase ⟨mappingBase, mappingLen⟩ }
  else s

end HeapState

def buildAllocationHeader (anchor payload mappingBase mappingLen requestedSize alignment : Nat) :
    AllocationHeader :=
  { magic := headerMagic, mappingBase := mappingBase, mappingLen := mappingLen,
    payloadAddr := payload, requestedSize := requestedSize, alignment := alignment,
    cookie := allocationCookie anchor mappingBase mappingLen payload requestedSize alignment }

/-- `write_allocation_record`; the record stands at the base of the mapping. -/
def writeAllocationRecord (m : Mem) (mappingBase : Nat) (header : AllocationHeader) : Mem :=
  storeWords m mappingBase (0 :: header.words)

def writePayloadHeader (m : Mem) (payload : Nat) (header : AllocationHeader) : Mem :=
  storeWords m (payload - headerSize) header.words

/-! ## The list of live allocations -/

/-- A walk along the list visits each address at most once, so one that makes more turns than
there are addresses never ends. -/
abbrev walkFuel : Nat := 0x10000000000000000

def registerAllocation (s : HeapState) (record : Nat) : HeapState :=
  { s with mem := storeWord s.mem record s.head, head := record }

/-- The loop of `lookup_allocation_header` from `cursor`; `none` if it never ends. -/
def lookupFrom (m : Mem) (payload : Nat) : Nat → Nat → Option (Option AllocationHeader)
  | fuel, cursor =>
    if cursor = 0 then some none
    else
      match fuel with
      | 0 => none
      | fuel + 1 =>
        let record := readRecord m cursor
        if record.header.payloadAddr = payload then some (some record.header)
        else lookupFrom m payload fuel record.next

def lookupAllocationHeader (s : HeapState) (payload : Nat) : Option (Option AllocationHeader) :=
  lookupFrom s.mem payload walkFuel s.head

/-- The loop of `unregister_allocation`; `none` if it never ends. -/
def unregisterFrom (s : HeapState) (payload : Nat) :
    Nat → Nat → Nat → Option (Option AllocationHeader × HeapState)
  | fuel, previous, cursor =>
    if cursor = 0 then some (none, s)
    else
      match fuel with
      | 0 => none
      | fuel + 1 =>
        let record := readRecord s.mem cursor
        if record.header.payloadAddr = payload then
          let s := if previous = 0 then { s with head := record.next }
            else { s with mem := storeWord s.mem previous record.next }
          some (some record.header, { s with mem := storeWord s.mem cursor 0 })
        else unregisterFrom s payload fuel cursor record.next

def unregisterAllocation (s : HeapState) (payload : Nat) :
    Option (Option AllocationHeader × HeapState) :=
  unregisterFrom s payload walkFuel 0 s.head

/-- `validate_live_allocation`; the outer `none` is a walk that never ends. -/
def validateLiveAllocation (anchor : Nat) (s : HeapState) (payload : Nat) :
    Option (Option AllocationHeader) :=
  (lookupAllocationHeader s payload).map fun found =>
    found.bind fun authoritativeHeader =>
      (readPayloadHeader anchor s.mem payload).bind fun payloadHeader =>
        if payloadHeader ≠ authoritativeHeader then none else some authoritativeHeader

/-! ## Allocating and freeing -/

namespace HeapState

/-- `allocate_with_alignment`. -/
def allocateWithAlignment (anchor : Nat) (s : HeapState) (k : Kernel)
    (requestedSize alignment : Nat) : Except Int Nat × HeapState :=
  if requestTooLarge requestedSize ∨ ¬ hasAllocatorAlignmentShape alignment then
    (.error ENOMEM, s)
  else
    let effectiveAlignment := effectiveAllocationAlignment alignment
    match mappingLenFor requestedSize effectiveAlignment with
    | none => (.error ENOMEM, s)
    | some mappingLen =>
      match s.mmapAllocation k mappingLen with
      | (.error errno, s) => (.error errno, s)
      | (.ok baseAddr, s) =>
        -- Every failure from here on gives the mapping back.
        let reclaimed := (.error ENOMEM, s.munmapAllocation k baseAddr mappingLen)
        match payloadLowerBoundFor baseAddr with
        | none => reclaimed
        | some payloadLowerBound =>
          match alignUp payloadLowerBound effectiveAlignment with
          | none => reclaimed
          | some payloadAddr =>
            match checkedAdd payloadAddr (max requestedSize minNonzeroAllocation) with
            | none => reclaimed
            | some payloadEndAddr =>
              match checkedAdd baseAddr mappingLen with
              | none => reclaimed
              | some mappingEndAddr =>
                if mappingEndAddr < payloadEndAddr then reclaimed
                else if payloadAddr = 0 then reclaimed
                else
                  let header := buildAllocationHeader anchor payloadAddr baseAddr mappingLen
                    requestedSize effectiveAlignment
                  let m := writeAllocationRecord s.mem baseAddr header
                  let m := writePayloadHeader m payloadAddr header
                  (.ok payloadAddr, registerAllocation { s with mem := m } baseAddr)

/-- The common end of the entry points that return a pointer: null and `errno` on failure. -/
def pointerOrErrno : Except Int Nat × HeapState → Nat × HeapState
  | (.ok pointer, s) => (pointer, s)
  | (.error errno, s) => (0, { s with errno := errno })

def malloc (anchor : Nat) (s : HeapState) (k : Kernel) (size : Nat) : Nat × HeapState :=
  pointerOrErrno (s.allocateWithAlignment anchor k size mallocAlignment)

/-- `malloc_usable_size`. -/
def mallocUsableSize (anchor : Nat) (s : HeapState) (ptr : Nat) : Option Nat :=
  if ptr = 0 then some 0
  else
    (validateLiveAllocation anchor s ptr).map fun live =>
      match live with
      | none => 0
      | some header => payloadSizeFor header.requestedSize

/-- `zero_allocation_bytes`. -/
def zeroAllocationBytes (s : HeapState) (pointer size : Nat) : HeapState :=
  if size = 0 then s else { s with mem := fill s.mem pointer size 0 }

def calloc (anchor : Nat) (s : HeapState) (k : Kernel) (nmemb size : Nat) : Nat × HeapState :=
  match checkedCallocSize nmemb size with
  | none => (0, { s with errno := ENOMEM })
  | some totalSize =>
    let allocated := s.malloc anchor k totalSize
    if allocated.1 = 0 then (0, allocated.2)
    else (allocated.1, allocated.2.zeroAllocationBytes allocated.1 totalSize)

def alignedAlloc (anchor : Nat) (s : HeapState) (k : Kernel) (alignment size : Nat) :
    Nat × HeapState :=
  if ¬ hasGlibcAlignmentShape alignment then (0, { s with errno := EINVAL })
  else pointerOrErrno (s.allocateWithAlignment anchor k size alignment)

def memalign (anchor : Nat) (s : HeapState) (k : Kernel) (alignment size : Nat) :
    Nat × HeapState :=
  if ¬ hasGlibcAlignmentShape alignment then (0, { s with errno := EINVAL })
  else pointerOrErrno (s.allocateWithAlignment anchor k size alignment)

def posixMemalign (anchor : Nat) (s : HeapState) (k : Kernel) (memptr alignment size : Nat) :
    Int × HeapState :=
  if memptr = 0 ∨ ¬ hasValidAlignmentShape alignment then (EINVAL, s)
  else
    match s.allocateWithAlignment anchor k size alignment with
    | (.ok pointer, s) => (0, { s with mem := storeWord s.mem memptr pointer })
    | (.error errno, s) => (errno, s)

def valloc (anchor : Nat) (s : HeapState) (k : Kernel) (size : Nat) : Nat × HeapState :=
  pointerOrErrno (s.allocateWithAlignment anchor k size pageSize)

def pvalloc (anchor : Nat) (s : HeapState) (k : Kernel) (size : Nat) : Nat × HeapState :=
  if size = 0 then s.valloc anchor k pageSize
  else
    match alignUp size pageSize with
    | some roundedSize => s.valloc anchor k roundedSize
    | none => (0, { s with errno := ENOMEM })

/-- `free`; `none` if a walk along the list never ends. -/
def free (anchor : Nat) (s : HeapState) (k : Kernel) (ptr : Nat) : Option HeapState :=
  if ptr = 0 then some s
  else
    (validateLiveAllocation anchor s ptr).bind fun live =>
      if live.isNone then some s
      else
        (unregisterAllocation s ptr).map fun unregistered =>
          match unregistered with
          | (none, s) => s
          | (some header, s) =>
            if header.mappingBase = 0 ∨ header.mappingLen < recordSize + headerSize then s
            else s.munmapAllocation k header.mappingBase header.mappingLen

def cfree (anchor : Nat) (s : HeapState) (k : Kernel) (ptr : Nat) : Option HeapState :=
  s.free anchor k ptr

def realloc (anchor : Nat) (s : HeapState) (k : Kernel) (ptr size : Nat) :
    Option (Nat × HeapState) :=
  if ptr = 0 then some (s.malloc anchor k size)
  else if size = 0 then (s.free anchor k ptr).map fun s => (0, s)
  else if requestTooLarge size then some (0, { s with errno := ENOMEM })
  else
    (validateLiveAllocation anchor s ptr).bind fun live =>
      match live with
      | none => some (0, s)
      | some oldHeader =>
        match s.allocateWithAlignment anchor k size oldHeader.alignment with
        | (.error errno, s) => some (0, { s with errno := errno })
        | (.ok newPtr, s) =>
          let bytesToCopy := min oldHeader.requestedSize size
          let s := if 0 < bytesToCopy then { s with mem := copy s.mem ptr newPtr bytesToCopy }
            else s
          (s.free anchor k ptr).map fun s => (newPtr, s)

def reallocarray (anchor : Nat) (s : HeapState) (k : Kernel) (ptr nmemb size : Nat) :
    Option (Nat × HeapState) :=
  match checkedCallocSize nmemb size with
  | none => some (0, { s with errno := ENOMEM })
  | some totalSize => s.realloc anchor k ptr totalSize

end HeapState

end Rlibc.Alloc
