import Rlibc.Alloc.Resize
import Rlibc.Foundations.Lts

/-!
# Histories of the allocator

A history is a list of calls, each with the kernel's answers to it, and of bytes that the caller
writes.  If the kernel maps only what is free and the caller writes only what it holds, every
call returns and the registry is sound in every state.
-/

namespace Rlibc.Alloc

open ByteMem

/-- A call of an entry point, or a byte that the caller writes. -/
inductive HeapCall where
  | malloc (size : Nat)
  | calloc (nmemb size : Nat)
  | alignedAlloc (alignment size : Nat)
  | memalign (alignment size : Nat)
  | posixMemalign (memptr alignment size : Nat)
  | valloc (size : Nat)
  | pvalloc (size : Nat)
  | realloc (ptr size : Nat)
  | reallocarray (ptr nmemb size : Nat)
  | free (ptr : Nat)
  | cfree (ptr : Nat)
  | mallocUsableSize (ptr : Nat)
  | write (address : Nat) (byte : UInt8)
  deriving DecidableEq, Repr

/-- What the caller gets back. -/
inductive HeapReply where
  | pointer (address : Nat)
  | status (code : Int)
  | size (bytes : Nat)
  | done
  deriving DecidableEq, Repr

namespace HeapState

/-- One call; `none` if it never returns. -/
def call (anchor : Nat) (s : HeapState) (k : Kernel) : HeapCall → Option (HeapReply × HeapState)
  | .malloc size => some ((s.malloc anchor k size).map .pointer id)
  | .calloc nmemb size => some ((s.calloc anchor k nmemb size).map .pointer id)
  | .alignedAlloc alignment size => some ((s.alignedAlloc anchor k alignment size).map .pointer id)
  | .memalign alignment size => some ((s.memalign anchor k alignment size).map .pointer id)
  | .posixMemalign memptr alignment size =>
    some ((s.posixMemalign anchor k memptr alignment size).map .status id)
  | .valloc size => some ((s.valloc anchor k size).map .pointer id)
  | .pvalloc size => some ((s.pvalloc anchor k size).map .pointer id)
  | .realloc ptr size => (s.realloc anchor k ptr size).map fun r => r.map .pointer id
  | .reallocarray ptr nmemb size =>
    (s.reallocarray anchor k ptr nmemb size).map fun r => r.map .pointer id
  | .free ptr => (s.free anchor k ptr).map fun s => (.done, s)
  | .cfree ptr => (s.cfree anchor k ptr).map fun s => (.done, s)
  | .mallocUsableSize ptr => (s.mallocUsableSize anchor ptr).map fun bytes => (.size bytes, s)
  | .write address byte => some (.done, { s with mem := store s.mem address byte })

/-- The state before the first call: the regions mapped so far belong to the caller. -/
def initial (mem : Mem) (errno : Int) (foreign : List Region) : HeapState :=
  { mem := mem, head := 0, mapped := foreign, errno := errno }

end HeapState

namespace HeapReply

/-- The pointer that is returned, if any. -/
def address : HeapReply → Nat
  | .pointer address => address
  | _ => 0

end HeapReply

/-- The pointers that the caller holds after it was given one. -/
def gain (held : List Nat) (pointer : Nat) : List Nat :=
  if pointer = 0 then held else pointer :: held

/-- The pointers that the caller holds after it gave one back. -/
def release (held : List Nat) (pointer : Nat) : List Nat := held.filter (· ≠ pointer)

/-- The pointers that the caller holds after it resized one and got this one for it. -/
def resize (held : List Nat) (ptr size pointer : Nat) : List Nat :=
  if ptr = 0 then gain held pointer
  else if size = 0 then release held ptr
  else if pointer = 0 then held
  else pointer :: release held ptr

/-- The pointers that the caller was given and has neither freed nor had moved, after a call with
this reply that left this memory. -/
def HeapCall.held (held : List Nat) (reply : HeapReply) (mem : Mem) : HeapCall → List Nat
  | .malloc _ | .calloc _ _ | .alignedAlloc _ _ | .memalign _ _ | .valloc _ | .pvalloc _ =>
    gain held reply.address
  | .posixMemalign memptr _ _ => if reply = .status 0 then gain held (wordAt mem memptr) else held
  | .realloc ptr size => resize held ptr size reply.address
  | .reallocarray ptr nmemb size => resize held ptr (nmemb * size) reply.address
  | .free ptr | .cfree ptr => release held ptr
  | .mallocUsableSize _ | .write _ _ => held

/-- One call with the kernel's answers, as a step. -/
def heapStep (anchor : Nat) (s : HeapState) (c : Kernel × HeapCall) : Option HeapState :=
  (s.call anchor c.1 c.2).map (·.2)

/-- The same, with the pointers that the caller holds. -/
def heldStep (anchor : Nat) (s : HeapState × List Nat) (c : Kernel × HeapCall) :
    Option (HeapState × List Nat) :=
  (s.1.call anchor c.1 c.2).map fun r => (r.2, c.2.held s.2 r.1 r.2.mem)

/-- The kernel maps only what is free, and the caller writes only to payloads it holds and to
regions of its own; `posix_memalign` writes one pointer for it. -/
def Admissible (foreign : List Region) (s : HeapState) (c : Kernel × HeapCall) : Prop :=
  c.1.Sound s ∧
    match c.2 with
    | .write address _ => MayWrite foreign ((registry s).getD []) address
    | .posixMemalign memptr _ _ => memptr ≠ 0 →
      ∀ i < pointerSize, MayWrite foreign ((registry s).getD []) (memptr + i)
    | _ => True

/-- What holds of the registry in every state. -/
structure RegistrySound (anchor : Nat) (s : HeapState) (hs : List AllocationHeader) : Prop where
  /-- The list in memory is the registry, and its records stand at the bases of the mappings. -/
  chain : Chain s.mem s.head hs 0
  distinct : (hs.map (·.payloadAddr)).Nodup
  aligned : ∀ h ∈ hs, h.payloadAddr % h.alignment = 0 ∧ (∃ k, h.alignment = 2 ^ k) ∧
    16 ≤ h.alignment
  /-- Record, header and payload follow each other inside the mapping. -/
  inside : ∀ h ∈ hs, headerSize ≤ h.payloadAddr ∧
    h.mappingBase + recordSize ≤ h.payloadAddr - headerSize ∧
    h.payloadAddr + max 1 h.requestedSize ≤ h.mappingBase + h.mappingLen
  mapped : ∀ h ∈ hs, h.region ∈ s.mapped
  apart : hs.Pairwise fun h h' => h.region.Apart h'.region
  /-- Validation returns, and succeeds for the registered payloads and for nothing else. -/
  live : ∀ p, ∃ found, validateLiveAllocation anchor s p = some found ∧
    (found.isSome ↔ p ∈ hs.map (·.payloadAddr))

section

variable {anchor : Nat} {foreign : List Region} {s : HeapState} {hs : List AllocationHeader}
  {k : Kernel}

theorem Inv.sound (hi : Inv anchor foreign s hs) : RegistrySound anchor s hs where
  chain := hi.chain
  distinct := by
    rw [List.nodup_iff_pairwise_ne, List.pairwise_map]
    apply hi.apart.imp_of_mem
    intro h h' hmem hmem' happart hpayload
    have hsame := hi.payload_unique hmem hmem' hpayload
    have hlower := (hi.placed h hmem).lower
    have hupper := (hi.placed h hmem).upper
    have hpos := payloadSizeFor_pos h.requestedSize
    have hlen : 0 < h.region.len := by
      show 0 < h.mappingLen
      omega
    exact happart.ne_of_pos hlen (congrArg AllocationHeader.region hsame.symm)
  aligned := fun h hmem =>
    have hp := hi.placed h hmem
    ⟨hp.aligned, ⟨_, hp.shape.1⟩, hp.alignment_ge⟩
  inside := by
    intro h hmem
    have hlower := (hi.placed h hmem).lower
    have hupper := (hi.placed h hmem).upper
    rw [payloadSizeFor_eq_max] at hupper
    have hsize : headerSize = 56 ∧ recordSize = 64 := ⟨rfl, rfl⟩
    omega
  mapped := hi.mapped
  apart := hi.apart
  live := by
    intro p
    refine ⟨_, hi.validate p, ?_⟩
    rw [List.find?_isSome, List.mem_map]
    simp only [decide_eq_true_eq]

/-! ## The pointers that the caller holds -/

/-- The caller holds the registered payloads. -/
def Tracks (held : List Nat) (hs : List AllocationHeader) : Prop :=
  ∀ p, p ∈ held ↔ p ∈ hs.map (·.payloadAddr)

theorem Tracks.gain {held : List Nat} {h : AllocationHeader} (htracks : Tracks held hs)
    (hne : h.payloadAddr ≠ 0) : Tracks (gain held h.payloadAddr) (h :: hs) := by
  intro p
  unfold Rlibc.Alloc.gain
  rw [if_neg hne, List.mem_cons, List.map_cons, List.mem_cons, htracks p]

theorem Tracks.release {held : List Nat} {hs' : List AllocationHeader} {ptr : Nat}
    (htracks : Tracks held hs)
    (hfreed : ∀ p, p ∈ hs'.map (·.payloadAddr) ↔ p ∈ hs.map (·.payloadAddr) ∧ p ≠ ptr) :
    Tracks (release held ptr) hs' := by
  intro p
  unfold Rlibc.Alloc.release
  rw [List.mem_filter, hfreed, htracks p, decide_eq_true_eq]

/-- The registry behind a call that may have returned a new block. -/
inductive Gained (hs : List AllocationHeader) : Nat → List AllocationHeader → Prop
  | failed : Gained hs 0 hs
  | placed {h : AllocationHeader} (hne : h.payloadAddr ≠ 0) : Gained hs h.payloadAddr (h :: hs)

theorem Gained.tracks {pointer : Nat} {hs' : List AllocationHeader} (h : Gained hs pointer hs')
    {held : List Nat} (htracks : Tracks held hs) : Tracks (Rlibc.Alloc.gain held pointer) hs' := by
  cases h with
  | failed => exact htracks
  | placed hne => exact htracks.gain hne

theorem Inv.payload_ne (hi : Inv anchor foreign s hs) {h : AllocationHeader} (hmem : h ∈ hs) :
    h.payloadAddr ≠ 0 := by
  have hlower := (hi.placed h hmem).lower
  have hsize : headerSize = 56 ∧ recordSize = 64 := ⟨rfl, rfl⟩
  omega

/-! ## The entry points -/

/-- The entry points that return what `allocate_with_alignment` returned. -/
theorem Inv.pointerOrErrno (hi : Inv anchor foreign s hs) (hk : k.Sound s) (size alignment : Nat) :
    ∃ hs', Inv anchor foreign
        (HeapState.pointerOrErrno (s.allocateWithAlignment anchor k size alignment)).2 hs' ∧
      Gained hs (HeapState.pointerOrErrno (s.allocateWithAlignment anchor k size alignment)).1
        hs' := by
  have hallocate := hi.allocate hk size alignment
  generalize s.allocateWithAlignment anchor k size alignment = allocated at hallocate ⊢
  cases hallocate with
  | failed inv => exact ⟨hs, inv.withErrno _, .failed⟩
  | placed inv => exact ⟨_, inv, .placed (inv.payload_ne List.mem_cons_self)⟩

theorem Inv.alignedAlloc (hi : Inv anchor foreign s hs) (hk : k.Sound s) (alignment size : Nat) :
    ∃ hs', Inv anchor foreign (s.alignedAlloc anchor k alignment size).2 hs' ∧
      Gained hs (s.alignedAlloc anchor k alignment size).1 hs' := by
  unfold HeapState.alignedAlloc
  split
  · exact ⟨hs, hi.withErrno EINVAL, .failed⟩
  · exact hi.pointerOrErrno hk size alignment

theorem Inv.pvalloc (hi : Inv anchor foreign s hs) (hk : k.Sound s) (size : Nat) :
    ∃ hs', Inv anchor foreign (s.pvalloc anchor k size).2 hs' ∧
      Gained hs (s.pvalloc anchor k size).1 hs' := by
  unfold HeapState.pvalloc HeapState.valloc
  split
  · exact hi.pointerOrErrno hk pageSize pageSize
  · split
    · rename_i rounded hrounded
      exact hi.pointerOrErrno hk rounded pageSize
    · exact ⟨hs, hi.withErrno ENOMEM, .failed⟩

theorem Inv.calloc (hi : Inv anchor foreign s hs) (hk : k.Sound s) (nmemb size : Nat) :
    ∃ hs', Inv anchor foreign (s.calloc anchor k nmemb size).2 hs' ∧
      Gained hs (s.calloc anchor k nmemb size).1 hs' := by
  unfold HeapState.calloc
  split
  · exact ⟨hs, hi.withErrno ENOMEM, .failed⟩
  · rename_i total htotal
    unfold HeapState.malloc
    dsimp only
    have hallocate := hi.allocate hk total mallocAlignment
    generalize s.allocateWithAlignment anchor k total mallocAlignment = allocated at hallocate ⊢
    cases hallocate with
    | failed inv => exact ⟨hs, inv.withErrno _, .failed⟩
    | @placed h s' inv size_eq =>
      have hne := inv.payload_ne List.mem_cons_self
      unfold HeapState.pointerOrErrno
      dsimp only
      rw [if_neg hne]
      unfold HeapState.zeroAllocationBytes
      refine ⟨h :: hs, ?_, .placed hne⟩
      split
      · exact inv
      · apply inv.write
        -- What is zeroed is the new payload.
        intro b hb
        apply fill_outside
        by_contra hin
        apply hb
        refine Or.inl ⟨h, List.mem_cons_self, ?_⟩
        have hsize := le_payloadSizeFor h.requestedSize
        rw [size_eq] at hsize
        unfold AllocationHeader.InPayload
        rw [size_eq]
        omega

theorem Inv.posixMemalign (hi : Inv anchor foreign s hs) (hk : k.Sound s)
    {memptr : Nat} (hmemptr : memptr ≠ 0 → ∀ i < pointerSize, MayWrite foreign hs (memptr + i))
    (alignment size : Nat) :
    ∃ hs', Inv anchor foreign (s.posixMemalign anchor k memptr alignment size).2 hs' ∧
      Gained hs (if (s.posixMemalign anchor k memptr alignment size).1 = 0 then
        wordAt (s.posixMemalign anchor k memptr alignment size).2.mem memptr else 0) hs' := by
  unfold HeapState.posixMemalign
  split
  · exact ⟨hs, hi, .failed⟩
  · rename_i hvalid
    have hne : memptr ≠ 0 := fun hzero => hvalid (Or.inl hzero)
    have hallocate := hi.allocate hk size alignment
    generalize s.allocateWithAlignment anchor k size alignment = allocated at hallocate ⊢
    cases hallocate with
    | @failed errno s' inv cause =>
      have herrno : errno ≠ 0 := by
        cases cause with
        | inl heq =>
          rw [heq]
          decide
        | inr hraw =>
          obtain ⟨len, hraw⟩ := hraw
          exact decodeRaw_error_ne hraw
      refine ⟨hs, inv, ?_⟩
      rw [if_neg herrno]
      exact .failed
    | @placed h s' inv =>
      have hplaced := inv.placed h List.mem_cons_self
      have hfits : h.payloadAddr < 256 ^ 8 := by
        have hupper := hplaced.upper
        have hwrap := hplaced.noWrap
        unfold usizeMax at hwrap
        omega
      refine ⟨h :: hs, inv.write ?_, ?_⟩
      · intro b hb
        apply storeNat_outside
        by_contra hin
        have hmay := hmemptr hne (b - memptr) (by
          have hpointer : pointerSize = 8 := rfl
          omega)
        rw [show memptr + (b - memptr) = b by omega] at hmay
        apply hb
        cases hmay with
        | inl hpayload =>
          cases hpayload with
          | intro h' hh' => exact Or.inl ⟨h', List.mem_cons_of_mem h hh'.1, hh'.2⟩
        | inr hforeign => exact Or.inr hforeign
      · have hstored : wordAt (storeWord s'.mem memptr h.payloadAddr) memptr = h.payloadAddr :=
          natAt_storeNat s'.mem hfits
        dsimp only
        rw [if_pos rfl, hstored]
        exact .placed (inv.payload_ne List.mem_cons_self)

theorem Inv.realloc (hi : Inv anchor foreign s hs) (hk : k.Sound s) (ptr size : Nat) :
    ∃ reply s' hs', s.realloc anchor k ptr size = some (reply, s') ∧
      Inv anchor foreign s' hs' ∧
      ∀ held, Tracks held hs → Tracks (resize held ptr size reply) hs' := by
  unfold resize
  by_cases hptr : ptr = 0
  · unfold HeapState.realloc
    simp only [if_pos hptr]
    obtain ⟨hs', hs'inv, hgained⟩ := hi.pointerOrErrno hk size mallocAlignment
    exact ⟨_, _, hs', rfl, hs'inv, fun held htracks => hgained.tracks htracks⟩
  · simp only [if_neg hptr]
    by_cases hsize : size = 0
    · simp only [if_pos hsize]
      obtain ⟨s', hs', hfree, inv, hfreed⟩ := hi.free (k := k) ptr
      refine ⟨0, s', hs', ?_, inv, fun held htracks => htracks.release hfreed⟩
      unfold HeapState.realloc
      rw [if_neg hptr, if_pos hsize, hfree]
      rfl
    · simp only [if_neg hsize]
      by_cases hlive : ∀ h ∈ hs, h.payloadAddr ≠ ptr
      · obtain ⟨errno, hrealloc⟩ := hi.realloc_unknown (k := k) hptr hlive size
        exact ⟨_, _, hs, hrealloc, hi.withErrno errno, fun held htracks => htracks⟩
      · simp only [not_forall, not_not] at hlive
        obtain ⟨h, hmem, hpayload⟩ := hlive
        obtain ⟨before, after, hsplit⟩ := List.append_of_mem hmem
        rw [hsplit] at hi ⊢
        rw [← hpayload]
        obtain ⟨result, hrealloc, hresizes⟩ := hi.realloc_live hk hsize
        cases hresizes with
        | failed inv => exact ⟨_, _, _, hrealloc, inv, fun held htracks => htracks⟩
        | @moved new s' inv =>
          refine ⟨_, _, _, hrealloc, inv, fun held htracks p => ?_⟩
          have hgone := hi.payload_gone
          rw [if_neg (inv.payload_ne List.mem_cons_self), List.mem_cons, List.map_cons,
            List.mem_cons]
          unfold Rlibc.Alloc.release
          rw [List.mem_filter, htracks p, decide_eq_true_eq]
          apply or_congr_right
          simp only [List.map_append, List.map_cons, List.mem_append, List.mem_cons] at hgone ⊢
          constructor
          · rintro ⟨hbefore | heq | hafter, hne⟩
            · exact Or.inl hbefore
            · exact absurd heq hne
            · exact Or.inr hafter
          · intro hp
            exact ⟨hp.imp_right Or.inr, fun heq => hgone (heq ▸ hp)⟩

/-- **One call.**  An admissible call returns, leaves a sound registry, and the caller holds the
payloads in it. -/
theorem Inv.call (hi : Inv anchor foreign s hs) {c : Kernel × HeapCall}
    (hc : Admissible foreign s c) :
    ∃ reply s' hs', s.call anchor c.1 c.2 = some (reply, s') ∧ Inv anchor foreign s' hs' ∧
      ∀ held, Tracks held hs → Tracks (c.2.held held reply s'.mem) hs' := by
  have hk := hc.1
  have hmay := hc.2
  have hregistry : (registry s).getD [] = hs := by
    rw [hi.registry_eq]
    rfl
  rw [hregistry] at hmay
  unfold HeapState.call
  cases hcall : c.2 with
  | malloc size =>
    obtain ⟨hs', inv, hgained⟩ := hi.pointerOrErrno hk size mallocAlignment
    exact ⟨_, _, hs', rfl, inv, fun held htracks => hgained.tracks htracks⟩
  | calloc nmemb size =>
    obtain ⟨hs', inv, hgained⟩ := hi.calloc hk nmemb size
    exact ⟨_, _, hs', rfl, inv, fun held htracks => hgained.tracks htracks⟩
  | alignedAlloc alignment size =>
    obtain ⟨hs', inv, hgained⟩ := hi.alignedAlloc hk alignment size
    exact ⟨_, _, hs', rfl, inv, fun held htracks => hgained.tracks htracks⟩
  | memalign alignment size =>
    -- `memalign` has the body of `aligned_alloc`.
    obtain ⟨hs', inv, hgained⟩ := hi.alignedAlloc hk alignment size
    exact ⟨_, _, hs', rfl, inv, fun held htracks => hgained.tracks htracks⟩
  | posixMemalign memptr alignment size =>
    rw [hcall] at hmay
    obtain ⟨hs', inv, hgained⟩ := hi.posixMemalign hk hmay alignment size
    dsimp only
    generalize s.posixMemalign anchor c.1 memptr alignment size = r at inv hgained ⊢
    refine ⟨.status r.1, r.2, hs', rfl, inv, fun held htracks => ?_⟩
    have htracks' := hgained.tracks htracks
    unfold HeapCall.held
    dsimp only
    by_cases hzero : r.1 = 0
    · rw [if_pos (congrArg HeapReply.status hzero)]
      rw [if_pos hzero] at htracks'
      exact htracks'
    · rw [if_neg fun h => hzero (HeapReply.status.inj h)]
      rw [if_neg hzero] at htracks'
      exact htracks'
  | valloc size =>
    obtain ⟨hs', inv, hgained⟩ := hi.pointerOrErrno hk size pageSize
    exact ⟨_, _, hs', rfl, inv, fun held htracks => hgained.tracks htracks⟩
  | pvalloc size =>
    obtain ⟨hs', inv, hgained⟩ := hi.pvalloc hk size
    exact ⟨_, _, hs', rfl, inv, fun held htracks => hgained.tracks htracks⟩
  | realloc ptr size =>
    obtain ⟨reply, s', hs', hrealloc, inv, htracks⟩ := hi.realloc hk ptr size
    dsimp only
    rw [hrealloc]
    exact ⟨_, _, hs', rfl, inv, htracks⟩
  | reallocarray ptr nmemb size =>
    unfold HeapState.reallocarray
    dsimp only
    rw [checkedCallocSize_eq]
    by_cases hlarge : requestTooLarge (nmemb * size)
    · rw [if_pos hlarge]
      refine ⟨_, _, hs, rfl, hi.withErrno ENOMEM, fun held htracks => ?_⟩
      -- a product that is too large is not zero, so that nothing is freed
      have hproduct : nmemb * size ≠ 0 := by
        intro hzero
        rw [hzero] at hlarge
        exact absurd hlarge (by decide)
      unfold HeapCall.held resize
      dsimp only
      rw [if_neg hproduct]
      by_cases hptr : ptr = 0
      · rw [if_pos hptr]
        exact htracks
      · rw [if_neg hptr]
        exact htracks
    · rw [if_neg hlarge]
      obtain ⟨reply, s', hs', hrealloc, inv, htracks⟩ := hi.realloc hk ptr (nmemb * size)
      dsimp only
      rw [hrealloc]
      exact ⟨_, _, hs', rfl, inv, htracks⟩
  | free ptr =>
    obtain ⟨s', hs', hfree, inv, hfreed⟩ := hi.free (k := c.1) ptr
    dsimp only
    rw [hfree]
    exact ⟨_, _, hs', rfl, inv, fun held htracks => htracks.release hfreed⟩
  | cfree ptr =>
    obtain ⟨s', hs', hfree, inv, hfreed⟩ := hi.free (k := c.1) ptr
    unfold HeapState.cfree
    dsimp only
    rw [hfree]
    exact ⟨_, _, hs', rfl, inv, fun held htracks => htracks.release hfreed⟩
  | mallocUsableSize ptr =>
    unfold HeapState.mallocUsableSize
    dsimp only
    split
    · exact ⟨_, _, hs, rfl, hi, fun held htracks => htracks⟩
    · rw [hi.validate]
      exact ⟨_, _, hs, rfl, hi, fun held htracks => htracks⟩
  | write address byte =>
    rw [hcall] at hmay
    refine ⟨_, _, hs, rfl, hi.write ?_, fun held htracks => htracks⟩
    intro b hb
    apply store_ne
    intro hsame
    exact hb (hsame ▸ hmay)

end

theorem initial_inv (anchor : Nat) (mem : Mem) (errno : Int) (foreign : List Region) :
    Inv anchor foreign (HeapState.initial mem errno foreign) [] where
  chain := rfl
  placed := fun _ hmem => nomatch hmem
  copies := fun _ hmem => nomatch hmem
  mapped := fun _ hmem => nomatch hmem
  apart := List.Pairwise.nil
  foreignMapped := fun _ hr => hr
  foreignApart := fun _ _ _ hmem => nomatch hmem

/-- Every call of a history of admissible calls returns and keeps the invariant. -/
theorem heap_inv (anchor : Nat) (mem : Mem) (errno : Int) {foreign : List Region}
    {calls : List (Kernel × HeapCall)}
    (hcalls : Lts.EachOffer (heapStep anchor) (Admissible foreign)
      (HeapState.initial mem errno foreign) calls) :
    (Lts.run (heapStep anchor) (HeapState.initial mem errno foreign) calls).isSome ∧
      Lts.Always (heapStep anchor) (fun s => ∃ hs, Inv anchor foreign s hs)
        (HeapState.initial mem errno foreign) calls := by
  refine Lts.run_of_eachOffer (Q := Admissible foreign) ?_
    ⟨[], initial_inv anchor mem errno foreign⟩ hcalls
  intro s c hi hc
  obtain ⟨hs, hi⟩ := hi
  obtain ⟨reply, s', hs', hcall, hi', -⟩ := hi.call hc
  refine ⟨s', ?_, hs', hi'⟩
  unfold heapStep
  rw [hcall]
  rfl

/-- In every state the caller holds the payloads of the registry. -/
theorem heap_held (anchor : Nat) (mem : Mem) (errno : Int) {foreign : List Region}
    {calls : List (Kernel × HeapCall)}
    (hcalls : Lts.EachOffer (heapStep anchor) (Admissible foreign)
      (HeapState.initial mem errno foreign) calls) :
    Lts.Always (heldStep anchor) (fun s => ∃ hs, Inv anchor foreign s.1 hs ∧ Tracks s.2 hs)
      (HeapState.initial mem errno foreign, []) calls := by
  have hproject : ∀ s c s', heldStep anchor s c = some s' → heapStep anchor s.1 c = some s'.1 := by
    intro s c s' hs'
    unfold heldStep at hs'
    obtain ⟨r, hr, heq⟩ := Option.map_eq_some_iff.mp hs'
    unfold heapStep
    rw [hr, ← heq]
    rfl
  have hlift : Lts.EachOffer (heldStep anchor) (fun s c => Admissible foreign s.1 c)
      (HeapState.initial mem errno foreign, []) calls :=
    Lts.EachOffer.lift hproject hcalls
  refine (Lts.run_of_eachOffer ?_
    ⟨[], initial_inv anchor mem errno foreign, fun _ => Iff.rfl⟩ hlift).2
  intro s c hi hc
  obtain ⟨hs, hi, htracks⟩ := hi
  obtain ⟨reply, s', hs', hcall, hi', hheld⟩ := hi.call hc
  refine ⟨(s', c.2.held s.2 reply s'.mem), ?_, hs', hi', hheld s.2 htracks⟩
  unfold heldStep
  rw [hcall]
  rfl

/-- **The heap is sound.**  In every history of admissible calls, every call returns, the registry
is sound in every state, and a pointer passes validation exactly if the caller was given it and has
neither freed it nor had it moved since. -/
theorem heap_sound (anchor : Nat) (mem : Mem) (errno : Int) (foreign : List Region)
    (calls : List (Kernel × HeapCall))
    (hcalls : Lts.EachOffer (heapStep anchor) (Admissible foreign)
      (HeapState.initial mem errno foreign) calls) :
    (Lts.run (heapStep anchor) (HeapState.initial mem errno foreign) calls).isSome ∧
      Lts.Always (heapStep anchor)
        (fun s => ∃ hs, registry s = some hs ∧ RegistrySound anchor s hs)
        (HeapState.initial mem errno foreign) calls ∧
      Lts.Always (heldStep anchor)
        (fun s => ∀ p, (∃ header, validateLiveAllocation anchor s.1 p = some (some header)) ↔
          p ∈ s.2)
        (HeapState.initial mem errno foreign, []) calls := by
  have hrun := heap_inv anchor mem errno hcalls
  refine ⟨hrun.1, hrun.2.imp ?_, (heap_held anchor mem errno hcalls).imp ?_⟩
  · intro s hi
    cases hi with
    | intro hs hi => exact ⟨hs, hi.registry_eq, hi.sound⟩
  · rintro s ⟨hs, hi, htracks⟩ p
    obtain ⟨found, hfound, hlive⟩ := hi.sound.live p
    rw [htracks p, ← hlive, hfound]
    cases found with
    | none => exact iff_of_false (fun h => by cases h.choose_spec) (by decide)
    | some header => exact iff_of_true ⟨header, rfl⟩ rfl

/-- A kernel with one free page at `0x10000`, and one that has no memory left. -/
def onePage : Kernel := ⟨fun len => if len = 4096 then 0x10000 else -12, true⟩

def noMemory : Kernel := ⟨fun _ => -12, true⟩

theorem noMemory_sound (s : HeapState) : noMemory.Sound s := by
  intro len addr h
  cases h

theorem onePage_sound {s : HeapState} (hmapped : s.mapped = []) : onePage.Sound s := by
  intro len addr h
  unfold onePage at h
  dsimp only at h
  split at h
  · rename_i hlen
    cases h
    refine ⟨by decide, by decide, by omega, fun r hr => ?_⟩
    rw [hmapped] at hr
    cases hr
  · cases h

/-- `malloc(10)`, a write to the payload it returns, `realloc` without memory, and `free`. -/
theorem heap_sound_run :
    let calls := [(onePage, .malloc 10), (noMemory, .write 0x10080 7),
      (noMemory, .realloc 0x10080 20), (noMemory, .free 0x10080)]
    (Lts.run (heapStep 0) (HeapState.initial (fun _ => 0) 0 []) calls).isSome ∧
      Lts.Always (heapStep 0) (fun s => ∃ hs, registry s = some hs ∧ RegistrySound 0 s hs)
        (HeapState.initial (fun _ => 0) 0 []) calls ∧
      Lts.Always (heldStep 0)
        (fun s => ∀ p, (∃ header, validateLiveAllocation 0 s.1 p = some (some header)) ↔ p ∈ s.2)
        (HeapState.initial (fun _ => 0) 0 [], []) calls := by
  intro calls
  apply heap_sound
  refine ⟨⟨onePage_sound rfl, trivial⟩, fun s1 h1 => ⟨⟨noMemory_sound s1, ?_⟩, fun s2 _ =>
    ⟨⟨noMemory_sound s2, trivial⟩, fun s3 _ => ⟨⟨noMemory_sound s3, trivial⟩, fun _ _ =>
      trivial⟩⟩⟩⟩
  have hmay : ∀ s1 ∈ heapStep 0 (HeapState.initial (fun _ => 0) 0 []) (onePage, .malloc 10),
      MayWrite [] ((registry s1).getD []) 0x10080 := by decide +kernel
  exact hmay s1 h1

end Rlibc.Alloc
