import Mathlib.Data.List.Nodup
import Rlibc.Alloc.HeapSafety

/-!
# What `realloc` and `reallocarray` do

In any state of a history of admissible calls a live block that is resized is moved with its
contents, or stays as it is.  A size of zero frees the block instead, and a pointer that is no live
block is rejected.
-/

namespace Rlibc.Alloc

open ByteMem

/-- The payloads of the blocks hold the same bytes in both states. -/
def SameBytes (s s' : HeapState) (blocks : List AllocationHeader) : Prop :=
  ∀ h ∈ blocks, ∀ b, h.InPayload b → s'.mem b = s.mem b

/-- The block `h` of the registry `hs` was moved. -/
structure ReallocDone (s : HeapState) (hs : List AllocationHeader) (h : AllocationHeader)
    (size : Nat) (new : AllocationHeader) (result : Nat × HeapState) : Prop where
  pointer : result.1 = new.payloadAddr
  pointer_ne : result.1 ≠ 0
  size_eq : new.requestedSize = size
  aligned : new.alignment = h.alignment ∧ result.1 % h.alignment = 0
  registry_eq : registry result.2 = some (new :: hs.erase h)
  gone : h.payloadAddr ∉ (new :: hs.erase h).map (·.payloadAddr)
  copied : ∀ i < min h.requestedSize size,
    result.2.mem (result.1 + i) = s.mem (h.payloadAddr + i)
  others : SameBytes s result.2 (hs.erase h)

/-- The call failed, and every block of the registry `hs` is as it was. -/
structure ReallocFailed (s : HeapState) (k : Kernel) (hs : List AllocationHeader)
    (result : Nat × HeapState) : Prop where
  pointer : result.1 = 0
  errno : result.2.errno = ENOMEM ∨ ∃ len, decodeRaw (k.mmap len) = .error result.2.errno
  registry_eq : registry result.2 = some hs
  unchanged : SameBytes s result.2 hs

/-- The call freed the block `h` of the registry `hs`. -/
structure ReallocFreed (s : HeapState) (hs : List AllocationHeader) (h : AllocationHeader)
    (result : Nat × HeapState) : Prop where
  pointer : result.1 = 0
  registry_eq : registry result.2 = some (hs.erase h)
  gone : h.payloadAddr ∉ (hs.erase h).map (·.payloadAddr)
  others : SameBytes s result.2 (hs.erase h)

/-- The pointer was rejected. -/
structure ReallocRejected (s : HeapState) (hs : List AllocationHeader)
    (result : Nat × HeapState) : Prop where
  pointer : result.1 = 0
  registry_eq : registry result.2 = some hs
  unchanged : SameBytes s result.2 hs

/-- What `realloc` and `reallocarray` do in a state with the registry `hs`. -/
structure ReallocContract (anchor : Nat) (s : HeapState) (k : Kernel)
    (hs : List AllocationHeader) : Prop where
  live : ∀ h ∈ hs, ∀ size ≠ 0, ∃ result, s.realloc anchor k h.payloadAddr size = some result ∧
    (ReallocFailed s k hs result ∨ ∃ new, ReallocDone s hs h size new result)
  tooLarge : ∀ h ∈ hs, ∀ size, requestTooLarge size →
    ∃ result, s.realloc anchor k h.payloadAddr size = some result ∧
      result.2.errno = ENOMEM ∧ ReallocFailed s k hs result
  zero : ∀ h ∈ hs, ∃ result, s.realloc anchor k h.payloadAddr 0 = some result ∧
    ReallocFreed s hs h result
  unknown : ∀ ptr ≠ 0, ptr ∉ hs.map (·.payloadAddr) → ∀ size, ∃ result,
    s.realloc anchor k ptr size = some result ∧ ReallocRejected s hs result
  overflow : ∀ ptr nmemb size, requestTooLarge (nmemb * size) →
    ∃ result, s.reallocarray anchor k ptr nmemb size = some result ∧
      result.2.errno = ENOMEM ∧ ReallocFailed s k hs result
  array : ∀ ptr nmemb size, ¬ requestTooLarge (nmemb * size) →
    s.reallocarray anchor k ptr nmemb size = s.realloc anchor k ptr (nmemb * size)

section

variable {anchor : Nat} {foreign : List Region} {s : HeapState} {hs : List AllocationHeader}
  {k : Kernel}

/-- Setting `errno` changes no block. -/
theorem Inv.reallocFailed_errno (hi : Inv anchor foreign s hs) :
    ReallocFailed s k hs (0, { s with errno := ENOMEM }) where
  pointer := rfl
  errno := Or.inl rfl
  registry_eq := (hi.withErrno ENOMEM).registry_eq
  unchanged := fun _ _ _ _ => rfl

/-- Taking the block out of the registry. -/
theorem Inv.erase_eq {before after : List AllocationHeader} {h : AllocationHeader}
    (hi : Inv anchor foreign s (before ++ h :: after)) :
    (before ++ h :: after).erase h = before ++ after := by
  have hbefore : h ∉ before := by
    intro hmem
    exact hi.payload_gone (List.mem_map_of_mem (List.mem_append_left _ hmem))
  rw [List.erase_append_right _ hbefore, List.erase_cons_head]

theorem Inv.reallocContract (hi : Inv anchor foreign s hs) (hk : k.Sound s) :
    ReallocContract anchor s k hs where
  live := by
    intro h hmem size hsize
    -- `free` and `realloc` unlink the block, so the registry is split around it.
    obtain ⟨before, after, hsplit⟩ := List.append_of_mem hmem
    rw [hsplit] at hi ⊢
    obtain ⟨result, hrealloc, hresizes⟩ := hi.realloc_live hk hsize
    refine ⟨result, hrealloc, ?_⟩
    cases hresizes with
    -- The new block could not be had: the old one keeps its place and its bytes.
    | failed inv cause kept =>
      left
      refine ⟨rfl, cause, inv.registry_eq, ?_⟩
      intro g hg b hb
      exact kept g.region (hi.mapped g hg) b ((hi.placed g hg).payload_in_region hb)
    -- The old block is gone and the new one stands at the head of the registry.
    | @moved new s' inv gone fits size_eq alignment_eq copied kept =>
      right
      have hplaced := inv.placed new List.mem_cons_self
      have hlower := hplaced.lower
      have hsize : headerSize = 56 ∧ recordSize = 64 := ⟨rfl, rfl⟩
      have herase := hi.erase_eq
      refine ⟨new, rfl, by omega, size_eq, ⟨alignment_eq, ?_⟩, ?_, ?_, copied, ?_⟩
      · rw [← alignment_eq]
        exact hplaced.aligned
      · rw [herase]
        exact inv.registry_eq
      · rw [herase, List.map_cons, List.mem_cons, not_or]
        exact ⟨gone.symm, hi.payload_gone⟩
      · rw [herase]
        exact kept
  tooLarge := by
    intro h hmem size hlarge
    refine ⟨_, ?_, rfl, hi.reallocFailed_errno⟩
    have hlower := (hi.placed h hmem).lower
    have hmetadata : headerSize = 56 ∧ recordSize = 64 := ⟨rfl, rfl⟩
    unfold HeapState.realloc
    rw [if_neg (by omega), if_neg (by omega), if_pos hlarge]
  zero := by
    intro h hmem
    obtain ⟨before, after, hsplit⟩ := List.append_of_mem hmem
    rw [hsplit] at hi ⊢
    obtain ⟨s', hrealloc, inv, kept⟩ := hi.realloc_zero (k := k)
    have herase := hi.erase_eq
    refine ⟨(0, s'), hrealloc, rfl, ?_, ?_, ?_⟩
    · rw [herase]
      exact inv.registry_eq
    · rw [herase]
      exact hi.payload_gone
    · rw [herase]
      exact kept
  unknown := by
    intro ptr hptr hunknown size
    have hlive : ∀ h ∈ hs, h.payloadAddr ≠ ptr := by
      intro h hmem hpayload
      apply hunknown
      rw [← hpayload]
      exact List.mem_map_of_mem hmem
    obtain ⟨errno, hrealloc⟩ := hi.realloc_unknown (k := k) hptr hlive size
    exact ⟨_, hrealloc, rfl, (hi.withErrno errno).registry_eq, fun _ _ _ _ => rfl⟩
  overflow := by
    intro ptr nmemb size hlarge
    refine ⟨_, ?_, rfl, hi.reallocFailed_errno⟩
    unfold HeapState.reallocarray
    rw [checkedCallocSize_eq, if_pos hlarge]
  array := by
    intro ptr nmemb size hfits
    unfold HeapState.reallocarray
    rw [checkedCallocSize_eq, if_neg hfits]

end

/-- **Resizing is atomic.**  In every state of a history of admissible calls, `realloc` and
`reallocarray` keep their contract. -/
theorem realloc_contract (anchor : Nat) (mem : Mem) (errno : Int) (foreign : List Region)
    (calls : List (Kernel × HeapCall)) (s : HeapState) (k : Kernel)
    (hcalls : Lts.EachOffer (heapStep anchor) (Admissible foreign)
      (HeapState.initial mem errno foreign) calls)
    (hrun : Lts.run (heapStep anchor) (HeapState.initial mem errno foreign) calls = some s)
    (hk : k.Sound s) :
    ∃ hs, registry s = some hs ∧ ReallocContract anchor s k hs := by
  obtain ⟨hs, hi⟩ := (heap_inv anchor mem errno hcalls).2.last hrun
  exact ⟨hs, hi.registry_eq, hi.reallocContract hk⟩

/-- The heap after `malloc(10)`. -/
def oneBlock : HeapState := ((HeapState.initial (fun _ => 0) 0 []).malloc 0 onePage 10).2

/-- Growing the block without memory fails and leaves it. -/
theorem realloc_contract_noMemory :
    ∃ hs, registry oneBlock = some hs ∧ ReallocContract 0 oneBlock noMemory hs :=
  realloc_contract 0 (fun _ => 0) 0 [] [(onePage, .malloc 10)] oneBlock noMemory
    ⟨⟨onePage_sound rfl, trivial⟩, fun _ _ => trivial⟩ rfl (noMemory_sound oneBlock)

/-- A size of zero frees the block with no error, and a pointer that is no live block is rejected
with none. -/
theorem realloc_zero_size :
    (registry oneBlock).map (fun hs => hs.map (·.payloadAddr)) = some [0x10080] ∧
      (oneBlock.realloc 0 noMemory 0x10080 0).map (fun r => (r.1, r.2.errno)) = some (0, 0) ∧
      ((oneBlock.realloc 0 noMemory 0x10080 0).bind fun r => registry r.2) = some [] ∧
      (oneBlock.realloc 0 noMemory 0x20000 8).map (fun r => (r.1, r.2.errno)) = some (0, 0) := by
  decide +kernel

end Rlibc.Alloc
