import Rlibc.Foundations.ByteOrder
import Rlibc.Machine

/-!
# `memmove`, `memcpy`, `memset` and `memcmp`

The loops of the memory functions over a byte memory.  Pointers are addresses; the callers promise
that the ranges are objects, so that no address of them wraps.
-/

namespace Rlibc.Memory

open ByteMem ByteOrder

/-- The loop of `copy_bytes_forward` from `idx` on. -/
def copyBytesForwardFrom (m : Mem) (dst src len idx : Nat) : Mem :=
  if idx < len then
    copyBytesForwardFrom (store m (dst + idx) (m (src + idx))) dst src len (idx + 1)
  else m
termination_by len - idx

def copyBytesForward (m : Mem) (dst src len : Nat) : Mem := copyBytesForwardFrom m dst src len 0

/-- The loop of `copy_bytes_backward` over what remains. -/
def copyBytesBackward (m : Mem) (dst src : Nat) : Nat → Mem
  | 0 => m
  | idx + 1 => copyBytesBackward (store m (dst + idx) (m (src + idx))) dst src idx

/-- The loop of `fill_bytes` from `idx` on. -/
def fillBytesFrom (m : Mem) (bytes : Nat) (byte : UInt8) (len idx : Nat) : Mem :=
  if idx < len then fillBytesFrom (store m (bytes + idx) byte) bytes byte len (idx + 1) else m
termination_by len - idx

/-- The pointer that is returned, and the memory after the call. -/
def memmove (m : Mem) (dst src n : Nat) : Nat × Mem :=
  if n = 0 ∨ dst = src then (dst, m)
  else if dst ≤ src ∨ dst - src ≥ n then (dst, copyBytesForward m dst src n)
  else (dst, copyBytesBackward m dst src n)

def memcpy (m : Mem) (dst src n : Nat) : Nat × Mem := memmove m dst src n

/-- `memset`; the byte is `c.to_le_bytes()[0]`. -/
def memset (m : Mem) (s : Nat) (c : BitVec 32) (n : Nat) : Nat × Mem :=
  if n = 0 then (s, m) else (s, fillBytesFrom m s (UInt8.ofNat c.toNat) n 0)

/-- The loop of `memcmp` from `idx` on. -/
def memcmpFrom (m : Mem) (left right len idx : Nat) : Int :=
  if idx < len then
    if m (left + idx) ≠ m (right + idx) then
      (m (left + idx)).toNat - (m (right + idx)).toNat
    else memcmpFrom m left right len (idx + 1)
  else 0
termination_by len - idx

def memcmp (m : Mem) (left right n : Nat) : Int := if n = 0 then 0 else memcmpFrom m left right n 0

/-! ## Copying -/

/-- Upwards, the bytes that are still to be read are the original ones when the destination starts
at or below the source, or behind all of it. -/
theorem copyBytesForwardFrom_eq {m : Mem} {dst src len idx : Nat}
    (hahead : dst ≤ src ∨ src + len ≤ dst) (hidx : idx ≤ len) :
    copyBytesForwardFrom (copy m src dst idx) dst src len idx = copy m src dst len := by
  -- Induction on what is left to copy; `copy m src dst idx` is the loop's invariant.
  induction hleft : len - idx generalizing idx with
  | zero =>
    rw [copyBytesForwardFrom, if_neg (by omega)]
    congr 1
    omega
  | succ left ih =>
    have hunread : copy m src dst idx (src + idx) = m (src + idx) := copy_outside (by omega)
    rw [copyBytesForwardFrom, if_pos (by omega), hunread, store_copy_above]
    exact ih (by omega) (by omega)

theorem copyBytesForward_eq {m : Mem} {dst src len : Nat}
    (hahead : dst ≤ src ∨ src + len ≤ dst) :
    copyBytesForward m dst src len = copy m src dst len := by
  have hloop := copyBytesForwardFrom_eq (m := m) hahead (Nat.zero_le len)
  rwa [copy_zero] at hloop

/-- Downwards, the bytes that are still to be read are the original ones when the source starts at
or below the destination. -/
theorem copyBytesBackward_eq {m : Mem} {dst src : Nat} (hbehind : src ≤ dst) (done : Nat)
    (remaining : Nat) :
    copyBytesBackward (copy m (src + remaining) (dst + remaining) done) dst src remaining =
      copy m src dst (remaining + done) := by
  -- Induction on what remains; the bytes above it are copied.
  induction remaining generalizing done with
  | zero => rw [copyBytesBackward, Nat.add_zero, Nat.add_zero, Nat.zero_add]
  | succ idx ih =>
    have hunread : copy m (src + (idx + 1)) (dst + (idx + 1)) done (src + idx) = m (src + idx) :=
      copy_outside (by omega)
    have hgrow := store_copy_below m (src + idx) (dst + idx) done
    rw [copyBytesBackward, hunread, ← Nat.add_assoc, ← Nat.add_assoc, hgrow, ih (done + 1)]
    congr 1
    omega

/-- `memmove` is a copy through a temporary, and returns the destination. -/
theorem memmove_eq (m : Mem) (dst src n : Nat) :
    memmove m dst src n = (dst, writeBytes m dst (bytesAt m src n)) := by
  rw [writeBytes_bytesAt]
  unfold memmove
  split
  · rename_i htrivial
    rcases htrivial with hn | hsame
    · rw [hn, copy_zero]
    · rw [hsame, copy_self]
  · split
    · rename_i hahead
      rw [copyBytesForward_eq (by omega)]
    · rename_i hbehind
      have hloop := copyBytesBackward_eq (m := m) (show src ≤ dst by omega) 0 n
      rw [copy_zero, Nat.add_zero] at hloop
      rw [hloop]

/-- **Moving.**  However the ranges overlap, the destination receives the bytes that the source
held before the call and nothing else changes; `memcpy` does the same. -/
theorem memmove_contract (m : Mem) (dst src n : Nat) :
    memmove m dst src n = (dst, writeBytes m dst (bytesAt m src n)) ∧
      (∀ i < n, (memmove m dst src n).2 (dst + i) = m (src + i)) ∧
      (∀ b, b < dst ∨ dst + n ≤ b → (memmove m dst src n).2 b = m b) ∧
      memcpy m dst src n = memmove m dst src n := by
  refine ⟨memmove_eq m dst src n, ?_, ?_, rfl⟩
  · intro i hi
    rw [memmove_eq]
    exact writeBytes_bytesAt_inside m m hi
  · intro b hb
    rw [memmove_eq]
    exact writeBytes_outside (by rw [bytesAt_length]; exact hb)

/-! ## Filling and comparing -/

theorem fillBytesFrom_eq (m : Mem) (bytes : Nat) (byte : UInt8) {len idx : Nat} (hidx : idx ≤ len) :
    fillBytesFrom (fill m bytes idx byte) bytes byte len idx = fill m bytes len byte := by
  induction hleft : len - idx generalizing idx with
  | zero =>
    rw [fillBytesFrom, if_neg (by omega)]
    congr 1
    omega
  | succ left ih =>
    have hgrow : store (fill m bytes idx byte) (bytes + idx) byte = fill m bytes (idx + 1) byte := by
      funext b
      unfold store fill
      split_ifs <;> first | rfl | omega
    rw [fillBytesFrom, if_pos (by omega), hgrow]
    exact ih (by omega) (by omega)

/-- `memset` fills the range and nothing else. -/
theorem memset_eq (m : Mem) (s : Nat) (c : BitVec 32) (n : Nat) :
    memset m s c n = (s, fill m s n (UInt8.ofNat c.toNat)) := by
  have hzero : fill m s 0 (UInt8.ofNat c.toNat) = m := by
    funext b
    exact fill_outside (by omega)
  unfold memset
  split
  · rename_i hn
    rw [hn, hzero]
  · have hloop := fillBytesFrom_eq m s (UInt8.ofNat c.toNat) (Nat.zero_le n)
    rw [hzero] at hloop
    rw [hloop]

/-- The difference of the first bytes that differ, or zero. -/
def firstDifference : List UInt8 → List UInt8 → Int
  | x :: xs, y :: ys => if x ≠ y then x.toNat - y.toNat else firstDifference xs ys
  | _, _ => 0

theorem memcmpFrom_eq (m : Mem) (left right : Nat) {len idx : Nat} (hidx : idx ≤ len) :
    memcmpFrom m left right len idx =
      firstDifference (bytesAt m (left + idx) (len - idx)) (bytesAt m (right + idx) (len - idx)) := by
  induction hleft : len - idx generalizing idx with
  | zero =>
    rw [memcmpFrom, if_neg (by omega)]
    rfl
  | succ rest ih =>
    have hnext := @ih (idx + 1) (by omega) (by omega)
    rw [memcmpFrom, if_pos (by omega), bytesAt_succ, bytesAt_succ, firstDifference, hnext,
      Nat.add_assoc, Nat.add_assoc]

/-- `memcmp` is zero exactly on equal ranges. -/
theorem memcmp_eq_zero_iff (m : Mem) (left right n : Nat) :
    memcmp m left right n = 0 ↔ bytesAt m left n = bytesAt m right n := by
  have hlists : ∀ xs ys : List UInt8, xs.length = ys.length →
      (firstDifference xs ys = 0 ↔ xs = ys) := by
    intro xs
    induction xs with
    | nil =>
      intro ys hlength
      rw [List.eq_nil_of_length_eq_zero hlength.symm]
      exact ⟨fun _ => rfl, fun _ => rfl⟩
    | cons x xs ih =>
      intro ys hlength
      cases ys with
      | nil => cases hlength
      | cons y ys =>
        rw [firstDifference]
        by_cases hxy : x = y
        · rw [if_neg (not_not.mpr hxy), ih ys (Nat.succ.inj hlength), hxy, List.cons_inj_right]
        · have hdiff : x.toNat ≠ y.toNat := fun h => hxy (UInt8.toNat_inj.mp h)
          rw [if_pos hxy]
          exact ⟨fun h => absurd h (by omega), fun h => absurd (List.cons.inj h).1 hxy⟩
  have hloop := memcmpFrom_eq m left right (Nat.zero_le n)
  rw [Nat.add_zero, Nat.add_zero, Nat.sub_zero] at hloop
  unfold memcmp
  split
  · rename_i hn
    rw [hn]
    exact ⟨fun _ => rfl, fun _ => rfl⟩
  · rw [hloop]
    exact hlists _ _ (by rw [bytesAt_length, bytesAt_length])

end Rlibc.Memory
