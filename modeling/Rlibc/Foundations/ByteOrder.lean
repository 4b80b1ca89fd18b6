import Rlibc.Foundations.ByteMem

/-!
# Byte order

A number of `n` bytes as the list of its bytes, the low byte first or the high byte first, and
what such a list is in memory.
-/

namespace ByteOrder

open ByteMem

/-- The low `n` bytes of a number, the low byte first. -/
def leBytes : Nat → Nat → List UInt8
  | 0, _ => []
  | n + 1, v => UInt8.ofNat v :: leBytes n (v / 256)

/-- The number whose bytes these are, the low byte first. -/
def ofLeBytes : List UInt8 → Nat
  | [] => 0
  | b :: bs => b.toNat + 256 * ofLeBytes bs

/-- The low `n` bytes of a number, the high byte first. -/
def beBytes (n v : Nat) : List UInt8 := (leBytes n v).reverse

/-- The number whose bytes these are, the high byte first. -/
def ofBeBytes (bs : List UInt8) : Nat := ofLeBytes bs.reverse

@[simp] theorem leBytes_length (n v : Nat) : (leBytes n v).length = n := by
  induction n generalizing v with
  | zero => rfl
  | succ n ih => rw [leBytes, List.length_cons, ih]

@[simp] theorem beBytes_length (n v : Nat) : (beBytes n v).length = n := by
  unfold beBytes
  rw [List.length_reverse, leBytes_length]

theorem leBytes_ofLeBytes (bs : List UInt8) : leBytes bs.length (ofLeBytes bs) = bs := by
  induction bs with
  | nil => rfl
  | cons b bs ih =>
    have hb := b.toNat_lt
    have hrest : (b.toNat + 256 * ofLeBytes bs) / 256 = ofLeBytes bs := by omega
    have hbyte : UInt8.ofNat (b.toNat + 256 * ofLeBytes bs) = b := by
      apply UInt8.toNat_inj.mp
      rw [UInt8.toNat_ofNat']
      omega
    rw [List.length_cons, ofLeBytes, leBytes, hrest, ih, hbyte]

theorem ofLeBytes_leBytes {n v : Nat} (hv : v < 256 ^ n) : ofLeBytes (leBytes n v) = v := by
  induction n generalizing v with
  | zero => exact (Nat.lt_one_iff.mp hv).symm
  | succ n ih =>
    rw [pow_succ] at hv
    rw [leBytes, ofLeBytes, ih (Nat.div_lt_of_lt_mul (by rwa [Nat.mul_comm] at hv)),
      UInt8.toNat_ofNat']
    exact Nat.mod_add_div v 256

/-- Bytes written in one order and read in the other come out reversed. -/
theorem leBytes_ofBeBytes (bs : List UInt8) : leBytes bs.length (ofBeBytes bs) = bs.reverse := by
  have hback := leBytes_ofLeBytes bs.reverse
  rwa [List.length_reverse] at hback

theorem beBytes_ofLeBytes (bs : List UInt8) : beBytes bs.length (ofLeBytes bs) = bs.reverse := by
  unfold beBytes
  rw [leBytes_ofLeBytes]

/-! ## Bytes in memory -/

/-- A number read from memory is the number of the bytes that stand there. -/
theorem natAt_eq_ofLeBytes {m : Mem} {a : Nat} {bs : List UInt8} (h : HoldsAt m a bs) :
    natAt m bs.length a = ofLeBytes bs := by
  induction bs generalizing a with
  | nil => rfl
  | cons b bs ih => rw [List.length_cons, natAt, ofLeBytes, ih h.2, h.1]

/-- The `n` bytes at an address. -/
def bytesAt (m : Mem) (a n : Nat) : List UInt8 := (List.range n).map fun i => m (a + i)

@[simp] theorem bytesAt_length (m : Mem) (a n : Nat) : (bytesAt m a n).length = n := by
  unfold bytesAt
  rw [List.length_map, List.length_range]

theorem bytesAt_succ (m : Mem) (a n : Nat) : bytesAt m a (n + 1) = m a :: bytesAt m (a + 1) n := by
  unfold bytesAt
  rw [List.range_succ_eq_map, List.map_cons, List.map_map, Nat.add_zero]
  apply congrArg (m a :: ·)
  apply List.map_congr_left
  intro i _
  show m (a + (i + 1)) = m (a + 1 + i)
  rw [Nat.add_right_comm, Nat.add_assoc]

/-- Bytes that stand at an address are the bytes there. -/
theorem bytesAt_eq {m : Mem} {a : Nat} {bs : List UInt8} (h : HoldsAt m a bs) :
    bytesAt m a bs.length = bs := by
  induction bs generalizing a with
  | nil => rfl
  | cons b bs ih => rw [List.length_cons, bytesAt_succ, ih h.2, h.1]

/-- Write a list of bytes. -/
def writeBytes (m : Mem) : Nat → List UInt8 → Mem
  | _, [] => m
  | a, b :: bs => writeBytes (store m a b) (a + 1) bs

theorem writeBytes_outside {m : Mem} {a b : Nat} {bs : List UInt8}
    (h : b < a ∨ a + bs.length ≤ b) : writeBytes m a bs b = m b := by
  induction bs generalizing m a with
  | nil => rfl
  | cons x bs ih =>
    rw [List.length_cons] at h
    rw [writeBytes, ih (by omega)]
    exact store_ne (by omega)

/-- Bytes of one memory, written to another. -/
theorem writeBytes_bytesAt_inside (m m' : Mem) {source target n i : Nat} (hi : i < n) :
    writeBytes m' target (bytesAt m source n) (target + i) = m (source + i) := by
  induction n generalizing m' source target i with
  | zero => exact absurd hi (Nat.not_lt_zero i)
  | succ n ih =>
    rw [bytesAt_succ, writeBytes]
    cases i with
    | zero => exact (writeBytes_outside (Or.inl (Nat.lt_succ_self target))).trans (store_same ..)
    | succ i =>
      have hrest := @ih (store m' target (m source)) (source + 1) (target + 1) i
        (Nat.lt_of_succ_lt_succ hi)
      rwa [show target + 1 + i = target + (i + 1) by omega,
        show source + 1 + i = source + (i + 1) by omega] at hrest

/-- Copying a range is reading all of it before any of it is written. -/
theorem writeBytes_bytesAt (m : Mem) (source target n : Nat) :
    writeBytes m target (bytesAt m source n) = copy m source target n := by
  funext b
  by_cases hb : target ≤ b ∧ b < target + n
  · rw [show b = target + (b - target) by omega, writeBytes_bytesAt_inside m m (by omega),
      copy_inside m (by omega)]
  · rw [writeBytes_outside (by rw [bytesAt_length]; omega), copy_outside (by omega)]

theorem holdsAt_writeBytes (m : Mem) (a : Nat) (bs : List UInt8) :
    HoldsAt (writeBytes m a bs) a bs := by
  induction bs generalizing m a with
  | nil => trivial
  | cons b bs ih =>
    constructor
    · rw [writeBytes, writeBytes_outside (Or.inl (Nat.lt_succ_self a)), store_same]
    · exact ih (store m a b) (a + 1)

/-- The byte that a write leaves at an address. -/
theorem writeBytes_apply (m : Mem) (a : Nat) (bs : List UInt8) (b : Nat) :
    writeBytes m a bs b = if a ≤ b ∧ b < a + bs.length then bs.getD (b - a) 0 else m b := by
  induction bs generalizing m a with
  | nil => exact (if_neg fun h => absurd h.2 (Nat.not_lt.mpr h.1)).symm
  | cons x bs ih =>
    rw [writeBytes, ih, List.length_cons]
    by_cases hhere : b = a
    · subst hhere
      rw [if_neg (by omega), if_pos (by omega), store_same, Nat.sub_self, List.getD_cons_zero]
    · rw [store_ne hhere]
      by_cases hin : a + 1 ≤ b ∧ b < a + 1 + bs.length
      · rw [if_pos hin, if_pos (by omega), show b - a = b - (a + 1) + 1 by omega,
          List.getD_cons_succ]
      · rw [if_neg hin, if_neg (by omega)]

theorem writeBytes_append (m : Mem) (a : Nat) (xs ys : List UInt8) :
    writeBytes (writeBytes m a xs) (a + xs.length) ys = writeBytes m a (xs ++ ys) := by
  induction xs generalizing m a with
  | nil => rfl
  | cons x xs ih =>
    rw [List.length_cons, List.cons_append, writeBytes, writeBytes,
      show a + (xs.length + 1) = a + 1 + xs.length by omega, ih]

/-- Writes to two ranges that are apart commute. -/
theorem writeBytes_comm (m : Mem) {a b : Nat} {xs ys : List UInt8}
    (h : a + xs.length ≤ b ∨ b + ys.length ≤ a) :
    writeBytes (writeBytes m a xs) b ys = writeBytes (writeBytes m b ys) a xs := by
  funext c
  rw [writeBytes_apply, writeBytes_apply, writeBytes_apply, writeBytes_apply]
  by_cases hx : a ≤ c ∧ c < a + xs.length
  · rw [if_neg (by omega), if_pos hx, if_pos hx]
  · rw [if_neg hx, if_neg hx]

theorem storeNat_eq_writeBytes (m : Mem) (n a v : Nat) :
    storeNat m n a v = writeBytes m a (leBytes n v) := by
  induction n generalizing m a v with
  | zero => rfl
  | succ n ih => rw [storeNat, leBytes, writeBytes, ih]

theorem fill_eq_writeBytes (m : Mem) (a n : Nat) (v : UInt8) :
    fill m a n v = writeBytes m a (List.replicate n v) := by
  funext b
  rw [writeBytes_apply, List.length_replicate]
  unfold fill
  by_cases hin : a ≤ b ∧ b < a + n
  · rw [if_pos hin, if_pos hin, List.getD_eq_getElem?_getD, List.getElem?_replicate,
      if_pos (by omega), Option.getD_some]
  · rw [if_neg hin, if_neg hin]

theorem bytesAt_getD (m : Mem) {a n i : Nat} (h : i < n) : (bytesAt m a n).getD i 0 = m (a + i) := by
  unfold bytesAt
  rw [List.getD_eq_getElem?_getD, List.getElem?_map, List.getElem?_range h, Option.map_some,
    Option.getD_some]

theorem copy_eq_writeBytes (m : Mem) (source target n : Nat) :
    copy m source target n = writeBytes m target (bytesAt m source n) := by
  funext b
  rw [writeBytes_apply, bytesAt_length]
  unfold copy
  by_cases hin : target ≤ b ∧ b < target + n
  · rw [if_pos hin, if_pos hin, bytesAt_getD m (by omega)]
  · rw [if_neg hin, if_neg hin]

theorem bytesAt_take (m : Mem) (a : Nat) {k n : Nat} (h : k ≤ n) :
    (bytesAt m a n).take k = bytesAt m a k := by
  unfold bytesAt
  rw [← List.map_take, List.take_range, Nat.min_eq_left h]

theorem bytesAt_congr {m m' : Mem} {a n : Nat} (h : ∀ b, a ≤ b → b < a + n → m' b = m b) :
    bytesAt m' a n = bytesAt m a n := by
  unfold bytesAt
  apply List.map_congr_left
  intro i hi
  have hlt := List.mem_range.mp hi
  exact h (a + i) (Nat.le_add_right a i) (by omega)

end ByteOrder
