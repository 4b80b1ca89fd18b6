import Mathlib.Algebra.Group.Nat.Defs
import Mathlib.Data.List.Basic

/-!
# Byte-addressed memory

A memory is a total function from addresses to bytes.  The file has the stores (one byte, a
filled or copied range, little-endian words), the relation "these bytes stand at that address",
and the NUL-terminated string that starts at an address, each with the frame lemma that says
which stores leave it alone.
-/

namespace ByteMem

/-- A memory: the byte at every address. -/
abbrev Mem := Nat → UInt8

/-- Store one byte. -/
def store (m : Mem) (a : Nat) (v : UInt8) : Mem := fun b => if b = a then v else m b

@[simp] theorem store_same (m : Mem) (a : Nat) (v : UInt8) : store m a v a = v := if_pos rfl

theorem store_ne {m : Mem} {a b : Nat} {v : UInt8} (h : b ≠ a) : store m a v b = m b := if_neg h

/-! ## Bytes at an address -/

/-- The bytes `xs` stand at `a`. -/
def HoldsAt (m : Mem) : Nat → List UInt8 → Prop
  | _, [] => True
  | a, x :: xs => m a = x ∧ HoldsAt m (a + 1) xs

instance HoldsAt.decidable (m : Mem) : (a : Nat) → (xs : List UInt8) → Decidable (HoldsAt m a xs)
  | _, [] => .isTrue trivial
  | a, x :: xs =>
    match decEq (m a) x, HoldsAt.decidable m (a + 1) xs with
    | .isTrue h, .isTrue hs => .isTrue ⟨h, hs⟩
    | .isFalse h, _ => .isFalse fun hall => h hall.1
    | _, .isFalse hs => .isFalse fun hall => hs hall.2

theorem holdsAt_append {m : Mem} {a : Nat} {xs ys : List UInt8} :
    HoldsAt m a (xs ++ ys) ↔ HoldsAt m a xs ∧ HoldsAt m (a + xs.length) ys := by
  induction xs generalizing a with
  | nil => simp [HoldsAt]
  | cons x xs ih =>
    have hshift : a + (x :: xs).length = a + 1 + xs.length := by
      rw [List.length_cons]
      omega
    rw [List.cons_append, HoldsAt, HoldsAt, ih, hshift, and_assoc]

/-- Memories that agree on the range hold the same bytes there. -/
theorem HoldsAt.congr {m m' : Mem} {a : Nat} {xs : List UInt8} (h : HoldsAt m a xs)
    (hagree : ∀ i < xs.length, m' (a + i) = m (a + i)) : HoldsAt m' a xs := by
  induction xs generalizing a with
  | nil => trivial
  | cons x xs ih =>
    have hhead : m' a = m a := hagree 0 (Nat.zero_lt_succ _)
    apply And.intro (hhead.trans h.1)
    apply ih h.2
    intro i hi
    have hnext := hagree (i + 1) (Nat.succ_lt_succ hi)
    rwa [show a + (i + 1) = a + 1 + i by omega] at hnext

/-! ## Strings that a NUL ends -/

/-- The bytes from `a` up to the first NUL, among the first `n`. -/
def untilNul (m : Mem) : Nat → Nat → List UInt8
  | 0, _ => []
  | n + 1, a => if m a = 0 then [] else m a :: untilNul m n (a + 1)

theorem untilNul_length_le (m : Mem) (n a : Nat) : (untilNul m n a).length ≤ n := by
  induction n generalizing a with
  | zero => exact Nat.le_refl 0
  | succ n ih =>
    unfold untilNul
    split
    · exact Nat.zero_le _
    · exact Nat.succ_le_succ (ih (a + 1))

/-- The bytes of the string stand where it starts. -/
theorem holdsAt_untilNul (m : Mem) (n a : Nat) : HoldsAt m a (untilNul m n a) := by
  induction n generalizing a with
  | zero => trivial
  | succ n ih =>
    unfold untilNul
    split
    · trivial
    · exact ⟨rfl, ih (a + 1)⟩

/-- A string that stands in memory with its NUL is the string found there. -/
theorem untilNul_of_holdsAt {m : Mem} {n a : Nat} {xs : List UInt8} (h : HoldsAt m a (xs ++ [0]))
    (hnul : 0 ∉ xs) (hn : xs.length < n) : untilNul m n a = xs := by
  induction xs generalizing n a with
  | nil =>
    cases n with
    | zero => exact absurd hn (Nat.not_lt_zero _)
    | succ n =>
      rw [untilNul]
      exact if_pos h.1
  | cons x xs ih =>
    cases n with
    | zero => exact absurd hn (Nat.not_lt_zero _)
    | succ n =>
      rw [List.mem_cons, not_or] at hnul
      rw [List.cons_append] at h
      rw [untilNul, if_neg (fun hx => hnul.1 (hx.symm.trans h.1)), h.1,
        ih h.2 hnul.2 (Nat.lt_of_succ_lt_succ hn)]

/-- Entering a string further on drops what was passed. -/
theorem untilNul_drop {m : Mem} {n a k : Nat} (hk : k ≤ (untilNul m n a).length) :
    untilNul m (n - k) (a + k) = (untilNul m n a).drop k := by
  induction k generalizing n a with
  | zero => rfl
  | succ k ih =>
    cases n with
    | zero => exact absurd hk (Nat.not_succ_le_zero k)
    | succ n =>
      by_cases hz : m a = 0
      · rw [untilNul, if_pos hz] at hk
        exact absurd hk (Nat.not_succ_le_zero k)
      · rw [untilNul, if_neg hz] at hk ⊢
        rw [show a + (k + 1) = a + 1 + k by omega, show n + 1 - (k + 1) = n - k by omega,
          List.drop_succ_cons]
        exact ih (Nat.le_of_succ_le_succ hk)

/-- A string depends on its own bytes and on the NUL after them, if that is looked at. -/
theorem untilNul_congr {m m' : Mem} {n a : Nat}
    (hagree : ∀ i ≤ (untilNul m n a).length, i < n → m' (a + i) = m (a + i)) :
    untilNul m' n a = untilNul m n a := by
  induction n generalizing a with
  | zero => rfl
  | succ n ih =>
    have hhead : m' a = m a := hagree 0 (Nat.zero_le _) (Nat.succ_pos n)
    by_cases hz : m a = 0
    · rw [untilNul, untilNul, if_pos hz, if_pos (hhead.trans hz)]
    · rw [untilNul, untilNul, if_neg hz, if_neg (fun h => hz (hhead.symm.trans h)), hhead, ih]
      intro i hi hin
      have hnext := hagree (i + 1) (by
        rw [untilNul, if_neg hz]
        exact Nat.succ_le_succ hi) (Nat.succ_lt_succ hin)
      rwa [show a + (i + 1) = a + 1 + i by omega] at hnext

/-! ## Ranges -/

/-- Set every byte of a range. -/
def fill (m : Mem) (a n : Nat) (v : UInt8) : Mem := fun b => if a ≤ b ∧ b < a + n then v else m b

/-- Copy a range of bytes. -/
def copy (m : Mem) (source target n : Nat) : Mem := fun b =>
  if target ≤ b ∧ b < target + n then m (source + (b - target)) else m b

theorem fill_outside {m : Mem} {a n b : Nat} {v : UInt8} (h : b < a ∨ a + n ≤ b) :
    fill m a n v b = m b := if_neg (by omega)

theorem copy_outside {m : Mem} {source target n b : Nat} (h : b < target ∨ target + n ≤ b) :
    copy m source target n b = m b := if_neg (by omega)

/-- A copy grows upwards by the byte after it. -/
theorem store_copy_above (m : Mem) (source target n : Nat) :
    store (copy m source target n) (target + n) (m (source + n)) = copy m source target (n + 1) := by
  funext b
  by_cases hb : b = target + n
  · rw [hb, store_same]
    unfold copy
    rw [if_pos (by omega), Nat.add_sub_cancel_left]
  · rw [store_ne hb]
    unfold copy
    by_cases hin : target ≤ b ∧ b < target + n
    · rw [if_pos hin, if_pos (by omega)]
    · rw [if_neg hin, if_neg (by omega)]

/-- A copy grows downwards by the byte before it. -/
theorem store_copy_below (m : Mem) (source target n : Nat) :
    store (copy m (source + 1) (target + 1) n) target (m source) = copy m source target (n + 1) := by
  funext b
  by_cases hb : b = target
  · rw [hb, store_same]
    unfold copy
    rw [if_pos (by omega), Nat.sub_self, Nat.add_zero]
  · rw [store_ne hb]
    unfold copy
    by_cases hin : target ≤ b ∧ b < target + (n + 1)
    · rw [if_pos (by omega), if_pos hin]
      congr 1
      omega
    · rw [if_neg (by omega), if_neg hin]

theorem copy_inside (m : Mem) {source target n i : Nat} (hi : i < n) :
    copy m source target n (target + i) = m (source + i) := by
  unfold copy
  rw [if_pos (by omega), Nat.add_sub_cancel_left]

theorem copy_zero (m : Mem) (source target : Nat) : copy m source target 0 = m := by
  funext b
  exact copy_outside (by omega)

theorem copy_self (m : Mem) (a n : Nat) : copy m a a n = m := by
  funext b
  unfold copy
  split
  · congr 1
    omega
  · rfl

/-! ## Little-endian words of eight bytes -/

/-- The number whose `n` bytes stand at `a`, the low byte first. -/
def natAt (m : Mem) : Nat → Nat → Nat
  | 0, _ => 0
  | n + 1, a => (m a).toNat + 256 * natAt m n (a + 1)

/-- Write the low `n` bytes of a number, the low byte first. -/
def storeNat (m : Mem) : Nat → Nat → Nat → Mem
  | 0, _, _ => m
  | n + 1, a, v => storeNat (store m a (UInt8.ofNat v)) n (a + 1) (v / 256)

theorem storeNat_outside {m : Mem} {n a v b : Nat} (h : b < a ∨ a + n ≤ b) :
    storeNat m n a v b = m b := by
  induction n generalizing m a v with
  | zero => rfl
  | succ n ih =>
    rw [storeNat, ih (by omega)]
    exact store_ne (by omega)

theorem natAt_lt (m : Mem) (n a : Nat) : natAt m n a < 256 ^ n := by
  induction n generalizing a with
  | zero => exact Nat.one_pos
  | succ n ih =>
    have hrest := ih (a + 1)
    have hbyte : (m a).toNat < 256 := UInt8.toNat_lt (m a)
    rw [natAt, pow_succ]
    omega

theorem natAt_congr {m m' : Mem} {n a : Nat} (h : ∀ b, a ≤ b → b < a + n → m' b = m b) :
    natAt m' n a = natAt m n a := by
  induction n generalizing a with
  | zero => rfl
  | succ n ih =>
    rw [natAt, natAt, h a (Nat.le_refl a) (by omega),
      ih fun b hlow hhigh => h b (by omega) (by omega)]

theorem natAt_storeNat (m : Mem) {n a v : Nat} (hv : v < 256 ^ n) :
    natAt (storeNat m n a v) n a = v := by
  induction n generalizing m a v with
  | zero =>
    rw [pow_zero] at hv
    exact (Nat.lt_one_iff.mp hv).symm
  | succ n ih =>
    rw [pow_succ] at hv
    have hrest := ih (store m a (UInt8.ofNat v)) (a := a + 1) (v := v / 256)
      (Nat.div_lt_of_lt_mul (by rwa [Nat.mul_comm] at hv))
    have hbyte : storeNat (store m a (UInt8.ofNat v)) n (a + 1) (v / 256) a = UInt8.ofNat v := by
      rw [storeNat_outside (Or.inl (Nat.lt_succ_self a)), store_same]
    rw [natAt, storeNat, hrest, hbyte, UInt8.toNat_ofNat']
    exact Nat.mod_add_div v 256

/-- The word at an address. -/
abbrev wordAt (m : Mem) (a : Nat) : Nat := natAt m 8 a

/-- Write one word. -/
abbrev storeWord (m : Mem) (a v : Nat) : Mem := storeNat m 8 a v

/-- Write words one after the other. -/
def storeWords (m : Mem) : Nat → List Nat → Mem
  | _, [] => m
  | a, v :: vs => storeWords (storeWord m a v) (a + 8) vs

theorem storeWords_outside {m : Mem} {a b : Nat} {vs : List Nat}
    (h : b < a ∨ a + 8 * vs.length ≤ b) : storeWords m a vs b = m b := by
  induction vs generalizing m a with
  | nil => rfl
  | cons v vs ih =>
    rw [List.length_cons] at h
    rw [storeWords, ih (by omega)]
    exact storeNat_outside (by omega)

/-- The words that were written stand where they were written. -/
theorem wordAt_storeWords (m : Mem) {a i v : Nat} {vs : List Nat} (hi : vs[i]? = some v)
    (hv : v < 256 ^ 8) : wordAt (storeWords m a vs) (a + 8 * i) = v := by
  induction vs generalizing m a i with
  | nil => cases hi
  | cons w vs ih =>
    cases i with
    | zero =>
      rw [List.getElem?_cons_zero, Option.some.injEq] at hi
      rw [hi, storeWords, Nat.mul_zero, Nat.add_zero, ← natAt_storeNat m hv]
      apply natAt_congr
      intro b hlow hhigh
      rw [natAt_storeNat m hv]
      exact storeWords_outside (by omega)
    | succ i =>
      rw [List.getElem?_cons_succ] at hi
      rw [storeWords, show a + 8 * (i + 1) = a + 8 + 8 * i by omega]
      exact ih (storeWord m a w) hi

end ByteMem
