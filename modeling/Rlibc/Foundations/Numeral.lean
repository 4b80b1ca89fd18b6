import Mathlib.Data.Nat.Digits.Defs
import Mathlib.Data.Nat.Digits.Lemmas

/-!
# Numerals, most significant digit first

The value of a list of digits by Horner's rule, and the list of digits of a number.  Mathlib's
`Nat.digits` and `Nat.ofDigits` have the least significant digit first; text has it last.
-/

namespace Numeral

/-- Horner's rule. -/
def value (base : Nat) (ds : List Nat) : Nat := ds.foldl (fun v d => v * base + d) 0

theorem value_nil (base : Nat) : value base [] = 0 := rfl

/-- One more digit is one more step of Horner's rule. -/
theorem value_concat (base : Nat) (ds : List Nat) (d : Nat) :
    value base (ds ++ [d]) = value base ds * base + d := by
  unfold value
  rw [List.foldl_append]
  rfl

theorem value_eq_ofDigits (base : Nat) (ds : List Nat) :
    value base ds = Nat.ofDigits base ds.reverse := by
  induction ds using List.reverseRecOn with
  | nil => rfl
  | append_singleton ds d ih =>
    rw [value_concat, List.reverse_concat, Nat.ofDigits_cons, ih, Nat.mul_comm, Nat.add_comm]

/-- Reading on never makes the value smaller. -/
theorem le_foldl {base : Nat} (hbase : 0 < base) (ds : List Nat) (start : Nat) :
    start ≤ ds.foldl (fun v d => v * base + d) start := by
  induction ds generalizing start with
  | nil => exact Nat.le_refl start
  | cons d ds ih =>
    have hgrow := Nat.le_mul_of_pos_right start hbase
    exact Nat.le_trans (by omega) (ih (start * base + d))

/-- The digits of a number; zero has one digit. -/
def digits (base n : Nat) : List Nat := if n = 0 then [0] else (Nat.digits base n).reverse

theorem value_digits (base n : Nat) : value base (digits base n) = n := by
  unfold digits
  split
  · rename_i hn
    rw [hn]
    exact Nat.zero_mul base
  · rw [value_eq_ofDigits, List.reverse_reverse, Nat.ofDigits_digits]

theorem digits_lt {base : Nat} (hbase : 1 < base) {n d : Nat} (h : d ∈ digits base n) :
    d < base := by
  unfold digits at h
  split at h
  · rw [List.mem_singleton.mp h]
    omega
  · exact Nat.digits_lt_base hbase (List.mem_reverse.mp h)

theorem digits_ne_nil (base n : Nat) : digits base n ≠ [] := by
  unfold digits
  split
  · exact List.cons_ne_nil 0 []
  · rename_i hn
    exact fun h => hn (Nat.digits_eq_nil_iff_eq_zero.mp (List.reverse_eq_nil_iff.mp h))

/-- A numeral starts with a zero only when it is the numeral of zero. -/
theorem digits_head {base n d : Nat} {ds : List Nat} (h : digits base n = d :: ds) (hd : d = 0) :
    n = 0 := by
  by_contra hn
  unfold digits at h
  rw [if_neg hn] at h
  have hlast := Nat.getLast_digit_ne_zero base hn
  apply hlast
  rw [List.getLast_eq_iff_getLast?_eq_some, ← List.head?_reverse, h, hd]
  rfl

/-- A number below a power of the base has at most that many digits. -/
theorem digits_length_le {base n k : Nat} (hbase : 1 < base) (hn : n < base ^ k) (hk : 0 < k) :
    (digits base n).length ≤ k := by
  unfold digits
  split
  · exact hk
  · rw [List.length_reverse]
    exact (Nat.digits_length_le_iff hbase n).mpr hn

end Numeral
