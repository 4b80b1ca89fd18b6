import Mathlib.Data.List.Forall2
import Rlibc.Foundations.Numeral

/-!
# The lexicographic order of lists of one length

Lists of one length are compared piece by piece, and numerals of one length in the order of their
values.
-/

namespace LexOrder

variable {α β : Type*} [LinearOrder α]

/-- Pieces of one length are compared one after the other. -/
theorem append_lt_append_iff {a b : List α} (h : a.length = b.length) (c d : List α) :
    a ++ c < b ++ d ↔ a < b ∨ (a = b ∧ c < d) := by
  induction a generalizing b with
  | nil =>
    rw [List.length_eq_zero_iff.mp h.symm]
    simp
  | cons x a ih =>
    cases b with
    | nil => cases h
    | cons y b =>
      rw [List.cons_append, List.cons_append, List.cons_lt_cons_iff, List.cons_lt_cons_iff,
        ih (Nat.succ.inj h), List.cons.injEq]
      tauto

/-- A map that keeps the order of the elements keeps the order of the lists. -/
theorem map_lt_map_iff [LinearOrder β] {f : α → β} {a b : List α}
    (hf : ∀ x ∈ a, ∀ y ∈ b, f x < f y ↔ x < y) (hinj : ∀ x ∈ a, ∀ y ∈ b, f x = f y → x = y) :
    a.map f < b.map f ↔ a < b := by
  induction a generalizing b with
  | nil =>
    cases b with
    | nil => simp
    | cons y b => simp
  | cons x a ih =>
    cases b with
    | nil => simp
    | cons y b =>
      have hhead : f x = f y ↔ x = y :=
        ⟨hinj x List.mem_cons_self y List.mem_cons_self, congrArg f⟩
      rw [List.map_cons, List.map_cons, List.cons_lt_cons_iff, List.cons_lt_cons_iff,
        hf x List.mem_cons_self y List.mem_cons_self, hhead,
        ih (fun u hu v hv => hf u (List.mem_cons_of_mem x hu) v (List.mem_cons_of_mem y hv))
          (fun u hu v hv => hinj u (List.mem_cons_of_mem x hu) v (List.mem_cons_of_mem y hv))]

open Numeral

theorem value_cons (base d : Nat) (ds : List Nat) :
    value base (d :: ds) = d * base ^ ds.length + value base ds := by
  rw [value_eq_ofDigits, value_eq_ofDigits, List.reverse_cons, Nat.ofDigits_append,
    List.length_reverse, Nat.ofDigits_singleton]
  ring

theorem value_lt_pow {base : Nat} {ds : List Nat} (h : ∀ d ∈ ds, d < base) :
    value base ds < base ^ ds.length := by
  induction ds with
  | nil => exact Nat.one_pos
  | cons d ds ih =>
    have hd := h d List.mem_cons_self
    have hds := ih fun e he => h e (List.mem_cons_of_mem d he)
    have hstep : (d + 1) * base ^ ds.length ≤ base * base ^ ds.length :=
      Nat.mul_le_mul_right _ hd
    rw [value_cons, List.length_cons, pow_succ]
    linarith

/-- Numerals of one length are ordered as their values are. -/
theorem value_lt_value_iff {base : Nat} {ds es : List Nat} (hlength : ds.length = es.length)
    (hds : ∀ d ∈ ds, d < base) (hes : ∀ e ∈ es, e < base) :
    value base ds < value base es ↔ ds < es := by
  induction ds generalizing es with
  | nil =>
    rw [List.length_eq_zero_iff.mp hlength.symm]
    simp
  | cons d ds ih =>
    cases es with
    | nil => cases hlength
    | cons e es =>
      have hlen : ds.length = es.length := Nat.succ.inj hlength
      have hds' : ∀ x ∈ ds, x < base := fun x hx => hds x (List.mem_cons_of_mem d hx)
      have hes' : ∀ x ∈ es, x < base := fun x hx => hes x (List.mem_cons_of_mem e hx)
      have hd := value_lt_pow hds'
      have he := value_lt_pow hes'
      have htail := ih hlen hds' hes'
      rw [hlen] at hd
      rw [List.cons_lt_cons_iff, value_cons, value_cons, hlen, ← htail]
      rcases lt_trichotomy d e with hlt | heq | hgt
      · have hstep : (d + 1) * base ^ es.length ≤ e * base ^ es.length :=
          Nat.mul_le_mul_right _ hlt
        rw [Nat.add_mul, Nat.one_mul] at hstep
        refine iff_of_true (by omega) (Or.inl hlt)
      · subst heq
        simp
      · have hstep : (e + 1) * base ^ es.length ≤ d * base ^ es.length :=
          Nat.mul_le_mul_right _ hgt
        rw [Nat.add_mul, Nat.one_mul] at hstep
        refine iff_of_false (by omega) ?_
        omega

end LexOrder
