import Mathlib.Algebra.BigOperators.Group.Finset.Basic
import Mathlib.Algebra.BigOperators.Ring.Finset
import Mathlib.Algebra.Order.BigOperators.Group.Finset
import Mathlib.Data.Fintype.Card

/-!
# Totals over a finite population

A population is a finite type `ι`, and each member has a local state in `α`.  `total w f` adds up
a weight of the local states; `count p f` is the number of members in a state with `p`.  When one
member moves, a total changes by the difference of two weights.  These are stated without
subtraction, so that `omega` can use them.
-/

namespace Census

variable {ι α : Type*} [Fintype ι] [DecidableEq ι]

/-- The weights of all members, added up. -/
def total (w : α → ℕ) (f : ι → α) : ℕ :=
  ∑ i, w (f i)

/-- The number of members whose local state satisfies `p`. -/
def count (p : α → Prop) [DecidablePred p] (f : ι → α) : ℕ :=
  total (fun a => if p a then 1 else 0) f

/-- One member moves from `f i` to `a`. -/
theorem total_update (w : α → ℕ) (f : ι → α) (i : ι) (a : α) :
    total w (Function.update f i a) + w (f i) = total w f + w a := by
  unfold total
  rw [← Finset.add_sum_erase _ _ (Finset.mem_univ i),
    ← Finset.add_sum_erase (s := Finset.univ) (a := i) (fun j => w (f j)) (Finset.mem_univ i)]
  have hrest : ∑ j ∈ Finset.univ.erase i, w (Function.update f i a j) =
      ∑ j ∈ Finset.univ.erase i, w (f j) := by
    apply Finset.sum_congr rfl
    intro j hj
    rw [Function.update_of_ne (Finset.ne_of_mem_erase hj)]
  rw [hrest, Function.update_self]
  omega

theorem count_update (p : α → Prop) [DecidablePred p] (f : ι → α) (i : ι) (a : α) :
    count p (Function.update f i a) + (if p (f i) then 1 else 0) =
      count p f + (if p a then 1 else 0) :=
  total_update _ f i a

/-- A member that keeps its standing under `p` does not change the count. -/
theorem count_update_of_iff (p : α → Prop) [DecidablePred p] (f : ι → α) (i : ι) (a : α)
    (h : p a ↔ p (f i)) : count p (Function.update f i a) = count p f := by
  have hu := count_update p f i a
  simp only [h] at hu
  omega

omit [DecidableEq ι] in
theorem total_eq_zero_iff (w : α → ℕ) (f : ι → α) : total w f = 0 ↔ ∀ i, w (f i) = 0 := by
  unfold total
  rw [Finset.sum_eq_zero_iff]
  simp

omit [DecidableEq ι] in
theorem weight_le_total (w : α → ℕ) (f : ι → α) (i : ι) : w (f i) ≤ total w f :=
  Finset.single_le_sum (f := fun j => w (f j)) (fun _ _ => Nat.zero_le _) (Finset.mem_univ i)

omit [DecidableEq ι] in
theorem count_eq_zero_iff (p : α → Prop) [DecidablePred p] (f : ι → α) :
    count p f = 0 ↔ ∀ i, ¬ p (f i) := by
  unfold count
  rw [total_eq_zero_iff]
  simp

omit [DecidableEq ι] in
/-- Two views of one population that agree member by member. -/
theorem count_congr {β : Type*} {p : α → Prop} [DecidablePred p] {q : β → Prop} [DecidablePred q]
    {f : ι → α} {g : ι → β} (h : ∀ i, p (f i) ↔ q (g i)) : count p f = count q g := by
  unfold count total
  apply Finset.sum_congr rfl
  intro i _
  simp only [h i]

omit [DecidableEq ι] in
theorem count_mono {p q : α → Prop} [DecidablePred p] [DecidablePred q] (h : ∀ a, p a → q a)
    (f : ι → α) : count p f ≤ count q f := by
  unfold count total
  apply Finset.sum_le_sum
  intro i _
  by_cases hp : p (f i)
  · simp only [hp, h _ hp, if_true, Nat.le_refl]
  · simp only [hp, if_false, Nat.zero_le]

omit [DecidableEq ι] in
theorem count_pos (p : α → Prop) [DecidablePred p] (f : ι → α) {i : ι} (h : p (f i)) :
    0 < count p f := by
  apply Nat.pos_of_ne_zero
  rw [Ne, count_eq_zero_iff]
  intro hall
  exact hall i h

omit [DecidableEq ι] in
/-- No more members than the population has. -/
theorem count_le_card (p : α → Prop) [DecidablePred p] (f : ι → α) :
    count p f ≤ Fintype.card ι := by
  unfold count total
  calc ∑ i, (if p (f i) then 1 else 0) ≤ ∑ _i : ι, 1 := by
        apply Finset.sum_le_sum
        intro i _
        split <;> omega
    _ = Fintype.card ι := by simp

/-- A member that stands outside leaves room in the population. -/
theorem count_lt_card (p : α → Prop) [DecidablePred p] (f : ι → α) {i : ι} (h : ¬ p (f i)) :
    count p f < Fintype.card ι := by
  by_cases hex : ∃ a, p a
  · cases hex with
    | intro a ha =>
      have hu := count_update p f i a
      have hle := count_le_card p (Function.update f i a)
      rw [if_neg h, if_pos ha] at hu
      omega
  · have hz : count p f = 0 := (count_eq_zero_iff p f).mpr fun j hj => hex ⟨f j, hj⟩
    rw [hz]
    exact Fintype.card_pos_iff.mpr ⟨i⟩

end Census
