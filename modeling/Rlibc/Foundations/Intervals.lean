import Mathlib.Data.Finset.Card
import Mathlib.Order.Interval.Finset.Nat

/-!
# Lists of intervals

Closed intervals of natural numbers, lists of them that ascend, and the set that a list denotes.
An ascending list covers each of its numbers once, so that the lengths add up.
-/

namespace Intervals

/-- A closed interval that is not empty. -/
structure Interval where
  first : Nat
  last : Nat
  first_le : first ≤ last
deriving DecidableEq

/-- The numbers of an interval. -/
def Interval.points (iv : Interval) : Finset Nat := Finset.Icc iv.first iv.last

/-- How many numbers an interval has. -/
def Interval.length (iv : Interval) : Nat := iv.last - iv.first + 1

/-- The numbers of the intervals of a list. -/
def points : List Interval → Finset Nat
  | [] => ∅
  | iv :: ivs => iv.points ∪ points ivs

/-- The lengths of a list, added up. -/
def totalLength : List Interval → Nat
  | [] => 0
  | iv :: ivs => iv.length + totalLength ivs

/-- Each interval lies strictly above the one before it. -/
def Ascending (ivs : List Interval) : Prop := ivs.IsChain fun iv next => iv.last < next.first

theorem Interval.card_points (iv : Interval) : iv.points.card = iv.length := by
  have hle := iv.first_le
  unfold Interval.points Interval.length
  rw [Nat.card_Icc]
  omega

theorem Ascending.tail {iv : Interval} {ivs : List Interval} (h : Ascending (iv :: ivs)) :
    Ascending ivs := List.IsChain.of_cons h

/-- In an ascending list, the numbers behind an interval are above it. -/
theorem Ascending.above {iv : Interval} {ivs : List Interval} (h : Ascending (iv :: ivs))
    {n : Nat} (hn : n ∈ points ivs) : iv.last < n := by
  induction ivs generalizing iv with
  | nil => exact absurd hn (Finset.notMem_empty n)
  | cons next ivs ih =>
    have hnext : iv.last < next.first := (List.isChain_cons_cons.mp h).1
    have hle := next.first_le
    rw [points, Finset.mem_union] at hn
    cases hn with
    | inl hn =>
      have hbounds := Finset.mem_Icc.mp hn
      omega
    | inr hn =>
      have hlast := ih h.tail hn
      omega

/-- An ascending list has as many numbers as its intervals together. -/
theorem Ascending.card_points {ivs : List Interval} (h : Ascending ivs) :
    (points ivs).card = totalLength ivs := by
  induction ivs with
  | nil => rfl
  | cons iv ivs ih =>
    have hdisjoint : Disjoint iv.points (points ivs) := by
      rw [Finset.disjoint_left]
      intro n hn hrest
      have hbounds := Finset.mem_Icc.mp hn
      have habove := h.above hrest
      omega
    rw [points, totalLength, Finset.card_union_of_disjoint hdisjoint, iv.card_points, ih h.tail]

end Intervals
