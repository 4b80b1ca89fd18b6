import Mathlib.Data.List.Basic

/-!
# Pieces between separators

A list cut at its separators, with the number of separators before each piece.  Separators in a
row leave no empty piece.
-/

namespace Runs

variable {α : Type*}

/-- What a cut leaves: the pieces with the separators before each, and those at the end. -/
structure Cut (α : Type*) where
  pieces : List (Nat × List α)
  trailing : Nat

/-- What is left of a list after its first piece, and after the separators behind that. -/
def afterPiece (isSep : α → Bool) (l : List α) : List α := l.dropWhile (!isSep ·)

def afterSeparators (isSep : α → Bool) (l : List α) : List α := (afterPiece isSep l).dropWhile isSep

theorem afterSeparators_suffix (isSep : α → Bool) (l : List α) : afterSeparators isSep l <:+ l :=
  (List.dropWhile_suffix _).trans (List.dropWhile_suffix _)

/-- The number of separators behind the first piece. -/
def separatorCount (isSep : α → Bool) (l : List α) : Nat :=
  ((afterPiece isSep l).takeWhile isSep).length

theorem afterSeparators_length (isSep : α → Bool) (a : α) (l : List α) :
    (afterSeparators isSep (a :: l)).length < (a :: l).length := by
  unfold afterSeparators afterPiece
  by_cases h : isSep a = true
  · have hsuffix := (List.dropWhile_suffix (l := l) isSep).length_le
    rw [List.dropWhile_cons_of_neg (by simp [h]), List.dropWhile_cons_of_pos h, List.length_cons]
    omega
  · have hpiece := (List.dropWhile_suffix (l := l) (!isSep ·)).length_le
    have hsuffix := (List.dropWhile_suffix (l := l.dropWhile (!isSep ·)) isSep).length_le
    rw [List.dropWhile_cons_of_pos (by simp [h]), List.length_cons]
    omega

/-- Cut a list that has `pending` separators before it. -/
def cut (isSep : α → Bool) : Nat → List α → Cut α
  | pending, [] => ⟨[], pending⟩
  | pending, a :: l =>
    if (a :: l).takeWhile (!isSep ·) = [] then
      cut isSep (pending + separatorCount isSep (a :: l)) (afterSeparators isSep (a :: l))
    else
      ⟨(pending, (a :: l).takeWhile (!isSep ·)) ::
          (cut isSep (separatorCount isSep (a :: l)) (afterSeparators isSep (a :: l))).pieces,
        (cut isSep (separatorCount isSep (a :: l)) (afterSeparators isSep (a :: l))).trailing⟩
termination_by _ l => l.length
decreasing_by all_goals exact afterSeparators_length isSep a l

/-- Where two lists walk through their pieces and separators side by side, their cuts do. -/
theorem cut_simulation {α β : Type*} {isSep : α → Bool} {isSep' : β → Bool}
    (aligned : List α → List β → Prop) (similar : List α → List β → Prop)
    (hnil : ∀ l l', aligned l l' → (l = [] ↔ l' = []))
    (hpiece : ∀ l l', aligned l l' → similar (l.takeWhile (!isSep ·)) (l'.takeWhile (!isSep' ·)) ∧
      (l.takeWhile (!isSep ·) = [] ↔ l'.takeWhile (!isSep' ·) = []) ∧
      aligned (l.dropWhile (!isSep ·)) (l'.dropWhile (!isSep' ·)))
    (hsep : ∀ l l', aligned l l' →
      (l.takeWhile isSep).length = (l'.takeWhile isSep').length ∧
      aligned (l.dropWhile isSep) (l'.dropWhile isSep'))
    (pending : Nat) {l : List α} {l' : List β} (h : aligned l l') :
    List.Forall₂ (fun x y => x.1 = y.1 ∧ similar x.2 y.2) (cut isSep pending l).pieces
        (cut isSep' pending l').pieces ∧
      (cut isSep pending l).trailing = (cut isSep' pending l').trailing := by
  induction pending, l using cut.induct isSep generalizing l' with
  | case1 pending =>
    rw [(hnil [] l' h).mp rfl, cut, cut]
    exact ⟨.nil, rfl⟩
  | case2 pending a l hempty ih =>
    cases l' with
    | nil => exact absurd ((hnil _ _ h).mpr rfl) (List.cons_ne_nil a l)
    | cons b l' =>
      obtain ⟨-, hboth, hafter⟩ := hpiece _ _ h
      obtain ⟨hcount, hrest⟩ := hsep _ _ hafter
      have hcount' : separatorCount isSep (a :: l) = separatorCount isSep' (b :: l') := hcount
      rw [cut, cut, if_pos hempty, if_pos (hboth.mp hempty), ← hcount']
      exact ih hrest
  | case3 pending a l hne ih =>
    cases l' with
    | nil => exact absurd ((hnil _ _ h).mpr rfl) (List.cons_ne_nil a l)
    | cons b l' =>
      obtain ⟨hsimilar, hboth, hafter⟩ := hpiece _ _ h
      obtain ⟨hcount, hrest⟩ := hsep _ _ hafter
      rw [cut, cut, if_neg hne, if_neg (fun hempty => hne (hboth.mpr hempty))]
      have hcount' : separatorCount isSep (a :: l) = separatorCount isSep' (b :: l') := hcount
      have htail := ih hrest
      rw [hcount'] at htail ⊢
      exact ⟨.cons ⟨rfl, hsimilar⟩ htail.1, htail.2⟩

/-- No piece is empty or holds a separator. -/
theorem cut_pieces {isSep : α → Bool} {pending : Nat} {l : List α} :
    ∀ piece ∈ (cut isSep pending l).pieces, piece.2 ≠ [] ∧ ∀ a ∈ piece.2, isSep a = false := by
  induction pending, l using cut.induct isSep with
  | case1 pending =>
    rw [cut]
    exact fun piece hmem => absurd hmem List.not_mem_nil
  | case2 pending a l hempty ih =>
    rw [cut, if_pos hempty]
    exact ih
  | case3 pending a l hne ih =>
    rw [cut, if_neg hne]
    intro piece hmem
    rcases List.mem_cons.mp hmem with rfl | hmem
    · refine ⟨hne, fun b hb => ?_⟩
      have hall := List.all_eq_true.mp (List.all_takeWhile (p := (!isSep ·)) (l := a :: l)) b hb
      simpa using hall
    · exact ih piece hmem

/-- What stands in a piece stands in the list. -/
theorem mem_of_mem_cut {isSep : α → Bool} {pending : Nat} {l : List α} {piece : Nat × List α}
    {a : α} (hpiece : piece ∈ (cut isSep pending l).pieces) (ha : a ∈ piece.2) : a ∈ l := by
  induction pending, l using cut.induct isSep with
  | case1 pending =>
    rw [cut] at hpiece
    exact absurd hpiece List.not_mem_nil
  | case2 pending b l hempty ih =>
    rw [cut, if_pos hempty] at hpiece
    exact (afterSeparators_suffix isSep (b :: l)).subset (ih hpiece)
  | case3 pending b l hne ih =>
    rw [cut, if_neg hne] at hpiece
    rcases List.mem_cons.mp hpiece with rfl | hpiece
    · exact (List.takeWhile_prefix (!isSep ·)).subset ha
    · exact (afterSeparators_suffix isSep (b :: l)).subset (ih hpiece)

/-- A piece ends at a separator. -/
theorem isSep_of_afterPiece {isSep : α → Bool} {l m : List α} {b : α}
    (h : afterPiece isSep l = b :: m) : isSep b = true := by
  induction l with
  | nil => cases h
  | cons a l ih =>
    unfold afterPiece at h ih
    by_cases ha : isSep a = true
    · rw [List.dropWhile_cons_of_neg (by simp [ha])] at h
      rw [← (List.cons.inj h).1]
      exact ha
    · rw [List.dropWhile_cons_of_pos (by simp [ha])] at h
      exact ih h

/-- After a piece there is a separator, or nothing. -/
theorem separatorCount_pos_or_nil (isSep : α → Bool) (l : List α) :
    0 < separatorCount isSep l ∨ afterSeparators isSep l = [] := by
  unfold separatorCount afterSeparators
  cases hafter : afterPiece isSep l with
  | nil => exact Or.inr rfl
  | cons b m =>
    rw [List.takeWhile_cons_of_pos (isSep_of_afterPiece hafter)]
    exact Or.inl (Nat.succ_pos _)

/-- There is a separator before each piece, if there is one before the list. -/
theorem cut_count_pos {isSep : α → Bool} {pending : Nat} {l : List α} (hpending : 0 < pending) :
    ∀ piece ∈ (cut isSep pending l).pieces, 0 < piece.1 := by
  induction pending, l using cut.induct isSep with
  | case1 pending =>
    rw [cut]
    exact fun piece hmem => absurd hmem List.not_mem_nil
  | case2 pending a l hempty ih =>
    rw [cut, if_pos hempty]
    exact ih (Nat.add_pos_left hpending _)
  | case3 pending a l hne ih =>
    rw [cut, if_neg hne]
    intro piece hmem
    rcases List.mem_cons.mp hmem with rfl | hmem
    · exact hpending
    · rcases separatorCount_pos_or_nil isSep (a :: l) with hcount | hnil
      · exact ih hcount piece hmem
      · rw [hnil, cut] at hmem
        exact absurd hmem List.not_mem_nil

/-- There is a separator before each piece but the first. -/
theorem cut_tail_count_pos {isSep : α → Bool} {pending : Nat} {l : List α} :
    ∀ piece ∈ (cut isSep pending l).pieces.tail, 0 < piece.1 := by
  induction pending, l using cut.induct isSep with
  | case1 pending =>
    rw [cut]
    exact fun piece hmem => absurd hmem List.not_mem_nil
  | case2 pending a l hempty ih =>
    rw [cut, if_pos hempty]
    exact ih
  | case3 pending a l hne ih =>
    rw [cut, if_neg hne]
    rcases separatorCount_pos_or_nil isSep (a :: l) with hcount | hnil
    · exact cut_count_pos hcount
    · rw [hnil, cut]
      exact fun piece hmem => absurd hmem List.not_mem_nil

end Runs
