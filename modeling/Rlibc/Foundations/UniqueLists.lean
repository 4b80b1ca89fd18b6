import Mathlib.Data.List.Nodup

/-!
# Lists without repetition

Pushing onto the end of a list what it does not hold yet.  Pushing a whole list adds the first
occurrences of its new elements, in their order; `List.eraseDups` are the first occurrences.
-/

namespace UniqueLists

variable {α : Type*} [DecidableEq α]

/-- Push what is not there yet. -/
def pushUnique (xs : List α) (x : α) : List α := if x ∈ xs then xs else xs ++ [x]

theorem pushUnique_nodup {xs : List α} (h : xs.Nodup) (x : α) : (pushUnique xs x).Nodup := by
  unfold pushUnique
  split
  · exact h
  · rename_i hx
    rw [List.nodup_append]
    refine ⟨h, List.nodup_singleton x, ?_⟩
    intro a ha b hb hab
    rw [List.mem_singleton] at hb
    exact hx (hb ▸ hab ▸ ha)

/-- Pushing a list adds the first occurrences of what is new. -/
theorem foldl_pushUnique (xs ys : List α) :
    ys.foldl pushUnique xs = xs ++ (ys.filter (· ∉ xs)).eraseDups := by
  induction ys generalizing xs with
  | nil => exact (List.append_nil xs).symm
  | cons y ys ih =>
    rw [List.foldl_cons, ih]
    unfold pushUnique
    by_cases hy : y ∈ xs
    · rw [if_pos hy, List.filter_cons_of_neg (by simpa using hy)]
    · have hrest : ys.filter (· ∉ xs ++ [y]) =
          (ys.filter (· ∉ xs)).filter fun b => !b == y := by
        rw [List.filter_filter]
        apply List.filter_congr
        intro z _
        by_cases hzy : z = y <;> simp [hzy]
      rw [if_neg hy, List.filter_cons_of_pos (by simpa using hy), List.eraseDups_cons, hrest,
        List.append_assoc]
      rfl

/-- Pushing onto nothing leaves the first occurrences. -/
theorem foldl_pushUnique_nil (ys : List α) : ys.foldl pushUnique [] = ys.eraseDups := by
  rw [foldl_pushUnique, List.nil_append, List.filter_eq_self.mpr]
  intro y _
  simp

theorem foldl_pushUnique_nodup {xs : List α} (h : xs.Nodup) (ys : List α) :
    (ys.foldl pushUnique xs).Nodup := by
  induction ys generalizing xs with
  | nil => exact h
  | cons y ys ih => exact ih (pushUnique_nodup h y)

theorem eraseDups_nodup (ys : List α) : ys.eraseDups.Nodup := by
  rw [← foldl_pushUnique_nil]
  exact foldl_pushUnique_nodup List.nodup_nil ys

/-- A list without repetition has no later occurrences to erase. -/
theorem eraseDups_of_nodup {ys : List α} (h : ys.Nodup) : ys.eraseDups = ys := by
  induction ys with
  | nil => rfl
  | cons y ys ih =>
    rw [List.nodup_cons] at h
    have hself : (ys.filter fun b => !b == y) = ys := by
      rw [List.filter_eq_self]
      intro z hz
      have hne : z ≠ y := fun h' => h.1 (h' ▸ hz)
      simpa using hne
    rw [List.eraseDups_cons, hself, ih h.2]

end UniqueLists
