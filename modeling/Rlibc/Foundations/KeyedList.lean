import Mathlib.Data.List.Nodup

/-!
# Lists of records, read as maps

The record of a key is the first one with that key in the list, and a fresh one where there is
none.  Records are added when they are first asked for, and a record that is fresh again can be
taken out without a change to the map.
-/

namespace KeyedList

variable {α κ : Type*}

/-- How a record tells its key, and the fresh record of each key. -/
structure Schema (α κ : Type*) where
  key : α → κ
  fresh : κ → α
  key_fresh : ∀ k, key (fresh k) = k

variable [DecidableEq κ] (schema : Schema α κ)

def find (l : List α) (k : κ) : Option α := l.find? fun a => decide (schema.key a = k)

/-- The map that a list stands for. -/
def lookup (l : List α) (k : κ) : α := (find schema l k).getD (schema.fresh k)

/-- The list with a record for the key. -/
def ensure (l : List α) (k : κ) : List α :=
  if (find schema l k).isSome then l else l ++ [schema.fresh k]

/-- The first record with the key of `a` becomes `a`. -/
def replace (a : α) : List α → List α
  | [] => []
  | b :: l => if schema.key b = schema.key a then a :: l else b :: replace a l

/-- `a` becomes the record of its key. -/
def store (l : List α) (a : α) : List α := replace schema a (ensure schema l (schema.key a))

def eraseFirst (l : List α) (k : κ) : List α := l.eraseP fun a => decide (schema.key a = k)

def eraseAll (l : List α) (k : κ) : List α := l.filter fun a => decide (schema.key a ≠ k)

/-- No two records have one key. -/
def Distinct (l : List α) : Prop := (l.map schema.key).Nodup

variable {schema} {l : List α} {a : α} {k k' : κ}

theorem find_cons_self (h : schema.key a = k) : find schema (a :: l) k = some a :=
  List.find?_cons_of_pos (decide_eq_true h)

theorem find_cons_of_ne (h : schema.key a ≠ k) : find schema (a :: l) k = find schema l k :=
  List.find?_cons_of_neg (by rw [decide_eq_false h]; exact Bool.false_ne_true)

theorem key_of_find (h : find schema l k = some a) : schema.key a = k := by
  have hkey := List.find?_some h
  exact of_decide_eq_true hkey

theorem find_append (l l' : List α) (k : κ) :
    find schema (l ++ l') k = (find schema l k).or (find schema l' k) := List.find?_append

@[simp] theorem key_lookup (l : List α) (k : κ) : schema.key (lookup schema l k) = k := by
  unfold lookup
  cases h : find schema l k with
  | none => exact schema.key_fresh k
  | some a => exact key_of_find h

theorem lookup_of_find (h : find schema l k = some a) : lookup schema l k = a := by
  unfold lookup
  rw [h]
  rfl

theorem lookup_of_find_none (h : find schema l k = none) :
    lookup schema l k = schema.fresh k := by
  unfold lookup
  rw [h]
  rfl

theorem find_of_mem (h : Distinct schema l) (ha : a ∈ l) :
    find schema l (schema.key a) = some a := by
  induction l with
  | nil => exact absurd ha List.not_mem_nil
  | cons b l ih =>
    obtain ⟨hnew, hdistinct⟩ := List.nodup_cons.mp h
    rcases List.mem_cons.mp ha with rfl | ha
    · exact find_cons_self rfl
    · have hne : schema.key b ≠ schema.key a := fun heq =>
        hnew (heq ▸ List.mem_map.mpr ⟨a, ha, rfl⟩)
      rw [find_cons_of_ne hne]
      exact ih hdistinct ha

/-- Without two records of one key, the records are what the map says. -/
theorem lookup_of_mem (h : Distinct schema l) (ha : a ∈ l) :
    lookup schema l (schema.key a) = a := lookup_of_find (find_of_mem h ha)

/-! ## Records that are asked for -/

theorem lookup_ensure (l : List α) (k k' : κ) :
    lookup schema (ensure schema l k) k' = lookup schema l k' := by
  unfold ensure
  split
  · rfl
  · rename_i hnone
    rw [Bool.not_eq_true, Option.isSome_eq_false_iff, Option.isNone_iff_eq_none] at hnone
    unfold lookup
    rw [find_append]
    cases hfind : find schema l k' with
    | some a => rfl
    | none =>
      rw [Option.none_or]
      by_cases hkey : k = k'
      · rw [hkey, find_cons_self (schema.key_fresh k')]
        rfl
      · rw [find_cons_of_ne (by rw [schema.key_fresh]; exact hkey)]
        rfl

theorem find_ensure_isSome (l : List α) (k : κ) : (find schema (ensure schema l k) k).isSome := by
  unfold ensure
  split
  · assumption
  · rename_i hnone
    rw [Bool.not_eq_true, Option.isSome_eq_false_iff, Option.isNone_iff_eq_none] at hnone
    rw [find_append, hnone, Option.none_or, find_cons_self (schema.key_fresh k)]
    rfl

theorem map_key_ensure (l : List α) (k : κ) :
    (ensure schema l k).map schema.key = l.map schema.key ∨
      (ensure schema l k).map schema.key = l.map schema.key ++ [k] ∧
        k ∉ l.map schema.key := by
  unfold ensure
  split
  · exact Or.inl rfl
  · rename_i hnone
    refine Or.inr ⟨?_, ?_⟩
    · rw [List.map_append, List.map_singleton, schema.key_fresh]
    · intro hmem
      obtain ⟨a, ha, hkey⟩ := List.mem_map.mp hmem
      apply hnone
      unfold find
      rw [List.find?_isSome]
      exact ⟨a, ha, decide_eq_true hkey⟩

theorem Distinct.ensure (h : Distinct schema l) (k : κ) :
    Distinct schema (ensure schema l k) := by
  unfold Distinct
  rcases (map_key_ensure l k : (KeyedList.ensure schema l k).map schema.key = _ ∨ _) with hsame | ⟨hmore, hnew⟩
  · rw [hsame]
    exact h
  · rw [hmore]
    exact List.nodup_append.mpr ⟨h, List.nodup_singleton k, fun x hx y hy heq =>
      hnew (List.mem_singleton.mp hy ▸ heq ▸ hx)⟩

/-! ## Records that are written -/

theorem map_key_replace (a : α) (l : List α) :
    (replace schema a l).map schema.key = l.map schema.key := by
  induction l with
  | nil => rfl
  | cons b l ih =>
    unfold replace
    split
    · rename_i hkey
      rw [List.map_cons, List.map_cons, hkey]
    · rw [List.map_cons, List.map_cons, ih]

theorem find_replace_self (h : (find schema l (schema.key a)).isSome) :
    find schema (replace schema a l) (schema.key a) = some a := by
  induction l with
  | nil => cases h
  | cons b l ih =>
    unfold replace
    by_cases hkey : schema.key b = schema.key a
    · rw [if_pos hkey, find_cons_self rfl]
    · rw [find_cons_of_ne hkey] at h
      rw [if_neg hkey, find_cons_of_ne hkey]
      exact ih h

theorem find_replace_of_ne (h : k ≠ schema.key a) :
    find schema (replace schema a l) k = find schema l k := by
  induction l with
  | nil => rfl
  | cons b l ih =>
    unfold replace
    by_cases hkey : schema.key b = schema.key a
    · rw [if_pos hkey, find_cons_of_ne (Ne.symm h), find_cons_of_ne (by rw [hkey]; exact h.symm)]
    · rw [if_neg hkey]
      by_cases hk : schema.key b = k
      · rw [find_cons_self hk, find_cons_self hk]
      · rw [find_cons_of_ne hk, find_cons_of_ne hk]
        exact ih

theorem lookup_replace_self (h : (find schema l (schema.key a)).isSome) :
    lookup schema (replace schema a l) (schema.key a) = a :=
  lookup_of_find (find_replace_self h)

theorem lookup_replace_of_ne (h : k ≠ schema.key a) :
    lookup schema (replace schema a l) k = lookup schema l k := by
  unfold lookup
  rw [find_replace_of_ne h]

theorem Distinct.replace (h : Distinct schema l) (a : α) :
    Distinct schema (replace schema a l) := by
  unfold Distinct
  rw [map_key_replace]
  exact h

@[simp] theorem lookup_store_self (l : List α) (a : α) :
    lookup schema (store schema l a) (schema.key a) = a :=
  lookup_replace_self (find_ensure_isSome l (schema.key a))

theorem lookup_store_of_ne (l : List α) (h : k ≠ schema.key a) :
    lookup schema (store schema l a) k = lookup schema l k := by
  unfold store
  rw [lookup_replace_of_ne h, lookup_ensure]

theorem Distinct.store (h : Distinct schema l) (a : α) : Distinct schema (store schema l a) :=
  (h.ensure _).replace a

/-! ## Records that are taken out -/

theorem eraseFirst_cons_self (h : schema.key a = k) : eraseFirst schema (a :: l) k = l :=
  List.eraseP_cons_of_pos (p := fun b => decide (schema.key b = k)) (decide_eq_true h)

theorem eraseFirst_cons_of_ne (h : schema.key a ≠ k) :
    eraseFirst schema (a :: l) k = a :: eraseFirst schema l k :=
  List.eraseP_cons_of_neg (p := fun b => decide (schema.key b = k))
    (fun hkey => h (of_decide_eq_true hkey))

theorem eraseAll_cons_self (h : schema.key a = k) :
    eraseAll schema (a :: l) k = eraseAll schema l k :=
  List.filter_cons_of_neg (p := fun b => decide (schema.key b ≠ k))
    (fun hkey => of_decide_eq_true hkey h)

theorem eraseAll_cons_of_ne (h : schema.key a ≠ k) :
    eraseAll schema (a :: l) k = a :: eraseAll schema l k :=
  List.filter_cons_of_pos (p := fun b => decide (schema.key b ≠ k)) (decide_eq_true h)

theorem lookup_eraseAll_self (l : List α) (k : κ) :
    lookup schema (eraseAll schema l k) k = schema.fresh k := by
  apply lookup_of_find_none
  unfold find eraseAll
  rw [List.find?_eq_none]
  intro a ha hkey
  exact of_decide_eq_true (List.mem_filter.mp ha).2 (of_decide_eq_true hkey)

theorem lookup_eraseAll_of_ne (l : List α) (h : k' ≠ k) :
    lookup schema (eraseAll schema l k) k' = lookup schema l k' := by
  have hfind : find schema (eraseAll schema l k) k' = find schema l k' := by
    induction l with
    | nil => rfl
    | cons b l ih =>
      by_cases hb : schema.key b = k
      · rw [eraseAll_cons_self hb, ih, find_cons_of_ne (by rw [hb]; exact h.symm)]
      · rw [eraseAll_cons_of_ne hb]
        by_cases hk : schema.key b = k'
        · rw [find_cons_self hk, find_cons_self hk]
        · rw [find_cons_of_ne hk, find_cons_of_ne hk, ih]
  unfold lookup
  rw [hfind]

theorem Distinct.eraseAll (h : Distinct schema l) (k : κ) :
    Distinct schema (eraseAll schema l k) :=
  h.sublist (List.filter_sublist.map schema.key)

theorem Distinct.eraseFirst (h : Distinct schema l) (k : κ) :
    Distinct schema (eraseFirst schema l k) :=
  h.sublist (List.eraseP_sublist.map schema.key)

theorem find_eraseFirst_of_ne (h : k' ≠ k) :
    find schema (eraseFirst schema l k) k' = find schema l k' := by
  induction l with
  | nil => rfl
  | cons b l ih =>
    by_cases hb : schema.key b = k
    · rw [eraseFirst_cons_self hb, find_cons_of_ne (by rw [hb]; exact h.symm)]
    · rw [eraseFirst_cons_of_ne hb]
      by_cases hk : schema.key b = k'
      · rw [find_cons_self hk, find_cons_self hk]
      · rw [find_cons_of_ne hk, find_cons_of_ne hk, ih]

theorem find_eraseFirst_self (h : Distinct schema l) :
    find schema (eraseFirst schema l k) k = none := by
  induction l with
  | nil => rfl
  | cons b l ih =>
    obtain ⟨hnew, hdistinct⟩ := List.nodup_cons.mp h
    by_cases hb : schema.key b = k
    · rw [eraseFirst_cons_self hb]
      unfold find
      rw [List.find?_eq_none]
      intro a ha hkey
      have hsame : schema.key a = schema.key b := (of_decide_eq_true hkey).trans hb.symm
      exact hnew (hsame ▸ List.mem_map.mpr ⟨a, ha, rfl⟩)
    · rw [eraseFirst_cons_of_ne hb, find_cons_of_ne hb]
      exact ih hdistinct

/-- What is taken out becomes fresh. -/
theorem lookup_eraseFirst_self (h : Distinct schema l) :
    lookup schema (eraseFirst schema l k) k = schema.fresh k :=
  lookup_of_find_none (find_eraseFirst_self h)

theorem lookup_eraseFirst_of_ne (l : List α) (h : k' ≠ k) :
    lookup schema (eraseFirst schema l k) k' = lookup schema l k' := by
  unfold lookup
  rw [find_eraseFirst_of_ne h]

/-! ## Changes to all records -/

theorem find_map {f : α → α} (hf : ∀ a, schema.key (f a) = schema.key a) (l : List α) (k : κ) :
    find schema (l.map f) k = (find schema l k).map f := by
  induction l with
  | nil => rfl
  | cons b l ih =>
    rw [List.map_cons]
    by_cases hb : schema.key b = k
    · rw [find_cons_self hb, find_cons_self ((hf b).trans hb)]
      rfl
    · rw [find_cons_of_ne hb, find_cons_of_ne (by rw [hf]; exact hb), ih]

omit [DecidableEq κ] in
theorem Distinct.map {f : α → α} (hf : ∀ a, schema.key (f a) = schema.key a)
    (h : Distinct schema l) : Distinct schema (l.map f) := by
  unfold Distinct
  rw [List.map_map]
  exact (congrArg List.Nodup (List.map_congr_left fun a _ => hf a)).mpr h

end KeyedList
