import Mathlib.Data.Nat.Basic

/-!
# Reference counts and the histories they count

A history is the list of the successful opens and closes, the newest one first.  The status of a
key is what a reference counter that stops at `cap` knows about it; as long as the opens are at
most `cap` ahead of the closes, it is their difference.
-/

namespace RefCounts

variable {α ο : Type*} [DecidableEq α]

/-- A key that was opened, by whom, or closed. -/
inductive Event (α ο : Type*) where
  | opened (key : α) (origin : ο)
  | closed (key : α)

/-- How often the key was opened. -/
def opens (key : α) : List (Event α ο) → Nat
  | [] => 0
  | .opened other _ :: history => opens key history + if other = key then 1 else 0
  | .closed _ :: history => opens key history

/-- How often the key was closed. -/
def closes (key : α) : List (Event α ο) → Nat
  | [] => 0
  | .opened _ _ :: history => closes key history
  | .closed other :: history => closes key history + if other = key then 1 else 0

/-- Who opened the key last. -/
def origin (key : α) : List (Event α ο) → Option ο
  | [] => none
  | .opened other who :: history => if other = key then some who else origin key history
  | .closed _ :: history => origin key history

inductive Status where
  | absent
  | live (count : Nat)
  | released
deriving DecidableEq

/-- One more open; the count stops at `cap`. -/
def Status.opened (cap : Nat) : Status → Status
  | .live count => .live (min (count + 1) cap)
  | .absent => .live 1
  | .released => .live 1

/-- One close; the last one releases the key. -/
def Status.closed : Status → Status
  | .live count => if 1 < count then .live (count - 1) else .released
  | .absent => .absent
  | .released => .released

/-- What the counter knows about the key. -/
def status (cap : Nat) (key : α) : List (Event α ο) → Status
  | [] => .absent
  | .opened other _ :: history =>
    if other = key then (status cap key history).opened cap else status cap key history
  | .closed other :: history =>
    if other = key then (status cap key history).closed else status cap key history

/-- The status that belongs to two counts. -/
def Status.ofCounts (opens closes : Nat) : Status :=
  if opens = 0 then .absent else if closes < opens then .live (opens - closes) else .released

/-! ## The events of a key and of others -/

@[simp] theorem opens_opened_self (key : α) (who : ο) (history : List (Event α ο)) :
    opens key (.opened key who :: history) = opens key history + 1 := by
  rw [opens, if_pos rfl]

@[simp] theorem closes_closed_self (key : α) (history : List (Event α ο)) :
    closes key (.closed key :: history) = closes key history + 1 := by
  rw [closes, if_pos rfl]

@[simp] theorem origin_opened_self (key : α) (who : ο) (history : List (Event α ο)) :
    origin key (.opened key who :: history) = some who := by
  rw [origin, if_pos rfl]

@[simp] theorem status_opened_self (cap : Nat) (key : α) (who : ο) (history : List (Event α ο)) :
    status cap key (.opened key who :: history) = (status cap key history).opened cap := by
  rw [status, if_pos rfl]

@[simp] theorem status_closed_self (cap : Nat) (key : α) (history : List (Event α ο)) :
    status cap key (.closed key :: history) = (status cap key history).closed := by
  rw [status, if_pos rfl]

section Others

variable {key other : α} (history : List (Event α ο))

theorem opens_opened_of_ne (h : other ≠ key) (who : ο) :
    opens key (.opened other who :: history) = opens key history := by
  rw [opens, if_neg h, Nat.add_zero]

theorem closes_closed_of_ne (h : other ≠ key) :
    closes key (.closed other :: history) = closes key history := by
  rw [closes, if_neg h, Nat.add_zero]

theorem origin_opened_of_ne (h : other ≠ key) (who : ο) :
    origin key (.opened other who :: history) = origin key history := by
  rw [origin, if_neg h]

theorem status_opened_of_ne (h : other ≠ key) (cap : Nat) (who : ο) :
    status cap key (.opened other who :: history) = status cap key history := by
  rw [status, if_neg h]

theorem status_closed_of_ne (h : other ≠ key) (cap : Nat) :
    status cap key (.closed other :: history) = status cap key history := by
  rw [status, if_neg h]

end Others

/-! ## What is known without a bound -/

theorem Status.closed_eq_absent {s : Status} : s.closed = .absent ↔ s = .absent := by
  cases s with
  | absent => exact Iff.rfl
  | released => simp [Status.closed]
  | live count =>
    rw [Status.closed]
    by_cases h : 1 < count
    · simp [h]
    · simp [h]

theorem Status.opened_ne_absent (cap : Nat) (s : Status) : s.opened cap ≠ .absent := by
  cases s <;> simp [Status.opened]

/-- A key is absent until it is opened. -/
theorem status_eq_absent {cap : Nat} {key : α} {history : List (Event α ο)} :
    status cap key history = .absent ↔ opens key history = 0 := by
  induction history with
  | nil => exact ⟨fun _ => rfl, fun _ => rfl⟩
  | cons event history ih =>
    cases event with
    | opened other who =>
      by_cases h : other = key
      · rw [h, status_opened_self, opens_opened_self]
        exact ⟨fun habsent => absurd habsent (Status.opened_ne_absent cap _),
          fun hzero => absurd hzero (Nat.succ_ne_zero _)⟩
      · rw [status_opened_of_ne history h, opens_opened_of_ne history h]
        exact ih
    | closed other =>
      by_cases h : other = key
      · rw [h, status_closed_self, Status.closed_eq_absent, ih]
        exact Iff.rfl
      · rw [status_closed_of_ne history h]
        exact ih

/-- Somebody opened a key that was opened. -/
theorem origin_eq_none {key : α} {history : List (Event α ο)} :
    origin key history = none ↔ opens key history = 0 := by
  induction history with
  | nil => exact ⟨fun _ => rfl, fun _ => rfl⟩
  | cons event history ih =>
    cases event with
    | opened other who =>
      by_cases h : other = key
      · rw [h, origin_opened_self, opens_opened_self]
        simp
      · rw [origin_opened_of_ne history h, opens_opened_of_ne history h]
        exact ih
    | closed other => exact ih

/-! ## Counting exactly -/

/-- The counter has not lost count of the key. -/
structure Exact (cap : Nat) (key : α) (history : List (Event α ο)) : Prop where
  closes_le : closes key history ≤ opens key history
  status_eq : status cap key history = .ofCounts (opens key history) (closes key history)

theorem Status.ofCounts_opened {cap opens closes : Nat} (hle : closes ≤ opens)
    (hcap : opens + 1 ≤ closes + cap) :
    (Status.ofCounts opens closes).opened cap = Status.ofCounts (opens + 1) closes := by
  unfold Status.ofCounts
  by_cases hzero : opens = 0
  · have hclosed : closes = 0 := by omega
    rw [if_pos hzero, if_neg (Nat.succ_ne_zero _), hzero, hclosed]
    rfl
  · rw [if_neg hzero, if_neg (Nat.succ_ne_zero _), if_pos (Nat.lt_succ_of_le hle)]
    by_cases hlt : closes < opens
    · rw [if_pos hlt, Status.opened, Nat.min_eq_left (by omega)]
      congr 1
      omega
    · rw [if_neg hlt, Status.opened]
      congr 1
      omega

theorem Status.ofCounts_closed {opens closes : Nat} (hlt : closes < opens) :
    (Status.ofCounts opens closes).closed = Status.ofCounts opens (closes + 1) := by
  unfold Status.ofCounts
  have hpos : opens ≠ 0 := Nat.ne_zero_of_lt hlt
  rw [if_neg hpos, if_neg hpos, if_pos hlt, Status.closed]
  by_cases hmore : closes + 1 < opens
  · rw [if_pos hmore, if_pos (by omega)]
    congr 1
  · rw [if_neg hmore, if_neg (by omega)]

theorem Status.ofCounts_eq_live {opens closes : Nat} :
    (∃ count, Status.ofCounts opens closes = .live count) ↔ closes < opens := by
  unfold Status.ofCounts
  constructor
  · intro h
    rcases h with ⟨count, h⟩
    split at h
    · cases h
    · split at h
      · assumption
      · cases h
  · intro h
    exact ⟨opens - closes, by rw [if_neg (Nat.ne_zero_of_lt h), if_pos h]⟩

theorem Status.ofCounts_eq_released {opens closes : Nat} :
    Status.ofCounts opens closes = .released ↔ opens ≤ closes ∧ 0 < opens := by
  unfold Status.ofCounts
  constructor
  · intro h
    split at h
    · cases h
    · split at h
      · cases h
      · omega
  · intro h
    rw [if_neg (Nat.ne_zero_of_lt h.2), if_neg (Nat.not_lt.mpr h.1)]

section Exact

variable {cap : Nat} {key : α} {history : List (Event α ο)}

theorem Exact.nil : Exact cap key ([] : List (Event α ο)) where
  closes_le := Nat.le_refl 0
  status_eq := rfl

theorem Exact.opened (h : Exact cap key history) (other : α) (who : ο)
    (hcap : opens key (.opened other who :: history) ≤
      closes key (.opened other who :: history) + cap) :
    Exact cap key (.opened other who :: history) := by
  by_cases hother : other = key
  · rw [hother, opens_opened_self] at hcap
    constructor
    · rw [hother, opens_opened_self]
      exact Nat.le_succ_of_le h.closes_le
    · rw [hother, status_opened_self, opens_opened_self, h.status_eq]
      exact Status.ofCounts_opened h.closes_le hcap
  · constructor
    · rw [opens_opened_of_ne history hother]
      exact h.closes_le
    · rw [status_opened_of_ne history hother, opens_opened_of_ne history hother]
      exact h.status_eq

/-- A key may be closed while the counter says that it is live. -/
theorem Exact.closed (h : Exact cap key history) {other : α} {count : Nat}
    (hlive : status cap other history = .live count) : Exact cap key (.closed other :: history) := by
  by_cases hother : other = key
  · rw [hother, h.status_eq] at hlive
    have hlt : closes key history < opens key history := Status.ofCounts_eq_live.mp ⟨count, hlive⟩
    constructor
    · rw [hother, closes_closed_self]
      exact hlt
    · rw [hother, status_closed_self, closes_closed_self, h.status_eq]
      exact Status.ofCounts_closed hlt
  · constructor
    · rw [closes_closed_of_ne history hother]
      exact h.closes_le
    · rw [status_closed_of_ne history hother, closes_closed_of_ne history hother]
      exact h.status_eq

end Exact

end RefCounts
