import Mathlib.Data.List.Basic

/-!
# Reading records from chunks

A source hands out chunks, or errors.  A reader cuts the next record off the chunk at hand and asks
the source when nothing of it is left.  Repeated reads answer with the records of the chunks in
order; where no record can be cut off what is left, the reader stays.
-/

namespace ChunkReader

variable {β ρ ε : Type*}

/-- What a read answers. -/
inductive Answer (ρ ε : Type*) where
  | record (r : ρ)
  | finished
  | malformed
  | failed (e : ε)

/-- How one record is cut off the front of a chunk; less of the chunk is left. -/
structure Cutter (β ρ : Type*) where
  cut : List β → Option (ρ × List β)
  shorter : ∀ {bytes : List β} {r : ρ} {rest : List β},
    cut bytes = some (r, rest) → rest.length < bytes.length

namespace Cutter

variable (c : Cutter β ρ)

/-- The records of a chunk, and what is left where no other can be cut off. -/
def records : List β → List ρ × List β
  | [] => ([], [])
  | b :: bytes =>
    match _h : c.cut (b :: bytes) with
    | none => ([], b :: bytes)
    | some (r, rest) => (r :: (records rest).1, (records rest).2)
termination_by bytes => bytes.length
decreasing_by all_goals exact c.shorter _h

/-- A read where something of a chunk is left. -/
def next (rest : List β) (source : List (Except ε (List β))) :
    Answer ρ ε × List β × List (Except ε (List β)) :=
  match c.cut rest with
  | none => (.malformed, rest, source)
  | some (r, rest) => (.record r, rest, source)

/-- One read, from what is left of the chunk and what the source has yet to hand out; an empty
chunk says that there are no more records.  `none` if the source is used up. -/
def read : List β → List (Except ε (List β)) →
    Option (Answer ρ ε × List β × List (Except ε (List β)))
  | b :: rest, source => some (c.next (b :: rest) source)
  | [], [] => none
  | [], .error e :: source => some (.failed e, [], source)
  | [], .ok [] :: source => some (.finished, [], source)
  | [], .ok (b :: chunk) :: source => some (c.next (b :: chunk) source)

/-- A number of reads. -/
def reads : Nat → List β → List (Except ε (List β)) →
    Option (List (Answer ρ ε) × List β × List (Except ε (List β)))
  | 0, rest, source => some ([], rest, source)
  | n + 1, rest, source =>
    (c.read rest source).bind fun first =>
      (reads n first.2.1 first.2.2).map fun others => (first.1 :: others.1, others.2)

/-- The answers from a chunk, before others. -/
def chunkAnswers (chunk : List β) (others : List (Answer ρ ε)) : List (Answer ρ ε) :=
  (c.records chunk).1.map .record ++
    if (c.records chunk).2.isEmpty then others else [.malformed]

/-- The answers from a source. -/
def sourceAnswers : List (Except ε (List β)) → List (Answer ρ ε)
  | [] => []
  | .error e :: source => .failed e :: sourceAnswers source
  | .ok [] :: source => .finished :: sourceAnswers source
  | .ok (b :: chunk) :: source => c.chunkAnswers (b :: chunk) (sourceAnswers source)

/-- Something of the chunk is left for good. -/
def blocks (chunk : List β) : Bool := !(c.records chunk).2.isEmpty

/-- A chunk of the source blocks the reader. -/
def sourceBlocks : List (Except ε (List β)) → Bool
  | [] => false
  | .error _ :: source => sourceBlocks source
  | .ok chunk :: source => c.blocks chunk || sourceBlocks source

/-! ## Chunks -/

theorem records_nil : c.records [] = ([], []) := by
  rw [records]

variable {c}

theorem cut_nil : c.cut [] = none := by
  cases h : c.cut [] with
  | none => rfl
  | some cutOff => exact absurd (c.shorter h) (Nat.not_lt_zero _)

theorem records_of_cut {bytes rest : List β} {r : ρ} (h : c.cut bytes = some (r, rest)) :
    c.records bytes = (r :: (c.records rest).1, (c.records rest).2) := by
  cases bytes with
  | nil => exact absurd (cut_nil.symm.trans h) (by simp)
  | cons b bytes =>
    rw [records]
    split
    · rename_i hnone
      exact absurd (hnone.symm.trans h) (by simp)
    · rename_i r' rest' hsome
      cases hsome.symm.trans h
      rfl

theorem records_of_cut_none {bytes : List β} (h : c.cut bytes = none) :
    c.records bytes = ([], bytes) := by
  cases bytes with
  | nil => exact c.records_nil
  | cons b bytes =>
    rw [records]
    split
    · rfl
    · rename_i hsome
      exact absurd (h.symm.trans hsome) (by simp)

theorem chunkAnswers_nil (others : List (Answer ρ ε)) : c.chunkAnswers [] others = others := by
  unfold chunkAnswers
  rw [records_nil]
  rfl

theorem chunkAnswers_of_cut {bytes rest : List β} {r : ρ} (h : c.cut bytes = some (r, rest))
    (others : List (Answer ρ ε)) :
    c.chunkAnswers bytes others = .record r :: c.chunkAnswers rest others := by
  unfold chunkAnswers
  rw [records_of_cut h]
  rfl

theorem chunkAnswers_of_cut_none {bytes : List β} (hne : bytes ≠ []) (h : c.cut bytes = none)
    (others : List (Answer ρ ε)) : c.chunkAnswers bytes others = [.malformed] := by
  unfold chunkAnswers
  rw [records_of_cut_none h, List.map_nil, List.nil_append, if_neg]
  rw [List.isEmpty_iff]
  exact hne

theorem blocks_nil : c.blocks [] = false := by
  unfold blocks
  rw [records_nil]
  rfl

theorem blocks_of_cut {bytes rest : List β} {r : ρ} (h : c.cut bytes = some (r, rest)) :
    c.blocks bytes = c.blocks rest := by
  unfold blocks
  rw [records_of_cut h]

theorem blocks_of_cut_none {bytes : List β} (hne : bytes ≠ []) (h : c.cut bytes = none) :
    c.blocks bytes = true := by
  unfold blocks
  rw [records_of_cut_none h, Bool.not_eq_true', List.isEmpty_eq_false_iff]
  exact hne

/-! ## Reads -/

theorem next_of_cut {bytes rest : List β} {r : ρ} (h : c.cut bytes = some (r, rest))
    (source : List (Except ε (List β))) : c.next bytes source = (.record r, rest, source) := by
  rw [next, h]

theorem next_of_cut_none {bytes : List β} (h : c.cut bytes = none)
    (source : List (Except ε (List β))) : c.next bytes source = (.malformed, bytes, source) := by
  rw [next, h]

/-- The answers that repeated reads have yet to give, the last of them for good if it is that what
is left is malformed. -/
def answers (c : Cutter β ρ) (rest : List β) (source : List (Except ε (List β))) :
    List (Answer ρ ε) :=
  c.chunkAnswers rest (c.sourceAnswers source)

def blocked (c : Cutter β ρ) (rest : List β) (source : List (Except ε (List β))) : Bool :=
  c.blocks rest || c.sourceBlocks source

/-- What one read does to the answers. -/
inductive Reads (c : Cutter β ρ) (rest : List β) (source : List (Except ε (List β))) :
    Option (Answer ρ ε × List β × List (Except ε (List β))) → Prop
  | usedUp (hanswers : c.answers rest source = []) (hblocked : c.blocked rest source = false) :
      Reads c rest source none
  | answered {a : Answer ρ ε} {rest' : List β} {source' : List (Except ε (List β))}
      (hanswers : c.answers rest source = a :: c.answers rest' source')
      (hblocked : c.blocked rest source = c.blocked rest' source') :
      Reads c rest source (some (a, rest', source'))
  | stays {rest' : List β} {source' : List (Except ε (List β))}
      (hanswers : c.answers rest source = [.malformed]) (hblocked : c.blocked rest source = true)
      (hne : rest' ≠ []) (hcut : c.cut rest' = none) :
      Reads c rest source (some (.malformed, rest', source'))

theorem next_reads {chunk : List β} (hne : chunk ≠ []) {rest : List β}
    {source source' : List (Except ε (List β))}
    (hanswers : c.answers rest source = c.answers chunk source')
    (hblocked : c.blocked rest source = c.blocked chunk source') :
    Reads c rest source (some (c.next chunk source')) := by
  cases hcut : c.cut chunk with
  | none =>
    rw [next_of_cut_none hcut]
    refine .stays ?_ ?_ hne hcut
    · rw [hanswers]
      exact chunkAnswers_of_cut_none hne hcut _
    · rw [hblocked, blocked, blocks_of_cut_none hne hcut, Bool.true_or]
  | some cutOff =>
    rw [next_of_cut hcut]
    refine .answered ?_ ?_
    · rw [hanswers]
      exact chunkAnswers_of_cut hcut _
    · rw [hblocked, blocked, blocks_of_cut hcut]
      rfl

theorem read_reads (rest : List β) (source : List (Except ε (List β))) :
    Reads c rest source (c.read rest source) := by
  cases rest with
  | cons b rest => exact next_reads (List.cons_ne_nil b rest) rfl rfl
  | nil =>
    have hblocked : ∀ source : List (Except ε (List β)),
        c.blocked [] source = c.sourceBlocks source := by
      intro source
      rw [blocked, blocks_nil, Bool.false_or]
    have hanswers : ∀ source : List (Except ε (List β)),
        c.answers [] source = c.sourceAnswers source := fun source => chunkAnswers_nil _
    cases source with
    | nil => exact .usedUp (hanswers []) (hblocked [])
    | cons handed source =>
      cases handed with
      | error e =>
        refine .answered ?_ ?_
        · rw [hanswers, hanswers]
          rfl
        · rw [hblocked, hblocked]
          rfl
      | ok chunk =>
        cases chunk with
        | nil =>
          refine .answered ?_ ?_
          · rw [hanswers, hanswers]
            rfl
          · rw [hblocked, hblocked, sourceBlocks, blocks_nil, Bool.false_or]
        | cons b chunk =>
          refine next_reads (List.cons_ne_nil b chunk) ?_ ?_
          · rw [hanswers]
            rfl
          · rw [hblocked]
            rfl

/-- Where no record can be cut off, a read changes nothing. -/
theorem read_of_cut_none {rest : List β} (hne : rest ≠ []) (hcut : c.cut rest = none)
    (source : List (Except ε (List β))) :
    c.read rest source = some (.malformed, rest, source) := by
  cases rest with
  | nil => exact absurd rfl hne
  | cons b rest =>
    rw [read, next_of_cut_none hcut]

theorem reads_of_cut_none {rest : List β} (hne : rest ≠ []) (hcut : c.cut rest = none)
    (source : List (Except ε (List β))) (n : Nat) :
    c.reads n rest source = some (List.replicate n .malformed, rest, source) := by
  induction n with
  | zero => rfl
  | succ n ih =>
    rw [reads, read_of_cut_none hne hcut, Option.bind_some, ih]
    rfl

theorem take_append_replicate {α : Type*} (front : List α) (n : Nat) (a : α) :
    (front ++ List.replicate (n + 1) a).take n = (front ++ List.replicate n a).take n := by
  rw [List.replicate_succ', ← List.append_assoc, List.take_append_of_le_length]
  rw [List.length_append, List.length_replicate]
  exact Nat.le_add_left n _

/-- **Repeated reads.**  The answers come in order, and the last one stays if the reader is
blocked. -/
theorem reads_eq (n : Nat) (rest : List β) (source : List (Except ε (List β))) :
    (c.reads n rest source).map (·.1) =
      if c.blocked rest source = true ∨ n ≤ (c.answers rest source).length then
        some ((c.answers rest source ++ List.replicate n Answer.malformed).take n)
      else none := by
  induction n generalizing rest source with
  | zero =>
    rw [if_pos (Or.inr (Nat.zero_le _)), List.take_zero]
    rfl
  | succ n ih =>
    rw [reads]
    have hreads := c.read_reads rest source
    generalize c.read rest source = result at hreads ⊢
    cases hreads with
    | usedUp hanswers hblocked =>
      rw [hanswers, hblocked, if_neg (by simp)]
      rfl
    | @answered a rest' source' hanswers hblocked =>
      have hmore := ih rest' source'
      have hlength : n + 1 ≤ (a :: c.answers rest' source').length ↔
          n ≤ (c.answers rest' source').length := Nat.succ_le_succ_iff
      rw [Option.bind_some, hanswers, hblocked, List.cons_append, List.take_succ_cons,
        take_append_replicate]
      by_cases hmay : c.blocked rest' source' = true ∨ n ≤ (c.answers rest' source').length
      · rw [if_pos hmay] at hmore
        obtain ⟨others, hothers, hfirst⟩ := Option.map_eq_some_iff.mp hmore
        rw [if_pos (hmay.imp_right hlength.mpr), ← hfirst, hothers]
        rfl
      · rw [if_neg hmay, Option.map_eq_none_iff] at hmore
        rw [if_neg (fun hmay' => hmay (hmay'.imp_right hlength.mp)), hmore]
        rfl
    | @stays rest' source' hanswers hblocked hne hcut =>
      rw [Option.bind_some, reads_of_cut_none hne hcut, hanswers, hblocked, if_pos (Or.inl rfl),
        List.singleton_append, List.take_succ_cons, List.take_replicate]
      simp

end Cutter

end ChunkReader
