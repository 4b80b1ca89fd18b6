import Rlibc.Foundations.LineSplices

/-!
# Edits of a source text

The routines of the code style tools that work on the text: where lines start, which line ending is
in use, and how edits are applied.  For edits that exchange whole lines they come down to splices.
-/

namespace Rlibc.Codestyle

open Text TextLines

structure TextEdit where
  startByte : Nat
  endByte : Nat
  replacement : List Char
deriving DecidableEq

/-- The edits from the last one to the first; there is no result where `replace_range` panics. -/
def applyReversed (source : List Char) (edits : List TextEdit) : Option (List Char) :=
  edits.foldr (fun edit updated => updated.bind fun text =>
    replaceRange text edit.startByte edit.endByte edit.replacement) (some source)

/-- The changed text, if it is changed. -/
def applyEdits (source : List Char) (edits : List TextEdit) : Option (Option (List Char)) :=
  if edits.isEmpty then some none
  else
    let sorted := edits.mergeSort fun a b => a.startByte ≤ b.startByte
    (applyReversed source sorted).map fun updated =>
      if updated = source then none else some updated

def detectNewlineSequence (source : List Char) : List Char :=
  match splitOnce '\n' source with
  | none => ['\n']
  | some (before, _) => if before.getLast? = some '\r' then ['\r', '\n'] else ['\n']

/-- `newline.repeat(n)` -/
def repeatText (newline : List Char) (n : Nat) : List Char := (List.replicate n newline).flatten

def lineStartOffset (lineStarts : List Nat) (lineNumber : Nat) : Nat :=
  (lineStarts[lineNumber - 1]?).getD (lineStarts.getLast?.getD 0)

def buildLineStarts (source : List Char) : List Nat :=
  0 :: afterFeeds 0 source ++ [byteLen source]

def hasOnlyWhitespace (source : List Char) (startByte endByte : Nat) : Bool :=
  (slice source startByte endByte).any fun text => text.all isWhitespace

/-! ## Lines -/

/-- A line's entry is its offset. -/
theorem lineStartOffset_eq {ls : List (List Char)} (h : AreLines ls) {n : Nat}
    (hn : n < ls.length) :
    lineStartOffset (buildLineStarts (joinLines ls)) (n + 1) = lineOffset ls n := by
  have hstarts : buildLineStarts (joinLines ls) =
      (List.range ls.length).map (fun n => 0 + lineOffset ls n) ++ [byteLen (joinLines ls)] := by
    unfold buildLineStarts
    rw [afterFeeds_joinLines h]
  have hlen : n < ((List.range ls.length).map fun n => 0 + lineOffset ls n).length := by
    rw [List.length_map, List.length_range]
    exact hn
  unfold lineStartOffset
  rw [hstarts, Nat.add_sub_cancel, List.getElem?_append_left hlen, List.getElem?_map,
    List.getElem?_range hn]
  simp

theorem hasOnlyWhitespace_eq {ls : List (List Char)} {a b : Nat} (hab : a < b)
    (hb : b ≤ ls.length) :
    hasOnlyWhitespace (joinLines ls) (lineOffset ls a) (lineOffset ls (b - 1)) = true ↔
      ∀ l ∈ between ls a b, Blank l := by
  unfold hasOnlyWhitespace
  rw [slice_between hab hb, Option.any_some, List.all_eq_true]
  exact blank_terminated

/-- A line that is inserted is empty, or is a carriage return. -/
structure IsFiller (filler : List Char) : Prop where
  eq : filler = [] ∨ filler = ['\r']

theorem IsFiller.blank {filler : List Char} (h : IsFiller filler) : Blank filler := by
  cases h.eq with
  | inl heq =>
    rw [heq]
    decide
  | inr heq =>
    rw [heq]
    decide

theorem IsFiller.clean {filler : List Char} (h : IsFiller filler) : '\n' ∉ filler := by
  cases h.eq with
  | inl heq =>
    rw [heq]
    exact List.not_mem_nil
  | inr heq =>
    rw [heq]
    decide

/-- The line ending in use ends a line that may be inserted. -/
theorem detectNewlineSequence_eq (source : List Char) :
    ∃ filler, IsFiller filler ∧ detectNewlineSequence source = filler ++ ['\n'] := by
  unfold detectNewlineSequence
  split
  · exact ⟨[], ⟨Or.inl rfl⟩, rfl⟩
  · split
    · exact ⟨['\r'], ⟨Or.inr rfl⟩, rfl⟩
    · exact ⟨[], ⟨Or.inl rfl⟩, rfl⟩

theorem repeatText_eq (filler : List Char) (n : Nat) :
    repeatText (filler ++ ['\n']) n = terminated (List.replicate n filler) := by
  unfold repeatText terminated
  rw [List.flatMap_def, List.map_replicate]

/-! ## Edits of whole lines -/

/-- The edit that carries a splice out. -/
def lineEdit (filler : List Char) (ls : List (List Char)) (s : Splice) : TextEdit where
  startByte := lineOffset ls s.after
  endByte := lineOffset ls (s.before - 1)
  replacement := terminated (List.replicate s.count filler)

/-- Neither of the two splices reaches into the other. -/
def Separate (s t : Splice) : Prop := s.before ≤ t.after ∨ t.before ≤ s.after

theorem Separate.symm {s t : Splice} (h : Separate s t) : Separate t s := Or.symm h

theorem applyReversed_lineEdit {filler : List Char} {ls : List (List Char)} {ss : List Splice}
    (h : InOrder ss ls) :
    applyReversed (joinLines ls) (ss.map (lineEdit filler ls)) =
      some (joinLines (applyAll filler ss ls)) := by
  rw [← foldr_replaceRange h]
  unfold applyReversed
  rw [List.foldr_map, List.foldr_map]
  rfl

/-- Sorting the edits sorts the splices. -/
theorem exists_sorted {ls : List (List Char)} {ss : List Splice} (filler : List Char)
    (hfits : ∀ s ∈ ss, s.Fits ls) (hseparate : ss.Pairwise Separate) :
    ∃ sorted, sorted.Perm ss ∧ InOrder sorted ls ∧
      (ss.map (lineEdit filler ls)).mergeSort (fun a b => a.startByte ≤ b.startByte) =
        sorted.map (lineEdit filler ls) := by
  let le : Splice → Splice → Bool := fun s t => lineOffset ls s.after ≤ lineOffset ls t.after
  have hperm : (ss.mergeSort le).Perm ss := List.mergeSort_perm ss le
  have hsorted : (ss.mergeSort le).Pairwise fun s t => le s t = true := by
    apply List.pairwise_mergeSort
    · intro s t u hst htu
      rw [decide_eq_true_eq] at hst htu ⊢
      exact Nat.le_trans hst htu
    · intro s t
      rw [Bool.or_eq_true, decide_eq_true_eq, decide_eq_true_eq]
      exact Nat.le_total _ _
  have hfits' : ∀ s ∈ ss.mergeSort le, s.Fits ls := fun s hs => hfits s (hperm.subset hs)
  have hseparate' : (ss.mergeSort le).Pairwise Separate :=
    hperm.symm.pairwise hseparate Separate.symm
  have hmap : (ss.mergeSort le).map (lineEdit filler ls) =
      (ss.map (lineEdit filler ls)).mergeSort fun a b => a.startByte ≤ b.startByte :=
    List.map_mergeSort fun s _ t _ => rfl
  refine ⟨ss.mergeSort le, hperm, ⟨hfits', ?_⟩, hmap.symm⟩
  apply (hsorted.and hseparate').imp_of_mem
  intro s t hs ht hboth
  cases hboth.2 with
  | inl hle => exact hle
  | inr hle =>
    -- `t` would stand in front of `s`, but it starts at a later byte
    have hs' := hfits' s hs
    have hlt : lineOffset ls t.after < lineOffset ls s.after :=
      lineOffset_lt ls (Nat.lt_of_lt_of_le (hfits' t ht).lt hle)
        (Nat.lt_of_lt_of_le (hfits' t ht).lt (hfits' t ht).le)
    exact absurd (decide_eq_true_eq.mp hboth.1) (Nat.not_le.mpr hlt)

/-- Edits of separate runs of lines are carried out as splices. -/
theorem applyEdits_lineEdit {ls : List (List Char)} {ss : List Splice} (filler : List Char)
    (hfits : ∀ s ∈ ss, s.Fits ls) (hseparate : ss.Pairwise Separate) :
    ∃ sorted result, sorted.Perm ss ∧ InOrder sorted ls ∧
      applyEdits (joinLines ls) (ss.map (lineEdit filler ls)) = some result ∧
      result.getD (joinLines ls) = joinLines (applyAll filler sorted ls) := by
  rcases exists_sorted filler hfits hseparate with ⟨sorted, hperm, horder, hsort⟩
  unfold applyEdits
  cases hss : ss with
  | nil =>
    rw [hss] at hperm
    refine ⟨sorted, none, hss ▸ hperm, horder, rfl, ?_⟩
    rw [hperm.eq_nil]
    rfl
  | cons s rest =>
    rw [← hss, List.isEmpty_map, hss, List.isEmpty_cons, ← hss, if_neg Bool.false_ne_true]
    dsimp only
    rw [hsort, applyReversed_lineEdit horder, Option.map_some]
    refine ⟨sorted, _, hperm, horder, rfl, ?_⟩
    split
    · rename_i heq
      exact heq.symm
    · rfl

/-- Separate splices are edits that do not even touch. -/
theorem lineEdit_separate {filler : List Char} {ls : List (List Char)} {s t : Splice}
    (hs : s.Fits ls) (ht : t.Fits ls) (h : Separate s t) :
    (lineEdit filler ls s).endByte < (lineEdit filler ls t).startByte ∨
      (lineEdit filler ls t).endByte < (lineEdit filler ls s).startByte := by
  have hlt : ∀ s t : Splice, s.Fits ls → t.Fits ls → s.before ≤ t.after →
      lineOffset ls (s.before - 1) < lineOffset ls t.after := by
    intro s t hs ht hle
    have hs' := hs.lt
    have ht' := ht.lt
    have ht'' := ht.le
    exact lineOffset_lt ls (by omega) (by omega)
  cases h with
  | inl hle => exact Or.inl (hlt s t hs ht hle)
  | inr hle => exact Or.inr (hlt t s ht hs hle)

end Rlibc.Codestyle
