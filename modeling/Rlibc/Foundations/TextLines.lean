import Rlibc.Foundations.Text

/-!
# Lines of a text and their byte offsets

A text is the list of its code points and is kept as UTF-8; positions in it are byte offsets.  A
text of `n` lines has `n - 1` line feeds.  The file relates cutting out and replacing bytes to the
list of the lines.
-/

namespace TextLines

open Text

/-! ## Byte offsets -/

/-- The length of the text in bytes. -/
def byteLen : List Char → Nat
  | [] => 0
  | c :: text => c.utf8Size + byteLen text

/-- The text before and behind a byte offset, if one falls on the border of two characters. -/
def splitBytes : Nat → List Char → Option (List Char × List Char)
  | 0, text => some ([], text)
  | _ + 1, [] => none
  | n + 1, c :: text =>
    if c.utf8Size ≤ n + 1 then
      (splitBytes (n + 1 - c.utf8Size) text).map fun halves => (c :: halves.1, halves.2)
    else none

/-- `str::get(start..end)`. -/
def slice (text : List Char) (start stop : Nat) : Option (List Char) :=
  if start ≤ stop then
    (splitBytes start text).bind fun halves =>
      (splitBytes (stop - start) halves.2).map fun parts => parts.1
  else none

/-- `String::replace_range(start..end, replacement)`, which panics where there is no result. -/
def replaceRange (text : List Char) (start stop : Nat) (replacement : List Char) :
    Option (List Char) :=
  if start ≤ stop then
    (splitBytes start text).bind fun halves =>
      (splitBytes (stop - start) halves.2).map fun parts => halves.1 ++ replacement ++ parts.2
  else none

@[simp] theorem byteLen_nil : byteLen [] = 0 := rfl

@[simp] theorem byteLen_append (s t : List Char) : byteLen (s ++ t) = byteLen s + byteLen t := by
  induction s with
  | nil => rw [List.nil_append, byteLen_nil, Nat.zero_add]
  | cons c s ih => rw [List.cons_append, byteLen, byteLen, ih, Nat.add_assoc]

/-- A text is split behind each of its beginnings. -/
theorem splitBytes_append (s t : List Char) : splitBytes (byteLen s) (s ++ t) = some (s, t) := by
  induction s with
  | nil =>
    unfold splitBytes
    rfl
  | cons c s ih =>
    have hpos := c.utf8Size_pos
    have hsize : c.utf8Size + byteLen s = (c.utf8Size + byteLen s - 1) + 1 := by omega
    rw [byteLen, List.cons_append, hsize, splitBytes, ← hsize, if_pos (Nat.le_add_right _ _),
      Nat.add_sub_cancel_left, ih]
    rfl

theorem slice_append (s m t : List Char) :
    slice (s ++ m ++ t) (byteLen s) (byteLen s + byteLen m) = some m := by
  unfold slice
  rw [if_pos (Nat.le_add_right _ _), List.append_assoc, splitBytes_append, Option.bind_some,
    Nat.add_sub_cancel_left, splitBytes_append]
  rfl

theorem replaceRange_append (s m t replacement : List Char) :
    replaceRange (s ++ m ++ t) (byteLen s) (byteLen s + byteLen m) replacement =
      some (s ++ replacement ++ t) := by
  unfold replaceRange
  rw [if_pos (Nat.le_add_right _ _), List.append_assoc, splitBytes_append, Option.bind_some,
    Nat.add_sub_cancel_left, splitBytes_append]
  rfl

/-! ## Lines -/

/-- The lines with a line feed behind each. -/
def terminated (ls : List (List Char)) : List Char := ls.flatMap fun l => l ++ ['\n']

/-- The lines with a line feed between each two. -/
def joinLines (ls : List (List Char)) : List Char := List.intercalate ['\n'] ls

/-- The lines of a text, of which there is at least one. -/
def splitLines (text : List Char) : List (List Char) := text.splitOn '\n'

/-- These can be the lines of a text. -/
structure AreLines (ls : List (List Char)) : Prop where
  ne_nil : ls ≠ []
  clean : ∀ l ∈ ls, '\n' ∉ l

/-- The byte offset behind the first `n` lines. -/
def lineOffset (ls : List (List Char)) (n : Nat) : Nat := byteLen (terminated (ls.take n))

theorem terminated_append (ls ms : List (List Char)) :
    terminated (ls ++ ms) = terminated ls ++ terminated ms := List.flatMap_append

theorem joinLines_singleton (l : List Char) : joinLines [l] = l := by
  simp [joinLines, List.intercalate]

theorem joinLines_cons (l : List Char) {ls : List (List Char)} (h : ls ≠ []) :
    joinLines (l :: ls) = l ++ '\n' :: joinLines ls := by
  cases ls with
  | nil => exact absurd rfl h
  | cons m ls => simp [joinLines, List.intercalate]

theorem joinLines_append (ls : List (List Char)) {ms : List (List Char)} (h : ms ≠ []) :
    joinLines (ls ++ ms) = terminated ls ++ joinLines ms := by
  induction ls with
  | nil => rfl
  | cons l ls ih =>
    rw [List.cons_append, joinLines_cons l (List.append_ne_nil_of_right_ne_nil ls h), ih]
    simp [terminated]

theorem joinLines_splitLines (text : List Char) : joinLines (splitLines text) = text :=
  List.intercalate_splitOn '\n'

theorem splitLines_joinLines {ls : List (List Char)} (h : AreLines ls) :
    splitLines (joinLines ls) = ls := List.splitOn_intercalate '\n' h.clean h.ne_nil

theorem areLines_splitLines (text : List Char) : AreLines (splitLines text) where
  ne_nil := List.splitOn_ne_nil _ _
  clean := by
    unfold splitLines
    induction text with
    | nil =>
      intro l hl
      rw [List.mem_singleton.mp hl]
      exact List.not_mem_nil
    | cons c text ih =>
      rw [List.splitOn_cons_eq_if_modifyHead]
      split
      · intro l hl
        cases List.mem_cons.mp hl with
        | inl heq =>
          rw [heq]
          exact List.not_mem_nil
        | inr hmem => exact ih l hmem
      · rename_i hc
        cases hparts : text.splitOn '\n' with
        | nil => exact fun l hl => absurd hl List.not_mem_nil
        | cons part parts =>
          rw [hparts] at ih
          intro l hl
          rw [List.modifyHead_cons] at hl
          cases List.mem_cons.mp hl with
          | inl heq =>
            rw [heq, List.mem_cons, not_or]
            exact ⟨fun h => hc (beq_of_eq h.symm), ih part List.mem_cons_self⟩
          | inr hmem => exact ih l (List.mem_cons_of_mem part hmem)

/-! ## Offsets of lines -/

theorem lineOffset_add (ls : List (List Char)) (m n : Nat) :
    lineOffset ls (m + n) = lineOffset ls m + byteLen (terminated ((ls.drop m).take n)) := by
  unfold lineOffset
  rw [List.take_add, terminated_append, byteLen_append]

theorem lineOffset_le (ls : List (List Char)) {m n : Nat} (h : m ≤ n) :
    lineOffset ls m ≤ lineOffset ls n := by
  have hn : n = m + (n - m) := by omega
  rw [hn, lineOffset_add]
  exact Nat.le_add_right _ _

/-- A line is at least its line feed long. -/
theorem lineOffset_lt (ls : List (List Char)) {m n : Nat} (h : m < n) (hm : m < ls.length) :
    lineOffset ls m < lineOffset ls n := by
  have hstep : lineOffset ls m < lineOffset ls (m + 1) := by
    have hone : (ls.drop m).take 1 = [ls[m]] := by
      rw [List.drop_eq_getElem_cons hm]
      rfl
    have hfeed : byteLen ['\n'] = 1 := rfl
    rw [lineOffset_add, hone]
    simp [terminated, hfeed]
  exact Nat.lt_of_lt_of_le hstep (lineOffset_le ls h)

/-- Only the lines in front of the offset matter. -/
theorem lineOffset_congr {ls ms : List (List Char)} {m n : Nat} (h : ls.take n = ms.take n)
    (hm : m ≤ n) : lineOffset ls m = lineOffset ms m := by
  have htake : ls.take m = ms.take m := by
    rw [← Nat.min_eq_left hm, ← List.take_take, ← List.take_take, h]
  unfold lineOffset
  rw [htake]

/-- `build_line_starts`, behind the first entry and in front of the last one. -/
def afterFeeds (start : Nat) : List Char → List Nat
  | [] => []
  | c :: text =>
    if c = '\n' then (start + c.utf8Size) :: afterFeeds (start + c.utf8Size) text
    else afterFeeds (start + c.utf8Size) text

theorem afterFeeds_append {l : List Char} (h : '\n' ∉ l) (start : Nat) (text : List Char) :
    afterFeeds start (l ++ text) = afterFeeds (start + byteLen l) text := by
  induction l generalizing start with
  | nil => rfl
  | cons c l ih =>
    rw [List.mem_cons, not_or] at h
    rw [List.cons_append, afterFeeds, if_neg (Ne.symm h.1), ih h.2, byteLen, Nat.add_assoc]

/-- There is one offset for each line. -/
theorem afterFeeds_joinLines {ls : List (List Char)} (h : AreLines ls) (start : Nat) :
    start :: afterFeeds start (joinLines ls) =
      (List.range ls.length).map fun n => start + lineOffset ls n := by
  have hne := h.ne_nil
  have hclean := h.clean
  clear h
  induction ls generalizing start with
  | nil => exact absurd rfl hne
  | cons l ls ih =>
    have hl := hclean l List.mem_cons_self
    rw [List.length_cons, List.range_succ_eq_map, List.map_cons, List.map_map]
    congr 1
    cases ls with
    | nil =>
      have hnone := afterFeeds_append hl start []
      rw [List.append_nil] at hnone
      rw [joinLines_singleton]
      exact hnone
    | cons m ls =>
      have hfeed : ('\n' : Char).utf8Size = 1 := rfl
      have hrest := ih (start + byteLen l + 1) (List.cons_ne_nil m ls)
        (fun l' hl' => hclean l' (List.mem_cons_of_mem l hl'))
      rw [joinLines_cons l (List.cons_ne_nil m ls), afterFeeds_append hl, afterFeeds, if_pos rfl,
        hfeed, hrest]
      apply List.map_congr_left
      intro n _
      simp [lineOffset, terminated, byteLen, hfeed]
      omega

/-! ## Lines between two others -/

/-- The lines behind the first `a` ones and in front of line `b`, counted from one. -/
def between (ls : List (List Char)) (a b : Nat) : List (List Char) := (ls.drop a).take (b - 1 - a)

/-- The lines before, between and behind. -/
theorem joinLines_between {ls : List (List Char)} {a b : Nat} (hab : a < b) (hb : b ≤ ls.length) :
    joinLines ls =
      terminated (ls.take a) ++ terminated (between ls a b) ++ joinLines (ls.drop (b - 1)) := by
  have hne : ls.drop (b - 1) ≠ [] := by
    intro h
    have hlen := congrArg List.length h
    rw [List.length_drop, List.length_nil] at hlen
    omega
  have htake : ls.take (b - 1) = ls.take a ++ between ls a b := by
    have hsum : b - 1 = a + (b - 1 - a) := by omega
    unfold between
    rw [← List.take_add, ← hsum]
  rw [← terminated_append, ← htake, ← joinLines_append _ hne, List.take_append_drop]

theorem lineOffset_between {ls : List (List Char)} {a b : Nat} (hab : a < b) :
    lineOffset ls (b - 1) = lineOffset ls a + byteLen (terminated (between ls a b)) := by
  have hsum : b - 1 = a + (b - 1 - a) := by omega
  rw [hsum, lineOffset_add]
  rfl

/-- The bytes between two lines are the lines between them. -/
theorem slice_between {ls : List (List Char)} {a b : Nat} (hab : a < b) (hb : b ≤ ls.length) :
    slice (joinLines ls) (lineOffset ls a) (lineOffset ls (b - 1)) =
      some (terminated (between ls a b)) := by
  rw [joinLines_between hab hb, lineOffset_between hab]
  exact slice_append _ _ _

/-- The lines between are exchanged for others. -/
theorem replaceRange_between {ls filler : List (List Char)} {a b : Nat} (hab : a < b)
    (hb : b ≤ ls.length) :
    replaceRange (joinLines ls) (lineOffset ls a) (lineOffset ls (b - 1)) (terminated filler) =
      some (joinLines (ls.take a ++ filler ++ ls.drop (b - 1))) := by
  have hne : ls.drop (b - 1) ≠ [] := by
    intro h
    have hlen := congrArg List.length h
    rw [List.length_drop, List.length_nil] at hlen
    omega
  rw [joinLines_append _ hne, terminated_append, joinLines_between hab hb, lineOffset_between hab]
  exact replaceRange_append _ _ _ _

/-- Nothing but white space stands between when the lines are blank. -/
theorem blank_terminated {ls : List (List Char)} :
    Blank (terminated ls) ↔ ∀ l ∈ ls, Blank l := by
  unfold Blank terminated
  constructor
  · intro h l hl c hc
    exact h c (List.mem_flatMap.mpr ⟨l, hl, List.mem_append_left _ hc⟩)
  · intro h c hc
    rcases List.mem_flatMap.mp hc with ⟨l, hl, hmem⟩
    cases List.mem_append.mp hmem with
    | inl hcl => exact h l hl c hcl
    | inr hfeed =>
      rw [List.mem_singleton.mp hfeed]
      decide

end TextLines
