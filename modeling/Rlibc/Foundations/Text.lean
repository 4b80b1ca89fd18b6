import Mathlib.Data.List.DropRight

/-!
# Text

A text is the list of its code points.  The file has the operations that Rust's `str` offers on
it, with the lemmas that say which text an operation leaves over: white space and trimming, the
first occurrence of a separator, lines, words, and comparison without ASCII case.
-/

namespace Text

/-! ## White space -/

/-- `char::is_whitespace`: the Unicode property `White_Space`. -/
def isWhitespace (c : Char) : Bool :=
  (9 ≤ c.toNat ∧ c.toNat ≤ 13) ∨ c.toNat = 0x20 ∨ c.toNat = 0x85 ∨ c.toNat = 0xA0 ∨
    c.toNat = 0x1680 ∨ (0x2000 ≤ c.toNat ∧ c.toNat ≤ 0x200A) ∨ c.toNat = 0x2028 ∨
    c.toNat = 0x2029 ∨ c.toNat = 0x202F ∨ c.toNat = 0x205F ∨ c.toNat = 0x3000

/-- `str::trim_start`. -/
def trimStart (text : List Char) : List Char := text.dropWhile isWhitespace

/-- `str::trim_end`. -/
def trimEnd (text : List Char) : List Char := text.rdropWhile isWhitespace

/-- `str::trim`. -/
def trim (text : List Char) : List Char := trimEnd (trimStart text)

/-- There is nothing but white space. -/
def Blank (text : List Char) : Prop := ∀ c ∈ text, isWhitespace c = true

instance (text : List Char) : Decidable (Blank text) := List.decidableBAll _ text

/-- There is no white space. -/
def Solid (text : List Char) : Prop := ∀ c ∈ text, isWhitespace c = false

instance (text : List Char) : Decidable (Solid text) := List.decidableBAll _ text

theorem Blank.append {s t : List Char} (hs : Blank s) (ht : Blank t) : Blank (s ++ t) := by
  intro c hc
  cases List.mem_append.mp hc with
  | inl h => exact hs c h
  | inr h => exact ht c h

theorem trimStart_cons_of_blank {c : Char} (hc : isWhitespace c = true) (text : List Char) :
    trimStart (c :: text) = trimStart text := List.dropWhile_cons_of_pos hc

theorem trimEnd_concat_of_blank {c : Char} (hc : isWhitespace c = true) (text : List Char) :
    trimEnd (text ++ [c]) = trimEnd text := List.rdropWhile_concat_pos _ _ _ hc

/-- White space in front does not matter. -/
theorem trim_cons_of_blank {c : Char} (hc : isWhitespace c = true) (text : List Char) :
    trim (c :: text) = trim text := by
  unfold trim
  rw [trimStart_cons_of_blank hc]

theorem trimStart_append (s t : List Char) :
    trimStart (s ++ t) = if trimStart s = [] then trimStart t else trimStart s ++ t := by
  unfold trimStart
  rw [List.dropWhile_append]
  cases s.dropWhile isWhitespace with
  | nil => rfl
  | cons c rest => rfl

/-- White space at the end does not matter. -/
theorem trim_concat_of_blank {c : Char} (hc : isWhitespace c = true) (text : List Char) :
    trim (text ++ [c]) = trim text := by
  have hone : trimStart [c] = [] := trimStart_cons_of_blank hc []
  unfold trim
  rw [trimStart_append]
  split
  · rename_i hnil
    rw [hone, hnil]
  · exact trimEnd_concat_of_blank hc _

theorem trim_append_of_blank {pad : List Char} (hpad : Blank pad) (text : List Char) :
    trim (pad ++ text) = trim text := by
  induction pad with
  | nil => rfl
  | cons c pad ih =>
    rw [List.cons_append, trim_cons_of_blank (hpad c List.mem_cons_self)]
    exact ih fun x hx => hpad x (List.mem_cons_of_mem c hx)

theorem trim_of_append_blank {pad : List Char} (hpad : Blank pad) (text : List Char) :
    trim (text ++ pad) = trim text := by
  induction pad using List.reverseRecOn with
  | nil => rw [List.append_nil]
  | append_singleton pad c ih =>
    have hc : isWhitespace c = true := hpad c (List.mem_append_right pad (List.mem_singleton_self c))
    rw [← List.append_assoc, trim_concat_of_blank hc]
    exact ih fun x hx => hpad x (List.mem_append_left [c] hx)

/-- What is trimmed off is white space. -/
theorem exists_pads (text : List Char) :
    ∃ before after, Blank before ∧ Blank after ∧ text = before ++ trim text ++ after := by
  refine ⟨text.takeWhile isWhitespace, (trimStart text).rtakeWhile isWhitespace, ?_, ?_, ?_⟩
  · exact fun c hc => List.mem_takeWhile_imp hc
  · exact fun c hc => List.mem_rtakeWhile_imp hc
  · unfold trim trimEnd
    rw [List.append_assoc, List.rdropWhile_append_rtakeWhile]
    exact (List.takeWhile_append_dropWhile).symm

theorem trim_eq_nil_iff {text : List Char} : trim text = [] ↔ Blank text := by
  constructor
  · intro h
    rcases exists_pads text with ⟨before, after, hbefore, hafter, htext⟩
    rw [h, List.append_nil] at htext
    rw [htext]
    exact hbefore.append hafter
  · intro h
    have hpad := trim_of_append_blank h []
    rwa [List.nil_append] at hpad

/-- A text without white space at its ends is left alone. -/
theorem trim_eq_self {text : List Char} (hhead : ∀ c ∈ text.head?, isWhitespace c = false)
    (hlast : ∀ c ∈ text.getLast?, isWhitespace c = false) : trim text = text := by
  have hstart : trimStart text = text := by
    unfold trimStart
    cases text with
    | nil => rfl
    | cons c rest =>
      have hc : isWhitespace c = false := hhead c rfl
      exact List.dropWhile_cons_of_neg (by rw [hc]; exact Bool.false_ne_true)
  unfold trim trimEnd
  rw [hstart, List.rdropWhile_eq_self_iff]
  intro hne
  rw [hlast _ (List.getLast?_eq_some_getLast hne)]
  exact Bool.false_ne_true

theorem Solid.trim_eq {text : List Char} (h : Solid text) : trim text = text :=
  trim_eq_self (fun c hc => h c (List.mem_of_head? hc)) fun c hc => h c (List.mem_of_getLast? hc)

/-- A trimmed text does not start with white space. -/
theorem trim_head (text : List Char) : ∀ c ∈ (trim text).head?, isWhitespace c = false := by
  intro c hc
  have hprefix : (trim text) <+: trimStart text := List.rdropWhile_prefix _ _
  have hstart : (trimStart text).head? = some c := by
    cases hprefix with
    | intro rest hrest =>
      rw [← hrest, List.head?_append, hc]
      rfl
  have hhead := List.head?_dropWhile_not isWhitespace text
  unfold trimStart at hstart
  rw [hstart] at hhead
  simpa using hhead

/-- A trimmed text does not end in white space. -/
theorem trim_getLast (text : List Char) : ∀ c ∈ (trim text).getLast?, isWhitespace c = false := by
  intro c hc
  have hne : trim text ≠ [] := by
    intro h
    rw [h] at hc
    cases hc
  rw [List.getLast?_eq_some_getLast hne, Option.mem_some_iff] at hc
  have hlast := List.rdropWhile_last_not isWhitespace (trimStart text) hne
  rw [← hc]
  exact eq_false_of_ne_true hlast

/-! ## Splitting -/

variable {α : Type*} [DecidableEq α]

/-- `str::split_once`. -/
def splitOnce (sep : α) : List α → Option (List α × List α)
  | [] => none
  | x :: xs =>
    if x = sep then some ([], xs) else (splitOnce sep xs).map fun halves => (x :: halves.1, halves.2)

theorem splitOnce_eq_none {sep : α} {xs : List α} : splitOnce sep xs = none ↔ sep ∉ xs := by
  induction xs with
  | nil => simp [splitOnce]
  | cons x xs ih =>
    rw [splitOnce, List.mem_cons, not_or]
    split
    · rename_i hx
      simp [hx]
    · rename_i hx
      rw [Option.map_eq_none_iff, ih]
      exact ⟨fun h => ⟨fun hs => hx hs.symm, h⟩, fun h => h.2⟩

/-- The halves are what stands before and behind the first separator. -/
theorem splitOnce_eq_some {sep : α} {xs before after : List α} :
    splitOnce sep xs = some (before, after) ↔ xs = before ++ sep :: after ∧ sep ∉ before := by
  induction xs generalizing before with
  | nil => simp [splitOnce]
  | cons x xs ih =>
    rw [splitOnce]
    split
    · rename_i hx
      cases before with
      | nil => simp [hx]
      | cons y before =>
        simp only [Option.some.injEq, Prod.mk.injEq, List.cons_append, List.cons.injEq,
          List.mem_cons, not_or]
        constructor
        · intro h
          exact absurd h.1.symm (List.cons_ne_nil y before)
        · intro h
          exact absurd (hx.symm.trans h.1.1) h.2.1
    · rename_i hx
      rw [Option.map_eq_some_iff]
      cases before with
      | nil => simp [hx]
      | cons y before =>
        rw [List.cons_append, List.cons.injEq, List.mem_cons, not_or]
        constructor
        · intro h
          cases h with
          | intro halves hhalves =>
            rw [Prod.mk.injEq, List.cons.injEq] at hhalves
            have hsplit := (@ih halves.1).mp (by rw [hhalves.1, ← hhalves.2.2])
            rw [← hhalves.2.1.1, ← hhalves.2.1.2]
            exact ⟨⟨rfl, hsplit.1⟩, fun h => hx h.symm, hsplit.2⟩
        · intro h
          exact ⟨(before, after), ih.mpr ⟨h.1.2, h.2.2⟩, by rw [h.1.1]⟩

/-- Another element at the end stands in the last part. -/
theorem splitOn_concat {sep c : α} (hc : c ≠ sep) (xs : List α) :
    ∃ init last, xs.splitOn sep = init ++ [last] ∧
      (xs ++ [c]).splitOn sep = init ++ [last ++ [c]] := by
  induction xs with
  | nil =>
    refine ⟨[], [], rfl, ?_⟩
    exact List.splitOn_eq_singleton fun h => hc (List.mem_singleton.mp h).symm
  | cons x xs ih =>
    rcases ih with ⟨init, last, hinit, hlast⟩
    rw [List.cons_append, List.splitOn_cons_eq_if_modifyHead, List.splitOn_cons_eq_if_modifyHead,
      hinit, hlast]
    by_cases hx : x = sep
    · exact ⟨[] :: init, last, by simp [hx], by simp [hx]⟩
    · cases init with
      | nil => exact ⟨[], x :: last, by simp [hx], by simp [hx]⟩
      | cons part init => exact ⟨(x :: part) :: init, last, by simp [hx], by simp [hx]⟩

/-- Trimming a text before it is split and its parts are trimmed makes no difference. -/
theorem map_trim_splitOn_trim {sep : Char} (hsep : isWhitespace sep = false) (text : List Char) :
    ((trim text).splitOn sep).map trim = (text.splitOn sep).map trim := by
  have hne : ∀ c, isWhitespace c = true → c ≠ sep := by
    intro c hc h
    rw [h, hsep] at hc
    exact Bool.false_ne_true hc
  have hfront : ∀ pad, Blank pad → ∀ text : List Char,
      ((pad ++ text).splitOn sep).map trim = (text.splitOn sep).map trim := by
    intro pad hpad text
    induction pad with
    | nil => rfl
    | cons c pad ih =>
      have hc := hpad c List.mem_cons_self
      have hrest := ih fun x hx => hpad x (List.mem_cons_of_mem c hx)
      rw [List.cons_append, List.splitOn_cons_eq_if_modifyHead, if_neg (by simp [hne c hc]), ← hrest]
      cases (pad ++ text).splitOn sep with
      | nil => rfl
      | cons part parts => rw [List.modifyHead_cons, List.map_cons, List.map_cons,
          trim_cons_of_blank hc]
  have hback : ∀ pad, Blank pad → ∀ text : List Char,
      ((text ++ pad).splitOn sep).map trim = (text.splitOn sep).map trim := by
    intro pad hpad text
    induction pad using List.reverseRecOn with
    | nil => rw [List.append_nil]
    | append_singleton pad c ih =>
      have hc := hpad c (List.mem_append_right pad (List.mem_singleton_self c))
      have hrest := ih fun x hx => hpad x (List.mem_append_left [c] hx)
      rcases splitOn_concat (hne c hc) (text ++ pad) with ⟨init, last, hinit, hlast⟩
      rw [← hrest, ← List.append_assoc, hinit, hlast, List.map_append, List.map_append,
        List.map_singleton, List.map_singleton, trim_concat_of_blank hc]
  rcases exists_pads text with ⟨before, after, hbefore, hafter, htext⟩
  calc ((trim text).splitOn sep).map trim
      = ((before ++ trim text).splitOn sep).map trim := (hfront before hbefore _).symm
    _ = ((before ++ trim text ++ after).splitOn sep).map trim := (hback after hafter _).symm
    _ = (text.splitOn sep).map trim := by rw [← htext]

/-- No part has a separator in it. -/
theorem notMem_of_mem_splitOn {sep : α} {xs part : List α} (h : part ∈ xs.splitOn sep) :
    sep ∉ part := by
  induction xs generalizing part with
  | nil =>
    rw [List.splitOn_nil, List.mem_singleton] at h
    simp [h]
  | cons x xs ih =>
    rw [List.splitOn_cons_eq_if_modifyHead] at h
    by_cases hx : x = sep
    · rw [if_pos (beq_iff_eq.mpr hx), List.mem_cons] at h
      rcases h with h | h
      · simp [h]
      · exact ih h
    · rw [if_neg (by simpa using hx)] at h
      cases hsplit : xs.splitOn sep with
      | nil => exact absurd hsplit (List.splitOn_ne_nil sep xs)
      | cons head tail =>
        rw [hsplit, List.modifyHead_cons, List.mem_cons] at h
        rw [hsplit] at ih
        rcases h with h | h
        · rw [h, List.mem_cons, not_or]
          exact ⟨Ne.symm hx, ih List.mem_cons_self⟩
        · exact ih (List.mem_cons_of_mem head h)

/-- What stands before the first separator. -/
theorem head_splitOn (sep : α) (xs : List α) :
    (xs.splitOn sep).head? = some (xs.takeWhile (· ≠ sep)) := by
  induction xs with
  | nil => rfl
  | cons x xs ih =>
    rw [List.splitOn_cons_eq_if_modifyHead, List.takeWhile_cons]
    by_cases hx : x = sep
    · simp [hx]
    · cases hparts : xs.splitOn sep with
      | nil => exact absurd hparts (List.splitOn_ne_nil sep xs)
      | cons part parts =>
        rw [hparts, List.head?_cons, Option.some.injEq] at ih
        simp [hx, ih]

/-! ## Words and lines -/

/-- `str::split_whitespace`. -/
def splitWhitespace (text : List Char) : List (List Char) :=
  (text.splitOnP isWhitespace).filter (· ≠ [])

theorem splitWhitespace_append_blank {pad : List Char} (hpad : Blank pad) (text : List Char) :
    splitWhitespace (text ++ pad) = splitWhitespace text := by
  induction pad using List.reverseRecOn with
  | nil => rw [List.append_nil]
  | append_singleton pad c ih =>
    have hc : isWhitespace c = true := hpad c (List.mem_append_right pad (List.mem_singleton_self c))
    rw [← ih fun x hx => hpad x (List.mem_append_left [c] hx), ← List.append_assoc]
    unfold splitWhitespace
    rw [List.splitOnP_append_cons _ [] hc, List.filter_append, List.splitOnP_nil]
    exact List.append_nil _

theorem splitWhitespace_blank_append {pad : List Char} (hpad : Blank pad) (text : List Char) :
    splitWhitespace (pad ++ text) = splitWhitespace text := by
  induction pad with
  | nil => rfl
  | cons c pad ih =>
    rw [← ih fun x hx => hpad x (List.mem_cons_of_mem c hx), List.cons_append]
    unfold splitWhitespace
    rw [List.splitOnP_cons_eq_if_modifyHead, if_pos (hpad c List.mem_cons_self)]
    rfl

theorem splitWhitespace_trim (text : List Char) :
    splitWhitespace (trim text) = splitWhitespace text := by
  rcases exists_pads text with ⟨before, after, hbefore, hafter, htext⟩
  calc splitWhitespace (trim text)
      = splitWhitespace (before ++ trim text) := (splitWhitespace_blank_append hbefore _).symm
    _ = splitWhitespace (before ++ trim text ++ after) :=
      (splitWhitespace_append_blank hafter _).symm
    _ = splitWhitespace text := by rw [← htext]

/-- Words with white space between them, and around them. -/
inductive Spaced : List Char → List (List Char) → Prop
  | nil {pad : List Char} (hpad : Blank pad) : Spaced pad []
  | cons {pad word rest : List Char} {words : List (List Char)} (hpad : Blank pad)
      (hword : Solid word) (hne : word ≠ []) (hsep : ∀ c ∈ rest.head?, isWhitespace c = true)
      (hrest : Spaced rest words) : Spaced (pad ++ (word ++ rest)) (word :: words)

theorem Spaced.splitWhitespace_eq {text : List Char} {words : List (List Char)}
    (h : Spaced text words) : splitWhitespace text = words := by
  induction h with
  | @nil pad hpad =>
    rw [← List.append_nil pad, splitWhitespace_blank_append hpad]
    rfl
  | @cons pad word rest words hpad hword hne hsep hrest ih =>
    rw [splitWhitespace_blank_append hpad]
    cases rest with
    | nil =>
      have hwords : words = [] := ih.symm
      unfold splitWhitespace
      rw [List.append_nil, List.splitOnP_eq_singleton hword, hwords]
      exact List.filter_cons_of_pos (decide_eq_true hne)
    | cons c rest =>
      have hc : isWhitespace c = true := hsep c rfl
      have hblank : Blank [c] := fun x hx => List.mem_singleton.mp hx ▸ hc
      have hskip : splitWhitespace (c :: rest) = splitWhitespace rest :=
        splitWhitespace_blank_append hblank rest
      rw [← ih, hskip]
      unfold splitWhitespace
      rw [List.splitOnP_append_cons_of_forall_mem hword c hc]
      exact List.filter_cons_of_pos (decide_eq_true hne)

/-- Every text is such words. -/
theorem exists_spaced (text : List Char) : ∃ words, Spaced text words := by
  induction hlength : text.length using Nat.strong_induction_on generalizing text with
  | _ n ih =>
    have hpad : Blank (text.takeWhile isWhitespace) := fun c hc => List.mem_takeWhile_imp hc
    have hsplit := List.takeWhile_append_dropWhile (p := isWhitespace) (l := text)
    cases hrest : text.dropWhile isWhitespace with
    | nil =>
      rw [hrest, List.append_nil] at hsplit
      rw [← hsplit]
      exact ⟨[], .nil hpad⟩
    -- A word begins; it ends at the next white space.
    | cons c rest =>
      have hc : isWhitespace c = false := by
        have hhead := List.head?_dropWhile_not isWhitespace text
        rw [hrest] at hhead
        simpa using hhead
      have hword : Solid ((c :: rest).takeWhile (!isWhitespace ·)) := by
        intro x hx
        simpa using List.mem_takeWhile_imp hx
      have hne : (c :: rest).takeWhile (!isWhitespace ·) ≠ [] := by
        rw [List.takeWhile_cons_of_pos (by simp [hc])]
        exact List.cons_ne_nil _ _
      have hsep : ∀ x ∈ ((c :: rest).dropWhile (!isWhitespace ·)).head?,
          isWhitespace x = true := by
        intro x hx
        have hhead := List.head?_dropWhile_not (!isWhitespace ·) (c :: rest)
        rw [Option.mem_def.mp hx] at hhead
        simpa using hhead
      have hparts := List.takeWhile_append_dropWhile (p := (!isWhitespace ·)) (l := c :: rest)
      rw [hrest] at hsplit
      have hshorter : ((c :: rest).dropWhile (!isWhitespace ·)).length < n := by
        have htext := congrArg List.length hsplit
        have hlengths := congrArg List.length hparts
        have hpos := List.length_pos_iff.mpr hne
        rw [List.length_append] at htext hlengths
        omega
      obtain ⟨words, hwords⟩ := ih _ hshorter _ rfl
      rw [← hsplit, ← hparts]
      exact ⟨_, .cons hpad hword hne hsep hwords⟩

/-- They are what the text splits into. -/
theorem spaced_iff {text : List Char} {words : List (List Char)} :
    Spaced text words ↔ splitWhitespace text = words := by
  refine ⟨fun h => h.splitWhitespace_eq, fun h => ?_⟩
  obtain ⟨words', hwords'⟩ := exists_spaced text
  rw [← h, hwords'.splitWhitespace_eq]
  exact hwords'

/-- `str::split_inclusive`: each piece but the last ends in the separator. -/
def splitInclusive (sep : α) : List α → List (List α)
  | [] => []
  | x :: xs =>
    if x = sep then [x] :: splitInclusive sep xs
    else
      match splitInclusive sep xs with
      | [] => [[x]]
      | piece :: pieces => (x :: piece) :: pieces

/-- A line without its line feed, and then without a carriage return before it. -/
def stripLineEnd (line : List Char) : List Char :=
  if line.getLast? = some '\n' then
    if line.dropLast.getLast? = some '\r' then line.dropLast.dropLast else line.dropLast
  else line

/-- `str::lines`. -/
def lines (text : List Char) : List (List Char) := (splitInclusive '\n' text).map stripLineEnd

/-- A piece ends at the first separator. -/
theorem splitInclusive_append_cons {sep : α} {xs : List α} (h : sep ∉ xs) (rest : List α) :
    splitInclusive sep (xs ++ sep :: rest) = (xs ++ [sep]) :: splitInclusive sep rest := by
  induction xs with
  | nil =>
    rw [List.nil_append, splitInclusive, if_pos rfl]
    rfl
  | cons x xs ih =>
    rw [List.mem_cons, not_or] at h
    rw [List.cons_append, splitInclusive, if_neg (fun hx => h.1 hx.symm), ih h.2]
    rfl

/-- Lines that are ended by line feeds are read back. -/
theorem lines_flatMap {ls : List (List Char)}
    (h : ∀ l ∈ ls, '\n' ∉ l ∧ l.getLast? ≠ some '\r') :
    lines (ls.flatMap fun l => l ++ ['\n']) = ls := by
  induction ls with
  | nil => rfl
  | cons l ls ih =>
    have hl := h l List.mem_cons_self
    have hrest := ih fun l' hl' => h l' (List.mem_cons_of_mem l hl')
    have hstrip : stripLineEnd (l ++ ['\n']) = l := by
      unfold stripLineEnd
      rw [List.getLast?_concat, if_pos rfl, List.dropLast_concat, if_neg hl.2]
    unfold lines at hrest ⊢
    rw [List.flatMap_cons, List.append_assoc, List.singleton_append,
      splitInclusive_append_cons hl.1, List.map_cons, hstrip, hrest]

/-- `str::strip_prefix`. -/
theorem isPrefixOf?_eq_some {pre text rest : List α} :
    pre.isPrefixOf? text = some rest ↔ text = pre ++ rest := by
  induction pre generalizing text with
  | nil => simp [List.isPrefixOf?]
  | cons x pre ih =>
    cases text with
    | nil => simp [List.isPrefixOf?]
    | cons y text =>
      rw [List.isPrefixOf?, List.cons_append, List.cons.injEq]
      split
      · rename_i hxy
        rw [ih, eq_of_beq hxy]
        simp
      · rename_i hxy
        constructor
        · intro h
          cases h
        · intro h
          exact absurd (beq_of_eq h.1.symm) hxy

theorem isPrefixOf?_append (pre rest : List α) : pre.isPrefixOf? (pre ++ rest) = some rest :=
  isPrefixOf?_eq_some.mpr rfl

/-- `str::eq_ignore_ascii_case`. -/
def eqIgnoreAsciiCase (s t : List Char) : Bool := s.map Char.toLower = t.map Char.toLower

end Text
