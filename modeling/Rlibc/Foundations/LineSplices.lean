import Rlibc.Foundations.TextLines

/-!
# Exchanging runs of lines

A splice exchanges the lines strictly between two others for copies of a filler line.  What stands
in front of it keeps its line numbers, what stands behind it is shifted; splices that follow each
other in a text can be carried out from the last one to the first.
-/

namespace TextLines

open Text

/-- The lines behind line `after` and in front of line `before` become `count` copies of a line. -/
structure Splice where
  after : Nat
  before : Nat
  count : Nat
deriving DecidableEq

namespace Splice

def apply (filler : List Char) (s : Splice) (ls : List (List Char)) : List (List Char) :=
  ls.take s.after ++ List.replicate s.count filler ++ ls.drop (s.before - 1)

/-- Where a line is found afterwards. -/
def line (s : Splice) (l : Nat) : Nat :=
  if l < s.before then min l s.after else l - s.before + (s.after + s.count + 1)

/-- The two lines are there, in this order. -/
structure Fits (s : Splice) (ls : List (List Char)) : Prop where
  lt : s.after < s.before
  le : s.before ≤ ls.length

variable {filler : List Char} {s : Splice} {ls : List (List Char)}

/-! ## Line numbers -/

theorem line_of_le (h : s.after < s.before) {l : Nat} (hl : l ≤ s.after) : s.line l = l := by
  unfold line
  rw [if_pos (Nat.lt_of_le_of_lt hl h), Nat.min_eq_left hl]

theorem line_of_ge {l : Nat} (hl : s.before ≤ l) :
    s.line l = l - s.before + (s.after + s.count + 1) := by
  unfold line
  rw [if_neg (Nat.not_lt.mpr hl)]

theorem line_mono {l m : Nat} (h : l ≤ m) : s.line l ≤ s.line m := by
  unfold line
  split <;> split <;> omega

/-! ## Lines -/

/-- What stands in front of the splice stays. -/
theorem take_apply (h : s.Fits ls) {n : Nat} (hn : n ≤ s.after) :
    (s.apply filler ls).take n = ls.take n := by
  have hlt := h.lt
  have hle := h.le
  have hlen : n ≤ (ls.take s.after).length := by
    rw [List.length_take]
    omega
  unfold apply
  rw [List.append_assoc, List.take_append_of_le_length hlen, List.take_take, Nat.min_eq_left hn]

theorem length_head (h : s.Fits ls) :
    (ls.take s.after ++ List.replicate s.count filler).length = s.after + s.count := by
  have hlt := h.lt
  have hle := h.le
  rw [List.length_append, List.length_take, List.length_replicate]
  omega

theorem length_apply (h : s.Fits ls) :
    (s.apply filler ls).length = s.after + s.count + (ls.length - (s.before - 1)) := by
  unfold apply
  rw [List.length_append, length_head h, List.length_drop]

/-- What stands behind the splice is shifted. -/
theorem drop_apply (h : s.Fits ls) (n : Nat) :
    (s.apply filler ls).drop (s.after + s.count + n) = ls.drop (s.before - 1 + n) := by
  have hhead := @length_head filler s ls h
  unfold apply
  rw [← List.drop_drop, ← hhead, List.drop_left, List.drop_drop]

theorem areLines_apply (hls : AreLines ls) (hfiller : '\n' ∉ filler) (h : s.Fits ls) :
    AreLines (s.apply filler ls) := by
  constructor
  · intro hnil
    have hlen := congrArg List.length hnil
    rw [length_apply h, List.length_nil] at hlen
    have hlt := h.lt
    have hle := h.le
    omega
  · intro l hl
    unfold apply at hl
    rw [List.mem_append, List.mem_append] at hl
    rcases hl with (hl | hl) | hl
    · exact hls.clean l (List.mem_of_mem_take hl)
    · rw [List.eq_of_mem_replicate hl]
      exact hfiller
    · exact hls.clean l (List.mem_of_mem_drop hl)

end Splice

/-! ## Lines between two others -/

/-- The lines between two others are decided by the beginning of the text. -/
theorem between_congr {ls ms : List (List Char)} {n a b : Nat} (h : ls.take n = ms.take n)
    (hb : b ≤ n + 1) : between ls a b = between ms a b := by
  have hform : ∀ ls : List (List Char), between ls a b = (ls.take (b - 1)).drop a := by
    intro ls
    unfold between
    rw [List.drop_take]
  have htake : ls.take (b - 1) = ms.take (b - 1) := by
    have hle : b - 1 ≤ n := by omega
    rw [← Nat.min_eq_left hle, ← List.take_take, ← List.take_take, h]
  rw [hform, hform, htake]

/-- The lines before, between and behind. -/
theorem eq_take_between_drop {ls : List (List Char)} {a b : Nat} (hab : a < b) :
    ls = ls.take a ++ between ls a b ++ ls.drop (b - 1) := by
  have hsum : b - 1 = a + (b - 1 - a) := by omega
  unfold between
  rw [← List.take_add, ← hsum, List.take_append_drop]

namespace Splice

variable {filler : List Char} {s : Splice} {ls : List (List Char)} {a b : Nat}

theorem between_apply_of_le (h : s.Fits ls) (hb : b ≤ s.after) :
    between (s.apply filler ls) a b = between ls a b :=
  between_congr (take_apply h (Nat.le_refl _)) (Nat.le_succ_of_le hb)

theorem between_apply_of_ge (h : s.Fits ls) (ha : s.before ≤ a) (hab : a < b) :
    between (s.apply filler ls) (s.line a) (s.line b) = between ls a b := by
  have hlt := h.lt
  have hstart : s.line a = s.after + s.count + (a + 1 - s.before) := by
    rw [line_of_ge ha]
    omega
  have hold : s.before - 1 + (a + 1 - s.before) = a := by omega
  have hlen : s.line b - 1 - s.line a = b - 1 - a := by
    rw [line_of_ge ha, line_of_ge (Nat.le_trans ha (Nat.le_of_lt hab))]
    omega
  unfold between
  rw [hlen, hstart, drop_apply h, hold]

end Splice

/-! ## Lines that are not blank -/

/-- The lines that are not entirely white space. -/
def contentLines (ls : List (List Char)) : List (List Char) := ls.filter fun l => ¬ Blank l

theorem contentLines_append (ls ms : List (List Char)) :
    contentLines (ls ++ ms) = contentLines ls ++ contentLines ms := List.filter_append _ _

theorem contentLines_eq_nil {ls : List (List Char)} (h : ∀ l ∈ ls, Blank l) :
    contentLines ls = [] := by
  unfold contentLines
  rw [List.filter_eq_nil_iff]
  intro l hl
  simp [h l hl]

/-- Blank lines that are exchanged for blank lines are not seen. -/
theorem Splice.contentLines_apply {filler : List Char} {s : Splice} {ls : List (List Char)}
    (h : s.Fits ls) (hfiller : Blank filler) (hblank : ∀ l ∈ between ls s.after s.before, Blank l) :
    contentLines (s.apply filler ls) = contentLines ls := by
  have hsplit : ls = ls.take s.after ++ between ls s.after s.before ++ ls.drop (s.before - 1) :=
    eq_take_between_drop h.lt
  have hnone : contentLines (List.replicate s.count filler) = [] := by
    apply contentLines_eq_nil
    intro l hl
    rw [List.eq_of_mem_replicate hl]
    exact hfiller
  calc contentLines (s.apply filler ls)
      = contentLines (ls.take s.after) ++ contentLines (ls.drop (s.before - 1)) := by
        unfold apply
        rw [contentLines_append, contentLines_append, hnone, List.append_nil]
    _ = contentLines (ls.take s.after ++ between ls s.after s.before ++ ls.drop (s.before - 1)) := by
        rw [contentLines_append, contentLines_append, contentLines_eq_nil hblank, List.append_nil]
    _ = contentLines ls := by rw [← hsplit]

/-! ## Several splices -/

/-- The splices from the last one to the first. -/
def applyAll (filler : List Char) (ss : List Splice) (ls : List (List Char)) : List (List Char) :=
  ss.foldr (Splice.apply filler) ls

/-- The splices follow each other in the text. -/
structure InOrder (ss : List Splice) (ls : List (List Char)) : Prop where
  fits : ∀ s ∈ ss, s.Fits ls
  sorted : ss.Pairwise fun s t => s.before ≤ t.after

theorem InOrder.tail {s : Splice} {ss : List Splice} {ls : List (List Char)}
    (h : InOrder (s :: ss) ls) : InOrder ss ls where
  fits := fun t ht => h.fits t (List.mem_cons_of_mem s ht)
  sorted := (List.pairwise_cons.mp h.sorted).2

theorem InOrder.head {s : Splice} {ss : List Splice} {ls : List (List Char)}
    (h : InOrder (s :: ss) ls) : ∀ t ∈ ss, s.before ≤ t.after :=
  (List.pairwise_cons.mp h.sorted).1

/-- A splice fits a text that begins like one that it fits. -/
theorem Splice.Fits.congr {s : Splice} {ls ms : List (List Char)} (h : s.Fits ls)
    (htake : ms.take s.before = ls.take s.before) : s.Fits ms where
  lt := h.lt
  le := by
    have hlen := congrArg List.length htake
    have hle := h.le
    rw [List.length_take, List.length_take] at hlen
    omega

/-- What stands in front of all the splices stays. -/
theorem take_applyAll {filler : List Char} {ss : List Splice} {ls : List (List Char)}
    (h : InOrder ss ls) {n : Nat} (hn : ∀ s ∈ ss, n ≤ s.after) :
    (applyAll filler ss ls).take n = ls.take n := by
  induction ss generalizing n with
  | nil => rfl
  | cons s ss ih =>
    have hbefore : (applyAll filler ss ls).take s.before = ls.take s.before := ih h.tail h.head
    have hfits : s.Fits (applyAll filler ss ls) := (h.fits s List.mem_cons_self).congr hbefore
    have hle : n ≤ s.after := hn s List.mem_cons_self
    have hlt := hfits.lt
    change (s.apply filler (applyAll filler ss ls)).take n = ls.take n
    rw [Splice.take_apply hfits hle]
    exact ih h.tail fun t ht => Nat.le_trans hle (Nat.le_trans (Nat.le_of_lt hlt) (h.head t ht))

/-- The next splice in front still fits. -/
theorem InOrder.fits_applyAll {filler : List Char} {s : Splice} {ss : List Splice}
    {ls : List (List Char)} (h : InOrder (s :: ss) ls) : s.Fits (applyAll filler ss ls) :=
  (h.fits s List.mem_cons_self).congr (take_applyAll h.tail h.head)

/-- The next splice in front exchanges the lines that it was made for. -/
theorem InOrder.between_applyAll {filler : List Char} {s : Splice} {ss : List Splice}
    {ls : List (List Char)} (h : InOrder (s :: ss) ls) :
    between (applyAll filler ss ls) s.after s.before = between ls s.after s.before :=
  between_congr (take_applyAll h.tail h.head) (Nat.le_succ _)

theorem areLines_applyAll {filler : List Char} {ss : List Splice} {ls : List (List Char)}
    (h : InOrder ss ls) (hls : AreLines ls) (hfiller : '\n' ∉ filler) :
    AreLines (applyAll filler ss ls) := by
  induction ss with
  | nil => exact hls
  | cons s ss ih => exact Splice.areLines_apply (ih h.tail) hfiller h.fits_applyAll

theorem contentLines_applyAll {filler : List Char} {ss : List Splice} {ls : List (List Char)}
    (h : InOrder ss ls) (hfiller : Blank filler)
    (hblank : ∀ s ∈ ss, ∀ l ∈ between ls s.after s.before, Blank l) :
    contentLines (applyAll filler ss ls) = contentLines ls := by
  induction ss with
  | nil => rfl
  | cons s ss ih =>
    have hhead : ∀ l ∈ between (applyAll filler ss ls) s.after s.before, Blank l := by
      rw [h.between_applyAll]
      exact hblank s List.mem_cons_self
    calc contentLines (applyAll filler (s :: ss) ls)
        = contentLines (applyAll filler ss ls) :=
          Splice.contentLines_apply h.fits_applyAll hfiller hhead
      _ = contentLines ls := ih h.tail fun t ht => hblank t (List.mem_cons_of_mem s ht)

/-! ## Splices as bytes -/

/-- The bytes that a splice replaces, and with what. -/
def Splice.bytes (filler : List Char) (ls : List (List Char)) (s : Splice) :
    Nat × Nat × List Char :=
  (lineOffset ls s.after, lineOffset ls (s.before - 1),
    terminated (List.replicate s.count filler))

/-- Carried out from the last one to the first, the replacements can use the offsets of the text
as it was at the start. -/
theorem foldr_replaceRange {filler : List Char} {ss : List Splice} {ls : List (List Char)}
    (h : InOrder ss ls) :
    (ss.map (Splice.bytes filler ls)).foldr
      (fun edit updated => updated.bind fun text => replaceRange text edit.1 edit.2.1 edit.2.2)
      (some (joinLines ls)) = some (joinLines (applyAll filler ss ls)) := by
  induction ss with
  | nil => rfl
  | cons s ss ih =>
    have hfits : s.Fits (applyAll filler ss ls) := h.fits_applyAll
    have htake : ls.take s.before = (applyAll filler ss ls).take s.before :=
      (take_applyAll h.tail h.head).symm
    have hstart : lineOffset ls s.after = lineOffset (applyAll filler ss ls) s.after :=
      lineOffset_congr htake (Nat.le_of_lt hfits.lt)
    have hstop : lineOffset ls (s.before - 1) =
        lineOffset (applyAll filler ss ls) (s.before - 1) :=
      lineOffset_congr htake (Nat.sub_le _ _)
    rw [List.map_cons, List.foldr_cons, ih h.tail, Option.bind_some]
    unfold Splice.bytes
    rw [hstart, hstop, replaceRange_between hfits.lt hfits.le]
    rfl

end TextLines
