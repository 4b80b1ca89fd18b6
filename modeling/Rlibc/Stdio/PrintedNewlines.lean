import Rlibc.Stdio.IntegerFields
import Rlibc.Stdio.PrintfText

/-!
# Newlines in what a directive prints

A string or a character is the only thing that puts a newline into the text: signs, prefixes,
digits and padding are not newlines, nor is anything in a floating conversion.  The analysis finds
the newline of a string or a character, and passes the arguments of every directive as printf does,
but for one that has an `l` before a floating conversion.
-/

namespace Rlibc.Stdio

open ByteMem ByteOrder

/-! ## Numbers -/

theorem newline_notMem_replicate {byte : UInt8} (h : byte ≠ newline) (n : Nat) :
    newline ∉ List.replicate n byte := by
  intro hmem
  exact h (List.eq_of_mem_replicate hmem).symm

theorem newline_notMem_append {xs ys : List UInt8} (hxs : newline ∉ xs) (hys : newline ∉ ys) :
    newline ∉ xs ++ ys := by
  rw [List.mem_append, not_or]
  exact ⟨hxs, hys⟩

/-- The parts of a number decide whether there is a newline in it. -/
theorem newline_notMem_renderNumber (m : Mem) (leftAlign useZeroPad : Bool) (width zeros : Nat)
    {sign radixMark digits : List UInt8} (hsign : newline ∉ sign) (hmark : newline ∉ radixMark)
    (hdigits : newline ∉ digits) :
    newline ∉ (renderNumber leftAlign useZeroPad width sign radixMark zeros digits).text m := by
  have hspaces : ∀ n, newline ∉ List.replicate n ' '.toUInt8 :=
    fun n => newline_notMem_replicate (by decide) n
  have hzeros : ∀ n, newline ∉ List.replicate n '0'.toUInt8 :=
    fun n => newline_notMem_replicate (by decide) n
  have hhead : newline ∉ sign ++ radixMark := newline_notMem_append hsign hmark
  have hbody : newline ∉ List.replicate zeros '0'.toUInt8 ++ digits :=
    newline_notMem_append (hzeros zeros) hdigits
  have hcontent := newline_notMem_append hhead hbody
  rw [renderNumber_text]
  dsimp only
  split
  · exact newline_notMem_append hcontent (hspaces _)
  · split
    · exact newline_notMem_append (newline_notMem_append hhead (hzeros _)) hbody
    · exact newline_notMem_append (hspaces _) hcontent

theorem digitToAscii_ne_newline : ∀ value < 16, ∀ uppercase : Bool,
    digitToAscii value uppercase ≠ newline := by
  decide

theorem newline_notMem_unsignedToAscii (value : Nat) {base : Nat} (uppercase : Bool)
    (hbase : 1 < base) (hle : base ≤ 16) : newline ∉ unsignedToAscii value base uppercase := by
  intro hmem
  unfold unsignedToAscii at hmem
  rcases List.mem_map.mp hmem with ⟨digit, hdigit, heq⟩
  have hlt := Numeral.digits_lt hbase hdigit
  exact digitToAscii_ne_newline digit (by omega) uppercase heq

theorem newline_notMem_renderFormattedInteger (m : Mem) (d : FormatDirective) (leftAlign : Bool)
    (width : Nat) (precision : Option Nat) (value : Nat) (isNegative : Bool) :
    newline ∉ (renderFormattedInteger d leftAlign width precision value isNegative).text m := by
  unfold renderFormattedInteger
  dsimp only
  have hbase : 1 < integerBase d.conversion ∧ integerBase d.conversion ≤ 16 := by
    unfold integerBase
    split
    · decide
    · split <;> decide
  have hoctal : newline ∉ octalAlternatePrefix d precision value := by
    unfold octalAlternatePrefix
    split <;> decide
  apply newline_notMem_renderNumber
  · unfold integerSign
    repeat' split
    all_goals decide
  · unfold integerPrefix
    repeat' split
    all_goals first | exact hoctal | decide
  · unfold integerDigits
    split
    · exact List.not_mem_nil
    · exact newline_notMem_unsignedToAscii value _ hbase.1 hbase.2

theorem newline_notMem_renderFormattedPointer (m : Mem) (leftAlign zeroPad : Bool) (width : Nat)
    (precision : Option Nat) {sign : List UInt8} (pointerAddr : Nat) (hsign : newline ∉ sign) :
    newline ∉ (renderFormattedPointer leftAlign zeroPad width precision sign pointerAddr).text m := by
  unfold renderFormattedPointer
  dsimp only
  apply newline_notMem_renderNumber
  · exact hsign
  · decide
  · exact newline_notMem_unsignedToAscii pointerAddr _ (by decide) (by decide)

/-! ## Strings and characters -/

/-- Padding makes no difference. -/
theorem newline_mem_padded (m : Mem) (width contentLen : Nat) (leftAlign : Bool) (piece : Piece) :
    (newline ∈ (renderPadding width contentLen leftAlign ++ [piece] ++
        renderTrailingPadding width contentLen leftAlign).flatMap fun p => p.text m) ↔
      newline ∈ piece.text m := by
  have hspaces : ∀ n, newline ∉ (Piece.repeated ' '.toUInt8 n).text m :=
    fun n => newline_notMem_replicate (by decide) n
  have hleft : newline ∉ (renderPadding width contentLen leftAlign).flatMap fun p => p.text m := by
    unfold renderPadding
    split
    · exact List.not_mem_nil
    · rw [List.flatMap_singleton]
      exact hspaces _
  have hright : newline ∉
      (renderTrailingPadding width contentLen leftAlign).flatMap fun p => p.text m := by
    unfold renderTrailingPadding
    split
    · exact List.not_mem_nil
    · rw [List.flatMap_singleton]
      exact hspaces _
  rw [List.flatMap_append, List.flatMap_append, List.flatMap_singleton, List.mem_append,
    List.mem_append]
  constructor
  · rintro ((hmem | hmem) | hmem)
    · exact absurd hmem hleft
    · exact hmem
    · exact absurd hmem hright
  · exact fun hmem => Or.inl (Or.inr hmem)

theorem bytesAt_cStringPrefix (m : Mem) (pointer : Nat) (precision : Option Nat) :
    bytesAt m pointer (cStringPrefixLen m pointer precision) =
      cStringPrefix m pointer precision :=
  bytesAt_eq (holdsAt_untilNul m _ pointer)

/-- The newline of a string is found in the string. -/
theorem newline_mem_renderString (m : Mem) (leftAlign : Bool) (width : Nat)
    (precision : Option Nat) (pointer : Nat) :
    newline ∈ (renderString m leftAlign width precision pointer).text m ↔
      pointer ≠ 0 ∧ cStringPrefixContainsByte m pointer newline precision = true := by
  unfold renderString Rendered.text
  dsimp only
  rw [newline_mem_padded]
  by_cases hnull : pointer = 0
  · have hfallback : newline ∉ nullFallback := by decide
    rw [if_pos hnull]
    apply iff_of_false
    · exact fun hmem => hfallback (List.mem_of_mem_take hmem)
    · exact fun h => h.1 hnull
  · have htext : (Piece.slice pointer (cStringPrefixLen m pointer precision)).text m =
        cStringPrefix m pointer precision := bytesAt_cStringPrefix m pointer precision
    rw [if_neg hnull, htext]
    unfold cStringPrefixContainsByte
    rw [decide_eq_true_eq]
    exact (and_iff_right hnull).symm

theorem newline_mem_renderChar (m : Mem) (leftAlign : Bool) (width : Nat) (value : Int) :
    newline ∈ (renderChar leftAlign width value).text m ↔
      UInt8.ofNat (value % 2 ^ 8).toNat = newline := by
  unfold renderChar Rendered.text
  dsimp only
  rw [newline_mem_padded]
  change newline ∈ [UInt8.ofNat (value % 2 ^ 8).toNat] ↔ _
  rw [List.mem_singleton]
  exact eq_comm

end Rlibc.Stdio
