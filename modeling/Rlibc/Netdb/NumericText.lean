import Rlibc.Foundations.ByteOrder
import Rlibc.Foundations.Numeral
import Mathlib.Tactic.IntervalCases

/-!
# Numeric hosts and services as text

What the resolver reads and prints: decimal octets and ports, the legacy forms of an IPv4
address, and the printed form of an IPv6 address.  The last is the standard library's and is a
parameter; the decimal forms are written out.
-/

namespace Rlibc.Netdb

open ByteOrder

abbrev Ipv4Octets := Vector UInt8 4

abbrev Ipv6Octets := Vector UInt8 16

/-- `Ipv6Addr`'s `Display` and `FromStr`. -/
structure Ipv6Text where
  toText : Ipv6Octets → List UInt8
  fromStr : List UInt8 → Option Ipv6Octets

abbrev dot : UInt8 := 46
abbrev plusSign : UInt8 := 43
abbrev zeroDigit : UInt8 := 48

/-- `char::to_digit(radix)`. -/
def toDigit (radix : Nat) (c : UInt8) : Option Nat :=
  let digit :=
    if 48 ≤ c.toNat ∧ c.toNat ≤ 57 then some (c.toNat - 48)
    else if 97 ≤ c.toNat ∧ c.toNat ≤ 122 then some (c.toNat - 97 + 10)
    else if 65 ≤ c.toNat ∧ c.toNat ≤ 90 then some (c.toNat - 65 + 10)
    else none
  digit.filter (· < radix)

/-- The digits of a text, as long as their value does not exceed a limit. -/
def checkedDigits (radix limit : Nat) : Nat → List UInt8 → Option Nat
  | value, [] => some value
  | value, c :: cs => do
    let digit ← toDigit radix c
    if value * radix + digit ≤ limit then checkedDigits radix limit (value * radix + digit) cs
    else none

/-- `value.to_string()` of an unsigned integer. -/
def decimal (value : Nat) : List UInt8 :=
  (Numeral.digits 10 value).map fun d => UInt8.ofNat (48 + d)

/-! ## IPv4 addresses -/

/-- `u32::from_str_radix(text, radix).ok()`. -/
def u32FromStrRadix (text : List UInt8) (radix : Nat) : Option Nat :=
  let digits := if text.head? = some plusSign then text.tail else text
  if digits = [] then none else checkedDigits radix 0xffffffff 0 digits

/-- One octet of a dotted quad: at most three digits, and no leading zero. -/
def octetFromStr (text : List UInt8) : Option UInt8 :=
  if text = [] ∨ 3 < text.length ∨ (text.head? = some zeroDigit ∧ 1 < text.length) then none
  else (checkedDigits 10 255 0 text).map UInt8.ofNat

/-- `Ipv4Addr::from_str(text).ok()`. -/
def ipv4FromStr (text : List UInt8) : Option Ipv4Octets :=
  match text.splitOn dot with
  | [a, b, c, d] => do
    let a ← octetFromStr a
    let b ← octetFromStr b
    let c ← octetFromStr c
    let d ← octetFromStr d
    some #v[a, b, c, d]
  | _ => none

/-- `Ipv4Addr::to_string()`. -/
def ipv4ToString (address : List UInt8) : List UInt8 :=
  [dot].intercalate (address.map fun octet => decimal octet.toNat)

/-- `text.strip_prefix("0x").or_else(|| text.strip_prefix("0X"))`. -/
def stripHexPrefix : List UInt8 → Option (List UInt8)
  | zero :: x :: rest => if zero = zeroDigit ∧ (x = 120 ∨ x = 88) then some rest else none
  | _ => none

def parseIpv4LegacyComponent (component : List UInt8) : Option Nat :=
  if component = [] ∨ component.head? = some plusSign then none
  else
    match stripHexPrefix component with
    | some hexDigits => if hexDigits = [] then none else u32FromStrRadix hexDigits 16
    | none =>
      if 1 < component.length ∧ component.head? = some zeroDigit then u32FromStrRadix component 8
      else u32FromStrRadix component 10

/-- `u32::to_be_bytes`. -/
def toBeBytes (address : Nat) : Ipv4Octets :=
  ⟨(beBytes 4 address).toArray, by rw [List.size_toArray, beBytes_length]⟩

/-- One to four components make an address. -/
def legacyAddress : List Nat → Option Nat
  | [a] => some a
  | [a, b] => if a > 0xff ∨ b > 0x00ffffff then none else some (a <<< 24 ||| b)
  | [a, b, c] =>
    if a > 0xff ∨ b > 0xff ∨ c > 0xffff then none else some (a <<< 24 ||| b <<< 16 ||| c)
  | [a, b, c, d] =>
    if a > 0xff ∨ b > 0xff ∨ c > 0xff ∨ d > 0xff then none
    else some (a <<< 24 ||| b <<< 16 ||| c <<< 8 ||| d)
  | _ => none

def parseIpv4LegacyText (nodeText : List UInt8) : Option Ipv4Octets := do
  let components ← (nodeText.splitOn dot).mapM parseIpv4LegacyComponent
  let address ← legacyAddress components
  some (toBeBytes address)

/-! ## Services -/

/-- `u8::is_ascii_whitespace`. -/
def isAsciiWhitespace (c : UInt8) : Bool := c = 32 ∨ c = 9 ∨ c = 10 ∨ c = 12 ∨ c = 13

def parseNumericServiceDigits (digits : List UInt8) : Option Nat :=
  if digits = [] then none else checkedDigits 10 0xffff 0 digits

/-- A numeric port: white space, a plus sign, digits. -/
def parseNumericService (rawBytes : List UInt8) : Option Nat :=
  let bytes := rawBytes.dropWhile isAsciiWhitespace
  if bytes = [] then none
  else parseNumericServiceDigits (if bytes.head? = some plusSign then bytes.tail else bytes)

/-! ## Decimal text reads back -/

theorem toDigit_decimal {d : Nat} (hd : d < 10) : toDigit 10 (UInt8.ofNat (48 + d)) = some d := by
  interval_cases d <;> rfl

theorem checkedDigits_map {limit : Nat} {ds : List Nat} (hds : ∀ d ∈ ds, d < 10) {value : Nat}
    (hle : ds.foldl (fun v d => v * 10 + d) value ≤ limit) :
    checkedDigits 10 limit value (ds.map fun d => UInt8.ofNat (48 + d)) =
      some (ds.foldl (fun v d => v * 10 + d) value) := by
  induction ds generalizing value with
  | nil => rfl
  | cons d ds ih =>
    have hgrow := Numeral.le_foldl (show 0 < 10 by decide) ds (value * 10 + d)
    rw [List.foldl_cons] at hle
    rw [List.map_cons, checkedDigits, toDigit_decimal (hds d List.mem_cons_self)]
    show (if value * 10 + d ≤ limit then _ else none) = _
    rw [if_pos (Nat.le_trans hgrow hle), ih (fun e he => hds e (List.mem_cons_of_mem d he)) hle]
    rfl

theorem checkedDigits_decimal {limit value : Nat} (hle : value ≤ limit) :
    checkedDigits 10 limit 0 (decimal value) = some value := by
  have hvalue := Numeral.value_digits 10 value
  unfold Numeral.value at hvalue
  have hread := checkedDigits_map (fun d hd => Numeral.digits_lt (by decide) hd)
    (show (Numeral.digits 10 value).foldl (fun v d => v * 10 + d) 0 ≤ limit by rwa [hvalue])
  rw [hvalue] at hread
  exact hread

theorem decimal_ne_nil (value : Nat) : decimal value ≠ [] := by
  unfold decimal
  rw [ne_eq, List.map_eq_nil_iff]
  exact Numeral.digits_ne_nil 10 value

/-- Decimal text is made of digits. -/
theorem mem_decimal {value : Nat} {c : UInt8} (h : c ∈ decimal value) :
    48 ≤ c.toNat ∧ c.toNat ≤ 57 := by
  unfold decimal at h
  rw [List.mem_map] at h
  cases h with
  | intro d hd =>
    have hlt := Numeral.digits_lt (show 1 < 10 by decide) hd.1
    rw [← hd.2, UInt8.toNat_ofNat']
    omega

theorem decimal_head {value : Nat} (h : (decimal value).head? = some zeroDigit) : value = 0 := by
  unfold decimal at h
  cases hdigits : Numeral.digits 10 value with
  | nil => exact absurd hdigits (Numeral.digits_ne_nil 10 value)
  | cons d ds =>
    rw [hdigits, List.map_cons, List.head?_cons, Option.some.injEq] at h
    have hlt := Numeral.digits_lt (show 1 < 10 by decide)
      (show d ∈ Numeral.digits 10 value by rw [hdigits]; exact List.mem_cons_self)
    apply Numeral.digits_head hdigits
    have hsame := congrArg UInt8.toNat h
    rw [UInt8.toNat_ofNat'] at hsame
    change (48 + d) % 256 = 48 at hsame
    omega

theorem isAsciiWhitespace_lt {c : UInt8} (h : isAsciiWhitespace c = true) : c.toNat < 48 := by
  unfold isAsciiWhitespace at h
  rcases of_decide_eq_true h with rfl | rfl | rfl | rfl | rfl <;> decide

/-- A port reads back. -/
theorem parseNumericService_decimal {port : Nat} (hport : port ≤ 0xffff) :
    parseNumericService (decimal port) = some port := by
  cases htext : decimal port with
  | nil => exact absurd htext (decimal_ne_nil port)
  | cons c cs =>
    have hdigit := mem_decimal (show c ∈ decimal port by rw [htext]; exact List.mem_cons_self)
    have hspace : isAsciiWhitespace c ≠ true := by
      intro h
      have hlt := isAsciiWhitespace_lt h
      omega
    have hplus : (c :: cs).head? ≠ some plusSign := by
      intro h
      rw [Option.some.inj h] at hdigit
      exact absurd hdigit.1 (by decide)
    unfold parseNumericService
    rw [List.dropWhile_cons_of_neg hspace]
    dsimp only
    rw [if_neg (List.cons_ne_nil c cs), if_neg hplus]
    unfold parseNumericServiceDigits
    rw [if_neg (List.cons_ne_nil c cs), ← htext, checkedDigits_decimal hport]

/-- The octets of a printed address read back. -/
theorem octetFromStr_decimal (octet : UInt8) : octetFromStr (decimal octet.toNat) = some octet := by
  have hlt := octet.toNat_lt
  have hlength : (decimal octet.toNat).length ≤ 3 := by
    unfold decimal
    rw [List.length_map]
    exact Numeral.digits_length_le (by decide) (by omega) (by decide)
  unfold octetFromStr
  rw [if_neg]
  · rw [checkedDigits_decimal (show octet.toNat ≤ 255 by omega), Option.map_some,
      UInt8.ofNat_toNat]
  · intro h
    rcases h with h | h | h
    · exact decimal_ne_nil _ h
    · omega
    · rw [decimal_head h.1] at h
      exact absurd h.2 (by decide)

theorem dot_notMem_decimal (value : Nat) : dot ∉ decimal value :=
  fun h => absurd (mem_decimal h).1 (by decide)

theorem octets_toList (octets : Ipv4Octets) :
    octets.toList = [octets[0], octets[1], octets[2], octets[3]] := by
  apply List.ext_getElem
  · rw [Vector.length_toList]
    rfl
  · intro i hi _
    rw [Vector.length_toList] at hi
    interval_cases i <;> simp

/-- A printed address splits into its octets. -/
theorem splitOn_ipv4ToString {address : List UInt8} (h : address ≠ []) :
    (ipv4ToString address).splitOn dot = address.map fun octet => decimal octet.toNat := by
  unfold ipv4ToString
  apply List.splitOn_intercalate
  · intro text htext
    rw [List.mem_map] at htext
    cases htext with
    | intro octet h =>
      rw [← h.2]
      exact dot_notMem_decimal _
  · rwa [ne_eq, List.map_eq_nil_iff]

/-- `Ipv4Addr`'s parsing inverts its printing. -/
theorem ipv4FromStr_toString (octets : Ipv4Octets) :
    ipv4FromStr (ipv4ToString octets.toList) = some octets := by
  have hsame : #v[octets[0], octets[1], octets[2], octets[3]] = octets := by
    apply Vector.toList_inj.mp
    rw [octets_toList octets]
    rfl
  have hsplit := splitOn_ipv4ToString (List.cons_ne_nil octets[0] [octets[1], octets[2], octets[3]])
  rw [← octets_toList] at hsplit
  rw [octets_toList, List.map_cons, List.map_cons, List.map_cons, List.map_cons, List.map_nil,
    ← octets_toList] at hsplit
  unfold ipv4FromStr
  rw [hsplit]
  dsimp only
  rw [octetFromStr_decimal, octetFromStr_decimal, octetFromStr_decimal, octetFromStr_decimal]
  exact congrArg some hsame

/-- Different octets print differently. -/
theorem ipv4ToString_injective {octets octets' : Ipv4Octets}
    (h : ipv4ToString octets.toList = ipv4ToString octets'.toList) : octets = octets' := by
  have hread := ipv4FromStr_toString octets
  rw [h, ipv4FromStr_toString] at hread
  exact (Option.some.inj hread).symm

/-! ## Text with a colon is no IPv4 address -/

abbrev colon : UInt8 := 58

theorem checkedDigits_colon (radix limit value : Nat) {text : List UInt8} (h : colon ∈ text) :
    checkedDigits radix limit value text = none := by
  induction text generalizing value with
  | nil => exact absurd h List.not_mem_nil
  | cons c cs ih =>
    rw [checkedDigits]
    cases hdigit : toDigit radix c with
    | none => rfl
    | some digit =>
      have hc : colon ≠ c := by
        intro hc
        rw [← hc] at hdigit
        exact absurd hdigit (fun hsome => nomatch hsome)
      have hrest := ih (value * radix + digit) ((List.mem_cons.mp h).resolve_left hc)
      show (if value * radix + digit ≤ limit then _ else none) = none
      rw [hrest, ite_self]

theorem octetFromStr_colon {text : List UInt8} (h : colon ∈ text) : octetFromStr text = none := by
  unfold octetFromStr
  rw [checkedDigits_colon 10 255 0 h, Option.map_none, ite_self]

theorem u32FromStrRadix_colon {text : List UInt8} {radix : Nat} (h : colon ∈ text) :
    u32FromStrRadix text radix = none := by
  unfold u32FromStrRadix
  dsimp only
  have hdigits : colon ∈ (if text.head? = some plusSign then text.tail else text) := by
    split
    · rename_i hplus
      cases text with
      | nil => exact absurd h List.not_mem_nil
      | cons c cs =>
        refine (List.mem_cons.mp h).resolve_left fun hc => ?_
        rw [List.head?_cons, ← hc] at hplus
        exact absurd (Option.some.inj hplus) (by decide)
    · exact h
  rw [checkedDigits_colon radix _ _ hdigits, ite_self]

theorem stripHexPrefix_colon {text rest : List UInt8} (h : colon ∈ text)
    (hstrip : stripHexPrefix text = some rest) : colon ∈ rest := by
  unfold stripHexPrefix at hstrip
  split at hstrip
  · split at hstrip
    · rename_i zero x tail hzero
      rw [← Option.some.inj hstrip]
      rcases List.mem_cons.mp h with hc | h
      · rw [hzero.1] at hc
        exact absurd hc (by decide)
      · refine (List.mem_cons.mp h).resolve_left fun hc => ?_
        rcases hzero.2 with hx | hx
        · rw [hx] at hc
          exact absurd hc (by decide)
        · rw [hx] at hc
          exact absurd hc (by decide)
    · cases hstrip
  · cases hstrip

theorem parseIpv4LegacyComponent_colon {text : List UInt8} (h : colon ∈ text) :
    parseIpv4LegacyComponent text = none := by
  unfold parseIpv4LegacyComponent
  split
  · rfl
  · cases hstrip : stripHexPrefix text with
    | none =>
      dsimp only
      rw [u32FromStrRadix_colon h, u32FromStrRadix_colon h, ite_self]
    | some rest =>
      dsimp only
      rw [u32FromStrRadix_colon (stripHexPrefix_colon h hstrip), ite_self]

/-- A byte other than the separator stands in one of the parts. -/
theorem exists_part {text : List UInt8} {c sep : UInt8} (h : c ∈ text) (hc : c ≠ sep) :
    ∃ part ∈ text.splitOn sep, c ∈ part := by
  by_contra hno
  rw [not_exists] at hno
  have hjoin : [sep].intercalate (text.splitOn sep) = text := List.intercalate_splitOn sep
  have hnone : ∀ parts : List (List UInt8), (∀ part ∈ parts, c ∉ part) →
      c ∉ [sep].intercalate parts := by
    intro parts hparts
    induction parts with
    | nil => exact List.not_mem_nil
    | cons part parts ih =>
      have hhead := hparts part List.mem_cons_self
      have htail := ih fun p hp => hparts p (List.mem_cons_of_mem part hp)
      cases parts with
      | nil => simpa [List.intercalate] using hhead
      | cons next parts =>
        rw [List.intercalate_cons_cons, List.mem_append, List.mem_append, List.mem_singleton]
        rintro ((hmem | hmem) | hmem)
        · exact hhead hmem
        · exact hc hmem
        · exact htail hmem
  refine hnone (text.splitOn sep) (fun part hpart hmem => hno part ⟨hpart, hmem⟩) ?_
  rw [hjoin]
  exact h

theorem mapM_eq_none {α β : Type} {f : α → Option β} {xs : List α} {x : α} (hx : x ∈ xs)
    (hf : f x = none) : xs.mapM f = none := by
  induction xs with
  | nil => exact absurd hx List.not_mem_nil
  | cons y ys ih =>
    rw [List.mapM_cons]
    rcases List.mem_cons.mp hx with hxy | hx
    · rw [← hxy, hf]
      rfl
    · cases hy : f y with
      | none => rfl
      | some b =>
        rw [ih hx]
        rfl

theorem ipv4FromStr_colon {text : List UInt8} (h : colon ∈ text) : ipv4FromStr text = none := by
  cases exists_part h (show colon ≠ dot by decide) with
  | intro part hpart =>
    have hnone := octetFromStr_colon hpart.2
    unfold ipv4FromStr
    split
    · rename_i a b c d hparts
      rw [hparts] at hpart
      rcases List.mem_cons.mp hpart.1 with hp | hp
      · rw [← hp, hnone]
        rfl
      cases octetFromStr a with
      | none => rfl
      | some _ =>
        rcases List.mem_cons.mp hp with hp | hp
        · rw [← hp, hnone]
          rfl
        cases octetFromStr b with
        | none => rfl
        | some _ =>
          rcases List.mem_cons.mp hp with hp | hp
          · rw [← hp, hnone]
            rfl
          cases octetFromStr c with
          | none => rfl
          | some _ =>
            rw [← List.mem_singleton.mp hp, hnone]
            rfl
    · rfl

theorem parseIpv4LegacyText_colon {text : List UInt8} (h : colon ∈ text) :
    parseIpv4LegacyText text = none := by
  cases exists_part h (show colon ≠ dot by decide) with
  | intro part hpart =>
    unfold parseIpv4LegacyText
    rw [mapM_eq_none hpart.1 (parseIpv4LegacyComponent_colon hpart.2)]
    rfl

end Rlibc.Netdb
