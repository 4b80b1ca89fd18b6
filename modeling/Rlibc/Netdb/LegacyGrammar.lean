import Rlibc.Netdb.NumericText

/-!
# The legacy forms of an IPv4 address

The grammar of `inet_aton`, component by component, and the language that
`parse_ipv4_legacy_text` accepts.  The two differ by a sign: `u32::from_str_radix` passes over one
plus sign, and only the start of a component is checked for one, not the digits after `0x`.
-/

namespace Rlibc.Netdb

open ByteOrder

/-- A text of digits, and its number. -/
def DigitText (radix : Nat) (text : List UInt8) (number : Nat) : Prop :=
  text ≠ [] ∧ ∃ ds, List.Forall₂ (fun c d => toDigit radix c = some d) text ds ∧
    number = Numeral.value radix ds

/-- A component of the grammar, and its number. -/
inductive Component : List UInt8 → Nat → Prop
  | decimal {text : List UInt8} {number : Nat} (hdigits : DigitText 10 text number)
      (hlead : text.head? = some zeroDigit → text.length = 1) : Component text number
  | octal {text : List UInt8} {number : Nat} (hdigits : DigitText 8 text number) :
      Component (zeroDigit :: text) number
  | hex {x : UInt8} {text : List UInt8} {number : Nat} (hx : x = 120 ∨ x = 88)
      (hdigits : DigitText 16 text number) : Component (zeroDigit :: x :: text) number

/-- The address that one to four numbers denote: a byte for each but the last, which fills the
bytes that are left. -/
def Denotes (numbers : List Nat) (address : Nat) : Prop :=
  ∃ front last, numbers = front ++ [last] ∧ front.length ≤ 3 ∧ (∀ n ∈ front, n ≤ 255) ∧
    last < 256 ^ (4 - front.length) ∧
    address = Numeral.value 256 front * 256 ^ (4 - front.length) + last

/-- The texts of `inet_aton`, cut at their dots, and the address of each. -/
def InetAton (components : List (List UInt8)) (address : Nat) : Prop :=
  ∃ numbers, List.Forall₂ Component components numbers ∧ Denotes numbers address

/-- A component with a plus sign between its `0x` and its digits. -/
def hasHexSign : List UInt8 → Bool
  | zero :: x :: sign :: _ => zero = zeroDigit ∧ (x = 120 ∨ x = 88) ∧ sign = plusSign
  | _ => false

/-- The component without that sign. -/
def withoutHexSign (component : List UInt8) : List UInt8 :=
  if hasHexSign component then component.take 2 ++ component.drop 3 else component

/-! ## Digits -/

/-- The loop over the digits computes their number, as long as it stays within the limit. -/
theorem checkedDigits_iff {radix limit value number : Nat} {text : List UInt8} (hradix : 0 < radix)
    (hvalue : value ≤ limit) :
    checkedDigits radix limit value text = some number ↔
      ∃ ds, List.Forall₂ (fun c d => toDigit radix c = some d) text ds ∧
        number = ds.foldl (fun v d => v * radix + d) value ∧ number ≤ limit := by
  -- Induction on the text; the value read so far is what the loop carries.
  induction text generalizing value with
  | nil =>
    rw [checkedDigits, Option.some.injEq]
    constructor
    · rintro rfl
      exact ⟨[], .nil, rfl, hvalue⟩
    · rintro ⟨ds, hds, hnumber, -⟩
      cases hds
      exact hnumber.symm
  | cons c cs ih =>
    rw [checkedDigits]
    cases hdigit : toDigit radix c with
    | none =>
      refine iff_of_false (fun h => ?_) ?_
      · cases h
      · rintro ⟨ds, hds, -⟩
        cases hds with
        | cons hhead _ => cases hdigit.symm.trans hhead
    | some digit =>
      change (if value * radix + digit ≤ limit then _ else none) = _ ↔ _
      -- A value that is over the limit once stays over it, whatever digits follow.
      by_cases hle : value * radix + digit ≤ limit
      · rw [if_pos hle, ih hle]
        constructor
        · rintro ⟨ds, hds, hnumber⟩
          exact ⟨digit :: ds, .cons hdigit hds, hnumber⟩
        · rintro ⟨ds, hds, hnumber⟩
          cases hds with
          | cons hhead htail =>
            cases hdigit.symm.trans hhead
            exact ⟨_, htail, hnumber⟩
      · rw [if_neg hle]
        refine iff_of_false (fun h => ?_) ?_
        · cases h
        · rintro ⟨ds, hds, hnumber, hlimit⟩
          cases hds with
          | @cons _ _ _ ds hhead htail =>
            cases hdigit.symm.trans hhead
            rw [List.foldl_cons] at hnumber
            have hgrow := Numeral.le_foldl hradix ds (value * radix + digit)
            omega

theorem plusSign_not_digit (radix : Nat) : toDigit radix plusSign = none := rfl

/-- The first byte of a text of digits is no sign. -/
theorem DigitText.head_ne {radix number : Nat} {text : List UInt8}
    (h : DigitText radix text number) : text.head? ≠ some plusSign := by
  obtain ⟨-, ds, hds, -⟩ := h
  cases hds with
  | nil => simp
  | cons hhead _ =>
    intro hc
    rw [Option.some.inj hc, plusSign_not_digit] at hhead
    cases hhead

/-- `u32::from_str_radix` reads what follows one plus sign. -/
theorem u32FromStrRadix_iff {radix number : Nat} {text : List UInt8} (hradix : 0 < radix) :
    u32FromStrRadix text radix = some number ↔
      DigitText radix (if text.head? = some plusSign then text.tail else text) number ∧
        number ≤ 0xffffffff := by
  unfold u32FromStrRadix DigitText
  dsimp only
  generalize (if text.head? = some plusSign then text.tail else text) = digits
  by_cases hempty : digits = []
  · rw [if_pos hempty]
    exact iff_of_false (fun h => by cases h) (fun h => h.1.1 hempty)
  · rw [if_neg hempty, checkedDigits_iff hradix (Nat.zero_le _)]
    constructor
    · rintro ⟨ds, hds, hnumber, hlimit⟩
      exact ⟨⟨hempty, ds, hds, hnumber⟩, hlimit⟩
    · rintro ⟨⟨-, ds, hds, hnumber⟩, hlimit⟩
      exact ⟨ds, hds, hnumber, hlimit⟩

/-! ## Components -/

theorem DigitText.cons_zero {radix number : Nat} {text : List UInt8} (hradix : 0 < radix)
    (hne : text ≠ []) :
    DigitText radix (zeroDigit :: text) number ↔ DigitText radix text number := by
  have hzero : toDigit radix zeroDigit = some 0 := by
    change (some 0 : Option Nat).filter (· < radix) = some 0
    exact Option.filter_some_pos (decide_eq_true hradix)
  constructor
  · rintro ⟨-, ds, hds, hnumber⟩
    cases hds with
    | cons hhead htail =>
      cases hzero.symm.trans hhead
      refine ⟨hne, _, htail, ?_⟩
      rw [hnumber]
      unfold Numeral.value
      rw [List.foldl_cons, Nat.zero_mul]
  · rintro ⟨-, ds, hds, hnumber⟩
    refine ⟨List.cons_ne_nil _ _, 0 :: ds, .cons hzero hds, ?_⟩
    rw [hnumber]
    unfold Numeral.value
    rw [List.foldl_cons, Nat.zero_mul]

theorem DigitText.head_digit {radix number : Nat} {c : UInt8} {text : List UInt8}
    (h : DigitText radix (c :: text) number) : toDigit radix c ≠ none := by
  obtain ⟨-, ds, hds, -⟩ := h
  cases hds with
  | cons hhead _ =>
    rw [hhead]
    exact Option.some_ne_none _

/-- After `0x` only the hexadecimal form is left. -/
theorem component_hex {x : UInt8} {text : List UInt8} {number : Nat} (hx : x = 120 ∨ x = 88) :
    Component (zeroDigit :: x :: text) number ↔ DigitText 16 text number := by
  have hdigit : toDigit 10 x = none ∧ toDigit 8 x = none := by
    rcases hx with rfl | rfl <;> decide
  constructor
  · intro h
    cases h with
    | decimal _ hlead => exact absurd (hlead rfl) (by simp)
    | octal hdigits => exact absurd hdigit.2 hdigits.head_digit
    | hex _ hdigits => exact hdigits
  · exact .hex hx

/-- After another leading zero only the octal form is left. -/
theorem component_octal {text : List UInt8} {number : Nat} (hne : text ≠ [])
    (hhex : stripHexPrefix (zeroDigit :: text) = none) :
    Component (zeroDigit :: text) number ↔ DigitText 8 text number := by
  constructor
  · intro h
    cases h with
    | decimal _ hlead =>
      have hlength := hlead rfl
      rw [List.length_cons, Nat.add_eq_right, List.length_eq_zero_iff] at hlength
      exact absurd hlength hne
    | octal hdigits => exact hdigits
    | hex hx =>
      rw [stripHexPrefix, if_pos ⟨rfl, hx⟩] at hhex
      cases hhex
  · exact .octal

theorem component_decimal {text : List UInt8} {number : Nat}
    (h : text.head? = some zeroDigit → text.length = 1) :
    Component text number ↔ DigitText 10 text number := by
  constructor
  · intro hcomponent
    cases hcomponent with
    | decimal hdigits => exact hdigits
    | octal hdigits =>
      have hlength := h rfl
      rw [List.length_cons, Nat.add_eq_right, List.length_eq_zero_iff] at hlength
      exact absurd hlength hdigits.1
    | hex =>
      have hlength := h rfl
      rw [List.length_cons, List.length_cons] at hlength
      omega
  · exact fun hdigits => .decimal hdigits h

theorem withoutHexSign_hex {x : UInt8} (hx : x = 120 ∨ x = 88) (rest : List UInt8) :
    withoutHexSign (zeroDigit :: x :: rest) =
      zeroDigit :: x :: (if rest.head? = some plusSign then rest.tail else rest) := by
  unfold withoutHexSign
  cases rest with
  | nil => rfl
  | cons sign rest =>
    rw [List.head?_cons]
    by_cases hsign : sign = plusSign
    · have hhex : hasHexSign (zeroDigit :: x :: sign :: rest) = true :=
        decide_eq_true ⟨rfl, hx, hsign⟩
      rw [if_pos hhex, if_pos (congrArg some hsign)]
      rfl
    · have hhex : ¬hasHexSign (zeroDigit :: x :: sign :: rest) = true := fun h =>
        hsign (of_decide_eq_true h).2.2
      rw [if_neg hhex, if_neg (fun h => hsign (Option.some.inj h))]

theorem stripHexPrefix_some {component rest : List UInt8}
    (h : stripHexPrefix component = some rest) :
    ∃ x, (x = 120 ∨ x = 88) ∧ component = zeroDigit :: x :: rest := by
  unfold stripHexPrefix at h
  split at h
  · rename_i zero x rest'
    split at h
    · rename_i hzero
      cases h
      exact ⟨x, hzero.2, by rw [hzero.1]⟩
    · cases h
  · cases h

theorem withoutHexSign_of_not_hex {component : List UInt8} (h : stripHexPrefix component = none) :
    withoutHexSign component = component := by
  unfold withoutHexSign
  rw [if_neg]
  intro hsign
  unfold hasHexSign at hsign
  split at hsign
  · rename_i zero x sign rest
    have hhex := of_decide_eq_true hsign
    rw [stripHexPrefix, if_pos ⟨hhex.1, hhex.2.1⟩] at h
    cases h
  · cases hsign

/-- A component of the source is a component of the grammar once a sign behind `0x` is gone. -/
theorem parseIpv4LegacyComponent_iff {component : List UInt8} {number : Nat} :
    parseIpv4LegacyComponent component = some number ↔
      Component (withoutHexSign component) number ∧ number ≤ 0xffffffff := by
  unfold parseIpv4LegacyComponent
  -- The base is fixed by the first characters: `0x`, then a leading zero, then decimal.
  cases hstrip : stripHexPrefix component with
  | some rest =>
    obtain ⟨x, hx, rfl⟩ := stripHexPrefix_some hstrip
    rw [if_neg (by simp; decide), withoutHexSign_hex hx, component_hex hx]
    dsimp only
    by_cases hrest : rest = []
    · rw [if_pos hrest, hrest]
      exact iff_of_false (fun h => by cases h) (fun h => h.1.1 rfl)
    · rw [if_neg hrest, u32FromStrRadix_iff (by decide)]
  | none =>
    rw [withoutHexSign_of_not_hex hstrip]
    dsimp only
    -- `u32::from_str_radix` would take a plus sign, so the function turns it away before.
    by_cases hbad : component = [] ∨ component.head? = some plusSign
    · rw [if_pos hbad]
      refine iff_of_false (fun h => by cases h) ?_
      rintro ⟨hcomponent, -⟩
      cases hcomponent with
      | decimal hdigits => exact hbad.elim hdigits.1 hdigits.head_ne
      | octal => exact absurd hbad (by simp; decide)
      | hex => exact absurd hbad (by simp; decide)
    rw [if_neg hbad]
    have hplus : component.head? ≠ some plusSign := fun h => hbad (Or.inr h)
    -- A lone zero is decimal; only a zero with something behind it is octal.
    by_cases hoctal : 1 < component.length ∧ component.head? = some zeroDigit
    · obtain ⟨text, rfl⟩ := List.head?_eq_some_iff.mp hoctal.2
      have hne : text ≠ [] := by
        rintro rfl
        exact absurd hoctal.1 (by simp)
      rw [if_pos hoctal, u32FromStrRadix_iff (by decide), if_neg hplus, component_octal hne hstrip,
        DigitText.cons_zero (by decide) hne]
    · have hdecimal : component.head? = some zeroDigit → component.length = 1 := by
        intro hzero
        have hlength := List.length_pos_of_ne_nil (fun h => hbad (Or.inl h))
        by_contra hne
        exact hoctal ⟨by omega, hzero⟩
      rw [if_neg hoctal, u32FromStrRadix_iff (by decide), if_neg hplus,
        component_decimal hdecimal]

/-! ## Addresses -/

/-- The numbers of the components, one by one. -/
theorem mapM_iff {α β : Type} {f : α → Option β} {xs : List α} {ys : List β} :
    xs.mapM f = some ys ↔ List.Forall₂ (fun x y => f x = some y) xs ys := by
  induction xs generalizing ys with
  | nil =>
    rw [List.mapM_nil]
    constructor
    · intro h
      cases h
      exact .nil
    · intro h
      cases h
      rfl
  | cons x xs ih =>
    rw [List.mapM_cons]
    constructor
    · intro h
      obtain ⟨y, hy, h⟩ := Option.bind_eq_some_iff.mp h
      obtain ⟨ys', hys, h⟩ := Option.bind_eq_some_iff.mp h
      cases h
      exact .cons hy (ih.mp hys)
    · intro h
      cases h with
      | cons hy hys =>
        rw [hy, ih.mpr hys]
        rfl

theorem denotes_concat (front : List Nat) (last address : Nat) :
    Denotes (front ++ [last]) address ↔
      front.length ≤ 3 ∧ (∀ n ∈ front, n ≤ 255) ∧ last < 256 ^ (4 - front.length) ∧
        address = Numeral.value 256 front * 256 ^ (4 - front.length) + last := by
  constructor
  · rintro ⟨front', last', heq, h⟩
    have hparts := List.append_inj' heq rfl
    cases hparts.1
    cases hparts.2
    exact h
  · exact fun h => ⟨front, last, rfl, h⟩

/-- A shifted number and one that fits below it. -/
theorem shiftLeft_or {a b k : Nat} (hb : b < 2 ^ k) : a <<< k ||| b = a * 2 ^ k + b := by
  rw [← Nat.shiftLeft_add_eq_or_of_lt hb, Nat.shiftLeft_eq]

theorem legacyAddress_iff {numbers : List Nat} (hnumbers : ∀ n ∈ numbers, n ≤ 0xffffffff)
    {address : Nat} : legacyAddress numbers = some address ↔ Denotes numbers address := by
  unfold legacyAddress
  -- One to four numbers; the last one fills the bytes that the others leave.
  split
  · rename_i a
    have ha := hnumbers a List.mem_cons_self
    rw [Option.some.injEq, show [a] = [] ++ [a] from rfl, denotes_concat]
    simp only [List.length_nil, List.not_mem_nil, Numeral.value_nil, IsEmpty.forall_iff,
      implies_true, true_and]
    omega
  · rename_i a b
    rw [show [a, b] = [a] ++ [b] from rfl, denotes_concat]
    simp only [List.length_singleton, List.mem_singleton, forall_eq, Numeral.value,
      List.foldl_cons, List.foldl_nil]
    split
    · exact iff_of_false (fun h => by cases h) (fun h => by omega)
    · rw [Option.some.injEq, shiftLeft_or (by omega)]
      omega
  · rename_i a b c
    rw [show [a, b, c] = [a, b] ++ [c] from rfl, denotes_concat]
    simp only [List.length_cons, List.length_nil, List.forall_mem_cons, List.not_mem_nil,
      IsEmpty.forall_iff, implies_true, and_true, Numeral.value, List.foldl_cons, List.foldl_nil]
    split
    · exact iff_of_false (fun h => by cases h) (fun h => by omega)
    · rw [Option.some.injEq, Nat.or_assoc, shiftLeft_or (k := 16) (by omega),
        shiftLeft_or (by omega)]
      omega
  · rename_i a b c d
    rw [show [a, b, c, d] = [a, b, c] ++ [d] from rfl, denotes_concat]
    simp only [List.length_cons, List.length_nil, List.forall_mem_cons, List.not_mem_nil,
      IsEmpty.forall_iff, implies_true, and_true, Numeral.value, List.foldl_cons, List.foldl_nil]
    split
    · exact iff_of_false (fun h => by cases h) (fun h => by omega)
    · rw [Option.some.injEq, Nat.or_assoc, Nat.or_assoc, shiftLeft_or (k := 8) (by omega),
        shiftLeft_or (k := 16) (by omega), shiftLeft_or (by omega)]
      omega
  -- No other length is an address.
  · rename_i h1 h2 h3 h4
    refine iff_of_false (fun h => by cases h) ?_
    rintro ⟨front, last, rfl, hlength, -⟩
    rcases front with _ | ⟨a, _ | ⟨b, _ | ⟨c, _ | ⟨d, rest⟩⟩⟩⟩
    · exact h1 last rfl
    · exact h2 a last rfl
    · exact h3 a b last rfl
    · exact h4 a b c last rfl
    · simp only [List.length_cons] at hlength
      omega

/-- The numbers of an address fit in a `u32`. -/
theorem Denotes.number_le {numbers : List Nat} {address : Nat} (h : Denotes numbers address) :
    ∀ n ∈ numbers, n ≤ 0xffffffff := by
  obtain ⟨front, last, rfl, hlength, hfront, hlast, -⟩ := h
  intro n hn
  rcases List.mem_append.mp hn with hn | hn
  · have hbyte := hfront n hn
    omega
  · rw [List.mem_singleton.mp hn]
    have hpow : 256 ^ (4 - front.length) ≤ 256 ^ 4 :=
      Nat.pow_le_pow_right (by decide) (Nat.sub_le 4 front.length)
    omega

/-- The numbers that the source reads from the components. -/
theorem legacyComponents_iff {components : List (List UInt8)} {numbers : List Nat} :
    components.mapM parseIpv4LegacyComponent = some numbers ↔
      List.Forall₂ Component (components.map withoutHexSign) numbers ∧
        ∀ n ∈ numbers, n ≤ 0xffffffff := by
  rw [mapM_iff, List.forall₂_map_left_iff]
  constructor
  · intro h
    induction h with
    | nil => exact ⟨.nil, fun n hn => absurd hn List.not_mem_nil⟩
    | cons hhead _ ih =>
      have hcomponent := parseIpv4LegacyComponent_iff.mp hhead
      exact ⟨.cons hcomponent.1 ih.1, List.forall_mem_cons.mpr ⟨hcomponent.2, ih.2⟩⟩
  · rintro ⟨h, hfit⟩
    induction h with
    | nil => exact .nil
    | cons hhead _ ih =>
      have hnumbers := List.forall_mem_cons.mp hfit
      exact .cons (parseIpv4LegacyComponent_iff.mpr ⟨hhead, hnumbers.1⟩) (ih hnumbers.2)

/-- The language of `parse_ipv4_legacy_text`: the grammar, with one sign more. -/
theorem parseIpv4LegacyText_iff (text : List UInt8) (octets : Ipv4Octets) :
    parseIpv4LegacyText text = some octets ↔
      ∃ address, InetAton ((text.splitOn dot).map withoutHexSign) address ∧
        octets = toBeBytes address := by
  unfold parseIpv4LegacyText InetAton
  constructor
  · intro h
    obtain ⟨numbers, hnumbers, h⟩ := Option.bind_eq_some_iff.mp h
    obtain ⟨address, haddress, h⟩ := Option.bind_eq_some_iff.mp h
    have hparts := legacyComponents_iff.mp hnumbers
    cases h
    exact ⟨address, ⟨numbers, hparts.1, (legacyAddress_iff hparts.2).mp haddress⟩, rfl⟩
  · rintro ⟨address, ⟨numbers, hparts, hdenotes⟩, rfl⟩
    rw [legacyComponents_iff.mpr ⟨hparts, hdenotes.number_le⟩]
    change (legacyAddress numbers).bind _ = _
    rw [(legacyAddress_iff hdenotes.number_le).mpr hdenotes]
    rfl

/-- No component of the grammar has a sign. -/
theorem Component.not_hexSign {component : List UInt8} {number : Nat}
    (h : Component component number) : hasHexSign component = false := by
  rw [Bool.eq_false_iff]
  intro hsign
  unfold hasHexSign at hsign
  split at hsign
  · rename_i zero x sign rest
    obtain ⟨hzero, hx, hplus⟩ := of_decide_eq_true hsign
    rw [hzero, hplus, component_hex hx] at h
    exact h.head_ne rfl
  · cases hsign

theorem InetAton.not_hexSign {components : List (List UInt8)} {address : Nat}
    (h : InetAton components address) : ∀ component ∈ components, hasHexSign component = false := by
  obtain ⟨numbers, hparts, -⟩ := h
  induction hparts with
  | nil => exact fun component hmem => absurd hmem List.not_mem_nil
  | cons hhead _ ih => exact List.forall_mem_cons.mpr ⟨hhead.not_hexSign, ih⟩

/-- `parse_ipv4_legacy_text` computes the address of the grammar on every text but those that the
grammar would accept without a sign behind a `0x`. -/
theorem parseIpv4LegacyText_grammar (text : List UInt8) :
    (∀ octets, parseIpv4LegacyText text = some octets ↔
        ∃ address, InetAton (text.splitOn dot) address ∧ octets = toBeBytes address) ↔
      ¬((∃ component ∈ text.splitOn dot, hasHexSign component = true) ∧
        ∃ address, InetAton ((text.splitOn dot).map withoutHexSign) address) := by
  constructor
  · rintro h ⟨⟨component, hmem, hsign⟩, address, haddress⟩
    have hparse := (parseIpv4LegacyText_iff text (toBeBytes address)).mpr ⟨address, haddress, rfl⟩
    obtain ⟨address', haddress', -⟩ := (h _).mp hparse
    rw [haddress'.not_hexSign component hmem] at hsign
    cases hsign
  · intro hno octets
    rw [parseIpv4LegacyText_iff]
    by_cases hsigned : ∃ component ∈ text.splitOn dot, hasHexSign component = true
    · -- A signed component is not of the grammar, and without its sign the text is not either.
      refine iff_of_false ?_ ?_
      · rintro ⟨address, haddress, -⟩
        exact hno ⟨hsigned, address, haddress⟩
      · rintro ⟨address, haddress, -⟩
        obtain ⟨component, hmem, hsign⟩ := hsigned
        rw [haddress.not_hexSign component hmem] at hsign
        cases hsign
    · have hsame : (text.splitOn dot).map withoutHexSign = text.splitOn dot := by
        have hid : ∀ component ∈ text.splitOn dot, withoutHexSign component = component := by
          intro component hmem
          unfold withoutHexSign
          rw [if_neg (fun hsign => hsigned ⟨component, hmem, hsign⟩)]
        exact (List.map_congr_left hid).trans (List.map_id _)
      rw [hsame]

/-- `0x+10` is no text of the grammar, and `parse_ipv4_legacy_text` takes it for 0.0.0.16. -/
theorem parseIpv4LegacyText_accepts_sign :
    parseIpv4LegacyText [48, 120, 43, 49, 48] = some #v[0, 0, 0, 16] ∧
      ¬∃ address, InetAton ([48, 120, 43, 49, 48].splitOn dot) address := by
  refine ⟨by decide +kernel, ?_⟩
  rintro ⟨address, haddress⟩
  have hsign := haddress.not_hexSign [48, 120, 43, 49, 48] (by decide)
  cases hsign

end Rlibc.Netdb
