import Rlibc.Foundations.Intervals
import Rlibc.Foundations.Numeral
import Rlibc.Foundations.Text
import Rlibc.Machine

/-!
# Lists of processors

`/sys/devices/system/cpu/possible` and its siblings list processors as ranges, `0-3,8,10-11`.
`parse_cpu_range_list` counts the processors of such a list.
-/

namespace Rlibc.System

open Intervals Text

/-- `u8::is_ascii_digit`; no byte of a longer character is one. -/
def isAsciiDigit (c : Char) : Bool := 48 ≤ c.toNat ∧ c.toNat ≤ 57

/-- The loop of `str::parse::<usize>()` over the digits. -/
def parseDigits : Nat → List Char → Option Nat
  | value, [] => some value
  | value, c :: cs =>
    if isAsciiDigit c then
      (checkedMul value 10).bind fun shifted =>
        (checkedAdd shifted (c.toNat - 48)).bind fun next => parseDigits next cs
    else none

/-- `token.parse::<usize>().ok()`. -/
def parseUsize (token : List Char) : Option Nat :=
  let digits := if token.head? = some '+' then token.tail else token
  if digits = [] then none else parseDigits 0 digits

def parseCpuIndex (token : List Char) : Option Nat :=
  if token = [] ∨ ¬ token.all isAsciiDigit then none else parseUsize token

/-- The bounds of one token. -/
def parseCpuToken (token : List Char) : Option (Nat × Nat) :=
  match splitOnce '-' token with
  | some (startText, endText) =>
    (parseCpuIndex startText).bind fun start =>
      (parseCpuIndex endText).bind fun last => if last < start then none else some (start, last)
  | none => (parseCpuIndex token).map fun value => (value, value)

/-- The loop of `parse_cpu_range_list` over the tokens that are left. -/
def parseCpuTokens (total nextMinCpu : Nat) (parsedAny : Bool) : List (List Char) → Option Nat
  | [] => some total
  | rawToken :: tokens =>
    let token := trim rawToken
    if token = [] then none
    else
      (parseCpuToken token).bind fun bounds =>
        if parsedAny ∧ bounds.1 < nextMinCpu then none
        else
          (checkedSub bounds.2 bounds.1).bind fun difference =>
            (checkedAdd difference 1).bind fun tokenCount =>
              (checkedAdd total tokenCount).bind fun total =>
                -- `tokens.peek()`: the bound matters only to another token.
                (if tokens = [] then some nextMinCpu else checkedAdd bounds.2 1).bind
                  fun nextMinCpu => parseCpuTokens total nextMinCpu true tokens

def parseCpuRangeList (input : List Char) : Option Nat :=
  parseCpuTokens 0 0 false ((trim input).splitOn ',')

/-! ## The grammar -/

/-- The number that digits denote. -/
def numeralValue (digits : List Char) : Nat := Numeral.value 10 (digits.map fun c => c.toNat - 48)

/-- A run of ASCII digits. -/
def IsNumeral (digits : List Char) : Prop := digits ≠ [] ∧ ∀ c ∈ digits, isAsciiDigit c = true

/-- A token is a numeral, or two numerals joined by a hyphen, and denotes an interval. -/
inductive CpuToken : List Char → Interval → Prop
  | index {digits : List Char} (hdigits : IsNumeral digits) :
      CpuToken digits ⟨numeralValue digits, numeralValue digits, Nat.le_refl _⟩
  | range {start last : List Char} (hstart : IsNumeral start) (hlast : IsNumeral last)
      (hle : numeralValue start ≤ numeralValue last) :
      CpuToken (start ++ '-' :: last) ⟨numeralValue start, numeralValue last, hle⟩

/-- A token with white space around it. -/
def PaddedToken (raw : List Char) (iv : Interval) : Prop :=
  ∃ before token after, Blank before ∧ Blank after ∧ raw = before ++ token ++ after ∧
    CpuToken token iv

/-- A list of tokens between commas. -/
def CpuList (text : List Char) (ivs : List Interval) : Prop :=
  ∃ raws, raws ≠ [] ∧ text = [','].intercalate raws ∧ List.Forall₂ PaddedToken raws ivs

/-! ## Numerals -/

theorem parseDigits_eq_some {digits : List Char} {value n : Nat} (hvalue : value ≤ usizeMax) :
    parseDigits value digits = some n ↔ (∀ c ∈ digits, isAsciiDigit c = true) ∧
      n = (digits.map fun c => c.toNat - 48).foldl (fun v d => v * 10 + d) value ∧
        n ≤ usizeMax := by
  induction digits generalizing value with
  | nil =>
    rw [parseDigits, Option.some.injEq]
    constructor
    · intro h
      exact ⟨fun c hc => absurd hc List.not_mem_nil, h.symm, by omega⟩
    · exact fun h => h.2.1.symm
  | cons c cs ih =>
    rw [parseDigits, List.map_cons, List.foldl_cons, List.forall_mem_cons]
    split
    · rename_i hc
      simp only [Option.bind_eq_some_iff, checkedMul_eq_some, checkedAdd_eq_some, hc, true_and]
      have hgrow := Numeral.le_foldl (show 0 < 10 by decide) (cs.map fun c => c.toNat - 48)
        (value * 10 + (c.toNat - 48))
      constructor
      · rintro ⟨shifted, hshifted, next, hnext, hrest⟩
        rw [hshifted.1] at hnext
        rw [hnext.1] at hrest
        exact (ih (by omega)).mp hrest
      · rintro ⟨hdigits, hn, hle⟩
        exact ⟨_, ⟨rfl, by omega⟩, _, ⟨rfl, by omega⟩, (ih (by omega)).mpr ⟨hdigits, hn, hle⟩⟩
    · rename_i hc
      constructor
      · intro h
        cases h
      · exact fun h => absurd h.1.1 hc

theorem parseCpuIndex_eq_some {token : List Char} {n : Nat} :
    parseCpuIndex token = some n ↔ IsNumeral token ∧ n = numeralValue token ∧ n ≤ usizeMax := by
  unfold parseCpuIndex IsNumeral
  split
  · rename_i hbad
    constructor
    · intro h
      cases h
    · rintro ⟨⟨hne, hdigits⟩, -⟩
      rcases hbad with hnil | hall
      · exact absurd hnil hne
      · exact absurd (List.all_eq_true.mpr hdigits) hall
  · rename_i hgood
    rw [not_or, not_not, List.all_eq_true] at hgood
    have hplus : token.head? ≠ some '+' := by
      intro h
      have hdigit := hgood.2 '+' (List.mem_of_head? h)
      exact absurd hdigit (by decide)
    unfold parseUsize
    rw [if_neg hplus, if_neg hgood.1, parseDigits_eq_some (Nat.zero_le usizeMax)]
    exact and_congr_left fun _ => ⟨fun h => ⟨hgood.1, h⟩, fun h => h.2⟩

theorem hyphen_notMem {digits : List Char} (h : IsNumeral digits) : '-' ∉ digits :=
  fun hmem => absurd (h.2 '-' hmem) (by decide)

/-! ## Tokens -/

theorem parseCpuToken_eq_some {token : List Char} {start last : Nat} :
    parseCpuToken token = some (start, last) ↔
      ∃ iv, CpuToken token iv ∧ iv.first = start ∧ iv.last = last ∧ last ≤ usizeMax := by
  unfold parseCpuToken
  constructor
  · intro h
    split at h
    · rename_i startText endText hsplit
      rw [splitOnce_eq_some] at hsplit
      simp only [Option.bind_eq_some_iff, parseCpuIndex_eq_some] at h
      rcases h with ⟨s, hs, e, he, hpair⟩
      split at hpair
      · cases hpair
      · rename_i hle
        rw [Option.some.injEq, Prod.mk.injEq] at hpair
        rw [hsplit.1]
        exact ⟨_, .range hs.1 he.1 (by omega), hs.2.1.symm.trans hpair.1, he.2.1.symm.trans hpair.2,
          by omega⟩
    · simp only [Option.map_eq_some_iff, parseCpuIndex_eq_some, Prod.mk.injEq] at h
      rcases h with ⟨value, hvalue, hpair⟩
      exact ⟨_, .index hvalue.1, hvalue.2.1.symm.trans hpair.1, hvalue.2.1.symm.trans hpair.2,
        by omega⟩
  · rintro ⟨iv, htoken, hfirst, hlast, hbound⟩
    cases htoken with
    | index hdigits =>
      change numeralValue token = last at hlast
      have hread := parseCpuIndex_eq_some.mpr ⟨hdigits, rfl, show numeralValue token ≤ _ by omega⟩
      rw [splitOnce_eq_none.mpr (hyphen_notMem hdigits)]
      dsimp only
      rw [hread, Option.map_some]
      exact congrArg some (Prod.ext hfirst hlast)
    | @range startText endText hstart hend hle =>
      change numeralValue endText = last at hlast
      have hread := parseCpuIndex_eq_some.mpr ⟨hstart, rfl, show numeralValue startText ≤ _ by omega⟩
      have hread' := parseCpuIndex_eq_some.mpr ⟨hend, rfl, show numeralValue endText ≤ _ by omega⟩
      rw [splitOnce_eq_some.mpr ⟨rfl, hyphen_notMem hstart⟩]
      dsimp only
      rw [hread, Option.bind_some, hread', Option.bind_some, if_neg (by omega)]
      exact congrArg some (Prod.ext hfirst hlast)

/-- A token is neither empty nor does it have white space or commas. -/
theorem CpuToken.chars {token : List Char} {iv : Interval} (h : CpuToken token iv) :
    token ≠ [] ∧ Solid token ∧ ',' ∉ token := by
  have hdigit : ∀ c, isAsciiDigit c = true → isWhitespace c = false ∧ c ≠ ',' := by
    intro c hc
    have hbounds := of_decide_eq_true hc
    constructor
    · apply decide_eq_false
      omega
    · intro hcomma
      rw [hcomma] at hc
      exact absurd hc (by decide)
  cases h with
  | index hdigits =>
    exact ⟨hdigits.1, fun c hc => (hdigit c (hdigits.2 c hc)).1,
      fun hmem => (hdigit _ (hdigits.2 _ hmem)).2 rfl⟩
  | range hstart hlast hle =>
    refine ⟨by simp, ?_, ?_⟩
    · intro c hc
      rw [List.mem_append, List.mem_cons] at hc
      rcases hc with hc | hc | hc
      · exact (hdigit c (hstart.2 c hc)).1
      · rw [hc]
        decide
      · exact (hdigit c (hlast.2 c hc)).1
    · intro hmem
      rw [List.mem_append, List.mem_cons] at hmem
      rcases hmem with hc | hc | hc
      · exact (hdigit _ (hstart.2 _ hc)).2 rfl
      · exact absurd hc (by decide)
      · exact (hdigit _ (hlast.2 _ hc)).2 rfl

/-- The pads are what is trimmed. -/
theorem paddedToken_iff {raw : List Char} {iv : Interval} :
    PaddedToken raw iv ↔ CpuToken (trim raw) iv := by
  constructor
  · rintro ⟨before, token, after, hbefore, hafter, hraw, htoken⟩
    rw [hraw, trim_of_append_blank hafter, trim_append_of_blank hbefore, htoken.chars.2.1.trim_eq]
    exact htoken
  · intro htoken
    rcases exists_pads raw with ⟨before, after, hbefore, hafter, hraw⟩
    exact ⟨before, trim raw, after, hbefore, hafter, hraw, htoken⟩

/-- A padded token has no comma. -/
theorem PaddedToken.comma_notMem {raw : List Char} {iv : Interval} (h : PaddedToken raw iv) :
    ',' ∉ raw := by
  rcases h with ⟨before, token, after, hbefore, hafter, hraw, htoken⟩
  have hblank : ∀ pad, Blank pad → ',' ∉ pad := fun pad hpad hmem =>
    absurd (hpad ',' hmem) (by decide)
  rw [hraw, List.mem_append, List.mem_append]
  rintro ((hmem | hmem) | hmem)
  · exact hblank before hbefore hmem
  · exact htoken.chars.2.2 hmem
  · exact hblank after hafter hmem

/-! ## The list -/

/-- The bound that the loop carries is respected by the next interval. -/
def Admits (nextMinCpu : Nat) (parsedAny : Bool) (ivs : List Interval) : Prop :=
  parsedAny = true → ∀ iv ∈ ivs.head?, nextMinCpu ≤ iv.first

/-- **The loop.**  From any state it accepts the tokens that denote ascending intervals above the
bound, and adds their lengths to the total. -/
theorem parseCpuTokens_eq_some {raws : List (List Char)} {total nextMinCpu n : Nat}
    {parsedAny : Bool} (htotal : total ≤ usizeMax) :
    parseCpuTokens total nextMinCpu parsedAny raws = some n ↔
      ∃ ivs, List.Forall₂ PaddedToken raws ivs ∧ Ascending ivs ∧ Admits nextMinCpu parsedAny ivs ∧
        (∀ iv ∈ ivs, iv.last ≤ usizeMax) ∧ n = total + totalLength ivs ∧ n ≤ usizeMax := by
  -- Induction on the tokens; the bound is one past the last interval when a token follows.
  induction raws generalizing total nextMinCpu parsedAny with
  | nil =>
    rw [parseCpuTokens, Option.some.injEq]
    constructor
    · intro h
      refine ⟨[], .nil, List.isChain_nil, fun _ iv hiv => ?_, fun iv hiv => ?_, h.symm, h ▸ htotal⟩
      · cases hiv
      · exact absurd hiv List.not_mem_nil
    · rintro ⟨ivs, htokens, -, -, -, hn, -⟩
      cases htokens
      exact hn.symm
  | cons raw raws ih =>
    rw [parseCpuTokens]
    constructor
    · intro h
      split at h
      · cases h
      · simp only [Option.bind_eq_some_iff] at h
        rcases h with ⟨bounds, hbounds, h⟩
        split at h
        · cases h
        · rename_i hadmits
          simp only [Option.bind_eq_some_iff, checkedSub_eq_some, checkedAdd_eq_some] at h
          rcases h with ⟨difference, hdifference, tokenCount, hcount, total', htotal', next, hnext,
            hrest⟩
          rcases parseCpuToken_eq_some.mp hbounds with ⟨iv, htoken, hfirst, hlast, hlimit⟩
          rcases (ih (by omega)).mp hrest with ⟨ivs, htokens, hascending, hbound, hends, hn, hle⟩
          have hlength : iv.length = tokenCount := by
            unfold Intervals.Interval.length
            omega
          refine ⟨iv :: ivs, .cons (paddedToken_iff.mpr htoken) htokens, ?_, ?_, ?_, ?_, hle⟩
          · -- The next interval starts above this one.
            cases htokens with
            | nil => exact List.isChain_singleton iv
            | @cons raw' iv' raws' ivs' _ _ =>
              rw [if_neg (List.cons_ne_nil _ _), checkedAdd_eq_some] at hnext
              have habove := hbound rfl iv' rfl
              exact List.isChain_cons_cons.mpr ⟨by omega, hascending⟩
          · intro hany iv' hiv'
            cases hiv'
            have hnot : ¬ bounds.1 < nextMinCpu := fun hlt => hadmits ⟨hany, hlt⟩
            omega
          · exact List.forall_mem_cons.mpr ⟨by omega, hends⟩
          · rw [totalLength]
            omega
    · rintro ⟨ivs, htokens, hascending, hadmits, hends, hn, hle⟩
      cases htokens with
      | @cons _ iv _ ivs htoken htokens =>
        have htoken := paddedToken_iff.mp htoken
        have hbounds := parseCpuToken_eq_some.mpr
          ⟨iv, htoken, rfl, rfl, hends iv List.mem_cons_self⟩
        have hfirst := iv.first_le
        have hlast := hends iv List.mem_cons_self
        have hlength : iv.length = iv.last - iv.first + 1 := rfl
        rw [totalLength] at hn
        rw [if_neg htoken.chars.1, hbounds, Option.bind_some]
        have hadmitted : ¬ (parsedAny = true ∧ iv.first < nextMinCpu) := by
          intro h
          have hbound := hadmits h.1 iv rfl
          omega
        rw [if_neg hadmitted]
        simp only [Option.bind_eq_some_iff, checkedSub_eq_some, checkedAdd_eq_some]
        have hends' : ∀ iv' ∈ ivs, iv'.last ≤ usizeMax :=
          fun iv' hiv' => hends iv' (List.mem_cons_of_mem iv hiv')
        refine ⟨_, ⟨rfl, hfirst⟩, _, ⟨rfl, by omega⟩, _, ⟨rfl, by omega⟩, ?_⟩
        cases htokens with
        | nil =>
          refine ⟨nextMinCpu, if_pos rfl, ?_⟩
          rw [parseCpuTokens, Option.some.injEq]
          change n = total + (iv.length + 0) at hn
          omega
        | @cons raw' iv' raws' ivs' htoken' htokens' =>
          -- The next interval lies above this one and is in range, so its bound is too.
          have habove : iv.last < iv'.first := (List.isChain_cons_cons.mp hascending).1
          have hfirst' := iv'.first_le
          have hlast' := hends' iv' List.mem_cons_self
          refine ⟨iv.last + 1, ?_, ?_⟩
          · rw [if_neg (List.cons_ne_nil _ _), checkedAdd_eq_some]
            exact ⟨rfl, by omega⟩
          · apply (ih (by omega)).mpr
            refine ⟨iv' :: ivs', .cons htoken' htokens', hascending.tail, ?_, hends', by omega, hle⟩
            intro _ iv'' hiv''
            cases hiv''
            exact habove

/-- The lists are what the commas leave. -/
theorem cpuList_iff {text : List Char} {ivs : List Interval} :
    CpuList text ivs ↔ List.Forall₂ PaddedToken (text.splitOn ',') ivs := by
  constructor
  · rintro ⟨raws, hne, htext, htokens⟩
    have hcomma : ∀ raw ∈ raws, ',' ∉ raw := by
      intro raw hraw
      rcases List.mem_iff_get.mp hraw with ⟨i, hi⟩
      have hpadded := htokens.get i.isLt (htokens.length_eq ▸ i.isLt)
      rw [List.get_eq_getElem] at hi
      rw [← hi]
      exact hpadded.comma_notMem
    rw [htext, List.splitOn_intercalate _ hcomma hne]
    exact htokens
  · intro htokens
    exact ⟨text.splitOn ',', List.splitOn_ne_nil ',' text, (List.intercalate_splitOn ',').symm,
      htokens⟩

/-- White space around the whole list does not matter. -/
theorem forall₂_paddedToken_trim {text : List Char} {ivs : List Interval} :
    List.Forall₂ PaddedToken ((trim text).splitOn ',') ivs ↔
      List.Forall₂ PaddedToken (text.splitOn ',') ivs := by
  have htrim : ∀ raws : List (List Char), List.Forall₂ PaddedToken raws ivs ↔
      List.Forall₂ CpuToken (raws.map trim) ivs := by
    intro raws
    rw [List.forall₂_map_left_iff]
    exact ⟨.imp fun _ _ => paddedToken_iff.mp, .imp fun _ _ => paddedToken_iff.mpr⟩
  rw [htrim, htrim, map_trim_splitOn_trim (by decide)]

/-- **The processor list.**  `parse_cpu_range_list` accepts the lists of padded tokens whose
intervals ascend, end in a `usize` and have no more than `usize::MAX` numbers together, and returns
how many numbers they have. -/
theorem parseCpuRangeList_eq_some (input : List Char) (n : Nat) :
    parseCpuRangeList input = some n ↔
      ∃ ivs, CpuList input ivs ∧ Ascending ivs ∧ (∀ iv ∈ ivs, iv.last ≤ usizeMax) ∧
        n = (points ivs).card ∧ n ≤ usizeMax := by
  unfold parseCpuRangeList
  rw [parseCpuTokens_eq_some (Nat.zero_le usizeMax)]
  apply exists_congr
  intro ivs
  rw [forall₂_paddedToken_trim, ← cpuList_iff, Nat.zero_add]
  constructor
  · rintro ⟨hlist, hascending, -, hends, hn, hle⟩
    exact ⟨hlist, hascending, hends, hn.trans hascending.card_points.symm, hle⟩
  · rintro ⟨hlist, hascending, hends, hn, hle⟩
    refine ⟨hlist, hascending, fun h => ?_, hends, hn.trans hascending.card_points, hle⟩
    cases h

example : parseCpuRangeList " 0-3, 8,10-11\n".toList = some 7 := by decide +kernel

end Rlibc.System
