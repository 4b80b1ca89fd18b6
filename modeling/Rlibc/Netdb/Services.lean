import Rlibc.Netdb.Resolver
import Rlibc.System.CpuList

/-!
# The services file

The port that `getaddrinfo` finds for the name of a service: that of the first line of
`/etc/services` that offers the name for the protocol, else one that is known without the file.
-/

namespace Rlibc.Netdb

open Text Rlibc.System

/-- The loop of `str::parse::<u16>()` over the digits. -/
def u16Digits : Nat → List Char → Option Nat
  | value, [] => some value
  | value, c :: cs =>
    if isAsciiDigit c ∧ value * 10 + (c.toNat - 48) ≤ 0xffff then
      u16Digits (value * 10 + (c.toNat - 48)) cs
    else none

/-- `port_text.parse::<u16>().ok()`. -/
def u16FromStr (portText : List Char) : Option Nat :=
  let digits := if portText.head? = some '+' then portText.tail else portText
  if digits = [] then none else u16Digits 0 digits

def serviceProtocolName (protocol : CInt) : Option (List Char) :=
  if protocol = IPPROTO_TCP then some ['t', 'c', 'p']
  else if protocol = IPPROTO_UDP then some ['u', 'd', 'p']
  else none

/-- One turn of the loop over the lines: the port that is returned, or the loop goes on. -/
def resolveServicesLine (serviceName protocolName rawLine : List Char) : Option Nat :=
  let line := trim ((rawLine.splitOn '#').head?.getD [])
  if line = [] then none
  else
    match splitWhitespace line with
    | primaryName :: portAndProtocol :: columns =>
      match splitOnce '/' portAndProtocol with
      | none => none
      | some (portText, entryProtocol) =>
        if ¬ eqIgnoreAsciiCase entryProtocol protocolName then none
        else
          match u16FromStr portText with
          | none => none
          | some port =>
            if eqIgnoreAsciiCase primaryName serviceName ∨
                columns.any fun column => eqIgnoreAsciiCase column serviceName then some port
            else none
    | _ => none

def resolveServiceNameFromServicesText (servicesText serviceName : List Char) (protocol : CInt) :
    Option Nat :=
  (serviceProtocolName protocol).bind fun protocolName =>
    (lines servicesText).findSome? (resolveServicesLine serviceName protocolName)

def resolveServiceNameFromBuiltin (serviceName : List Char) (protocol : CInt) : Option Nat :=
  let named (name : String) := eqIgnoreAsciiCase serviceName name.toList
  if protocol = IPPROTO_TCP ∧ named "http" then some 80
  else if protocol = IPPROTO_TCP ∧ named "www" then some 80
  else if protocol = IPPROTO_TCP ∧ named "www-http" then some 80
  else if protocol = IPPROTO_TCP ∧ named "https" then some 443
  else if protocol = IPPROTO_TCP ∧ named "www-https" then some 443
  else if protocol = IPPROTO_TCP ∧ named "ssh" then some 22
  else if (protocol = IPPROTO_TCP ∨ protocol = IPPROTO_UDP) ∧ named "domain" then some 53
  else none

/-- `resolve_service_name`; `servicesFile` is what `read_to_string` returns. -/
def resolveServiceName (servicesFile : Option (List Char)) (serviceName : List Char)
    (protocol : CInt) : Option Nat :=
  (servicesFile.bind fun servicesText =>
    resolveServiceNameFromServicesText servicesText serviceName protocol).or
      (resolveServiceNameFromBuiltin serviceName protocol)

/-! ## The grammar of the file -/

structure ServiceEntry where
  name : List Char
  port : Nat
  protocol : List Char
  aliases : List (List Char)

/-- Digits, perhaps behind a plus sign, of a number that is a port. -/
inductive PortText : List Char → Nat → Prop
  | plain {digits : List Char} (hdigits : IsNumeral digits) (hle : numeralValue digits ≤ 0xffff) :
      PortText digits (numeralValue digits)
  | plus {digits : List Char} (hdigits : IsNumeral digits) (hle : numeralValue digits ≤ 0xffff) :
      PortText ('+' :: digits) (numeralValue digits)

/-- The line of an entry: its columns with white space between them, and perhaps a comment. -/
def EntryLine (line : List Char) (e : ServiceEntry) : Prop :=
  ∃ columns comment portText, line = columns ++ comment ∧ '#' ∉ columns ∧
    (∀ c ∈ comment.head?, c = '#') ∧ PortText portText e.port ∧
    Spaced columns (e.name :: (portText ++ '/' :: e.protocol) :: e.aliases)

/-- The entry is one for the protocol, under the name or with it among its others. -/
def ServiceEntry.Offers (e : ServiceEntry) (serviceName protocolName : List Char) : Prop :=
  eqIgnoreAsciiCase e.protocol protocolName = true ∧
    ∃ column ∈ e.name :: e.aliases, eqIgnoreAsciiCase column serviceName = true

/-! ## Ports -/

theorem u16Digits_eq_some {digits : List Char} {value n : Nat} (hvalue : value ≤ 0xffff) :
    u16Digits value digits = some n ↔ (∀ c ∈ digits, isAsciiDigit c = true) ∧
      n = (digits.map fun c => c.toNat - 48).foldl (fun v d => v * 10 + d) value ∧
        n ≤ 0xffff := by
  induction digits generalizing value with
  | nil =>
    rw [u16Digits, Option.some.injEq]
    constructor
    · intro h
      exact ⟨fun c hc => absurd hc List.not_mem_nil, h.symm, by omega⟩
    · exact fun h => h.2.1.symm
  | cons c cs ih =>
    have hgrow := Numeral.le_foldl (show 0 < 10 by decide) (cs.map fun c => c.toNat - 48)
      (value * 10 + (c.toNat - 48))
    rw [u16Digits, List.map_cons, List.foldl_cons, List.forall_mem_cons]
    split
    · rename_i hturn
      rw [ih hturn.2]
      exact and_congr_left fun _ => ⟨fun h => ⟨hturn.1, h⟩, fun h => h.2⟩
    · rename_i hturn
      constructor
      · intro h
        cases h
      · rintro ⟨hdigits, hn, hle⟩
        exact absurd ⟨hdigits.1, by omega⟩ hturn

theorem plus_not_digit : isAsciiDigit '+' = false := by decide

theorem slash_notMem_portText {portText : List Char} {port : Nat} (h : PortText portText port) :
    '/' ∉ portText := by
  have hdigits : ∀ digits, IsNumeral digits → '/' ∉ digits := by
    intro digits hnumeral hmem
    exact absurd (hnumeral.2 '/' hmem) (by decide)
  cases h with
  | plain hnumeral => exact hdigits _ hnumeral
  | plus hnumeral =>
    intro hmem
    rcases List.mem_cons.mp hmem with heq | hmem
    · exact absurd heq (by decide)
    · exact hdigits _ hnumeral hmem

theorem u16FromStr_eq_some {portText : List Char} {port : Nat} :
    u16FromStr portText = some port ↔ PortText portText port := by
  have hread : ∀ digits, (if digits = [] then none else u16Digits 0 digits) = some port ↔
      IsNumeral digits ∧ numeralValue digits = port ∧ port ≤ 0xffff := by
    intro digits
    by_cases hnil : digits = []
    · rw [if_pos hnil]
      exact ⟨fun h => (Option.some_ne_none _ h.symm).elim, fun h => absurd hnil h.1.1⟩
    · rw [if_neg hnil, u16Digits_eq_some (Nat.zero_le _)]
      constructor
      · exact fun h => ⟨⟨hnil, h.1⟩, h.2.1.symm, h.2.2⟩
      · exact fun h => ⟨h.1.2, h.2.1.symm, h.2.2⟩
  unfold u16FromStr
  dsimp only
  rw [hread]
  constructor
  · intro h
    by_cases hplus : portText.head? = some '+'
    · rw [if_pos hplus] at h
      cases portText with
      | nil => cases hplus
      | cons c digits =>
        cases Option.some.inj hplus
        obtain ⟨hnumeral, rfl, hle⟩ := h
        exact .plus hnumeral hle
    · rw [if_neg hplus] at h
      obtain ⟨hnumeral, rfl, hle⟩ := h
      exact .plain hnumeral hle
  · intro h
    cases h with
    | plain hnumeral hle =>
      have hplus : portText.head? ≠ some '+' := by
        intro hhead
        have hdigit := hnumeral.2 '+' (List.mem_of_head? hhead)
        rw [plus_not_digit] at hdigit
        cases hdigit
      rw [if_neg hplus]
      exact ⟨hnumeral, rfl, hle⟩
    | plus hnumeral hle =>
      rw [if_pos (show (('+' :: _ : List Char)).head? = some '+' from rfl)]
      exact ⟨hnumeral, rfl, hle⟩

/-! ## Lines -/

/-- The columns of a line, up to a comment. -/
theorem servicesColumns (rawLine : List Char) :
    splitWhitespace (trim ((rawLine.splitOn '#').head?.getD [])) =
      splitWhitespace (rawLine.takeWhile (· ≠ '#')) := by
  rw [head_splitOn]
  exact splitWhitespace_trim _

theorem entryLine_iff {rawLine : List Char} {e : ServiceEntry} :
    EntryLine rawLine e ↔ ∃ portText, PortText portText e.port ∧
      splitWhitespace (rawLine.takeWhile (· ≠ '#')) =
        e.name :: (portText ++ '/' :: e.protocol) :: e.aliases := by
  constructor
  · rintro ⟨columns, comment, portText, rfl, hcolumns, hcomment, hport, hspaced⟩
    refine ⟨portText, hport, ?_⟩
    have htake : (columns ++ comment).takeWhile (· ≠ '#') = columns := by
      have hall : ∀ c ∈ columns, decide (c ≠ '#') = true := by
        intro c hc
        rw [decide_eq_true_eq]
        rintro rfl
        exact hcolumns hc
      rw [List.takeWhile_append_of_pos hall]
      cases comment with
      | nil => exact List.append_nil _
      | cons c comment =>
        rw [List.takeWhile_cons_of_neg (by simp [hcomment c rfl]), List.append_nil]
    rw [htake]
    exact hspaced.splitWhitespace_eq
  · rintro ⟨portText, hport, hcolumns⟩
    refine ⟨rawLine.takeWhile (· ≠ '#'), rawLine.dropWhile (· ≠ '#'), portText, ?_, ?_, ?_, hport,
      spaced_iff.mpr hcolumns⟩
    · exact List.takeWhile_append_dropWhile.symm
    · intro hmem
      simpa using List.mem_takeWhile_imp hmem
    · intro c hc
      have hhead := List.head?_dropWhile_not (· ≠ '#') rawLine
      rw [Option.mem_def.mp hc] at hhead
      simpa using hhead

/-- A line returns the port of the entry it is, if that offers the service. -/
theorem resolveServicesLine_eq_some {serviceName protocolName rawLine : List Char} {port : Nat} :
    resolveServicesLine serviceName protocolName rawLine = some port ↔
      ∃ e, EntryLine rawLine e ∧ e.Offers serviceName protocolName ∧ e.port = port := by
  have hcolumns := servicesColumns rawLine
  simp only [entryLine_iff]
  unfold resolveServicesLine
  dsimp only
  generalize trim ((rawLine.splitOn '#').head?.getD []) = line at hcolumns ⊢
  rw [← hcolumns]
  constructor
  · intro h
    split at h
    · cases h
    split at h
    · rename_i primaryName portAndProtocol columns hsplit
      split at h
      · cases h
      rename_i portText entryProtocol hslash
      split at h
      · cases h
      rename_i hprotocol
      split at h
      · cases h
      rename_i entryPort hport
      split at h
      · rename_i hnamed
        cases h
        rw [splitOnce_eq_some] at hslash
        refine ⟨⟨primaryName, port, entryProtocol, columns⟩,
          ⟨portText, u16FromStr_eq_some.mp hport, ?_⟩, ⟨not_not.mp hprotocol, ?_⟩, rfl⟩
        · rw [hsplit, hslash.1]
        · rcases hnamed with hprimary | hother
          · exact ⟨primaryName, List.mem_cons_self, hprimary⟩
          · obtain ⟨column, hcolumn, hsame⟩ := List.any_eq_true.mp hother
            exact ⟨column, List.mem_cons_of_mem _ hcolumn, hsame⟩
      · cases h
    · cases h
  · rintro ⟨e, ⟨portText, hport, hsplit⟩, ⟨hprotocol, column, hcolumn, hsame⟩, rfl⟩
    have hne : line ≠ [] := by
      rintro rfl
      cases hsplit
    have hslash : splitOnce '/' (portText ++ '/' :: e.protocol) = some (portText, e.protocol) :=
      splitOnce_eq_some.mpr ⟨rfl, slash_notMem_portText hport⟩
    have hnamed : eqIgnoreAsciiCase e.name serviceName = true ∨
        (e.aliases.any fun column => eqIgnoreAsciiCase column serviceName) = true := by
      rcases List.mem_cons.mp hcolumn with rfl | hcolumn
      · exact Or.inl hsame
      · exact Or.inr (List.any_eq_true.mpr ⟨column, hcolumn, hsame⟩)
    rw [if_neg hne, hsplit]
    dsimp only
    rw [hslash]
    dsimp only
    rw [if_neg (not_not.mpr hprotocol), u16FromStr_eq_some.mpr hport]
    exact if_pos hnamed

/-- No entry of the file offers the service. -/
def NoneOffers (rawLines : List (List Char)) (serviceName protocolName : List Char) : Prop :=
  ∀ line ∈ rawLines, ∀ e, EntryLine line e → ¬ e.Offers serviceName protocolName

theorem noneOffers_iff {rawLines : List (List Char)} {serviceName protocolName : List Char} :
    NoneOffers rawLines serviceName protocolName ↔
      ∀ line ∈ rawLines, resolveServicesLine serviceName protocolName line = none := by
  unfold NoneOffers
  refine forall₂_congr fun line _ => ?_
  rw [Option.eq_none_iff_forall_ne_some]
  constructor
  · intro h port hport
    obtain ⟨e, hentry, hoffers, -⟩ := resolveServicesLine_eq_some.mp hport
    exact h e hentry hoffers
  · intro h e hentry hoffers
    exact h e.port (resolveServicesLine_eq_some.mpr ⟨e, hentry, hoffers, rfl⟩)

/-- **Services.**  The port of a service is that of the first entry of the file that offers it for
the protocol; the other lines, malformed ones among them, do not count; and the ports known without
the file are for services that no entry offers. -/
theorem resolveServiceName_eq_some {servicesFile : Option (List Char)} {serviceName : List Char}
    {protocol : CInt} {port : Nat} :
    resolveServiceName servicesFile serviceName protocol = some port ↔
      ∃ protocolName, serviceProtocolName protocol = some protocolName ∧
        ((∃ before line after e, lines (servicesFile.getD []) = before ++ line :: after ∧
            EntryLine line e ∧ e.Offers serviceName protocolName ∧ e.port = port ∧
            NoneOffers before serviceName protocolName) ∨
          (NoneOffers (lines (servicesFile.getD [])) serviceName protocolName ∧
            resolveServiceNameFromBuiltin serviceName protocol = some port)) := by
  have hfile : (servicesFile.bind fun servicesText =>
      resolveServiceNameFromServicesText servicesText serviceName protocol) =
        (serviceProtocolName protocol).bind fun protocolName =>
          (lines (servicesFile.getD [])).findSome?
            (resolveServicesLine serviceName protocolName) := by
    cases servicesFile with
    | some servicesText => rfl
    | none =>
      cases serviceProtocolName protocol with
      | none => rfl
      | some protocolName => rfl
  unfold resolveServiceName
  rw [hfile]
  cases hprotocol : serviceProtocolName protocol with
  | none =>
    -- Neither the file nor the table knows another protocol.
    have hother : resolveServiceNameFromBuiltin serviceName protocol = none := by
      unfold serviceProtocolName at hprotocol
      split at hprotocol
      · cases hprotocol
      rename_i htcp
      split at hprotocol
      · cases hprotocol
      rename_i hudp
      unfold resolveServiceNameFromBuiltin
      dsimp only
      rw [if_neg fun h => htcp h.1, if_neg fun h => htcp h.1, if_neg fun h => htcp h.1,
        if_neg fun h => htcp h.1, if_neg fun h => htcp h.1, if_neg fun h => htcp h.1,
        if_neg fun h => h.1.elim htcp hudp]
    rw [Option.bind_none, Option.none_or, hother]
    constructor
    · intro h
      cases h
    · rintro ⟨protocolName, hname, -⟩
      cases hname
  | some protocolName =>
    rw [Option.bind_some]
    have hname : ∀ p : List Char → Prop,
        (∃ name, some protocolName = some name ∧ p name) ↔ p protocolName := by
      intro p
      constructor
      · rintro ⟨name, hname, hp⟩
        cases hname
        exact hp
      · exact fun hp => ⟨protocolName, rfl, hp⟩
    rw [hname, noneOffers_iff, ← List.findSome?_eq_none_iff]
    cases hfound :
        (lines (servicesFile.getD [])).findSome? (resolveServicesLine serviceName protocolName) with
    | none =>
      rw [Option.none_or]
      constructor
      · exact fun h => Or.inr ⟨rfl, h⟩
      · rintro (⟨before, line, after, e, hlines, hentry, hoffers, -, -⟩ | ⟨-, h⟩)
        · rw [List.findSome?_eq_none_iff, hlines] at hfound
          have hnone := hfound line (List.mem_append_right _ List.mem_cons_self)
          rw [resolveServicesLine_eq_some.mpr ⟨e, hentry, hoffers, rfl⟩] at hnone
          cases hnone
        · exact h
    | some found =>
      rw [Option.some_or, ← hfound, List.findSome?_eq_some_iff]
      constructor
      · rintro ⟨before, line, after, hlines, hline, hbefore⟩
        obtain ⟨e, hentry, hoffers, hport⟩ := resolveServicesLine_eq_some.mp hline
        exact Or.inl ⟨before, line, after, e, hlines, hentry, hoffers, hport,
          noneOffers_iff.mpr hbefore⟩
      · rintro (⟨before, line, after, e, hlines, hentry, hoffers, hport, hbefore⟩ | ⟨hnone, -⟩)
        · exact ⟨before, line, after, hlines,
            resolveServicesLine_eq_some.mpr ⟨e, hentry, hoffers, hport⟩,
            noneOffers_iff.mp hbefore⟩
        · rw [hfound] at hnone
          cases hnone

end Rlibc.Netdb
