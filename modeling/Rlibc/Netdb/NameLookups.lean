import Rlibc.Foundations.Utf8Sequences
import Rlibc.Netdb.Hosts
import Rlibc.Netdb.Services

/-!
# `getaddrinfo` over the two files

The lookups that the resolver is given, as `/etc/hosts` and `/etc/services` answer them.  Both are
about texts: a string that passes the test for UTF-8 is the text of a row of characters.
-/

namespace Rlibc.Netdb

open ByteMem Utf8Sequences

/-! ## Strings that are texts -/

theorem isContinuation_iff {b : UInt8} : isContinuation b = true ↔ Tail b := by
  unfold isContinuation Tail
  rw [decide_eq_true_iff, UInt8.le_iff_toNat_le, UInt8.le_iff_toNat_le]
  exact Iff.rfl

/-- A bound on the second byte that one first byte has. -/
theorem secondBound_iff {a k : UInt8} {p : Prop} [Decidable p] :
    (decide (a ≠ k) || decide p) = true ↔ (a.toNat = k.toNat → p) := by
  rw [Bool.or_eq_true, decide_eq_true_iff, decide_eq_true_iff, UInt8.toNat_inj, ne_eq,
    ← imp_iff_not_or]

/-- A sequence in front of a byte list, when its length is known. -/
theorem exists_row_iff {a : UInt8} (front bs : List UInt8) (hlen : front.length + 1 = seqLen a) :
    (∃ tail rest, front ++ bs = tail ++ rest ∧ Fits (a :: tail) ∧ tail.length + 1 = seqLen a ∧
      isUtf8 rest = true) ↔ Fits (a :: front) ∧ isUtf8 bs = true := by
  constructor
  · rintro ⟨tail, rest, heq, hfits, htail, hrest⟩
    obtain ⟨rfl, rfl⟩ := List.append_inj heq (by omega)
    exact ⟨hfits, hrest⟩
  · rintro ⟨hfits, hrest⟩
    exact ⟨front, bs, rfl, hfits, hlen, hrest⟩

theorem no_row {a : UInt8} {bs : List UInt8} (hshort : seqLen a = 0 ∨ bs.length + 1 < seqLen a) :
    ¬∃ tail rest, bs = tail ++ rest ∧ Fits (a :: tail) ∧ tail.length + 1 = seqLen a ∧
      isUtf8 rest = true := by
  rintro ⟨tail, rest, rfl, -, hlen, -⟩
  rw [List.length_append] at hshort
  omega

theorem seqLen_range (a : UInt8) : seqLen a = 1 ∧ a.toNat < 0x80 ∨
    seqLen a = 2 ∧ 0xC2 ≤ a.toNat ∧ a.toNat ≤ 0xDF ∨
    seqLen a = 3 ∧ 0xE0 ≤ a.toNat ∧ a.toNat ≤ 0xEF ∨
    seqLen a = 4 ∧ 0xF0 ≤ a.toNat ∧ a.toNat ≤ 0xF4 ∨
    seqLen a = 0 ∧ (0x80 ≤ a.toNat ∧ a.toNat < 0xC2 ∨ 0xF4 < a.toNat) := by
  unfold seqLen
  split_ifs <;> omega

theorem fits_two {a b : UInt8} (hlen : seqLen a = 2) : Fits [a, b] ↔ Tail b := by
  have hrange := seqLen_eq_two hlen
  unfold Fits SecondFits
  simp only [hlen, ne_eq, OfNat.ofNat_ne_zero, not_false_eq_true, true_and, List.not_mem_nil,
    false_implies, implies_true, and_true]
  exact and_iff_left ⟨by omega, by omega, by omega, by omega⟩

theorem fits_three {a b d : UInt8} (hlen : seqLen a = 3) :
    Fits [a, b, d] ↔ Tail b ∧ (a.toNat = 0xE0 → 0xA0 ≤ b.toNat) ∧
      (a.toNat = 0xED → b.toNat ≤ 0x9F) ∧ Tail d := by
  have hrange := seqLen_eq_three hlen
  unfold Fits SecondFits
  simp only [hlen, ne_eq, OfNat.ofNat_ne_zero, not_false_eq_true, true_and, List.mem_singleton,
    forall_eq, and_assoc]
  refine and_congr_right fun _ => and_congr_right fun _ => and_congr_right fun _ => ?_
  rw [and_iff_right (show a.toNat = 0xF0 → _ by omega),
    and_iff_right (show a.toNat = 0xF4 → _ by omega)]

theorem fits_four {a b d e : UInt8} (hlen : seqLen a = 4) :
    Fits [a, b, d, e] ↔ Tail b ∧ (a.toNat = 0xF0 → 0x90 ≤ b.toNat) ∧
      (a.toNat = 0xF4 → b.toNat ≤ 0x8F) ∧ Tail d ∧ Tail e := by
  have hrange := seqLen_eq_four hlen
  unfold Fits SecondFits
  simp only [hlen, ne_eq, OfNat.ofNat_ne_zero, not_false_eq_true, true_and, List.mem_cons,
    List.not_mem_nil, or_false, forall_eq_or_imp, forall_eq, and_assoc]
  refine and_congr_right fun _ => ?_
  rw [and_iff_right (show a.toNat = 0xE0 → _ by omega),
    and_iff_right (show a.toNat = 0xED → _ by omega)]

/-- The test passes a byte list when a sequence stands in front of it and it passes the rest. -/
theorem isUtf8_cons {a : UInt8} {bs : List UInt8} :
    isUtf8 (a :: bs) = true ↔ ∃ tail rest, bs = tail ++ rest ∧ Fits (a :: tail) ∧
      tail.length + 1 = seqLen a ∧ isUtf8 rest = true := by
  have hrange := seqLen_range a
  rw [isUtf8.eq_def]
  dsimp only
  by_cases h1 : a < 0x80
  · have hlen : seqLen a = 1 := if_pos (UInt8.lt_iff_toNat_lt.mp h1)
    rw [if_pos h1]
    exact ((exists_row_iff [] bs hlen.symm).trans
      (and_iff_right (show seqLen a ≠ 0 by omega))).symm
  rw [if_neg h1]
  simp only [UInt8.lt_iff_toNat_lt, UInt8.reduceToNat] at h1
  rcases bs with _ | ⟨b, bs⟩
  · exact iff_of_false Bool.false_ne_true (no_row (by rw [List.length_nil]; omega))
  dsimp only
  by_cases h2 : 0xC2 ≤ a ∧ a ≤ 0xDF
  · rw [if_pos h2, Bool.and_eq_true, isContinuation_iff]
    simp only [UInt8.le_iff_toNat_le, UInt8.reduceToNat] at h2
    have hlen : seqLen a = 2 := by omega
    rw [← fits_two hlen]
    exact (exists_row_iff [b] bs hlen.symm).symm
  rw [if_neg h2]
  simp only [UInt8.le_iff_toNat_le, UInt8.reduceToNat] at h2
  rcases bs with _ | ⟨d, bs⟩
  · refine iff_of_false Bool.false_ne_true (no_row ?_)
    rw [List.length_singleton]
    omega
  dsimp only
  by_cases h3 : 0xE0 ≤ a ∧ a ≤ 0xEF
  · rw [if_pos h3]
    simp only [UInt8.le_iff_toNat_le, UInt8.reduceToNat] at h3
    have hlen : seqLen a = 3 := by omega
    simp only [Bool.and_eq_true, isContinuation_iff, secondBound_iff, and_assoc,
      UInt8.le_iff_toNat_le, UInt8.reduceToNat]
    have hrow := exists_row_iff [b, d] bs hlen.symm
    rw [fits_three hlen] at hrow
    simp only [and_assoc] at hrow
    exact hrow.symm
  rw [if_neg h3]
  simp only [UInt8.le_iff_toNat_le, UInt8.reduceToNat] at h3
  rcases bs with _ | ⟨e, bs⟩
  · refine iff_of_false Bool.false_ne_true (no_row ?_)
    rw [List.length_cons, List.length_singleton]
    omega
  dsimp only
  simp only [Bool.and_eq_true, isContinuation_iff, secondBound_iff, and_assoc,
    decide_eq_true_eq, UInt8.le_iff_toNat_le, UInt8.reduceToNat]
  by_cases h4 : 0xF0 ≤ a.toNat ∧ a.toNat ≤ 0xF4
  · have hlen : seqLen a = 4 := by omega
    have hrow := exists_row_iff [b, d, e] bs hlen.symm
    rw [fits_four hlen] at hrow
    simp only [and_assoc] at hrow
    rw [and_iff_right h4.1, and_iff_right h4.2]
    exact hrow.symm
  · refine iff_of_false (fun h => h4 ⟨h.1, h.2.1⟩) (no_row (Or.inl ?_))
    omega

/-- The strings that pass are the texts. -/
theorem isUtf8_iff {bytes : List UInt8} : isUtf8 bytes = true ↔ WellFormed bytes := by
  constructor
  · intro h
    -- Each sequence in front makes the rest shorter.
    induction hn : bytes.length using Nat.strong_induction_on generalizing bytes with
    | _ n ih =>
      cases bytes with
      | nil => exact ⟨[], rfl⟩
      | cons a bs =>
        obtain ⟨tail, rest, rfl, hfits, hlen, hrest⟩ := isUtf8_cons.mp h
        obtain ⟨c, -, hc⟩ := exists_encode hfits hlen
        have hshorter : rest.length < n := by
          rw [← hn, List.length_cons, List.length_append]
          omega
        obtain ⟨cs, hcs⟩ := ih rest.length hshorter hrest rfl
        exact ⟨c :: cs, by rw [List.flatMap_cons, hc, ← hcs, List.cons_append]⟩
  · rintro ⟨cs, rfl⟩
    induction cs with
    | nil => rfl
    | cons c cs ih =>
      obtain ⟨hfits, hlen, -⟩ := encode_row c
      rw [List.flatMap_cons]
      cases hc : encode c with
      | nil => exact absurd hc (encode_ne_nil c)
      | cons a tail =>
        rw [hc] at hfits hlen
        exact isUtf8_cons.mpr ⟨tail, _, rfl, hfits, hlen, ih⟩

/-- `CStr::to_str`. -/
def toStr (bytes : List UInt8) : Option (List Char) :=
  bytes.toByteArray.utf8Decode?.map Array.toList

theorem toStr_strBytes (text : List Char) : toStr (strBytes text) = some text := by
  have hdecode := List.utf8Decode?_utf8Encode (l := text)
  unfold toStr
  rw [show (strBytes text).toByteArray = text.utf8Encode from rfl, hdecode]
  rfl

theorem exists_text {bytes : List UInt8} (h : isUtf8 bytes = true) :
    ∃ text, bytes = strBytes text := isUtf8_iff.mp h

theorem isUtf8_strBytes (text : List Char) : isUtf8 (strBytes text) = true :=
  isUtf8_iff.mpr ⟨text, rfl⟩

/-! ## The lookups -/

/-- What the resolver finds in the two files; it asks for texts only. -/
def Databases.ofFiles (ipv6 : Ipv6Text) (hostsFile servicesFile : Option (List Char)) :
    Databases where
  ipv6 := ipv6
  hostname node family :=
    match toStr node with
    | some nodeText => resolveHostnameCandidates ipv6 hostsFile nodeText family
    | none => .error .noName
  serviceName service protocol :=
    (toStr service).bind fun serviceText => resolveServiceName servicesFile serviceText protocol

section

variable (ipv6 : Ipv6Text) (hostsFile servicesFile : Option (List Char)) {m : Mem}
  {node service : Nat}

theorem resolveNodeCandidates_ofFiles {host : List Char} (hnode : node ≠ 0)
    (htext : cStr m node = strBytes host) (hne : strBytes host ≠ [])
    (hnumeric : parseNumericHostText ipv6 (strBytes host) = none) (family : CInt) {flags : CInt}
    (hflags : flags &&& AI_NUMERICHOST = 0) :
    resolveNodeCandidates (.ofFiles ipv6 hostsFile servicesFile) m node family flags =
      resolveHostnameCandidates ipv6 hostsFile host family := by
  have hlookup : (Databases.ofFiles ipv6 hostsFile servicesFile).hostname (strBytes host) family =
      resolveHostnameCandidates ipv6 hostsFile host family := by
    unfold Databases.ofFiles
    dsimp only
    rw [toStr_strBytes]
  unfold resolveNodeCandidates
  rw [htext, if_neg hnode, if_neg (not_not.mpr (isUtf8_strBytes host)), if_neg hne,
    show (Databases.ofFiles ipv6 hostsFile servicesFile).ipv6 = ipv6 from rfl, hnumeric]
  dsimp only
  rw [if_neg (not_not.mpr hflags), hlookup]

theorem parseServicePort_ofFiles {name : List Char} (hservice : service ≠ 0)
    (htext : cStr m service = strBytes name)
    (hnumeric : parseNumericService (strBytes name) = none) (protocol : CInt) {flags : CInt}
    (hflags : flags &&& AI_NUMERICSERV = 0) :
    parseServicePort (.ofFiles ipv6 hostsFile servicesFile) m service flags protocol =
      match resolveServiceName servicesFile name protocol with
      | some port => .ok port
      | none => .error .service := by
  have hlookup : (Databases.ofFiles ipv6 hostsFile servicesFile).serviceName (strBytes name)
      protocol = resolveServiceName servicesFile name protocol := by
    unfold Databases.ofFiles
    dsimp only
    rw [toStr_strBytes, Option.bind_some]
  unfold parseServicePort
  rw [htext, if_neg hservice, hnumeric]
  dsimp only
  rw [if_neg (not_not.mpr hflags), if_neg (not_not.mpr (isUtf8_strBytes name))]
  cases hport : resolveServiceName servicesFile name protocol with
  | none => simp only [hlookup, hport]
  | some port => simp only [hlookup, hport]

/-- **Names.**  Two strings of UTF-8 that are no numbers are the names of a host and of a service:
`getaddrinfo` returns the addresses that the hosts file gives the one, each with the port that the
services file gives the other; without a port there is no such service, and without an address
there is no such name. -/
theorem getaddrinfo_names (hosts : List Char) {hints : Hints} {res : Nat}
    {family socktype protocol : CInt} (hres : res ≠ 0) (hnode : node ≠ 0) (hservice : service ≠ 0)
    (hutf8Node : isUtf8 (cStr m node) = true) (hutf8Service : isUtf8 (cStr m service) = true)
    (hnumericHost : parseNumericHostText ipv6 (cStr m node) = none)
    (hnumericService : parseNumericService (cStr m service) = none)
    (hallowed : hints.aiFlags &&& ~~~ALLOWED_AI_FLAGS = 0)
    (hhostFlag : hints.aiFlags &&& AI_NUMERICHOST = 0)
    (hservFlag : hints.aiFlags &&& AI_NUMERICSERV = 0)
    (hfamily : resolveFamily hints.aiFamily = .ok family)
    (hprofile : resolveSocketProfile hints.aiSocktype hints.aiProtocol =
      .ok (socktype, protocol)) :
    ∃ host name, cStr m node = strBytes host ∧ cStr m service = strBytes name ∧
      (normalizeHostname host ≠ [] →
        getaddrinfo (.ofFiles ipv6 (some hosts) servicesFile) m node service (some hints) res =
          match resolveServiceName servicesFile name protocol with
          | none => .error .service
          | some port =>
            if hostAddresses ipv6 hosts host family = [] then .error .noName
            else .ok ((hostAddresses ipv6 hosts host family).map fun candidate =>
              allocateAddrinfoNode candidate port hints.aiFlags socktype protocol)) := by
  obtain ⟨host, hhost⟩ := exists_text hutf8Node
  obtain ⟨name, hname⟩ := exists_text hutf8Service
  refine ⟨host, name, hhost, hname, fun hnormal => ?_⟩
  rw [hhost] at hnumericHost
  rw [hname] at hnumericService
  have hne : strBytes host ≠ [] := by
    cases host with
    | nil => exact absurd rfl hnormal
    | cons c cs => exact List.append_ne_nil_of_left_ne_nil (encode_ne_nil c) _
  have hthree : family = AF_UNSPEC ∨ family = AF_INET ∨ family = AF_INET6 := by
    unfold resolveFamily at hfamily
    split at hfamily
    · rename_i h
      cases hfamily
      exact h
    · cases hfamily
  have hport := parseServicePort_ofFiles ipv6 (some hosts) servicesFile hservice hname
    hnumericService protocol hservFlag
  have hcandidates := resolveNodeCandidates_ofFiles ipv6 (some hosts) servicesFile hnode hhost hne
    hnumericHost family hhostFlag
  rw [resolveHostnameCandidates_eq ipv6 hosts hnormal hthree] at hcandidates
  unfold getaddrinfo
  rw [if_neg hres, if_neg (fun h => hnode h.1)]
  dsimp only [Option.getD_some]
  rw [if_neg (not_not.mpr hallowed), hfamily, hprofile]
  dsimp only [bind, Except.bind]
  rw [hport, hcandidates]
  cases resolveServiceName servicesFile name protocol with
  | none =>
    dsimp only
    unfold mapGetaddrinfoServiceError
    rw [if_pos (by decide)]
  | some port =>
    dsimp only
    by_cases hnil : hostAddresses ipv6 hosts host family = []
    · rw [if_pos hnil, if_pos hnil]
    · rw [if_neg hnil, if_neg hnil]
      dsimp only
      rw [if_neg hnil]

end

end Rlibc.Netdb
