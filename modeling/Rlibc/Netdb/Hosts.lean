import Rlibc.Foundations.Text
import Rlibc.Foundations.UniqueLists
import Rlibc.Netdb.Resolver

/-!
# The hosts file

The addresses that `getaddrinfo` finds for a name: the lines of `/etc/hosts` that list it, and the
loopback addresses for `localhost`.  A host name is a text here; the address column of a line is
parsed as the bytes that `str` holds.
-/

namespace Rlibc.Netdb

open Text UniqueLists

/-- The bytes of a `str`. -/
def strBytes (text : List Char) : List UInt8 := text.flatMap String.utf8EncodeChar

/-- `name.trim_end_matches('.')`. -/
def normalizeHostname (name : List Char) : List Char := name.rdropWhile (· = '.')

def isLocalhostName (nodeText : List Char) : Bool :=
  eqIgnoreAsciiCase (normalizeHostname nodeText) "localhost".toList

def familyAcceptsCandidate (family : CInt) : AddressCandidate → Bool
  | .ipv4 _ => family = AF_UNSPEC ∨ family = AF_INET
  | .ipv6 _ => family = AF_UNSPEC ∨ family = AF_INET6

def pushUniqueCandidate (candidates : List AddressCandidate) (family : CInt)
    (candidate : AddressCandidate) : List AddressCandidate :=
  if ¬ familyAcceptsCandidate family candidate then candidates
  else if candidate ∈ candidates then candidates
  else candidates ++ [candidate]

/-- One turn of the loop over the lines. -/
def resolveHostsLine (ipv6 : Ipv6Text) (lookupName : List Char) (family : CInt)
    (candidates : List AddressCandidate) (rawLine : List Char) : List AddressCandidate :=
  let line := trim ((rawLine.splitOn '#').head?.getD [])
  if line = [] then candidates
  else
    match splitWhitespace line with
    | [] => candidates
    | addressText :: columns =>
      if ¬ columns.any fun column => eqIgnoreAsciiCase (normalizeHostname column) lookupName then
        candidates
      else
        match parseNumericHostText ipv6 (strBytes addressText) with
        | some candidate => pushUniqueCandidate candidates family candidate
        | none => candidates

/-- `resolve_hosts_file_candidates`; `hostsFile` is what `read_to_string` returns. -/
def resolveHostsFileCandidates (ipv6 : Ipv6Text) (hostsFile : Option (List Char))
    (nodeText : List Char) (family : CInt) : List AddressCandidate :=
  let lookupName := normalizeHostname nodeText
  if lookupName = [] then []
  else
    match hostsFile with
    | none => []
    | some hostsFile => (lines hostsFile).foldl (resolveHostsLine ipv6 lookupName family) []

def appendLocalhostFallback (nodeText : List Char) (family : CInt)
    (candidates : List AddressCandidate) : List AddressCandidate :=
  if ¬ isLocalhostName nodeText then candidates
  else
    let candidates := pushUniqueCandidate candidates family (.ipv6 in6addrLoopback)
    pushUniqueCandidate candidates family (.ipv4 inaddrLoopback)

/-- What `reorder_localhost_candidates` puts first. -/
def preferredCandidates (family : CInt) : Option (List AddressCandidate) :=
  if family = AF_INET then some [.ipv4 inaddrLoopback]
  else if family = AF_INET6 then some [.ipv6 in6addrLoopback]
  else if family = AF_UNSPEC then some [.ipv6 in6addrLoopback, .ipv4 inaddrLoopback]
  else none

def reorderLocalhostCandidates (nodeText : List Char) (family : CInt)
    (candidates : List AddressCandidate) : List AddressCandidate :=
  if ¬ isLocalhostName nodeText ∨ candidates.length < 2 then candidates
  else
    match preferredCandidates family with
    | none => candidates
    | some preferred =>
      let reordered := preferred.foldl
        (fun reordered candidate =>
          if candidate ∈ candidates then reordered ++ [candidate] else reordered) []
      candidates.foldl
        (fun reordered candidate =>
          if candidate ∈ reordered then reordered else reordered ++ [candidate]) reordered

/-- There is no DNS client: the lookup fails. -/
def resolveDnsCandidates (_nodeText : List Char) (_family : CInt) :
    Except EaiError (List AddressCandidate) := .error .noName

def resolveHostnameCandidatesWith (nodeText : List Char) (family : CInt)
    (candidates : List AddressCandidate)
    (resolveDns : List Char → CInt → Except EaiError (List AddressCandidate)) :
    Except EaiError (List AddressCandidate) :=
  let candidates := appendLocalhostFallback nodeText family candidates
  let candidates := reorderLocalhostCandidates nodeText family candidates
  if candidates ≠ [] then .ok candidates else resolveDns nodeText family

def resolveHostnameCandidates (ipv6 : Ipv6Text) (hostsFile : Option (List Char))
    (nodeText : List Char) (family : CInt) : Except EaiError (List AddressCandidate) :=
  resolveHostnameCandidatesWith nodeText family
    (resolveHostsFileCandidates ipv6 hostsFile nodeText family) resolveDnsCandidates

/-! ## What a hosts file says -/

/-- Equal but for ASCII case and trailing dots. -/
def SameHost (name host : List Char) : Prop :=
  eqIgnoreAsciiCase (normalizeHostname name) (normalizeHostname host) = true

instance (name host : List Char) : Decidable (SameHost name host) :=
  inferInstanceAs (Decidable (_ = true))

/-- The columns of a line, up to a comment. -/
def hostsColumns (line : List Char) : List (List Char) :=
  splitWhitespace (line.takeWhile (· ≠ '#'))

/-- The address that a line gives to a host: its first column, if it is numeric and a later column
names the host. -/
def lineAddress (ipv6 : Ipv6Text) (host line : List Char) : Option AddressCandidate :=
  if ∃ name ∈ (hostsColumns line).tail, SameHost name host then
    (hostsColumns line).head?.bind fun address => parseNumericHostText ipv6 (strBytes address)
  else none

/-- The addresses of a family that a file gives to a host, in the order of the lines. -/
def fileAddresses (ipv6 : Ipv6Text) (hostsFile host : List Char) (family : CInt) :
    List AddressCandidate :=
  ((lines hostsFile).filterMap (lineAddress ipv6 host)).filter (familyAcceptsCandidate family)

/-- The loopback addresses of a family. -/
def loopbacks (family : CInt) : List AddressCandidate :=
  [.ipv6 in6addrLoopback, .ipv4 inaddrLoopback].filter (familyAcceptsCandidate family)

/-- The first occurrences of the addresses; for `localhost`, the loopback addresses before the
others. -/
def hostAddresses (ipv6 : Ipv6Text) (hostsFile host : List Char) (family : CInt) :
    List AddressCandidate :=
  let listed := (fileAddresses ipv6 hostsFile host family).eraseDups
  if SameHost host "localhost".toList then
    loopbacks family ++ listed.filter (· ∉ loopbacks family)
  else listed

/-! ## The loops -/

theorem pushUniqueCandidate_eq (candidates : List AddressCandidate) (family : CInt)
    (candidate : AddressCandidate) :
    pushUniqueCandidate candidates family candidate =
      ([candidate].filter (familyAcceptsCandidate family)).foldl pushUnique candidates := by
  unfold pushUniqueCandidate
  by_cases haccepts : familyAcceptsCandidate family candidate = true
  · rw [if_neg (not_not.mpr haccepts), List.filter_cons_of_pos haccepts]
    rfl
  · rw [if_pos haccepts, List.filter_cons_of_neg haccepts]
    rfl

/-- A line pushes the address that it gives to the host. -/
theorem resolveHostsLine_eq (ipv6 : Ipv6Text) (host : List Char) (family : CInt)
    (candidates : List AddressCandidate) (line : List Char) :
    resolveHostsLine ipv6 (normalizeHostname host) family candidates line =
      ((lineAddress ipv6 host line).toList.filter (familyAcceptsCandidate family)).foldl pushUnique
        candidates := by
  have hcut : (line.splitOn '#').head?.getD [] = line.takeWhile (· ≠ '#') := by
    rw [head_splitOn]
    rfl
  have hcolumns : splitWhitespace (trim (line.takeWhile (· ≠ '#'))) = hostsColumns line :=
    splitWhitespace_trim _
  unfold resolveHostsLine lineAddress
  rw [hcut]
  dsimp only
  split
  · rename_i hempty
    rw [hempty] at hcolumns
    rw [← hcolumns]
    rfl
  · rw [hcolumns]
    cases hostsColumns line with
    | nil => rfl
    | cons addressText columns =>
      dsimp only
      have hany : (columns.any fun column =>
          eqIgnoreAsciiCase (normalizeHostname column) (normalizeHostname host)) = true ↔
          ∃ name ∈ columns, SameHost name host := List.any_eq_true
      by_cases hmatch : ∃ name ∈ columns, SameHost name host
      · rw [if_neg (not_not.mpr (hany.mpr hmatch)), List.tail_cons, if_pos hmatch, List.head?_cons,
          Option.bind_some]
        cases parseNumericHostText ipv6 (strBytes addressText) with
        | none => rfl
        | some candidate => exact pushUniqueCandidate_eq candidates family candidate
      · rw [if_pos (fun h => hmatch (hany.mp h)), List.tail_cons, if_neg hmatch]
        rfl

/-- The loop over the lines leaves the first occurrences. -/
theorem resolveHostsFileCandidates_eq (ipv6 : Ipv6Text) (hostsFile : List Char) {host : List Char}
    (family : CInt) (hhost : normalizeHostname host ≠ []) :
    resolveHostsFileCandidates ipv6 (some hostsFile) host family =
      (fileAddresses ipv6 hostsFile host family).eraseDups := by
  have hloop : ∀ (rawLines : List (List Char)) (candidates : List AddressCandidate),
      rawLines.foldl (resolveHostsLine ipv6 (normalizeHostname host) family) candidates =
        ((rawLines.filterMap (lineAddress ipv6 host)).filter
          (familyAcceptsCandidate family)).foldl pushUnique candidates := by
    intro rawLines
    induction rawLines with
    | nil => exact fun _ => rfl
    | cons line rawLines ih =>
      intro candidates
      have hsplit : (line :: rawLines).filterMap (lineAddress ipv6 host) =
          (lineAddress ipv6 host line).toList ++ rawLines.filterMap (lineAddress ipv6 host) := by
        rw [List.filterMap_cons]
        cases lineAddress ipv6 host line with
        | none => rfl
        | some candidate => rfl
      rw [List.foldl_cons, resolveHostsLine_eq, ih, hsplit, List.filter_append, List.foldl_append]
  unfold resolveHostsFileCandidates
  dsimp only
  rw [if_neg hhost, hloop, foldl_pushUnique_nil]
  rfl

/-! ## The loopback addresses -/

theorem appendLocalhostFallback_eq {nodeText : List Char} (hlocal : isLocalhostName nodeText = true)
    (family : CInt) (candidates : List AddressCandidate) :
    appendLocalhostFallback nodeText family candidates =
      (loopbacks family).foldl pushUnique candidates := by
  unfold appendLocalhostFallback loopbacks
  rw [if_neg (not_not.mpr hlocal)]
  dsimp only
  rw [pushUniqueCandidate_eq, pushUniqueCandidate_eq, ← List.foldl_append, ← List.filter_append]
  rfl

/-- The families that are resolved have loopback addresses, and prefer them. -/
theorem preferredCandidates_eq {family : CInt}
    (hfamily : family = AF_UNSPEC ∨ family = AF_INET ∨ family = AF_INET6) :
    preferredCandidates family = some (loopbacks family) ∧ loopbacks family ≠ [] ∧
      (loopbacks family).Nodup := by
  rcases hfamily with rfl | rfl | rfl <;> decide

/-- Keeping the elements that a list holds. -/
theorem foldl_keep (candidates preferred kept : List AddressCandidate) :
    preferred.foldl
      (fun reordered candidate =>
        if candidate ∈ candidates then reordered ++ [candidate] else reordered) kept =
      kept ++ preferred.filter (· ∈ candidates) := by
  induction preferred generalizing kept with
  | nil => exact (List.append_nil kept).symm
  | cons candidate preferred ih =>
    rw [List.foldl_cons, ih]
    by_cases hmem : candidate ∈ candidates
    · rw [if_pos hmem, List.filter_cons_of_pos (by simpa using hmem), List.append_assoc]
      rfl
    · rw [if_neg hmem, List.filter_cons_of_neg (by simpa using hmem)]

/-- Falling back and reordering puts the loopback addresses before the others. -/
theorem reorderLocalhostCandidates_eq {nodeText : List Char} {family : CInt}
    (hlocal : isLocalhostName nodeText = true)
    (hfamily : family = AF_UNSPEC ∨ family = AF_INET ∨ family = AF_INET6)
    {listed : List AddressCandidate} (hlisted : listed.Nodup) :
    reorderLocalhostCandidates nodeText family
        (appendLocalhostFallback nodeText family listed) =
      loopbacks family ++ listed.filter (· ∉ loopbacks family) := by
  have hpreferred := preferredCandidates_eq hfamily
  rw [appendLocalhostFallback_eq hlocal]
  generalize loopbacks family = first at hpreferred ⊢
  have hmem : ∀ candidate ∈ first, candidate ∈ first.foldl pushUnique listed := by
    intro candidate hcandidate
    rw [foldl_pushUnique, List.mem_append, List.mem_eraseDups, List.mem_filter]
    by_cases hold : candidate ∈ listed
    · exact Or.inl hold
    · exact Or.inr ⟨hcandidate, by simpa using hold⟩
  have hothers : (first.foldl pushUnique listed).filter (· ∉ first) =
      listed.filter (· ∉ first) := by
    rw [foldl_pushUnique, List.filter_append]
    have hnone : ((first.filter (· ∉ listed)).eraseDups).filter (· ∉ first) = [] := by
      rw [List.filter_eq_nil_iff]
      intro candidate hcandidate
      rw [List.mem_eraseDups, List.mem_filter] at hcandidate
      simpa using hcandidate.1
    rw [hnone, List.append_nil]
  have hnodup := foldl_pushUnique_nodup hlisted first
  generalize first.foldl pushUnique listed = candidates at hmem hothers hnodup ⊢
  unfold reorderLocalhostCandidates
  split
  · rename_i hshort
    have hshort : candidates.length < 2 := hshort.resolve_left (not_not.mpr hlocal)
    rw [← hothers]
    -- One candidate: it is the only loopback address.
    cases candidates with
    | nil =>
      cases first with
      | nil => exact absurd rfl hpreferred.2.1
      | cons candidate rest => exact absurd (hmem candidate List.mem_cons_self) List.not_mem_nil
    | cons candidate rest =>
      have hrest : rest = [] := by
        cases rest with
        | nil => rfl
        | cons next rest =>
          rw [List.length_cons, List.length_cons] at hshort
          omega
      have hfirst : first = [candidate] := by
        rw [hrest] at hmem
        cases first with
        | nil => exact absurd rfl hpreferred.2.1
        | cons head tail =>
          have hhead := List.mem_singleton.mp (hmem head List.mem_cons_self)
          have hunique := hpreferred.2.2
          rw [List.nodup_cons] at hunique
          cases tail with
          | nil => rw [hhead]
          | cons next tail =>
            have hnext := List.mem_singleton.mp (hmem next (by simp))
            rw [hhead, hnext] at hunique
            exact absurd List.mem_cons_self hunique.1
      rw [hrest, hfirst]
      simp
  · rw [hpreferred.1]
    dsimp only
    have hall : first.filter (· ∈ candidates) = first := by
      rw [List.filter_eq_self]
      intro candidate hcandidate
      simpa using hmem candidate hcandidate
    rw [foldl_keep, hall, List.nil_append]
    change candidates.foldl pushUnique first = _
    rw [foldl_pushUnique, eraseDups_of_nodup (hnodup.filter _), hothers]

/-! ## The candidates of a name -/

theorem hostAddresses_nodup (ipv6 : Ipv6Text) (hostsFile host : List Char) (family : CInt) :
    (hostAddresses ipv6 hostsFile host family).Nodup := by
  have hlisted := eraseDups_nodup (fileAddresses ipv6 hostsFile host family)
  unfold hostAddresses
  dsimp only
  split
  · rw [List.nodup_append]
    refine ⟨?_, hlisted.filter _, ?_⟩
    · exact List.Nodup.filter _ (by decide)
    · intro a ha b hb hab
      have hnot := (List.mem_filter.mp hb).2
      rw [hab] at ha
      simp [ha] at hnot
  · exact hlisted

/-- The addresses of a name are those that a line gives it, and the loopbacks of `localhost`. -/
theorem mem_hostAddresses {ipv6 : Ipv6Text} {hostsFile host : List Char} {family : CInt}
    {candidate : AddressCandidate} :
    candidate ∈ hostAddresses ipv6 hostsFile host family ↔
      familyAcceptsCandidate family candidate = true ∧
        ((∃ line ∈ lines hostsFile, lineAddress ipv6 host line = some candidate) ∨
          (SameHost host "localhost".toList ∧
            (candidate = .ipv6 in6addrLoopback ∨ candidate = .ipv4 inaddrLoopback))) := by
  have hfile : candidate ∈ (fileAddresses ipv6 hostsFile host family).eraseDups ↔
      (∃ line ∈ lines hostsFile, lineAddress ipv6 host line = some candidate) ∧
        familyAcceptsCandidate family candidate = true := by
    unfold fileAddresses
    rw [List.mem_eraseDups, List.mem_filter, List.mem_filterMap]
  have hloop : candidate ∈ loopbacks family ↔
      (candidate = .ipv6 in6addrLoopback ∨ candidate = .ipv4 inaddrLoopback) ∧
        familyAcceptsCandidate family candidate = true := by
    unfold loopbacks
    rw [List.mem_filter, List.mem_cons, List.mem_singleton]
  unfold hostAddresses
  dsimp only
  split
  · rename_i hlocal
    simp only [List.mem_append, List.mem_filter, hfile, hloop, decide_eq_true_eq, hlocal, true_and]
    by_cases haccepts : familyAcceptsCandidate family candidate = true
    · simp only [haccepts, and_true, true_and]
      rw [or_and_left, or_comm]
      exact and_iff_left (Classical.em _)
    · simp [haccepts]
  · rename_i hother
    rw [hfile, and_comm]
    simp only [hother, false_and, or_false]

theorem resolveHostnameCandidates_eq (ipv6 : Ipv6Text) (hostsFile : List Char)
    {host : List Char} {family : CInt} (hhost : normalizeHostname host ≠ [])
    (hfamily : family = AF_UNSPEC ∨ family = AF_INET ∨ family = AF_INET6) :
    resolveHostnameCandidates ipv6 (some hostsFile) host family =
      if hostAddresses ipv6 hostsFile host family = [] then .error .noName
      else .ok (hostAddresses ipv6 hostsFile host family) := by
  have hlookup := resolveHostsFileCandidates_eq ipv6 hostsFile family hhost
  have hfound : reorderLocalhostCandidates host family (appendLocalhostFallback host family
      (fileAddresses ipv6 hostsFile host family).eraseDups) =
        hostAddresses ipv6 hostsFile host family := by
    have hnormal : normalizeHostname "localhost".toList = "localhost".toList := by decide
    have hsame : SameHost host "localhost".toList ↔ isLocalhostName host = true := by
      unfold SameHost isLocalhostName
      rw [hnormal]
    unfold hostAddresses
    dsimp only
    split
    · rename_i hlocal
      exact reorderLocalhostCandidates_eq (hsame.mp hlocal) hfamily (eraseDups_nodup _)
    · rename_i hother
      have hno : ¬ isLocalhostName host = true := fun h => hother (hsame.mpr h)
      unfold appendLocalhostFallback
      rw [if_pos hno]
      unfold reorderLocalhostCandidates
      rw [if_pos (Or.inl hno)]
  unfold resolveHostnameCandidates resolveHostnameCandidatesWith
  dsimp only
  rw [hlookup, hfound]
  by_cases hnil : hostAddresses ipv6 hostsFile host family = []
  · rw [if_pos hnil, if_neg (not_not.mpr hnil)]
    rfl
  · rw [if_neg hnil, if_pos hnil]

/-- **Candidates.**  For a name and a family, the addresses that the hosts file gives the name are
returned without repetition and in the order of the file, after the loopback addresses for
`localhost`; without any there is no such name. -/
theorem resolveHostnameCandidates_contract (ipv6 : Ipv6Text) (hostsFile : List Char)
    {host : List Char} {family : CInt} (hhost : normalizeHostname host ≠ [])
    (hfamily : family = AF_UNSPEC ∨ family = AF_INET ∨ family = AF_INET6) :
    (hostAddresses ipv6 hostsFile host family).Nodup ∧
      (∀ candidate, candidate ∈ hostAddresses ipv6 hostsFile host family ↔
        familyAcceptsCandidate family candidate = true ∧
          ((∃ line ∈ lines hostsFile, lineAddress ipv6 host line = some candidate) ∨
            (SameHost host "localhost".toList ∧
              (candidate = .ipv6 in6addrLoopback ∨ candidate = .ipv4 inaddrLoopback)))) ∧
      resolveHostnameCandidates ipv6 (some hostsFile) host family =
        if hostAddresses ipv6 hostsFile host family = [] then .error .noName
        else .ok (hostAddresses ipv6 hostsFile host family) :=
  ⟨hostAddresses_nodup ipv6 hostsFile host family, fun _ => mem_hostAddresses,
    resolveHostnameCandidates_eq ipv6 hostsFile hhost hfamily⟩

/-- A parser of IPv6 addresses that knows one of them. -/
def loopbackText : Ipv6Text where
  toText := fun _ => strBytes "::1".toList
  fromStr := fun text => if text = strBytes "::1".toList then some in6addrLoopback else none

/-- Aliases, comments, a trailing dot and the loopback addresses. -/
theorem resolveHostnameCandidates_contract_localhost :
    resolveHostnameCandidates loopbackText
        (some "10.0.0.1 gw LocalHost # lan\n127.0.0.1 localhost.\n10.0.0.2 other\n".toList)
        "localhost".toList AF_UNSPEC =
      .ok [.ipv6 in6addrLoopback, .ipv4 inaddrLoopback, .ipv4 #v[10, 0, 0, 1]] := by
  rw [(resolveHostnameCandidates_contract loopbackText
    "10.0.0.1 gw LocalHost # lan\n127.0.0.1 localhost.\n10.0.0.2 other\n".toList
    (show normalizeHostname "localhost".toList ≠ [] by decide) (Or.inl rfl)).2.2]
  decide +kernel

end Rlibc.Netdb
