import Rlibc.Netdb.WireOrder

/-!
# Numeric names lead back to their address

`getnameinfo` with both numeric flags prints a host and a port, and `getaddrinfo` with both
numeric flags reads them back to one node with the same address, family and port.  For an IPv6
address the printing and the parsing are the standard library's.
-/

namespace Rlibc.Netdb

open ByteMem ByteOrder

/-- What is documented of the printed form of an IPv6 address: it parses back, it has a colon,
and it is made of ASCII characters other than NUL. -/
structure Ipv6Text.Documented (t : Ipv6Text) : Prop where
  inverse : ∀ a, t.fromStr (t.toText a) = some a
  colon : ∀ a, colon ∈ t.toText a
  ascii : ∀ a, ∀ c ∈ t.toText a, c ≠ 0 ∧ c < 0x80

/-- An address of one of the two families with its port, both in network byte order. -/
inductive Endpoint where
  | inet (port : Vector UInt8 2) (address : Ipv4Octets)
  | inet6 (port : Vector UInt8 2) (address : Ipv6Octets)

def Endpoint.family : Endpoint → CInt
  | inet _ _ => AF_INET
  | inet6 _ _ => AF_INET6

/-- `size_of` of its socket address. -/
def Endpoint.size : Endpoint → Nat
  | inet _ _ => sockaddrInSize
  | inet6 _ _ => sockaddrIn6Size

/-- The bytes are those of a socket address of this endpoint, with scope 0. -/
def Endpoint.IsBytes : Endpoint → List UInt8 → Prop
  | inet port address, bytes => ∃ zero, zero.length = 8 ∧
    bytes = leBytes 2 AF_INET.toNat ++ port.toList ++ address.toList ++ zero
  | inet6 port address, bytes => ∃ flowinfo, flowinfo.length = 4 ∧
    bytes = leBytes 2 AF_INET6.toNat ++ port.toList ++ flowinfo ++ address.toList ++ [0, 0, 0, 0]

/-- The host text of an endpoint. -/
def Endpoint.hostText (t : Ipv6Text) : Endpoint → List UInt8
  | inet _ address => ipv4ToString address.reverse.toList
  | inet6 _ address => t.toText address

/-- The port in host byte order. -/
def Endpoint.portNumber : Endpoint → Nat
  | inet port _ => ofBeBytes port.toList
  | inet6 port _ => ofBeBytes port.toList

/-! ## Printing -/

theorem ofBeBytes_lt (port : Vector UInt8 2) : ofBeBytes port.toList ≤ 0xffff := by
  have hlt : ∀ bs : List UInt8, ofLeBytes bs < 256 ^ bs.length := by
    intro bs
    induction bs with
    | nil => exact Nat.one_pos
    | cons b bs ih =>
      have hb := b.toNat_lt
      rw [ofLeBytes, List.length_cons, pow_succ]
      omega
  have hport := hlt port.toList.reverse
  rw [List.length_reverse, Vector.length_toList] at hport
  exact Nat.le_of_lt_succ hport

/-- The port of a socket address in memory, in host byte order. -/
theorem toBe16_natAt {m : Mem} {a : Nat} {port : Vector UInt8 2} (h : HoldsAt m a port.toList) :
    toBe16 (natAt m 2 a) = ofBeBytes port.toList := by
  have hread := natAt_eq_ofLeBytes h
  have hbytes := leBytes_ofLeBytes port.toList
  rw [Vector.length_toList] at hread hbytes
  unfold toBe16
  rw [hread, hbytes]

theorem natAt_family {m : Mem} {a v : Nat} (hv : v < 256 ^ 2) (h : HoldsAt m a (leBytes 2 v)) :
    natAt m 2 a = v := by
  have hread := natAt_eq_ofLeBytes h
  rwa [leBytes_length, ofLeBytes_leBytes hv] at hread

theorem octets6At_eq {m : Mem} {a : Nat} {address : Ipv6Octets}
    (h : HoldsAt m a address.toList) : octets6At m a = address := by
  have hbytes := bytesAt_eq h
  rw [Vector.length_toList] at hbytes
  apply Vector.toList_inj.mp
  unfold octets6At
  exact hbytes

theorem outputs_numeric {host service : List UInt8} {flags : CInt}
    (hnumeric : flags &&& NI_NUMERICHOST ≠ 0) :
    outputs host service flags true true = .ok (some host, some service) := by
  have hreject : ¬ (true = true ∧ shouldRejectNameRequiredWithoutNumericHost flags = true) := by
    unfold shouldRejectNameRequiredWithoutNumericHost
    rw [decide_eq_true_iff]
    exact fun h => hnumeric h.2.2
  unfold outputs
  rw [if_neg hreject]
  rfl

/-- The texts of an endpoint that stands in memory. -/
theorem Endpoint.formatAddress {t : Ipv6Text} {m : Mem} {addr addrlen : Nat} {flags : CInt}
    (e : Endpoint) {bytes : List UInt8} (hbytes : e.IsBytes bytes) (hmem : HoldsAt m addr bytes)
    (hlen : e.size ≤ addrlen) (hnumeric : flags &&& NI_NUMERICHOST ≠ 0) :
    Netdb.formatAddress t m addr addrlen flags true true =
      .ok (some (e.hostText t), some (decimal e.portNumber)) := by
  -- The family is read first, then the port and the address at the offsets of its structure.
  cases e with
  | inet port address =>
    obtain ⟨zero, _, hbytes⟩ := hbytes
    rw [hbytes, holdsAt_append, holdsAt_append, holdsAt_append] at hmem
    have hfamily := natAt_family (by decide) hmem.1.1.1
    have hport := toBe16_natAt hmem.1.1.2
    have haddress := formatNumericIpv4_octets hmem.1.2
    rw [List.length_append, leBytes_length, Vector.length_toList] at haddress
    rw [leBytes_length] at hport
    unfold Netdb.formatAddress
    dsimp only
    rw [if_pos hfamily, if_neg (show ¬ addrlen < sockaddrInSize from Nat.not_lt.mpr hlen),
      outputs_numeric hnumeric, haddress]
    unfold formatNumericService
    rw [hport]
    rfl
  | inet6 port address =>
    obtain ⟨flowinfo, hflow, hbytes⟩ := hbytes
    rw [hbytes, holdsAt_append, holdsAt_append, holdsAt_append, holdsAt_append] at hmem
    have hfamily := natAt_family (by decide) hmem.1.1.1.1
    have hport := toBe16_natAt hmem.1.1.1.2
    have haddress := octets6At_eq hmem.1.2
    rw [List.length_append, List.length_append, leBytes_length, Vector.length_toList, hflow]
      at haddress
    rw [leBytes_length] at hport
    have hnotInet : ¬ natAt m 2 addr = AF_INET.toNat := by
      rw [hfamily]
      decide
    unfold Netdb.formatAddress
    dsimp only
    rw [if_neg hnotInet, if_pos hfamily,
      if_neg (show ¬ addrlen < sockaddrIn6Size from Nat.not_lt.mpr hlen), outputs_numeric hnumeric,
      haddress]
    unfold formatNumericService
    rw [hport]
    rfl

/-! ## Reading -/

theorem isUtf8_ascii {text : List UInt8} (h : ∀ c ∈ text, c < 0x80) : isUtf8 text = true := by
  induction text with
  | nil => rfl
  | cons c cs ih =>
    rw [isUtf8.eq_def]
    dsimp only
    rw [if_pos (h c List.mem_cons_self)]
    exact ih fun d hd => h d (List.mem_cons_of_mem c hd)

/-- What a host text must be for `getaddrinfo` to take it for its address. -/
structure HostText (t : Ipv6Text) (text : List UInt8) (candidate : AddressCandidate) : Prop where
  parse : parseNumericHostText t text = some candidate
  ne_nil : text ≠ []
  nul : 0 ∉ text
  utf8 : isUtf8 text = true

/-- The address that the host text of an endpoint is read as. -/
def Endpoint.candidate : Endpoint → AddressCandidate
  | inet _ address => .ipv4 address.reverse
  | inet6 _ address => .ipv6 address

theorem Endpoint.hostText_spec {t : Ipv6Text} (ht : t.Documented) (e : Endpoint) :
    HostText t (e.hostText t) e.candidate := by
  cases e with
  | inet port address =>
    have hread := ipv4FromStr_toString address.reverse
    constructor
    · show parseNumericHostText t (ipv4ToString address.reverse.toList) = some (.ipv4 address.reverse)
      unfold parseNumericHostText
      rw [hread]
      rfl
    · intro hnil
      change ipv4ToString address.reverse.toList = [] at hnil
      rw [hnil] at hread
      cases hread
    · exact zero_notMem_ipv4ToString _
    · apply isUtf8_ascii
      intro c hc
      have hrange := mem_ipv4ToString hc
      rw [UInt8.lt_iff_toNat_lt]
      exact Nat.lt_of_le_of_lt hrange.2 (by decide)
  | inet6 port address =>
    have hcolon := ht.colon address
    constructor
    · show parseNumericHostText t (t.toText address) = some (.ipv6 address)
      unfold parseNumericHostText
      rw [ipv4FromStr_colon hcolon, parseIpv4LegacyText_colon hcolon, ht.inverse]
      rfl
    · exact List.ne_nil_of_mem hcolon
    · exact fun hnul => (ht.ascii address 0 hnul).1 rfl
    · exact isUtf8_ascii fun c hc => (ht.ascii address c hc).2

/-- A node for the candidate is a socket address of the endpoint. -/
theorem Endpoint.allocate_isBytes (e : Endpoint) (flags socktype protocol : CInt) :
    (allocateAddrinfoNode e.candidate e.portNumber flags socktype protocol).aiFamily = e.family ∧
      e.IsBytes (allocateAddrinfoNode e.candidate e.portNumber flags socktype protocol).aiAddr := by
  have hport : ∀ port : Vector UInt8 2, leBytes 2 (toBe16 (ofBeBytes port.toList)) =
      port.toList := by
    intro port
    have hback := leBytes_ofBeBytes port.toList
    rw [Vector.length_toList] at hback
    have hagain := leBytes_ofBeBytes port.toList.reverse
    rw [List.length_reverse, Vector.length_toList, List.reverse_reverse] at hagain
    unfold toBe16
    rw [hback, hagain]
  cases e with
  | inet port address =>
    have haddress := leBytes_ofBeBytes address.reverse.toList
    rw [Vector.length_toList, Vector.toList_reverse, List.reverse_reverse] at haddress
    refine ⟨rfl, List.replicate 8 0, List.length_replicate, ?_⟩
    show SockaddrIn.bytes ⟨_, toBe16 (ofBeBytes port.toList), ofBeBytes address.reverse.toList, _⟩ = _
    unfold SockaddrIn.bytes
    dsimp only
    rw [hport, Vector.toList_reverse, haddress]
  | inet6 port address =>
    refine ⟨rfl, leBytes 4 0, leBytes_length 4 0, ?_⟩
    show SockaddrIn6.bytes ⟨_, toBe16 (ofBeBytes port.toList), 0, address, 0⟩ = _
    unfold SockaddrIn6.bytes
    dsimp only
    rw [hport]
    rfl

/-- `getaddrinfo` reads the texts of an endpoint back to one node for it. -/
theorem Endpoint.getaddrinfo {db : Databases} {m : Mem} {node service res : Nat}
    (e : Endpoint) {text : List UInt8} (hres : res ≠ 0) (hnode : node ≠ 0) (hservice : service ≠ 0)
    (hhost : HostText db.ipv6 text e.candidate) (hport : e.portNumber ≤ 0xffff)
    (hnodeText : cStr m node = text) (hserviceText : cStr m service = decimal e.portNumber)
    {socktype protocol : CInt} {profile : CInt × CInt}
    (hprofile : resolveSocketProfile socktype protocol = .ok profile) :
    Netdb.getaddrinfo db m node service
        (some ⟨AI_NUMERICHOST ||| AI_NUMERICSERV, e.family, socktype, protocol⟩) res =
      .ok [allocateAddrinfoNode e.candidate e.portNumber (AI_NUMERICHOST ||| AI_NUMERICSERV)
        profile.1 profile.2] := by
  have hfamily : resolveFamily e.family = .ok e.family := by
    cases e with
    | inet port address => rfl
    | inet6 port address => rfl
  have hcandidates : resolveCandidates (some e.candidate) e.family
      (AI_NUMERICHOST ||| AI_NUMERICSERV) = .ok [e.candidate] := by
    cases e with
    | inet port address => rfl
    | inet6 port address => rfl
  have hservicePort : parseServicePort db m service (AI_NUMERICHOST ||| AI_NUMERICSERV) profile.2 =
      .ok e.portNumber := by
    unfold parseServicePort
    rw [if_neg hservice, hserviceText, parseNumericService_decimal hport]
  have hnodeCandidates : resolveNodeCandidates db m node e.family
      (AI_NUMERICHOST ||| AI_NUMERICSERV) = .ok [e.candidate] := by
    unfold resolveNodeCandidates
    rw [if_neg hnode, hnodeText, if_neg (not_not.mpr hhost.utf8), if_neg hhost.ne_nil, hhost.parse]
    exact hcandidates
  unfold Netdb.getaddrinfo
  rw [if_neg hres, if_neg (fun h => hnode h.1)]
  dsimp only [Option.getD_some]
  rw [if_neg (by decide), hfamily, hprofile]
  simp only [bind, Except.bind, hservicePort, hnodeCandidates]
  rfl

/-- **Numeric names lead back to their address.**  For a socket address of any endpoint in memory
and buffers that the texts fit, `getnameinfo` with both numeric flags writes two strings, and
`getaddrinfo` reads them back to one node for the endpoint; and no failing `getnameinfo` writes to
memory. -/
theorem numeric_round_trip (db : Databases) (ht : db.ipv6.Documented) (m : Mem) :
    (∀ (e : Endpoint) bytes addr addrlen host hostlen serv servlen res socktype protocol profile,
      e.IsBytes bytes → HoldsAt m addr bytes → addr ≠ 0 → e.size ≤ addrlen →
      host ≠ 0 → serv ≠ 0 → res ≠ 0 → host + hostlen ≤ serv ∨ serv + servlen ≤ host →
      host + hostlen ≤ 0x10000000000000000 → serv + servlen ≤ 0x10000000000000000 →
      (e.hostText db.ipv6).length < hostlen → (decimal e.portNumber).length < servlen →
      resolveSocketProfile socktype protocol = .ok profile →
      ∃ m', getnameinfo db.ipv6 m addr addrlen host hostlen serv servlen
          (NI_NUMERICHOST ||| NI_NUMERICSERV) = (none, m') ∧
        HoldsAt m' host (e.hostText db.ipv6 ++ [0]) ∧
        HoldsAt m' serv (decimal e.portNumber ++ [0]) ∧
        ∃ node, Netdb.getaddrinfo db m' host serv
            (some ⟨AI_NUMERICHOST ||| AI_NUMERICSERV, e.family, socktype, protocol⟩) res =
          .ok [node] ∧ node.aiFamily = e.family ∧ e.IsBytes node.aiAddr) ∧
    (∀ addr addrlen host hostlen serv servlen flags,
      (getnameinfo db.ipv6 m addr addrlen host hostlen serv servlen flags).1 ≠ none →
      (getnameinfo db.ipv6 m addr addrlen host hostlen serv servlen flags).2 = m) := by
  constructor
  · intro e bytes addr addrlen host hostlen serv servlen res socktype protocol profile hbytes hmem
      haddr hlen hhost hserv hres hapart hhostEnd hservEnd hhostFits hservFits hprofile
    -- Each check of `getnameinfo` passes, so it formats the two strings.
    have hsize : sockaddrSize ≤ addrlen := by
      cases e with
      | inet port address => exact hlen
      | inet6 port address => exact Nat.le_trans (show 16 ≤ 28 by decide) hlen
    have hrequest : NameRequest addr addrlen host hostlen serv servlen
        (NI_NUMERICHOST ||| NI_NUMERICSERV) :=
      { flags := by decide
        wants := Or.inl hhost
        hostlen := fun _ h => by omega
        servlen := fun _ h => by omega
        addr := haddr
        addrlen := hsize }
    have hformat : Netdb.formatAddress db.ipv6 m addr addrlen (NI_NUMERICHOST ||| NI_NUMERICSERV)
        (decide (host ≠ 0)) (decide (serv ≠ 0)) =
        .ok (some (e.hostText db.ipv6), some (decimal e.portNumber)) := by
      rw [decide_eq_true hhost, decide_eq_true hserv]
      exact e.formatAddress hbytes hmem hlen (by decide)
    have hhostFit := tooLong_of_lt hhostFits
    have hservFit := tooLong_of_lt hservFits
    have hspec := e.hostText_spec ht
    have hport : e.portNumber ≤ 0xffff := by
      cases e with
      | inet port address => exact ofBeBytes_lt port
      | inet6 port address => exact ofBeBytes_lt port
    have hdecimal : 0 ∉ decimal e.portNumber := fun h => absurd (mem_decimal h).1 (by decide)
    -- The service is written after the host and leaves it as it is.
    have hhostText := holdsAt_outputs m hhostFit hservFit (Or.inr hapart)
    have hservText := holdsAt_writeBytes (writeOutputString m host (some (e.hostText db.ipv6))) serv
      (decimal e.portNumber ++ [0])
    -- What `getaddrinfo` reads back is the text up to its terminator.
    have hnode := untilNul_of_holdsAt hhostText hspec.nul
      (show (e.hostText db.ipv6).length < 0x10000000000000000 - host by omega)
    have hservice := untilNul_of_holdsAt hservText hdecimal
      (show (decimal e.portNumber).length < 0x10000000000000000 - serv by omega)
    refine ⟨_, hrequest.getnameinfo hformat hhostFit hservFit, hhostText, hservText, _,
      e.getaddrinfo hres hhost hserv hspec hport hnode hservice hprofile, ?_⟩
    exact e.allocate_isBytes _ _ _
  · intro addr addrlen host hostlen serv servlen flags herror
    exact getnameinfo_error herror

/-! ## A round trip -/

/-- An IPv6 text that spells out every half byte; IPv4 names do not consult it. -/
def halfBytes (b : UInt8) : List UInt8 :=
  [UInt8.ofNat (97 + b.toNat / 16), UInt8.ofNat (97 + b.toNat % 16)]

def ofHalfBytes : List UInt8 → List UInt8
  | high :: low :: rest =>
    UInt8.ofNat ((high.toNat - 97) * 16 + (low.toNat - 97)) :: ofHalfBytes rest
  | _ => []

def spelledText : Ipv6Text where
  toText a := colon :: a.toList.flatMap halfBytes
  fromStr text :=
    if h : (ofHalfBytes text.tail).length = 16 then
      some ⟨(ofHalfBytes text.tail).toArray, by rw [List.size_toArray, h]⟩
    else none

theorem halfBytes_toNat (b : UInt8) :
    (UInt8.ofNat (97 + b.toNat / 16)).toNat = 97 + b.toNat / 16 ∧
      (UInt8.ofNat (97 + b.toNat % 16)).toNat = 97 + b.toNat % 16 := by
  have hb := b.toNat_lt
  rw [UInt8.toNat_ofNat', UInt8.toNat_ofNat']
  omega

theorem ofHalfBytes_flatMap (bs : List UInt8) : ofHalfBytes (bs.flatMap halfBytes) = bs := by
  induction bs with
  | nil => rfl
  | cons b bs ih =>
    have hb := halfBytes_toNat b
    rw [List.flatMap_cons]
    show UInt8.ofNat _ :: ofHalfBytes (bs.flatMap halfBytes) = b :: bs
    rw [ih, hb.1, hb.2, show (97 + b.toNat / 16 - 97) * 16 + (97 + b.toNat % 16 - 97) = b.toNat by
      omega, UInt8.ofNat_toNat]

theorem spelledText_documented : spelledText.Documented where
  inverse a := by
    have hback := ofHalfBytes_flatMap a.toList
    show (if h : (ofHalfBytes (a.toList.flatMap halfBytes)).length = 16 then _ else none) = _
    rw [dif_pos (by rw [hback, Vector.length_toList])]
    apply congrArg some
    apply Vector.toList_inj.mp
    exact hback
  colon a := List.mem_cons_self
  ascii a c hc := by
    rcases List.mem_cons.mp hc with hc | hc
    · rw [hc]
      decide
    · rw [List.mem_flatMap] at hc
      obtain ⟨b, -, hc⟩ := hc
      have hb := halfBytes_toNat b
      have hlt := b.toNat_lt
      rw [ne_eq, ← UInt8.toNat_inj, UInt8.lt_iff_toNat_lt]
      show ¬ c.toNat = 0 ∧ c.toNat < 128
      rcases List.mem_cons.mp hc with hc | hc
      · rw [hc]
        omega
      · rw [List.mem_singleton.mp hc]
        omega

def ipv6Loopback : Ipv6Octets := #v[0, 0, 0, 0, 0, 0, 0, 0, 0, 0, 0, 0, 0, 0, 0, 1]

/-- A `sockaddr_in6` with `::1` at 192 too. -/
def loopbacksMem : Mem :=
  writeBytes loopbackMem 192 ([10, 0, 0, 80, 1, 2, 3, 4] ++ ipv6Loopback.toList ++ [0, 0, 0, 0])

/-- `127.0.0.1` and `::1`, port 80. -/
theorem numeric_round_trip_loopback :
    (∃ m' node, getnameinfo spelledText loopbacksMem 128 16 512 64 1024 32
        (NI_NUMERICHOST ||| NI_NUMERICSERV) = (none, m') ∧
      getaddrinfo { numericOnly with ipv6 := spelledText } m' 512 1024
        (some ⟨AI_NUMERICHOST ||| AI_NUMERICSERV, AF_INET, SOCK_DGRAM, 0⟩) 8 = .ok [node] ∧
      (Endpoint.inet #v[0, 80] #v[127, 0, 0, 1]).IsBytes node.aiAddr) ∧
    ∃ m' node, getnameinfo spelledText loopbacksMem 192 28 512 64 1024 32
        (NI_NUMERICHOST ||| NI_NUMERICSERV) = (none, m') ∧
      getaddrinfo { numericOnly with ipv6 := spelledText } m' 512 1024
        (some ⟨AI_NUMERICHOST ||| AI_NUMERICSERV, AF_INET6, SOCK_DGRAM, 0⟩) 8 = .ok [node] ∧
      (Endpoint.inet6 #v[0, 80] ipv6Loopback).IsBytes node.aiAddr := by
  constructor
  · obtain ⟨m', hname, -, -, node, haddr, -, hbytes⟩ :=
      (numeric_round_trip { numericOnly with ipv6 := spelledText } spelledText_documented
        loopbacksMem).1 (.inet #v[0, 80] #v[127, 0, 0, 1])
        [2, 0, 0, 80, 127, 0, 0, 1, 0, 0, 0, 0, 0, 0, 0, 0] 128 16 512 64 1024 32 8 SOCK_DGRAM 0
        (SOCK_DGRAM, IPPROTO_UDP) ⟨List.replicate 8 0, rfl, rfl⟩ (by decide +kernel) (by decide)
        (by decide) (by decide) (by decide) (by decide) (by decide) (by decide) (by decide)
        (by decide +kernel) (by decide +kernel) rfl
    exact ⟨m', node, hname, haddr, hbytes⟩
  · obtain ⟨m', hname, -, -, node, haddr, -, hbytes⟩ :=
      (numeric_round_trip { numericOnly with ipv6 := spelledText } spelledText_documented
        loopbacksMem).1 (.inet6 #v[0, 80] ipv6Loopback)
        ([10, 0, 0, 80, 1, 2, 3, 4] ++ ipv6Loopback.toList ++ [0, 0, 0, 0])
        192 28 512 64 1024 32 8 SOCK_DGRAM 0
        (SOCK_DGRAM, IPPROTO_UDP) ⟨[1, 2, 3, 4], rfl, rfl⟩ (by decide +kernel) (by decide)
        (by decide) (by decide) (by decide) (by decide) (by decide) (by decide) (by decide)
        (by decide +kernel) (by decide +kernel) rfl
    exact ⟨m', node, hname, haddr, hbytes⟩

end Rlibc.Netdb
