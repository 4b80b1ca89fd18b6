import Rlibc.Netdb.Resolver

/-!
# The byte order of `sin_addr`

`getaddrinfo` stores the number of an IPv4 address with `u32::from_be_bytes`, and `getnameinfo`
prints the number it reads with `to_be_bytes`.  Both go through a little-endian word, so they
agree with each other and not with the wire: the bytes of `sin_addr` are the octets reversed.
-/

namespace Rlibc.Netdb

open ByteMem ByteOrder

/-- The bytes of `sin_addr` in a `sockaddr_in`. -/
def sinAddrBytes (bytes : List UInt8) : List UInt8 := (bytes.drop 4).take 4

/-- The octets read the same from both ends. -/
def Palindromic (octets : Ipv4Octets) : Prop :=
  octets.get 0 = octets.get 3 ∧ octets.get 1 = octets.get 2

instance (octets : Ipv4Octets) : Decidable (Palindromic octets) :=
  inferInstanceAs (Decidable (_ ∧ _))

/-- The octets are their own reverse exactly when they are a palindrome. -/
theorem reverse_octets (octets : Ipv4Octets) :
    octets.reverse = octets ↔ Palindromic octets := by
  show octets.reverse = octets ↔ octets[0] = octets[3] ∧ octets[1] = octets[2]
  rw [← Vector.toList_inj, Vector.toList_reverse, octets_toList]
  simp only [List.reverse_cons, List.reverse_nil, List.nil_append, List.cons_append,
    List.cons.injEq, and_true]
  constructor
  · exact fun h => ⟨h.1.symm, h.2.1.symm⟩
  · exact fun h => ⟨h.1.symm, h.2.symm, h.2, h.1⟩

/-! ## Storing -/

/-- What `allocate_ipv4_sockaddr` stores. -/
theorem sinAddrBytes_allocate (octets : Ipv4Octets) (port : Nat) :
    sinAddrBytes (allocateIpv4Sockaddr octets port) = octets.reverse.toList := by
  have hstore := leBytes_ofBeBytes octets.toList
  rw [Vector.length_toList, ← Vector.toList_reverse] at hstore
  unfold sinAddrBytes allocateIpv4Sockaddr SockaddrIn.bytes
  dsimp only
  rw [hstore, List.append_assoc (_ ++ _), List.drop_left' (by simp), List.take_left' (by simp)]

/-- The result for a numeric IPv4 node is one node for that address. -/
theorem getaddrinfo_ipv4 {db : Databases} {m : Mem} {node service res : Nat}
    {hints : Option Hints} {nodes : List Addrinfo} {octets : Ipv4Octets} (hnode : node ≠ 0)
    (hparse : parseNumericHostText db.ipv6 (cStr m node) = some (.ipv4 octets))
    (hok : getaddrinfo db m node service hints res = .ok nodes) :
    ∃ port flags socktype protocol,
      nodes = [allocateAddrinfoNode (.ipv4 octets) port flags socktype protocol] := by
  cases getaddrinfo_eq_ok hok with
  | intro parts h =>
    have hcandidates := h.candidates
    unfold resolveNodeCandidates at hcandidates
    rw [if_neg hnode, hparse] at hcandidates
    split at hcandidates
    · cases hcandidates
    split at hcandidates
    · cases hcandidates
    dsimp only [resolveCandidates] at hcandidates
    split at hcandidates
    · rw [h.nodes, ← Except.ok.inj hcandidates]
      exact ⟨_, _, _, _, rfl⟩
    · cases hcandidates

/-! ## Printing -/

/-- What `format_numeric_ipv4` prints for the octets that stand in memory. -/
theorem formatNumericIpv4_octets {m : Mem} {a : Nat} {octets : Ipv4Octets}
    (h : HoldsAt m a octets.toList) :
    formatNumericIpv4 (natAt m 4 a) = ipv4ToString octets.reverse.toList := by
  have hread := natAt_eq_ofLeBytes h
  have hbytes := beBytes_ofLeBytes octets.toList
  rw [Vector.length_toList] at hread hbytes
  rw [← Vector.toList_reverse] at hbytes
  unfold formatNumericIpv4
  rw [hread, hbytes]

/-- The host text of an IPv4 address. -/
theorem getnameinfo_ipv4 {ipv6 : Ipv6Text} {m : Mem}
    {addr addrlen host hostlen serv servlen : Nat} {flags : CInt} {octets : Ipv4Octets}
    (hfamily : natAt m 2 addr = AF_INET.toNat) (haddr : HoldsAt m (addr + 4) octets.toList)
    (hhost : host ≠ 0) (hapart : BuffersApart host hostlen serv servlen)
    (hok : (getnameinfo ipv6 m addr addrlen host hostlen serv servlen flags).1 = none) :
    HoldsAt (getnameinfo ipv6 m addr addrlen host hostlen serv servlen flags).2 host
      (ipv4ToString octets.reverse.toList ++ [0]) := by
  obtain ⟨hostOutput, serviceOutput, hformat, hhostFits, hservFits, hmem⟩ :=
    getnameinfo_eq_none hok
  rw [hmem]
  unfold formatAddress at hformat
  dsimp only at hformat
  rw [if_pos hfamily] at hformat
  split at hformat
  · cases hformat
  unfold outputs at hformat
  split at hformat
  · cases hformat
  rw [if_pos (decide_eq_true hhost), formatNumericIpv4_octets haddr] at hformat
  have htexts := Prod.mk.inj (Except.ok.inj hformat)
  rw [← htexts.1] at hhostFits ⊢
  apply holdsAt_outputs m hhostFits hservFits
  cases hapart with
  | inl hserv =>
    apply Or.inl
    rw [← htexts.2, hserv]
    rfl
  | inr hapart => exact Or.inr hapart

/-- Two texts that end with the first NUL at the same place are the same. -/
theorem holdsAt_unique {m : Mem} {a : Nat} {xs ys : List UInt8} (hx : HoldsAt m a (xs ++ [0]))
    (hy : HoldsAt m a (ys ++ [0])) (hxs : 0 ∉ xs) (hys : 0 ∉ ys) : xs = ys := by
  have hleft := untilNul_of_holdsAt hx hxs (show xs.length < xs.length + ys.length + 1 by omega)
  have hright := untilNul_of_holdsAt hy hys (show ys.length < xs.length + ys.length + 1 by omega)
  exact hleft.symm.trans hright

/-- A printed address is made of digits and dots. -/
theorem mem_ipv4ToString {octets : List UInt8} {c : UInt8} (h : c ∈ ipv4ToString octets) :
    46 ≤ c.toNat ∧ c.toNat ≤ 57 := by
  induction octets with
  | nil => exact absurd h List.not_mem_nil
  | cons octet octets ih =>
    cases octets with
    | nil =>
      have hmem : c ∈ decimal octet.toNat := by simpa [ipv4ToString, List.intercalate] using h
      have hdigit := mem_decimal hmem
      omega
    | cons next octets =>
      unfold ipv4ToString at h ih
      rw [List.map_cons, List.map_cons, List.intercalate_cons_cons, List.mem_append,
        List.mem_append, List.mem_singleton] at h
      rcases h with (h | h) | h
      · have hdigit := mem_decimal h
        omega
      · rw [h]
        decide
      · rw [List.map_cons] at ih
        exact ih h

theorem zero_notMem_ipv4ToString (octets : List UInt8) : 0 ∉ ipv4ToString octets :=
  fun h => absurd (mem_ipv4ToString h).1 (by decide)

/-- The printed text is that of the octets exactly when they are a palindrome. -/
theorem printed_iff {m : Mem} {host : Nat} {octets : Ipv4Octets}
    (h : HoldsAt m host (ipv4ToString octets.reverse.toList ++ [0])) :
    HoldsAt m host (ipv4ToString octets.toList ++ [0]) ↔ Palindromic octets := by
  rw [← reverse_octets]
  constructor
  · intro hsame
    have htexts := holdsAt_unique h hsame (zero_notMem_ipv4ToString _) (zero_notMem_ipv4ToString _)
    exact ipv4ToString_injective htexts
  · intro hrev
    rwa [hrev] at h

/-- **The wire order of IPv4 addresses.**  The bytes of `sin_addr` that `getaddrinfo` returns for a
numeric IPv4 node are its octets, and the host that `getnameinfo` prints for the bytes of a
`sin_addr` is their dotted quad, exactly when the octets are a palindrome. -/
theorem sin_addr_order (db : Databases) (m : Mem) (octets : Ipv4Octets) :
    (∀ node service hints res nodes, node ≠ 0 →
      parseNumericHostText db.ipv6 (cStr m node) = some (.ipv4 octets) →
      getaddrinfo db m node service hints res = .ok nodes →
      ∃ entry, nodes = [entry] ∧
        (sinAddrBytes entry.aiAddr = octets.toList ↔ Palindromic octets)) ∧
    (∀ addr addrlen host hostlen serv servlen flags, natAt m 2 addr = AF_INET.toNat →
      HoldsAt m (addr + 4) octets.toList → host ≠ 0 → BuffersApart host hostlen serv servlen →
      (getnameinfo db.ipv6 m addr addrlen host hostlen serv servlen flags).1 = none →
      (HoldsAt (getnameinfo db.ipv6 m addr addrlen host hostlen serv servlen flags).2 host
        (ipv4ToString octets.toList ++ [0]) ↔ Palindromic octets)) := by
  constructor
  · intro node service hints res nodes hnode hparse hok
    cases getaddrinfo_ipv4 hnode hparse hok with
    | intro port h =>
      obtain ⟨flags, socktype, protocol, hnodes⟩ := h
      refine ⟨_, hnodes, ?_⟩
      show sinAddrBytes (allocateIpv4Sockaddr octets port) = octets.toList ↔ Palindromic octets
      rw [sinAddrBytes_allocate, Vector.toList_inj, reverse_octets]
  · intro addr addrlen host hostlen serv servlen flags hfamily haddr hhost hapart hok
    exact printed_iff (getnameinfo_ipv4 hfamily haddr hhost hapart hok)

/-! ## The loopback address -/

/-- No name is known, and no text is an IPv6 address. -/
def numericOnly : Databases where
  ipv6 := ⟨fun _ => [], fun _ => none⟩
  hostname := fun _ _ => .error .noName
  serviceName := fun _ _ => none

/-- `"127.0.0.1"` at 64, `"1.2.2.1"` at 96, and a `sockaddr_in` with each of them at 128 and 160. -/
def loopbackMem : Mem :=
  writeBytes (writeBytes (writeBytes (writeBytes (fun _ => 0) 64 (ipv4ToString [127, 0, 0, 1]))
    96 (ipv4ToString [1, 2, 2, 1])) 128 [2, 0, 0, 80, 127, 0, 0, 1])
    160 [2, 0, 0, 80, 1, 2, 2, 1]

theorem sin_addr_order_palindrome :
    sinAddrBytes (allocateIpv4Sockaddr #v[1, 2, 2, 1] 0) = [1, 2, 2, 1] ∧
    HoldsAt (getnameinfo numericOnly.ipv6 loopbackMem 160 16 512 64 0 0 NI_NUMERICHOST).2 512
      (ipv4ToString [1, 2, 2, 1] ++ [0]) := by
  constructor
  · obtain ⟨entry, hentry, hiff⟩ :=
      (sin_addr_order numericOnly loopbackMem #v[1, 2, 2, 1]).1 96 0 none 8
        [allocateAddrinfoNode (.ipv4 #v[1, 2, 2, 1]) 0 0 SOCK_STREAM IPPROTO_TCP]
        (by decide) (by decide +kernel) rfl
    have hsame := hiff.mpr (by decide)
    rw [← List.singleton_inj.mp hentry] at hsame
    exact hsame
  · exact ((sin_addr_order numericOnly loopbackMem #v[1, 2, 2, 1]).2 160 16 512 64 0 0
      NI_NUMERICHOST (by decide +kernel) (by decide +kernel) (by decide) (Or.inl rfl)
      (by decide +kernel)).mpr (by decide)

/-- `127.0.0.1` is stored as the bytes 1, 0, 0, 127, and the bytes 127, 0, 0, 1 do not print as
`127.0.0.1`. -/
theorem loopback_reversed :
    (∃ entry, getaddrinfo numericOnly loopbackMem 64 0 none 8 = .ok [entry] ∧
      parseNumericHostText numericOnly.ipv6 (cStr loopbackMem 64) = some (.ipv4 #v[127, 0, 0, 1]) ∧
      sinAddrBytes entry.aiAddr = [1, 0, 0, 127] ∧ sinAddrBytes entry.aiAddr ≠ [127, 0, 0, 1]) ∧
    (getnameinfo numericOnly.ipv6 loopbackMem 128 16 512 64 0 0 NI_NUMERICHOST).1 = none ∧
    HoldsAt loopbackMem (128 + 4) [127, 0, 0, 1] ∧
    ¬ HoldsAt (getnameinfo numericOnly.ipv6 loopbackMem 128 16 512 64 0 0 NI_NUMERICHOST).2 512
      (ipv4ToString [127, 0, 0, 1] ++ [0]) := by
  constructor
  · exact ⟨allocateAddrinfoNode (.ipv4 #v[127, 0, 0, 1]) 0 0 SOCK_STREAM IPPROTO_TCP, rfl,
      by decide +kernel, by decide +kernel, by decide +kernel⟩
  · exact ⟨by decide +kernel, by decide +kernel, by decide +kernel⟩

end Rlibc.Netdb
