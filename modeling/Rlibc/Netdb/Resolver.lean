import Rlibc.Netdb.NumericText

/-!
# `getaddrinfo` and `getnameinfo`

Socket addresses as the bytes the C structures occupy, the resolution of a node and a service to
a list of `addrinfo` nodes, and the numeric names of a socket address.  Pointers are addresses
and 0 is null.  What `/etc/hosts` and `/etc/services` say about names that are not numeric is the
parameter `Databases`.
-/

namespace Rlibc.Netdb

open ByteMem ByteOrder

abbrev CInt := BitVec 32

abbrev AF_UNSPEC : CInt := 0
abbrev AF_INET : CInt := 2
abbrev AF_INET6 : CInt := 10
abbrev SOCK_STREAM : CInt := 1
abbrev SOCK_DGRAM : CInt := 2
abbrev IPPROTO_TCP : CInt := 6
abbrev IPPROTO_UDP : CInt := 17
abbrev AI_PASSIVE : CInt := 0x0001
abbrev AI_NUMERICHOST : CInt := 0x0004
abbrev AI_NUMERICSERV : CInt := 0x0400
abbrev NI_NUMERICHOST : CInt := 0x01
abbrev NI_NUMERICSERV : CInt := 0x02
abbrev NI_NOFQDN : CInt := 0x04
abbrev NI_NAMEREQD : CInt := 0x08
abbrev NI_DGRAM : CInt := 0x10

/-- The `EAI_*` codes that this module returns. -/
inductive EaiError where
  | badFlags
  | noName
  | fail
  | family
  | sockType
  | service
  | overflow
deriving DecidableEq

/-- The value of a code. -/
def EaiError.code : EaiError → Int
  | badFlags => -1
  | noName => -2
  | fail => -4
  | family => -6
  | sockType => -7
  | service => -8
  | overflow => -12

abbrev ALLOWED_AI_FLAGS : CInt := AI_PASSIVE ||| AI_NUMERICHOST ||| AI_NUMERICSERV

abbrev ALLOWED_NI_FLAGS : CInt :=
  NI_NUMERICHOST ||| NI_NUMERICSERV ||| NI_NOFQDN ||| NI_NAMEREQD ||| NI_DGRAM

/-! ## Structures -/

/-- `u16::to_be` and `u16::from_be` on this little-endian target. -/
def toBe16 (port : Nat) : Nat := ofBeBytes (leBytes 2 port)

/-- `sockaddr_in`. -/
structure SockaddrIn where
  sinFamily : Nat
  sinPort : Nat
  sinAddr : Nat
  sinZero : List UInt8

/-- The bytes of a `sockaddr_in` in memory. -/
def SockaddrIn.bytes (entry : SockaddrIn) : List UInt8 :=
  leBytes 2 entry.sinFamily ++ leBytes 2 entry.sinPort ++ leBytes 4 entry.sinAddr ++ entry.sinZero

/-- `sockaddr_in6`. -/
structure SockaddrIn6 where
  sin6Family : Nat
  sin6Port : Nat
  sin6Flowinfo : Nat
  sin6Addr : Ipv6Octets
  sin6ScopeId : Nat

/-- The bytes of a `sockaddr_in6` in memory. -/
def SockaddrIn6.bytes (entry : SockaddrIn6) : List UInt8 :=
  leBytes 2 entry.sin6Family ++ leBytes 2 entry.sin6Port ++ leBytes 4 entry.sin6Flowinfo ++
    entry.sin6Addr.toList ++ leBytes 4 entry.sin6ScopeId

/-- `size_of::<sockaddr>()`, and of the two structures behind it. -/
abbrev sockaddrSize : Nat := 16
abbrev sockaddrInSize : Nat := 16
abbrev sockaddrIn6Size : Nat := 28

/-- One node of the list that `getaddrinfo` returns; `aiAddr` is what its pointer leads to. -/
structure Addrinfo where
  aiFlags : CInt
  aiFamily : CInt
  aiSocktype : CInt
  aiProtocol : CInt
  aiAddrlen : Nat
  aiAddr : List UInt8

/-- The fields of the hints that are read. -/
structure Hints where
  aiFlags : CInt
  aiFamily : CInt
  aiSocktype : CInt
  aiProtocol : CInt

inductive AddressCandidate where
  | ipv4 (address : Ipv4Octets)
  | ipv6 (address : Ipv6Octets)
deriving DecidableEq

/-- The lookups of names that are not numeric. -/
structure Databases where
  ipv6 : Ipv6Text
  hostname : List UInt8 → CInt → Except EaiError (List AddressCandidate)
  serviceName : List UInt8 → CInt → Option Nat

/-! ## Strings -/

/-- `CStr::from_ptr(pointer).to_bytes()`. -/
def cStr (m : Mem) (a : Nat) : List UInt8 := untilNul m (0x10000000000000000 - a) a

/-- A continuation byte. -/
def isContinuation (c : UInt8) : Bool := 0x80 ≤ c ∧ c ≤ 0xBF

/-- `CStr::to_str` succeeds: the bytes are well-formed UTF-8. -/
def isUtf8 : List UInt8 → Bool
  | [] => true
  | b :: rest =>
    if b < 0x80 then isUtf8 rest
    else
      match rest with
      | [] => false
      | c :: rest =>
        if 0xC2 ≤ b ∧ b ≤ 0xDF then isContinuation c && isUtf8 rest
        else
          match rest with
          | [] => false
          | d :: rest =>
            if 0xE0 ≤ b ∧ b ≤ 0xEF then
              isContinuation c && (b ≠ 0xE0 || 0xA0 ≤ c) && (b ≠ 0xED || c ≤ 0x9F) &&
                isContinuation d && isUtf8 rest
            else
              match rest with
              | [] => false
              | e :: rest =>
                0xF0 ≤ b && b ≤ 0xF4 && isContinuation c && (b ≠ 0xF0 || 0x90 ≤ c) &&
                  (b ≠ 0xF4 || c ≤ 0x8F) && isContinuation d && isContinuation e && isUtf8 rest

/-! ## Resolution -/

def resolveFamily (family : CInt) : Except EaiError CInt :=
  if family = AF_UNSPEC ∨ family = AF_INET ∨ family = AF_INET6 then .ok family else .error .family

def resolveSocketProfile (socktype protocol : CInt) : Except EaiError (CInt × CInt) :=
  if ¬ (socktype = 0 ∨ socktype = SOCK_STREAM ∨ socktype = SOCK_DGRAM) then .error .sockType
  else if ¬ (protocol = 0 ∨ protocol = IPPROTO_TCP ∨ protocol = IPPROTO_UDP) then .error .service
  else if (socktype = 0 ∨ socktype = SOCK_STREAM) ∧ (protocol = 0 ∨ protocol = IPPROTO_TCP) then
    .ok (SOCK_STREAM, IPPROTO_TCP)
  else if (socktype = 0 ∨ socktype = SOCK_DGRAM) ∧ (protocol = 0 ∨ protocol = IPPROTO_UDP) then
    .ok (SOCK_DGRAM, IPPROTO_UDP)
  else .error .service

def parseServicePort (db : Databases) (m : Mem) (service : Nat) (flags protocol : CInt) :
    Except EaiError Nat :=
  if service = 0 then .ok 0
  else
    match parseNumericService (cStr m service) with
    | some port => .ok port
    | none =>
      if flags &&& AI_NUMERICSERV ≠ 0 then .error .noName
      else if ¬ isUtf8 (cStr m service) then .error .noName
      else
        match db.serviceName (cStr m service) protocol with
        | some port => .ok port
        | none => .error .service

def mapGetaddrinfoServiceError (service : Nat) (flags : CInt) (error : EaiError) : EaiError :=
  if error ≠ .noName then error
  else if service = 0 ∨ flags &&& AI_NUMERICSERV ≠ 0 then error
  else .service

/-- Dotted quads come first, then the legacy forms, then IPv6. -/
def parseNumericHostText (ipv6 : Ipv6Text) (nodeText : List UInt8) : Option AddressCandidate :=
  ((ipv4FromStr nodeText).map .ipv4).or
    (((parseIpv4LegacyText nodeText).map .ipv4).or ((ipv6.fromStr nodeText).map .ipv6))

def inaddrAny : Ipv4Octets := Vector.replicate 4 0
def inaddrLoopback : Ipv4Octets := #v[127, 0, 0, 1]
def in6addrAny : Ipv6Octets := Vector.replicate 16 0
def in6addrLoopback : Ipv6Octets := (Vector.replicate 16 0).set 15 1

def resolveCandidates (node : Option AddressCandidate) (family flags : CInt) :
    Except EaiError (List AddressCandidate) :=
  match node with
  | some (.ipv4 address) =>
    if family = AF_UNSPEC ∨ family = AF_INET then .ok [.ipv4 address] else .error .family
  | some (.ipv6 address) =>
    if family = AF_UNSPEC ∨ family = AF_INET6 then .ok [.ipv6 address] else .error .family
  | none =>
    let passive := flags &&& AI_PASSIVE ≠ 0
    let ipv4 := if passive then inaddrAny else inaddrLoopback
    let ipv6 := if passive then in6addrAny else in6addrLoopback
    if family = AF_INET then .ok [.ipv4 ipv4]
    else if family = AF_INET6 then .ok [.ipv6 ipv6]
    else if family = AF_UNSPEC then .ok [.ipv6 ipv6, .ipv4 ipv4]
    else .error .family

def resolveNodeCandidates (db : Databases) (m : Mem) (node : Nat) (family flags : CInt) :
    Except EaiError (List AddressCandidate) :=
  if node = 0 then resolveCandidates none family flags
  else if ¬ isUtf8 (cStr m node) then .error .noName
  else if cStr m node = [] then .error .noName
  else
    match parseNumericHostText db.ipv6 (cStr m node) with
    | some candidate => resolveCandidates (some candidate) family flags
    | none =>
      if flags &&& AI_NUMERICHOST ≠ 0 then .error .noName
      else db.hostname (cStr m node) family

def allocateIpv4Sockaddr (address : Ipv4Octets) (port : Nat) : List UInt8 :=
  SockaddrIn.bytes
    { sinFamily := AF_INET.toNat
      sinPort := toBe16 port
      sinAddr := ofBeBytes address.toList
      sinZero := List.replicate 8 0 }

def allocateIpv6Sockaddr (address : Ipv6Octets) (port : Nat) : List UInt8 :=
  SockaddrIn6.bytes
    { sin6Family := AF_INET6.toNat
      sin6Port := toBe16 port
      sin6Flowinfo := 0
      sin6Addr := address
      sin6ScopeId := 0 }

def allocateAddrinfoNode (candidate : AddressCandidate) (port : Nat)
    (flags socktype protocol : CInt) : Addrinfo :=
  match candidate with
  | .ipv4 address =>
    { aiFlags := flags, aiFamily := AF_INET, aiSocktype := socktype, aiProtocol := protocol
      aiAddrlen := sockaddrInSize, aiAddr := allocateIpv4Sockaddr address port }
  | .ipv6 address =>
    { aiFlags := flags, aiFamily := AF_INET6, aiSocktype := socktype, aiProtocol := protocol
      aiAddrlen := sockaddrIn6Size, aiAddr := allocateIpv6Sockaddr address port }

/-- The hints that a null pointer stands for. -/
def defaultHints : Hints := ⟨0, AF_UNSPEC, 0, 0⟩

/-- `getaddrinfo`: the list it writes to `res`, or the error it returns with a null list. -/
def getaddrinfo (db : Databases) (m : Mem) (node service : Nat) (hints : Option Hints)
    (res : Nat) : Except EaiError (List Addrinfo) :=
  if res = 0 then .error .fail
  else if node = 0 ∧ service = 0 then .error .noName
  else
    let hints := hints.getD defaultHints
    if hints.aiFlags &&& ~~~ALLOWED_AI_FLAGS ≠ 0 then .error .badFlags
    else do
      let family ← resolveFamily hints.aiFamily
      let (socktype, protocol) ← resolveSocketProfile hints.aiSocktype hints.aiProtocol
      match parseServicePort db m service hints.aiFlags protocol with
      | .error error => .error (mapGetaddrinfoServiceError service hints.aiFlags error)
      | .ok port =>
        let candidates ← resolveNodeCandidates db m node family hints.aiFlags
        if candidates = [] then .error .noName
        else
          .ok (candidates.map fun candidate =>
            allocateAddrinfoNode candidate port hints.aiFlags socktype protocol)

/-- What a successful `getaddrinfo` has found on its way. -/
structure Resolution where
  family : CInt
  socktype : CInt
  protocol : CInt
  port : Nat
  candidates : List AddressCandidate

/-- The steps of a successful `getaddrinfo`. -/
structure Resolution.Found (found : Resolution) (db : Databases) (m : Mem) (node service : Nat)
    (hints : Hints) (nodes : List Addrinfo) : Prop where
  flags : hints.aiFlags &&& ~~~ALLOWED_AI_FLAGS = 0
  family : resolveFamily hints.aiFamily = .ok found.family
  profile : resolveSocketProfile hints.aiSocktype hints.aiProtocol =
    .ok (found.socktype, found.protocol)
  port : parseServicePort db m service hints.aiFlags found.protocol = .ok found.port
  candidates : resolveNodeCandidates db m node found.family hints.aiFlags = .ok found.candidates
  found_ne : found.candidates ≠ []
  nodes : nodes = found.candidates.map fun candidate =>
    allocateAddrinfoNode candidate found.port hints.aiFlags found.socktype found.protocol

theorem bind_eq_ok {ε α β : Type} {x : Except ε α} {f : α → Except ε β} {b : β}
    (h : (x >>= f) = .ok b) : ∃ a, x = .ok a ∧ f a = .ok b := by
  cases x with
  | error e => cases h
  | ok a => exact ⟨a, rfl, h⟩

/-- A successful `getaddrinfo` has gone through every step. -/
theorem getaddrinfo_eq_ok {db : Databases} {m : Mem} {node service res : Nat}
    {hints : Option Hints} {nodes : List Addrinfo}
    (hok : getaddrinfo db m node service hints res = .ok nodes) :
    ∃ found : Resolution, found.Found db m node service (hints.getD defaultHints) nodes := by
  unfold getaddrinfo at hok
  split at hok
  · cases hok
  split at hok
  · cases hok
  dsimp only at hok
  split at hok
  · cases hok
  rename_i hflags
  obtain ⟨family, hfamily, hok⟩ := bind_eq_ok hok
  obtain ⟨⟨socktype, protocol⟩, hprofile, hok⟩ := bind_eq_ok hok
  dsimp only at hok
  split at hok
  · cases hok
  rename_i port hport
  obtain ⟨candidates, hcandidates, hok⟩ := bind_eq_ok hok
  split at hok
  · cases hok
  rename_i hne
  exact
    ⟨⟨family, socktype, protocol, port, candidates⟩,
      { flags := not_not.mp hflags
        family := hfamily
        profile := hprofile
        port := hport
        candidates := hcandidates
        found_ne := hne
        nodes := (Except.ok.inj hok).symm }⟩

/-! ## Names -/

def shouldRejectNameRequiredWithoutNumericHost (flags : CInt) : Bool :=
  flags &&& NI_NAMEREQD ≠ 0 ∧ flags &&& NI_NUMERICHOST = 0

/-- `s_addr.to_be_bytes()`, printed. -/
def formatNumericIpv4 (sAddr : Nat) : List UInt8 := ipv4ToString (beBytes 4 sAddr)

/-- The sixteen bytes at an address. -/
def octets6At (m : Mem) (a : Nat) : Ipv6Octets :=
  ⟨(bytesAt m a 16).toArray, by rw [List.size_toArray, bytesAt_length]⟩

def formatNumericIpv6 (ipv6 : Ipv6Text) (address : Ipv6Octets) : List UInt8 := ipv6.toText address

def formatNumericService (port : Nat) : List UInt8 := decimal (toBe16 port)

/-- The two texts, each if it is asked for. -/
def outputs (host service : List UInt8) (flags : CInt) (wantsHost wantsService : Bool) :
    Except EaiError (Option (List UInt8) × Option (List UInt8)) :=
  if wantsHost ∧ shouldRejectNameRequiredWithoutNumericHost flags then .error .noName
  else .ok (if wantsHost then some host else none, if wantsService then some service else none)

/-- The `match` on the family of the address. -/
def formatAddress (ipv6 : Ipv6Text) (m : Mem) (addr addrlen : Nat) (flags : CInt)
    (wantsHost wantsService : Bool) :
    Except EaiError (Option (List UInt8) × Option (List UInt8)) :=
  let family := natAt m 2 addr
  if family = AF_INET.toNat then
    if addrlen < sockaddrInSize then .error .family
    else
      outputs (formatNumericIpv4 (natAt m 4 (addr + 4))) (formatNumericService (natAt m 2 (addr + 2)))
        flags wantsHost wantsService
  else if family = AF_INET6.toNat then
    if addrlen < sockaddrIn6Size then .error .family
    else
      outputs (formatNumericIpv6 ipv6 (octets6At m (addr + 8)))
        (formatNumericService (natAt m 2 (addr + 2))) flags wantsHost wantsService
  else .error .family

/-- An output that was asked for does not fit its buffer. -/
def tooLong (output : Option (List UInt8)) (bufferLen : Nat) : Bool :=
  output.any fun text => bufferLen ≤ text.length

/-- `write_output_string`, once the length is known to fit. -/
def writeOutputString (m : Mem) (buffer : Nat) (output : Option (List UInt8)) : Mem :=
  match output with
  | none => m
  | some text => writeBytes m buffer (text ++ [0])

/-- `getnameinfo`: its error, if it fails, and memory afterwards. -/
def getnameinfo (ipv6 : Ipv6Text) (m : Mem) (addr addrlen host hostlen serv servlen : Nat)
    (flags : CInt) : Option EaiError × Mem :=
  let wantsHost := decide (host ≠ 0)
  let wantsService := decide (serv ≠ 0)
  if flags &&& ~~~ALLOWED_NI_FLAGS ≠ 0 then (some .badFlags, m)
  else if ¬ wantsHost ∧ ¬ wantsService then (some .noName, m)
  else if wantsHost ∧ hostlen = 0 then (some .overflow, m)
  else if wantsService ∧ servlen = 0 then (some .overflow, m)
  else if addr = 0 ∨ addrlen < sockaddrSize then (some .family, m)
  else
    match formatAddress ipv6 m addr addrlen flags wantsHost wantsService with
    | .error error => (some error, m)
    | .ok (hostOutput, serviceOutput) =>
      if tooLong hostOutput hostlen then (some .overflow, m)
      else if tooLong serviceOutput servlen then (some .overflow, m)
      else
        (none, writeOutputString (writeOutputString m host hostOutput) serv serviceOutput)

/-- What a call asks of `getnameinfo` before it looks at the address. -/
structure NameRequest (addr addrlen host hostlen serv servlen : Nat) (flags : CInt) : Prop where
  flags : flags &&& ~~~ALLOWED_NI_FLAGS = 0
  wants : host ≠ 0 ∨ serv ≠ 0
  hostlen : host ≠ 0 → hostlen ≠ 0
  servlen : serv ≠ 0 → servlen ≠ 0
  addr : addr ≠ 0
  addrlen : sockaddrSize ≤ addrlen

/-- A well-formed request is answered with the texts of the address, if they fit. -/
theorem NameRequest.getnameinfo {ipv6 : Ipv6Text} {m : Mem}
    {addr addrlen host hostlen serv servlen : Nat} {flags : CInt}
    (h : NameRequest addr addrlen host hostlen serv servlen flags)
    {hostOutput serviceOutput : Option (List UInt8)}
    (hformat : formatAddress ipv6 m addr addrlen flags (decide (host ≠ 0)) (decide (serv ≠ 0)) =
      .ok (hostOutput, serviceOutput))
    (hhost : tooLong hostOutput hostlen = false) (hserv : tooLong serviceOutput servlen = false) :
    getnameinfo ipv6 m addr addrlen host hostlen serv servlen flags =
      (none, writeOutputString (writeOutputString m host hostOutput) serv serviceOutput) := by
  have hwants : ¬ (¬ decide (host ≠ 0) = true ∧ ¬ decide (serv ≠ 0) = true) := by
    rw [decide_eq_true_iff, decide_eq_true_iff]
    exact fun hno => h.wants.elim hno.1 hno.2
  have hhostlen : ¬ (decide (host ≠ 0) = true ∧ hostlen = 0) := by
    rw [decide_eq_true_iff]
    exact fun hno => h.hostlen hno.1 hno.2
  have hservlen : ¬ (decide (serv ≠ 0) = true ∧ servlen = 0) := by
    rw [decide_eq_true_iff]
    exact fun hno => h.servlen hno.1 hno.2
  have haddr : ¬ (addr = 0 ∨ addrlen < sockaddrSize) := by
    rw [not_or, Nat.not_lt]
    exact ⟨h.addr, h.addrlen⟩
  unfold Netdb.getnameinfo
  dsimp only
  rw [if_neg (not_not.mpr h.flags), if_neg hwants, if_neg hhostlen, if_neg hservlen, if_neg haddr,
    hformat]
  dsimp only
  rw [hhost, hserv]
  rfl

/-- A successful `getnameinfo` was a well-formed request, and its texts fit. -/
theorem getnameinfo_eq_none {ipv6 : Ipv6Text} {m : Mem}
    {addr addrlen host hostlen serv servlen : Nat} {flags : CInt}
    (hok : (getnameinfo ipv6 m addr addrlen host hostlen serv servlen flags).1 = none) :
    ∃ hostOutput serviceOutput,
      formatAddress ipv6 m addr addrlen flags (decide (host ≠ 0)) (decide (serv ≠ 0)) =
        .ok (hostOutput, serviceOutput) ∧
      tooLong hostOutput hostlen = false ∧ tooLong serviceOutput servlen = false ∧
      (getnameinfo ipv6 m addr addrlen host hostlen serv servlen flags).2 =
        writeOutputString (writeOutputString m host hostOutput) serv serviceOutput := by
  unfold getnameinfo at hok ⊢
  dsimp only at hok ⊢
  split_ifs at hok ⊢ with hflags hwants hhostlen hservlen haddr
  cases hformat : formatAddress ipv6 m addr addrlen flags (decide (host ≠ 0))
      (decide (serv ≠ 0)) with
  | error e =>
    rw [hformat] at hok
    cases hok
  | ok texts =>
    rw [hformat] at hok
    dsimp only at hok ⊢
    split_ifs at hok ⊢ with hhost hserv
    exact ⟨texts.1, texts.2, rfl, Bool.eq_false_iff.mpr hhost, Bool.eq_false_iff.mpr hserv, rfl⟩

/-- **A failing `getnameinfo` writes nothing.** -/
theorem getnameinfo_error {ipv6 : Ipv6Text} {m : Mem}
    {addr addrlen host hostlen serv servlen : Nat} {flags : CInt}
    (herror : (getnameinfo ipv6 m addr addrlen host hostlen serv servlen flags).1 ≠ none) :
    (getnameinfo ipv6 m addr addrlen host hostlen serv servlen flags).2 = m := by
  unfold getnameinfo at herror ⊢
  dsimp only at herror ⊢
  split_ifs at herror ⊢ with hflags hwants hhostlen hservlen haddr
  all_goals first | rfl | skip
  cases hformat : formatAddress ipv6 m addr addrlen flags (decide (host ≠ 0))
      (decide (serv ≠ 0)) with
  | error e => rfl
  | ok texts =>
    rw [hformat] at herror
    dsimp only at herror ⊢
    split_ifs at herror ⊢ with hhost hserv
    · rfl
    · rfl
    · exact absurd rfl herror

/-! ## What is written -/

/-- The two buffers do not overlap. -/
def BuffersApart (host hostlen serv servlen : Nat) : Prop :=
  serv = 0 ∨ host + hostlen ≤ serv ∨ serv + servlen ≤ host

theorem length_lt_of_fits {text : List UInt8} {bufferLen : Nat}
    (h : tooLong (some text) bufferLen = false) : text.length < bufferLen := by
  unfold tooLong at h
  rw [Option.any_some, decide_eq_false_iff_not] at h
  omega

theorem tooLong_of_lt {text : List UInt8} {bufferLen : Nat} (h : text.length < bufferLen) :
    tooLong (some text) bufferLen = false := by
  unfold tooLong
  rw [Option.any_some, decide_eq_false_iff_not]
  omega

/-- Both texts stand in their buffers. -/
theorem holdsAt_outputs (m : Mem) {host hostlen serv servlen : Nat} {hostText : List UInt8}
    {serviceOutput : Option (List UInt8)} (hhost : tooLong (some hostText) hostlen = false)
    (hserv : tooLong serviceOutput servlen = false)
    (hapart : serviceOutput = none ∨ host + hostlen ≤ serv ∨ serv + servlen ≤ host) :
    HoldsAt (writeOutputString (writeOutputString m host (some hostText)) serv serviceOutput) host
      (hostText ++ [0]) := by
  have hfits := length_lt_of_fits hhost
  have hwritten := holdsAt_writeBytes m host (hostText ++ [0])
  cases serviceOutput with
  | none => exact hwritten
  | some serviceText =>
    have hservFits := length_lt_of_fits hserv
    apply hwritten.congr
    intro i hi
    rw [List.length_append, List.length_singleton] at hi
    apply writeBytes_outside
    rw [List.length_append, List.length_singleton]
    cases hapart with
    | inl h => cases h
    | inr h => omega

end Rlibc.Netdb
