import Rlibc.Foundations.BlockHeap
import Rlibc.Netdb.Resolver

/-!
# The lists of `getaddrinfo` in memory

Each node of a list and each socket address behind it is a block of its own, and a list is known by
the address of its first node.  Memory that cannot be had ends the process; an access through a
pointer that does not fit what stands at the address is undefined.
-/

namespace Rlibc.Netdb

open ByteMem ByteOrder BlockHeap

/-- An `addrinfo` in memory. -/
structure AddrinfoNode where
  aiFlags : CInt
  aiFamily : CInt
  aiSocktype : CInt
  aiProtocol : CInt
  aiAddrlen : Nat
  aiAddr : Nat
  aiCanonname : Nat
  aiNext : Nat

/-- What stands at an address: a node, the bytes of a socket address, or something of the rest of
the process. -/
inductive AddrBlock where
  | addrinfo (node : AddrinfoNode)
  | sockaddr (bytes : List UInt8)
  | other (bytes : List UInt8)

/-! ## Building a list -/

/-- `allocate_addrinfo_node`: the socket address first, then the node that points to it. -/
def boxAddrinfoNode (allocator : Allocator AddrBlock) (heap : Heap AddrBlock) (info : Addrinfo) :
    Except Fault (Nat × Heap AddrBlock) := do
  let addr ← allocate allocator heap (.sockaddr info.aiAddr)
  allocate allocator addr.2 (.addrinfo
    { aiFlags := info.aiFlags, aiFamily := info.aiFamily, aiSocktype := info.aiSocktype
      aiProtocol := info.aiProtocol, aiAddrlen := info.aiAddrlen, aiAddr := addr.1
      aiCanonname := 0, aiNext := 0 })

/-- `(*tail).ai_next = node_ptr`. -/
def setNext (heap : Heap AddrBlock) (tail next : Nat) : Except Fault (Heap AddrBlock) :=
  match heap tail with
  | some (.addrinfo node) => .ok (put heap tail (.addrinfo { node with aiNext := next }))
  | _ => .error .undefined

/-- The loop of `getaddrinfo` over its candidates. -/
def linkNodes (allocator : Allocator AddrBlock) :
    List Addrinfo → Nat → Nat → Heap AddrBlock → Except Fault (Nat × Heap AddrBlock)
  | [], head, _, heap => .ok (head, heap)
  | info :: infos, head, tail, heap => do
    let node ← boxAddrinfoNode allocator heap info
    if head = 0 then linkNodes allocator infos node.1 node.1 node.2
    else
      let linked ← setNext node.2 tail node.1
      linkNodes allocator infos head node.1 linked

/-- The arguments of a call of `getaddrinfo`, with the memory that the strings are in. -/
structure Query where
  m : Mem
  node : Nat
  service : Nat
  hints : Option Hints
  res : Nat

/-- What a query finds. -/
def Query.answer (db : Databases) (q : Query) : Except EaiError (List Addrinfo) :=
  getaddrinfo db q.m q.node q.service q.hints q.res

/-- What `getaddrinfo` returns, what it writes to `res` if that is not null, and the heap. -/
structure AddrinfoReply where
  code : Int
  written : Option Nat
  heap : Heap AddrBlock

/-- `getaddrinfo` on the heap. -/
def Query.perform (allocator : Allocator AddrBlock) (db : Databases) (q : Query)
    (heap : Heap AddrBlock) : Except Fault AddrinfoReply :=
  match q.answer db with
  | .error error => .ok ⟨error.code, if q.res = 0 then none else some 0, heap⟩
  | .ok infos => do
    let list ← linkNodes allocator infos 0 0 heap
    .ok ⟨0, some list.1, list.2⟩

/-! ## Giving a list back -/

/-- `dealloc` with the layout of a structure of this size. -/
def dealloc (heap : Heap AddrBlock) (address size : Nat) : Except Fault (Heap AddrBlock) :=
  match heap address with
  | some (.sockaddr bytes) =>
    if bytes.length = size then .ok (release heap address) else .error .undefined
  | _ => .error .undefined

/-- `free_node`; the node itself goes last, with the box that holds it. -/
def freeNode (heap : Heap AddrBlock) (node : Nat) : Except Fault (Heap AddrBlock) :=
  match heap node with
  | some (.addrinfo boxed) => do
    let rest ←
      if boxed.aiAddr = 0 then .ok heap
      else if boxed.aiFamily = AF_INET then dealloc heap boxed.aiAddr sockaddrInSize
      else if boxed.aiFamily = AF_INET6 then dealloc heap boxed.aiAddr sockaddrIn6Size
      else .ok heap
    .ok (release rest node)
  | _ => .error .undefined

/-- `freeaddrinfo`; `none` is a loop that has not ended after this many rounds. -/
def freeaddrinfo : Nat → Nat → Heap AddrBlock → Option (Except Fault (Heap AddrBlock))
  | 0, res, heap => if res = 0 then some (.ok heap) else none
  | rounds + 1, res, heap =>
    if res = 0 then some (.ok heap)
    else
      match heap res with
      | some (.addrinfo node) =>
        match freeNode heap res with
        | .ok heap => freeaddrinfo rounds node.aiNext heap
        | .error fault => some (.error fault)
      | _ => some (.error .undefined)

/-! ## What a list owns -/

/-- Where a node and its socket address stand. -/
structure Place where
  node : Nat
  addr : Nat
  info : Addrinfo

/-- The first node of a list that goes on with `last`. -/
def headOf (last : Nat) : List Place → Nat
  | [] => last
  | p :: _ => p.node

def Place.block (p : Place) (next : Nat) : AddrinfoNode :=
  { aiFlags := p.info.aiFlags, aiFamily := p.info.aiFamily, aiSocktype := p.info.aiSocktype
    aiProtocol := p.info.aiProtocol, aiAddrlen := p.info.aiAddrlen, aiAddr := p.addr
    aiCanonname := 0, aiNext := next }

/-- The two blocks of a node. -/
def Place.blocks (p : Place) (next : Nat) : List (Nat × AddrBlock) :=
  [(p.node, .addrinfo (p.block next)), (p.addr, .sockaddr p.info.aiAddr)]

/-- The blocks of a list that goes on with `last`. -/
def listBlocks (last : Nat) : List Place → List (Nat × AddrBlock)
  | [] => []
  | p :: ps => p.blocks (headOf last ps) ++ listBlocks last ps

theorem headOf_append (last : Nat) (ps qs : List Place) :
    headOf last (ps ++ qs) = headOf (headOf last qs) ps := by
  cases ps with
  | nil => rfl
  | cons p ps => rfl

theorem listBlocks_append (last : Nat) (ps qs : List Place) :
    listBlocks last (ps ++ qs) = listBlocks (headOf last qs) ps ++ listBlocks last qs := by
  induction ps with
  | nil => rfl
  | cons p ps ih =>
    rw [List.cons_append, listBlocks, listBlocks, ih, headOf_append, List.append_assoc]

/-- The socket address has the size of the structure for its family. -/
def Addrinfo.Sized (info : Addrinfo) : Prop :=
  (info.aiFamily = AF_INET ∧ info.aiAddr.length = sockaddrInSize) ∨
    (info.aiFamily = AF_INET6 ∧ info.aiAddr.length = sockaddrIn6Size)

theorem allocateIpv4Sockaddr_length (address : Ipv4Octets) (port : Nat) :
    (allocateIpv4Sockaddr address port).length = sockaddrInSize := by
  simp [allocateIpv4Sockaddr, SockaddrIn.bytes, leBytes_length]

theorem allocateIpv6Sockaddr_length (address : Ipv6Octets) (port : Nat) :
    (allocateIpv6Sockaddr address port).length = sockaddrIn6Size := by
  simp [allocateIpv6Sockaddr, SockaddrIn6.bytes, leBytes_length]

theorem allocateAddrinfoNode_sized (candidate : AddressCandidate) (port : Nat)
    (flags socktype protocol : CInt) :
    (allocateAddrinfoNode candidate port flags socktype protocol).Sized := by
  cases candidate with
  | ipv4 address => exact Or.inl ⟨rfl, allocateIpv4Sockaddr_length address port⟩
  | ipv6 address => exact Or.inr ⟨rfl, allocateIpv6Sockaddr_length address port⟩

/-- What a query finds is not empty, and every socket address has its size. -/
theorem Query.answer_sized {db : Databases} {q : Query} {infos : List Addrinfo}
    (h : q.answer db = .ok infos) : infos ≠ [] ∧ ∀ info ∈ infos, info.Sized := by
  obtain ⟨found, hfound⟩ := getaddrinfo_eq_ok h
  rw [hfound.nodes]
  refine ⟨fun hnil => hfound.found_ne (List.map_eq_nil_iff.mp hnil), ?_⟩
  intro info hinfo
  obtain ⟨candidate, -, rfl⟩ := List.mem_map.mp hinfo
  exact allocateAddrinfoNode_sized ..

section Ownership

variable {base heap : Heap AddrBlock} {owned : List (Nat × AddrBlock)}

/-- A node that is allocated comes with its socket address, and ends a list. -/
theorem boxAddrinfoNode_spec (allocator : Allocator AddrBlock) (info : Addrinfo)
    (howns : Owns base heap owned) :
    boxAddrinfoNode allocator heap info = .error .aborted ∨
    ∃ (p : Place) (heap' : Heap AddrBlock), p.info = info ∧ p.node ≠ 0 ∧
      boxAddrinfoNode allocator heap info = .ok (p.node, heap') ∧
      Owns base heap' (p.blocks 0 ++ owned) := by
  unfold boxAddrinfoNode
  rcases howns.allocate_cases allocator (.sockaddr info.aiAddr) with
    haborted | ⟨addr, -, haddr, howns₁⟩
  · rw [haborted]
    exact Or.inl rfl
  rw [haddr]
  rcases howns₁.allocate_cases allocator (.addrinfo (Place.block ⟨0, addr, info⟩ 0)) with
    haborted | ⟨node, hnonnull, hnode, howns₂⟩
  · exact Or.inl haborted
  · exact Or.inr ⟨⟨node, addr, info⟩, _, rfl, hnonnull, hnode, howns₂⟩

/-- The last node of a list can be linked to a node behind it. -/
theorem setNext_spec {init : List Place} {t p : Place}
    (howns : Owns base heap (p.blocks 0 ++ (listBlocks 0 (init ++ [t]) ++ owned))) :
    ∃ heap', setNext heap t.node p.node = .ok heap' ∧
      Owns base heap' (listBlocks 0 (init ++ [t] ++ [p]) ++ owned) := by
  -- The blocks around that of the last node, which comes to the front.
  have hfront : ∀ x y : Nat × AddrBlock,
      (p.blocks 0 ++ ((listBlocks t.node init ++ [x, y]) ++ owned)).Perm
        (x :: (p.blocks 0 ++ (listBlocks t.node init ++ y :: owned))) := by
    intro x y
    classical
    rw [List.perm_iff_count]
    intro b
    simp only [List.count_append, List.count_cons, List.count_nil]
    omega
  have hback : ∀ x y : Nat × AddrBlock,
      (x :: (p.blocks 0 ++ (listBlocks t.node init ++ y :: owned))).Perm
        ((listBlocks t.node init ++ ([x, y] ++ p.blocks 0)) ++ owned) := by
    intro x y
    classical
    rw [List.perm_iff_count]
    intro b
    simp only [List.count_append, List.count_cons, List.count_nil]
    omega
  have hlast : listBlocks 0 (init ++ [t]) = listBlocks t.node init ++ t.blocks 0 := by
    rw [listBlocks_append]
    simp [headOf, listBlocks]
  rw [hlast] at howns
  have hlinked := howns.perm (hfront _ _)
  refine ⟨put heap t.node (.addrinfo (t.block p.node)), ?_, ?_⟩
  · unfold setNext
    rw [hlinked.live _ List.mem_cons_self]
    rfl
  · have hgoal : listBlocks 0 (init ++ [t] ++ [p]) =
        listBlocks t.node init ++ (t.blocks p.node ++ p.blocks 0) := by
      rw [List.append_assoc, listBlocks_append]
      simp [headOf, listBlocks]
    rw [hgoal]
    exact hlinked.overwrite.perm (hback _ _)

/-- The loop appends a node for each of the rest to the list that it has. -/
theorem linkNodes_spec (allocator : Allocator AddrBlock) (infos : List Addrinfo)
    {init : List Place} {t : Place}
    (howns : Owns base heap (listBlocks 0 (init ++ [t]) ++ owned)) :
    linkNodes allocator infos (headOf 0 (init ++ [t])) t.node heap = .error .aborted ∨
    ∃ (new : List Place) (heap' : Heap AddrBlock), new.map Place.info = infos ∧
      linkNodes allocator infos (headOf 0 (init ++ [t])) t.node heap =
        .ok (headOf 0 (init ++ [t]), heap') ∧
      Owns base heap' (listBlocks 0 (init ++ [t] ++ new) ++ owned) := by
  induction infos generalizing init t heap with
  | nil =>
    refine Or.inr ⟨[], heap, rfl, rfl, ?_⟩
    rw [List.append_nil]
    exact howns
  | cons info infos ih =>
    have hhead : headOf 0 (init ++ [t]) ≠ 0 := by
      cases init with
      | nil => exact howns.nonnull _ List.mem_cons_self
      | cons first init => exact howns.nonnull _ List.mem_cons_self
    rw [linkNodes]
    rcases boxAddrinfoNode_spec allocator info howns with
      haborted | ⟨p, heap₁, hinfo, -, hbox, howns₁⟩
    · rw [haborted]
      exact Or.inl rfl
    obtain ⟨heap₂, hset, howns₂⟩ := setNext_spec howns₁
    have hsame : headOf 0 (init ++ [t]) = headOf 0 (init ++ [t] ++ [p]) := by
      cases init with
      | nil => rfl
      | cons first init => rfl
    have hround : (do
        let node ← boxAddrinfoNode allocator heap info
        if headOf 0 (init ++ [t]) = 0 then linkNodes allocator infos node.1 node.1 node.2
        else
          let linked ← setNext node.2 t.node node.1
          linkNodes allocator infos (headOf 0 (init ++ [t])) node.1 linked) =
        linkNodes allocator infos (headOf 0 (init ++ [t] ++ [p])) p.node heap₂ := by
      rw [hbox]
      show (if headOf 0 (init ++ [t]) = 0 then _ else _) = _
      rw [if_neg hhead]
      dsimp only
      rw [hset, hsame]
      rfl
    rw [hround, hsame]
    rcases ih howns₂ with haborted | ⟨new, heap', hnew, hlink, howns'⟩
    · exact Or.inl haborted
    · refine Or.inr ⟨p :: new, heap', by rw [List.map_cons, hinfo, hnew], hlink, ?_⟩
      rw [List.append_assoc, List.singleton_append] at howns'
      exact howns'

/-- A call that finds something returns a list of it, or the process ends. -/
theorem Query.perform_spec (allocator : Allocator AddrBlock) {db : Databases} {q : Query}
    {infos : List Addrinfo} (hanswer : q.answer db = .ok infos) (howns : Owns base heap owned) :
    q.perform allocator db heap = .error .aborted ∨
    ∃ (ps : List Place) (heap' : Heap AddrBlock), ps.map Place.info = infos ∧
      q.perform allocator db heap = .ok ⟨0, some (headOf 0 ps), heap'⟩ ∧
      Owns base heap' (listBlocks 0 ps ++ owned) := by
  unfold Query.perform
  rw [hanswer]
  cases infos with
  | nil => exact absurd rfl (Query.answer_sized hanswer).1
  | cons info infos =>
    dsimp only
    rw [linkNodes]
    rcases boxAddrinfoNode_spec allocator info howns with
      haborted | ⟨p, heap₁, hinfo, -, hbox, howns₁⟩
    · rw [haborted]
      exact Or.inl rfl
    have hfirst : Owns base heap₁ (listBlocks 0 ([] ++ [p]) ++ owned) := by
      simpa [listBlocks, headOf] using howns₁
    rw [hbox]
    rcases linkNodes_spec allocator infos hfirst with
      haborted | ⟨new, heap', hnew, hlink, howns'⟩
    · refine Or.inl ?_
      show (linkNodes allocator infos p.node p.node heap₁ >>= _) = _
      rw [show linkNodes allocator infos p.node p.node heap₁ = _ from haborted]
      rfl
    · refine Or.inr ⟨p :: new, heap', by rw [List.map_cons, hinfo, hnew], ?_, howns'⟩
      show (linkNodes allocator infos p.node p.node heap₁ >>= _) = _
      rw [show linkNodes allocator infos p.node p.node heap₁ = _ from hlink]
      rfl

/-- A node goes with its socket address, each with the layout it came with. -/
theorem freeNode_spec {p : Place} {next : Nat} (hsized : p.info.Sized)
    (howns : Owns base heap (p.blocks next ++ owned)) :
    ∃ heap', freeNode heap p.node = .ok heap' ∧ Owns base heap' owned := by
  have hswap := howns.perm (List.Perm.swap _ _ _)
  have hnode : heap p.node = some (.addrinfo (p.block next)) := howns.live _ List.mem_cons_self
  have haddr : heap p.addr = some (.sockaddr p.info.aiAddr) := hswap.live _ List.mem_cons_self
  have hnonnull : p.addr ≠ 0 := hswap.nonnull _ List.mem_cons_self
  refine ⟨release (release heap p.addr) p.node, ?_, hswap.release.release⟩
  unfold freeNode dealloc
  rw [hnode]
  dsimp only [Place.block]
  rw [if_neg hnonnull, haddr]
  rcases hsized with ⟨hfamily, hlength⟩ | ⟨hfamily, hlength⟩
  · dsimp only
    rw [if_pos hfamily, if_pos hlength]
    rfl
  · dsimp only
    rw [hfamily, if_neg (by decide), if_pos rfl, if_pos hlength]
    rfl

/-- The whole list is released, and nothing else. -/
theorem freeaddrinfo_spec {ps : List Place} (hsized : ∀ p ∈ ps, p.info.Sized) {rounds : Nat}
    (hrounds : ps.length ≤ rounds) (howns : Owns base heap (listBlocks 0 ps ++ owned)) :
    ∃ heap', freeaddrinfo rounds (headOf 0 ps) heap = some (.ok heap') ∧
      Owns base heap' owned := by
  induction ps generalizing rounds heap with
  | nil =>
    refine ⟨heap, ?_, howns⟩
    cases rounds with
    | zero => exact if_pos rfl
    | succ rounds => exact if_pos rfl
  | cons p ps ih =>
    obtain ⟨rounds, rfl⟩ : ∃ n, rounds = n + 1 :=
      ⟨rounds - 1, by rw [List.length_cons] at hrounds; omega⟩
    have hnode : heap p.node = some (.addrinfo (p.block (headOf 0 ps))) :=
      howns.live _ List.mem_cons_self
    have hnonnull : p.node ≠ 0 := howns.nonnull _ List.mem_cons_self
    rw [listBlocks, List.append_assoc] at howns
    obtain ⟨heap₁, hfree, howns₁⟩ := freeNode_spec (hsized p List.mem_cons_self) howns
    have hless : ps.length ≤ rounds := Nat.le_of_succ_le_succ hrounds
    obtain ⟨heap', hrest, howns'⟩ :=
      ih (fun p' hp' => hsized p' (List.mem_cons_of_mem _ hp')) hless howns₁
    refine ⟨heap', ?_, howns'⟩
    rw [freeaddrinfo, show headOf 0 (p :: ps) = p.node from rfl, if_neg hnonnull]
    rw [hnode, hfree]
    exact hrest

end Ownership

end Rlibc.Netdb
