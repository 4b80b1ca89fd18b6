import Mathlib.Logic.Relation
import Rlibc.Netdb.AddressLists

/-!
# Lists that a program holds

A process calls `getaddrinfo` and `freeaddrinfo` in any order and writes to its own memory in
between.  The lists it has not given back stay as they were returned, each can be given back, and
nothing of them remains when all are.
-/

namespace Rlibc.Netdb

open BlockHeap

/-- A list that a call returned: its pointer, and what the call found. -/
structure HeldList where
  head : Nat
  infos : List Addrinfo

/-- The heap of the process, the lists that it has not given back, and what the heap would be
without `getaddrinfo`. -/
structure Holdings where
  heap : Heap AddrBlock
  lists : List HeldList
  own : Heap AddrBlock

/-- A process before its first call. -/
def Holdings.start (heap : Heap AddrBlock) : Holdings := ⟨heap, [], heap⟩

/-- The list that a call leaves behind, if it succeeds. -/
def Query.returned (db : Databases) (q : Query) (reply : AddrinfoReply) : List HeldList :=
  match q.answer db, reply.written with
  | .ok infos, some head => [⟨head, infos⟩]
  | _, _ => []

/-- What the process does.  It gives back what it holds, in whatever order, and writes only where
no list stands. -/
inductive Step (allocator : Allocator AddrBlock) (db : Databases) : Holdings → Holdings → Prop
  | resolve (s : Holdings) (q : Query) (reply : AddrinfoReply)
      (hperform : q.perform allocator db s.heap = .ok reply) :
      Step allocator db s ⟨reply.heap, q.returned db reply ++ s.lists, s.own⟩
  | giveBack (s : Holdings) (before after : List HeldList) (list : HeldList) (rounds : Nat)
      (heap : Heap AddrBlock) (hheld : s.lists = before ++ list :: after)
      (hfree : freeaddrinfo rounds list.head s.heap = some (.ok heap)) :
      Step allocator db s ⟨heap, before ++ after, s.own⟩
  | write (s : Holdings) (address : Nat) (block : Option AddrBlock)
      (hown : s.heap address = s.own address) :
      Step allocator db s
        ⟨Function.update s.heap address block, s.lists, Function.update s.own address block⟩

/-- What a program reads that follows `ai_next` from a pointer to the null at the end. -/
def readList (heap : Heap AddrBlock) : Nat → Nat → Option (List Addrinfo)
  | 0, res => if res = 0 then some [] else none
  | rounds + 1, res =>
    if res = 0 then some []
    else
      match heap res with
      | some (.addrinfo node) =>
        match heap node.aiAddr with
        | some (.sockaddr bytes) =>
          (readList heap rounds node.aiNext).map fun rest =>
            { aiFlags := node.aiFlags, aiFamily := node.aiFamily, aiSocktype := node.aiSocktype
              aiProtocol := node.aiProtocol, aiAddrlen := node.aiAddrlen, aiAddr := bytes } :: rest
        | _ => none
      | _ => none

/-! ## The invariant -/

/-- The list whose nodes stand at these places. -/
def heldAt (ps : List Place) : HeldList := ⟨headOf 0 ps, ps.map Place.info⟩

/-- The lists stand in blocks of their own. -/
def Holdings.Placed (s : Holdings) : Prop :=
  ∃ held : List (List Place), s.lists = held.map heldAt ∧
    (∀ ps ∈ held, ∀ p ∈ ps, p.info.Sized) ∧ Owns s.own s.heap (held.flatMap (listBlocks 0))

theorem Holdings.placed_start (heap : Heap AddrBlock) : (start heap).Placed :=
  ⟨[], rfl, fun _ h => absurd h List.not_mem_nil, Owns.refl heap⟩

/-- One list comes to the front. -/
theorem flatMap_listBlocks_perm (before after : List (List Place)) (ps : List Place) :
    ((before ++ ps :: after).flatMap (listBlocks 0)).Perm
      (listBlocks 0 ps ++ (before ++ after).flatMap (listBlocks 0)) := by
  rw [List.flatMap_append, List.flatMap_cons, List.flatMap_append, ← List.append_assoc,
    ← List.append_assoc]
  exact List.perm_append_comm.append_right _

section System

variable {allocator : Allocator AddrBlock} {db : Databases} {s s' : Holdings}

/-- A call adds its list to those that stand already. -/
theorem Holdings.Placed.resolve {q : Query} {reply : AddrinfoReply} (h : s.Placed)
    (hperform : q.perform allocator db s.heap = .ok reply) :
    Placed ⟨reply.heap, q.returned db reply ++ s.lists, s.own⟩ := by
  obtain ⟨held, hlists, hsized, howns⟩ := h
  cases hanswer : q.answer db with
  | error error =>
    have hreply : reply = ⟨error.code, if q.res = 0 then none else some 0, s.heap⟩ := by
      unfold Query.perform at hperform
      rw [hanswer] at hperform
      exact (Except.ok.inj hperform).symm
    have hreturned : q.returned db reply = [] := by
      unfold Query.returned
      rw [hanswer]
    rw [hreturned, hreply]
    exact ⟨held, hlists, hsized, howns⟩
  | ok infos =>
    rcases Query.perform_spec allocator hanswer howns with
      haborted | ⟨ps, heap', hinfos, hdone, howns'⟩
    · rw [haborted] at hperform
      cases hperform
    rw [hdone] at hperform
    cases hperform
    have hreturned : q.returned db ⟨0, some (headOf 0 ps), heap'⟩ = [heldAt ps] := by
      unfold Query.returned heldAt
      rw [hanswer, hinfos]
    rw [hreturned, hlists]
    refine ⟨ps :: held, rfl, ?_, howns'⟩
    intro qs hqs p hp
    rcases List.mem_cons.mp hqs with rfl | hqs
    · exact (Query.answer_sized hanswer).2 _ (hinfos ▸ List.mem_map.mpr ⟨p, hp, rfl⟩)
    · exact hsized qs hqs p hp

/-- A list that is held can be released, and the others stay. -/
theorem Holdings.Placed.release {before after : List HeldList} {list : HeldList} (h : s.Placed)
    (hheld : s.lists = before ++ list :: after) {rounds : Nat}
    (hrounds : list.infos.length ≤ rounds) :
    ∃ heap, freeaddrinfo rounds list.head s.heap = some (.ok heap) ∧
      Placed ⟨heap, before ++ after, s.own⟩ := by
  obtain ⟨held, hlists, hsized, howns⟩ := h
  rw [hlists] at hheld
  obtain ⟨first, rest, hsplit, rfl, hrest⟩ := List.map_eq_append_iff.mp hheld
  obtain ⟨ps, last, rfl, rfl, rfl⟩ := List.map_eq_cons_iff.mp hrest
  rw [hsplit] at hsized howns
  have hmem : ps ∈ first ++ ps :: last := List.mem_append_right _ List.mem_cons_self
  have hlength : ps.length ≤ rounds := by
    rw [← List.length_map (f := Place.info)]
    exact hrounds
  obtain ⟨heap, hfree, howns'⟩ := freeaddrinfo_spec (hsized ps hmem) hlength
    (howns.perm (flatMap_listBlocks_perm first last ps))
  refine ⟨heap, hfree, first ++ last, by rw [List.map_append], ?_, howns'⟩
  intro qs hqs
  apply hsized
  rw [List.mem_append] at hqs ⊢
  exact hqs.imp_right (List.mem_cons_of_mem _)

/-- A list that is held reads as it was returned. -/
theorem readList_spec {base heap : Heap AddrBlock} {owned : List (Nat × AddrBlock)}
    {ps : List Place} {rounds : Nat} (hrounds : ps.length ≤ rounds)
    (howns : Owns base heap (listBlocks 0 ps ++ owned)) :
    readList heap rounds (headOf 0 ps) = some (ps.map Place.info) := by
  induction ps generalizing rounds owned with
  | nil =>
    cases rounds with
    | zero => exact if_pos rfl
    | succ rounds => exact if_pos rfl
  | cons p ps ih =>
    obtain ⟨rounds, rfl⟩ : ∃ n, rounds = n + 1 :=
      ⟨rounds - 1, by rw [List.length_cons] at hrounds; omega⟩
    have hnode : heap p.node = some (.addrinfo (p.block (headOf 0 ps))) :=
      howns.live _ List.mem_cons_self
    have haddr : heap p.addr = some (.sockaddr p.info.aiAddr) :=
      howns.live _ (List.mem_cons_of_mem _ List.mem_cons_self)
    have hnonnull : p.node ≠ 0 := howns.nonnull _ List.mem_cons_self
    -- The blocks of the first node go behind the others.
    have hrest : Owns base heap (listBlocks 0 ps ++ (p.blocks (headOf 0 ps) ++ owned)) := by
      apply howns.perm
      rw [listBlocks, ← List.append_assoc]
      exact List.perm_append_comm.append_right _
    rw [readList, show headOf 0 (p :: ps) = p.node from rfl, if_neg hnonnull, hnode]
    dsimp only [Place.block]
    rw [haddr, ih (Nat.le_of_succ_le_succ hrounds) hrest]
    rfl

/-- More rounds change nothing once the loop has ended. -/
theorem freeaddrinfo_mono {rounds more res : Nat} {heap : Heap AddrBlock}
    {result : Except Fault (Heap AddrBlock)} (hmore : rounds ≤ more)
    (h : freeaddrinfo rounds res heap = some result) :
    freeaddrinfo more res heap = some result := by
  induction rounds generalizing more res heap with
  | zero =>
    rw [freeaddrinfo] at h
    split at h
    · rename_i hnull
      cases more with
      | zero => exact (if_pos hnull).trans h
      | succ more => exact (if_pos hnull).trans h
    · cases h
  | succ rounds ih =>
    obtain ⟨more, rfl⟩ : ∃ n, more = n + 1 := ⟨more - 1, by omega⟩
    rw [freeaddrinfo] at h ⊢
    split at h
    · rename_i hnull
      rw [if_pos hnull]
      exact h
    · rename_i hnull
      rw [if_neg hnull]
      split at h
      · split at h
        · exact ih (Nat.le_of_succ_le_succ hmore) h
        · exact h
      · exact h

theorem Step.placed (hstep : Step allocator db s s') (h : s.Placed) : s'.Placed := by
  cases hstep with
  | resolve q reply hperform => exact h.resolve hperform
  | giveBack before after list rounds heap hheld hfree =>
    obtain ⟨heap', hdone, hplaced⟩ := h.release hheld (Nat.le_max_left list.infos.length rounds)
    -- However many rounds the loop needed, it is the same loop.
    rw [freeaddrinfo_mono (Nat.le_max_right _ _) hfree] at hdone
    cases hdone
    exact hplaced
  | write address block hown =>
    obtain ⟨held, hlists, hsized, howns⟩ := h
    exact ⟨held, hlists, hsized, howns.outside (howns.notMem_of_eq hown) block⟩

/-- **Ownership.**  Whatever calls a process has made in whatever order, and whatever it has written
to its own memory: each list that it holds reads as the call found it, `freeaddrinfo` of it ends and
releases what was allocated with the layout it was allocated with, no call does anything undefined,
and when every list is given back the heap is as if there had been none. -/
theorem held_lists_sound (allocator : Allocator AddrBlock) (db : Databases)
    {heap : Heap AddrBlock} {s : Holdings}
    (hrun : Relation.ReflTransGen (Step allocator db) (.start heap) s) :
    (∀ list ∈ s.lists, ∀ rounds, list.infos.length ≤ rounds →
      readList s.heap rounds list.head = some list.infos ∧
      ∃ heap', freeaddrinfo rounds list.head s.heap = some (.ok heap')) ∧
    (∀ q : Query, q.perform allocator db s.heap ≠ .error .undefined) ∧
    (s.lists = [] → s.heap = s.own) := by
  have hplaced : s.Placed := by
    induction hrun with
    | refl => exact Holdings.placed_start heap
    | tail _ hstep ih => exact hstep.placed ih
  refine ⟨?_, ?_, ?_⟩
  · intro list hlist rounds hrounds
    obtain ⟨before, after, hheld⟩ := List.append_of_mem hlist
    obtain ⟨heap', hfree, -⟩ := hplaced.release hheld hrounds
    refine ⟨?_, heap', hfree⟩
    obtain ⟨held, hlists, -, howns⟩ := hplaced
    rw [hlists] at hlist
    obtain ⟨ps, hps, rfl⟩ := List.mem_map.mp hlist
    obtain ⟨first, last, rfl⟩ := List.append_of_mem hps
    have hlength : ps.length ≤ rounds := by
      rw [← List.length_map (f := Place.info)]
      exact hrounds
    exact readList_spec hlength (howns.perm (flatMap_listBlocks_perm first last ps))
  · obtain ⟨held, -, -, howns⟩ := hplaced
    intro q hundefined
    cases hanswer : q.answer db with
    | error error =>
      unfold Query.perform at hundefined
      rw [hanswer] at hundefined
      cases hundefined
    | ok infos =>
      rcases Query.perform_spec allocator hanswer howns with haborted | ⟨ps, heap', -, hdone, -⟩
      · rw [haborted] at hundefined
        cases hundefined
      · rw [hdone] at hundefined
        cases hundefined
  · obtain ⟨held, hlists, -, howns⟩ := hplaced
    intro hnone
    rw [hnone] at hlists
    rw [List.map_eq_nil_iff.mp hlists.symm] at howns
    exact howns.restored

end System

/-- Blocks come from four places, the first that is free. -/
def fourPlaces : Allocator AddrBlock where
  pick heap _ := [16, 32, 48, 64].find? fun address => (heap address).isNone
  unused heap _ address h := by
    have hfree := List.find?_some h
    exact Option.isNone_iff_eq_none.mp hfree
  nonnull heap _ address h := by
    have hmem := List.mem_of_find?_eq_some h
    rintro rfl
    revert hmem
    decide

/-- No names are known, and no IPv6 texts. -/
def noNames : Databases where
  ipv6 := ⟨fun _ => [], fun _ => none⟩
  hostname _ _ := .error .noName
  serviceName _ _ := none

/-- The port 80 of this host; the service stands at address 8. -/
def portQuery : Query :=
  ⟨fun address => if address = 8 then 56 else if address = 9 then 48 else 0, 0, 8, none, 128⟩

/-- Both addresses of this host, for a stream. -/
def localhostInfos : List Addrinfo :=
  [.ipv6 in6addrLoopback, .ipv4 inaddrLoopback].map fun candidate =>
    allocateAddrinfoNode candidate 80 0 SOCK_STREAM IPPROTO_TCP

/-- A process that has asked for port 80 holds the two addresses of this host. -/
theorem held_lists_sound_localhost : ∃ reply,
    portQuery.perform fourPlaces noNames (fun _ => none) = .ok reply ∧
      readList reply.heap 2 32 = some localhostInfos ∧
      ∃ heap', freeaddrinfo 2 32 reply.heap = some (.ok heap') := by
  have hanswer : portQuery.answer noNames = .ok localhostInfos := rfl
  have hperform : ∃ reply, portQuery.perform fourPlaces noNames (fun _ => none) = .ok reply ∧
      reply.written = some 32 := ⟨_, rfl, rfl⟩
  obtain ⟨reply, hperform, hwritten⟩ := hperform
  have hreturned : portQuery.returned noNames reply = [⟨32, localhostInfos⟩] := by
    unfold Query.returned
    rw [hanswer, hwritten]
  have hrun : Relation.ReflTransGen (Step fourPlaces noNames) (.start fun _ => none)
      ⟨reply.heap, [⟨32, localhostInfos⟩], fun _ => none⟩ := by
    have hstep := Step.resolve (.start fun _ => none) portQuery reply hperform
    rw [hreturned] at hstep
    exact .single hstep
  obtain ⟨hread, hfree⟩ := (held_lists_sound fourPlaces noNames hrun).1 _ List.mem_cons_self 2
    (Nat.le_refl 2)
  exact ⟨reply, hperform, hread, hfree⟩

end Rlibc.Netdb
