import Mathlib.Data.List.Nodup
import Rlibc.Foundations.BlockHeap

/-!
# The strings behind `dlerror`

A thread owns two strings, the message of its last failure and the one that `dlerror` returned
last.  The second is read through the pointer that the caller got, so it has to stand until the
thread calls `dlerror` again or exits, whatever the other threads do.
-/

namespace Rlibc.Dlfcn

open BlockHeap

/-- `message.replace('\0', " ")`: a C string can hold it. -/
def sanitized (message : List Char) : List Char :=
  message.map fun c => if c = Char.ofNat 0 then ' ' else c

/-- The strings of a thread, by their addresses. -/
structure DlErrorState where
  pendingMessage : Option Nat
  lastReturnedMessage : Option Nat

/-- The drop of an `Option<CString>`. -/
def dropMessage (heap : Heap (List Char)) : Option Nat → Except Fault (Heap (List Char))
  | none => .ok heap
  | some address => if (heap address).isSome then .ok (release heap address) else .error .undefined

namespace DlErrorState

def new : DlErrorState := ⟨none, none⟩

/-- The message that was pending is dropped once the new one stands. -/
def setPendingMessage (allocator : Allocator (List Char)) (state : DlErrorState)
    (heap : Heap (List Char)) (message : List Char) :
    Except Fault (DlErrorState × Heap (List Char)) := do
  let cMessage ← allocate allocator heap (sanitized message)
  let heap ← dropMessage cMessage.2 state.pendingMessage
  .ok (⟨some cMessage.1, state.lastReturnedMessage⟩, heap)

/-- The pointer that `dlerror` returns, null if nothing is pending. -/
def takeMessagePtr (state : DlErrorState) (heap : Heap (List Char)) :
    Except Fault (Nat × DlErrorState × Heap (List Char)) :=
  match state.pendingMessage with
  | none => do
    let heap ← dropMessage heap state.lastReturnedMessage
    .ok (0, ⟨none, none⟩, heap)
  | some message => do
    let heap ← dropMessage heap state.lastReturnedMessage
    .ok (message, ⟨none, some message⟩, heap)

/-- The destructor of the thread-local state. -/
def dropState (state : DlErrorState) (heap : Heap (List Char)) :
    Except Fault (Heap (List Char)) := do
  let heap ← dropMessage heap state.pendingMessage
  dropMessage heap state.lastReturnedMessage

end DlErrorState

/-! ## Threads -/

variable {Thread : Type} [DecidableEq Thread]

/-- The strings of the process and what each thread has of them. -/
structure Messages (Thread : Type) where
  heap : Heap (List Char)
  states : Thread → DlErrorState

def Messages.start (base : Heap (List Char)) : Messages Thread := ⟨base, fun _ => .new⟩

/-- What a thread does with messages: a loader function fails, the thread calls `dlerror`, or it
exits. -/
inductive MessageAction (Thread : Type) where
  | fail (t : Thread) (message : List Char)
  | dlerror (t : Thread)
  | exit (t : Thread)

def Messages.step (allocator : Allocator (List Char)) (s : Messages Thread) :
    MessageAction Thread → Except Fault (Messages Thread)
  | .fail t message => do
    let after ← (s.states t).setPendingMessage allocator s.heap message
    .ok ⟨after.2, Function.update s.states t after.1⟩
  | .dlerror t => do
    let after ← (s.states t).takeMessagePtr s.heap
    .ok ⟨after.2.2, Function.update s.states t after.2.1⟩
  | .exit t => do
    let heap ← (s.states t).dropState s.heap
    .ok ⟨heap, Function.update s.states t .new⟩

def Messages.run (allocator : Allocator (List Char)) :
    Messages Thread → List (MessageAction Thread) → Except Fault (Messages Thread)
  | s, [] => .ok s
  | s, action :: actions => do
    let after ← s.step allocator action
    after.run allocator actions

/-! ## What a thread is told -/

/-- The message of a thread that waits to be read, and the one it was given last. -/
structure Told where
  pending : Option (List Char)
  shown : Option (List Char)

/-- What the actions of a thread make of its messages; those of others do nothing to them. -/
def Told.after (told : Thread → Told) : MessageAction Thread → Thread → Told
  | .fail t message =>
    Function.update told t ⟨some (sanitized message), (told t).shown⟩
  | .dlerror t => Function.update told t ⟨none, (told t).pending⟩
  | .exit t => Function.update told t ⟨none, none⟩

/-- What the threads are told in a run of the process. -/
def told (actions : List (MessageAction Thread)) : Thread → Told :=
  actions.foldl Told.after fun _ => ⟨none, none⟩

/-! ## Ownership -/

/-- The strings of a thread with their addresses. -/
structure Held where
  pending : Option (Nat × List Char)
  shown : Option (Nat × List Char)

namespace Held

def state (h : Held) : DlErrorState := ⟨h.pending.map Prod.fst, h.shown.map Prod.fst⟩

def told (h : Held) : Told := ⟨h.pending.map Prod.snd, h.shown.map Prod.snd⟩

def blocks (h : Held) : List (Nat × List Char) := h.pending.toList ++ h.shown.toList

end Held

section OneThread

variable {base heap : Heap (List Char)} {owned : List (Nat × List Char)} {h : Held}

/-- A string that is owned can be dropped. -/
theorem dropMessage_spec {block : Option (Nat × List Char)}
    (howns : Owns base heap (block.toList ++ owned)) :
    ∃ heap', dropMessage heap (block.map Prod.fst) = .ok heap' ∧ Owns base heap' owned := by
  cases block with
  | none => exact ⟨heap, rfl, howns⟩
  | some block =>
    refine ⟨release heap block.1, ?_, howns.release⟩
    show (if (heap block.1).isSome then _ else _) = _
    rw [howns.live block List.mem_cons_self]
    rfl

theorem setPendingMessage_spec (allocator : Allocator (List Char)) (message : List Char)
    (howns : Owns base heap (h.blocks ++ owned)) :
    h.state.setPendingMessage allocator heap message = .error .aborted ∨
    ∃ address heap', h.state.setPendingMessage allocator heap message =
        .ok (Held.state ⟨some (address, sanitized message), h.shown⟩, heap') ∧
      Owns base heap' (Held.blocks ⟨some (address, sanitized message), h.shown⟩ ++ owned) := by
  unfold DlErrorState.setPendingMessage
  rcases howns.allocate_cases allocator (sanitized message) with
    haborted | ⟨address, -, hdone, howns₁⟩
  · rw [haborted]
    exact Or.inl rfl
  -- The old message comes to the front, where it is dropped.
  have hfront : Owns base (put heap address (sanitized message))
      (h.pending.toList ++ ((address, sanitized message) :: (h.shown.toList ++ owned))) := by
    apply howns₁.perm
    show ((address, sanitized message) :: ((h.pending.toList ++ h.shown.toList) ++ owned)).Perm _
    rw [List.append_assoc]
    exact List.perm_middle.symm
  obtain ⟨heap', hdrop, howns'⟩ := dropMessage_spec hfront
  refine Or.inr ⟨address, heap', ?_, howns'⟩
  rw [hdone]
  show (dropMessage _ h.state.pendingMessage >>= _) = _
  rw [show dropMessage (put heap address (sanitized message)) h.state.pendingMessage = .ok heap'
    from hdrop]
  rfl

theorem takeMessagePtr_spec (howns : Owns base heap (h.blocks ++ owned)) :
    ∃ heap', h.state.takeMessagePtr heap =
        .ok ((h.pending.map Prod.fst).getD 0, Held.state ⟨none, h.pending⟩, heap') ∧
      Owns base heap' (Held.blocks ⟨none, h.pending⟩ ++ owned) := by
  have hfront : Owns base heap (h.shown.toList ++ (h.pending.toList ++ owned)) := by
    apply howns.perm
    show ((h.pending.toList ++ h.shown.toList) ++ owned).Perm _
    rw [← List.append_assoc]
    exact List.perm_append_comm.append_right _
  obtain ⟨heap', hdrop, howns'⟩ := dropMessage_spec hfront
  refine ⟨heap', ?_, howns'⟩
  unfold DlErrorState.takeMessagePtr Held.state
  dsimp only
  rw [hdrop]
  cases h.pending with
  | none => rfl
  | some message => rfl

theorem dropState_spec (howns : Owns base heap (h.blocks ++ owned)) :
    ∃ heap', h.state.dropState heap = .ok heap' ∧ Owns base heap' owned := by
  unfold Held.blocks at howns
  rw [List.append_assoc] at howns
  obtain ⟨heap₁, hpending, howns₁⟩ := dropMessage_spec howns
  obtain ⟨heap', hshown, howns'⟩ := dropMessage_spec howns₁
  refine ⟨heap', ?_, howns'⟩
  unfold DlErrorState.dropState Held.state
  dsimp only
  rw [hpending]
  exact hshown

end OneThread

/-- The threads own what they have, and it is what they were told. -/
def Messages.Keeps (base : Heap (List Char)) (s : Messages Thread) (told : Thread → Told) : Prop :=
  ∃ (held : Thread → Held) (threads : List Thread),
    (∀ t, s.states t = (held t).state) ∧ (∀ t, told t = (held t).told) ∧ threads.Nodup ∧
    (∀ t, t ∉ threads → held t = ⟨none, none⟩) ∧
    Owns base s.heap (threads.flatMap fun t => (held t).blocks)

omit [DecidableEq Thread] in
theorem Messages.keeps_start (base : Heap (List Char)) :
    (start base : Messages Thread).Keeps base fun _ => ⟨none, none⟩ :=
  ⟨fun _ => ⟨none, none⟩, [], fun _ => rfl, fun _ => rfl, List.nodup_nil, fun _ _ => rfl,
    Owns.refl base⟩

namespace Messages.Keeps

variable {base : Heap (List Char)} {s : Messages Thread} {told : Thread → Told}

/-- One thread and the others. -/
theorem focus (h : s.Keeps base told) (t : Thread) :
    ∃ (held : Thread → Held) (others : List Thread),
      (∀ u, s.states u = (held u).state) ∧ (∀ u, told u = (held u).told) ∧
      (t :: others).Nodup ∧ (∀ u, u ∉ t :: others → held u = ⟨none, none⟩) ∧
      Owns base s.heap ((held t).blocks ++ others.flatMap fun u => (held u).blocks) := by
  obtain ⟨held, threads, hstates, htold, hnodup, hrest, howns⟩ := h
  by_cases hmem : t ∈ threads
  · have hperm := List.perm_cons_erase hmem
    refine ⟨held, threads.erase t, hstates, htold, hperm.nodup_iff.mp hnodup, ?_, ?_⟩
    · intro u hu
      exact hrest u fun hin => hu (hperm.mem_iff.mp hin)
    · exact howns.perm (hperm.flatMap_right _)
  · refine ⟨held, threads, hstates, htold, List.nodup_cons.mpr ⟨hmem, hnodup⟩, ?_, ?_⟩
    · intro u hu
      exact hrest u fun hin => hu (List.mem_cons_of_mem _ hin)
    · rw [hrest t hmem]
      exact howns

/-- The thread changes what it has; the others have what they had. -/
theorem unfocus {held : Thread → Held} {others : List Thread} {t : Thread}
    (hstates : ∀ u, s.states u = (held u).state) (htold : ∀ u, told u = (held u).told)
    (hnodup : (t :: others).Nodup) (hrest : ∀ u, u ∉ t :: others → held u = ⟨none, none⟩)
    {heap : Heap (List Char)} (h : Held)
    (howns : Owns base heap (h.blocks ++ others.flatMap fun u => (held u).blocks)) :
    Keeps base ⟨heap, Function.update s.states t h.state⟩ (Function.update told t h.told) := by
  have hother : ∀ u ∈ others, Function.update held t h u = held u := by
    intro u hu
    have hne : u ≠ t := by
      rintro rfl
      exact (List.nodup_cons.mp hnodup).1 hu
    exact Function.update_of_ne hne _ _
  refine ⟨Function.update held t h, t :: others, ?_, ?_, hnodup, ?_, ?_⟩
  · intro u
    show Function.update s.states t h.state u = _
    by_cases heq : u = t
    · rw [heq, Function.update_self, Function.update_self]
    · rw [Function.update_of_ne heq, Function.update_of_ne heq]
      exact hstates u
  · intro u
    by_cases heq : u = t
    · rw [heq, Function.update_self, Function.update_self]
    · rw [Function.update_of_ne heq, Function.update_of_ne heq]
      exact htold u
  · intro u hu
    have hne : u ≠ t := by
      rintro rfl
      exact hu List.mem_cons_self
    rw [Function.update_of_ne hne]
    exact hrest u hu
  · have hsame : (others.flatMap fun u => (Function.update held t h u).blocks) =
        others.flatMap fun u => (held u).blocks :=
      List.flatMap_congr fun u hu => by rw [hother u hu]
    rw [List.flatMap_cons, Function.update_self, hsame]
    exact howns

/-- **Step lemma.**  A step ends the process for want of memory, or keeps everything. -/
theorem step (allocator : Allocator (List Char)) (h : s.Keeps base told)
    (action : MessageAction Thread) :
    s.step allocator action = .error .aborted ∨
    ∃ s', s.step allocator action = .ok s' ∧ s'.Keeps base (Told.after told action) := by
  cases action with
  | fail t message =>
    obtain ⟨held, others, hstates, htold, hnodup, hrest, howns⟩ := h.focus t
    unfold Messages.step
    dsimp only
    rw [hstates t]
    rcases setPendingMessage_spec allocator message howns with
      haborted | ⟨address, heap', hdone, howns'⟩
    · rw [haborted]
      exact Or.inl rfl
    · rw [hdone]
      refine Or.inr ⟨_, rfl, ?_⟩
      have hkeeps := unfocus hstates htold hnodup hrest _ howns'
      unfold Told.after
      dsimp only
      rw [htold t]
      exact hkeeps
  | dlerror t =>
    obtain ⟨held, others, hstates, htold, hnodup, hrest, howns⟩ := h.focus t
    obtain ⟨heap', hdone, howns'⟩ := takeMessagePtr_spec howns
    unfold Messages.step
    dsimp only
    rw [hstates t, hdone]
    refine Or.inr ⟨_, rfl, ?_⟩
    have hkeeps := unfocus hstates htold hnodup hrest _ howns'
    unfold Told.after
    dsimp only
    rw [htold t]
    exact hkeeps
  | exit t =>
    obtain ⟨held, others, hstates, htold, hnodup, hrest, howns⟩ := h.focus t
    obtain ⟨heap', hdone, howns'⟩ := dropState_spec howns
    unfold Messages.step
    dsimp only
    rw [hstates t, hdone]
    exact Or.inr ⟨_, rfl, unfocus hstates htold hnodup hrest ⟨none, none⟩ howns'⟩

/-- **Run lemma.** -/
theorem run (allocator : Allocator (List Char)) (h : s.Keeps base told)
    (actions : List (MessageAction Thread)) :
    s.run allocator actions = .error .aborted ∨
    ∃ s', s.run allocator actions = .ok s' ∧
      s'.Keeps base (actions.foldl Told.after told) := by
  induction actions generalizing s told with
  | nil => exact Or.inr ⟨s, rfl, h⟩
  | cons action actions ih =>
    rw [Messages.run]
    rcases h.step allocator action with haborted | ⟨s₁, hdone, hkeeps⟩
    · rw [haborted]
      exact Or.inl rfl
    · rw [hdone]
      exact ih hkeeps

end Messages.Keeps

/-- The addresses of the strings of a thread. -/
def DlErrorState.pointers (state : DlErrorState) : List Nat :=
  state.pendingMessage.toList ++ state.lastReturnedMessage.toList

theorem Held.pointers_state (h : Held) : h.state.pointers = h.blocks.map Prod.fst := by
  unfold DlErrorState.pointers Held.state Held.blocks
  rw [List.map_append]
  cases h.pending <;> cases h.shown <;> rfl

section Owned

variable {base heap : Heap (List Char)} {held : Thread → Held} {threads : List Thread}

/-- A string of a thread stands where its pointer says. -/
theorem map_heap_eq {owned : List (Nat × List Char)} (howns : Owns base heap owned)
    {block : Option (Nat × List Char)} (hblock : ∀ b ∈ block, b ∈ owned) :
    (block.map Prod.fst).map heap = (block.map Prod.snd).map some := by
  cases block with
  | none => rfl
  | some b =>
    show some (heap b.1) = some (some b.2)
    rw [howns.live b (hblock b rfl)]

end Owned

end Rlibc.Dlfcn
