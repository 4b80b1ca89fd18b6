import Mathlib.Algebra.GroupWithZero.Nat
import Rlibc.Wchar.StringRoundTrip

/-!
# Converting a string in several calls

`mbsrtowcs` and `wcsrtombs` leave in `*src` and in the state what the next call needs.  A session
is the caller's loop: it calls with one capacity after another until a null pointer is stored or
a call fails.
-/

namespace Rlibc.Wchar

open Utf8Sequences

/-! ## One call -/

section

variable {state : MbState} {text stuck : List UInt8} {cs : List Char}

theorem mbsrtowcs_fills (hvalid : state.Valid) (hnul : 0 ∉ text)
    (h : Split state.pending text cs stuck) {n : Nat} (hpos : 0 < n) (hn : n ≤ cs.length) :
    mbsrtowcs (some n) (some (some text)) state =
      ⟨n, wides (cs.take n), some (text.drop (past state.pending (cs.take n))), .new, none⟩ := by
  have hloop := toWideLoop_fills hvalid hnul h [] hn
  rw [List.length_nil, Nat.zero_add, List.nil_append, if_neg (by omega)] at hloop
  have hcount : (wides (cs.take n)).length = n := by
    rw [wides_length, List.length_take, Nat.min_eq_left hn]
  unfold mbsrtowcs
  dsimp only
  rw [if_neg (by omega), hloop]
  dsimp only
  rw [hcount]

theorem mbsrtowcs_ends (hvalid : state.Valid) (hnul : 0 ∉ text)
    (h : Split state.pending text cs stuck) {n : Nat} (hn : cs.length < n) :
    mbsrtowcs (some n) (some (some text)) state =
      if stuck = [] then ⟨cs.length, wides cs ++ [0], none, .new, none⟩
      else ⟨usizeMax, wides cs, some (text.drop (past state.pending cs)), .new, some EILSEQ⟩ := by
  have hroom : Roomy (some n) (([] : List Int).length + cs.length) := by
    rw [List.length_nil, Nat.zero_add]
    exact roomy_some hn
  have hloop := toWideLoop_ends hvalid hnul h [] hroom
  unfold mbsrtowcs
  dsimp only
  rw [if_neg (by omega), hloop, List.nil_append]
  by_cases hnil : stuck = []
  · rw [if_pos hnil, if_pos hnil]
    dsimp only
    rw [wides_length]
  · rw [if_neg hnil, if_neg hnil]

theorem mbsrtowcs_counts (hvalid : state.Valid) (hnul : 0 ∉ text)
    (h : Split state.pending text cs stuck) :
    mbsrtowcs none (some (some text)) state =
      if stuck = [] then ⟨cs.length, [], some text, .new, none⟩
      else ⟨usizeMax, [], some text, .new, some EILSEQ⟩ := by
  have hroom : Roomy none (([] : List Int).length + cs.length) :=
    fun n hn => absurd hn.symm (Option.some_ne_none n)
  have hloop := toWideLoop_ends hvalid hnul h [] hroom
  unfold mbsrtowcs
  dsimp only
  rw [hloop, List.nil_append]
  by_cases hnil : stuck = []
  · rw [if_pos hnil, if_pos hnil]
    dsimp only
    rw [wides_length]
  · rw [if_neg hnil, if_neg hnil]

/-- Behind the characters of one call the text is cut as it was. -/
theorem Split.advance (hvalid : state.Valid) (hnul : 0 ∉ text)
    (h : Split state.pending text cs stuck) {n : Nat} (hpos : 0 < n) (hn : n ≤ cs.length) :
    state.pending.length ≤ ((cs.take n).flatMap encode).length ∧
      Split [] (text.drop (past state.pending (cs.take n))) (cs.drop n) stuck := by
  have hle : state.pending.length ≤ ((cs.take n).flatMap encode).length := by
    cases cs with
    | nil =>
      rw [List.length_nil] at hn
      omega
    | cons c cs =>
      have hlonger := (readWide_char hvalid hnul h).1
      obtain ⟨m, rfl⟩ := Nat.exists_eq_succ_of_ne_zero (Nat.ne_of_gt hpos)
      rw [List.take_succ_cons, List.flatMap_cons, List.length_append]
      omega
  refine ⟨hle, ?_, h.stuck⟩
  have hcut : state.pending ++ text =
      (cs.take n).flatMap encode ++ ((cs.drop n).flatMap encode ++ stuck) := by
    rw [← List.append_assoc, ← List.flatMap_append, List.take_append_drop]
    exact h.eq
  have hdrop := congrArg (List.drop ((cs.take n).flatMap encode).length) hcut
  rw [List.drop_left, List.drop_append, List.drop_eq_nil_of_le hle] at hdrop
  exact hdrop

end

/-! ## Sessions -/

/-- The caller's variables between two calls: the pointer and the state that the calls share, the
elements stored so far, the sum of the counts, and whether a call has failed. -/
structure Session (σ α : Type) where
  src : Option (List σ)
  state : MbState
  delivered : List α
  counted : Nat
  failed : Bool

section

variable {σ α : Type}

/-- One more call, unless a null pointer is stored or a call has failed. -/
def Session.next
    (convert : Option Nat → Option (Option (List σ)) → MbState → ResumeResult σ α)
    (session : Session σ α) (capacity : Nat) : Session σ α :=
  if session.failed = true ∨ session.src.isNone then session
  else
    let result := convert (some capacity) (some session.src) session.state
    { src := result.src, state := result.state, delivered := session.delivered ++ result.written,
      counted := if result.ret = usizeMax then session.counted else session.counted + result.ret,
      failed := result.ret == usizeMax }

/-- A session over the given capacities. -/
def Session.run
    (convert : Option Nat → Option (Option (List σ)) → MbState → ResumeResult σ α)
    (session : Session σ α) (capacities : List Nat) : Session σ α :=
  capacities.foldl (Session.next convert) session

/-- The session before its first call. -/
def Session.start (text : List σ) (state : MbState) : Session σ α :=
  ⟨some text, state, [], 0, false⟩

variable (convert : Option Nat → Option (Option (List σ)) → MbState → ResumeResult σ α)

/-- A session that is over stays as it is. -/
theorem Session.run_over {session : Session σ α}
    (h : session.failed = true ∨ session.src.isNone = true) (capacities : List Nat) :
    session.run convert capacities = session := by
  induction capacities with
  | nil => rfl
  | cons n capacities ih =>
    have hnext : session.next convert n = session := if_pos h
    change (session.next convert n).run convert capacities = session
    rw [hnext, ih]

theorem Session.next_call (text : List σ) (state : MbState) (delivered : List α) (counted n : Nat)
    {result : ResumeResult σ α} (hcall : convert (some n) (some (some text)) state = result) :
    Session.next convert ⟨some text, state, delivered, counted, false⟩ n =
      ⟨result.src, result.state, delivered ++ result.written,
        if result.ret = usizeMax then counted else counted + result.ret,
        result.ret == usizeMax⟩ := by
  subst hcall
  rfl

end

/-! ### `mbsrtowcs` -/

theorem past_append {before : List UInt8} {cs ds : List Char}
    (hle : before.length ≤ (cs.flatMap encode).length) :
    past before (cs ++ ds) = past before cs + past [] ds := by
  unfold past
  rw [List.flatMap_append, List.length_append, List.length_nil]
  omega

theorem wides_append (cs ds : List Char) : wides (cs ++ ds) = wides cs ++ wides ds :=
  List.map_append

/-- What a session of `mbsrtowcs` stands on: a valid state and the text from the cursor on. -/
structure Cut (state : MbState) (text : List UInt8) (cs : List Char) (stuck : List UInt8) : Prop
    extends Split state.pending text cs stuck where
  valid : state.Valid
  noNul : 0 ∉ text
  small : cs.length < usizeMax

section

variable {state : MbState} {text stuck : List UInt8} {cs : List Char}

theorem Cut.advance (h : Cut state text cs stuck) {n : Nat} (hpos : 0 < n) (hn : n ≤ cs.length) :
    Cut .new (text.drop (past state.pending (cs.take n))) (cs.drop n) stuck := by
  refine ⟨(h.toSplit.advance h.valid h.noNul hpos hn).2, MbState.new_valid, drop_nul h.noNul _, ?_⟩
  have hsmall := h.small
  rw [List.length_drop]
  omega

/-- Where a cursor stands behind the characters of one call and then some more. -/
theorem Cut.drop_past (h : Cut state text cs stuck) {n : Nat} (hpos : 0 < n) (hn : n ≤ cs.length)
    (ds : List Char) :
    (text.drop (past state.pending (cs.take n))).drop (past MbState.new.pending ds) =
      text.drop (past state.pending (cs.take n ++ ds)) := by
  rw [List.drop_drop, past_append (h.toSplit.advance h.valid h.noNul hpos hn).1]
  rfl

/-- A call within the row. -/
theorem mbsSession_call (h : Cut state text cs stuck) (delivered : List Int) (counted : Nat)
    {n : Nat} (hpos : 0 < n) (hn : n ≤ cs.length) (capacities : List Nat) :
    Session.run mbsrtowcs ⟨some text, state, delivered, counted, false⟩ (n :: capacities) =
      Session.run mbsrtowcs
        ⟨some (text.drop (past state.pending (cs.take n))), .new, delivered ++ wides (cs.take n),
          counted + n, false⟩ capacities := by
  have hcall := mbsrtowcs_fills h.valid h.noNul h.toSplit hpos hn
  have hsmall := h.small
  change Session.run mbsrtowcs (Session.next mbsrtowcs _ n) capacities = _
  rw [Session.next_call mbsrtowcs text state delivered counted n hcall]
  dsimp only
  rw [if_neg (by omega), show (n == usizeMax) = false from beq_false_of_ne (by omega)]

/-- While the capacities stay within the row, a session delivers as many characters. -/
theorem mbsSession_goes_on {capacities : List Nat} (hpos : ∀ n ∈ capacities, 0 < n)
    (h : Cut state text cs stuck) (delivered : List Int) (counted : Nat)
    (hsum : capacities.sum ≤ cs.length) :
    Session.run mbsrtowcs ⟨some text, state, delivered, counted, false⟩ capacities =
      ⟨some (text.drop (past state.pending (cs.take capacities.sum))),
        if capacities.sum = 0 then state else .new, delivered ++ wides (cs.take capacities.sum),
        counted + capacities.sum, false⟩ := by
  induction capacities generalizing state text cs delivered counted with
  | nil =>
    rw [List.sum_nil, if_pos rfl, List.take_zero, past_nil, List.drop_zero]
    simp only [wides, List.map_nil, List.append_nil, Nat.add_zero]
    rfl
  | cons n capacities ih =>
    have hn := hpos n List.mem_cons_self
    rw [List.sum_cons] at hsum ⊢
    have hfirst : n ≤ cs.length := Nat.le_of_add_right_le hsum
    have hmore : capacities.sum ≤ (cs.drop n).length := by
      rw [List.length_drop]
      omega
    have hrest := ih (fun m hm => hpos m (List.mem_cons_of_mem _ hm)) (h.advance hn hfirst)
      (delivered ++ wides (cs.take n)) (counted + n) hmore
    rw [mbsSession_call h delivered counted hn hfirst, hrest, h.drop_past hn hfirst,
      if_neg (show ¬ n + capacities.sum = 0 by omega), ite_self, List.take_add, wides_append,
      List.append_assoc, Nat.add_assoc]

/-- Beyond the row of a text that is well formed, a session stores a null pointer. -/
theorem mbsSession_done {capacities : List Nat} (hpos : ∀ n ∈ capacities, 0 < n)
    (h : Cut state text cs []) (delivered : List Int) (counted : Nat)
    (hsum : cs.length < capacities.sum) :
    Session.run mbsrtowcs ⟨some text, state, delivered, counted, false⟩ capacities =
      ⟨none, .new, delivered ++ (wides cs ++ [0]), counted + cs.length, false⟩ := by
  induction capacities generalizing state text cs delivered counted with
  | nil => exact absurd hsum (Nat.not_lt_zero _)
  | cons n capacities ih =>
    have hn := hpos n List.mem_cons_self
    have hsmall := h.small
    rw [List.sum_cons] at hsum
    by_cases hfirst : n ≤ cs.length
    · have hmore : (cs.drop n).length < capacities.sum := by
        rw [List.length_drop]
        omega
      have hrest := ih (fun m hm => hpos m (List.mem_cons_of_mem _ hm)) (h.advance hn hfirst)
        (delivered ++ wides (cs.take n)) (counted + n) hmore
      rw [mbsSession_call h delivered counted hn hfirst, hrest, List.append_assoc,
        ← List.append_assoc (wides _), ← wides_append, List.take_append_drop, List.length_drop,
        show counted + n + (cs.length - n) = counted + cs.length by omega]
    · have hcall := mbsrtowcs_ends h.valid h.noNul h.toSplit (Nat.lt_of_not_le hfirst)
      rw [if_pos rfl] at hcall
      change Session.run mbsrtowcs (Session.next mbsrtowcs _ n) capacities = _
      rw [Session.next_call mbsrtowcs text state delivered counted n hcall]
      dsimp only
      rw [if_neg (by omega), show (cs.length == usizeMax) = false from beq_false_of_ne (by omega)]
      exact Session.run_over mbsrtowcs (Or.inr rfl) capacities

/-- Beyond the row of any other text, a session fails in front of the rest. -/
theorem mbsSession_fails {capacities : List Nat} (hpos : ∀ n ∈ capacities, 0 < n)
    (h : Cut state text cs stuck) (hstuck : stuck ≠ []) (delivered : List Int) (counted : Nat)
    (hsum : cs.length < capacities.sum) :
    ∃ total, Session.run mbsrtowcs ⟨some text, state, delivered, counted, false⟩ capacities =
      ⟨some (text.drop (past state.pending cs)), .new, delivered ++ wides cs, total, true⟩ := by
  induction capacities generalizing state text cs delivered counted with
  | nil => exact absurd hsum (Nat.not_lt_zero _)
  | cons n capacities ih =>
    have hn := hpos n List.mem_cons_self
    rw [List.sum_cons] at hsum
    by_cases hfirst : n ≤ cs.length
    · have hmore : (cs.drop n).length < capacities.sum := by
        rw [List.length_drop]
        omega
      obtain ⟨total, hrest⟩ := ih (fun m hm => hpos m (List.mem_cons_of_mem _ hm))
        (h.advance hn hfirst) (delivered ++ wides (cs.take n)) (counted + n) hmore
      refine ⟨total, ?_⟩
      rw [mbsSession_call h delivered counted hn hfirst, hrest, h.drop_past hn hfirst,
        List.append_assoc, ← wides_append, List.take_append_drop]
    · have hcall := mbsrtowcs_ends h.valid h.noNul h.toSplit (Nat.lt_of_not_le hfirst)
      rw [if_neg hstuck] at hcall
      refine ⟨counted, ?_⟩
      change Session.run mbsrtowcs (Session.next mbsrtowcs _ n) capacities = _
      rw [Session.next_call mbsrtowcs text state delivered counted n hcall]
      exact Session.run_over mbsrtowcs (Or.inl rfl) capacities

end

/-! ### `wcsrtombs` -/

section

variable {units bad : List Int} {cs : List Char}

theorem WideSplit.advance (h : WideSplit units cs bad) {k : Nat} (hk : k ≤ cs.length) :
    units.drop k = wides (cs.drop k) ++ bad ∧ WideSplit (units.drop k) (cs.drop k) bad := by
  have heq : units.drop k = wides (cs.drop k) ++ bad := by
    rw [h.eq, List.drop_append_of_le_length (by rw [wides_length]; exact hk)]
    unfold wides
    rw [List.map_drop]
  exact ⟨heq, heq, h.bad⟩

/-- The three outcomes of a call with room for any one character. -/
inductive ByteCall (n : Nat) (units : List Int) (cs : List Char) (bad : List Int) : Prop
  | stopped (k : Nat) (pos : 0 < k) (le : k ≤ cs.length)
      (call : wcsrtombs (some n) (some (some units)) .new =
        ⟨((cs.take k).flatMap encode).length, (cs.take k).flatMap encode, some (units.drop k), .new,
          none⟩)
  | done (nil : bad = [])
      (call : wcsrtombs (some n) (some (some units)) .new =
        ⟨(cs.flatMap encode).length, cs.flatMap encode ++ [0], none, .new, none⟩)
  | failed (ne : bad ≠ [])
      (call : wcsrtombs (some n) (some (some units)) .new =
        ⟨usizeMax, cs.flatMap encode, some bad, .new, some EILSEQ⟩)

theorem wcsrtombsLoop_fitting (h : WideSplit units cs bad) {n : Nat}
    (hfits : (cs.flatMap encode).length ≤ n) :
    wcsrtombsLoop (some n) units [] =
      ⟨if bad = [] then .terminator else .invalid, cs.flatMap encode, bad⟩ := by
  have hroom : overflows (some n) (([] : List UInt8).length + (cs.flatMap encode).length) =
      false := by
    rw [Bool.eq_false_iff, ne_eq, overflows_iff]
    rintro ⟨m, hm, hlt⟩
    rw [Option.some.injEq] at hm
    rw [List.length_nil] at hlt
    omega
  have hloop := wcsrtombsLoop_ends cs h.bad hroom
  rw [← h.eq, List.nil_append] at hloop
  exact hloop

/-- A call with room for everything that can be converted. -/
theorem wcsrtombs_ends (h : WideSplit units cs bad) {n : Nat} (hpos : 0 < n)
    (hfits : (cs.flatMap encode).length ≤ n) (hend : bad = [] → (cs.flatMap encode).length < n) :
    wcsrtombs (some n) (some (some units)) .new =
      if bad = [] then
        ⟨(cs.flatMap encode).length, cs.flatMap encode ++ [0], none, .new, none⟩
      else ⟨usizeMax, cs.flatMap encode, some bad, .new, some EILSEQ⟩ := by
  have hzero : some n ≠ some 0 := by
    simp only [ne_eq, Option.some.injEq]
    omega
  have hinitial : ¬ ¬ MbState.new.isInitial = true := not_not.mpr rfl
  unfold wcsrtombs
  dsimp only
  rw [if_neg hzero, if_neg hinitial, wcsrtombsLoop_fitting h hfits]
  by_cases hnil : bad = []
  · rw [if_pos hnil, if_pos hnil]
    dsimp only
    rw [if_pos (hend hnil)]
  · rw [if_neg hnil, if_neg hnil]

theorem wcsrtombs_call (h : WideSplit units cs bad) {n : Nat} (hn : 4 ≤ n) :
    ByteCall n units cs bad := by
  have hzero : some n ≠ some 0 := by
    simp only [ne_eq, Option.some.injEq]
    omega
  have hinitial : ¬ ¬ MbState.new.isInitial = true := not_not.mpr rfl
  -- All bytes fit, or the call stops at the last character that still does.
  by_cases hfits : (cs.flatMap encode).length ≤ n
  · by_cases hwait : bad = [] ∧ (cs.flatMap encode).length = n
    · -- The bytes fill the room, and the terminator waits for the next call.
      have hpos : 0 < cs.length := by
        have hle := flatMap_length_le cs
        omega
      have hend : units.drop cs.length = bad := by
        rw [(h.advance (Nat.le_refl _)).1, List.drop_length]
        rfl
      refine .stopped cs.length hpos (Nat.le_refl _) ?_
      rw [List.take_length, hend]
      unfold wcsrtombs
      dsimp only
      rw [if_neg hzero, if_neg hinitial, wcsrtombsLoop_fitting h hfits, if_pos hwait.1]
      dsimp only
      rw [if_neg (by omega)]
    · have hends := wcsrtombs_ends h (by omega) hfits
        (fun hnil => Nat.lt_of_le_of_ne hfits fun heq => hwait ⟨hnil, heq⟩)
      by_cases hnil : bad = []
      · exact .done hnil (hends.trans (if_pos hnil))
      · exact .failed hnil (hends.trans (if_neg hnil))
  · have hshort : n < ([] : List UInt8).length + (cs.flatMap encode).length := by
      rw [List.length_nil]
      omega
    -- No character needs more than four bytes, so a call with that much room writes one.
    obtain ⟨k, hk, hloop, hnext⟩ := @wcsrtombsLoop_fills bad [] n cs (Nat.zero_le n) hshort
    rw [← h.eq, List.nil_append, ← (h.advance (Nat.le_of_lt hk)).1] at hloop
    have hpos : 0 < k := by
      rcases Nat.eq_zero_or_pos k with hzero | hpos
      · rw [hzero, List.length_nil, Nat.zero_add] at hnext
        have hle := flatMap_length_le (cs.take (0 + 1))
        have hone : (cs.take (0 + 1)).length ≤ 1 := List.length_take_le _ _
        omega
      · exact hpos
    refine .stopped k hpos (Nat.le_of_lt hk) ?_
    unfold wcsrtombs
    dsimp only
    rw [if_neg hzero, if_neg hinitial, hloop]

/-- A session of `wcsrtombs` has delivered whole characters, at least one for each call, or it is
over. -/
inductive ByteSession (session : Session Int UInt8) (units : List Int) (cs : List Char)
    (bad : List Int) (delivered : List UInt8) (counted calls : Nat) : Prop
  | going (k : Nat) (calls_le : calls ≤ k) (le : k ≤ cs.length)
      (eq : session = ⟨some (units.drop k), .new, delivered ++ (cs.take k).flatMap encode,
        counted + ((cs.take k).flatMap encode).length, false⟩)
  | done (nil : bad = [])
      (eq : session = ⟨none, .new, delivered ++ (cs.flatMap encode ++ [0]),
        counted + (cs.flatMap encode).length, false⟩)
  | failed (ne : bad ≠ []) (total : Nat)
      (eq : session = ⟨some bad, .new, delivered ++ cs.flatMap encode, total, true⟩)

theorem wcsSession {capacities : List Nat} (hcap : ∀ n ∈ capacities, 4 ≤ n)
    (h : WideSplit units cs bad) (hsmall : (cs.flatMap encode).length < usizeMax)
    (delivered : List UInt8) (counted : Nat) :
    ByteSession (Session.run wcsrtombs ⟨some units, .new, delivered, counted, false⟩ capacities)
      units cs bad delivered counted capacities.length := by
  -- Induction on the calls; each goes on where the one before it stopped.
  induction capacities generalizing units cs delivered counted with
  | nil =>
    refine .going 0 (Nat.le_refl 0) (Nat.zero_le _) ?_
    rw [List.take_zero, List.flatMap_nil, List.append_nil]
    rfl
  | cons n capacities ih =>
    change ByteSession (Session.run wcsrtombs (Session.next wcsrtombs _ n) capacities) _ _ _ _ _ _
    cases wcsrtombs_call h (hcap n List.mem_cons_self) with
    | stopped k pos le call =>
      have hcut : cs.flatMap encode = (cs.take k).flatMap encode ++ (cs.drop k).flatMap encode := by
        rw [← List.flatMap_append, List.take_append_drop]
      have hlen := congrArg List.length hcut
      rw [List.length_append] at hlen
      have hrest := ih (fun m hm => hcap m (List.mem_cons_of_mem _ hm)) (h.advance le).2
        (by omega) (delivered ++ (cs.take k).flatMap encode)
        (counted + ((cs.take k).flatMap encode).length)
      rw [Session.next_call wcsrtombs units .new delivered counted n call]
      dsimp only
      rw [if_neg (by omega), show (((cs.take k).flatMap encode).length == usizeMax) = false from
        beq_false_of_ne (by omega)]
      cases hrest with
      | going j calls_le le' eq =>
        rw [List.length_drop] at le'
        refine .going (k + j) (by rw [List.length_cons]; omega) (by omega) ?_
        rw [eq, List.drop_drop, List.take_add, List.flatMap_append, List.length_append,
          List.append_assoc, Nat.add_assoc]
      | done nil eq =>
        refine .done nil ?_
        rw [eq, List.append_assoc, ← List.append_assoc (List.flatMap _ _), ← hcut, Nat.add_assoc,
          ← hlen]
      | failed ne total eq =>
        refine .failed ne total ?_
        rw [eq, List.append_assoc, ← hcut]
    | done nil call =>
      rw [Session.next_call wcsrtombs units .new delivered counted n call]
      dsimp only
      rw [if_neg (by omega), show ((cs.flatMap encode).length == usizeMax) = false from
        beq_false_of_ne (by omega)]
      exact .done nil (Session.run_over wcsrtombs (Or.inr rfl) capacities)
    | failed ne call =>
      rw [Session.next_call wcsrtombs units .new delivered counted n call]
      exact .failed ne counted (Session.run_over wcsrtombs (Or.inl rfl) capacities)

end

/-! ## Nothing is lost -/

theorem Split.cut {state : MbState} (hvalid : state.Valid) (text : CText) {cs : List Char}
    {stuck : List UInt8} (h : Split state.pending text.bytes cs stuck) :
    Cut state text.bytes cs stuck := by
  refine ⟨h, hvalid, text.noNul, ?_⟩
  have hfits := text.fits
  cases cs with
  | nil => exact Nat.lt_of_le_of_lt (Nat.zero_le _) hfits
  | cons c cs =>
    -- The first character has a byte in the text, and so has each later one.
    have hlonger := (readWide_char hvalid text.noNul h).1
    have hlen := congrArg List.length h.eq
    have hle := length_le_flatMap cs
    rw [List.flatMap_cons, List.length_append, List.length_append, List.length_append] at hlen
    rw [List.length_cons]
    omega

theorem Cut.chars_nonzero {state : MbState} {text stuck : List UInt8} {cs : List Char}
    (h : Cut state text cs stuck) : 0 ∉ wides cs := by
  intro hmem
  obtain ⟨c, hc, hzero⟩ := List.mem_map.mp hmem
  have hbytes : 0 ∈ state.pending ++ text := by
    rw [h.eq]
    refine List.mem_append_left _ (List.mem_flatMap.mpr ⟨c, hc, ?_⟩)
    rw [encode_eq, show c.toNat = 0 by omega]
    exact List.mem_singleton_self _
  cases List.mem_append.mp hbytes with
  | inl hpending => exact zero_notMem_pending h.valid hpending
  | inr htext => exact h.noNul htext

/-- **Resumable conversion loses nothing.**  A session of `mbsrtowcs` over positive capacities
delivers as many characters as there was room for, each time with the pointer just past their
bytes, until it has delivered what one call without a limit stores, terminator included, or fails
where that call fails.  A session of `wcsrtombs` over capacities of at least 4 does so in whole
characters. -/
theorem string_conversion_resumes :
    (∀ (text : CText) (state : MbState), state.Valid → ∀ capacities : List Nat,
      (∀ n ∈ capacities, 0 < n) → ∃ chars stuck, Split state.pending text.bytes chars stuck ∧
        0 ∉ wides chars ∧
        (mbsrtowcs (some usizeMax) (some (some text.bytes)) state).written =
          (if stuck = [] then wides chars ++ [0] else wides chars) ∧
        (mbsrtowcs (some usizeMax) (some (some text.bytes)) state).ret =
          (if stuck = [] then chars.length else usizeMax) ∧
        (capacities.sum ≤ chars.length →
          Session.run mbsrtowcs (.start text.bytes state) capacities =
            ⟨some (text.bytes.drop (past state.pending (chars.take capacities.sum))),
              if capacities.sum = 0 then state else .new, wides (chars.take capacities.sum),
              capacities.sum, false⟩) ∧
        (chars.length < capacities.sum → stuck = [] →
          Session.run mbsrtowcs (.start text.bytes state) capacities =
            ⟨none, .new, (mbsrtowcs (some usizeMax) (some (some text.bytes)) state).written,
              chars.length, false⟩) ∧
        (chars.length < capacities.sum → stuck ≠ [] →
          ∃ total, Session.run mbsrtowcs (.start text.bytes state) capacities =
            ⟨some (text.bytes.drop (past state.pending chars)), .new,
              (mbsrtowcs (some usizeMax) (some (some text.bytes)) state).written, total, true⟩)) ∧
      ∀ (wide : WideText) (capacities : List Nat), (∀ n ∈ capacities, 4 ≤ n) →
        ∃ chars bad, WideSplit wide.units chars bad ∧
          (wcsrtombs (some usizeMax) (some (some wide.units)) .new).written =
            (if bad = [] then chars.flatMap encode ++ [0] else chars.flatMap encode) ∧
          (wcsrtombs (some usizeMax) (some (some wide.units)) .new).ret =
            (if bad = [] then (chars.flatMap encode).length else usizeMax) ∧
          ((∃ k, capacities.length ≤ k ∧ k ≤ chars.length ∧
            Session.run wcsrtombs (.start wide.units .new) capacities =
              ⟨some (wide.units.drop k), .new, (chars.take k).flatMap encode,
                ((chars.take k).flatMap encode).length, false⟩) ∨
          (bad = [] ∧ Session.run wcsrtombs (.start wide.units .new) capacities =
            ⟨none, .new, (wcsrtombs (some usizeMax) (some (some wide.units)) .new).written,
              (chars.flatMap encode).length, false⟩) ∨
          (bad ≠ [] ∧ ∃ total, Session.run wcsrtombs (.start wide.units .new) capacities =
            ⟨some bad, .new, (wcsrtombs (some usizeMax) (some (some wide.units)) .new).written,
              total, true⟩)) := by
  constructor
  · intro text state hvalid capacities hpos
    obtain ⟨chars, stuck, hsplit⟩ := exists_split state.pending text.bytes
    have hcut := hsplit.cut hvalid text
    -- The one call that has room for everything is the reference.
    -- The same for wide characters; here a call converts what fits, not a fixed number.
    have hwhole := mbsrtowcs_ends hvalid text.noNul hsplit hcut.small
    have hwritten : (mbsrtowcs (some usizeMax) (some (some text.bytes)) state).written =
        if stuck = [] then wides chars ++ [0] else wides chars := by
      rw [hwhole]
      split_ifs <;> rfl
    refine ⟨chars, stuck, hsplit, hcut.chars_nonzero, hwritten, ?_, ?_, ?_, ?_⟩
    · rw [hwhole]
      split_ifs <;> rfl
    · intro hsum
      have hrun := mbsSession_goes_on hpos hcut [] 0 hsum
      rw [List.nil_append, Nat.zero_add] at hrun
      exact hrun
    · intro hsum hnil
      rw [hwritten, if_pos hnil]
      have hrun := mbsSession_done hpos (hnil ▸ hcut) [] 0 hsum
      rw [List.nil_append, Nat.zero_add] at hrun
      exact hrun
    · intro hsum hne
      rw [hwritten, if_neg hne]
      obtain ⟨total, hrun⟩ := mbsSession_fails hpos hcut hne [] 0 hsum
      rw [List.nil_append] at hrun
      exact ⟨total, hrun⟩
  · intro wide capacities hcap
    obtain ⟨chars, bad, hsplit⟩ := exists_wideSplit wide.units
    have hlen := congrArg List.length hsplit.eq
    rw [List.length_append, wides_length] at hlen
    have hcount := flatMap_length_le chars
    have hfits := wide.fits
    have hsmall : (chars.flatMap encode).length < usizeMax := by omega
    have hwhole := wcsrtombs_ends hsplit (by omega) (Nat.le_of_lt hsmall) (fun _ => hsmall)
    have hwritten : (wcsrtombs (some usizeMax) (some (some wide.units)) .new).written =
        if bad = [] then chars.flatMap encode ++ [0] else chars.flatMap encode := by
      rw [hwhole]
      split_ifs <;> rfl
    refine ⟨chars, bad, hsplit, hwritten, ?_, ?_⟩
    · rw [hwhole]
      split_ifs <;> rfl
    · cases wcsSession hcap hsplit hsmall [] 0 with
      | going k calls_le le eq =>
        rw [List.nil_append, Nat.zero_add] at eq
        exact Or.inl ⟨k, calls_le, le, eq⟩
      | done nil eq =>
        rw [List.nil_append, Nat.zero_add] at eq
        rw [hwritten, if_pos nil]
        exact Or.inr (Or.inl ⟨nil, eq⟩)
      | failed ne total eq =>
        rw [List.nil_append] at eq
        rw [hwritten, if_neg ne]
        exact Or.inr (Or.inr ⟨ne, total, eq⟩)

/-- U+20AC and a letter through destinations of one element, and back through those of four. -/
theorem string_conversion_resumes_euro :
    Session.run mbsrtowcs (.start [0xE2, 0x82, 0xAC, 0x61] .new) [1, 1, 1] =
      ⟨none, .new, [0x20AC, 0x61, 0], 2, false⟩ ∧
    Session.run wcsrtombs (.start [0x20AC, 0x61] .new) [4, 4, 4] =
      ⟨none, .new, [0xE2, 0x82, 0xAC, 0x61, 0], 4, false⟩ := by
  constructor
  · obtain ⟨chars, stuck, -, -, -, hret, -, hdone, -⟩ := string_conversion_resumes.1
      ⟨[0xE2, 0x82, 0xAC, 0x61], by decide, by decide⟩ .new MbState.new_valid [1, 1, 1] (by decide)
    have htwo : (mbsrtowcs (some usizeMax) (some (some [0xE2, 0x82, 0xAC, 0x61])) .new).ret = 2 := by
      decide +kernel
    have hwritten : (mbsrtowcs (some usizeMax) (some (some [0xE2, 0x82, 0xAC, 0x61])) .new).written =
        [0x20AC, 0x61, 0] := by
      decide +kernel
    dsimp only at hret hdone
    rw [htwo] at hret
    rw [hwritten] at hdone
    split at hret
    · rename_i hstuck
      rw [hdone (hret ▸ by decide) hstuck, ← hret]
    · cases hret
  · obtain ⟨chars, bad, hsplit, -, hret, hrun⟩ := string_conversion_resumes.2
      ⟨[0x20AC, 0x61], by decide, by decide, by decide⟩ [4, 4, 4] (by decide)
    have hfour : (wcsrtombs (some usizeMax) (some (some [0x20AC, 0x61])) .new).ret = 4 := by
      decide +kernel
    have hwritten : (wcsrtombs (some usizeMax) (some (some [0x20AC, 0x61])) .new).written =
        [0xE2, 0x82, 0xAC, 0x61, 0] := by
      decide +kernel
    dsimp only at hret hrun
    rw [hfour] at hret
    rw [hwritten] at hrun
    have hlen : 2 = chars.length + bad.length := by
      have heq := congrArg List.length hsplit.eq
      rwa [List.length_append, wides_length] at heq
    split at hret
    · rename_i hbad
      rw [← hret] at hrun
      rcases hrun with ⟨k, hle, hk, -⟩ | ⟨-, hrun⟩ | ⟨hne, -⟩
      · have hcalls : 3 ≤ k := hle
        omega
      · exact hrun
      · exact absurd hbad hne
    · cases hret

/-! ## The counting call -/

/-- A sizing call of `mbsrtowcs` that succeeds leaves the pointer and the state alone, and the
converting call that follows it with one element more than it counted converts everything. -/
def SizingIsQuery (state : MbState) (text : List UInt8) : Prop :=
  (mbsrtowcs none (some (some text)) state).ret ≠ usizeMax →
    (mbsrtowcs none (some (some text)) state).src = some text ∧
    (mbsrtowcs none (some (some text)) state).state = state ∧
    (mbsrtowcs (some ((mbsrtowcs none (some (some text)) state).ret + 1))
      (some (mbsrtowcs none (some (some text)) state).src)
      (mbsrtowcs none (some (some text)) state).state).ret =
        (mbsrtowcs none (some (some text)) state).ret ∧
    (mbsrtowcs (some ((mbsrtowcs none (some (some text)) state).ret + 1))
      (some (mbsrtowcs none (some (some text)) state).src)
      (mbsrtowcs none (some (some text)) state).state).src = none

/-- **The sizing call is a query exactly from the initial state**, or where it fails: it runs the
decoder on the caller's own state, and so forgets the bytes that were pending. -/
theorem sizing_query_iff {state : MbState} (hvalid : state.Valid) (text : CText) :
    SizingIsQuery state text.bytes ↔
      state.isInitial = true ∨ ¬ WellFormed (state.pending ++ text.bytes) := by
  obtain ⟨cs, stuck, hsplit⟩ := exists_split state.pending text.bytes
  have hcut := hsplit.cut hvalid text
  have hsmall := hcut.small
  have hcounts := mbsrtowcs_counts hvalid text.noNul hsplit
  have hformed : WellFormed (state.pending ++ text.bytes) ↔ stuck = [] := by
    rw [hsplit.eq]
    exact Utf8Sequences.wellFormed_iff hsplit.stuck
  rw [hformed]
  unfold SizingIsQuery
  rw [hcounts]
  by_cases hnil : stuck = []
  · rw [if_pos hnil]
    dsimp only
    constructor
    · intro hquery
      have hstate := (hquery (by omega)).2.1
      exact Or.inl (hstate ▸ rfl)
    · intro hcond
      have hnew : state = .new :=
        MbState.eq_new_of_isInitial (hcond.resolve_right (not_not.mpr hnil))
      have hcall := mbsrtowcs_ends hvalid text.noNul hsplit (Nat.lt_succ_self cs.length)
      rw [if_pos hnil, hnew] at hcall
      intro _
      rw [hcall]
      exact ⟨rfl, hnew.symm, rfl, rfl⟩
  · rw [if_neg hnil]
    exact ⟨fun _ => Or.inr hnil, fun _ hbad => absurd rfl hbad⟩

/-- Two bytes of U+20AC are pending and the text is the third: the sizing call counts one
character, and the converting call fails at the byte that continues nothing. -/
theorem sizing_forgets_pending :
    (mbrtowcWithState .new (some [0xE2, 0x82])).state.Valid ∧
      ¬ SizingIsQuery (mbrtowcWithState .new (some [0xE2, 0x82])).state [0xAC] := by
  refine ⟨(Reached.initial.call (some [0xE2, 0x82])).valid, ?_⟩
  intro hquery
  have hsized : mbsrtowcs none (some (some [0xAC]))
      (mbrtowcWithState .new (some [0xE2, 0x82])).state = ⟨1, [], some [0xAC], .new, none⟩ := by
    decide +kernel
  have hconverted : mbsrtowcs (some 2) (some (some [0xAC])) .new =
      ⟨usizeMax, [], some [0xAC], .new, some EILSEQ⟩ := by
    decide +kernel
  unfold SizingIsQuery at hquery
  rw [hsized] at hquery
  have hsrc := (hquery (by decide)).2.2.2
  dsimp only at hsrc
  rw [hconverted] at hsrc
  exact absurd hsrc (by decide)

/-- From the initial state the sizing call is a query. -/
theorem sizing_query_initial :
    MbState.new.Valid ∧ (SizingIsQuery .new [0x61] ↔
      MbState.new.isInitial = true ∨ ¬ WellFormed (MbState.new.pending ++ [0x61])) :=
  ⟨MbState.new_valid, sizing_query_iff MbState.new_valid ⟨[0x61], by decide, by decide⟩⟩

end Rlibc.Wchar
