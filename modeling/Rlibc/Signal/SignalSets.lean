import Mathlib.Data.Set.Insert
import Mathlib.Data.Set.Lattice
import Mathlib.Logic.Function.Basic
import Rlibc.Foundations.Calls
import Rlibc.Machine

/-!
# Sets of signals

A `SigSet` is a row of words, of which the first one holds the 64 signals.  The calls of
`signal.rs` on such sets do what they say on sets of numbers, in every run.  A pointer is its
address, and the objects behind the pointers are a map.
-/

namespace Rlibc.Signal

abbrev SIGSET_WORDS : Nat := 16
abbrev BITS_PER_WORD : Nat := 64
abbrev MAX_KERNEL_SIGNAL : Int := 64

structure SigSet where
  bits : Fin SIGSET_WORDS → BitVec 64

def SigSet.empty : SigSet := ⟨fun _ => 0⟩

/-- The word of a signal, and its bit there. -/
def signalWordAndBit (sig : Int) : Option (Fin SIGSET_WORDS × BitVec 64) :=
  if ¬ (1 ≤ sig ∧ sig ≤ MAX_KERNEL_SIGNAL) then none
  else
    let zeroBased := (sig - 1).toNat
    if h : zeroBased / BITS_PER_WORD < SIGSET_WORDS then
      some (⟨zeroBased / BITS_PER_WORD, h⟩, 1#64 <<< (zeroBased % BITS_PER_WORD))
    else none

def SigSet.addSignal (s : SigSet) (sig : Int) : Option SigSet :=
  (signalWordAndBit sig).map fun place =>
    ⟨Function.update s.bits place.1 (s.bits place.1 ||| place.2)⟩

def SigSet.removeSignal (s : SigSet) (sig : Int) : Option SigSet :=
  (signalWordAndBit sig).map fun place =>
    ⟨Function.update s.bits place.1 (s.bits place.1 &&& ~~~place.2)⟩

def SigSet.containsSignal (s : SigSet) (sig : Int) : Bool :=
  (signalWordAndBit sig).any fun place => s.bits place.1 &&& place.2 ≠ 0

/-- The objects behind the pointers, and `errno` in each thread. -/
structure Machine (T : Type) where
  sets : Nat → SigSet
  errno : T → Int

/-- The calls; the program may use the methods of its objects and store to them as well. -/
inductive Call where
  | sigemptyset (set : Nat)
  | sigfillset (set : Nat)
  | sigaddset (set : Nat) (signum : Int)
  | sigdelset (set : Nat) (signum : Int)
  | sigismember (set : Nat) (signum : Int)
  | addSignal (set : Nat) (sig : Int)
  | removeSignal (set : Nat) (sig : Int)
  | containsSignal (set : Nat) (sig : Int)
  | store (set : Nat) (object : SigSet)

section
variable {T : Type} [DecidableEq T]

def Machine.fail (m : Machine T) (t : T) (errno : Int) : Int × Machine T :=
  (-1, { m with errno := Function.update m.errno t errno })

def Machine.put (m : Machine T) (set : Nat) (object : SigSet) : Int × Machine T :=
  (0, { m with sets := Function.update m.sets set object })

def Machine.sigemptyset (m : Machine T) (t : T) (set : Nat) : Int × Machine T :=
  if set = 0 then m.fail t EFAULT else m.put set .empty

def Machine.sigfillset (m : Machine T) (t : T) (set : Nat) : Int × Machine T :=
  if set = 0 then m.fail t EFAULT else m.put set ⟨fun _ => BitVec.allOnes 64⟩

/-- What `sigaddset` and `sigdelset` have in common: how the word of the signal changes. -/
def Machine.changeWord (m : Machine T) (t : T) (set : Nat) (signum : Int)
    (f : BitVec 64 → BitVec 64 → BitVec 64) : Int × Machine T :=
  if set = 0 then m.fail t EFAULT
  else
    match signalWordAndBit signum with
    | none => m.fail t EINVAL
    | some (word, bit) =>
      m.put set ⟨Function.update (m.sets set).bits word (f ((m.sets set).bits word) bit)⟩

def Machine.sigaddset (m : Machine T) (t : T) (set : Nat) (signum : Int) : Int × Machine T :=
  m.changeWord t set signum fun word bit => word ||| bit

def Machine.sigdelset (m : Machine T) (t : T) (set : Nat) (signum : Int) : Int × Machine T :=
  m.changeWord t set signum fun word bit => word &&& ~~~bit

def Machine.sigismember (m : Machine T) (t : T) (set : Nat) (signum : Int) : Int × Machine T :=
  if set = 0 then m.fail t EFAULT
  else
    match signalWordAndBit signum with
    | none => m.fail t EINVAL
    | some (word, bit) => (if (m.sets set).bits word &&& bit ≠ 0 then 1 else 0, m)

/-- What `add_signal` and `remove_signal` have in common: the answer says whether there is such a
signal. -/
def Machine.changed (m : Machine T) (set : Nat) (object : Option SigSet) : Int × Machine T :=
  match object with
  | none => (0, m)
  | some object => (1, (m.put set object).2)

/-- A call by a thread; none of them fails to return. -/
def Machine.call (m : Machine T) (l : T × Call) : Option (Int × Machine T) :=
  some <|
    match l.2 with
    | .sigemptyset set => m.sigemptyset l.1 set
    | .sigfillset set => m.sigfillset l.1 set
    | .sigaddset set signum => m.sigaddset l.1 set signum
    | .sigdelset set signum => m.sigdelset l.1 set signum
    | .sigismember set signum => m.sigismember l.1 set signum
    | .addSignal set sig => m.changed set ((m.sets set).addSignal sig)
    | .removeSignal set sig => m.changed set ((m.sets set).removeSignal sig)
    | .containsSignal set sig => (if (m.sets set).containsSignal sig then 1 else 0, m)
    | .store set object => m.put set object

end

/-! ## Bits and signals -/

/-- The signals of a set. -/
def SigSet.members (s : SigSet) : Set Int := { sig | s.containsSignal sig = true }

/-- The numbers of signals. -/
def signals : Set Int := { sig | 1 ≤ sig ∧ sig ≤ MAX_KERNEL_SIGNAL }

instance (sig : Int) : Decidable (sig ∈ signals) :=
  inferInstanceAs (Decidable (1 ≤ sig ∧ sig ≤ MAX_KERNEL_SIGNAL))

theorem signalWordAndBit_of_mem {sig : Int} (h : sig ∈ signals) :
    signalWordAndBit sig = some (0, 1#64 <<< (sig - 1).toNat) := by
  have hrange : 1 ≤ sig ∧ sig ≤ 64 := h
  have hlt : (sig - 1).toNat < 64 := by omega
  have hword : (sig - 1).toNat / 64 = 0 := Nat.div_eq_of_lt hlt
  have hbit : (sig - 1).toNat % 64 = (sig - 1).toNat := Nat.mod_eq_of_lt hlt
  unfold signalWordAndBit
  rw [if_neg (not_not.mpr hrange)]
  dsimp only
  rw [dif_pos (by rw [hword]; decide), hbit]
  simp only [hword]
  rfl

theorem signalWordAndBit_of_notMem {sig : Int} (h : sig ∉ signals) :
    signalWordAndBit sig = none := if_pos h

theorem and_shift_ne_zero {word : BitVec 64} {k : Nat} (hk : k < 64) :
    word &&& 1#64 <<< k ≠ 0 ↔ word.getLsbD k = true := by
  rw [← BitVec.twoPow_eq, BitVec.and_twoPow]
  cases hbit : word.getLsbD k with
  | false => simp
  | true =>
    refine iff_of_true (fun hzero => ?_) rfl
    have htest := congrArg (fun bits => bits.getLsbD k) hzero
    simp [hk] at htest

/-- The members are read off the first word. -/
theorem mem_members {s : SigSet} {sig : Int} :
    sig ∈ s.members ↔ sig ∈ signals ∧ (s.bits 0).getLsbD (sig - 1).toNat = true := by
  show s.containsSignal sig = true ↔ _
  unfold SigSet.containsSignal
  by_cases h : sig ∈ signals
  · have hrange : 1 ≤ sig ∧ sig ≤ 64 := h
    rw [signalWordAndBit_of_mem h, Option.any_some, decide_eq_true_iff,
      and_shift_ne_zero (by omega), and_iff_right h]
  · rw [signalWordAndBit_of_notMem h]
    exact iff_of_false (by simp) fun hmem => h hmem.1

theorem members_empty : SigSet.empty.members = ∅ := by
  refine Set.eq_empty_of_forall_notMem fun sig h => ?_
  have hbit := (mem_members.mp h).2
  rw [show SigSet.empty.bits 0 = 0#64 from rfl, BitVec.getLsbD_zero] at hbit
  cases hbit

theorem members_full : (⟨fun _ => BitVec.allOnes 64⟩ : SigSet).members = signals := by
  ext sig
  rw [mem_members]
  refine and_iff_left_of_imp fun h => ?_
  have hrange : 1 ≤ sig ∧ sig ≤ 64 := h
  rw [BitVec.getLsbD_allOnes, decide_eq_true_iff]
  omega

/-- Bits of signals are apart. -/
theorem getLsbD_shift {a b : Int} (ha : a ∈ signals) (hb : b ∈ signals) :
    (1#64 <<< (a - 1).toNat).getLsbD (b - 1).toNat = true ↔ b = a := by
  have hra : 1 ≤ a ∧ a ≤ 64 := ha
  have hrb : 1 ≤ b ∧ b ≤ 64 := hb
  rw [← BitVec.twoPow_eq, BitVec.getLsbD_twoPow, Bool.and_eq_true, decide_eq_true_iff,
    decide_eq_true_iff]
  omega

theorem members_add (s : SigSet) {sig : Int} (h : sig ∈ signals) :
    (⟨Function.update s.bits 0 (s.bits 0 ||| 1#64 <<< (sig - 1).toNat)⟩ : SigSet).members =
      insert sig s.members := by
  ext other
  rw [Set.mem_insert_iff, mem_members, mem_members]
  dsimp only
  rw [Function.update_self, BitVec.getLsbD_or, Bool.or_eq_true]
  by_cases hother : other ∈ signals
  · rw [getLsbD_shift h hother, and_iff_right hother, and_iff_right hother, or_comm]
  · refine iff_of_false (fun hmem => hother hmem.1) ?_
    rintro (rfl | hmem)
    · exact hother h
    · exact hother hmem.1

theorem members_remove (s : SigSet) {sig : Int} (h : sig ∈ signals) :
    (⟨Function.update s.bits 0 (s.bits 0 &&& ~~~(1#64 <<< (sig - 1).toNat))⟩ : SigSet).members =
      s.members \ {sig} := by
  ext other
  rw [Set.mem_sdiff, Set.mem_singleton_iff, mem_members, mem_members]
  dsimp only
  rw [Function.update_self, BitVec.getLsbD_and, BitVec.getLsbD_not, Bool.and_eq_true]
  by_cases hother : other ∈ signals
  · have hrange : 1 ≤ other ∧ other ≤ 64 := hother
    have hlt : decide ((other - 1).toNat < 64) = true := decide_eq_true (by omega)
    rw [hlt, Bool.true_and, Bool.not_eq_true', ← Bool.not_eq_true, getLsbD_shift h hother,
      and_assoc]
  · exact iff_of_false (fun hmem => hother hmem.1) fun hmem => hother hmem.1.1

theorem addSignal_of_mem (s : SigSet) {sig : Int} (h : sig ∈ signals) :
    ∃ s', s.addSignal sig = some s' ∧ s'.members = insert sig s.members := by
  unfold SigSet.addSignal
  rw [signalWordAndBit_of_mem h]
  exact ⟨_, rfl, members_add s h⟩

theorem removeSignal_of_mem (s : SigSet) {sig : Int} (h : sig ∈ signals) :
    ∃ s', s.removeSignal sig = some s' ∧ s'.members = s.members \ {sig} := by
  unfold SigSet.removeSignal
  rw [signalWordAndBit_of_mem h]
  exact ⟨_, rfl, members_remove s h⟩

/-! ## The machine of sets -/

structure Model (T : Type) where
  sets : Nat → Set Int
  errno : T → Int

section
variable {T : Type} [DecidableEq T]

def Model.fail (a : Model T) (t : T) (errno : Int) : Int × Model T :=
  (-1, { a with errno := Function.update a.errno t errno })

def Model.put (a : Model T) (set : Nat) (members : Set Int) : Int × Model T :=
  (0, { a with sets := Function.update a.sets set members })

open Classical in
/-- What the calls mean: a null pointer is a bad address, and a number that is no signal is an
invalid argument. -/
noncomputable def Model.call (a : Model T) (l : T × Call) : Int × Model T :=
  match l.2 with
  | .sigemptyset set => if set = 0 then a.fail l.1 EFAULT else a.put set ∅
  | .sigfillset set => if set = 0 then a.fail l.1 EFAULT else a.put set signals
  | .sigaddset set signum =>
    if set = 0 then a.fail l.1 EFAULT
    else if signum ∉ signals then a.fail l.1 EINVAL
    else a.put set (insert signum (a.sets set))
  | .sigdelset set signum =>
    if set = 0 then a.fail l.1 EFAULT
    else if signum ∉ signals then a.fail l.1 EINVAL
    else a.put set (a.sets set \ {signum})
  | .sigismember set signum =>
    if set = 0 then a.fail l.1 EFAULT
    else if signum ∉ signals then a.fail l.1 EINVAL
    else (if signum ∈ a.sets set then 1 else 0, a)
  | .addSignal set sig =>
    if sig ∉ signals then (0, a) else (1, (a.put set (insert sig (a.sets set))).2)
  | .removeSignal set sig =>
    if sig ∉ signals then (0, a) else (1, (a.put set (a.sets set \ {sig})).2)
  | .containsSignal set sig => (if sig ∈ a.sets set then 1 else 0, a)
  | .store set object => a.put set object.members

/-- The sets behind the words. -/
def Machine.model (m : Machine T) : Model T where
  sets set := (m.sets set).members
  errno := m.errno

omit [DecidableEq T] in
theorem Machine.put_model (m : Machine T) (set : Nat) (object : SigSet) :
    (m.put set object).2.model = (m.model.put set object.members).2 := by
  unfold Machine.put Machine.model Model.put
  rw [Model.mk.injEq]
  refine ⟨funext fun other => ?_, rfl⟩
  dsimp only
  by_cases h : other = set
  · rw [h, Function.update_self, Function.update_self]
  · rw [Function.update_of_ne h, Function.update_of_ne h]

/-- A call that changes a word changes the members as its lemma says. -/
theorem Machine.changeWord_model (m : Machine T) (t : T) (set : Nat) (signum : Int)
    (f : BitVec 64 → BitVec 64 → BitVec 64) (change : Set Int → Set Int)
    (hchange : ∀ s : SigSet, signum ∈ signals →
      (⟨Function.update s.bits 0 (f (s.bits 0) (1#64 <<< (signum - 1).toNat))⟩ : SigSet).members =
        change s.members) :
    ((m.changeWord t set signum f).1, (m.changeWord t set signum f).2.model) =
      if set = 0 then m.model.fail t EFAULT
      else if signum ∉ signals then m.model.fail t EINVAL
      else m.model.put set (change (m.model.sets set)) := by
  unfold Machine.changeWord
  by_cases hnull : set = 0
  · rw [if_pos hnull, if_pos hnull]
    rfl
  · rw [if_neg hnull, if_neg hnull]
    by_cases hsig : signum ∈ signals
    · rw [signalWordAndBit_of_mem hsig, if_neg (not_not.mpr hsig)]
      dsimp only
      rw [Machine.put_model, hchange (m.sets set) hsig]
      rfl
    · rw [signalWordAndBit_of_notMem hsig, if_pos hsig]
      rfl

omit [DecidableEq T] in
/-- A method that knows the signal changes the members as its lemma says. -/
theorem Machine.changed_model (m : Machine T) (set : Nat) (sig : Int) (object : Option SigSet)
    (change : Set Int → Set Int) (hnone : sig ∉ signals → object = none)
    (hsome : sig ∈ signals → ∃ s, object = some s ∧ s.members = change (m.sets set).members) :
    ((m.changed set object).1, (m.changed set object).2.model) =
      if sig ∉ signals then (0, m.model)
      else (1, (m.model.put set (change (m.model.sets set))).2) := by
  by_cases hsig : sig ∈ signals
  · obtain ⟨s, hobject, hmembers⟩ := hsome hsig
    rw [hobject, if_neg (not_not.mpr hsig)]
    unfold Machine.changed
    dsimp only
    rw [Machine.put_model, hmembers]
    rfl
  · rw [hnone hsig, if_pos hsig]
    rfl

theorem Machine.sigismember_model (m : Machine T) (t : T) (set : Nat) (signum : Int) :
    ((m.sigismember t set signum).1, (m.sigismember t set signum).2.model) =
      m.model.call (t, .sigismember set signum) := by
  unfold Machine.sigismember Model.call
  dsimp only
  by_cases hnull : set = 0
  · rw [if_pos hnull, if_pos hnull]
    rfl
  · rw [if_neg hnull, if_neg hnull]
    by_cases hsig : signum ∈ signals
    · have hrange : 1 ≤ signum ∧ signum ≤ 64 := hsig
      have hmem : signum ∈ m.model.sets set ↔
          ((m.sets set).bits 0).getLsbD (signum - 1).toNat = true := by
        show signum ∈ (m.sets set).members ↔ _
        rw [mem_members, and_iff_right hsig]
      rw [signalWordAndBit_of_mem hsig, if_neg (not_not.mpr hsig)]
      dsimp only
      rw [Prod.mk.injEq]
      refine ⟨?_, rfl⟩
      simp only [and_shift_ne_zero (show (signum - 1).toNat < 64 by omega), hmem]
    · rw [signalWordAndBit_of_notMem hsig, if_pos hsig]
      rfl

/-- **Simulation.**  A call replies what it means, and leaves the members that it means. -/
theorem Machine.call_model (m : Machine T) (l : T × Call) :
    ∃ m', m.call l = some ((m.model.call l).1, m') ∧ m'.model = (m.model.call l).2 := by
  suffices h : ∃ r m', m.call l = some (r, m') ∧ (r, m'.model) = m.model.call l by
    obtain ⟨r, m', hcall, hmodel⟩ := h
    exact ⟨m', by rw [hcall, ← hmodel], by rw [← hmodel]⟩
  refine ⟨_, _, rfl, ?_⟩
  obtain ⟨t, c⟩ := l
  cases c with
  | sigemptyset set =>
    show ((m.sigemptyset t set).1, (m.sigemptyset t set).2.model) = _
    unfold Machine.sigemptyset Model.call
    dsimp only
    by_cases hnull : set = 0
    · rw [if_pos hnull, if_pos hnull]
      rfl
    · rw [if_neg hnull, if_neg hnull, m.put_model, members_empty]
      rfl
  | sigfillset set =>
    show ((m.sigfillset t set).1, (m.sigfillset t set).2.model) = _
    unfold Machine.sigfillset Model.call
    dsimp only
    by_cases hnull : set = 0
    · rw [if_pos hnull, if_pos hnull]
      rfl
    · rw [if_neg hnull, if_neg hnull, m.put_model, members_full]
      rfl
  | sigaddset set signum =>
    exact m.changeWord_model t set signum _ (fun members => insert signum members)
      fun s hsig => members_add s hsig
  | sigdelset set signum =>
    exact m.changeWord_model t set signum _ (fun members => members \ {signum})
      fun s hsig => members_remove s hsig
  | sigismember set signum => exact m.sigismember_model t set signum
  | addSignal set sig =>
    refine m.changed_model set sig _ (fun members => insert sig members) (fun hsig => ?_)
      (addSignal_of_mem _)
    unfold SigSet.addSignal
    rw [signalWordAndBit_of_notMem hsig]
    rfl
  | removeSignal set sig =>
    refine m.changed_model set sig _ (fun members => members \ {sig}) (fun hsig => ?_)
      (removeSignal_of_mem _)
    unfold SigSet.removeSignal
    rw [signalWordAndBit_of_notMem hsig]
    rfl
  | containsSignal set sig =>
    show ((if (m.sets set).containsSignal sig then 1 else 0 : Int), m.model) = _
    unfold Model.call
    dsimp only
    by_cases h : (m.sets set).containsSignal sig = true
    · rw [if_pos h, if_pos (show sig ∈ m.model.sets set from h)]
    · rw [if_neg h, if_neg (show sig ∉ m.model.sets set from h)]
  | store set object =>
    show ((m.put set object).1, (m.put set object).2.model) = _
    rw [m.put_model]
    rfl

/-- **Refinement.**  In every run of calls by any threads on any sets, with stores of the program
in between, the replies and `errno` are those of sets of numbers. -/
theorem run_model (m : Machine T) (calls : List (T × Call)) :
    ∃ m', Calls.run Machine.call m calls =
        some ((Calls.answers Model.call m.model calls).1, m') ∧
      m'.model = (Calls.answers Model.call m.model calls).2 :=
  Calls.run_refines (R := fun (m : Machine T) a => m.model = a)
    (fun m _ l h => h ▸ m.call_model l) rfl calls

end

end Rlibc.Signal
