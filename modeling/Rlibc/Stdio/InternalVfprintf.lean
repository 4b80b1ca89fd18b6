import Rlibc.Stdio.TwoPasses

/-!
# vfprintf without the host

The output is formatted twice, for its length and into a fresh vector, and then written to a
descriptor, however few bytes each `write` takes.
-/

namespace Rlibc.Stdio

open ByteMem ByteOrder

/-- The answer of a `write`: an error number, or how many of the bytes went out. -/
inductive WriteResult (requested : Nat) where
  | error (errno : Int)
  | wrote (count : Nat) (le : count ≤ requested)

/-- The answers to the writes of a call, in their order. -/
def WriteSchedule : Type := Nat → (requested : Nat) → WriteResult requested

/-- What a call has written so far, and `errno`. -/
structure Output where
  emitted : List UInt8
  errno : Int

/-- The loop around `write`, and whether it gets to the end. -/
def writeLoop (schedule : WriteSchedule) (m : Mem) (rendered renderedLen call writtenOffset : Nat)
    (output : Output) : Bool × Output :=
  if writtenOffset < renderedLen then
    match schedule call (renderedLen - writtenOffset) with
    | .error errno => (false, { output with errno := errno })
    | .wrote 0 _ => (false, { output with errno := EINVAL })
    -- The sum does not saturate: it is not more than the length.
    | .wrote (count + 1) _ =>
      writeLoop schedule m rendered renderedLen (call + 1) (writtenOffset + (count + 1))
        { output with emitted := output.emitted ++ bytesAt m (rendered + writtenOffset) (count + 1) }
  else (true, output)
termination_by renderedLen - writtenOffset

/-- How the two passes end: with a vector that holds so many bytes, with a failure, or not. -/
inductive Passes where
  | rendered (mem : Mem) (renderedLen : Nat) (errno : Int)
  | failed (mem : Mem) (errno : Int)
  | ended

/-- The two passes, with the address of the vector. -/
def renderTwice (m : Mem) (rendered format ap : Nat) (errno : Int) : Passes :=
  match vsnprintf m 0 0 format ap with
  | none => .ended
  | some sizing =>
    if sizing.value < 0 then .failed sizing.mem (sizing.errno.getD errno)
    else
      let renderedCapacity := saturatingAdd sizing.value.toNat 1
      match vsnprintf (fill sizing.mem rendered renderedCapacity 0) rendered renderedCapacity format
          ap with
      | none => .ended
      | some reply =>
        if reply.value < 0 then .failed reply.mem (reply.errno.getD (sizing.errno.getD errno))
        else .rendered reply.mem reply.value.toNat (reply.errno.getD (sizing.errno.getD errno))

inductive VfprintfWritePath where
  | noStreamIo
  | internalStreamIo
deriving DecidableEq

/-- The return value of a call, and what it has written. -/
structure Forwarded where
  value : Int
  output : Output

/-- The writes of a rendered vector.  After the last one `errno` is what it was before them. -/
def writeRendered (schedule : WriteSchedule) (m : Mem) (rendered renderedLen : Nat)
    (errnoBefore errno : Int) : Forwarded :=
  let r := writeLoop schedule m rendered renderedLen 0 0 ⟨[], errno⟩
  if r.1 then ⟨renderedLen, { r.2 with errno := errnoBefore }⟩ else ⟨-1, r.2⟩

/-- `none` where the process ends. -/
def forwardInternalVfprintf (schedule : WriteSchedule) (standardStreamFd : Option Int)
    (fileno : Int) (m : Mem) (rendered format ap : Nat) (errno : Int) :
    Option (Forwarded × VfprintfWritePath) :=
  match renderTwice m rendered format ap errno with
  | .ended => none
  | .failed _ errno => some (⟨-1, [], errno⟩, .noStreamIo)
  | .rendered mem renderedLen errnoBefore =>
    match standardStreamFd with
    | some _ =>
      some (writeRendered schedule mem rendered renderedLen errnoBefore errnoBefore,
        .internalStreamIo)
    | none =>
      if fileno < 0 then some (⟨-1, [], EINVAL⟩, .internalStreamIo)
      else some (writeRendered schedule mem rendered renderedLen errnoBefore 0, .internalStreamIo)

def forwardInternalVprintfStdout (schedule : WriteSchedule) (m : Mem) (rendered format ap : Nat)
    (errno : Int) : Option Forwarded :=
  match renderTwice m rendered format ap errno with
  | .ended => none
  | .failed _ errno => some ⟨-1, [], errno⟩
  | .rendered mem renderedLen errnoBefore =>
    some (writeRendered schedule mem rendered renderedLen errnoBefore errnoBefore)

/-! ## The writes -/

theorem bytesAt_add (m : Mem) (a n k : Nat) :
    bytesAt m a (n + k) = bytesAt m a n ++ bytesAt m (a + n) k := by
  unfold bytesAt
  rw [List.range_add, List.map_append, List.map_map]
  congr 1
  apply List.map_congr_left
  intro i _
  exact congrArg m (Nat.add_assoc a n i).symm

/-- **The loop** writes a beginning of what is left, and all of it when it gets to the end. -/
theorem writeLoop_emitted (schedule : WriteSchedule) (m : Mem) (rendered renderedLen : Nat)
    (call offset : Nat) (output : Output) (hle : offset ≤ renderedLen) :
    ∃ count, offset + count ≤ renderedLen ∧
      (writeLoop schedule m rendered renderedLen call offset output).2.emitted =
        output.emitted ++ bytesAt m (rendered + offset) count ∧
      ((writeLoop schedule m rendered renderedLen call offset output).1 = true ↔
        offset + count = renderedLen) := by
  fun_induction writeLoop schedule m rendered renderedLen call offset output with
  | case1 call offset output hlt errno hanswer =>
    refine ⟨0, hle, (List.append_nil _).symm, ?_⟩
    exact iff_of_false Bool.false_ne_true (by omega)
  | case2 call offset output hlt le hanswer =>
    refine ⟨0, hle, (List.append_nil _).symm, ?_⟩
    exact iff_of_false Bool.false_ne_true (by omega)
  | case3 call offset output hlt count le hanswer ih =>
    obtain ⟨more, hmore, hemitted, hend⟩ := ih (by omega)
    refine ⟨count + 1 + more, by omega, ?_, ?_⟩
    · rw [hemitted, List.append_assoc, ← Nat.add_assoc rendered offset (count + 1), ← bytesAt_add]
    · rw [hend]
      omega
  | case4 call offset output hend =>
    exact ⟨0, hle, (List.append_nil _).symm, iff_of_true rfl (by omega)⟩

/-- Every write takes all of its bytes. -/
def allAtOnce : WriteSchedule := fun _ requested => .wrote requested (Nat.le_refl requested)

theorem writeLoop_allAtOnce (m : Mem) (rendered renderedLen : Nat) (output : Output) :
    (writeLoop allAtOnce m rendered renderedLen 0 0 output).1 = true := by
  cases renderedLen with
  | zero =>
    rw [writeLoop, if_neg (Nat.lt_irrefl 0)]
  | succ len =>
    have hanswer : allAtOnce 0 (len + 1 - 0) = .wrote (len + 1) (Nat.le_refl _) := rfl
    rw [writeLoop, if_pos (Nat.succ_pos len), hanswer]
    dsimp only
    rw [writeLoop, if_neg (by omega)]

theorem writeRendered_emitted (schedule : WriteSchedule) (m : Mem) (rendered renderedLen : Nat)
    (errnoBefore errno : Int) :
    ∃ count ≤ renderedLen,
      (writeRendered schedule m rendered renderedLen errnoBefore errno).output.emitted =
        bytesAt m rendered count ∧
      (count = renderedLen →
        (writeRendered schedule m rendered renderedLen errnoBefore errno).value = renderedLen ∧
        (writeRendered schedule m rendered renderedLen errnoBefore errno).output.errno =
          errnoBefore) ∧
      (count ≠ renderedLen →
        (writeRendered schedule m rendered renderedLen errnoBefore errno).value = -1) := by
  obtain ⟨count, hle, hemitted, hend⟩ := writeLoop_emitted schedule m rendered renderedLen 0 0
    ⟨[], errno⟩ (Nat.zero_le _)
  rw [Nat.zero_add] at hle hend
  refine ⟨count, hle, ?_, ?_, ?_⟩
  · unfold writeRendered
    dsimp only
    split
    · exact hemitted
    · exact hemitted
  · intro hall
    unfold writeRendered
    dsimp only
    rw [if_pos (hend.mpr hall)]
    exact ⟨rfl, rfl⟩
  · intro hpart
    unfold writeRendered
    dsimp only
    rw [if_neg fun h => hpart (hend.mp h)]

theorem writeRendered_allAtOnce (m : Mem) (rendered renderedLen : Nat) (errnoBefore errno : Int) :
    (writeRendered allAtOnce m rendered renderedLen errnoBefore errno).value = renderedLen := by
  unfold writeRendered
  dsimp only
  rw [if_pos (writeLoop_allAtOnce m rendered renderedLen ⟨[], errno⟩)]

/-! ## The two passes -/

/-- The memory that the second pass starts in. -/
def secondMem (m : Mem) (rendered format ap : Nat) : Mem :=
  fill (formatAll m format ap).1.mem rendered
    (min (formatAll m format ap).1.sink.length cIntMax + 1) 0

section

variable {m : Mem} {rendered format ap : Nat} {errno : Int}

theorem renderTwice_ended (hformat : format ≠ 0)
    (h : (formatAll m format ap).2 = some .overflow) :
    renderTwice m rendered format ap errno = .ended := by
  unfold renderTwice
  rw [vsnprintf_eq_truncated hformat (Or.inl rfl) (apart_nowhere m format ap)]
  unfold truncatedReply
  rw [h]

theorem renderTwice_failed (hformat : format ≠ 0)
    (h : (formatAll m format ap).2 = some .einval) :
    ∃ mem, renderTwice m rendered format ap errno = .failed mem EINVAL := by
  unfold renderTwice
  rw [vsnprintf_eq_truncated hformat (Or.inl rfl) (apart_nowhere m format ap)]
  unfold truncatedReply
  rw [h]
  exact ⟨_, if_pos (by decide : (-1 : Int) < 0)⟩

/-- The second pass, when the first one goes through. -/
theorem renderTwice_second (hformat : format ≠ 0) (hrendered : rendered ≠ 0) {R : List UInt8}
    (hR : rendering m format ap = some R)
    (hfresh : Apart (secondMem m rendered format ap) rendered (min R.length cIntMax + 1) format
      ap) :
    renderTwice m rendered format ap errno =
      match truncatedReply rendered (min R.length cIntMax + 1)
        (formatAll (secondMem m rendered format ap) format ap) with
      | none => .ended
      | some reply =>
        if reply.value < 0 then .failed reply.mem (reply.errno.getD errno)
        else .rendered reply.mem reply.value.toNat (reply.errno.getD errno) := by
  obtain ⟨-, hsink⟩ := rendering_eq_some.mp hR
  have hcapacity : saturatingAdd (min (R.length : Int) cIntMax).toNat 1 =
      min R.length cIntMax + 1 := by
    unfold saturatingAdd usizeMax cIntMax
    omega
  unfold renderTwice
  rw [vsnprintf_rendered hformat (Or.inl rfl) (apart_nowhere m format ap) hR]
  dsimp only
  rw [if_neg (by unfold cIntMax; omega), hcapacity]
  rw [← vsnprintf_eq_truncated hformat (Or.inr hrendered) hfresh]
  unfold secondMem
  rw [hsink]
  rfl

/-! ## The output of a call -/

/-- A call writes a beginning of the rendering.  It returns the length, with `errno` as it was, if
this is all of the rendering, and -1 otherwise. -/
def WritesOnce (m : Mem) (format ap : Nat) (errno : Int) (result : Option Forwarded) : Prop :=
  ∃ f, result = some f ∧
    (rendering m format ap = none → f.value = -1 ∧ f.output.emitted = []) ∧
    ∀ R, rendering m format ap = some R → f.output.emitted <+: R ∧
      (f.output.emitted = R → f.value = R.length ∧ f.output.errno = errno) ∧
      (f.output.emitted ≠ R → f.value = -1)

/-- The first pass does not overflow, and the second one finds what it has measured, or fails. -/
def PassesAgree (m : Mem) (rendered format ap : Nat) : Prop :=
  (formatAll m format ap).2 ≠ some .overflow ∧
    ∀ R, rendering m format ap = some R →
      (∃ R', rendering (secondMem m rendered format ap) format ap = some R' ∧
        R'.take cIntMax = R) ∨
      ((formatAll (secondMem m rendered format ap) format ap).2 = some .einval ∧ R ≠ [])

/-- What follows the passes, with what `errno` is at the first write. -/
def afterPasses (schedule : WriteSchedule) (rendered : Nat) (errnoAtWrite : Int → Int) :
    Passes → Option Forwarded
  | .ended => none
  | .failed _ errno => some ⟨-1, [], errno⟩
  | .rendered mem renderedLen errno =>
    some (writeRendered schedule mem rendered renderedLen errno (errnoAtWrite errno))

theorem writesOnce_failed {f : Forwarded} (hvalue : f.value = -1) (hemitted : f.output.emitted = []) :
    WritesOnce m format ap errno (some f) ↔ rendering m format ap ≠ some [] := by
  constructor
  · rintro ⟨f', heq, -, hwritten⟩ hempty
    cases heq
    have hlength := ((hwritten [] hempty).2.1 hemitted).1
    rw [hvalue] at hlength
    cases hlength
  · intro hne
    refine ⟨f, rfl, fun _ => ⟨hvalue, hemitted⟩, fun R hR => ?_⟩
    rw [hemitted]
    refine ⟨List.nil_prefix, fun heq => ?_, fun _ => hvalue⟩
    rw [← heq] at hR
    exact absurd hR hne

/-- The vector holds the second rendering, as far as its capacity goes. -/
theorem writesOnce_rendered {mem : Mem} {R R' : List UInt8} (errnoAtWrite : Int)
    (hR : rendering m format ap = some R)
    (hmem : HoldsAt mem rendered (R'.take (min R.length cIntMax) ++ [0])) :
    (∀ schedule, WritesOnce m format ap errno (some (writeRendered schedule mem rendered
      (min R'.length cIntMax) errno errnoAtWrite))) ↔ R'.take cIntMax = R := by
  have hbytes : ∀ count, count ≤ min R.length cIntMax → count ≤ R'.length →
      bytesAt mem rendered count = R'.take count := by
    intro count hcount hle
    have hall := bytesAt_eq (holdsAt_append.mp hmem).1
    rw [List.length_take] at hall
    rw [← bytesAt_take mem rendered (show count ≤ min (min R.length cIntMax) R'.length by omega),
      hall, List.take_take, Nat.min_eq_left hcount]
  constructor
  · intro h
    obtain ⟨f, heq, -, hwritten⟩ := h allAtOnce
    obtain ⟨-, hcomplete, hpartial⟩ := hwritten R hR
    obtain ⟨count, hle, hemitted, -, hshort⟩ := writeRendered_emitted allAtOnce mem rendered
      (min R'.length cIntMax) errno errnoAtWrite
    have hvalue := writeRendered_allAtOnce mem rendered (min R'.length cIntMax) errno errnoAtWrite
    cases heq
    -- Everything has been written, so that the vector is as long as the rendering.
    have hcount : count = min R'.length cIntMax := by
      by_contra hne
      have hneg := hshort hne
      omega
    have hall : (writeRendered allAtOnce mem rendered (min R'.length cIntMax) errno
        errnoAtWrite).output.emitted = R := by
      by_contra hne
      have hneg := hpartial hne
      omega
    have hlength : R.length = min R'.length cIntMax := by
      rw [← hall, hemitted, bytesAt_length, hcount]
    rw [← hall, hemitted, hcount, hbytes _ (by omega) (by omega), Nat.min_comm,
      ← List.take_eq_take_min]
  · intro hsame schedule
    have hlength : R.length = min R'.length cIntMax := by
      rw [← hsame, List.length_take, Nat.min_comm]
    obtain ⟨count, hle, hemitted, hcomplete, hshort⟩ := writeRendered_emitted schedule mem rendered
      (min R'.length cIntMax) errno errnoAtWrite
    have htake : bytesAt mem rendered count = R.take count := by
      rw [hbytes count (by omega) (by omega), ← hsame, List.take_take, Nat.min_eq_left (by omega)]
    refine ⟨_, rfl, fun hnone => absurd (hR.symm.trans hnone) (Option.some_ne_none _), ?_⟩
    intro T hT
    cases hR.symm.trans hT
    rw [hemitted, htake]
    refine ⟨List.take_prefix count R, fun hall => ?_, fun hpart => ?_⟩
    · have hcount : count = min R'.length cIntMax := by
        have heq := congrArg List.length hall
        rw [List.length_take] at heq
        omega
      rw [hlength]
      exact hcomplete hcount
    · apply hshort
      intro hcount
      exact hpart (List.take_of_length_le (by omega))

theorem afterPasses_iff (errno : Int) (hformat : format ≠ 0) (hrendered : rendered ≠ 0)
    (hfresh : ∀ R, rendering m format ap = some R →
      Apart (secondMem m rendered format ap) rendered (min R.length cIntMax + 1) format ap)
    (errnoAtWrite : Int → Int) :
    (∀ schedule, WritesOnce m format ap errno
      (afterPasses schedule rendered errnoAtWrite (renderTwice m rendered format ap errno))) ↔
        PassesAgree m rendered format ap := by
  unfold PassesAgree
  -- The first pass fails, or renders `R`, and then the second one decides.
  cases hfirst : (formatAll m format ap).2 with
  | some failure =>
    have hnone : rendering m format ap = none := by
      unfold rendering
      rw [hfirst, if_neg (Option.some_ne_none _)]
    cases failure with
    | overflow =>
      rw [renderTwice_ended hformat hfirst]
      apply iff_of_false
      · intro h
        obtain ⟨f, heq, -⟩ := h allAtOnce
        cases heq
      · rintro ⟨hne, -⟩
        exact hne rfl
    | einval =>
      obtain ⟨mem, hpasses⟩ : ∃ mem, renderTwice m rendered format ap errno = .failed mem EINVAL :=
        renderTwice_failed hformat hfirst
      rw [hpasses]
      apply iff_of_true
      · intro schedule
        apply (writesOnce_failed rfl rfl).mpr
        rw [hnone]
        exact (Option.some_ne_none _).symm
      · refine ⟨(fun h => by cases h), fun R hR => ?_⟩
        cases hnone.symm.trans hR
  | none =>
    have hR : rendering m format ap = some (formatAll m format ap).1.sink :=
      rendering_eq_some.mpr ⟨hfirst, rfl⟩
    generalize (formatAll m format ap).1.sink = R at hR
    rw [renderTwice_second hformat hrendered hR (hfresh R hR)]
    -- There is one rendering, so that the condition is about it alone.
    have hiff : ((none : Option Failure) ≠ some .overflow ∧ ∀ T, rendering m format ap = some T →
        (∃ R', rendering (secondMem m rendered format ap) format ap = some R' ∧
          R'.take cIntMax = T) ∨
        ((formatAll (secondMem m rendered format ap) format ap).2 = some .einval ∧ T ≠ [])) ↔
        ((∃ R', rendering (secondMem m rendered format ap) format ap = some R' ∧
          R'.take cIntMax = R) ∨
        ((formatAll (secondMem m rendered format ap) format ap).2 = some .einval ∧ R ≠ [])) := by
      rw [and_iff_right (Option.some_ne_none _).symm]
      constructor
      · intro h
        exact h R hR
      · intro h T hT
        cases hR.symm.trans hT
        exact h
    rw [hiff]
    unfold truncatedReply
    -- The second pass reads the memory that the first one left behind.
    cases hsecond : (formatAll (secondMem m rendered format ap) format ap).2 with
    | none =>
      have hagain : rendering (secondMem m rendered format ap) format ap =
          some (formatAll (secondMem m rendered format ap) format ap).1.sink :=
        rendering_eq_some.mpr ⟨hsecond, rfl⟩
      generalize (formatAll (secondMem m rendered format ap) format ap).1.sink = R' at hagain ⊢
      -- What is written is the buffer of the second pass, cut off at the length of the first.
      have hlen : (min (R'.length : Int) cIntMax).toNat = min R'.length cIntMax := by omega
      dsimp only
      rw [if_neg (by unfold cIntMax; omega), hlen, hagain]
      have hmem : HoldsAt (deliver (formatAll (secondMem m rendered format ap) format ap).1.mem
          rendered (min R.length cIntMax + 1) R') rendered
            (R'.take (min R.length cIntMax) ++ [0]) :=
        deliver_holds _ R' (Nat.succ_ne_zero _)
      apply (writesOnce_rendered (errnoAtWrite errno) hR hmem).trans
      constructor
      · intro h
        exact Or.inl ⟨R', rfl, h⟩
      · rintro (⟨T, hT, h⟩ | ⟨h, -⟩)
        · cases hT
          exact h
        · cases h
    | some failure =>
      have hnone : rendering (secondMem m rendered format ap) format ap = none := by
        unfold rendering
        rw [hsecond, if_neg (Option.some_ne_none _)]
      rw [hnone]
      cases failure with
      | einval =>
        dsimp only
        rw [if_pos (by decide)]
        constructor
        · intro h
          have hne := (writesOnce_failed rfl rfl).mp (h allAtOnce)
          exact Or.inr ⟨rfl, fun heq => hne (hR.trans (congrArg some heq))⟩
        · rintro (⟨T, hT, -⟩ | ⟨-, hne⟩) schedule
          · cases hT
          · apply (writesOnce_failed rfl rfl).mpr
            intro heq
            exact hne (Option.some.inj (hR.symm.trans heq))
      | overflow =>
        apply iff_of_false
        · intro h
          obtain ⟨f, heq, -⟩ := h allAtOnce
          cases heq
        · rintro (⟨T, hT, -⟩ | ⟨heq, -⟩)
          · cases hT
          · cases heq

end

/-- **The rendering is written once and in order**, whatever the writes answer, if and only if the
passes agree. -/
theorem writesOnce_iff {m : Mem} {rendered format ap : Nat} (errno : Int) (hformat : format ≠ 0)
    (hrendered : rendered ≠ 0)
    (hfresh : ∀ R, rendering m format ap = some R →
      Apart (secondMem m rendered format ap) rendered (min R.length cIntMax + 1) format ap)
    (standardStreamFd : Option Int) (fileno : Int) :
    ((∀ schedule, WritesOnce m format ap errno
      (forwardInternalVprintfStdout schedule m rendered format ap errno)) ↔
        PassesAgree m rendered format ap) ∧
    (standardStreamFd.isSome = true ∨ 0 ≤ fileno →
      ((∀ schedule, WritesOnce m format ap errno ((forwardInternalVfprintf schedule
        standardStreamFd fileno m rendered format ap errno).map Prod.fst)) ↔
          PassesAgree m rendered format ap)) := by
  constructor
  · exact afterPasses_iff errno hformat hrendered hfresh id
  · intro hdescriptor
    cases hfd : standardStreamFd with
    | some fd =>
      refine (forall_congr' fun schedule => ?_).trans
        (afterPasses_iff errno hformat hrendered hfresh id)
      unfold forwardInternalVfprintf afterPasses
      cases renderTwice m rendered format ap errno with
      | ended => exact Iff.rfl
      | failed mem errno => exact Iff.rfl
      | rendered mem len errno => exact Iff.rfl
    | none =>
      have hfileno : ¬fileno < 0 := by
        rw [hfd] at hdescriptor
        exact Int.not_lt.mpr (hdescriptor.resolve_left Bool.false_ne_true)
      refine (forall_congr' fun schedule => ?_).trans
        (afterPasses_iff errno hformat hrendered hfresh fun _ => 0)
      unfold forwardInternalVfprintf afterPasses
      cases renderTwice m rendered format ap errno with
      | ended => exact Iff.rfl
      | failed mem errno => exact Iff.rfl
      | rendered mem len errno =>
        dsimp only
        rw [if_neg hfileno]
        exact Iff.rfl

theorem countBeside_secondMem {b : Nat} (h : callReads countBeside 64 1024 b) :
    secondMem countBeside 8192 64 1024 b = countBeside b := by
  have hlt := countBeside_reads h
  have hframe : (formatAll countBeside 64 1024).1.mem b = countBeside b := by
    apply formatAll_frame
    intro hstores
    have heq := countBeside_stores hstores
    omega
  unfold secondMem
  rw [fill_eq_writeBytes, writeBytes_outside (Or.inl (Nat.lt_trans hlt (by decide))), hframe]

/-- The count is stored where neither pass looks, so that the second one finds the text again. -/
theorem countBeside_passesAgree : PassesAgree countBeside 8192 64 1024 := by
  obtain ⟨hend, hout⟩ := rendering_eq_some.mp countBeside_rendering
  obtain ⟨hend', hout'⟩ := formatAll_congr fun _ => countBeside_secondMem
  constructor
  · rw [hend]
    exact (Option.some_ne_none _).symm
  · intro R hR
    cases countBeside_rendering.symm.trans hR
    exact Or.inl ⟨_, rendering_eq_some.mpr ⟨hend'.trans hend, hout'.trans hout⟩, by decide⟩

theorem countBeside_written_once :
    (∀ schedule, WritesOnce countBeside 64 1024 0
      (forwardInternalVprintfStdout schedule countBeside 8192 64 1024 0)) ∧
    ∀ schedule, WritesOnce countBeside 64 1024 0
      ((forwardInternalVfprintf schedule none 5 countBeside 8192 64 1024 0).map Prod.fst) := by
  have hfresh : ∀ R, rendering countBeside 64 1024 = some R →
      Apart (secondMem countBeside 8192 64 1024) 8192 (min R.length cIntMax + 1) 64 1024 :=
    fun R _ => apart_congr (fun _ => countBeside_secondMem) (countBeside_apart _)
  have hiff := writesOnce_iff 0 (by decide) (by decide) hfresh none 5
  exact ⟨hiff.1.mpr countBeside_passesAgree, (hiff.2 (by decide)).mpr countBeside_passesAgree⟩

/-- The second pass prints the count that the first one has stored, and the NUL behind the vector's
text goes out with it. -/
theorem count_is_written :
    ¬∀ schedule, WritesOnce countInString 64 1024 0
      (forwardInternalVprintfStdout schedule countInString 8192 64 1024 0) := by
  intro h
  obtain ⟨f, hf, -, hwritten⟩ := h allAtOnce
  have hrendering : rendering countInString 64 1024 = some ['x'.toUInt8] := by decide +kernel
  have hemitted : (forwardInternalVprintfStdout allAtOnce countInString 8192 64 1024 0).map
      (fun f => f.output.emitted) = some [1, 0] := by
    decide +kernel
  rw [hf, Option.map_some, Option.some.injEq] at hemitted
  have hle := (hwritten _ hrendering).1.length_le
  rw [hemitted] at hle
  exact absurd hle (by decide)

end Rlibc.Stdio
