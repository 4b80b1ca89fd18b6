import Mathlib.Data.Finset.Basic
import Mathlib.Data.Fintype.Basic
import Rlibc.Fenv.Environment
import Rlibc.Foundations.Calls

/-!
# Sets of exceptions behind the words

The environment of a thread is a set of raised exceptions and a rounding mode.  The words that
`fenv.rs` works on stand for such an environment after every run of calls, whatever the program
stores to its objects in between.
-/

namespace Rlibc.Fenv

inductive FpException where
  | invalid
  | divByZero
  | overflow
  | underflow
  | inexact
deriving DecidableEq

instance : Fintype FpException where
  elems := {.invalid, .divByZero, .overflow, .underflow, .inexact}
  complete e := by cases e <;> decide

inductive RoundMode where
  | toNearest
  | downward
  | upward
  | towardZero
deriving DecidableEq

/-- The environment of a thread. -/
structure Environment where
  raised : Finset FpException
  mode : RoundMode

/-- The number of the bit of an exception. -/
def FpException.bit : FpException → Nat
  | .invalid => 0
  | .divByZero => 2
  | .overflow => 3
  | .underflow => 4
  | .inexact => 5

def RoundMode.code : RoundMode → CInt
  | .toNearest => FE_TONEAREST
  | .downward => FE_DOWNWARD
  | .upward => FE_UPWARD
  | .towardZero => FE_TOWARDZERO

/-- The exceptions whose bits are set. -/
def exceptionsOf (word : CInt) : Finset FpException :=
  Finset.univ.filter fun e => word.getLsbD e.bit = true

/-- The word with the bits of these exceptions. -/
def wordOf (exceptions : Finset FpException) : CInt :=
  (if .invalid ∈ exceptions then 0x01 else 0) ||| (if .divByZero ∈ exceptions then 0x04 else 0) |||
    (if .overflow ∈ exceptions then 0x08 else 0) |||
    (if .underflow ∈ exceptions then 0x10 else 0) ||| (if .inexact ∈ exceptions then 0x20 else 0)

/-- The state that stands for an environment. -/
def Environment.state (env : Environment) : FenvState := ⟨wordOf env.raised, env.mode.code⟩

/-! ## Words of exceptions -/

theorem mem_exceptionsOf {word : CInt} {e : FpException} :
    e ∈ exceptionsOf word ↔ word.getLsbD e.bit = true := by
  simp [exceptionsOf]

theorem exceptionsOf_and (v w : CInt) :
    exceptionsOf (v &&& w) = exceptionsOf v ∩ exceptionsOf w := by
  ext e
  simp [mem_exceptionsOf]

theorem exceptionsOf_or (v w : CInt) :
    exceptionsOf (v ||| w) = exceptionsOf v ∪ exceptionsOf w := by
  ext e
  simp [mem_exceptionsOf]

theorem exceptionsOf_and_not (v w : CInt) :
    exceptionsOf (v &&& ~~~w) = exceptionsOf v \ exceptionsOf w := by
  ext e
  have hbit : e.bit < 32 := by cases e <;> decide
  simp [mem_exceptionsOf, hbit]

/-- The bits that are supported are those of the exceptions. -/
theorem getLsbD_allExcept {i : Nat} (hi : i < 32) :
    FE_ALL_EXCEPT.getLsbD i = true ↔ ∃ e : FpException, e.bit = i := by
  have hall : ∀ i : Fin 32, FE_ALL_EXCEPT.getLsbD i = true ↔ ∃ e : FpException, e.bit = i := by
    decide
  exact hall ⟨i, hi⟩

theorem hasUnsupported_eq_false {word : CInt} :
    hasUnsupportedExceptionBits word = false ↔ word &&& ~~~FE_ALL_EXCEPT = 0 := by
  simp [hasUnsupportedExceptionBits]

/-- A word without other bits is given by its exceptions. -/
theorem eq_of_exceptionsOf {v w : CInt} (hv : v &&& ~~~FE_ALL_EXCEPT = 0)
    (hw : w &&& ~~~FE_ALL_EXCEPT = 0) (h : exceptionsOf v = exceptionsOf w) : v = w := by
  apply BitVec.eq_of_getLsbD_eq
  intro i hi
  by_cases hall : FE_ALL_EXCEPT.getLsbD i = true
  · obtain ⟨e, rfl⟩ := (getLsbD_allExcept hi).mp hall
    rw [Bool.eq_iff_iff, ← mem_exceptionsOf, ← mem_exceptionsOf, h]
  · have hclear : ∀ u : CInt, u &&& ~~~FE_ALL_EXCEPT = 0 → u.getLsbD i = false := by
      intro u hu
      have hbit := congrArg (fun x : CInt => x.getLsbD i) hu
      rw [BitVec.getLsbD_and, BitVec.getLsbD_not, Bool.eq_false_of_not_eq_true hall] at hbit
      simpa [hi] using hbit
    rw [hclear v hv, hclear w hw]

theorem wordOf_supported (exceptions : Finset FpException) :
    wordOf exceptions &&& ~~~FE_ALL_EXCEPT = 0 := by
  unfold wordOf
  split_ifs <;> decide

theorem wordOf_empty : wordOf ∅ = 0 := by simp [wordOf]

theorem exceptionsOf_wordOf (exceptions : Finset FpException) :
    exceptionsOf (wordOf exceptions) = exceptions := by
  ext e
  rw [mem_exceptionsOf]
  unfold wordOf
  simp only [BitVec.getLsbD_or]
  cases e <;> (split_ifs <;> simp_all [FpException.bit])

theorem eq_wordOf {word : CInt} (h : word &&& ~~~FE_ALL_EXCEPT = 0) :
    word = wordOf (exceptionsOf word) :=
  eq_of_exceptionsOf h (wordOf_supported _) (exceptionsOf_wordOf _).symm

theorem and_supported {v : CInt} (hv : v &&& ~~~FE_ALL_EXCEPT = 0) (w : CInt) :
    (v &&& w) &&& ~~~FE_ALL_EXCEPT = 0 := by
  rw [BitVec.and_assoc, BitVec.and_comm w, ← BitVec.and_assoc, hv]
  simp

theorem normalize_supported (word : CInt) :
    normalizeExceptionMask word &&& ~~~FE_ALL_EXCEPT = 0 := by
  unfold normalizeExceptionMask
  rw [BitVec.and_assoc]
  simp

theorem exceptionsOf_normalize (word : CInt) :
    exceptionsOf (normalizeExceptionMask word) = exceptionsOf word := by
  have hall : exceptionsOf FE_ALL_EXCEPT = Finset.univ := by decide
  unfold normalizeExceptionMask
  rw [exceptionsOf_and, hall, Finset.inter_univ]

theorem wordOf_clear (exceptions : Finset FpException) (word : CInt) :
    wordOf exceptions &&& ~~~normalizeExceptionMask word =
      wordOf (exceptions \ exceptionsOf word) := by
  rw [eq_wordOf (and_supported (wordOf_supported exceptions) _), exceptionsOf_and_not,
    exceptionsOf_wordOf, exceptionsOf_normalize]

theorem wordOf_test (exceptions : Finset FpException) (word : CInt) :
    wordOf exceptions &&& normalizeExceptionMask word =
      wordOf (exceptions ∩ exceptionsOf word) := by
  rw [eq_wordOf (and_supported (wordOf_supported exceptions) _), exceptionsOf_and,
    exceptionsOf_wordOf, exceptionsOf_normalize]

theorem or_supported {v w : CInt} (hv : v &&& ~~~FE_ALL_EXCEPT = 0)
    (hw : w &&& ~~~FE_ALL_EXCEPT = 0) : (v ||| w) &&& ~~~FE_ALL_EXCEPT = 0 := by
  rw [BitVec.and_or_distrib_right, hv, hw]
  rfl

theorem wordOf_raise (exceptions : Finset FpException) (word : CInt) :
    wordOf exceptions ||| normalizeExceptionMask word =
      wordOf (exceptions ∪ exceptionsOf word) := by
  rw [eq_wordOf (or_supported (wordOf_supported exceptions) (normalize_supported word)),
    exceptionsOf_or, exceptionsOf_wordOf, exceptionsOf_normalize]

/-! ## Saved environments -/

/-- The object that an environment is saved in. -/
def Environment.image (env : Environment) : FenvT := .ofWords env.mode.code (wordOf env.raised)

theorem RoundMode.code_msb (mode : RoundMode) : mode.code.msb = false := by
  cases mode <;> decide

theorem wordOf_msb (exceptions : Finset FpException) : (wordOf exceptions).msb = false := by
  unfold wordOf
  split_ifs <;> decide

theorem RoundMode.code_injective {a b : RoundMode} (h : a.code = b.code) : a = b := by
  revert h
  cases a <;> cases b <;> decide

theorem isValidRoundMode_iff {word : CInt} :
    isValidRoundMode word = true ↔ ∃ mode : RoundMode, mode.code = word := by
  rw [isValidRoundMode, decide_eq_true_iff]
  constructor
  · intro h
    simp only [List.mem_cons, List.not_mem_nil, or_false] at h
    rcases h with rfl | rfl | rfl | rfl
    · exact ⟨.toNearest, rfl⟩
    · exact ⟨.downward, rfl⟩
    · exact ⟨.upward, rfl⟩
    · exact ⟨.towardZero, rfl⟩
  · rintro ⟨mode, rfl⟩
    cases mode <;> decide

theorem convert_eq_some {v w : BitVec 32} : convert v = some w ↔ v.msb = false ∧ v = w := by
  unfold convert
  cases v.msb <;> simp

theorem encodeState_eq (env : Environment) : encodeState env.state = some env.image := by
  unfold encodeState Environment.state
  dsimp only
  rw [convert_eq_some.mpr ⟨env.mode.code_msb, rfl⟩, convert_eq_some.mpr ⟨wordOf_msb _, rfl⟩]
  rfl

/-- What can be restored is what can have been saved. -/
theorem decodeState_eq_some {object : FenvT} {state : FenvState} :
    decodeState object = some state ↔
      ∃ env : Environment, object = env.image ∧ state = env.state := by
  unfold decodeState
  constructor
  · intro h
    rw [Option.bind_eq_some_iff] at h
    obtain ⟨mode, hmode, h⟩ := h
    split_ifs at h with hvalid hreserved
    rw [Option.bind_eq_some_iff] at h
    obtain ⟨flags, hflags, h⟩ := h
    split_ifs at h with hsupported
    rw [isValidRoundMode_iff] at hvalid
    obtain ⟨mode', rfl⟩ := hvalid
    have hwords : ∀ i, 2 ≤ i → object.words i = 0 := by
      intro i hi
      by_contra hne
      exact hreserved (decide_eq_true ⟨i, hi, hne⟩)
    have hflagsWord :=
      eq_wordOf (hasUnsupported_eq_false.mp (Bool.eq_false_of_not_eq_true hsupported))
    refine ⟨⟨exceptionsOf flags, mode'⟩, ?_, ?_⟩
    · obtain ⟨words⟩ := object
      unfold Environment.image FenvT.ofWords
      rw [FenvT.mk.injEq]
      funext i
      by_cases h0 : i = 0
      · rw [if_pos h0, h0]
        exact (convert_eq_some.mp hmode).2
      · rw [if_neg h0]
        by_cases h1 : i = 1
        · rw [if_pos h1, h1, ← hflagsWord]
          exact (convert_eq_some.mp hflags).2
        · rw [if_neg h1]
          exact hwords i (by omega)
    · rw [← Option.some.inj h]
      unfold Environment.state
      rw [eq_wordOf (normalize_supported flags), exceptionsOf_normalize]
  · rintro ⟨env, rfl, rfl⟩
    have hzero : convert (env.image.words 0) = some env.mode.code :=
      convert_eq_some.mpr ⟨env.mode.code_msb, rfl⟩
    have hone : convert (env.image.words 1) = some (wordOf env.raised) :=
      convert_eq_some.mpr ⟨wordOf_msb _, rfl⟩
    have hreserved : ¬ hasNonzeroReservedWords env.image = true := by
      intro h
      obtain ⟨i, hi, hne⟩ := of_decide_eq_true h
      apply hne
      unfold Environment.image FenvT.ofWords
      dsimp only
      rw [if_neg (by omega), if_neg (by omega)]
    have hsupported := hasUnsupported_eq_false.mpr (wordOf_supported env.raised)
    rw [hzero, Option.bind_some, if_neg (not_not.mpr (isValidRoundMode_iff.mpr ⟨env.mode, rfl⟩)),
      if_neg hreserved, hone, Option.bind_some, if_neg (by simp [hsupported])]
    unfold Environment.state
    rw [eq_wordOf (normalize_supported _), exceptionsOf_normalize, exceptionsOf_wordOf]

theorem Environment.state_injective {a b : Environment} (h : a.state = b.state) : a = b := by
  obtain ⟨raised, mode⟩ := a
  obtain ⟨raised', mode'⟩ := b
  unfold Environment.state at h
  rw [FenvState.mk.injEq] at h
  have hraised := congrArg exceptionsOf h.1
  rw [exceptionsOf_wordOf, exceptionsOf_wordOf] at hraised
  rw [Environment.mk.injEq]
  exact ⟨hraised, RoundMode.code_injective h.2⟩

/-! ## The machine of environments -/

/-- Every thread has an environment; the objects of the program are as before. -/
structure Model (T : Type) where
  env : T → Environment
  envs : Nat → FenvT
  flags : Nat → BitVec 16

/-- The exceptions that a mask names; `none` when it has other bits. -/
def named (excepts : CInt) : Option (Finset FpException) :=
  if excepts = wordOf (exceptionsOf excepts) then some (exceptionsOf excepts) else none

def modeOf (code : CInt) : Option RoundMode :=
  [RoundMode.toNearest, .downward, .upward, .towardZero].find? fun mode => mode.code = code

open Classical in
/-- The environment that an object holds. -/
noncomputable def saved (object : FenvT) : Option Environment :=
  if h : ∃ env : Environment, object = env.image then some h.choose else none

section
variable {T : Type} [DecidableEq T]

def Model.set (a : Model T) (t : T) (env : Environment) : Model T :=
  { a with env := Function.update a.env t env }

/-- What the calls mean. -/
noncomputable def Model.call (a : Model T) (l : T × Call) : CInt × Model T :=
  let env := a.env l.1
  match l.2 with
  | .feclearexcept excepts =>
    (named excepts).elim (1, a) fun set => (0, a.set l.1 { env with raised := env.raised \ set })
  | .fegetexceptflag flagp excepts =>
    if flagp = 0 then (1, a)
    else
      (named excepts).elim (1, a) fun set =>
        (0, { a with
          flags := Function.update a.flags flagp ((wordOf (env.raised ∩ set)).setWidth 16) })
  | .feraiseexcept excepts =>
    (named excepts).elim (1, a) fun set => (0, a.set l.1 { env with raised := env.raised ∪ set })
  | .fesetexceptflag flagp excepts =>
    if flagp = 0 then (1, a)
    else
      (named excepts).elim (1, a) fun set =>
        let stored := exceptionsOf ((a.flags flagp).setWidth 32)
        (0, a.set l.1 { env with raised := env.raised \ set ∪ stored ∩ set })
  | .fetestexcept excepts => (wordOf (env.raised ∩ exceptionsOf excepts), a)
  | .fegetround => (env.mode.code, a)
  | .fesetround code =>
    (modeOf code).elim (1, a) fun mode => (0, a.set l.1 { env with mode := mode })
  | .fegetenv envp =>
    if envp = 0 then (1, a)
    else (0, { a with envs := Function.update a.envs envp env.image })
  | .feholdexcept envp =>
    if envp = 0 then (1, a)
    else
      (0, { a with envs := Function.update a.envs envp env.image }.set l.1 { env with raised := ∅ })
  | .fesetenv envp =>
    if envp = FE_DFL_ENV then (0, a.set l.1 ⟨∅, .toNearest⟩)
    else if envp = 0 then (1, a)
    else (saved (a.envs envp)).elim (1, a) fun restored => (0, a.set l.1 restored)
  | .feupdateenv envp =>
    if envp = FE_DFL_ENV then (0, a.set l.1 ⟨env.raised, .toNearest⟩)
    else if envp = 0 then (1, a)
    else
      (saved (a.envs envp)).elim (1, a) fun restored =>
        (0, a.set l.1 ⟨restored.raised ∪ env.raised, restored.mode⟩)
  | .storeEnv envp object => (0, { a with envs := Function.update a.envs envp object })
  | .storeFlag flagp flag => (0, { a with flags := Function.update a.flags flagp flag })

/-- The machine of `fenv.rs` that stands for a model. -/
def Model.machine (a : Model T) : Machine T where
  state t := (a.env t).state
  envs := a.envs
  flags := a.flags

theorem Model.machine_set (a : Model T) (t : T) (env : Environment) (f : FenvState → FenvState)
    (h : f (a.env t).state = env.state) : a.machine.updateState t f = (a.set t env).machine := by
  unfold Machine.updateState Model.machine Model.set
  rw [Machine.mk.injEq]
  refine ⟨?_, rfl, rfl⟩
  funext u
  by_cases hu : u = t
  · rw [hu]
    simp [h]
  · simp [Function.update_of_ne hu]

theorem named_eq_none {excepts : CInt} (h : hasUnsupportedExceptionBits excepts = true) :
    named excepts = none := by
  refine if_neg fun heq => ?_
  have hsupported := hasUnsupported_eq_false.mpr (wordOf_supported (exceptionsOf excepts))
  rw [← heq, h] at hsupported
  cases hsupported

theorem named_eq_some {excepts : CInt} (h : ¬ hasUnsupportedExceptionBits excepts = true) :
    named excepts = some (exceptionsOf excepts) :=
  if_pos (eq_wordOf (hasUnsupported_eq_false.mp (Bool.eq_false_of_not_eq_true h)))

theorem modeOf_code (mode : RoundMode) : modeOf mode.code = some mode := by
  cases mode <;> decide

theorem modeOf_eq_none {code : CInt} (h : ¬ isValidRoundMode code = true) :
    modeOf code = none := by
  rw [modeOf, List.find?_eq_none]
  intro mode _ heq
  exact h (isValidRoundMode_iff.mpr ⟨mode, of_decide_eq_true heq⟩)

theorem saved_image (env : Environment) : saved env.image = some env := by
  have hex : ∃ other : Environment, env.image = other.image := ⟨env, rfl⟩
  unfold saved
  rw [dif_pos hex]
  -- the object gives the state, and the state the environment
  have hdecode := decodeState_eq_some.mpr ⟨hex.choose, hex.choose_spec, rfl⟩
  rw [decodeState_eq_some.mpr ⟨env, rfl, rfl⟩, Option.some.injEq] at hdecode
  rw [Environment.state_injective hdecode.symm]

theorem decodeState_eq (object : FenvT) :
    decodeState object = (saved object).map Environment.state := by
  cases h : decodeState object with
  | none =>
    have hnot : ¬ ∃ env : Environment, object = env.image := by
      rintro ⟨env, henv⟩
      rw [decodeState_eq_some.mpr ⟨env, henv, rfl⟩] at h
      cases h
    unfold saved
    rw [dif_neg hnot]
    rfl
  | some state =>
    obtain ⟨env, rfl, rfl⟩ := decodeState_eq_some.mp h
    rw [saved_image]
    rfl

/-! ## One call -/

theorem wordOf_lt (exceptions : Finset FpException) : (wordOf exceptions).toNat < 0x10000 := by
  unfold wordOf
  split_ifs <;> decide

theorem feclearexcept_machine (a : Model T) (t : T) (excepts : CInt) :
    a.machine.feclearexcept t excepts =
      ((a.call (t, .feclearexcept excepts)).1, (a.call (t, .feclearexcept excepts)).2.machine) := by
  unfold Machine.feclearexcept Model.call
  dsimp only
  by_cases hbits : hasUnsupportedExceptionBits excepts = true
  · rw [if_pos hbits, named_eq_none hbits]
    rfl
  · rw [if_neg hbits, named_eq_some hbits]
    dsimp only [Option.elim_some]
    rw [a.machine_set t ⟨(a.env t).raised \ exceptionsOf excepts, (a.env t).mode⟩]
    unfold Environment.state
    rw [wordOf_clear]

theorem feraiseexcept_machine (a : Model T) (t : T) (excepts : CInt) :
    a.machine.feraiseexcept t excepts =
      ((a.call (t, .feraiseexcept excepts)).1, (a.call (t, .feraiseexcept excepts)).2.machine) := by
  unfold Machine.feraiseexcept Model.call
  dsimp only
  by_cases hbits : hasUnsupportedExceptionBits excepts = true
  · rw [if_pos hbits, named_eq_none hbits]
    rfl
  · rw [if_neg hbits, named_eq_some hbits]
    dsimp only [Option.elim_some]
    rw [a.machine_set t ⟨(a.env t).raised ∪ exceptionsOf excepts, (a.env t).mode⟩]
    unfold Environment.state
    rw [wordOf_raise]

theorem fegetexceptflag_machine (a : Model T) (t : T) (flagp : Nat) (excepts : CInt) :
    a.machine.fegetexceptflag t flagp excepts =
      some ((a.call (t, .fegetexceptflag flagp excepts)).1,
        (a.call (t, .fegetexceptflag flagp excepts)).2.machine) := by
  unfold Machine.fegetexceptflag Model.call
  dsimp only
  by_cases hnull : flagp = 0
  · rw [if_pos (Or.inl hnull), if_pos hnull]
  · rw [if_neg hnull]
    by_cases hbits : hasUnsupportedExceptionBits excepts = true
    · rw [if_pos (Or.inr hbits), named_eq_none hbits]
      rfl
    · have hcaptured : (a.machine.state t).exceptFlags &&& normalizeExceptionMask excepts =
          wordOf ((a.env t).raised ∩ exceptionsOf excepts) := wordOf_test _ _
      rw [if_neg (not_or.mpr ⟨hnull, hbits⟩), named_eq_some hbits, hcaptured,
        if_pos (wordOf_lt _)]
      rfl

theorem fesetexceptflag_machine (a : Model T) (t : T) (flagp : Nat) (excepts : CInt) :
    a.machine.fesetexceptflag t flagp excepts =
      ((a.call (t, .fesetexceptflag flagp excepts)).1,
        (a.call (t, .fesetexceptflag flagp excepts)).2.machine) := by
  unfold Machine.fesetexceptflag Model.call
  dsimp only
  by_cases hnull : flagp = 0
  · rw [if_pos (Or.inl hnull), if_pos hnull]
  · rw [if_neg hnull]
    by_cases hbits : hasUnsupportedExceptionBits excepts = true
    · rw [if_pos (Or.inr hbits), named_eq_none hbits]
      rfl
    · rw [if_neg (not_or.mpr ⟨hnull, hbits⟩), named_eq_some hbits]
      dsimp only [Option.elim_some]
      rw [a.machine_set t ⟨(a.env t).raised \ exceptionsOf excepts ∪
        exceptionsOf ((a.flags flagp).setWidth 32) ∩ exceptionsOf excepts, (a.env t).mode⟩]
      unfold Environment.state
      rw [wordOf_clear, FenvState.mk.injEq]
      refine ⟨?_, rfl⟩
      -- both sides have supported bits only, so that their exceptions are compared
      apply eq_of_exceptionsOf
      · refine or_supported (wordOf_supported _) ?_
        rw [BitVec.and_assoc, normalize_supported]
        simp
      · exact wordOf_supported _
      · rw [exceptionsOf_or, exceptionsOf_and, exceptionsOf_wordOf, exceptionsOf_wordOf,
          exceptionsOf_normalize]
        rfl

theorem fesetround_machine (a : Model T) (t : T) (code : CInt) :
    a.machine.fesetround t code =
      ((a.call (t, .fesetround code)).1, (a.call (t, .fesetround code)).2.machine) := by
  unfold Machine.fesetround Model.call
  dsimp only
  by_cases hvalid : isValidRoundMode code = true
  · obtain ⟨mode, rfl⟩ := isValidRoundMode_iff.mp hvalid
    rw [if_neg (not_not.mpr hvalid), modeOf_code]
    dsimp only [Option.elim_some]
    rw [a.machine_set t ⟨(a.env t).raised, mode⟩]
    rfl
  · rw [if_pos hvalid, modeOf_eq_none hvalid]
    rfl

theorem fesetenv_machine (a : Model T) (t : T) (envp : Nat) :
    a.machine.fesetenv t envp =
      ((a.call (t, .fesetenv envp)).1, (a.call (t, .fesetenv envp)).2.machine) := by
  unfold Machine.fesetenv Model.call
  dsimp only
  by_cases hdefault : envp = FE_DFL_ENV
  · rw [if_pos hdefault, if_pos hdefault, a.machine_set t ⟨∅, .toNearest⟩]
    rfl
  · rw [if_neg hdefault, if_neg hdefault]
    by_cases hnull : envp = 0
    · rw [if_pos hnull, if_pos hnull]
    · rw [if_neg hnull, if_neg hnull, show a.machine.envs envp = a.envs envp from rfl,
        decodeState_eq]
      cases saved (a.envs envp) with
      | none => rfl
      | some restored =>
        dsimp only [Option.map_some, Option.elim_some]
        rw [a.machine_set t restored]
        rfl

/-- The flags that were up before come back on top of the restored ones. -/
theorem feupdateenv_machine (a : Model T) (t : T) (envp : Nat) :
    a.machine.feupdateenv t envp =
      ((a.call (t, .feupdateenv envp)).1, (a.call (t, .feupdateenv envp)).2.machine) := by
  have htest : a.machine.fetestexcept t FE_ALL_EXCEPT = wordOf (a.env t).raised := by
    have hall : exceptionsOf FE_ALL_EXCEPT = Finset.univ := by decide
    have hword := wordOf_test (a.env t).raised FE_ALL_EXCEPT
    rw [hall, Finset.inter_univ] at hword
    exact hword
  have hsupported : ¬ hasUnsupportedExceptionBits (wordOf (a.env t).raised) = true := by
    rw [hasUnsupported_eq_false.mpr (wordOf_supported _)]
    exact Bool.false_ne_true
  have hraise : ∀ env : Environment,
      ((a.set t env).machine.feraiseexcept t (wordOf (a.env t).raised)).2 =
        (a.set t ⟨env.raised ∪ (a.env t).raised, env.mode⟩).machine := by
    intro env
    rw [feraiseexcept_machine]
    unfold Model.call
    dsimp only
    rw [named_eq_some hsupported, exceptionsOf_wordOf]
    simp [Model.set]
  unfold Machine.feupdateenv
  rw [htest, fesetenv_machine]
  unfold Model.call
  dsimp only
  by_cases hdefault : envp = FE_DFL_ENV
  · rw [if_pos hdefault, if_pos hdefault]
    dsimp only
    exact (if_neg (fun h => h rfl)).trans (congrArg (fun m => ((0 : CInt), m))
      ((hraise ⟨∅, .toNearest⟩).trans (by rw [Finset.empty_union])))
  · rw [if_neg hdefault, if_neg hdefault]
    by_cases hnull : envp = 0
    · rw [if_pos hnull, if_pos hnull]
      rfl
    · rw [if_neg hnull, if_neg hnull]
      cases saved (a.envs envp) with
      | none => rfl
      | some restored =>
        exact (if_neg (fun h => h rfl)).trans
          (congrArg (fun m => ((0 : CInt), m)) (hraise restored))

/-- **Simulation.**  A call replies what it means, and the words stand for what it leaves. -/
theorem Model.call_machine (a : Model T) (l : T × Call) :
    a.machine.call l = some ((a.call l).1, (a.call l).2.machine) := by
  obtain ⟨t, c⟩ := l
  cases c with
  | feclearexcept excepts => exact congrArg some (feclearexcept_machine a t excepts)
  | fegetexceptflag flagp excepts => exact fegetexceptflag_machine a t flagp excepts
  | feraiseexcept excepts => exact congrArg some (feraiseexcept_machine a t excepts)
  | fesetexceptflag flagp excepts => exact congrArg some (fesetexceptflag_machine a t flagp excepts)
  | fetestexcept excepts =>
    exact congrArg (fun word => some (word, a.machine)) (wordOf_test (a.env t).raised excepts)
  | fegetround => rfl
  | fesetround code => exact congrArg some (fesetround_machine a t code)
  | fegetenv envp =>
    unfold Machine.call Machine.fegetenv Model.call
    dsimp only
    by_cases hnull : envp = 0
    · rw [if_pos hnull, if_pos hnull]
    · rw [if_neg hnull, if_neg hnull, show a.machine.state t = (a.env t).state from rfl,
        encodeState_eq]
      rfl
  | feholdexcept envp =>
    unfold Machine.call Machine.feholdexcept Model.call
    dsimp only
    by_cases hnull : envp = 0
    · rw [if_pos hnull, if_pos hnull]
    · rw [if_neg hnull, if_neg hnull, show a.machine.state t = (a.env t).state from rfl,
        encodeState_eq]
      have hset := Model.machine_set
        { a with envs := Function.update a.envs envp (a.env t).image } t
        ⟨∅, (a.env t).mode⟩ (fun state => { state with exceptFlags := 0 })
        (by unfold Environment.state; rw [wordOf_empty])
      exact congrArg (fun m => some ((0 : CInt), m)) hset
  | fesetenv envp => exact congrArg some (fesetenv_machine a t envp)
  | feupdateenv envp => exact congrArg some (feupdateenv_machine a t envp)
  | storeEnv envp object => rfl
  | storeFlag flagp flag => rfl

/-! ## Runs -/

/-- The environments before any call; what the objects hold is left open. -/
def Model.start (envs : Nat → FenvT) (flags : Nat → BitVec 16) : Model T where
  env _ := ⟨∅, .toNearest⟩
  envs := envs
  flags := flags

def Machine.start (envs : Nat → FenvT) (flags : Nat → BitVec 16) : Machine T where
  state _ := .default
  envs := envs
  flags := flags

omit [DecidableEq T] in
theorem Model.machine_start (envs : Nat → FenvT) (flags : Nat → BitVec 16) :
    (Model.start (T := T) envs flags).machine = Machine.start envs flags := by
  have hdefault : (⟨∅, .toNearest⟩ : Environment).state = .default := by
    unfold Environment.state
    rw [wordOf_empty]
    rfl
  unfold Model.machine Machine.start Model.start
  rw [Machine.mk.injEq]
  exact ⟨funext fun _ => hdefault, rfl, rfl⟩

/-- From a machine that stands for environments, a run leads to another one. -/
theorem Model.run_machine (a : Model T) (calls : List (T × Call)) :
    Calls.run Machine.call a.machine calls =
      some ((Calls.answers Model.call a calls).1, (Calls.answers Model.call a calls).2.machine) := by
  have hcall : ∀ (m : Machine T) (b : Model T) (l : T × Call), m = b.machine →
      ∃ m', Machine.call m l = some ((Model.call b l).1, m') ∧
        m' = (Model.call b l).2.machine := by
    intro m b l h
    exact ⟨_, h ▸ b.call_machine l, rfl⟩
  obtain ⟨m, hrun, rfl⟩ := Calls.run_refines hcall rfl calls
  exact hrun

/-- **Refinement.**  Whatever the threads call and the program stores, no call fails, every reply is
that of the environments, and the words stand for them. -/
theorem run_eq_answers (envs : Nat → FenvT) (flags : Nat → BitVec 16) (calls : List (T × Call)) :
    Calls.run Machine.call (Machine.start envs flags) calls =
      some ((Calls.answers Model.call (Model.start envs flags) calls).1,
        (Calls.answers Model.call (Model.start envs flags) calls).2.machine) := by
  rw [← Model.machine_start]
  exact (Model.start envs flags).run_machine calls

/-! ## Saving and restoring -/

/-- The calls that write to an object. -/
def Call.Writes (envp : Nat) : Call → Prop
  | .fegetenv p => p = envp
  | .feholdexcept p => p = envp
  | .storeEnv p _ => p = envp
  | _ => False

/-- Other calls leave the object as it is. -/
theorem Model.call_envs (a : Model T) {l : T × Call} {envp : Nat} (h : ¬ l.2.Writes envp) :
    (a.call l).2.envs envp = a.envs envp := by
  obtain ⟨t, c⟩ := l
  unfold Model.call
  dsimp only
  cases c with
  | feclearexcept excepts =>
    dsimp only
    cases named excepts <;> rfl
  | fegetexceptflag flagp excepts =>
    dsimp only
    split
    · rfl
    · cases named excepts <;> rfl
  | feraiseexcept excepts =>
    dsimp only
    cases named excepts <;> rfl
  | fesetexceptflag flagp excepts =>
    dsimp only
    split
    · rfl
    · cases named excepts <;> rfl
  | fetestexcept excepts => rfl
  | fegetround => rfl
  | fesetround code =>
    dsimp only
    cases modeOf code <;> rfl
  | fegetenv p =>
    dsimp only
    split
    · rfl
    · exact Function.update_of_ne (fun heq => h heq.symm) _ _
  | feholdexcept p =>
    dsimp only
    split
    · rfl
    · exact Function.update_of_ne (fun heq => h heq.symm) _ _
  | fesetenv p =>
    dsimp only
    split_ifs
    · rfl
    · rfl
    · cases saved (a.envs p) <;> rfl
  | feupdateenv p =>
    dsimp only
    split_ifs
    · rfl
    · rfl
    · cases saved (a.envs p) <;> rfl
  | storeEnv p object => exact Function.update_of_ne (fun heq => h heq.symm) _ _
  | storeFlag flagp flag => rfl

theorem Model.answers_envs (a : Model T) {calls : List (T × Call)} {envp : Nat}
    (h : ∀ l ∈ calls, ¬ l.2.Writes envp) :
    (Calls.answers Model.call a calls).2.envs envp = a.envs envp := by
  induction calls generalizing a with
  | nil => rfl
  | cons l calls ih =>
    show (Calls.answers Model.call (a.call l).2 calls).2.envs envp = a.envs envp
    rw [ih _ fun l' hl' => h l' (List.mem_cons_of_mem _ hl'), a.call_envs (h l List.mem_cons_self)]

/-- The object that was saved to holds the environment. -/
theorem Model.save_envs (a : Model T) {t : T} {envp : Nat} (hnull : envp ≠ 0) {save : Call}
    (hsave : save = .fegetenv envp ∨ save = .feholdexcept envp) :
    (a.call (t, save)).2.envs envp = (a.env t).image := by
  unfold Model.call
  rcases hsave with rfl | rfl
  · dsimp only
    rw [if_neg hnull]
    exact Function.update_self ..
  · dsimp only
    rw [if_neg hnull]
    exact Function.update_self ..

/-- **Restoring.**  After any run in which nobody writes to the object of a saved environment, a
thread that restores it gets the flags and the mode of the time of saving; `feupdateenv` adds the
flags that the thread has raised.  The other threads notice nothing. -/
theorem restores_saved {envs : Nat → FenvT} {flags : Nat → BitVec 16}
    {before during : List (T × Call)} {m m₁ m₂ : Machine T} {rs rs' : List CInt} {r : CInt}
    {t u : T} {envp : Nat} {save : Call}
    (hbefore : Calls.run Machine.call (Machine.start envs flags) before = some (rs, m))
    (hnull : envp ≠ 0) (hdefault : envp ≠ FE_DFL_ENV)
    (hsave : save = .fegetenv envp ∨ save = .feholdexcept envp)
    (hcall : m.call (t, save) = some (r, m₁))
    (hduring : Calls.run Machine.call m₁ during = some (rs', m₂))
    (hkeep : ∀ l ∈ during, ¬ l.2.Writes envp) :
    (∃ m₃, m₂.call (u, .fesetenv envp) = some (0, m₃) ∧ m₃.state u = m.state t ∧
      ∀ v, v ≠ u → m₃.state v = m₂.state v) ∧
    ∃ m₃, m₂.call (u, .feupdateenv envp) = some (0, m₃) ∧
      (m₃.state u).roundMode = (m.state t).roundMode ∧
      (m₃.state u).exceptFlags = (m.state t).exceptFlags ||| (m₂.state u).exceptFlags ∧
      ∀ v, v ≠ u → m₃.state v = m₂.state v := by
  -- the machines stand for models, and the object keeps the image of the environment
  rw [run_eq_answers, Option.some.injEq, Prod.mk.injEq] at hbefore
  generalize (Calls.answers Model.call (Model.start envs flags) before).2 = a at hbefore
  rw [← hbefore.2, a.call_machine, Option.some.injEq, Prod.mk.injEq] at hcall
  have hsaved := a.save_envs (t := t) hnull hsave
  generalize (a.call (t, save)).2 = a₁ at hcall hsaved
  rw [← hcall.2, a₁.run_machine, Option.some.injEq, Prod.mk.injEq] at hduring
  have hkept := a₁.answers_envs hkeep
  generalize (Calls.answers Model.call a₁ during).2 = b at hduring hkept
  rw [hsaved] at hkept
  rw [← hduring.2, ← hbefore.2]
  have hother : ∀ (env : Environment) (v : T), v ≠ u →
      (b.set u env).machine.state v = b.machine.state v := by
    intro env v hv
    show ((Function.update b.env u env) v).state = (b.env v).state
    rw [Function.update_of_ne hv]
  have hthis : ∀ env : Environment, (b.set u env).machine.state u = env.state := by
    intro env
    show ((Function.update b.env u env) u).state = env.state
    rw [Function.update_self]
  constructor
  · refine ⟨(b.set u (a.env t)).machine, ?_, hthis _, hother _⟩
    rw [b.call_machine]
    unfold Model.call
    dsimp only
    rw [if_neg hdefault, if_neg hnull, hkept, saved_image]
    rfl
  · refine ⟨(b.set u ⟨(a.env t).raised ∪ (b.env u).raised, (a.env t).mode⟩).machine, ?_, ?_, ?_,
      hother _⟩
    · rw [b.call_machine]
      unfold Model.call
      dsimp only
      rw [if_neg hdefault, if_neg hnull, hkept, saved_image]
      rfl
    · rw [hthis]
      rfl
    · rw [hthis]
      show wordOf _ = wordOf (a.env t).raised ||| wordOf (b.env u).raised
      apply eq_of_exceptionsOf (wordOf_supported _)
        (or_supported (wordOf_supported _) (wordOf_supported _))
      rw [exceptionsOf_or, exceptionsOf_wordOf, exceptionsOf_wordOf, exceptionsOf_wordOf]

end

/-- An exception that was up, one that was raised meanwhile, and a mode that was changed. -/
theorem restores_saved_hold :
    ∃ m m₁ m₂ m₃ : Machine Nat,
      Calls.run Machine.call (Machine.start (fun _ => ⟨fun _ => 0⟩) fun _ => 0)
        [(0, .feraiseexcept 0x01)] = some ([0], m) ∧
      m.call (0, .feholdexcept 64) = some (0, m₁) ∧
      Calls.run Machine.call m₁ [(0, .feraiseexcept 0x04), (0, .fesetround FE_UPWARD)] =
        some ([0, 0], m₂) ∧
      m₂.call (0, .feupdateenv 64) = some (0, m₃) ∧ m₃.state 0 = ⟨0x05, FE_TONEAREST⟩ := by
  have hrun : ∃ m m₁ m₂ : Machine Nat,
      Calls.run Machine.call (Machine.start (fun _ => ⟨fun _ => 0⟩) fun _ => 0)
        [(0, .feraiseexcept 0x01)] = some ([0], m) ∧
      m.call (0, .feholdexcept 64) = some (0, m₁) ∧
      Calls.run Machine.call m₁ [(0, .feraiseexcept 0x04), (0, .fesetround FE_UPWARD)] =
        some ([0, 0], m₂) ∧
      m.state 0 = ⟨0x01, FE_TONEAREST⟩ ∧ m₂.state 0 = ⟨0x04, FE_UPWARD⟩ :=
    ⟨_, _, _, rfl, rfl, rfl, by decide, by decide⟩
  obtain ⟨m, m₁, m₂, hbefore, hcall, hduring, hm, hm₂⟩ := hrun
  have hkeep : ∀ l ∈ [(0, Call.feraiseexcept 0x04), (0, .fesetround FE_UPWARD)],
      ¬ l.2.Writes 64 := by
    simp [Call.Writes]
  obtain ⟨_, m₃, hupdate, hmode, hflags, _⟩ :=
    restores_saved (u := 0) hbefore (by decide) (by decide) (Or.inr rfl) hcall hduring hkeep
  rw [hm] at hmode hflags
  rw [hm₂] at hflags
  refine ⟨m, m₁, m₂, m₃, hbefore, hcall, hduring, hupdate, ?_⟩
  cases hstate : m₃.state 0
  rw [hstate] at hmode hflags
  rw [FenvState.mk.injEq]
  exact ⟨hflags, hmode⟩

end Rlibc.Fenv
