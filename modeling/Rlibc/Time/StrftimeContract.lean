import Rlibc.Time.Strftime

/-!
# What `strftime` writes

A format is a list of directives, and its expansion is what they expand to, one after the other.
The writer holds the expansion as far as its capacity goes, so a call delivers all of it or
nothing.
-/

namespace Rlibc.Time

/-- A piece of a format. -/
inductive Directive where
  | plain (byte : UInt8)
  | conversion (token : UInt8)
  | alternative (modifier token : UInt8)
  /-- The format ends inside a directive. -/
  | cut (bytes : List UInt8)
deriving DecidableEq

/-- The directives of a format. -/
def directives : List UInt8 → List Directive
  | [] => []
  | [byte] => if byte = percent then [.cut [byte]] else [.plain byte]
  | [byte, token] =>
    if byte ≠ percent then .plain byte :: directives [token]
    else if isAlternativeModifier token then [.cut [byte, token]]
    else [.conversion token]
  | byte :: token :: modified :: rest =>
    if byte ≠ percent then .plain byte :: directives (token :: modified :: rest)
    else if isAlternativeModifier token then .alternative token modified :: directives rest
    else .conversion token :: directives (modified :: rest)

/-- No directive of the format is cut. -/
def Complete (format : List UInt8) : Prop := ∀ bytes, Directive.cut bytes ∉ directives format

/-- What a directive expands to. -/
def Directive.expand (readCString : Nat → List UInt8) (timeParts : Tm) : Directive → List UInt8
  | plain byte => [byte]
  | conversion token => appendToken readCString token timeParts
  | alternative modifier token =>
    match normalizeAlternativeModifierToken modifier token with
    | some baseToken => appendToken readCString baseToken timeParts
    | none => appendVerbatimAlternativeModifier modifier token
  | cut bytes => bytes

/-- What a format expands to. -/
def expansion (readCString : Nat → List UInt8) (timeParts : Tm) (format : List UInt8) :
    List UInt8 :=
  (directives format).flatMap (Directive.expand readCString timeParts)

/-! ## Formats -/

theorem directives_plain {byte : UInt8} (h : byte ≠ percent) (rest : List UInt8) :
    directives (byte :: rest) = .plain byte :: directives rest := by
  cases rest with
  | nil => simp only [directives, if_neg h]
  | cons token rest =>
    cases rest with
    | nil => simp only [directives, if_pos h]
    | cons modified rest => rw [directives, if_pos h]

theorem directives_conversion {token : UInt8} (h : ¬isAlternativeModifier token = true)
    (rest : List UInt8) :
    directives (percent :: token :: rest) = .conversion token :: directives rest := by
  cases rest with
  | nil => simp only [directives, if_neg h, ne_eq, not_true_eq_false, if_false]
  | cons modified rest => rw [directives, if_neg (not_not_intro rfl), if_neg h]

theorem directives_alternative {modifier : UInt8} (h : isAlternativeModifier modifier = true)
    (token : UInt8) (rest : List UInt8) :
    directives (percent :: modifier :: token :: rest) =
      .alternative modifier token :: directives rest := by
  rw [directives, if_neg (not_not_intro rfl), if_pos h]

/-- The ways a format that is not empty begins. -/
inductive FormatStart : List UInt8 → Prop
  | plain {byte : UInt8} (h : byte ≠ percent) (rest : List UInt8) : FormatStart (byte :: rest)
  | percentEnd : FormatStart [percent]
  | conversion {token : UInt8} (h : ¬isAlternativeModifier token = true) (rest : List UInt8) :
      FormatStart (percent :: token :: rest)
  | modifierEnd {modifier : UInt8} (h : isAlternativeModifier modifier = true) :
      FormatStart [percent, modifier]
  | alternative {modifier : UInt8} (h : isAlternativeModifier modifier = true) (token : UInt8)
      (rest : List UInt8) : FormatStart (percent :: modifier :: token :: rest)

theorem formatStart (first : UInt8) (rest : List UInt8) : FormatStart (first :: rest) := by
  by_cases hfirst : first = percent
  · rw [hfirst]
    cases rest with
    | nil => exact .percentEnd
    | cons token rest =>
      by_cases htoken : isAlternativeModifier token = true
      · cases rest with
        | nil => exact .modifierEnd htoken
        | cons modified rest => exact .alternative htoken modified rest
      · exact .conversion htoken rest
  · exact .plain hfirst rest

theorem Complete.tail {directive : Directive} {format rest : List UInt8} (h : Complete format)
    (hformat : directives format = directive :: directives rest) : Complete rest := by
  intro bytes hmem
  apply h bytes
  rw [hformat]
  exact List.mem_cons_of_mem _ hmem

/-- Behind a complete format the next directive starts afresh. -/
theorem directives_append {front : List UInt8} (h : Complete front) (back : List UInt8) :
    directives (front ++ back) = directives front ++ directives back := by
  -- Induction on the length: a directive takes up to three bytes.
  induction front using (measure List.length).wf.induction with
  | _ front ih =>
    cases front with
    | nil => rw [directives, List.nil_append, List.nil_append]
    | cons first rest =>
      cases formatStart first rest with
      | plain hfirst =>
        have hrest := h.tail (directives_plain hfirst rest)
        rw [List.cons_append, directives_plain hfirst, directives_plain hfirst,
          ih rest (Nat.lt_succ_self _) hrest, List.cons_append]
      | percentEnd =>
        exfalso
        apply h [percent]
        rw [directives, if_pos rfl]
        exact List.mem_singleton_self _
      | @conversion token htoken rest =>
        have hrest := h.tail (directives_conversion htoken rest)
        have hlt : rest.length < (percent :: token :: rest).length :=
          Nat.lt_succ_of_lt (Nat.lt_succ_self _)
        rw [List.cons_append, List.cons_append, directives_conversion htoken,
          directives_conversion htoken, ih rest hlt hrest, List.cons_append]
      | @modifierEnd modifier hmodifier =>
        exfalso
        apply h [percent, modifier]
        rw [directives, if_neg (not_not_intro rfl), if_pos hmodifier]
        exact List.mem_singleton_self _
      | @alternative modifier hmodifier token rest =>
        have hrest := h.tail (directives_alternative hmodifier token rest)
        have hlt : rest.length < (percent :: modifier :: token :: rest).length := by
          simp only [List.length_cons]
          omega
        rw [List.cons_append, List.cons_append, List.cons_append,
          directives_alternative hmodifier, directives_alternative hmodifier, ih rest hlt hrest,
          List.cons_append]

theorem expansion_append {readCString : Nat → List UInt8} {timeParts : Tm} {front : List UInt8}
    (h : Complete front) (back : List UInt8) :
    expansion readCString timeParts (front ++ back) =
      expansion readCString timeParts front ++ expansion readCString timeParts back := by
  unfold expansion
  rw [directives_append h, List.flatMap_append]

/-! ## The writer -/

namespace OutputBuffer

theorem pushBytes_append (buffer : OutputBuffer) (front back : List UInt8) :
    buffer.pushBytes (front ++ back) = (buffer.pushBytes front).pushBytes back :=
  List.foldl_append

/-- The writer holds the bytes pushed so far, as far as its capacity goes, and has not stored
anything outside it. -/
structure Holds (buffer : OutputBuffer) (bytes : List UInt8) : Prop where
  required : buffer.required = bytes.length
  stored : ∀ i, i < bytes.length → i + 1 < buffer.max → buffer.stores.lookup i = bytes[i]?
  inside : ∀ store ∈ buffer.stores, store.1 < buffer.max

theorem new_holds (max : Nat) : (new max).Holds [] where
  required := rfl
  stored i hi := absurd hi (Nat.not_lt_zero i)
  inside _ hstore := absurd hstore List.not_mem_nil

/-- One byte more. -/
theorem Holds.pushByte {buffer : OutputBuffer} {bytes : List UInt8} (h : buffer.Holds bytes)
    (byte : UInt8) : (buffer.pushByte byte).Holds (bytes ++ [byte]) where
  required := by
    rw [List.length_append, List.length_singleton, ← h.required]
    rfl
  stored i hi hmax := by
    have hrequired := h.required
    have hcapacity : buffer.max ≠ 0 := by
      intro hzero
      change i + 1 < buffer.max at hmax
      omega
    rw [List.length_append, List.length_singleton] at hi
    change i + 1 < buffer.max at hmax
    unfold OutputBuffer.pushByte
    dsimp only
    by_cases hfits : buffer.required < buffer.max - 1
    · -- The byte is stored at the end of what is there.
      rw [if_pos ⟨hcapacity, hfits⟩, List.lookup_cons]
      by_cases hlast : i = buffer.required
      · rw [hlast, beq_self_eq_true, hrequired, List.getElem?_append_right (Nat.le_refl _)]
        simp
      · rw [beq_false_of_ne hlast, List.getElem?_append_left (by omega)]
        exact h.stored i (by omega) hmax
    · rw [if_neg (fun hc => hfits hc.2), List.getElem?_append_left (by omega)]
      exact h.stored i (by omega) hmax
  inside store hstore := by
    unfold OutputBuffer.pushByte at hstore
    dsimp only at hstore
    by_cases hfits : buffer.max ≠ 0 ∧ buffer.required < buffer.max - 1
    · rw [if_pos hfits] at hstore
      rcases List.mem_cons.mp hstore with hlast | hstore
      · rw [hlast]
        show buffer.required < buffer.max
        omega
      · exact h.inside store hstore
    · rw [if_neg hfits] at hstore
      exact h.inside store hstore

theorem Holds.pushBytes {buffer : OutputBuffer} {bytes : List UInt8} (h : buffer.Holds bytes)
    (more : List UInt8) : (buffer.pushBytes more).Holds (bytes ++ more) := by
  induction more generalizing buffer bytes with
  | nil =>
    rw [List.append_nil]
    exact h
  | cons byte more ih =>
    have hstep := ih (h.pushByte byte)
    rw [List.append_assoc, List.singleton_append] at hstep
    exact hstep

theorem pushByte_max (buffer : OutputBuffer) (byte : UInt8) :
    (buffer.pushByte byte).max = buffer.max := rfl

theorem pushBytes_max (buffer : OutputBuffer) (bytes : List UInt8) :
    (buffer.pushBytes bytes).max = buffer.max := by
  induction bytes generalizing buffer with
  | nil => rfl
  | cons byte bytes ih => exact (ih (buffer.pushByte byte)).trans (pushByte_max buffer byte)

end OutputBuffer

/-! ## The call -/

theorem expansion_plain (readCString : Nat → List UInt8) (timeParts : Tm) {byte : UInt8}
    (h : byte ≠ percent) (rest : List UInt8) :
    expansion readCString timeParts (byte :: rest) =
      byte :: expansion readCString timeParts rest := by
  unfold expansion
  rw [directives_plain h, List.flatMap_cons]
  rfl

/-- The loop pushes the expansion of the format. -/
theorem strftimeLoop_eq (readCString : Nat → List UInt8) (timeParts : Tm) (buffer : OutputBuffer)
    (format : List UInt8) :
    strftimeLoop readCString timeParts buffer format =
      buffer.pushBytes (expansion readCString timeParts format) := by
  -- Induction on the length of the format: a directive takes two or three bytes.
  induction format using (measure List.length).wf.induction generalizing buffer with
  | _ format ih =>
    cases format with
    | nil => rfl
    | cons first rest =>
      cases formatStart first rest with
      | plain hfirst =>
        rw [expansion_plain readCString timeParts hfirst]
        cases rest with
        | nil => rfl
        | cons token rest =>
          rw [strftimeLoop.eq_def]
          dsimp only
          rw [if_pos hfirst, ih (token :: rest) (Nat.lt_succ_self _)]
          rfl
      | percentEnd => rfl
      | @conversion token htoken rest =>
        have hlt : rest.length < (percent :: token :: rest).length :=
          Nat.lt_succ_of_lt (Nat.lt_succ_self _)
        unfold expansion
        rw [strftimeLoop.eq_def]
        dsimp only
        rw [if_neg (not_not_intro rfl), if_neg htoken, ih rest hlt, directives_conversion htoken,
          List.flatMap_cons, OutputBuffer.pushBytes_append]
        rfl
      | @modifierEnd modifier hmodifier =>
        unfold expansion
        rw [strftimeLoop.eq_def]
        dsimp only
        rw [if_neg (not_not_intro rfl), if_pos hmodifier, directives, if_neg (not_not_intro rfl),
          if_pos hmodifier]
        rfl
      | @alternative modifier hmodifier token rest =>
        have hlt : rest.length < (percent :: modifier :: token :: rest).length := by
          simp only [List.length_cons]
          omega
        unfold expansion
        rw [strftimeLoop.eq_def]
        dsimp only
        rw [if_neg (not_not_intro rfl), if_pos hmodifier, directives_alternative hmodifier,
          List.flatMap_cons, OutputBuffer.pushBytes_append]
        dsimp only [Directive.expand]
        cases normalizeAlternativeModifierToken modifier token with
        | none => exact ih rest hlt _
        | some baseToken => exact ih rest hlt _

/-- The stores of a call leave a text and its NUL in the buffer. -/
def Delivers (stores : List (Nat × UInt8)) (text : List UInt8) : Prop :=
  ∀ i ≤ text.length, stores.lookup i = (text ++ [0])[i]?

theorem terminate_delivers {buffer : OutputBuffer} {bytes : List UInt8} (h : buffer.Holds bytes)
    (hfits : bytes.length < buffer.max) : Delivers buffer.terminate.stores bytes := by
  have hrequired := h.required
  have hmax : buffer.max ≠ 0 := by omega
  -- The terminator stands right behind the bytes.
  have hend : min buffer.required (buffer.max - 1) = bytes.length := by omega
  intro i hi
  unfold OutputBuffer.terminate
  rw [if_neg hmax, hend]
  dsimp only
  rw [List.lookup_cons]
  by_cases hlast : i = bytes.length
  · rw [hlast, beq_self_eq_true, List.getElem?_append_right (Nat.le_refl _)]
    simp
  · rw [beq_false_of_ne hlast, List.getElem?_append_left (by omega)]
    exact h.stored i (by omega) (by omega)

theorem terminate_inside {buffer : OutputBuffer} {bytes : List UInt8} (h : buffer.Holds bytes) :
    ∀ store ∈ buffer.terminate.stores, store.1 < buffer.max := by
  intro store hstore
  unfold OutputBuffer.terminate at hstore
  by_cases hmax : buffer.max = 0
  · rw [if_pos hmax] at hstore
    exact h.inside store hstore
  · rw [if_neg hmax] at hstore
    rcases List.mem_cons.mp hstore with hlast | hstore
    · rw [hlast]
      show min buffer.required (buffer.max - 1) < buffer.max
      omega
    · exact h.inside store hstore

/-- What a call with this capacity makes of a text. -/
structure AllOrNothing (text : List UInt8) (max : Nat) (result : StrftimeResult) : Prop where
  delivered : text ≠ [] ∧ text.length < max →
    result.ret = text.length ∧ 0 < result.ret ∧ Delivers result.stores text
  otherwise : ¬(text ≠ [] ∧ text.length < max) → result.ret = 0
  inside : ∀ store ∈ result.stores, store.1 < max
  errno : result.errno = none

/-- **All or nothing.**  A call whose capacity exceeds the length of the expansion delivers it with
its NUL and returns its length; any other call returns 0.  No store lies outside the capacity, a
null buffer of no capacity is as good as any, and formats expand one after the other. -/
theorem strftime_allOrNothing (readCString : Nat → List UInt8) (timeParts : Tm) :
    (∀ (format : List UInt8) (max : Nat), AllOrNothing (expansion readCString timeParts format) max
      (strftime readCString false max (some format) (some timeParts))) ∧
    (∀ format : List UInt8, strftime readCString true 0 (some format) (some timeParts) =
      strftime readCString false 0 (some format) (some timeParts)) ∧
    ∀ front back : List UInt8, Complete front → Complete back →
      expansion readCString timeParts (front ++ back) =
        expansion readCString timeParts front ++ expansion readCString timeParts back := by
  refine ⟨fun format max => ?_, fun format => rfl, fun front back hfront _ =>
    expansion_append hfront back⟩
  have hnull : ¬(max ≠ 0 ∧ false = true) := fun h => Bool.false_ne_true h.2
  unfold strftime
  dsimp only
  rw [if_neg hnull, strftimeLoop_eq]
  generalize expansion readCString timeParts format = text
  -- The buffer counts all of the text and stores as much of it as it has room for.
  have hholds := (OutputBuffer.new_holds max).pushBytes text
  rw [List.nil_append] at hholds
  have hcapacity : ((OutputBuffer.new max).pushBytes text).max = max :=
    OutputBuffer.pushBytes_max _ _
  generalize (OutputBuffer.new max).pushBytes text = buffer at hholds hcapacity
  have hrequired := hholds.required
  unfold OutputBuffer.finish
  constructor
  · rintro ⟨hne, hlt⟩
    have hpos := List.length_pos_of_ne_nil hne
    dsimp only
    rw [if_neg (by omega), hrequired]
    exact ⟨rfl, hpos, terminate_delivers hholds (by omega)⟩
  · intro hno
    by_cases hfull : buffer.max = 0 ∨ buffer.required ≥ buffer.max
    · exact if_pos hfull
    · -- The text fits, so it is empty.
      dsimp only
      rw [if_neg hfull, hrequired, List.length_eq_zero_iff]
      by_contra hne
      exact hno ⟨hne, by omega⟩
  · have hinside := terminate_inside hholds
    rw [hcapacity] at hinside
    exact hinside
  · rfl

/-- `a%n` has the expansion of `a` and of `%n`, two bytes, and needs room for three. -/
theorem strftime_allOrNothing_newline :
    expansion (fun _ => []) unixEpochTm ([97] ++ [37, 110]) = [97, 10] ∧
      (strftime (fun _ => []) false 3 (some [97, 37, 110]) (some unixEpochTm)).ret = 2 ∧
      (strftime (fun _ => []) false 2 (some [97, 37, 110]) (some unixEpochTm)).ret = 0 := by
  have hcontract := strftime_allOrNothing (fun _ => []) unixEpochTm
  have hfront : Complete [97] := by
    intro bytes hmem
    rw [directives_plain (by decide), directives] at hmem
    cases List.mem_singleton.mp hmem
  have hback : Complete [37, 110] := by
    intro bytes hmem
    rw [show ([37, 110] : List UInt8) = percent :: 110 :: [] from rfl,
      directives_conversion (by decide), directives] at hmem
    cases List.mem_singleton.mp hmem
  have htext : expansion (fun _ => []) unixEpochTm ([97] ++ [37, 110]) = [97, 10] := by
    rw [hcontract.2.2 [97] [37, 110] hfront hback]
    decide
  refine ⟨htext, ?_, ?_⟩
  · have hcall := hcontract.1 ([97] ++ [37, 110]) 3
    rw [htext] at hcall
    exact (hcall.delivered (by decide)).1
  · have hcall := hcontract.1 ([97] ++ [37, 110]) 2
    rw [htext] at hcall
    exact hcall.otherwise (by decide)

end Rlibc.Time
