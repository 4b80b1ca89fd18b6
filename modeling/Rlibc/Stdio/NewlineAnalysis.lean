import Rlibc.Stdio.FormatTokens

/-!
# The newline analysis

Before a line-buffered stream prints a format, the library looks for a newline in what will be
printed.  The analysis walks the format and the argument list as the formatter does and prints
nothing; next to its answer, the model keeps the argument slots that it has passed at each
directive.
-/

namespace Rlibc.Stdio

open ByteMem

/-- The line feed. -/
def newline : UInt8 := '\n'.toUInt8

/-- The slots between two states of a cursor: general registers, vector registers, and words of
the overflow area. -/
def VarArgCursor.slotsUpTo (c c' : VarArgCursor) : List Nat :=
  (List.range ((c'.gpOffset - c.gpOffset) / 8)).map (fun i => c.regSaveArea + c.gpOffset + 8 * i) ++
  (List.range ((c'.fpOffset - c.fpOffset) / 16)).map
    (fun i => c.regSaveArea + c.fpOffset + 16 * i) ++
  (List.range ((c'.overflowArgArea - c.overflowArgArea) / 8)).map
    (fun i => c.overflowArgArea + 8 * i)

/-! ## One directive -/

def advanceLineBufferFloatArgument (c : VarArgCursor) (length : LengthModifier) :
    Option VarArgCursor :=
  match length with
  | .default =>
    if c.fpOffset < 176 ∧ c.regSaveArea ≠ 0 then
      some { c with fpOffset := min (c.fpOffset + 16) u32Max }
    else if c.overflowArgArea ≠ 0 then some { c with overflowArgArea := c.overflowArgArea + 8 }
    else none
  | .l => c.skipLongDouble
  | _ => none

/-- Whether the argument of `%n` is missing or null, and the cursor behind it. -/
def consumeCountConversionArgument (m : Mem) (c : VarArgCursor) : Bool × VarArgCursor :=
  match c.nextPtr m with
  | none => (true, c)
  | some r => (r.1 = 0, r.2)

/-- Whether an argument is missing, and the cursor behind it. -/
def passArgument {α : Type} (c : VarArgCursor) (argument : Option (α × VarArgCursor)) :
    Bool × VarArgCursor :=
  match argument with
  | none => (true, c)
  | some r => (false, r.2)

/-- The branch of `%s`. -/
def scanString (m : Mem) (c : VarArgCursor) (precision : Option Nat) : Bool × VarArgCursor :=
  match c.nextPtr m with
  | none => (true, c)
  | some r => (r.1 ≠ 0 ∧ cStringPrefixContainsByte m r.1 newline precision, r.2)

/-- The branch of `%c`. -/
def scanChar (m : Mem) (c : VarArgCursor) : Bool × VarArgCursor :=
  match c.nextCInt m with
  | none => (true, c)
  | some r => (UInt8.ofNat (r.1 % 2 ^ 8).toNat = newline, r.2)

/-- One conversion, its precision being known: whether the analysis answers `true` here, and the
cursor. -/
def scanConversion (m : Mem) (c : VarArgCursor) (directive : FormatDirective)
    (precision : Option Nat) : Bool × VarArgCursor :=
  let conversion := directive.conversion
  if conversion = 's'.toUInt8 then scanString m c precision
  else if conversion = 'c'.toUInt8 then scanChar m c
  else if isSignedConversion conversion then
    passArgument c (readSignedArgument m c directive.length)
  else if isFloatConversion conversion then
    match advanceLineBufferFloatArgument c directive.length with
    | none => (true, c)
    | some c => (false, c)
  else if isIntegerConversion conversion then
    passArgument c (readUnsignedArgument m c directive.length)
  else if isPointerConversion conversion then passArgument c (c.nextPtr m)
  else consumeCountConversionArgument m c

def scanDirective (m : Mem) (c : VarArgCursor) (directive : FormatDirective) :
    Bool × VarArgCursor :=
  match resolveWidth m directive.width c directive.flags.leftAlign with
  | none => (true, c)
  | some width =>
    match resolvePrecision m directive.precision width.2 with
    | none => (true, width.2)
    | some precision => scanConversion m precision.2 directive precision.1

/-! ## The loop -/

/-- The answer, and the slots of each directive whose arguments are looked at. -/
structure Scan where
  requiresFlush : Bool
  slots : List (List Nat)
deriving DecidableEq

/-- What follows from a supported directive, and from the rest of the format. -/
def Scan.step (c : VarArgCursor) (scanned : Bool × VarArgCursor) (rest : VarArgCursor → Scan) :
    Scan :=
  if scanned.1 then ⟨true, [c.slotsUpTo scanned.2]⟩
  else ⟨(rest scanned.2).requiresFlush, c.slotsUpTo scanned.2 :: (rest scanned.2).slots⟩

def scanLoop (m : Mem) (c : VarArgCursor) : List UInt8 → Scan
  | [] => ⟨false, []⟩
  | byte :: rest =>
    if byte ≠ '%'.toUInt8 then
      if byte = newline then ⟨true, []⟩ else scanLoop m c rest
    else if rest.head? = some '%'.toUInt8 then scanLoop m c rest.tail
    else
      match _hparse : parseFormatDirective rest with
      | none => ⟨true, []⟩
      | some (directive, next) =>
        if lineBufferNewlineAnalysisSupportsDirective directive then
          Scan.step c (scanDirective m c directive) fun c => scanLoop m c next
        else ⟨true, []⟩
termination_by bytes => bytes.length
decreasing_by
  · exact Nat.lt_succ_self _
  · rw [List.length_tail, List.length_cons]
    omega
  · have hlt := parseFormatDirective_length _hparse
    rw [List.length_cons]
    omega

def newlineScan (m : Mem) (format ap : Nat) : Scan :=
  scanLoop m (.fromVaList m ap) (cString m format)

def formattedOutputRequiresHostLineBufferFlush (m : Mem) (format ap : Nat) : Bool :=
  (newlineScan m format ap).requiresFlush

/-- The loop of `internal_vfprintf_supports_format`. -/
def internalSupportsBytes : List UInt8 → Bool
  | [] => true
  | byte :: rest =>
    if byte ≠ '%'.toUInt8 then internalSupportsBytes rest
    else if rest = [] then false
    else if rest.head? = some '%'.toUInt8 then internalSupportsBytes rest.tail
    else
      match _hparse : parseFormatDirective rest with
      | none => false
      | some (directive, next) =>
        if internalVfprintfSupportsDirective directive then internalSupportsBytes next else false
termination_by bytes => bytes.length
decreasing_by
  · exact Nat.lt_succ_self _
  · rw [List.length_tail, List.length_cons]
    omega
  · have hlt := parseFormatDirective_length _hparse
    rw [List.length_cons]
    omega

def internalVfprintfSupportsFormat (m : Mem) (format : Nat) : Bool :=
  if format = 0 then false else internalSupportsBytes (cString m format)

/-! ## Tokens -/

def scanTokens (m : Mem) (c : VarArgCursor) : List Token → Scan
  | [] => ⟨false, []⟩
  | .literal byte :: tokens => if byte = newline then ⟨true, []⟩ else scanTokens m c tokens
  | .directive d :: tokens =>
    if lineBufferNewlineAnalysisSupportsDirective d then
      Scan.step c (scanDirective m c d) fun c => scanTokens m c tokens
    else ⟨true, []⟩
  | .invalid :: _ => ⟨true, []⟩

theorem scanLoop_eq (m : Mem) (c : VarArgCursor) (bytes : List UInt8) :
    scanLoop m c bytes = scanTokens m c (formatTokens bytes) := by
  have hpercent : '%'.toUInt8 ≠ newline := by decide
  have hempty : parseFormatDirective [] = none := by decide
  fun_induction formatTokens bytes generalizing c with
  | case1 => rw [scanLoop, scanTokens]
  | case2 byte rest hbyte ih =>
    rw [scanLoop, if_pos hbyte, scanTokens, ih c]
  | case3 byte hbyte =>
    rw [scanLoop, if_neg hbyte, if_neg (by decide), scanTokens]
    split
    · rfl
    · rename_i hsome
      cases hempty.symm.trans hsome
  | case4 byte rest hbyte hrest hhead ih =>
    rw [scanLoop, if_neg hbyte, if_pos hhead, scanTokens, if_neg hpercent]
    exact ih c
  | case5 byte rest hbyte hrest hhead hparse =>
    rw [scanLoop, if_neg hbyte, if_neg hhead, scanTokens]
    split
    · rfl
    · rename_i hsome
      cases hparse.symm.trans hsome
  | case6 byte rest hbyte hrest hhead directive next hparse ih =>
    rw [scanLoop, if_neg hbyte, if_neg hhead, scanTokens]
    split
    · rename_i hnone
      cases hparse.symm.trans hnone
    · rename_i hsome
      cases hparse.symm.trans hsome
      have hrest : (fun c => scanLoop m c next) = fun c => scanTokens m c (formatTokens next) :=
        funext ih
      rw [hrest]

/-- The internal formatter takes formats of literals and directives that it supports. -/
def Token.internal : Token → Bool
  | literal _ => true
  | directive d => internalVfprintfSupportsDirective d
  | invalid => false

theorem internalSupportsBytes_eq (bytes : List UInt8) :
    internalSupportsBytes bytes = (formatTokens bytes).all Token.internal := by
  fun_induction formatTokens bytes with
  | case1 => rw [internalSupportsBytes]; rfl
  | case2 byte rest hbyte ih =>
    rw [internalSupportsBytes, if_pos hbyte, ih]
    rfl
  | case3 byte hbyte =>
    rw [internalSupportsBytes, if_neg hbyte, if_pos rfl]
    rfl
  | case4 byte rest hbyte hrest hhead ih =>
    rw [internalSupportsBytes, if_neg hbyte, if_neg hrest, if_pos hhead, ih]
    rfl
  | case5 byte rest hbyte hrest hhead hparse =>
    rw [internalSupportsBytes, if_neg hbyte, if_neg hrest, if_neg hhead]
    split
    · rfl
    · rename_i hsome
      cases hparse.symm.trans hsome
  | case6 byte rest hbyte hrest hhead directive next hparse ih =>
    rw [internalSupportsBytes, if_neg hbyte, if_neg hrest, if_neg hhead]
    split
    · rename_i hnone
      cases hparse.symm.trans hnone
    · rename_i hsome
      cases hparse.symm.trans hsome
      rw [ih, List.all_cons]
      change _ = (internalVfprintfSupportsDirective directive && _)
      cases internalVfprintfSupportsDirective directive with
      | true => rfl
      | false => rfl

/-! ## Directives of a format -/

/-- The directive has the flags and the length that its conversion allows. -/
def FormatDirective.Allowed (d : FormatDirective) : Prop :=
  conversionAllowed d.flags d.length d.conversion = true

theorem parseFormatDirective_allowed {bytes rest : List UInt8} {d : FormatDirective}
    (h : parseFormatDirective bytes = some (d, rest)) : d.Allowed := by
  unfold parseFormatDirective at h
  dsimp only at h
  split at h
  · cases h
  · cases h
  · rename_i length conversion rest' hlength
    split at h
    · rename_i hallowed
      cases h
      exact hallowed
    · cases h

theorem formatTokens_allowed (bytes : List UInt8) :
    ∀ d, .directive d ∈ formatTokens bytes → d.Allowed := by
  fun_induction formatTokens bytes with
  | case1 => exact fun d hd => absurd hd List.not_mem_nil
  | case2 byte rest hbyte ih =>
    intro d hd
    rcases List.mem_cons.mp hd with heq | hmem
    · cases heq
    · exact ih d hmem
  | case3 byte hbyte =>
    intro d hd
    cases List.mem_singleton.mp hd
  | case4 byte rest hbyte hrest hhead ih =>
    intro d hd
    rcases List.mem_cons.mp hd with heq | hmem
    · cases heq
    · exact ih d hmem
  | case5 byte rest hbyte hrest hhead hparse =>
    intro d hd
    cases List.mem_singleton.mp hd
  | case6 byte rest hbyte hrest hhead directive next hparse ih =>
    intro d hd
    rcases List.mem_cons.mp hd with heq | hmem
    · cases heq
      exact parseFormatDirective_allowed hparse
    · exact ih d hmem

end Rlibc.Stdio
