import Rlibc.Stdio.ScannedDirectives

/-!
# What the newline analysis is worth

The analysis and printf run over the same tokens.  They stay at the same arguments up to the first
`%lf`, and up to there the analysis answers `true` just when printf prints a newline, rejects a
directive, or comes to one that the analysis does not take.  The analysis never prints, so it does
not see that a length does not fit.
-/

namespace Rlibc.Stdio

open ByteMem

/-! ## When a flush is needed -/

/-- There is a directive that the analysis does not take, printf rejects one, or it prints a
newline. -/
def NeedsFlush (float : FloatText) (st : PrintfState) (tokens : List Token) : Prop :=
  (∃ d, .directive d ∈ tokens ∧ lineBufferNewlineAnalysisSupportsDirective d = false) ∨
    ∀ text, printfText float st tokens = some text → newline ∈ text

/-- A flush is needed for what stands before each `%lf`. -/
def LongFloatsHidden (float : FloatText) (st : PrintfState) (tokens : List Token) : Prop :=
  ∀ before d after, tokens = before ++ .directive d :: after → d.longFloat = true →
    NeedsFlush float st before

section

variable {float : FloatText} {st : PrintfState} {tokens : List Token} {d : FormatDirective}

theorem not_needsFlush_nil : ¬ NeedsFlush float st [] := by
  rintro (⟨d, hd, _⟩ | htext)
  · exact List.not_mem_nil hd
  · exact List.not_mem_nil (htext [] rfl)

theorem needsFlush_literal (byte : UInt8) :
    NeedsFlush float st (.literal byte :: tokens) ↔
      byte = newline ∨ NeedsFlush float st.literal tokens := by
  constructor
  · rintro (⟨d, hd, hunsupported⟩ | htext)
    · rcases List.mem_cons.mp hd with heq | hmem
      · cases heq
      · exact Or.inr (Or.inl ⟨d, hmem, hunsupported⟩)
    · by_cases hbyte : byte = newline
      · exact Or.inl hbyte
      · right
        right
        intro text hsome
        have hall : printfText float st (.literal byte :: tokens) = some (byte :: text) := by
          rw [printfText, hsome, Option.map_some]
        cases List.mem_cons.mp (htext _ hall) with
        | inl heq => exact absurd heq.symm hbyte
        | inr hmem => exact hmem
  · rintro (hbyte | ⟨d, hd, hunsupported⟩ | htext)
    · right
      intro text hsome
      rw [printfText] at hsome
      rcases Option.map_eq_some_iff.mp hsome with ⟨rest, _, heq⟩
      rw [← heq, hbyte]
      exact List.mem_cons_self
    · exact Or.inl ⟨d, List.mem_cons_of_mem _ hd, hunsupported⟩
    · right
      intro text hsome
      rw [printfText] at hsome
      rcases Option.map_eq_some_iff.mp hsome with ⟨rest, hrest, heq⟩
      rw [← heq]
      exact List.mem_cons_of_mem _ (htext rest hrest)

theorem needsFlush_invalid : NeedsFlush float st (.invalid :: tokens) :=
  Or.inr fun text hsome => by cases hsome

theorem needsFlush_unsupported (h : lineBufferNewlineAnalysisSupportsDirective d = false) :
    NeedsFlush float st (.directive d :: tokens) :=
  Or.inl ⟨d, List.mem_cons_self, h⟩

theorem needsFlush_rejected (haction : printfAction float st.mem st.cursor d = none) :
    NeedsFlush float st (.directive d :: tokens) := by
  right
  intro text hsome
  rw [printfText, haction] at hsome
  cases hsome

theorem needsFlush_directive {r : Action × VarArgCursor}
    (hsupported : lineBufferNewlineAnalysisSupportsDirective d = true)
    (haction : printfAction float st.mem st.cursor d = some r) :
    NeedsFlush float st (.directive d :: tokens) ↔
      newline ∈ r.1.text st.mem ∨ NeedsFlush float (st.next r) tokens := by
  have hrun : printfText float st (.directive d :: tokens) =
      (printfText float (st.next r) tokens).map fun text => r.1.text st.mem ++ text := by
    rw [printfText, haction, Option.bind_some]
  constructor
  · rintro (⟨d', hd', hunsupported⟩ | htext)
    · rcases List.mem_cons.mp hd' with heq | hmem
      · cases heq
        rw [hsupported] at hunsupported
        cases hunsupported
      · exact Or.inr (Or.inl ⟨d', hmem, hunsupported⟩)
    · by_cases hprinted : newline ∈ r.1.text st.mem
      · exact Or.inl hprinted
      · right
        right
        intro text hsome
        rw [hrun, hsome] at htext
        cases List.mem_append.mp (htext _ rfl) with
        | inl hmem => exact absurd hmem hprinted
        | inr hmem => exact hmem
  · rintro (hprinted | ⟨d', hd', hunsupported⟩ | htext)
    · right
      intro text hsome
      rw [hrun] at hsome
      rcases Option.map_eq_some_iff.mp hsome with ⟨rest, _, heq⟩
      rw [← heq]
      exact List.mem_append_left _ hprinted
    · exact Or.inl ⟨d', List.mem_cons_of_mem _ hd', hunsupported⟩
    · right
      intro text hsome
      rw [hrun] at hsome
      rcases Option.map_eq_some_iff.mp hsome with ⟨rest, hrest, heq⟩
      rw [← heq]
      exact List.mem_append_right _ (htext rest hrest)

/-! ## `%lf` -/

theorem longFloatsHidden_nil : LongFloatsHidden float st [] := by
  intro before d after heq
  cases before with
  | nil => cases heq
  | cons token before => cases heq

theorem longFloatsHidden_cons (token : Token) :
    LongFloatsHidden float st (token :: tokens) ↔
      (∀ d, token = .directive d → d.longFloat = false) ∧
      ∀ before d after, tokens = before ++ .directive d :: after → d.longFloat = true →
        NeedsFlush float st (token :: before) := by
  constructor
  · intro h
    constructor
    · intro d heq
      cases hlong : d.longFloat with
      | false => rfl
      | true =>
        rw [heq] at h
        exact absurd (h [] d tokens rfl hlong) not_needsFlush_nil
    · intro before d after heq hlong
      exact h (token :: before) d after (by rw [heq]; rfl) hlong
  · intro h before d after heq hlong
    cases before with
    | nil =>
      have hnot := h.1 d (List.cons.inj heq).1
      rw [hlong] at hnot
      cases hnot
    | cons token' before =>
      rcases List.cons.inj heq with ⟨htoken, hrest⟩
      rw [← htoken]
      exact h.2 before d after hrest hlong

/-- Behind a token for which a flush is needed, nothing is reached. -/
theorem longFloatsHidden_of_needsFlush {token : Token}
    (htoken : ∀ d, token = .directive d → d.longFloat = false)
    (hflush : ∀ tokens, NeedsFlush float st (token :: tokens)) :
    LongFloatsHidden float st (token :: tokens) :=
  (longFloatsHidden_cons token).mpr ⟨htoken, fun before _ _ _ _ => hflush before⟩

/-- A token for which none is needed makes no difference. -/
theorem longFloatsHidden_next {token : Token} {st' : PrintfState}
    (htoken : ∀ d, token = .directive d → d.longFloat = false)
    (hflush : ∀ tokens, NeedsFlush float st (token :: tokens) ↔ NeedsFlush float st' tokens) :
    LongFloatsHidden float st (token :: tokens) ↔ LongFloatsHidden float st' tokens := by
  rw [longFloatsHidden_cons]
  constructor
  · intro h before d after heq hlong
    exact (hflush before).mp (h.2 before d after heq hlong)
  · intro h
    exact ⟨htoken, fun before d after heq hlong =>
      (hflush before).mpr (h before d after heq hlong)⟩

theorem supports_of_longFloat (h : d.longFloat = true) :
    lineBufferNewlineAnalysisSupportsDirective d = true := by
  unfold lineBufferNewlineAnalysisSupportsDirective
  exact decide_eq_true (Or.inr (of_decide_eq_true h).1)

end

/-! ## The run -/

/-- What the analysis and printf have in common over some tokens. -/
structure InStep (float : FloatText) (m : Mem) (st : PrintfState) (tokens : List Token) : Prop where
  slots : (scanTokens m st.cursor tokens).slots <+: printfSlots st.cursor tokens ↔
    LongFloatsHidden float st tokens
  answer : LongFloatsHidden float st tokens →
    ((scanTokens m st.cursor tokens).requiresFlush = true ↔ NeedsFlush float st tokens)

section

variable {float : FloatText} {m : Mem} {st : PrintfState} {tokens : List Token}

/-- The analysis ends at a token for which a flush is needed. -/
theorem InStep.of_flush {token : Token} (slots : List (List Nat))
    (htoken : ∀ d, token = .directive d → d.longFloat = false)
    (hflush : ∀ tokens, NeedsFlush float st (token :: tokens))
    (hscan : scanTokens m st.cursor (token :: tokens) = ⟨true, slots⟩)
    (hslots : slots <+: printfSlots st.cursor (token :: tokens)) :
    InStep float m st (token :: tokens) := by
  refine ⟨?_, fun _ => ?_⟩
  · rw [hscan]
    exact iff_of_true hslots (longFloatsHidden_of_needsFlush htoken hflush)
  · rw [hscan]
    exact iff_of_true rfl (hflush tokens)

theorem inStep_directive {d : FormatDirective}
    (hnone : ∀ d width leftAlign precision bits, newline ∉ float d width leftAlign precision bits)
    (hallowed : d.Allowed) (halign : st.cursor.Aligned)
    (harguments : HasArguments st.cursor (.directive d :: tokens))
    (hapart : Unaliased float m st.cursor (.directive d :: tokens))
    (hmem : Undisturbed float m st (.directive d :: tokens))
    (hrest : ∀ st' : PrintfState, st'.cursor.Aligned → HasArguments st'.cursor tokens →
      Unaliased float m st'.cursor tokens → Undisturbed float m st' tokens →
      InStep float m st' tokens) :
    InStep float m st (.directive d :: tokens) := by
  rcases harguments with ⟨c', hcursor, hargumentsRest⟩
  have hprintf : printfSlots st.cursor (.directive d :: tokens) =
      st.cursor.slotsUpTo c' :: printfSlots c' tokens := by
    rw [printfSlots, hcursor]
  cases hsupported : lineBufferNewlineAnalysisSupportsDirective d with
  | false =>
    have hshort : d.longFloat = false := by
      cases hlong : d.longFloat with
      | false => rfl
      | true =>
        rw [supports_of_longFloat hlong] at hsupported
        cases hsupported
    apply InStep.of_flush [] (fun d' heq => by cases heq; exact hshort)
      (fun _ => needsFlush_unsupported hsupported)
    · rw [scanTokens, hsupported, if_neg Bool.false_ne_true]
    · exact List.nil_prefix
  | true =>
    have hscan : scanTokens m st.cursor (.directive d :: tokens) =
        Scan.step st.cursor (scanDirective m st.cursor d) fun c => scanTokens m c tokens := by
      rw [scanTokens, hsupported, if_pos rfl]
    cases hlong : d.longFloat with
    | true =>
      -- the slots differ at this directive
      have hhidden : ¬ LongFloatsHidden float st (.directive d :: tokens) := by
        intro h
        have hnot := ((longFloatsHidden_cons _).mp h).1 d rfl
        rw [hlong] at hnot
        cases hnot
      have hslots : ¬ (scanTokens m st.cursor (.directive d :: tokens)).slots <+:
          printfSlots st.cursor (.directive d :: tokens) := by
        rw [hscan, hprintf]
        intro hprefix
        apply @longFloat_slots m st.cursor c' d hlong halign hcursor
        unfold Scan.step at hprefix
        split at hprefix
        · exact (List.cons_prefix_cons.mp hprefix).1
        · exact (List.cons_prefix_cons.mp hprefix).1
      exact ⟨iff_of_false hslots hhidden, fun h => absurd h hhidden⟩
    | false =>
      have hscanned : Scanned float m st.cursor d c' :=
        scanDirective_scanned (hnone d) hallowed hsupported hlong halign hcursor
      have hsame : printfAction float st.mem st.cursor d = printfAction float m st.cursor d :=
        printfAction_congr hmem.now
      have hshort : ∀ d', Token.directive d = .directive d' → d'.longFloat = false := by
        intro d' heq
        cases heq
        exact hlong
      cases hanswer : (scanDirective m st.cursor d).1 with
      | true =>
        apply InStep.of_flush [st.cursor.slotsUpTo c'] hshort
        · intro tokens
          cases haction : printfAction float st.mem st.cursor d with
          | none => exact needsFlush_rejected haction
          | some r =>
            rw [hsame] at haction
            apply (needsFlush_directive hsupported (hsame.trans haction)).mpr
            left
            rw [text_congr hmem.now haction]
            exact hscanned.answer.mp hanswer r haction
        · rw [hscan, Scan.step, if_pos hanswer, hscanned.cursor]
        · rw [hprintf]
          exact List.cons_prefix_cons.mpr ⟨rfl, List.nil_prefix⟩
      | false =>
        -- printf accepts the directive and prints no newline for it
        have hgoes : ∃ r, printfAction float m st.cursor d = some r ∧ newline ∉ r.1.text m := by
          by_contra hno
          have htrue : (scanDirective m st.cursor d).1 = true := by
            apply hscanned.answer.mpr
            intro r hr
            by_contra hnot
            exact hno ⟨r, hr, hnot⟩
          rw [hanswer] at htrue
          cases htrue
        rcases hgoes with ⟨r, haction, hnewline⟩
        have haction' : printfAction float st.mem st.cursor d = some r := hsame.trans haction
        have htext : newline ∉ r.1.text st.mem := by
          rw [text_congr hmem.now haction]
          exact hnewline
        have hnext : r.2 = c' := hscanned.next r haction
        have hflush : ∀ tokens, NeedsFlush float st (.directive d :: tokens) ↔
            NeedsFlush float (st.next r) tokens := by
          intro tokens
          rw [needsFlush_directive hsupported haction']
          exact or_iff_right htext
        have hcursor' : (st.next r).cursor = c' := hnext
        have hapart' : Unaliased float m (st.next r).cursor tokens := by
          rw [Unaliased] at hapart
          exact (hapart r haction).2
        have hmem' : Undisturbed float m (st.next r) tokens := hmem.next hapart haction
        have hstep : InStep float m (st.next r) tokens := by
          apply hrest (st.next r) ?_ ?_ hapart' hmem'
          · rw [hcursor']
            exact hscanned.aligned
          · rw [hcursor']
            exact hargumentsRest
        have hhidden := @longFloatsHidden_next float st tokens _ _ hshort hflush
        have hstepScan : scanTokens m st.cursor (.directive d :: tokens) =
            ⟨(scanTokens m (st.next r).cursor tokens).requiresFlush,
              st.cursor.slotsUpTo c' :: (scanTokens m (st.next r).cursor tokens).slots⟩ := by
          rw [hscan, Scan.step, hanswer, if_neg Bool.false_ne_true, hscanned.cursor, hcursor']
        refine ⟨?_, ?_⟩
        · rw [hstepScan, hprintf, hhidden, ← hstep.slots, List.cons_prefix_cons, hcursor']
          exact and_iff_right rfl
        · intro h
          rw [hstepScan, hflush]
          exact hstep.answer (hhidden.mp h)

/-- **The analysis is in step with printf.** -/
theorem inStep
    (hnone : ∀ d width leftAlign precision bits, newline ∉ float d width leftAlign precision bits)
    (hallowed : ∀ d, .directive d ∈ tokens → d.Allowed) (halign : st.cursor.Aligned)
    (harguments : HasArguments st.cursor tokens) (hapart : Unaliased float m st.cursor tokens)
    (hmem : Undisturbed float m st tokens) : InStep float m st tokens := by
  -- Induction on the tokens; the scanner's cursor is where the printing one is.
  induction tokens generalizing st with
  | nil =>
    refine ⟨iff_of_true List.nil_prefix longFloatsHidden_nil, fun _ => ?_⟩
    exact iff_of_false Bool.false_ne_true not_needsFlush_nil
  | cons token tokens ih =>
    have hrest : ∀ d, .directive d ∈ tokens → d.Allowed :=
      fun d hd => hallowed d (List.mem_cons_of_mem token hd)
    cases token with
    | literal byte =>
      have htoken : ∀ d, Token.literal byte = .directive d → d.longFloat = false :=
        fun d heq => by cases heq
      -- A literal newline ends the scan, and the printed text has it as well.
      by_cases hbyte : byte = newline
      · apply InStep.of_flush [] htoken
          (fun _ => (needsFlush_literal byte).mpr (Or.inl hbyte))
        · rw [scanTokens, if_pos hbyte]
        · exact List.nil_prefix
      · have hflush : ∀ tokens, NeedsFlush float st (.literal byte :: tokens) ↔
            NeedsFlush float st.literal tokens := by
          intro tokens
          rw [needsFlush_literal]
          exact or_iff_right hbyte
        have hscan : scanTokens m st.cursor (.literal byte :: tokens) =
            scanTokens m st.cursor tokens := by
          rw [scanTokens, if_neg hbyte]
        have hstep : InStep float m st.literal tokens :=
          @ih st.literal hrest halign harguments hapart hmem
        have hhidden := @longFloatsHidden_next float st tokens _ _ htoken hflush
        refine ⟨?_, ?_⟩
        · rw [hscan, hhidden]
          exact hstep.slots
        · intro h
          rw [hscan, hflush]
          exact hstep.answer (hhidden.mp h)
    -- The scan gives up, and giving up is an answer that flushes.
    | invalid =>
      exact InStep.of_flush [] (fun d heq => by cases heq)
        (fun _ => needsFlush_invalid) rfl List.nil_prefix
    | directive d =>
      exact inStep_directive hnone (hallowed d List.mem_cons_self) halign harguments hapart hmem
        fun st' halign' harguments' hapart' hmem' =>
          @ih st' hrest halign' harguments' hapart' hmem'

end

/-! ## The claim of the analysis -/

/-- The analysis passes the slots that printf reads, text that it lets pass has no newline, and for
the formats of the internal formatter its answer is exact. -/
structure AnalysisCorrect (float : FloatText) (m : Mem) (format ap : Nat) : Prop where
  slots : (newlineScan m format ap).slots <+:
    printfSlots (.fromVaList m ap) (formatTokens (cString m format))
  sound : formattedOutputRequiresHostLineBufferFlush m format ap = false → ∀ text,
    printfText float ⟨m, .fromVaList m ap, 0⟩ (formatTokens (cString m format)) = some text →
      newline ∉ text
  exactInside : internalVfprintfSupportsFormat m format = true →
    (formattedOutputRequiresHostLineBufferFlush m format ap = true ↔
      (∃ R, rendering m format ap = some R ∧ newline ∈ R) ∨ Fails m 0 0 format ap)

theorem supports_of_internal {d : FormatDirective}
    (h : internalVfprintfSupportsDirective d = true) :
    lineBufferNewlineAnalysisSupportsDirective d = true ∧
      isFloatConversion d.conversion = false := by
  refine ⟨decide_eq_true (Or.inl h), ?_⟩
  have hmem := (of_decide_eq_true h).1
  simp only [List.mem_cons, List.not_mem_nil, or_false] at hmem
  rcases hmem with heq | heq | heq | heq | heq | heq | heq | heq | heq | heq
  all_goals
    rw [heq]
    rfl

theorem directives_of_internal {m : Mem} {format : Nat}
    (h : internalVfprintfSupportsFormat m format = true) (d : FormatDirective)
    (hd : .directive d ∈ formatTokens (cString m format)) :
    internalVfprintfSupportsDirective d = true := by
  unfold internalVfprintfSupportsFormat at h
  split at h
  · cases h
  · rw [internalSupportsBytes_eq] at h
    exact List.all_eq_true.mp h _ hd

/-- **The newline analysis is correct if and only if** a flush is needed already for what stands
before each `%lf`, and, for a format of the internal formatter, all lengths fit or a flush is needed
anyway. -/
theorem newlineAnalysis_correct_iff {float : FloatText}
    (hnone : ∀ d width leftAlign precision bits, newline ∉ float d width leftAlign precision bits)
    {m : Mem} {format ap : Nat} (hformat : format ≠ 0)
    (halign : (VarArgCursor.fromVaList m ap).Aligned)
    (harguments : HasArguments (.fromVaList m ap) (formatTokens (cString m format)))
    (hapart : Unaliased float m (.fromVaList m ap) (formatTokens (cString m format))) :
    AnalysisCorrect float m format ap ↔
      LongFloatsHidden float ⟨m, .fromVaList m ap, 0⟩ (formatTokens (cString m format)) ∧
      (internalVfprintfSupportsFormat m format = true →
        AllFit float ⟨m, .fromVaList m ap, 0⟩ (formatTokens (cString m format)) ∨
        NeedsFlush float ⟨m, .fromVaList m ap, 0⟩ (formatTokens (cString m format))) := by
  have hstep : InStep float m ⟨m, .fromVaList m ap, 0⟩ (formatTokens (cString m format)) :=
    inStep hnone (formatTokens_allowed _) halign harguments hapart fun _ _ => rfl
  have hscan : newlineScan m format ap =
      scanTokens m (.fromVaList m ap) (formatTokens (cString m format)) := scanLoop_eq _ _ _
  have hfails := fails_iff hformat (Or.inl rfl) (apart_nowhere m format ap)
  have hrendering : internalVfprintfSupportsFormat m format = true → ∀ R,
      rendering m format ap = some R ↔
        printfText float ⟨m, .fromVaList m ap, 0⟩ (formatTokens (cString m format)) = some R ∧
          AllFit float ⟨m, .fromVaList m ap, 0⟩ (formatTokens (cString m format)) :=
    fun hinternal => rendering_eq_some_iff fun d hd =>
      (supports_of_internal (directives_of_internal hinternal d hd)).2
  have hdef : formattedOutputRequiresHostLineBufferFlush m format ap =
      (scanTokens m (.fromVaList m ap) (formatTokens (cString m format))).requiresFlush :=
    congrArg Scan.requiresFlush hscan
  constructor
  · intro h
    have hslots := h.slots
    rw [hscan] at hslots
    have hhidden := hstep.slots.mp hslots
    refine ⟨hhidden, fun hinternal => ?_⟩
    by_cases hflush : NeedsFlush float ⟨m, .fromVaList m ap, 0⟩ (formatTokens (cString m format))
    · exact Or.inr hflush
    · left
      -- the analysis answers `false`, so the call does not fail
      have hexact := h.exactInside hinternal
      have hfalse : ¬ formattedOutputRequiresHostLineBufferFlush m format ap = true := by
        rw [hdef]
        exact fun htrue => hflush ((hstep.answer hhidden).mp htrue)
      have hgoes : rendering m format ap ≠ none :=
        fun hnever => hfalse (hexact.mpr (Or.inr (hfails.mpr hnever)))
      rcases Option.ne_none_iff_exists'.mp hgoes with ⟨R, hR⟩
      exact ((hrendering hinternal R).mp hR).2
  · rintro ⟨hhidden, hlengths⟩
    have hanswer := hstep.answer hhidden
    rw [← hdef] at hanswer
    refine ⟨?_, ?_, ?_⟩
    · rw [hscan]
      exact hstep.slots.mpr hhidden
    · intro hfalse text htext hnewline
      have hflush : NeedsFlush float ⟨m, .fromVaList m ap, 0⟩
          (formatTokens (cString m format)) := by
        right
        intro text' htext'
        cases htext.symm.trans htext'
        exact hnewline
      rw [hanswer.mpr hflush] at hfalse
      cases hfalse
    · intro hinternal
      rw [hanswer, hfails]
      constructor
      · rintro (⟨d, hd, hunsupported⟩ | htext)
        · rw [(supports_of_internal (directives_of_internal hinternal d hd)).1] at hunsupported
          cases hunsupported
        · cases hR : rendering m format ap with
          | none => exact Or.inr rfl
          | some R => exact Or.inl ⟨R, rfl, htext R ((hrendering hinternal R).mp hR).1⟩
      · rintro (⟨R, hR, hnewline⟩ | hnever)
        · right
          intro text htext
          cases htext.symm.trans ((hrendering hinternal R).mp hR).1
          exact hnewline
        · cases hlengths hinternal with
          | inr hflush => exact hflush
          | inl hfit =>
            right
            intro text htext
            have hsome := (hrendering hinternal text).mpr ⟨htext, hfit⟩
            rw [hnever] at hsome
            cases hsome

/-! ## Two calls -/

/-- Without `%n` nothing is stored. -/
theorem unaliased_of_no_count {float : FloatText} {m : Mem} {c : VarArgCursor}
    {tokens : List Token} (h : ∀ d, .directive d ∈ tokens → isCountConversion d.conversion = false) :
    Unaliased float m c tokens := by
  induction tokens generalizing c with
  | nil => trivial
  | cons token tokens ih =>
    have hrest : ∀ d, .directive d ∈ tokens → isCountConversion d.conversion = false :=
      fun d hd => h d (List.mem_cons_of_mem token hd)
    cases token with
    | literal byte => exact ih hrest
    | invalid => trivial
    | directive d =>
      have hcount := h d List.mem_cons_self
      rw [Unaliased]
      intro r hr
      refine ⟨fun b hb => ?_, ih hrest⟩
      have hrender : ∃ rendered, r.1 = .render rendered := by
        unfold printfAction directiveAction at hr
        split at hr
        · rcases Option.bind_eq_some_iff.mp hr with ⟨counts, _, hmap⟩
          rcases Option.map_eq_some_iff.mp hmap with ⟨s, _, heq⟩
          rw [← heq]
          exact ⟨_, rfl⟩
        · rcases Option.bind_eq_some_iff.mp hr with ⟨counts, _, hmap⟩
          rw [hcount, if_neg Bool.false_ne_true] at hmap
          rcases Option.map_eq_some_iff.mp hmap with ⟨s, _, heq⟩
          rw [← heq]
          exact ⟨_, rfl⟩
      rcases hrender with ⟨rendered, heq⟩
      rw [heq] at hb
      cases hb

theorem longFloatsHidden_of_none {float : FloatText} {st : PrintfState} {tokens : List Token}
    (h : ∀ d, .directive d ∈ tokens → d.longFloat = false) : LongFloatsHidden float st tokens := by
  intro before d after heq hlong
  have hnot := h d (by rw [heq]; exact List.mem_append_right _ List.mem_cons_self)
  rw [hlong] at hnot
  cases hnot

/-- `0.000000`, for a `double` that is zero. -/
def zeroText : FloatText := fun _ _ _ _ _ => "0.000000".toList.map Char.toUInt8

theorem zeroText_no_newline (d : FormatDirective) (width : Nat) (leftAlign : Bool)
    (precision : Option Nat) (bits : Nat) :
    newline ∉ zeroText d width leftAlign precision bits := by
  change newline ∉ "0.000000".toList.map Char.toUInt8
  decide

/-- An `int` and a `double`, both zero. -/
theorem newlineAnalysis_correct_sample :
    AnalysisCorrect zeroText (formatMem "%5d %f") 64 1024 := by
  have htokens : formatTokens (cString (formatMem "%5d %f") 64) =
      [.directive ⟨⟨false, false, false, false, false⟩, some (.literal 5), none, .default,
          'd'.toUInt8⟩, .literal ' '.toUInt8,
        .directive ⟨⟨false, false, false, false, false⟩, none, none, .default, 'f'.toUInt8⟩] := by
    decide +kernel
  have hlist : VarArgCursor.fromVaList (formatMem "%5d %f") 1024 = ⟨0, 0, 2048, 0⟩ := by
    decide +kernel
  apply (newlineAnalysis_correct_iff zeroText_no_newline (by decide) ?_ ?_ ?_).mpr ⟨?_, ?_⟩
  · rw [hlist]
    exact ⟨by decide, by decide⟩
  · rw [hlist, htokens]
    exact ⟨_, rfl, _, rfl, trivial⟩
  · apply unaliased_of_no_count
    intro d hd
    simp only [htokens, List.mem_cons, Token.directive.injEq, reduceCtorEq, List.not_mem_nil,
      or_false, false_or] at hd
    rcases hd with heq | heq
    all_goals
      rw [heq]
      decide
  · apply longFloatsHidden_of_none
    intro d hd
    simp only [htokens, List.mem_cons, Token.directive.injEq, reduceCtorEq, List.not_mem_nil,
      or_false, false_or] at hd
    rcases hd with heq | heq
    all_goals
      rw [heq]
      decide
  · intro hinternal
    have hnot : internalVfprintfSupportsFormat (formatMem "%5d %f") 64 = false := by
      decide +kernel
    rw [hnot] at hinternal
    cases hinternal

/-- The general registers are used up, and the overflow area has the string `"\n"`, a word that is
not looked at, and an empty string. -/
def stringInOverflow : Mem :=
  ByteOrder.writeBytes (ByteOrder.writeBytes (storeWords (storeWords (fun _ => 0) 1024
    [0x3000000030, 3072, 2048]) 3072 [128, 0, 192]) 64 ("%lf%s".toList.map Char.toUInt8)) 128
    [newline]

/-- The analysis takes the third word of the overflow area for the string, and misses the newline of
the first one. -/
theorem longFloat_newline_missed :
    (VarArgCursor.fromVaList stringInOverflow 1024).Aligned ∧
    HasArguments (.fromVaList stringInOverflow 1024)
      (formatTokens (cString stringInOverflow 64)) ∧
    Unaliased zeroText stringInOverflow (.fromVaList stringInOverflow 1024)
      (formatTokens (cString stringInOverflow 64)) ∧
    formattedOutputRequiresHostLineBufferFlush stringInOverflow 64 1024 = false ∧
    printfText zeroText ⟨stringInOverflow, .fromVaList stringInOverflow 1024, 0⟩
      (formatTokens (cString stringInOverflow 64)) =
        some ("0.000000\n".toList.map Char.toUInt8) ∧
    ¬ AnalysisCorrect zeroText stringInOverflow 64 1024 := by
  have htokens : formatTokens (cString stringInOverflow 64) =
      [.directive ⟨⟨false, false, false, false, false⟩, none, none, .l, 'f'.toUInt8⟩,
        .directive ⟨⟨false, false, false, false, false⟩, none, none, .default, 's'.toUInt8⟩] := by
    decide +kernel
  have hlist : VarArgCursor.fromVaList stringInOverflow 1024 = ⟨48, 48, 2048, 3072⟩ := by
    decide +kernel
  have hanswer : formattedOutputRequiresHostLineBufferFlush stringInOverflow 64 1024 = false := by
    decide +kernel
  have htext : printfText zeroText ⟨stringInOverflow, .fromVaList stringInOverflow 1024, 0⟩
      (formatTokens (cString stringInOverflow 64)) =
        some ("0.000000\n".toList.map Char.toUInt8) := by
    decide +kernel
  refine ⟨?_, ?_, ?_, hanswer, htext, fun h => ?_⟩
  · rw [hlist]
    exact ⟨by decide, by decide⟩
  · rw [hlist, htokens]
    exact ⟨_, rfl, _, rfl, trivial⟩
  · apply unaliased_of_no_count
    intro d hd
    simp only [htokens, List.mem_cons, Token.directive.injEq, List.not_mem_nil, or_false] at hd
    rcases hd with heq | heq
    all_goals
      rw [heq]
      decide
  · exact h.sound hanswer _ htext (by decide)

end Rlibc.Stdio
