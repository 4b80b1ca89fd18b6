import Rlibc.Stdio.Truncation

/-!
# Two passes over one format

Callers that do not know the length of the output call `vsnprintf` twice: without a destination,
and then with one that is long enough.  In between there are the counts that the first pass has
stored.  A second pass is the first one over again if it reads none of them.
-/

namespace Rlibc.Stdio

open ByteMem ByteOrder

/-! ## Runs from memories that agree -/

/-- The second state is like the first one, as far as the rest of the run reads it. -/
structure Alike (tokens : List Token) (st st' : FormatState (List UInt8)) : Prop where
  cursor : st'.cursor = st.cursor
  sink : st'.sink = st.sink
  mem : ∀ b, runReads st tokens b → st'.mem b = st.mem b

section

variable {m m' : Mem} {c : VarArgCursor}

theorem stringBytes_congr {pointer : Nat} {precision : Option Nat}
    (h : ∀ b, stringBytes m pointer precision b → m' b = m b) (b : Nat) :
    stringBytes m' pointer precision b ↔ stringBytes m pointer precision b := by
  unfold stringBytes cStringPrefixLen
  rw [cStringPrefix_congr h]

theorem directiveReads_congr {d : FormatDirective} (h : ∀ b, directiveReads m c d b → m' b = m b)
    (b : Nat) : directiveReads m' c d b ↔ directiveReads m c d b := by
  have hwidth : resolveWidth m' d.width c d.flags.leftAlign =
      resolveWidth m d.width c d.flags.leftAlign :=
    resolveWidth_congr fun hstar b hb => h b (Or.inl ⟨hstar, hb⟩)
  unfold directiveReads
  rw [hwidth, resolveCounts_congr fun b hb => h b (directiveReads_of_counts hb)]
  apply or_congr Iff.rfl
  apply or_congr Iff.rfl
  apply exists_congr
  intro counts
  apply and_congr_right
  intro hcounts
  apply or_congr Iff.rfl
  apply and_congr_right
  intro hs
  have hptr : counts.cursor.nextPtr m' = counts.cursor.nextPtr m :=
    nextU64_congr fun b hb => h b (Or.inr (Or.inr ⟨counts, hcounts, Or.inl hb⟩))
  rw [hptr]
  apply exists_congr
  intro r
  apply and_congr_right
  intro hnext
  apply and_congr_right
  intro hnull
  exact stringBytes_congr (fun b hb =>
    h b (Or.inr (Or.inr ⟨counts, hcounts, Or.inr ⟨hs, r, hnext, hnull, hb⟩⟩))) b

/-- The same write gives the same bytes. -/
theorem storeNat_agree {size pointer v b : Nat} (h : m' b = m b) :
    storeNat m' size pointer v b = storeNat m size pointer v b := by
  rw [storeNat_eq_writeBytes, storeNat_eq_writeBytes, writeBytes_apply, writeBytes_apply, h]

end

namespace Alike

variable {st st' : FormatState (List UInt8)} {tokens : List Token}

theorem literal {byte : UInt8} (h : Alike (.literal byte :: tokens) st st') :
    Alike tokens (pushPiece recorder st (.repeated byte 1))
      (pushPiece recorder st' (.repeated byte 1)) := by
  refine ⟨h.cursor, ?_, h.mem⟩
  change st'.sink ++ _ = st.sink ++ _
  rw [h.sink]
  rfl

theorem reads {d : FormatDirective} (h : Alike (.directive d :: tokens) st st') :
    ∀ b, directiveReads st.mem st.cursor d b → st'.mem b = st.mem b :=
  fun b hb => h.mem b (Or.inl hb)

theorem action {d : FormatDirective} (h : Alike (.directive d :: tokens) st st') :
    directiveAction st'.mem st'.cursor d = directiveAction st.mem st.cursor d := by
  rw [h.cursor]
  exact directiveAction_congr h.reads

theorem directive {d : FormatDirective} (h : Alike (.directive d :: tokens) st st') :
    Agree (Alike tokens) (applyDirective recorder st d) (applyDirective recorder st' d) := by
  have hlater : ∀ next, applyDirective recorder st d = .ok next →
      ∀ b, runReads next tokens b → st'.mem b = st.mem b :=
    fun next hnext b hb => h.mem b (Or.inr ⟨next, hnext, hb⟩)
  rw [applyDirective_eq] at hlater ⊢
  rw [applyDirective_eq, h.action]
  cases haction : directiveAction st.mem st.cursor d with
  | none => exact .error _
  | some r =>
    rw [haction] at hlater
    obtain ⟨action, c⟩ := r
    dsimp only at hlater ⊢
    cases action with
    | render rendered =>
      unfold Action.apply at hlater ⊢
      dsimp only at hlater ⊢
      by_cases hfits : recorder.fits rendered.lengthSum = true
      · rw [if_pos hfits, recorder_pushPieces] at hlater ⊢
        rw [if_pos hfits, recorder_pushPieces]
        have htext : (rendered.pieces.flatMap fun p => p.text st'.mem) =
            rendered.pieces.flatMap fun p => p.text st.mem := by
          apply List.flatMap_congr
          intro piece hmem
          exact Piece.text_congr fun b hb => h.reads b (directiveAction_reads haction hmem hb)
        refine .ok ⟨rfl, ?_, hlater _ rfl⟩
        rw [h.sink, htext]
      · rw [if_neg hfits, if_neg hfits]
        exact .error _
    | count pointer size =>
      unfold Action.apply at hlater ⊢
      dsimp only at hlater ⊢
      rw [h.sink]
      by_cases hfits : countFits size (recorder.required st.sink) = true
      · rw [if_pos hfits] at hlater ⊢
        rw [if_pos hfits]
        exact .ok ⟨rfl, rfl, fun b hb => storeNat_agree (hlater _ rfl b hb)⟩
      · rw [if_neg hfits, if_neg hfits]
        exact .error _

/-- What depends on the bytes that a run reads is the same along both runs. -/
theorem along {touched : FormatState (List UInt8) → FormatDirective → Nat → Prop}
    (htouched : ∀ d tokens st st', Alike (.directive d :: tokens) st st' →
      ∀ b, touched st' d b ↔ touched st d b)
    (h : Alike tokens st st') (b : Nat) :
    alongRun touched st' tokens b ↔ alongRun touched st tokens b := by
  induction tokens generalizing st st' with
  | nil => exact Iff.rfl
  | cons token tokens ih =>
    cases token with
    | literal byte => exact ih h.literal
    | invalid => exact Iff.rfl
    | directive d =>
      have hagree := h.directive
      unfold alongRun
      apply or_congr (htouched d tokens st st' h b)
      generalize applyDirective recorder st d = r at hagree
      generalize applyDirective recorder st' d = r' at hagree
      cases hagree with
      | error failure =>
        apply iff_of_false
        · rintro ⟨next, heq, -⟩
          cases heq
        · rintro ⟨next, heq, -⟩
          cases heq
      | ok hnext =>
        simp only [Except.ok.injEq, exists_eq_left']
        exact ih hnext

theorem runReads_iff (h : Alike tokens st st') (b : Nat) :
    runReads st' tokens b ↔ runReads st tokens b := by
  apply h.along
  intro d tokens st st' h b
  rw [h.cursor]
  exact directiveReads_congr h.reads b

theorem runStores_iff (h : Alike tokens st st') (b : Nat) :
    runStores st' tokens b ↔ runStores st tokens b := by
  apply h.along
  intro d tokens st st' h b
  rw [h.action]

/-- **Both runs have the same output**, or fail in the same way. -/
theorem run (h : Alike tokens st st') :
    (runTokens recorder st' tokens).2 = (runTokens recorder st tokens).2 ∧
      (runTokens recorder st' tokens).1.sink = (runTokens recorder st tokens).1.sink := by
  obtain ⟨hsame, left, hend⟩ := runTokens_simulation recorder recorder Alike
    (fun _ _ _ _ h => h.literal) (fun _ _ _ _ h => h.directive) tokens st st' h
  exact ⟨hsame.symm, hend.sink⟩

end Alike

/-! ## The bytes that a run leaves alone -/

theorem runTokens_frame {tokens : List Token} {st : FormatState (List UInt8)} {b : Nat}
    (h : ¬runStores st tokens b) : (runTokens recorder st tokens).1.mem b = st.mem b := by
  -- Induction on the tokens: only a `%n` stores, and none of the stores is at `b`.
  induction tokens generalizing st with
  | nil => rfl
  | cons token tokens ih =>
    cases token with
    | literal byte => exact ih h
    | invalid => rfl
    | directive d =>
      have hnow : ∀ r, directiveAction st.mem st.cursor d = some r → ¬r.1.writes b :=
        fun r hr hb => h (Or.inl ⟨r, hr, hb⟩)
      have hlater : ∀ next, applyDirective recorder st d = .ok next → ¬runStores next tokens b :=
        fun next hnext hb => h (Or.inr ⟨next, hnext, hb⟩)
      unfold runTokens
      rw [applyDirective_eq] at hlater ⊢
      cases haction : directiveAction st.mem st.cursor d with
      | none => rfl
      | some r =>
        rw [haction] at hlater
        specialize hnow r haction
        obtain ⟨action, c⟩ := r
        dsimp only at hlater hnow ⊢
        cases action with
        | render rendered =>
          unfold Action.apply at hlater ⊢
          dsimp only at hlater ⊢
          by_cases hfits : recorder.fits rendered.lengthSum = true
          · rw [if_pos hfits, recorder_pushPieces] at hlater ⊢
            exact ih (hlater _ rfl)
          · rw [if_neg hfits]
        | count pointer size =>
          unfold Action.apply at hlater ⊢
          dsimp only at hlater ⊢
          by_cases hfits : countFits size (recorder.required st.sink) = true
          · rw [if_pos hfits] at hlater ⊢
            dsimp only
            rw [ih (hlater _ rfl)]
            apply storeNat_outside
            by_contra hinside
            exact hnow (by change _ ∧ _; omega)
          · rw [if_neg hfits]

/-! ## Calls in memories that agree -/

section

variable {m m' : Mem} {format ap : Nat}

theorem formatText_congr (h : ∀ b, callReads m format ap b → m' b = m b) :
    cString m' format = cString m format := by
  apply untilNul_congr
  intro i hi _
  exact h (format + i) (Or.inl ⟨Nat.le_add_right format i, Nat.add_le_add_left hi format⟩)

theorem fromVaList_congr (h : ∀ b, callReads m format ap b → m' b = m b) :
    VarArgCursor.fromVaList m' ap = VarArgCursor.fromVaList m ap := by
  unfold VarArgCursor.fromVaList
  by_cases hnull : ap = 0
  · rw [if_pos hnull, if_pos hnull]
  · have hlist : ∀ a n, ap ≤ a → a + n ≤ ap + 24 → natAt m' n a = natAt m n a := by
      intro a n hlow hhigh
      apply natAt_congr
      intro b hb hb'
      exact h b (Or.inr (Or.inl ⟨hnull, by omega, by omega⟩))
    unfold wordAt
    rw [if_neg hnull, if_neg hnull, hlist ap 4 (by omega) (by omega),
      hlist (ap + 4) 4 (by omega) (by omega), hlist (ap + 16) 8 (by omega) (by omega),
      hlist (ap + 8) 8 (by omega) (by omega)]

theorem alike_of_reads (h : ∀ b, callReads m format ap b → m' b = m b) :
    Alike (formatTokens (cString m format)) ⟨m, .fromVaList m ap, []⟩
      ⟨m', .fromVaList m' ap, []⟩ := by
  refine ⟨?_, rfl, fun b hb => h b (Or.inr (Or.inr hb))⟩
  exact fromVaList_congr h

theorem formatAll_eq (m : Mem) (format ap : Nat) :
    formatAll m format ap =
      runTokens recorder ⟨m, .fromVaList m ap, []⟩ (formatTokens (cString m format)) :=
  formatLoop_eq _ _ _

/-- **A call depends on the bytes that it reads.** -/
theorem formatAll_congr (h : ∀ b, callReads m format ap b → m' b = m b) :
    (formatAll m' format ap).2 = (formatAll m format ap).2 ∧
      (formatAll m' format ap).1.sink = (formatAll m format ap).1.sink := by
  rw [formatAll_eq, formatAll_eq, formatText_congr h]
  exact (alike_of_reads h).run

theorem apart_congr (h : ∀ b, callReads m format ap b → m' b = m b) {s n : Nat}
    (hapart : Apart m s n format ap) : Apart m' s n format ap := by
  intro b hb
  apply hapart b
  unfold callReads callStores at hb ⊢
  rwa [formatText_congr h, (alike_of_reads h).runReads_iff, (alike_of_reads h).runStores_iff] at hb

/-- Formatting leaves everything but its counts alone. -/
theorem formatAll_frame {b : Nat} (h : ¬callStores m format ap b) :
    (formatAll m format ap).1.mem b = m b := by
  rw [formatAll_eq]
  exact runTokens_frame h

end

/-! ## The truncation law -/

/-- The call reports a failure, or does not come back. -/
def Fails (m : Mem) (s n format ap : Nat) : Prop :=
  ∀ reply, vsnprintf m s n format ap = some reply → reply.value = -1

theorem rendering_eq_some {m : Mem} {format ap : Nat} {R : List UInt8} :
    rendering m format ap = some R ↔
      (formatAll m format ap).2 = none ∧ (formatAll m format ap).1.sink = R := by
  unfold rendering
  split
  · rename_i hnone
    rw [Option.some.injEq]
    exact (and_iff_right hnone).symm
  · rename_i hsome
    exact iff_of_false (fun h => by cases h) fun h => hsome h.1

theorem apart_nowhere (m : Mem) (format ap : Nat) : Apart m 0 0 format ap :=
  fun b _ => Or.inr (Nat.zero_le b)

theorem vsnprintf_rendered {m : Mem} {s n format ap : Nat} {R : List UInt8} (hformat : format ≠ 0)
    (hvalid : n = 0 ∨ s ≠ 0) (hapart : Apart m s n format ap)
    (hrendering : rendering m format ap = some R) :
    vsnprintf m s n format ap =
      some ⟨min R.length cIntMax, deliver (formatAll m format ap).1.mem s n R, none⟩ := by
  obtain ⟨hend, hout⟩ := rendering_eq_some.mp hrendering
  rw [vsnprintf_eq_truncated hformat hvalid hapart]
  unfold truncatedReply
  rw [hend, hout]

theorem fails_iff {m : Mem} {s n format ap : Nat} (hformat : format ≠ 0)
    (hvalid : n = 0 ∨ s ≠ 0) (hapart : Apart m s n format ap) :
    Fails m s n format ap ↔ rendering m format ap = none := by
  unfold Fails rendering
  rw [vsnprintf_eq_truncated hformat hvalid hapart]
  unfold truncatedReply
  cases (formatAll m format ap).2 with
  | none =>
    rw [if_pos rfl]
    apply iff_of_false
    · intro h
      have hvalue := h _ rfl
      dsimp only at hvalue
      omega
    · exact Option.some_ne_none _
  | some failure =>
    rw [if_neg (Option.some_ne_none _)]
    apply iff_of_true _ rfl
    cases failure with
    | einval =>
      intro reply hreply
      cases hreply
      rfl
    | overflow =>
      intro reply hreply
      cases hreply

theorem deliver_holds (m : Mem) {s n : Nat} (out : List UInt8) (hn : n ≠ 0) :
    HoldsAt (deliver m s n out) s (out.take (n - 1) ++ [0]) := by
  unfold deliver
  rw [if_neg hn]
  exact holdsAt_writeBytes m s _

theorem deliver_outside (m : Mem) {s n b : Nat} {out : List UInt8}
    (h : b < s ∨ s + min n (out.length + 1) ≤ b) : deliver m s n out b = m b := by
  unfold deliver
  by_cases hn : n = 0
  · rw [if_pos hn]
  · rw [if_neg hn]
    apply writeBytes_outside
    rw [List.length_append, List.length_take, List.length_singleton]
    omega

/-- A length that is reported without a destination is that of the output, and with a destination
it is reported again, with as much of the output as there is room for. -/
def Truncates (m : Mem) (s n format ap : Nat) : Prop :=
  ∀ sizing, vsnprintf m 0 0 format ap = some sizing → 0 ≤ sizing.value →
    ∃ R reply, rendering m format ap = some R ∧ vsnprintf m s n format ap = some reply ∧
      sizing.value = R.length ∧ reply.value = R.length ∧
      (n ≠ 0 → HoldsAt reply.mem s (R.take (n - 1) ++ [0])) ∧
      ∀ b, b < s ∨ s + min n (R.length + 1) ≤ b → reply.mem b = sizing.mem b

/-- A destination of the length that was reported, in a memory that is otherwise as the first pass
has left it, gets the whole output. -/
def TwoPassesSuffice (m : Mem) (format ap : Nat) : Prop :=
  ∀ sizing k s m', vsnprintf m 0 0 format ap = some sizing → sizing.value = (k : Nat) →
    s ≠ 0 → Apart m s (k + 1) format ap →
    (∀ b, b < s ∨ s + (k + 1) ≤ b → m' b = sizing.mem b) →
    ∃ R reply, rendering m format ap = some R ∧ vsnprintf m' s (k + 1) format ap = some reply ∧
      reply.value = R.length ∧ HoldsAt reply.mem s (R ++ [0])

theorem rendering_of_sizing {m : Mem} {format ap : Nat} {sizing : Reply} (hformat : format ≠ 0)
    (hsizing : vsnprintf m 0 0 format ap = some sizing) (hvalue : 0 ≤ sizing.value) :
    ∃ R, rendering m format ap = some R := by
  cases hrendering : rendering m format ap with
  | none =>
    have hfails := (fails_iff hformat (Or.inl rfl) (apart_nowhere m format ap)).mpr hrendering
    have hneg := hfails sizing hsizing
    omega
  | some R => exact ⟨R, rfl⟩

/-- **The truncation law.** -/
theorem truncation_law {m : Mem} {s n format ap : Nat} (hformat : format ≠ 0)
    (hvalid : n = 0 ∨ s ≠ 0) (hapart : Apart m s n format ap)
    (hshort : ∀ R, rendering m format ap = some R → R.length ≤ cIntMax) :
    Truncates m s n format ap ∧
      (Fails m 0 0 format ap ↔ Fails m s n format ap) ∧
      ((∀ b, callReads m format ap b → ¬callStores m format ap b) →
        TwoPassesSuffice m format ap) := by
  have hnowhere := apart_nowhere m format ap
  refine ⟨?_, ?_, ?_⟩
  · intro sizing hsizing hvalue
    obtain ⟨R, hrendering⟩ := rendering_of_sizing hformat hsizing hvalue
    have hmin : min (R.length : Int) cIntMax = R.length := by
      have hle := hshort R hrendering
      omega
    rw [vsnprintf_rendered hformat (Or.inl rfl) hnowhere hrendering, hmin] at hsizing
    cases hsizing
    refine ⟨R, _, hrendering, vsnprintf_rendered hformat hvalid hapart hrendering, rfl, hmin,
      deliver_holds _ R, fun b hb => ?_⟩
    exact deliver_outside _ hb
  · rw [fails_iff hformat (Or.inl rfl) hnowhere, fails_iff hformat hvalid hapart]
  · intro hreads sizing k t m' hsizing hvalue ht hbuffer hagree
    obtain ⟨R, hrendering⟩ := rendering_of_sizing hformat hsizing (by omega)
    have hmin : min (R.length : Int) cIntMax = R.length := by
      have hle := hshort R hrendering
      omega
    rw [vsnprintf_rendered hformat (Or.inl rfl) hnowhere hrendering, hmin] at hsizing
    cases hsizing
    have hk : R.length = k := by
      dsimp only at hvalue
      omega
    -- What the second pass reads is neither in the buffer nor among the counts.
    have hsame : ∀ b, callReads m format ap b → m' b = m b := by
      intro b hb
      rw [hagree b (hbuffer b (Or.inl hb))]
      exact formatAll_frame (hreads b hb)
    obtain ⟨hend, hout⟩ := formatAll_congr hsame
    have hagain : rendering m' format ap = some R := by
      rw [rendering_eq_some] at hrendering ⊢
      rwa [hend, hout]
    refine ⟨R, _, hrendering, vsnprintf_rendered hformat (Or.inr ht) (apart_congr hsame hbuffer)
      hagain, hmin, ?_⟩
    have hholds := deliver_holds (formatAll m' format ap).1.mem (s := t) R (Nat.succ_ne_zero k)
    rw [Nat.succ_sub_one, List.take_of_length_le (Nat.le_of_eq hk)] at hholds
    exact hholds

def plainDirective (length : LengthModifier) (conversion : UInt8) : FormatDirective :=
  ⟨⟨false, false, false, false, false⟩, none, none, length, conversion⟩

/-- Without a width and a precision a directive reads a slot and the string that this points to. -/
theorem plainDirective_reads {m : Mem} {c : VarArgCursor} {length : LengthModifier}
    {conversion : UInt8} {b : Nat}
    (h : directiveReads m c (plainDirective length conversion) b) :
    slotBytes c b ∨ conversion = 's'.toUInt8 ∧ ∃ r, c.nextPtr m = some r ∧ r.1 ≠ 0 ∧
      stringBytes m r.1 none b := by
  rcases h with ⟨hnone, -⟩ | ⟨width, -, hnone, -⟩ | ⟨counts, hcounts, hreads⟩
  · cases hnone
  · cases hnone
  · cases hcounts
    exact hreads

/-- `%d%s%hhn`, whose count goes beside what is read. -/
def countBeside : Mem :=
  writeBytes (storeNat (storeNat (storeNat (formatMem "%d%s%hhn") 8 2048 7) 8 2056 4096) 8 2064
    4608) 4096 ("ab".toList.map Char.toUInt8)

theorem countBeside_tokens : formatTokens (cString countBeside 64) =
    [.directive (plainDirective .default 'd'.toUInt8),
      .directive (plainDirective .default 's'.toUInt8),
      .directive (plainDirective .hh 'n'.toUInt8)] := by
  decide +kernel

theorem countBeside_cursor : VarArgCursor.fromVaList countBeside 1024 = ⟨0, 0, 2048, 0⟩ := by
  decide +kernel

theorem countBeside_rendering :
    rendering countBeside 64 1024 = some ("7ab".toList.map Char.toUInt8) := by
  decide +kernel

/-- The word of `%d` leaves the memory as it is, and so does the string of `%s`. -/
theorem countBeside_first : ∃ out, applyDirective recorder ⟨countBeside, ⟨0, 0, 2048, 0⟩, []⟩
    (plainDirective .default 'd'.toUInt8) = .ok ⟨countBeside, ⟨8, 0, 2048, 0⟩, out⟩ :=
  ⟨_, rfl⟩

theorem countBeside_second (out : List UInt8) : ∃ out',
    applyDirective recorder ⟨countBeside, ⟨8, 0, 2048, 0⟩, out⟩
      (plainDirective .default 's'.toUInt8) = .ok ⟨countBeside, ⟨16, 0, 2048, 0⟩, out'⟩ :=
  ⟨_, rfl⟩

/-- The format, the argument area and the string end before the count. -/
theorem countBeside_reads {b : Nat} (h : callReads countBeside 64 1024 b) : b < 4100 := by
  have hlength : (cString countBeside 64).length = 8 := by decide +kernel
  have hstring : (⟨8, 0, 2048, 0⟩ : VarArgCursor).nextPtr countBeside =
      some (4096, ⟨16, 0, 2048, 0⟩) := by decide +kernel
  have htext : cStringPrefixLen countBeside 4096 none = 2 := by decide +kernel
  obtain ⟨out, hfirst⟩ := countBeside_first
  obtain ⟨out', hsecond⟩ := countBeside_second out
  unfold callReads at h
  rw [countBeside_tokens, hlength, countBeside_cursor] at h
  rcases h with ⟨-, h⟩ | ⟨-, -, h⟩ | h
  · omega
  · omega
  rcases h with h | ⟨next, hnext, h⟩
  · rcases plainDirective_reads h with ⟨r, hslot, h⟩ | ⟨hs, -⟩
    · cases hslot
      exact Nat.lt_trans h.2 (show 2056 < 4100 by decide)
    · cases hs
  cases hfirst.symm.trans hnext
  rcases h with h | ⟨next, hnext, h⟩
  · rcases plainDirective_reads h with ⟨r, hslot, h⟩ | ⟨-, r, hptr, -, h⟩
    · cases hslot
      exact Nat.lt_trans h.2 (show 2064 < 4100 by decide)
    · cases hstring.symm.trans hptr
      have hle := h.2.1
      rw [htext] at hle
      omega
  cases hsecond.symm.trans hnext
  rcases h with h | ⟨next, hnext, h⟩
  · rcases plainDirective_reads h with ⟨r, hslot, h⟩ | ⟨hs, -⟩
    · cases hslot
      exact Nat.lt_trans h.2 (show 2072 < 4100 by decide)
    · cases hs
  · exact False.elim h

theorem countBeside_stores {b : Nat} (h : callStores countBeside 64 1024 b) : b = 4608 := by
  have hcount : directiveAction countBeside ⟨16, 0, 2048, 0⟩ (plainDirective .hh 'n'.toUInt8) =
      some (.count 4608 1, ⟨24, 0, 2048, 0⟩) := rfl
  obtain ⟨out, hfirst⟩ := countBeside_first
  obtain ⟨out', hsecond⟩ := countBeside_second out
  unfold callStores at h
  rw [countBeside_tokens, countBeside_cursor] at h
  rcases h with ⟨r, haction, h⟩ | ⟨next, hnext, h⟩
  · cases haction
    exact False.elim h
  cases hfirst.symm.trans hnext
  rcases h with ⟨r, haction, h⟩ | ⟨next, hnext, h⟩
  · cases haction
    exact False.elim h
  cases hsecond.symm.trans hnext
  rcases h with ⟨r, haction, h⟩ | ⟨next, hnext, h⟩
  · cases hcount.symm.trans haction
    exact Nat.le_antisymm (Nat.le_of_lt_succ h.2) h.1
  · exact False.elim h

theorem countBeside_apart (n : Nat) : Apart countBeside 8192 n 64 1024 := by
  rintro b (hb | hb)
  · exact Or.inl (Nat.lt_trans (countBeside_reads hb) (by decide))
  · rw [countBeside_stores hb]
    exact Or.inl (by decide)

/-- The count is stored where neither pass looks, so that the second pass gets all of it. -/
theorem truncation_law_countBeside :
    Truncates countBeside 8192 3 64 1024 ∧
      (Fails countBeside 0 0 64 1024 ↔ Fails countBeside 8192 3 64 1024) ∧
      TwoPassesSuffice countBeside 64 1024 := by
  have hshort : ∀ R, rendering countBeside 64 1024 = some R → R.length ≤ cIntMax := by
    intro R hR
    cases countBeside_rendering.symm.trans hR
    decide
  obtain ⟨htruncates, hfails, htwo⟩ :=
    truncation_law (by decide) (Or.inr (by decide)) (countBeside_apart 3) hshort
  refine ⟨htruncates, hfails, htwo fun b hreads hstores => ?_⟩
  have hlt := countBeside_reads hreads
  have heq := countBeside_stores hstores
  omega

/-- `%sx%hhn`, whose count goes into the string. -/
def countInString : Mem :=
  storeNat (storeNat (formatMem "%sx%hhn") 8 2048 4096) 8 2056 4096

theorem countInString_apart : Apart countInString 8192 2 64 1024 := by
  have htokens : formatTokens (cString countInString 64) =
      [.directive (plainDirective .default 's'.toUInt8), .literal 'x'.toUInt8,
        .directive (plainDirective .hh 'n'.toUInt8)] := by
    decide +kernel
  have hlength : (cString countInString 64).length = 7 := by decide +kernel
  have hcursor : VarArgCursor.fromVaList countInString 1024 = ⟨0, 0, 2048, 0⟩ := by decide +kernel
  have hstring : (⟨0, 0, 2048, 0⟩ : VarArgCursor).nextPtr countInString =
      some (4096, ⟨8, 0, 2048, 0⟩) := by decide +kernel
  have hempty : cStringPrefixLen countInString 4096 none = 0 := by decide +kernel
  have hfirst : applyDirective recorder ⟨countInString, ⟨0, 0, 2048, 0⟩, []⟩
      (plainDirective .default 's'.toUInt8) = .ok ⟨countInString, ⟨8, 0, 2048, 0⟩, []⟩ := rfl
  have hcount : directiveAction countInString ⟨8, 0, 2048, 0⟩ (plainDirective .hh 'n'.toUInt8) =
      some (.count 4096 1, ⟨16, 0, 2048, 0⟩) := rfl
  intro b hb
  unfold callReads callStores at hb
  rw [htokens, hlength, hcursor] at hb
  apply Or.inl
  -- Each directive reads its word in the argument area and, for `%s`, an empty string.
  rcases hb with (⟨-, hb⟩ | ⟨-, -, hb⟩ | hb) | hb
  · omega
  · omega
  · rcases hb with hb | ⟨next, hnext, hb⟩
    · rcases plainDirective_reads hb with ⟨r, hslot, hb⟩ | ⟨-, r, hptr, -, hb⟩
      · cases hslot
        exact Nat.lt_trans hb.2 (by decide)
      · cases hstring.symm.trans hptr
        have hle := hb.2.1
        rw [hempty] at hle
        omega
    · cases hfirst.symm.trans hnext
      rcases hb with hb | ⟨next, hnext, hb⟩
      · rcases plainDirective_reads hb with ⟨r, hslot, hb⟩ | ⟨hs, -⟩
        · cases hslot
          exact Nat.lt_trans hb.2 (by decide)
        · cases hs
      · exact False.elim hb
  · rcases hb with ⟨r, haction, hb⟩ | ⟨next, hnext, hb⟩
    · cases haction
      exact False.elim hb
    · cases hfirst.symm.trans hnext
      rcases hb with ⟨r, haction, hb⟩ | ⟨next, hnext, hb⟩
      · cases hcount.symm.trans haction
        exact Nat.lt_trans hb.2 (by decide)
      · exact False.elim hb

/-- The string is empty when the first pass prints it, and not when the second pass does. -/
theorem counts_change_second_pass : ¬TwoPassesSuffice countInString 64 1024 := by
  intro h
  obtain ⟨sizing, hsizing⟩ : ∃ sizing, vsnprintf countInString 0 0 64 1024 = some sizing :=
    Option.isSome_iff_exists.mp (by decide +kernel)
  have hvalues : ((vsnprintf countInString 0 0 64 1024).bind fun sizing =>
      (vsnprintf sizing.mem 8192 2 64 1024).map fun reply => (sizing.value, reply.value)) =
        some (1, 2) := by
    decide +kernel
  have hrendering : rendering countInString 64 1024 = some ['x'.toUInt8] := by decide +kernel
  rw [hsizing, Option.bind_some] at hvalues
  obtain ⟨reply, hreply, hpair⟩ := Option.map_eq_some_iff.mp hvalues
  obtain ⟨hone, htwo⟩ := Prod.mk.inj hpair
  obtain ⟨R, reply', hR, hreply', hvalue, -⟩ := h sizing 1 8192 sizing.mem hsizing hone (by decide)
    countInString_apart (fun _ _ => rfl)
  cases hrendering.symm.trans hR
  cases hreply.symm.trans hreply'
  rw [htwo] at hvalue
  cases hvalue

end Rlibc.Stdio
