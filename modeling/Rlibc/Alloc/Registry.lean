import Mathlib.Data.List.Induction
import Rlibc.Alloc.Allocator

/-!
# The registry that the list in memory represents

`Chain m cursor hs stop` says that the records from `cursor` have the headers `hs` and the last of
them leads to `stop`; the whole list leads to null.  The loops that walk the list are operations
on `hs`: the lookup finds the first header for the payload, the removal takes it out.
-/

namespace Rlibc.Alloc

open ByteMem

/-! ## Headers in memory -/

theorem readHeader_congr {m m' : Mem} {a : Nat}
    (h : ∀ b, a ≤ b → b < a + headerSize → m' b = m b) : readHeader m' a = readHeader m a := by
  have hsize : headerSize = 56 := rfl
  have hword : ∀ i, i < 7 → wordAt m' (a + 8 * i) = wordAt m (a + 8 * i) := fun i hi =>
    natAt_congr fun b hlow hhigh => h b (by omega) (by omega)
  unfold readHeader
  rw [hword 0 (by omega), hword 1 (by omega), hword 2 (by omega), hword 3 (by omega),
    hword 4 (by omega), hword 5 (by omega), hword 6 (by omega)]

/-- Every field is a `usize`. -/
def AllocationHeader.Fits (h : AllocationHeader) : Prop := ∀ v ∈ h.words, v ≤ usizeMax

/-- A header reads back from where its words stand. -/
theorem readHeader_storeWords (m : Mem) (before : List Nat) (a offset : Nat)
    {h : AllocationHeader} (hfits : h.Fits) (hoffset : offset = 8 * before.length) :
    readHeader (storeWords m a (before ++ h.words)) (a + offset) = h := by
  have hword : ∀ i v, h.words[i]? = some v →
      wordAt (storeWords m a (before ++ h.words)) (a + offset + 8 * i) = v := by
    intro i v hi
    have hv := hfits v (List.mem_of_getElem? hi)
    unfold usizeMax at hv
    rw [hoffset, show a + 8 * before.length + 8 * i = a + 8 * (before.length + i) by omega]
    apply wordAt_storeWords m
    · rw [List.getElem?_append_right (Nat.le_add_right _ _), Nat.add_sub_cancel_left]
      exact hi
    · omega
  unfold readHeader
  rw [hword 0 h.magic rfl, hword 1 h.mappingBase rfl, hword 2 h.mappingLen rfl,
    hword 3 h.payloadAddr rfl, hword 4 h.requestedSize rfl, hword 5 h.alignment rfl,
    hword 6 h.cookie rfl]

/-! ## Chains -/

/-- The bytes of a header's record. -/
def AllocationHeader.InRecord (h : AllocationHeader) (b : Nat) : Prop :=
  h.mappingBase ≤ b ∧ b < h.mappingBase + recordSize

/-- No two records share a byte. -/
def RecordsApart (hs : List AllocationHeader) : Prop :=
  hs.Pairwise fun h h' => ∀ b, h.InRecord b → ¬ h'.InRecord b

/-- The records from `cursor` have the headers `hs`, and the last leads to `stop`. -/
def Chain (m : Mem) : Nat → List AllocationHeader → Nat → Prop
  | cursor, [], stop => cursor = stop
  | cursor, h :: hs, stop =>
    cursor ≠ 0 ∧ cursor = h.mappingBase ∧ readHeader m (cursor + 8) = h ∧
      Chain m (wordAt m cursor) hs stop

theorem Chain.congr {m m' : Mem} {cursor stop : Nat} {hs : List AllocationHeader}
    (hchain : Chain m cursor hs stop)
    (hagree : ∀ h ∈ hs, ∀ b, h.InRecord b → m' b = m b) : Chain m' cursor hs stop := by
  induction hs generalizing cursor with
  | nil => exact hchain
  | cons h hs ih =>
    have hsize : headerSize = 56 ∧ recordSize = 64 := ⟨rfl, rfl⟩
    have hhead : ∀ b, cursor ≤ b → b < cursor + 64 → m' b = m b := by
      intro b hlow hhigh
      apply hagree h List.mem_cons_self b
      unfold AllocationHeader.InRecord
      rw [← hchain.2.1]
      omega
    have hnext : wordAt m' cursor = wordAt m cursor :=
      natAt_congr fun b hlow hhigh => hhead b hlow (by omega)
    have hheader : readHeader m' (cursor + 8) = readHeader m (cursor + 8) :=
      readHeader_congr fun b hlow hhigh => hhead b (by omega) (by omega)
    refine ⟨hchain.1, hchain.2.1, hheader.trans hchain.2.2.1, ?_⟩
    rw [hnext]
    exact ih hchain.2.2.2 fun h' hmem => hagree h' (List.mem_cons_of_mem h hmem)

theorem chain_append {m : Mem} {cursor stop : Nat} {hs hs' : List AllocationHeader} :
    Chain m cursor (hs ++ hs') stop ↔
      ∃ middle, Chain m cursor hs middle ∧ Chain m middle hs' stop := by
  induction hs generalizing cursor with
  | nil => simp [Chain]
  | cons h hs ih =>
    rw [List.cons_append, Chain, ih]
    constructor
    · intro hall
      cases hall.2.2.2 with
      | intro middle hmiddle =>
        exact ⟨middle, ⟨hall.1, hall.2.1, hall.2.2.1, hmiddle.1⟩, hmiddle.2⟩
    · intro hall
      cases hall with
      | intro middle hmiddle =>
        exact ⟨hmiddle.1.1, hmiddle.1.2.1, hmiddle.1.2.2.1, middle, hmiddle.1.2.2.2, hmiddle.2⟩

/-- Writing the `next` word of the last record leads the chain elsewhere. -/
theorem Chain.relink {m : Mem} {cursor stop : Nat} {hs : List AllocationHeader}
    {h : AllocationHeader} (hchain : Chain m cursor (hs ++ [h]) stop)
    (happart : RecordsApart (hs ++ [h])) {next : Nat} (hnext : next ≤ usizeMax) :
    Chain (storeWord m h.mappingBase next) cursor (hs ++ [h]) next := by
  have hsize : headerSize = 56 ∧ recordSize = 64 := ⟨rfl, rfl⟩
  rw [chain_append] at hchain ⊢
  cases hchain with
  | intro middle hmiddle =>
    have hlast := hmiddle.2
    refine ⟨middle, hmiddle.1.congr ?_, hlast.1, hlast.2.1, ?_, ?_⟩
    · intro h' hmem b hin
      have hnot := (List.pairwise_append.mp happart).2.2 h' hmem h (List.mem_singleton_self h) b hin
      apply storeNat_outside
      unfold AllocationHeader.InRecord at hnot
      omega
    · refine (readHeader_congr ?_).trans hlast.2.2.1
      intro b hlow hhigh
      rw [hlast.2.1] at hlow
      exact storeNat_outside (by omega)
    · unfold usizeMax at hnext
      rw [hlast.2.1]
      exact natAt_storeNat m (by omega)

/-! ## Walking a chain -/

/-- The headers of the list, read back by walking it. -/
def registryFrom (m : Mem) : Nat → Nat → Option (List AllocationHeader)
  | fuel, cursor =>
    if cursor = 0 then some []
    else
      match fuel with
      | 0 => none
      | fuel + 1 =>
        let record := readRecord m cursor
        (registryFrom m fuel record.next).map (record.header :: ·)

/-- The headers of the live allocations, from the last registered to the first. -/
def registry (s : HeapState) : Option (List AllocationHeader) :=
  registryFrom s.mem walkFuel s.head

theorem registryFrom_of_chain {m : Mem} {cursor fuel : Nat} {hs : List AllocationHeader}
    (hchain : Chain m cursor hs 0) (hfuel : hs.length ≤ fuel) :
    registryFrom m fuel cursor = some hs := by
  induction hs generalizing cursor fuel with
  | nil =>
    have hzero : cursor = 0 := hchain
    unfold registryFrom
    rw [if_pos hzero]
  | cons h hs ih =>
    cases fuel with
    | zero => exact absurd hfuel (Nat.not_succ_le_zero _)
    | succ fuel =>
      have hrest := ih hchain.2.2.2 (Nat.le_of_succ_le_succ hfuel)
      unfold registryFrom
      rw [if_neg hchain.1]
      unfold readRecord
      dsimp only
      rw [hrest, hchain.2.2.1]
      rfl

theorem lookupFrom_of_chain {m : Mem} {payload cursor fuel : Nat} {hs : List AllocationHeader}
    (hchain : Chain m cursor hs 0) (hfuel : hs.length ≤ fuel) :
    lookupFrom m payload fuel cursor = some (hs.find? fun h => h.payloadAddr = payload) := by
  induction hs generalizing cursor fuel with
  | nil =>
    have hzero : cursor = 0 := hchain
    unfold lookupFrom
    rw [if_pos hzero]
    rfl
  | cons h hs ih =>
    cases fuel with
    | zero => exact absurd hfuel (Nat.not_succ_le_zero _)
    | succ fuel =>
      have hrest := ih hchain.2.2.2 (Nat.le_of_succ_le_succ hfuel)
      unfold lookupFrom
      rw [if_neg hchain.1]
      unfold readRecord
      dsimp only
      rw [hrest, hchain.2.2.1, List.find?_cons]
      by_cases hpayload : h.payloadAddr = payload
      · rw [if_pos hpayload, decide_eq_true hpayload]
      · rw [if_neg hpayload, decide_eq_false hpayload]

/-- The `previous` of the removal loop, once it has passed the records `hs`. -/
def lastRecord (hs : List AllocationHeader) : Nat := (hs.getLast?.map (·.mappingBase)).getD 0

/-- A word that is read is a `usize`. -/
theorem wordAt_le (m : Mem) (a : Nat) : wordAt m a ≤ usizeMax := by
  have hbound : ∀ n b, natAt m n b < 256 ^ n := by
    intro n
    induction n with
    | zero => exact fun _ => Nat.one_pos
    | succ n ih =>
      intro b
      have hbyte := (m b).toNat_lt
      have hrest := ih (b + 1)
      rw [natAt, pow_succ]
      omega
  have hword := hbound 8 a
  show natAt m 8 a ≤ usizeMax
  unfold usizeMax
  omega

/-- **Removal.**  The loop takes the first header for the payload out of the chain.  It writes
inside records only. -/
theorem unregisterFrom_some {s : HeapState} {payload : Nat} (fuel : Nat)
    (passed : List AllocationHeader) {before after : List AllocationHeader} {h : AllocationHeader}
    {cursor : Nat}
    (hpassed : Chain s.mem s.head passed cursor)
    (hchain : Chain s.mem cursor (before ++ h :: after) 0) (hfuel : before.length < fuel)
    (happart : RecordsApart (passed ++ (before ++ h :: after)))
    (hnot : ∀ h' ∈ before, h'.payloadAddr ≠ payload) (hpayload : h.payloadAddr = payload) :
    ∃ s' : HeapState, unregisterFrom s payload fuel (lastRecord passed) cursor = some (some h, s') ∧
      s'.mapped = s.mapped ∧ s'.errno = s.errno ∧
      Chain s'.mem s'.head (passed ++ (before ++ after)) 0 ∧
      ∀ b, (∀ h' ∈ passed ++ (before ++ h :: after), ¬ h'.InRecord b) → s'.mem b = s.mem b := by
  have hsize : headerSize = 56 ∧ recordSize = 64 := ⟨rfl, rfl⟩
  induction before generalizing passed cursor fuel with
  | nil =>
    cases fuel with
    | zero => exact absurd hfuel (Nat.not_lt_zero _)
    | succ fuel =>
      rw [List.nil_append] at hchain happart ⊢
      rw [List.nil_append]
      have hapart := List.pairwise_append.mp happart
      have hafter := List.pairwise_cons.mp hapart.2.1
      -- Clearing the removed record's own `next` word touches no other record.
      have hclear : ∀ m : Mem, ∀ h' ∈ passed ++ after, ∀ b, h'.InRecord b →
          storeWord m cursor 0 b = m b := by
        intro m h' hmem b hin
        have hother : ¬ h.InRecord b := by
          cases List.mem_append.mp hmem with
          | inl hp => exact hapart.2.2 h' hp h List.mem_cons_self b hin
          | inr ha => exact fun hh => hafter.1 h' ha b hh hin
        apply storeNat_outside
        unfold AllocationHeader.InRecord at hother
        rw [hchain.2.1]
        omega
      have hrest : Chain s.mem (wordAt s.mem cursor) after 0 := hchain.2.2.2
      unfold unregisterFrom
      rw [if_neg hchain.1]
      unfold readRecord
      dsimp only
      rw [hchain.2.2.1, if_pos hpayload]
      cases passed using List.reverseRecOn with
      | nil =>
        have hfirst : lastRecord [] = 0 := rfl
        rw [if_pos hfirst]
        refine ⟨_, rfl, rfl, rfl, ?_, ?_⟩
        · exact hrest.congr fun h' hmem b hin => hclear s.mem h' hmem b hin
        · intro b hb
          have hout := hb h List.mem_cons_self
          unfold AllocationHeader.InRecord at hout
          apply storeNat_outside
          rw [hchain.2.1]
          omega
      | append_singleton passed g =>
        have hlast : lastRecord (passed ++ [g]) = g.mappingBase := by
          unfold lastRecord
          rw [List.getLast?_concat]
          rfl
        have hbase : g.mappingBase ≠ 0 := by
          cases chain_append.mp hpassed with
          | intro middle hmiddle => exact hmiddle.2.2.1 ▸ hmiddle.2.1
        have hlinked := hpassed.relink hapart.1 (wordAt_le s.mem cursor)
        rw [hlast, if_neg hbase]
        refine ⟨_, rfl, rfl, rfl, ?_, ?_⟩
        · apply chain_append.mpr
          refine ⟨wordAt s.mem cursor, ?_, ?_⟩
          · exact hlinked.congr fun h' hmem b hin =>
              hclear _ h' (List.mem_append_left after hmem) b hin
          · apply hrest.congr
            intro h' hmem b hin
            refine (hclear _ h' (List.mem_append_right _ hmem) b hin).trans ?_
            have hother := hapart.2.2 g (List.mem_append_right _ (List.mem_singleton_self g)) h'
              (List.mem_cons_of_mem h hmem) b
            apply storeNat_outside
            unfold AllocationHeader.InRecord at hother hin
            omega
        · intro b hb
          have houth := hb h (List.mem_append_right _ List.mem_cons_self)
          have houtg := hb g (List.mem_append_left _ (List.mem_append_right _
            (List.mem_singleton_self g)))
          unfold AllocationHeader.InRecord at houth houtg
          refine (storeNat_outside ?_).trans (storeNat_outside (by omega))
          rw [hchain.2.1]
          omega
  | cons g before ih =>
    cases fuel with
    | zero => exact absurd hfuel (Nat.not_lt_zero _)
    | succ fuel =>
      -- One turn of the loop: `g` is passed.
      have hpassed' : Chain s.mem s.head (passed ++ [g]) (wordAt s.mem cursor) :=
        chain_append.mpr ⟨cursor, hpassed, hchain.1, hchain.2.1, hchain.2.2.1, rfl⟩
      have hlast : lastRecord (passed ++ [g]) = cursor := by
        unfold lastRecord
        rw [List.getLast?_concat, hchain.2.1]
        rfl
      have hmove : ∀ rest : List AllocationHeader,
          passed ++ (g :: before ++ rest) = passed ++ [g] ++ (before ++ rest) := by
        intro rest
        rw [List.append_assoc, List.singleton_append, List.cons_append]
      rw [hmove] at happart
      have hih := ih fuel (passed ++ [g]) hpassed' hchain.2.2.2 (Nat.lt_of_succ_lt_succ hfuel) happart
        fun h' hmem => hnot h' (List.mem_cons_of_mem g hmem)
      rw [hlast] at hih
      rw [hmove, hmove]
      unfold unregisterFrom
      rw [if_neg hchain.1]
      unfold readRecord
      dsimp only
      rw [hchain.2.2.1, if_neg (hnot g List.mem_cons_self)]
      exact hih

end Rlibc.Alloc
