import Rlibc.Stdlib.EnvMap

/-!
# Histories of a `putenv` buffer

The caller may write to a buffer after it gave it to `putenv`, and take its name away and give
it back.  A lookup that meets the buffer without its name forgets the buffer for good, so what
holds of a history depends on what the buffer read when the name was looked up.
-/

namespace Rlibc.Stdlib

open ByteMem

/-- The buffer reads `NAME=` and then anything. -/
abbrev BeginsWith (m : Mem) (address : Nat) (name : List UInt8) : Prop :=
  HoldsAt m address (name ++ [equalSign])

/-- The name that a `putenv` of the string binds or removes. -/
def putenvName (string : List UInt8) : List UInt8 :=
  (splitAtEqual string).elim string (·.1)

namespace EnvStore

theorem aliasValue_eq_some {st : EnvStore} {name : List UInt8} {value : Nat} :
    st.aliasValue name = some value ↔
      ∃ entry, st.aliasFor name = some entry ∧ BeginsWith st.mem entry.entryAddr name ∧
        value = entry.entryAddr + (name.length + 1) := by
  unfold aliasValue
  rw [Option.bind_eq_some_iff]
  simp only [parseAliasValuePtr_eq_some]

/-- A stale name is one whose alias leads to a buffer that reads something else. -/
theorem Stale.exists_alias {st : EnvStore} {name : List UInt8} (h : st.Stale name) :
    ∃ entry ∈ st.aliases, entry.name = name ∧ ¬ BeginsWith st.mem entry.entryAddr name := by
  cases hfor : st.aliasFor name with
  | none => exact absurd h (not_stale_of_none hfor)
  | some entry =>
    refine ⟨entry, mem_of_aliasFor hfor, aliasFor_name hfor, fun hbegins => ?_⟩
    have hvalue := aliasValue_eq_some.mpr ⟨entry, hfor, hbegins, rfl⟩
    exact nomatch hvalue.symm.trans h.2

theorem value_of_stale {st : EnvStore} {name : List UInt8} (h : st.Stale name) :
    st.value name = none := by
  unfold value
  rw [h.2, settle_of_stale h]
  exact entryValue_removeEntries_self st.entries name

/-- A lookup changes nothing when it finds a value. -/
theorem settle_of_value {st : EnvStore} {name : List UInt8} (h : (st.value name).isSome) :
    st.settle name = st := by
  apply settle_of_not_stale
  intro hstale
  rw [value_of_stale hstale] at h
  cases h

/-! ## A binding stays -/

theorem mem_settle_ne {st : EnvStore} {entry : PutEnvAlias} (hmem : entry ∈ st.aliases)
    {name : List UInt8} (hne : entry.name ≠ name) : entry ∈ (st.settle name).aliases := by
  unfold settle
  split
  · exact List.mem_filter.mpr ⟨hmem, decide_eq_true hne⟩
  · exact hmem

theorem mem_setOwn_ne {st : EnvStore} {entry : PutEnvAlias} (hmem : entry ∈ st.aliases)
    {name : List UInt8} (hne : entry.name ≠ name) (value : List UInt8) :
    entry ∈ (st.setOwn name value).aliases :=
  List.mem_filter.mpr ⟨hmem, decide_eq_true hne⟩

theorem mem_unbind_ne {st : EnvStore} {entry : PutEnvAlias} (hmem : entry ∈ st.aliases)
    {name : List UInt8} {address : Nat} (hname : entry.name ≠ name)
    (haddr : entry.entryAddr ≠ address) : entry ∈ (st.unbind name address).aliases :=
  List.mem_filter.mpr ⟨hmem, decide_eq_true fun hor => hor.elim hname haddr⟩

theorem value_of_bound {st : EnvStore} {name : List UInt8} {address : Nat}
    (hfor : st.aliasFor name = some ⟨name, address⟩) (hbegins : BeginsWith st.mem address name) :
    st.value name = some (cString st.mem (address + (name.length + 1))) := by
  have hvalue := aliasValue_eq_some.mpr ⟨_, hfor, hbegins, rfl⟩
  unfold value
  rw [hvalue]

end EnvStore

/-! ## What the caller does meanwhile -/

/-- The call neither binds nor removes the name, and gives the buffer to nobody else. -/
def Undisturbed (m : Mem) (buffer : Nat) (name : List UInt8) : EnvCall → Prop
  | .setenv n _ overwrite => n = some name → overwrite = 0
  | .unsetenv n => n ≠ some name
  | .putenv string => string ≠ buffer ∧ putenvName (cString m string) ≠ name
  | .clearenv => False
  | .getenv _ => True
  | .write _ _ => True

instance (m : Mem) (buffer : Nat) (name : List UInt8) : (c : EnvCall) →
    Decidable (Undisturbed m buffer name c)
  | .setenv n _ overwrite => inferInstanceAs (Decidable (n = some name → overwrite = 0))
  | .unsetenv n => inferInstanceAs (Decidable (n ≠ some name))
  | .putenv _ => inferInstanceAs (Decidable (_ ∧ _))
  | .clearenv => .isFalse id
  | .getenv _ | .write _ _ => .isTrue trivial

/-- The call looks the name up. -/
def LooksUp (name : List UInt8) : EnvCall → Prop
  | .setenv n _ overwrite => n = some name ∧ overwrite = 0
  | .getenv n => n = some name
  | _ => False

instance (name : List UInt8) : (c : EnvCall) → Decidable (LooksUp name c)
  | .setenv _ _ _ => inferInstanceAs (Decidable (_ ∧ _))
  | .getenv n => inferInstanceAs (Decidable (n = some name))
  | .unsetenv _ | .putenv _ | .clearenv | .write _ _ => .isFalse id

namespace EnvStore

/-- **One call.**  A call that leaves the name and its buffer alone, made while the buffer reads
`NAME=` if it looks the name up, keeps the binding. -/
theorem call_keeps_alias {st : EnvStore} {buffer : Nat} {name : List UInt8} {c : EnvCall}
    (hfor : st.aliasFor name = some ⟨name, buffer⟩) (hund : Undisturbed st.mem buffer name c)
    (hlook : LooksUp name c → BeginsWith st.mem buffer name) :
    (⟨name, buffer⟩ : PutEnvAlias) ∈ (st.call c).2.aliases := by
  have hmem := mem_of_aliasFor hfor
  -- A lookup of any name keeps the binding.
  have hsettle : ∀ n, (n = name → BeginsWith st.mem buffer name) →
      (⟨name, buffer⟩ : PutEnvAlias) ∈ (st.settle n).aliases := by
    intro n hn
    by_cases hsame : n = name
    · have hvalue := value_of_bound hfor (hn hsame)
      rw [hsame, settle_of_value (by rw [hvalue]; rfl)]
      exact hmem
    · exact mem_settle_ne hmem (Ne.symm hsame)
  cases c with
  | setenv n value overwrite =>
    cases n with
    | none => exact hmem
    | some n =>
      cases value with
      | none => exact hmem
      | some value =>
        dsimp only [call]
        split
        · exact hmem
        · split
          · rename_i hover
            have hkept := hsettle n fun hn => hlook ⟨congrArg some hn, hover⟩
            split
            · exact hkept
            · rename_i hunset
              -- The name is bound, so it is another name that gets a value here.
              apply mem_setOwn_ne hkept
              intro hn
              have hvalue := value_of_bound hfor (hlook ⟨congrArg some hn.symm, hover⟩)
              apply hunset
              rw [← hn, hvalue]
              rfl
          · rename_i hover
            exact mem_setOwn_ne hmem (fun hn => hover (hund (congrArg some hn.symm))) value
  | unsetenv n =>
    cases n with
    | none => exact hmem
    | some n =>
      dsimp only [call]
      split
      · exact hmem
      · exact List.mem_filter.mpr
          ⟨hmem, decide_eq_true fun hn : name = n => hund (congrArg some hn.symm)⟩
  | putenv string =>
    have hname := hund.2
    unfold putenvName at hname
    dsimp only [call]
    split
    · exact hmem
    · split
      · rename_i n value hsplit
        rw [hsplit] at hname
        split
        · exact hmem
        · apply List.mem_append_left
          exact mem_unbind_ne hmem (Ne.symm hname) (Ne.symm hund.1)
      · rename_i hsplit
        rw [hsplit] at hname
        split
        · exact hmem
        · have hkept := mem_unbind_ne hmem (Ne.symm hname) (Ne.symm hund.1)
          exact hkept
  | clearenv => exact hund.elim
  | getenv n =>
    cases n with
    | none => exact hmem
    | some n =>
      dsimp only [call]
      split
      · exact hmem
      · exact hsettle n fun hn => hlook (congrArg some hn)
  | write address byte => exact hmem

/-- The replies of a history on the store. -/
def replies : EnvStore → List EnvCall → List EnvReply
  | _, [] => []
  | st, c :: calls => (st.call c).1 :: replies (st.call c).2 calls

end EnvStore

namespace EnvState

section

variable {h : Host} {s : EnvState} {st : EnvStore}

/-- The names of the aliases are distinct, so an alias is the one its name has. -/
theorem Refines.aliasFor_of_mem (hs : Refines h s st) {entry : PutEnvAlias}
    (hmem : entry ∈ st.aliases) : st.aliasFor entry.name = some entry := by
  have hsome : (st.aliasFor entry.name).isSome :=
    List.find?_isSome.mpr ⟨entry, hmem, decide_eq_true rfl⟩
  cases hfor : st.aliasFor entry.name with
  | none => rw [hfor] at hsome; cases hsome
  | some other =>
    have hnames := hs.inv.aliasNames
    rw [hs.aliases] at hnames
    exact congrArg some (List.inj_on_of_nodup_map hnames (EnvStore.mem_of_aliasFor hfor) hmem
      (EnvStore.aliasFor_name hfor))

/-- What a history replies depends on the store only. -/
theorem Refines.replies (hs : Refines h s st) (calls : List EnvCall) :
    s.replies h calls = st.replies calls := by
  induction calls generalizing s st with
  | nil => rfl
  | cons c calls ih =>
    have hcall := hs.call c
    rw [EnvState.replies, EnvStore.replies, hcall.1, ih hcall.2]

theorem Refines.after (hs : Refines h s st) (calls : List EnvCall) :
    ∃ st', Refines h (s.after h calls) st' := by
  induction calls generalizing s st with
  | nil => exact ⟨st, hs⟩
  | cons c calls ih => exact ih (hs.call c).2

theorem Refines.lookup_valid (hs : Refines h s st) {name : List UInt8} (hname : ValidName name) :
    s.lookup h name = st.value name := (hs.getenv hname).1

end

/-- One call, as a step. -/
def callStep (h : Host) (s : EnvState) (c : EnvCall) : Option EnvState := some (s.call h c).2

/-- A `putenv` of the buffer succeeds and binds the name. -/
def Binds (s : EnvState) (buffer : Nat) (name : List UInt8) : Prop :=
  buffer ≠ 0 ∧ ValidName name ∧ putenvName (cString s.mem buffer) = name ∧
    (splitAtEqual (cString s.mem buffer)).isSome

instance (s : EnvState) (buffer : Nat) (name : List UInt8) : Decidable (s.Binds buffer name) :=
  inferInstanceAs (Decidable (_ ∧ _ ∧ _ ∧ _))

/-- An extra call that a history does not notice: a `getenv` of a name that has no alias, or one
whose buffer reads `NAME=`; or a `setenv` without overwriting of a name that has a value. -/
def Unnoticed (h : Host) (s : EnvState) : EnvCall → Prop
  | .getenv (some name) => ∀ entry ∈ s.aliases, entry.name = name →
      BeginsWith s.mem entry.entryAddr name
  | .getenv none => True
  | .setenv (some name) _ overwrite => overwrite = 0 ∧ (s.lookup h name).isSome
  | _ => False

instance (h : Host) (s : EnvState) : (c : EnvCall) → Decidable (s.Unnoticed h c)
  | .getenv (some name) => inferInstanceAs (Decidable (∀ entry ∈ s.aliases,
      entry.name = name → BeginsWith s.mem entry.entryAddr name))
  | .getenv none => .isTrue trivial
  | .setenv (some _) _ _ => inferInstanceAs (Decidable (_ ∧ _))
  | .setenv none _ _ | .unsetenv _ | .putenv _ | .clearenv | .write _ _ => .isFalse id

section

variable {h : Host} {s : EnvState} {st : EnvStore}

theorem Refines.unnoticed (hs : Refines h s st) {c : EnvCall} (hun : s.Unnoticed h c) :
    (st.call c).2 = st := by
  cases c with
  | setenv name value overwrite =>
    cases name with
    | none => exact hun.elim
    | some name =>
      cases value with
      | none => rfl
      | some value =>
        dsimp only [EnvStore.call]
        by_cases hname : ValidName name
        · have hsome := hun.2
          rw [hs.lookup_valid hname] at hsome
          rw [if_neg (not_not.mpr hname), if_pos hun.1, if_pos hsome]
          exact EnvStore.settle_of_value hsome
        · rw [if_pos hname]
  | getenv name =>
    cases name with
    | none => rfl
    | some name =>
      dsimp only [EnvStore.call]
      split
      · rfl
      · apply EnvStore.settle_of_not_stale
        intro hstale
        cases hstale.exists_alias with
        | intro entry hentry =>
          rw [← hs.aliases, ← hs.mem] at hentry
          exact hentry.2.2 (hun entry hentry.1 hentry.2.1)
  | unsetenv name => exact hun.elim
  | putenv string => exact hun.elim
  | clearenv => exact hun.elim
  | write address byte => exact hun.elim

/-- The binding of a name lasts through a history that leaves it alone. -/
theorem Refines.alias_lasts {buffer : Nat} {name : List UInt8} (hs : Refines h s st)
    (hmem : (⟨name, buffer⟩ : PutEnvAlias) ∈ st.aliases) {calls : List EnvCall}
    (hcalls : Lts.EachStep (callStep h) (fun t c => Undisturbed t.mem buffer name c ∧
      (LooksUp name c → BeginsWith t.mem buffer name)) s calls) :
    ∃ st', Refines h (s.after h calls) st' ∧ (⟨name, buffer⟩ : PutEnvAlias) ∈ st'.aliases := by
  induction calls generalizing s st with
  | nil => exact ⟨st, hs, hmem⟩
  | cons c calls ih =>
    have hstep := hcalls _ rfl
    dsimp only at hstep
    have hfor : st.aliasFor name = some ⟨name, buffer⟩ := hs.aliasFor_of_mem hmem
    rw [hs.mem] at hstep
    exact ih (hs.call c).2 (EnvStore.call_keeps_alias hfor hstep.1.1 hstep.1.2) hstep.2

theorem Refines.putenv_binds (hs : Refines h s st) {buffer : Nat} {name : List UInt8}
    (hbinds : s.Binds buffer name) :
    ∃ st', Refines h (s.putenv h buffer).2 st' ∧
      (⟨name, buffer⟩ : PutEnvAlias) ∈ st'.aliases := by
  have hname := hbinds.2.2.1
  have hsome := hbinds.2.2.2
  unfold putenvName at hname
  rw [hs.mem] at hname hsome
  cases hsplit : splitAtEqual (cString st.mem buffer) with
  | none => rw [hsplit] at hsome; cases hsome
  | some p =>
    rw [hsplit] at hname
    change p.1 = name at hname
    have hvalid : ValidName p.1 := hname ▸ hbinds.2.1
    have hput := hs.putenv_bind hbinds.1 hsplit hvalid
    rw [hname] at hput
    exact ⟨_, hput.2.refines, List.mem_append_right _ List.mem_cons_self⟩

end

/-- **Histories of a buffer.**  After a `putenv` that binds the name, a history that leaves name
and buffer alone, and looks the name up only while the buffer reads `NAME=`, ends with `getenv`
reading the buffer whenever it reads `NAME=` then.  And a call that is `Unnoticed` where it is
made changes no later reply. -/
theorem putenv_history (h : Host) (mem : Mem) (errno : Int) (before : List EnvCall) :
    let s := (initial h mem errno).after h before
    (∀ buffer name calls, s.Binds buffer name →
      Lts.EachStep (callStep h) (fun t c => Undisturbed t.mem buffer name c ∧
        (LooksUp name c → BeginsWith t.mem buffer name)) (s.putenv h buffer).2 calls →
      let t := (s.putenv h buffer).2.after h calls
      BeginsWith t.mem buffer name →
        t.lookup h name = some (cString t.mem (buffer + (name.length + 1)))) ∧
    ∀ c calls, s.Unnoticed h c → (s.call h c).2.replies h calls = s.replies h calls := by
  intro s
  cases (initial_refines h mem errno).after before with
  | intro st hs =>
    apply And.intro
    · intro buffer name calls hbinds hcalls t hbegins
      cases hs.putenv_binds hbinds with
      | intro st1 h1 =>
        cases h1.1.alias_lasts h1.2 hcalls with
        | intro st2 h2 =>
          have hfor : st2.aliasFor name = some ⟨name, buffer⟩ := h2.1.aliasFor_of_mem h2.2
          have hmem : t.mem = st2.mem := h2.1.mem
          rw [h2.1.lookup_valid hbinds.2.1, hmem]
          rw [hmem] at hbegins
          exact EnvStore.value_of_bound hfor hbegins
    · intro c calls hun
      have hcall := hs.call c
      rw [hs.unnoticed hun] at hcall
      rw [hcall.2.replies, hs.replies]

/-- The buffer `N=v` at address 8 is given to `putenv` and its value overwritten with `w`. -/
theorem putenv_history_run :
    let h : Host := ⟨some [], none, []⟩
    let mem : Mem := fun a =>
      if a = 8 then 78 else if a = 9 then 61 else if a = 10 then 118 else 0
    let t := (((initial h mem 0).after h []).putenv h 8).2.after h
      [.write 10 119, .getenv (some [78])]
    t.lookup h [78] = some (cString t.mem (8 + ([78].length + 1))) ∧
      (((initial h mem 0).after h [.putenv 8]).call h (.getenv (some [78]))).2.replies h
          [.write 10 119, .getenv (some [78])] =
        ((initial h mem 0).after h [.putenv 8]).replies h [.write 10 119, .getenv (some [78])] :=
  ⟨(putenv_history _ _ 0 []).1 8 [78] [.write 10 119, .getenv (some [78])]
      (by decide +kernel) (by decide +kernel) (by decide +kernel),
    (putenv_history _ _ 0 [.putenv 8]).2 (.getenv (some [78])) _ (by decide +kernel)⟩

/-- The buffer `N=v` at address 8 is given to `putenv`, renamed, looked up and named `N` again:
then `getenv` does not find it any more. -/
theorem renamed_buffer_forgotten : ¬ ∀ (h : Host) (mem : Mem) (errno : Int) (before : List EnvCall)
    (buffer : Nat) (name : List UInt8) (calls : List EnvCall),
    let s := (initial h mem errno).after h before
    s.Binds buffer name →
    Lts.EachStep (callStep h) (fun t c => Undisturbed t.mem buffer name c)
      (s.putenv h buffer).2 calls →
    let t := (s.putenv h buffer).2.after h calls
    BeginsWith t.mem buffer name →
      t.lookup h name = some (cString t.mem (buffer + (name.length + 1))) := by
  intro hall
  have hfound := hall ⟨some [], none, []⟩
    (fun a => if a = 8 then 78 else if a = 9 then 61 else if a = 10 then 118 else 0) 0 [] 8 [78]
    [.write 8 77, .getenv (some [78]), .write 8 78]
    (by decide +kernel) (by decide +kernel) (by decide +kernel)
  exact absurd hfound (by decide +kernel)

end EnvState

end Rlibc.Stdlib
