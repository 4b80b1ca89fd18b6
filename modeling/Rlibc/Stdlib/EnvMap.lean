import Rlibc.Foundations.Lts
import Rlibc.Stdlib.EnvSimulation

/-!
# The environment is a map from names to values

The reference is a map, with the memory of the caller.  Along every history in which no write
goes into a buffer that `putenv` still aliases, the value `getenv` finds for a name is the
reference's, and the calls change what they are asked to change and nothing else.
-/

namespace Rlibc.Stdlib

open ByteMem

/-! ## Buffers and their values -/

theorem parseAliasValuePtr_eq_some {m : Mem} {cursor : Nat} {name : List UInt8} {value : Nat} :
    EnvState.parseAliasValuePtr m cursor name = some value ↔
      HoldsAt m cursor (name ++ [equalSign]) ∧ value = cursor + (name.length + 1) := by
  induction name generalizing cursor with
  | nil =>
    unfold EnvState.parseAliasValuePtr
    simp [HoldsAt, eq_comm]
  | cons c cs ih =>
    have hlen : cursor + ((c :: cs).length + 1) = cursor + 1 + (cs.length + 1) := by
      rw [List.length_cons]
      omega
    unfold EnvState.parseAliasValuePtr
    rw [List.cons_append, HoldsAt, hlen, and_assoc, ← ih]
    split
    · rename_i hc
      rw [and_iff_right hc]
    · rename_i hc
      constructor
      · intro h
        exact absurd h.symm (Option.some_ne_none value)
      · intro h
        exact absurd h.1 hc

/-- The buffer reads `NAME=value`. -/
def Reads (m : Mem) (address : Nat) (name value : List UInt8) : Prop :=
  cString m address = name ++ equalSign :: value

theorem Reads.split {m : Mem} {address : Nat} {name value : List UInt8}
    (h : Reads m address name value) (hname : equalSign ∉ name) :
    splitAtEqual (cString m address) = some (name, value) :=
  (congrArg splitAtEqual h).trans (splitAtEqual_append hname)

theorem Reads.holdsAt {m : Mem} {address : Nat} {name value : List UInt8}
    (h : Reads m address name value) : HoldsAt m address (name ++ [equalSign]) := by
  have hall : HoldsAt m address (cString m address) := holdsAt_untilNul m _ address
  rw [h, show name ++ equalSign :: value = (name ++ [equalSign]) ++ value by simp,
    holdsAt_append] at hall
  exact hall.1

/-- The string that starts after `NAME=` is the value. -/
theorem Reads.value {m : Mem} {address : Nat} {name value : List UInt8}
    (h : Reads m address name value) : cString m (address + (name.length + 1)) = value := by
  have hlen : (cString m address).length = name.length + (value.length + 1) := by
    rw [h, List.length_append, List.length_cons]
  have hdrop := untilNul_drop (m := m) (n := 0x10000000000000000 - address) (a := address)
    (k := name.length + 1) (by
      show name.length + 1 ≤ (cString m address).length
      omega)
  unfold cString
  rw [← Nat.sub_sub, hdrop]
  show (cString m address).drop (name.length + 1) = value
  rw [h, List.drop_append]
  simp

/-- A write outside the string and its NUL leaves the string. -/
theorem cString_store {m : Mem} {a address : Nat} {v : UInt8}
    (h : a < address ∨ address + (cString m address).length < a) :
    cString (store m a v) address = cString m address := by
  apply untilNul_congr
  intro i hi _
  apply store_ne
  change i ≤ (cString m address).length at hi
  omega

namespace EnvStore

/-! ## Values of a store without stale aliases -/

/-- Every alias leads to a buffer that reads `NAME=` still. -/
def Settled (st : EnvStore) : Prop :=
  ∀ entry ∈ st.aliases, ValidName entry.name ∧
    ∃ value, Reads st.mem entry.entryAddr entry.name value

/-- The value an alias gives its name. -/
def textValue (st : EnvStore) (entry : PutEnvAlias) : List UInt8 :=
  (cString st.mem entry.entryAddr).drop (entry.name.length + 1)

/-- The value of a name, when no alias is stale. -/
def settledValue (st : EnvStore) (name : List UInt8) : Option (List UInt8) :=
  match st.aliasFor name with
  | some entry => some (st.textValue entry)
  | none => entryValue st.entries name

theorem Settled.not_stale {st : EnvStore} (hs : st.Settled) (name : List UInt8) :
    ¬ st.Stale name := by
  intro hstale
  cases hfor : st.aliasFor name with
  | none => exact not_stale_of_none hfor hstale
  | some entry =>
    cases (hs entry (mem_of_aliasFor hfor)).2 with
    | intro value hreads =>
      have hparse := parseAliasValuePtr_eq_some.mpr ⟨hreads.holdsAt, rfl⟩
      have hvalue := aliasValue_of_some hfor
      rw [← aliasFor_name hfor, hparse] at hvalue
      rw [aliasFor_name hfor] at hvalue
      exact nomatch hvalue.symm.trans hstale.2

theorem Settled.settle {st : EnvStore} (hs : st.Settled) (name : List UInt8) :
    st.settle name = st := settle_of_not_stale (hs.not_stale name)

theorem Settled.value_eq {st : EnvStore} (hs : st.Settled) (name : List UInt8) :
    st.value name = st.settledValue name := by
  unfold value settledValue
  rw [hs.settle name]
  cases hfor : st.aliasFor name with
  | none => rw [aliasValue_of_none hfor]
  | some entry =>
    cases (hs entry (mem_of_aliasFor hfor)).2 with
    | intro value hreads =>
      have hparse := parseAliasValuePtr_eq_some.mpr ⟨hreads.holdsAt, rfl⟩
      rw [aliasValue_of_some hfor, ← aliasFor_name hfor, hparse]
      unfold textValue
      dsimp only
      rw [hreads.value, hreads, List.drop_append]
      simp

theorem aliasFor_filter_self (st : EnvStore) (name : List UInt8) (aliases : List PutEnvAlias) :
    aliasFor { st with aliases := aliases.filter fun entry => entry.name ≠ name } name = none := by
  unfold aliasFor
  rw [List.find?_eq_none]
  intro entry hmem
  simpa using (List.mem_filter.mp hmem).2

theorem aliasFor_filter_ne {st : EnvStore} {name other : List UInt8} (hne : other ≠ name) :
    aliasFor { st with aliases := st.aliases.filter fun entry => entry.name ≠ name } other =
      st.aliasFor other := by
  unfold aliasFor
  rw [List.find?_filter]
  congr 1
  funext entry
  rw [Bool.eq_iff_iff]
  simp only [decide_eq_true_eq]
  exact ⟨fun h => h.2, fun h => ⟨h ▸ hne, h⟩⟩

/-! ### Forgetting a name -/

theorem Settled.dropName {st : EnvStore} (hs : st.Settled) (name : List UInt8) :
    (st.dropName name).Settled := fun entry hmem =>
  hs entry (List.mem_of_mem_filter hmem)

theorem settledValue_dropName_self (st : EnvStore) (name : List UInt8) :
    (st.dropName name).settledValue name = none := by
  have hfor : (st.dropName name).aliasFor name = none := st.aliasFor_filter_self name st.aliases
  unfold settledValue
  rw [hfor]
  exact entryValue_removeEntries_self st.entries name

theorem settledValue_dropName_ne {st : EnvStore} {name other : List UInt8} (hne : other ≠ name) :
    (st.dropName name).settledValue other = st.settledValue other := by
  have hfor : (st.dropName name).aliasFor other = st.aliasFor other := aliasFor_filter_ne hne
  unfold settledValue
  rw [hfor]
  cases st.aliasFor other with
  | none => exact entryValue_removeEntries_ne hne st.entries
  | some entry => rfl

/-! ### Giving a name a value of its own -/

theorem Settled.setOwn {st : EnvStore} (hs : st.Settled) (name value : List UInt8) :
    (st.setOwn name value).Settled := fun entry hmem =>
  hs entry (List.mem_of_mem_filter hmem)

theorem settledValue_setOwn_self (st : EnvStore) {name : List UInt8} (hname : ValidName name)
    (value : List UInt8) : (st.setOwn name value).settledValue name = some value := by
  have hfor : (st.setOwn name value).aliasFor name = none :=
    st.aliasFor_filter_self name st.aliases
  unfold settledValue
  rw [hfor]
  exact entryValue_setEntry_self hname st.entries

theorem settledValue_setOwn_ne {st : EnvStore} {name other : List UInt8} (hname : ValidName name)
    (hne : other ≠ name) (value : List UInt8) :
    (st.setOwn name value).settledValue other = st.settledValue other := by
  have hfor : (st.setOwn name value).aliasFor other = st.aliasFor other := aliasFor_filter_ne hne
  unfold settledValue
  rw [hfor]
  cases st.aliasFor other with
  | none => exact entryValue_setEntry_ne hname hne st.entries
  | some entry => rfl

/-! ### Binding a name to a buffer -/

/-- While no alias is stale, the aliases at an address have the name that its buffer reads. -/
theorem Settled.name_at {st : EnvStore} (hs : st.Settled) {entry : PutEnvAlias}
    (hmem : entry ∈ st.aliases) :
    ∃ value, splitAtEqual (cString st.mem entry.entryAddr) = some (entry.name, value) := by
  have hentry := hs entry hmem
  cases hentry.2 with
  | intro value hreads => exact ⟨value, hreads.split hentry.1.2⟩

theorem Settled.namesAt_eq_nil {st : EnvStore} (hs : st.Settled) {name : List UInt8}
    {string : Nat} (hstring : ∀ other value,
      splitAtEqual (cString st.mem string) = some (other, value) → other = name) :
    st.namesAt name string = [] := by
  unfold namesAt
  rw [List.map_eq_nil_iff, List.filter_eq_nil_iff]
  intro entry hmem hsame
  have hsame := of_decide_eq_true hsame
  cases hs.name_at hmem with
  | intro value hsplit =>
    rw [hsame.2] at hsplit
    exact hsame.1 (hstring _ _ hsplit)

/-- Then only aliases for the name itself are given up. -/
theorem Settled.kept_eq {st : EnvStore} (hs : st.Settled) {name : List UInt8}
    {string : Nat} (hstring : ∀ other value,
      splitAtEqual (cString st.mem string) = some (other, value) → other = name) :
    (st.aliases.filter fun entry => ¬ (entry.name = name ∨ entry.entryAddr = string)) =
      st.aliases.filter fun entry => entry.name ≠ name := by
  apply List.filter_congr
  intro entry hmem
  apply decide_eq_decide.mpr
  constructor
  · exact fun hno hname => hno (Or.inl hname)
  · intro hname hor
    cases hor with
    | inl hsame => exact hname hsame
    | inr haddr =>
      cases hs.name_at hmem with
      | intro value hsplit =>
        rw [haddr] at hsplit
        exact hname (hstring _ _ hsplit)

theorem filter_namesAt_nil {entries : List (List UInt8)} {names : List (List UInt8)}
    (h : names = []) :
    (entries.filter fun entry => ∀ other ∈ names, ¬ envEntryHasName entry other) = entries := by
  rw [h]
  exact List.filter_eq_self.mpr fun entry _ => decide_eq_true fun _ hmem => nomatch hmem

theorem Settled.bind_eq {st : EnvStore} (hs : st.Settled) {name value : List UInt8}
    {string : Nat} (hsplit : splitAtEqual (cString st.mem string) = some (name, value)) :
    st.bind name value string =
      { st.setOwn name value with
        aliases := (st.setOwn name value).aliases ++ [⟨name, string⟩] } := by
  have hstring : ∀ other value', splitAtEqual (cString st.mem string) = some (other, value') →
      other = name := by
    intro other value' hother
    cases hsplit.symm.trans hother
    rfl
  unfold bind unbind
  dsimp only
  rw [filter_namesAt_nil (hs.namesAt_eq_nil hstring), hs.kept_eq hstring]
  rfl

theorem Settled.unbind_eq {st : EnvStore} (hs : st.Settled) {string : Nat}
    (hsplit : splitAtEqual (cString st.mem string) = none) (name : List UInt8) :
    { st with entries := removeEntries st.entries name }.unbind name string =
      st.dropName name := by
  have hstring : ∀ other value', splitAtEqual (cString st.mem string) = some (other, value') →
      other = name := fun other value' hother => nomatch hsplit.symm.trans hother
  have hnames : { st with entries := removeEntries st.entries name }.namesAt name string = [] :=
    hs.namesAt_eq_nil hstring
  unfold unbind EnvStore.dropName
  rw [filter_namesAt_nil hnames, hs.kept_eq hstring]

theorem Settled.bind {st : EnvStore} (hs : st.Settled) {name value : List UInt8} {string : Nat}
    (hname : ValidName name)
    (hsplit : splitAtEqual (cString st.mem string) = some (name, value)) :
    (st.bind name value string).Settled := by
  rw [hs.bind_eq hsplit]
  intro entry hmem
  rw [List.mem_append, List.mem_singleton] at hmem
  cases hmem with
  | inl hold => exact hs.setOwn name value entry hold
  | inr hnew =>
    rw [hnew]
    exact ⟨hname, value, (splitAtEqual_eq_some hsplit).1⟩

theorem aliasFor_append_new (st : EnvStore) {name other : List UInt8} {string : Nat} :
    aliasFor { st with aliases := st.aliases ++ [⟨name, string⟩] } other =
      (st.aliasFor other).or (if name = other then some ⟨name, string⟩ else none) := by
  unfold aliasFor
  rw [List.find?_append, List.find?_singleton]
  by_cases hname : name = other
  · rw [if_pos hname, if_pos (decide_eq_true hname)]
  · rw [if_neg hname, if_neg (by simpa using hname)]

theorem Settled.settledValue_bind_self {st : EnvStore} (hs : st.Settled)
    {name value : List UInt8} {string : Nat}
    (hsplit : splitAtEqual (cString st.mem string) = some (name, value)) :
    (st.bind name value string).settledValue name = some value := by
  have hnone : (st.setOwn name value).aliasFor name = none :=
    st.aliasFor_filter_self name st.aliases
  rw [hs.bind_eq hsplit]
  unfold settledValue
  rw [aliasFor_append_new, hnone, Option.none_or, if_pos rfl]
  unfold textValue
  show some ((cString st.mem string).drop (name.length + 1)) = some value
  rw [(splitAtEqual_eq_some hsplit).1, List.drop_append]
  simp

theorem Settled.settledValue_bind_ne {st : EnvStore} (hs : st.Settled)
    {name other value : List UInt8} {string : Nat} (hname : ValidName name) (hne : other ≠ name)
    (hsplit : splitAtEqual (cString st.mem string) = some (name, value)) :
    (st.bind name value string).settledValue other = st.settledValue other := by
  have hother : (st.setOwn name value).settledValue other = st.settledValue other :=
    settledValue_setOwn_ne hname hne value
  rw [hs.bind_eq hsplit, ← hother]
  unfold settledValue
  rw [aliasFor_append_new, if_neg (Ne.symm hne), Option.or_none]
  rfl

/-- A failing call leaves the store as it is. -/
theorem call_failed {st : EnvStore} {c : EnvCall} (hfail : (st.call c).1 = .code (-1)) :
    (st.call c).2 = st := by
  have hzero : EnvReply.code 0 ≠ .code (-1) := by decide
  revert hfail
  fun_cases EnvStore.call st c
  all_goals first
    | exact fun _ => rfl
    | exact fun h => absurd h hzero
    | exact fun h => nomatch h

end EnvStore

/-! ## The reference -/

/-- The reference: a map from names to values, and the memory of the caller. -/
structure Reference where
  mem : Mem
  map : List UInt8 → Option (List UInt8)

namespace Reference

/-- The map that the first entry for each name gives. -/
def initial (h : Host) (mem : Mem) : Reference := ⟨mem, entryValue h.initialEntries⟩

def set (r : Reference) (name : List UInt8) (value : Option (List UInt8)) : Reference :=
  { r with map := fun other => if other = name then value else r.map other }

@[simp] theorem set_self (r : Reference) (name : List UInt8) (value : Option (List UInt8)) :
    (r.set name value).map name = value := if_pos rfl

theorem set_ne (r : Reference) {name other : List UInt8} (hne : other ≠ name)
    (value : Option (List UInt8)) : (r.set name value).map other = r.map other := if_neg hne

/-- What a call does to the map; a call with a null, empty or `=`-containing name does nothing. -/
def call (r : Reference) : EnvCall → Reference
  | .setenv (some name) (some value) overwrite =>
    if ValidName name ∧ (overwrite ≠ 0 ∨ r.map name = none) then r.set name (some value) else r
  | .unsetenv (some name) => if ValidName name then r.set name none else r
  | .putenv string =>
    if string = 0 then r
    else
      match splitAtEqual (cString r.mem string) with
      | some (name, value) => if ValidName name then r.set name (some value) else r
      | none =>
        if ValidName (cString r.mem string) then r.set (cString r.mem string) none else r
  | .clearenv => { r with map := fun _ => none }
  | .write address byte => { r with mem := store r.mem address byte }
  | _ => r

theorem call_setenv_ne (r : Reference) {name other : List UInt8} (hne : other ≠ name)
    (value : Option (List UInt8)) (overwrite : Int) :
    (r.call (.setenv (some name) value overwrite)).map other = r.map other := by
  cases value with
  | none => rfl
  | some value =>
    unfold call
    dsimp only
    split
    · exact r.set_ne hne _
    · rfl

theorem call_unsetenv_ne (r : Reference) {name other : List UInt8} (hne : other ≠ name) :
    (r.call (.unsetenv (some name))).map other = r.map other := by
  unfold call
  dsimp only
  split
  · exact r.set_ne hne _
  · rfl

end Reference

/-- The caller writes to no aliased buffer: neither to its string nor to the NUL. -/
def KeepsBuffers (m : Mem) (aliases : List PutEnvAlias) : EnvCall → Prop
  | .write address _ => ∀ entry ∈ aliases,
    address < entry.entryAddr ∨ entry.entryAddr + (cString m entry.entryAddr).length < address
  | _ => True

instance (m : Mem) (aliases : List PutEnvAlias) : (c : EnvCall) →
    Decidable (KeepsBuffers m aliases c)
  | .write _ _ => inferInstanceAs (Decidable (∀ entry ∈ aliases, _ ∨ _))
  | .setenv _ _ _ | .unsetenv _ | .putenv _ | .clearenv | .getenv _ => .isTrue trivial

namespace EnvStore

/-- The store has no stale alias and gives every name the value the reference gives it. -/
structure Tracks (st : EnvStore) (r : Reference) : Prop where
  settled : st.Settled
  mem : st.mem = r.mem
  values : ∀ name, st.settledValue name = r.map name

theorem Tracks.dropName {st : EnvStore} {r : Reference} (ht : st.Tracks r) (name : List UInt8) :
    (st.dropName name).Tracks (r.set name none) where
  settled := ht.settled.dropName name
  mem := ht.mem
  values := by
    intro other
    by_cases hsame : other = name
    · rw [hsame, settledValue_dropName_self, Reference.set_self]
    · rw [settledValue_dropName_ne hsame, Reference.set_ne r hsame, ht.values]

theorem Tracks.setOwn {st : EnvStore} {r : Reference} (ht : st.Tracks r) {name : List UInt8}
    (hname : ValidName name) (value : List UInt8) :
    (st.setOwn name value).Tracks (r.set name (some value)) where
  settled := ht.settled.setOwn name value
  mem := ht.mem
  values := by
    intro other
    by_cases hsame : other = name
    · rw [hsame, settledValue_setOwn_self st hname, Reference.set_self]
    · rw [settledValue_setOwn_ne hname hsame, Reference.set_ne r hsame, ht.values]

theorem Tracks.bind {st : EnvStore} {r : Reference} (ht : st.Tracks r) {name value : List UInt8}
    {string : Nat} (hname : ValidName name)
    (hsplit : splitAtEqual (cString st.mem string) = some (name, value)) :
    (st.bind name value string).Tracks (r.set name (some value)) where
  settled := ht.settled.bind hname hsplit
  mem := ht.mem
  values := by
    intro other
    by_cases hsame : other = name
    · rw [hsame, ht.settled.settledValue_bind_self hsplit, Reference.set_self]
    · rw [ht.settled.settledValue_bind_ne hname hsame hsplit, Reference.set_ne r hsame, ht.values]

/-- A write that keeps the buffers keeps their strings. -/
theorem cString_write {st : EnvStore} {address : Nat} {byte : UInt8}
    (hkeep : KeepsBuffers st.mem st.aliases (.write address byte)) {entry : PutEnvAlias}
    (hmem : entry ∈ st.aliases) :
    cString (store st.mem address byte) entry.entryAddr = cString st.mem entry.entryAddr :=
  cString_store (hkeep entry hmem)

theorem Tracks.write {st : EnvStore} {r : Reference} (ht : st.Tracks r) {address : Nat}
    {byte : UInt8} (hkeep : KeepsBuffers st.mem st.aliases (.write address byte)) :
    { st with mem := store st.mem address byte }.Tracks
      { r with mem := store r.mem address byte } where
  settled := by
    intro entry hmem
    unfold Reads
    rw [cString_write hkeep hmem]
    exact ht.settled entry hmem
  mem := by rw [ht.mem]
  values := by
    intro name
    rw [← ht.values name]
    have hfor' : aliasFor { st with mem := store st.mem address byte } name = st.aliasFor name :=
      rfl
    unfold settledValue
    rw [hfor']
    cases hfor : st.aliasFor name with
    | none => rfl
    | some entry =>
      unfold textValue
      dsimp only
      rw [cString_write hkeep (mem_of_aliasFor hfor)]

/-- **One call.**  The store keeps giving every name the reference's value. -/
theorem Tracks.call {st : EnvStore} {r : Reference} (ht : st.Tracks r) {c : EnvCall}
    (hkeep : KeepsBuffers st.mem st.aliases c) : (st.call c).2.Tracks (r.call c) := by
  cases c with
  | setenv name value overwrite =>
    cases name with
    | none => exact ht
    | some name =>
      cases value with
      | none => exact ht
      | some value =>
        unfold EnvStore.call Reference.call
        dsimp only
        rw [ht.settled.settle, ht.settled.value_eq, ht.values]
        by_cases hname : ValidName name
        · rw [if_neg (not_not.mpr hname)]
          -- Without `overwrite` the value is set only where the map has none.
          by_cases hover : overwrite = 0
          · rw [if_pos hover]
            cases hmap : r.map name with
            | some old =>
              have hstays : ¬ (ValidName name ∧ (overwrite ≠ 0 ∨ some old = none)) := fun hno =>
                hno.2.elim (fun h => h hover) (fun h => nomatch h)
              rw [Option.isSome_some, if_pos rfl, if_neg hstays]
              exact ht
            | none =>
              rw [Option.isSome_none, if_neg Bool.false_ne_true, if_pos ⟨hname, Or.inr rfl⟩]
              exact ht.setOwn hname value
          · rw [if_neg hover, if_pos ⟨hname, Or.inl hover⟩]
            exact ht.setOwn hname value
        · rw [if_pos hname, if_neg fun hno => hname hno.1]
          exact ht
  | unsetenv name =>
    cases name with
    | none => exact ht
    | some name =>
      unfold EnvStore.call Reference.call
      dsimp only
      by_cases hname : ValidName name
      · rw [if_neg (not_not.mpr hname), if_pos hname]
        exact ht.dropName name
      · rw [if_pos hname, if_neg hname]
        exact ht
  | putenv string =>
    unfold EnvStore.call Reference.call
    dsimp only
    rw [← ht.mem]
    by_cases hstring : string = 0
    · rw [if_pos hstring, if_pos hstring]
      exact ht
    · rw [if_neg hstring, if_neg hstring]
      -- A string with a `=` binds its name; one without removes it.
      cases hsplit : splitAtEqual (cString st.mem string) with
      | some p =>
        dsimp only
        by_cases hname : ValidName p.1
        · rw [if_neg (not_not.mpr hname), if_pos hname]
          exact ht.bind hname hsplit
        · rw [if_pos hname, if_neg hname]
          exact ht
      | none =>
        dsimp only
        by_cases hname : ValidName (cString st.mem string)
        · rw [if_neg (not_not.mpr hname), if_pos hname, ht.settled.unbind_eq hsplit]
          exact ht.dropName _
        · rw [if_pos hname, if_neg hname]
          exact ht
  | clearenv =>
    exact { settled := fun _ hmem => absurd hmem List.not_mem_nil, mem := ht.mem,
            values := fun _ => rfl }
  | getenv name =>
    cases name with
    | none => exact ht
    | some name =>
      unfold EnvStore.call Reference.call
      dsimp only
      rw [ht.settled.settle]
      split
      · exact ht
      · exact ht
  | write address byte => exact ht.write hkeep

end EnvStore

/-! ## The contract -/

namespace EnvState

/-- The string that `getenv(name)` leads to. -/
def lookup (h : Host) (s : EnvState) (name : List UInt8) : Option (List UInt8) :=
  (s.getenv h (some name)).1.bind ((s.getenv h (some name)).2.valueAt h)

/-- The strings of the vector that `environ` points to. -/
def publishedEntries (h : Host) (s : EnvState) : List (List UInt8) :=
  copyEntriesFromEnviron (s.read h) (s.vector h)

/-- What holds between a state and the reference after every history. -/
structure MapContract (h : Host) (s : EnvState) (r : Reference) : Prop where
  getenv_eq : ∀ name, s.lookup h name = if ValidName name then r.map name else none
  setenv_only : ∀ name value overwrite other, other ≠ name →
    (s.setenv h (some name) value overwrite).2.lookup h other = s.lookup h other
  unsetenv_only : ∀ name other, other ≠ name →
    (s.unsetenv h (some name)).2.lookup h other = s.lookup h other
  unsetenv_clears : ∀ name, ValidName name →
    ∀ entry ∈ (s.unsetenv h (some name)).2.publishedEntries h, ¬ envEntryHasName entry name
  clearenv_clears : (s.clearenv h).2.publishedEntries h = []
  setenv_one : ∀ name value overwrite, ValidName name → overwrite ≠ 0 →
    ((s.setenv h (some name) (some value) overwrite).2.publishedEntries h).filter
      (fun entry => envEntryHasName entry name) = [buildEnvEntry name value]
  failed_call : ∀ c, (s.call h c).1 = .code (-1) →
    ∀ name, (s.call h c).2.lookup h name = s.lookup h name
  /-- A null `environ` is the empty vector. -/
  vector_alive : s.environ = .null ∨ ∃ entries : List EntryPtr,
    s.vector h = entries.map some ++ [none] ∧ ∀ entry ∈ entries, (s.read h entry).isSome

section

variable {h : Host} {s : EnvState} {st : EnvStore} {r : Reference}

theorem Refines.lookup_eq (hs : Refines h s st) (ht : st.Tracks r) (name : List UInt8) :
    s.lookup h name = if ValidName name then r.map name else none := by
  by_cases hname : ValidName name
  · rw [if_pos hname, ← ht.values, ← ht.settled.value_eq]
    exact (hs.getenv hname).1
  · rw [if_neg hname]
    unfold EnvState.lookup
    rw [getenv_invalid hname]
    rfl

/-- A call that is not a write can be made with any buffers. -/
theorem Refines.lookup_call (hs : Refines h s st) (ht : st.Tracks r) {c : EnvCall}
    (hkeep : KeepsBuffers st.mem st.aliases c) (name : List UInt8) :
    (s.call h c).2.lookup h name = if ValidName name then (r.call c).map name else none :=
  (hs.call c).2.lookup_eq (ht.call hkeep) name

theorem Ready.publishedEntries (hs : Ready h s st) : s.publishedEntries h = st.entries := by
  by_cases hnull : s.environ = .null
  · cases hs.inv.published hs.initialized with
    | inl hempty =>
      rw [← hs.entries, hempty.1, EnvState.publishedEntries, vector, hnull]
      rfl
    | inr hpub => exact absurd (hnull.symm.trans hpub.2.1) (by decide)
  · exact copyEntriesFromEnviron_eq (hs.refines.represents hnull)

theorem Represents.alive {read : EntryPtr → Option (List UInt8)}
    {vector : List (Option EntryPtr)} {entries : List (List UInt8)}
    (hrep : Represents read vector entries) :
    ∃ ptrs : List EntryPtr, vector = ptrs.map some ++ [none] ∧
      ∀ entry ∈ ptrs, (read entry).isSome := by
  fun_induction Represents read vector entries with
  | case1 => exact ⟨[], rfl, fun _ hmem => absurd hmem List.not_mem_nil⟩
  | case2 entry rest bytes entries ih =>
    cases ih hrep.2 with
    | intro ptrs hptrs =>
      refine ⟨entry :: ptrs, congrArg (some entry :: ·) hptrs.1, ?_⟩
      intro e hmem
      cases List.mem_cons.mp hmem with
      | inl hhead => rw [hhead, hrep.1]; rfl
      | inr htail => exact hptrs.2 e htail
  | case3 => exact hrep.elim

theorem removeEntries_setEntry {name value : List UInt8} (hname : ValidName name)
    (entries : List (List UInt8)) :
    (setEntry name (buildEnvEntry name value) entries).filter
      (fun entry => envEntryHasName entry name) = [buildEnvEntry name value] := by
  have hnew : envEntryHasName (buildEnvEntry name value) name = true :=
    envEntryHasName_build hname
  induction entries with
  | nil => rw [setEntry, List.filter_cons, if_pos hnew, List.filter_nil]
  | cons entry entries ih =>
    unfold setEntry
    split
    · have hnone : (removeEntries entries name).filter (fun entry => envEntryHasName entry name) =
          [] := by
        rw [List.filter_eq_nil_iff]
        intro e hmem
        exact of_decide_eq_true (List.mem_filter.mp hmem).2
      rw [List.filter_cons, if_pos hnew, hnone]
    · rename_i hno
      rw [List.filter_cons, if_neg hno, ih]

theorem Refines.mapContract (hs : Refines h s st) (ht : st.Tracks r) : MapContract h s r where
  getenv_eq := hs.lookup_eq ht
  setenv_only := by
    intro name value overwrite other hne
    have hcall := hs.lookup_call ht (c := .setenv (some name) value overwrite)
      trivial other
    rw [Reference.call_setenv_ne r hne, ← hs.lookup_eq ht other] at hcall
    exact hcall
  unsetenv_only := by
    intro name other hne
    have hcall := hs.lookup_call ht (c := .unsetenv (some name)) trivial other
    rw [Reference.call_unsetenv_ne r hne, ← hs.lookup_eq ht other] at hcall
    exact hcall
  unsetenv_clears := by
    intro name hname entry hmem
    rw [(hs.unsetenv hname).2.publishedEntries] at hmem
    exact of_decide_eq_true (List.mem_filter.mp hmem).2
  clearenv_clears := hs.clearenv.2.publishedEntries
  setenv_one := by
    intro name value overwrite hname hover
    have hset := hs.setenv hname value overwrite
    rw [if_neg hover] at hset
    rw [hset.2.publishedEntries]
    exact removeEntries_setEntry hname st.entries
  failed_call := by
    intro c hfail name
    have hcall := hs.call c
    have hsame := EnvStore.call_failed (hcall.1.symm.trans hfail)
    rw [hs.lookup_eq ht]
    rw [hsame] at hcall
    exact hcall.2.lookup_eq ht name
  vector_alive := by
    by_cases hnull : s.environ = .null
    · exact Or.inl hnull
    · exact Or.inr (hs.represents hnull).alive

end

/-- The state and the reference, side by side. -/
def jointStep (h : Host) (p : EnvState × Reference) (c : EnvCall) : Option (EnvState × Reference) :=
  some ((p.1.call h c).2, p.2.call c)

/-- **The environment refines a map.**  From any startup vector, after every history of calls in
which no write goes into an aliased buffer, the state meets its contract with the reference. -/
theorem environ_refines_map (h : Host) (mem : Mem) (errno : Int) (calls : List EnvCall)
    (hkeep : Lts.EachStep (jointStep h) (fun p c => KeepsBuffers p.1.mem p.1.aliases c)
      (initial h mem errno, Reference.initial h mem) calls) :
    Lts.Always (jointStep h) (fun p => MapContract h p.1 p.2)
      (initial h mem errno, Reference.initial h mem) calls := by
  have htracks : EnvStore.Tracks ⟨mem, h.initialEntries, []⟩ (Reference.initial h mem) :=
    { settled := fun _ hmem => nomatch hmem
      mem := rfl
      values := fun _ => rfl }
  apply Lts.Always.imp (P := fun p => ∃ st, Refines h p.1 st ∧ st.Tracks p.2)
  · intro p hp
    cases hp with
    | intro st hst => exact hst.1.mapContract hst.2
  · refine Lts.always_of_eachStep ?_ ⟨_, initial_refines h mem errno, htracks⟩ hkeep
    intro p c p' hp hkept hstep
    cases hstep
    cases hp with
    | intro st hst =>
      have hbuffers : KeepsBuffers st.mem st.aliases c := by
        rw [← hst.1.mem, ← hst.1.aliases]
        exact hkept
      exact ⟨(st.call c).2, (hst.1.call c).2, hst.2.call hbuffers⟩

/-- A startup vector with two entries for `A` and one without a `=`; then `setenv` of `A`, a
`putenv` of the buffer `B=x` at address 8, and a write next to it. -/
theorem environ_refines_map_run :
    let h : Host := ⟨some [[65, 61, 49], [74], [65, 61, 50]], none, []⟩
    let mem : Mem := fun a => if a = 8 then 66 else if a = 9 then 61 else if a = 10 then 120 else 0
    Lts.Always (jointStep h) (fun p => MapContract h p.1 p.2)
      (initial h mem 0, Reference.initial h mem)
      [.setenv (some [65]) (some [51]) 1, .putenv 8, .write 13 1, .getenv (some [66])] :=
  environ_refines_map _ _ _ _ (by decide +kernel)

end EnvState

end Rlibc.Stdlib
