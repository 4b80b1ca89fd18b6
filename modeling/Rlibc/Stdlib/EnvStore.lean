import Rlibc.Stdlib.Environ

/-!
# The environment as one store

`EnvStore` is what the three stores of `EnvState` amount to: one list of entries, the aliases
over it, and the memory of the caller.  It knows no pointers, no snapshot that is made late and
no vector that has to be published again.  The last section proves that every call of
`EnvState` does on its store what the call of `EnvStore` does.
-/

namespace Rlibc.Stdlib

open ByteMem

/-! ## Entries -/

theorem splitAtEqual_append {name value : List UInt8} (hname : equalSign ∉ name) :
    splitAtEqual (name ++ equalSign :: value) = some (name, value) := by
  induction name with
  | nil => rfl
  | cons c cs ih =>
    rw [List.mem_cons, not_or] at hname
    rw [List.cons_append, splitAtEqual, if_neg (Ne.symm hname.1), ih hname.2]
    rfl

theorem splitAtEqual_eq_some {entry name value : List UInt8}
    (h : splitAtEqual entry = some (name, value)) :
    entry = name ++ equalSign :: value ∧ equalSign ∉ name := by
  induction entry generalizing name with
  | nil => exact absurd h (by simp [splitAtEqual])
  | cons c cs ih =>
    unfold splitAtEqual at h
    split at h
    · rename_i hc
      cases h
      exact ⟨hc ▸ rfl, List.not_mem_nil⟩
    · rename_i hc
      cases hcs : splitAtEqual cs with
      | none => rw [hcs] at h; cases h
      | some p =>
        rw [hcs] at h
        cases h
        have htail := ih hcs
        apply And.intro (congrArg (c :: ·) htail.1)
        rw [List.mem_cons, not_or]
        exact ⟨fun heq => hc heq.symm, htail.2⟩

/-- An entry has the name that stands before its first `=`. -/
theorem envEntryHasName_iff {entry name : List UInt8} :
    envEntryHasName entry name = true ↔ ∃ value, splitAtEqual entry = some (name, value) := by
  unfold envEntryHasName
  cases splitAtEqual entry with
  | none => simp
  | some p =>
    rw [decide_eq_true_eq]
    constructor
    · intro h
      exact ⟨p.2, by rw [← h]⟩
    · intro h
      cases h with
      | intro value hv => cases hv; rfl

theorem envEntryHasName_build {name value : List UInt8} (hname : ValidName name) :
    envEntryHasName (buildEnvEntry name value) name = true :=
  envEntryHasName_iff.mpr ⟨value, splitAtEqual_append hname.2⟩

/-- No entry has two names. -/
theorem envEntryHasName_unique {entry name name' : List UInt8}
    (h : envEntryHasName entry name = true) (h' : envEntryHasName entry name' = true) :
    name = name' := by
  cases envEntryHasName_iff.mp h with
  | intro value hv =>
    cases envEntryHasName_iff.mp h' with
    | intro value' hv' =>
      have hsame := hv.symm.trans hv'
      cases hsame
      rfl

/-- The value of the first entry for a name. -/
def entryValue (entries : List (List UInt8)) (name : List UInt8) : Option (List UInt8) :=
  (entries.find? fun entry => envEntryHasName entry name).map (·.drop (name.length + 1))

/-- The entries without those for a name. -/
def removeEntries (entries : List (List UInt8)) (name : List UInt8) : List (List UInt8) :=
  entries.filter fun entry => ¬ envEntryHasName entry name

/-- The entry `new` takes the place of the first entry for the name; the others go. -/
def setEntry (name new : List UInt8) : List (List UInt8) → List (List UInt8)
  | [] => [new]
  | entry :: rest =>
    if envEntryHasName entry name then new :: removeEntries rest name
    else entry :: setEntry name new rest

theorem entryValue_cons {entry name : List UInt8} {entries : List (List UInt8)} :
    entryValue (entry :: entries) name =
      if envEntryHasName entry name then some (entry.drop (name.length + 1))
      else entryValue entries name := by
  unfold entryValue
  rw [List.find?_cons]
  cases envEntryHasName entry name with
  | true => rfl
  | false => rfl

theorem entryValue_removeEntries_self (entries : List (List UInt8)) (name : List UInt8) :
    entryValue (removeEntries entries name) name = none := by
  unfold entryValue removeEntries
  rw [Option.map_eq_none_iff, List.find?_eq_none]
  intro entry hmem
  simpa using (List.mem_filter.mp hmem).2

theorem entryValue_removeEntries_ne {name name' : List UInt8} (hne : name' ≠ name)
    (entries : List (List UInt8)) :
    entryValue (removeEntries entries name) name' = entryValue entries name' := by
  induction entries with
  | nil => rfl
  | cons entry entries ih =>
    rw [entryValue_cons, ← ih]
    unfold removeEntries
    rw [List.filter_cons]
    by_cases hname : envEntryHasName entry name = true
    · -- The entry goes, but it never was one for the other name.
      have hother : ¬ envEntryHasName entry name' = true := fun h =>
        hne (envEntryHasName_unique h hname)
      rw [if_neg (by simpa using hname), if_neg hother]
    · rw [if_pos (by simpa using hname), entryValue_cons]

theorem entryValue_setEntry_self {name value : List UInt8} (hname : ValidName name)
    (entries : List (List UInt8)) :
    entryValue (setEntry name (buildEnvEntry name value) entries) name = some value := by
  have hvalue : (buildEnvEntry name value).drop (name.length + 1) = value := by
    unfold buildEnvEntry
    rw [List.drop_append]
    simp
  induction entries with
  | nil => rw [setEntry, entryValue_cons, if_pos (envEntryHasName_build hname), hvalue]
  | cons entry entries ih =>
    unfold setEntry
    split
    · rw [entryValue_cons, if_pos (envEntryHasName_build hname), hvalue]
    · rename_i hno
      rw [entryValue_cons, if_neg hno, ih]

theorem entryValue_setEntry_ne {name name' value : List UInt8} (hname : ValidName name)
    (hne : name' ≠ name) (entries : List (List UInt8)) :
    entryValue (setEntry name (buildEnvEntry name value) entries) name' =
      entryValue entries name' := by
  have hnew : ¬ envEntryHasName (buildEnvEntry name value) name' = true := fun h =>
    hne (envEntryHasName_unique h (envEntryHasName_build hname))
  induction entries with
  | nil => rw [setEntry, entryValue_cons, if_neg hnew]
  | cons entry entries ih =>
    unfold setEntry
    split
    · rename_i hhas
      have hold : ¬ envEntryHasName entry name' = true := fun h =>
        hne (envEntryHasName_unique h hhas)
      rw [entryValue_cons, if_neg hnew, entryValue_cons, if_neg hold,
        entryValue_removeEntries_ne hne]
    · rw [entryValue_cons, entryValue_cons, ih]

/-- A name is bound by the entries when one of them is for it. -/
theorem entryValue_isSome {entries : List (List UInt8)} {name : List UInt8} :
    (entryValue entries name).isSome ↔ ∃ entry ∈ entries, envEntryHasName entry name = true := by
  unfold entryValue
  rw [Option.isSome_map, List.find?_isSome]

/-! ## The store -/

/-- The entries of the environment, the aliases over them, and the memory of the caller. -/
structure EnvStore where
  mem : Mem
  entries : List (List UInt8)
  aliases : List PutEnvAlias

namespace EnvStore

/-- The alias for a name. -/
def aliasFor (st : EnvStore) (name : List UInt8) : Option PutEnvAlias :=
  st.aliases.find? fun entry => entry.name = name

theorem aliasFor_name {st : EnvStore} {name : List UInt8} {entry : PutEnvAlias}
    (h : st.aliasFor name = some entry) : entry.name = name := by
  have hfound := List.find?_some (p := fun e : PutEnvAlias => decide (e.name = name)) h
  exact of_decide_eq_true hfound

theorem mem_of_aliasFor {st : EnvStore} {name : List UInt8} {entry : PutEnvAlias}
    (h : st.aliasFor name = some entry) : entry ∈ st.aliases := List.mem_of_find?_eq_some h

/-- Where the alias for the name finds its value. -/
def aliasValue (st : EnvStore) (name : List UInt8) : Option Nat :=
  (st.aliasFor name).bind fun entry =>
    EnvState.parseAliasValuePtr st.mem entry.entryAddr name

/-- The name has an alias whose buffer no longer reads `NAME=`. -/
def Stale (st : EnvStore) (name : List UInt8) : Prop :=
  (st.aliasFor name).isSome ∧ st.aliasValue name = none

instance (st : EnvStore) (name : List UInt8) : Decidable (st.Stale name) :=
  inferInstanceAs (Decidable (_ ∧ _))

/-- Forget a name. -/
def dropName (st : EnvStore) (name : List UInt8) : EnvStore :=
  { st with entries := removeEntries st.entries name,
            aliases := st.aliases.filter fun entry => entry.name ≠ name }

/-- What a lookup of the name leaves: a name with a stale alias is forgotten. -/
def settle (st : EnvStore) (name : List UInt8) : EnvStore :=
  if st.Stale name then st.dropName name else st

theorem aliasValue_of_none {st : EnvStore} {name : List UInt8} (hfor : st.aliasFor name = none) :
    st.aliasValue name = none := by
  unfold aliasValue
  rw [hfor]
  rfl

theorem aliasValue_of_some {st : EnvStore} {name : List UInt8} {entry : PutEnvAlias}
    (hfor : st.aliasFor name = some entry) :
    st.aliasValue name = EnvState.parseAliasValuePtr st.mem entry.entryAddr name := by
  unfold aliasValue
  rw [hfor]
  rfl

theorem not_stale_of_none {st : EnvStore} {name : List UInt8} (hfor : st.aliasFor name = none) :
    ¬ st.Stale name := by
  intro hstale
  rw [Stale, hfor] at hstale
  cases hstale.1

theorem settle_of_not_stale {st : EnvStore} {name : List UInt8} (h : ¬ st.Stale name) :
    st.settle name = st := if_neg h

theorem settle_of_stale {st : EnvStore} {name : List UInt8} (h : st.Stale name) :
    st.settle name = st.dropName name := if_pos h

/-- The value of a name. -/
def value (st : EnvStore) (name : List UInt8) : Option (List UInt8) :=
  match st.aliasValue name with
  | some address => some (cString st.mem address)
  | none => entryValue (st.settle name).entries name

/-- Give a name a value of its own. -/
def setOwn (st : EnvStore) (name value : List UInt8) : EnvStore :=
  { st with entries := setEntry name (buildEnvEntry name value) st.entries,
            aliases := st.aliases.filter fun entry => entry.name ≠ name }

/-- The names, other than the given one, that the buffer at the address is bound to. -/
def namesAt (st : EnvStore) (name : List UInt8) (address : Nat) : List (List UInt8) :=
  (st.aliases.filter fun entry => entry.name ≠ name ∧ entry.entryAddr = address).map (·.name)

/-- Unbind a name and a buffer, and forget the names the buffer was bound to. -/
def unbind (st : EnvStore) (name : List UInt8) (address : Nat) : EnvStore :=
  { st with
    entries := st.entries.filter fun entry =>
      ∀ other ∈ st.namesAt name address, ¬ envEntryHasName entry other
    aliases := st.aliases.filter fun entry =>
      ¬ (entry.name = name ∨ entry.entryAddr = address) }

/-- Bind a name to the buffer at the address, which reads `NAME=value` now. -/
def bind (st : EnvStore) (name value : List UInt8) (address : Nat) : EnvStore :=
  let st := { st.unbind name address with
    entries := (setEntry name (buildEnvEntry name value) st.entries).filter fun entry =>
      ∀ other ∈ st.namesAt name address, ¬ envEntryHasName entry other }
  { st with aliases := st.aliases ++ [⟨name, address⟩] }

/-- A call on the store. -/
def call (st : EnvStore) : EnvCall → EnvReply × EnvStore
  | .setenv (some name) (some value) overwrite =>
    if ¬ ValidName name then (.code (-1), st)
    else if overwrite = 0 then
      if (st.value name).isSome then (.code 0, st.settle name)
      else (.code 0, (st.settle name).setOwn name value)
    else (.code 0, st.setOwn name value)
  | .setenv _ _ _ => (.code (-1), st)
  | .unsetenv (some name) =>
    if ¬ ValidName name then (.code (-1), st) else (.code 0, st.dropName name)
  | .unsetenv none => (.code (-1), st)
  | .putenv string =>
    if string = 0 then (.code (-1), st)
    else
      match splitAtEqual (cString st.mem string) with
      | some (name, value) =>
        if ¬ ValidName name then (.code (-1), st) else (.code 0, st.bind name value string)
      | none =>
        if ¬ ValidName (cString st.mem string) then (.code (-1), st)
        else
          let name := cString st.mem string
          (.code 0, { st with entries := removeEntries st.entries name }.unbind name string)
  | .clearenv => (.code 0, { st with entries := [], aliases := [] })
  | .getenv (some name) =>
    if ¬ ValidName name then (.value none, st) else (.value (st.value name), st.settle name)
  | .getenv none => (.value none, st)
  | .write address byte => (.written, { st with mem := store st.mem address byte })

end EnvStore

end Rlibc.Stdlib
