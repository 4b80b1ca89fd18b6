import Rlibc.Foundations.Census
import Rlibc.Foundations.Lts

/-!
# Sleepers and notifications

A `Monitor` is a transition system whose threads wait on condition variables: it names the thread
of each label, the condition variable a thread waits on, and the notification that a step leaves
behind.  `step` runs such a system with sets of sleepers.  A thread that begins to wait falls
asleep and takes no step until it is woken; its notification is a step of its own; a sleeper may
also wake up for no reason, or because its time is over.

Two rules say that no sleeper is forgotten.  `Tokens` is for condition variables that are notified
one sleeper at a time: each token that a sleeper could take is matched by a notification on its
way or by a thread that is awake.  `Gate` is for those that are notified as a whole.
-/

namespace Condvars

/-- `notify_one` or `notify_all`. -/
structure Notification (V : Type*) where
  condvar : V
  all : Bool
  deriving DecidableEq, Repr

structure Monitor (T V σ ℓ : Type*) where
  innerStep : σ → ℓ → Option σ
  thread : ℓ → T
  waitsOn : σ → T → Option V
  notifies : σ → ℓ → Option (Notification V)
  /-- The label needs a lock that a thread keeps while it notifies this condition variable. -/
  needs : ℓ → V → Bool

structure State (T V σ : Type*) where
  inner : σ
  asleep : T → Bool
  /-- The notification that a thread has not delivered yet. -/
  notifying : T → Option (Notification V)

inductive Label (T ℓ : Type*) where
  | act (l : ℓ)
  /-- A notification is delivered; `woken` is the sleeper that `notify_one` picks. -/
  | deliver (t : T) (woken : Option T)
  /-- A spurious wakeup, or the end of a timeout. -/
  | wake (t : T)

/-- How a step settles the tokens of `v`, from `before` to `after`: its thread has been waiting on
`waited`, and will be waiting on `waits`. -/
inductive Pays {V : Type*} (v : V) (waited waits : Option V) (before after : ℕ)
    (notifies : Option (Notification V)) : Prop where
  | spent (h : after = 0)
  | took (hwaits : waits ≠ some v) (h : after + 1 ≤ before)
  | kept (hwaits : waits ≠ some v) (hwaited : waited ≠ some v) (h : after ≤ before)
  | one (hwaits : waits ≠ some v) (hwaited : waited ≠ some v)
      (hnotifies : notifies = some ⟨v, false⟩) (h : after ≤ before + 1)
  | all (hwaits : waits ≠ some v) (hnotifies : notifies = some ⟨v, true⟩)

variable {T V σ ℓ : Type*} [DecidableEq T] [Fintype T] [DecidableEq V]

/-- Everybody is awake, and nothing is to be delivered. -/
def State.start (inner : σ) : State T V σ :=
  { inner := inner, asleep := fun _ => false, notifying := fun _ => none }

def State.delivered (s : State T V σ) (t : T) : State T V σ :=
  { s with notifying := Function.update s.notifying t none }

def State.woken (s : State T V σ) (u : T) : State T V σ :=
  { s with asleep := Function.update s.asleep u false }

namespace Monitor

variable (m : Monitor T V σ ℓ)

def SleepsOn (s : State T V σ) (v : V) (u : T) : Prop :=
  s.asleep u = true ∧ m.waitsOn s.inner u = some v

instance (s : State T V σ) (v : V) : DecidablePred (m.SleepsOn s v) :=
  fun _ => inferInstanceAs (Decidable (_ ∧ _))

/-- The thread of `l` has taken its step to `inner`. -/
def acted (s : State T V σ) (l : ℓ) (inner : σ) : State T V σ :=
  { inner := inner
    asleep := Function.update s.asleep (m.thread l) (m.waitsOn inner (m.thread l)).isSome
    notifying := Function.update s.notifying (m.thread l) (m.notifies s.inner l) }

def act (s : State T V σ) (l : ℓ) : Option (State T V σ) :=
  if s.asleep (m.thread l) = true ∨ s.notifying (m.thread l) ≠ none then none
  else if ∃ u, (s.notifying u).any (fun n => m.needs l n.condvar) = true then none
  else
    (m.innerStep s.inner l).map (m.acted s l)

def notifyAll (s : State T V σ) (v : V) : State T V σ :=
  { s with asleep := fun u => s.asleep u && !decide (m.waitsOn s.inner u = some v) }

/-- One sleeper wakes up, if there is one. -/
def notifyOne (s : State T V σ) (v : V) : Option T → Option (State T V σ)
  | some u => if m.SleepsOn s v u then some (s.woken u) else none
  | none => if ∃ u, m.SleepsOn s v u then none else some s

def deliver (s : State T V σ) (t : T) (n : Notification V) (woken : Option T) :
    Option (State T V σ) :=
  if n.all = true then some (m.notifyAll (s.delivered t) n.condvar)
  else m.notifyOne (s.delivered t) n.condvar woken

def step (s : State T V σ) : Label T ℓ → Option (State T V σ)
  | .act l => m.act s l
  | .deliver t woken => (s.notifying t).bind fun n => m.deliver s t n woken
  | .wake t => if s.asleep t = true then some (s.woken t) else none

/-- No notification is undelivered, and whoever waits is asleep. -/
def Quiet (s : State T V σ) : Prop :=
  (∀ t, s.notifying t = none) ∧ ∀ u, m.waitsOn s.inner u ≠ none → s.asleep u = true

/-! ## What a step can do -/

inductive Moves (s : State T V σ) : State T V σ → Prop where
  | acts (l : ℓ) (inner : σ) (hawake : s.asleep (m.thread l) = false)
      (hquiet : s.notifying (m.thread l) = none) (hstep : m.innerStep s.inner l = some inner) :
      Moves s (m.acted s l inner)
  | all (t : T) (v : V) (hn : s.notifying t = some ⟨v, true⟩) :
      Moves s (m.notifyAll (s.delivered t) v)
  | one (t u : T) (v : V) (hn : s.notifying t = some ⟨v, false⟩) (hsleeps : m.SleepsOn s v u) :
      Moves s ((s.delivered t).woken u)
  | nobody (t : T) (v : V) (hn : s.notifying t = some ⟨v, false⟩)
      (hempty : ∀ u, ¬ m.SleepsOn s v u) : Moves s (s.delivered t)
  | wakes (t : T) (hasleep : s.asleep t = true) : Moves s (s.woken t)

variable {m} {s s' : State T V σ}

/-- The thread of an inner step is awake, and has nothing to deliver. -/
theorem acted_of_step {l : ℓ} (hs : m.step s (.act l) = some s') :
    s.asleep (m.thread l) = false ∧ s.notifying (m.thread l) = none ∧
      ∃ inner, m.innerStep s.inner l = some inner ∧ m.acted s l inner = s' := by
  simp only [step, act, Option.ite_none_left_eq_some, not_or, ne_eq, not_not,
    Bool.not_eq_true, Option.map_eq_some_iff] at hs
  exact ⟨hs.1.1, hs.1.2, hs.2.2⟩

omit [Fintype T] [DecidableEq V] in
/-- A step that ends neither in a wait nor in a notification. -/
theorem acted_silent {l : ℓ} {inner : σ} (hawake : s.asleep (m.thread l) = false)
    (hquiet : s.notifying (m.thread l) = none) (hwaits : m.waitsOn inner (m.thread l) = none)
    (hnotifies : m.notifies s.inner l = none) :
    (m.acted s l inner).asleep = s.asleep ∧ (m.acted s l inner).notifying = s.notifying := by
  unfold acted
  rw [hwaits, hnotifies]
  refine ⟨?_, ?_⟩
  · change Function.update s.asleep (m.thread l) false = s.asleep
    rw [← hawake]
    exact Function.update_eq_self _ _
  · change Function.update s.notifying (m.thread l) none = s.notifying
    rw [← hquiet]
    exact Function.update_eq_self _ _

theorem moves_of_step {label : Label T ℓ} (hs : m.step s label = some s') : m.Moves s s' := by
  cases label with
  | act l =>
    obtain ⟨hawake, hquiet, inner, hstep, rfl⟩ := acted_of_step hs
    exact .acts l inner hawake hquiet hstep
  | deliver t woken =>
    simp only [step, Option.bind_eq_some_iff] at hs
    obtain ⟨⟨v, all⟩, hn, hs⟩ := hs
    cases all with
    | true => exact Option.some.inj hs ▸ .all t v hn
    | false =>
      change m.notifyOne (s.delivered t) v woken = some s' at hs
      cases woken with
      | some u =>
        simp only [notifyOne, Option.ite_none_right_eq_some, Option.some.injEq] at hs
        exact hs.2 ▸ .one t u v hn hs.1
      | none =>
        simp only [notifyOne, Option.ite_none_left_eq_some, not_exists, Option.some.injEq] at hs
        exact hs.2 ▸ .nobody t v hn hs.1
  | wake t =>
    simp only [step, Option.ite_none_right_eq_some, Option.some.injEq] at hs
    exact hs.2 ▸ .wakes t hs.1

omit [Fintype T] in
/-- The system itself moves by its own steps only. -/
theorem Moves.inner_eq (h : m.Moves s s') :
    s'.inner = s.inner ∨ ∃ l, m.innerStep s.inner l = some s'.inner := by
  cases h with
  | acts l inner hawake hquiet hstep => exact Or.inr ⟨l, hstep⟩
  | all t v hn => exact Or.inl rfl
  | one t u v hn hsleeps => exact Or.inl rfl
  | nobody t v hn hempty => exact Or.inl rfl
  | wakes t hasleep => exact Or.inl rfl

/-- An invariant of the system by itself is one of the system with its sleepers. -/
theorem step_inner {I : σ → Prop} (hI : ∀ b l b', I b → m.innerStep b l = some b' → I b')
    {label : Label T ℓ} (h : I s.inner) (hs : m.step s label = some s') : I s'.inner := by
  have hmoves := (moves_of_step hs).inner_eq
  cases hmoves with
  | inl he => rwa [he]
  | inr hstep => exact hstep.elim fun l hl => hI _ _ _ h hl

omit [Fintype T] [DecidableEq V] in
theorem asleep_of_woken {t u : T} (ht : s.asleep t = true) (hu : (s.woken t).asleep u = true) :
    s.asleep u = true := by
  by_cases he : u = t
  · exact he ▸ ht
  · change Function.update s.asleep t false u = true at hu
    rwa [Function.update_of_ne he] at hu

omit [Fintype T] [DecidableEq V] in
/-- A notification stays with its thread, whatever another thread does with its own. -/
theorem notifying_update {t u : T} {n : Notification V} (o : Option (Notification V))
    (hu : s.notifying u = some n) (ht : s.notifying t ≠ some n) :
    Function.update s.notifying t o u = some n := by
  have hne : u ≠ t := fun he => ht (he ▸ hu)
  rw [Function.update_of_ne hne]
  exact hu

/-! ## Notifications of all sleepers -/

/-- `Open` says when the members of a class of waiters could go on.  None of them begins to wait
then, and whoever opens the gate notifies all. -/
structure Gate (m : Monitor T V σ ℓ) (I : σ → Prop) (v : V) (K : σ → T → Prop)
    (Open : σ → Prop) : Prop where
  waits : ∀ b u, I b → K b u → m.waitsOn b u = some v
  elsewhere : ∀ b l b', m.innerStep b l = some b' → ∀ u, u ≠ m.thread l → K b' u → K b u
  begins : ∀ b l b', I b → m.innerStep b l = some b' → K b' (m.thread l) → ¬ Open b'
  opens : ∀ b l b', I b → m.innerStep b l = some b' → Open b' →
    Open b ∨ m.notifies b l = some ⟨v, true⟩

/-- While the gate is open, the members that sleep will be notified. -/
def Gate.Kept (v : V) (K : σ → T → Prop) (Open : σ → Prop) (s : State T V σ) : Prop :=
  Open s.inner → ∀ u, s.asleep u = true → K s.inner u → ∃ t, s.notifying t = some ⟨v, true⟩

theorem Gate.step {I : σ → Prop} {v : V} {K : σ → T → Prop} {Open : σ → Prop}
    (h : m.Gate I v K Open) (hI : I s.inner) (hkept : Gate.Kept v K Open s)
    {label : Label T ℓ} (hs : m.step s label = some s') : Gate.Kept v K Open s' := by
  intro hopen u hasleep hK
  cases moves_of_step hs with
  | acts l inner hawake hquiet hstep =>
    by_cases he : u = m.thread l
    · subst he
      exact absurd hopen (h.begins _ _ _ hI hstep hK)
    · change Function.update s.asleep (m.thread l) _ u = true at hasleep
      rw [Function.update_of_ne he] at hasleep
      cases h.opens _ _ _ hI hstep hopen with
      | inl hbefore =>
        have hall := hkept hbefore u hasleep (h.elsewhere _ _ _ hstep u he hK)
        refine hall.imp fun t ht => notifying_update _ ht ?_
        rw [hquiet]
        simp
      | inr hnotifies => exact ⟨m.thread l, by rw [← hnotifies]; exact Function.update_self _ _ _⟩
  | all t v' hn =>
    have hwaits := h.waits _ u hI hK
    simp only [notifyAll, Bool.and_eq_true, Bool.not_eq_true', decide_eq_false_iff_not] at hasleep
    refine (hkept hopen u hasleep.1 hK).imp fun t' ht' => notifying_update _ ht' ?_
    -- a notification of `v` would have woken `u`
    rw [hn]
    intro hv
    cases hv
    exact hasleep.2 hwaits
  | one t u' v' hn hsleeps =>
    have hbefore : s.asleep u = true := asleep_of_woken (s := s.delivered t) hsleeps.1 hasleep
    refine (hkept hopen u hbefore hK).imp fun t' ht' => notifying_update _ ht' ?_
    rw [hn]
    simp
  | nobody t v' hn hempty =>
    refine (hkept hopen u hasleep hK).imp fun t' ht' => notifying_update _ ht' ?_
    rw [hn]
    simp
  | wakes t ht => exact hkept hopen u (asleep_of_woken ht hasleep) hK

omit [DecidableEq T] [Fintype T] [DecidableEq V] in
/-- In a quiet state the gate is closed for every sleeper. -/
theorem Gate.closed {v : V} {K : σ → T → Prop} {Open : σ → Prop} (hkept : Gate.Kept v K Open s)
    (hquiet : m.Quiet s) {u : T} (hasleep : s.asleep u = true) (hK : K s.inner u) :
    ¬ Open s.inner := by
  intro hopen
  have hall := hkept hopen u hasleep hK
  cases hall with
  | intro t ht =>
    rw [hquiet.1 t] at ht
    cases ht

/-! ## Notifications of one sleeper -/

/-- `credit` counts the tokens that waiters could take.  Nobody begins to wait while there are
any; a new token comes with a notification, and a thread that stops waiting takes one. -/
structure Tokens (m : Monitor T V σ ℓ) (I : σ → Prop) (v : V) (credit : σ → ℕ) : Prop where
  elsewhere : ∀ b l b', m.innerStep b l = some b' → ∀ u, u ≠ m.thread l →
    m.waitsOn b' u = m.waitsOn b u
  pays : ∀ b l b', I b → m.innerStep b l = some b' →
    Pays v (m.waitsOn b (m.thread l)) (m.waitsOn b' (m.thread l)) (credit b) (credit b')
      (m.notifies b l)

/-- The notifications of `v` on their way. -/
def ones (s : State T V σ) (v : V) : ℕ :=
  Census.count (fun n => n = some ⟨v, false⟩) s.notifying

/-- Whether a thread waits on `v`, and is awake. -/
def Awake (m : Monitor T V σ ℓ) (s : State T V σ) (v : V) (u : T) : Prop :=
  m.waitsOn s.inner u = some v ∧ s.asleep u = false

instance (s : State T V σ) (v : V) : DecidablePred (Awake m s v) :=
  fun _ => inferInstanceAs (Decidable (_ ∧ _))

/-- The threads that have been woken on `v`, and have not run since. -/
def awake (m : Monitor T V σ ℓ) (s : State T V σ) (v : V) : ℕ :=
  Census.count (fun b => b = true) fun u => decide (Awake m s v u)

/-- While someone sleeps, every token is on its way to a waiter. -/
def Tokens.Kept (m : Monitor T V σ ℓ) (v : V) (credit : σ → ℕ) (s : State T V σ) : Prop :=
  ∀ u, m.SleepsOn s v u →
    (∃ t, s.notifying t = some ⟨v, true⟩) ∨ credit s.inner ≤ ones s v + awake m s v

/-- One thread alone can have begun or ceased to be awake on `v`. -/
theorem awake_move (m : Monitor T V σ ℓ) (s s' : State T V σ) (t : T) {v : V}
    (helsewhere : ∀ u, u ≠ t → (Awake m s' v u ↔ Awake m s v u)) :
    awake m s' v + (if Awake m s v t then 1 else 0) =
      awake m s v + if Awake m s' v t then 1 else 0 := by
  have hu := Census.count_update (fun b => b = true) (fun u => decide (Awake m s v u)) t
    (decide (Awake m s' v t))
  have hf : Function.update (fun u => decide (Awake m s v u)) t (decide (Awake m s' v t)) =
      fun u => decide (Awake m s' v u) := by
    funext u
    by_cases he : u = t
    · rw [he, Function.update_self]
    · rw [Function.update_of_ne he]
      exact decide_eq_decide.mpr (helsewhere u he).symm
  rw [hf] at hu
  simp only [decide_eq_true_eq] at hu
  exact hu

/-- Waking one thread. -/
theorem awake_woken (u : T) (v : V) :
    awake m (s.woken u) v = awake m s v + if m.SleepsOn s v u then 1 else 0 := by
  have hself : (s.woken u).asleep u = false := Function.update_self _ _ _
  have hmove := awake_move m s (s.woken u) u (v := v) fun x hx => by
    have hasleep : (s.woken u).asleep x = s.asleep x := Function.update_of_ne hx _ _
    unfold Awake
    rw [hasleep]
    rfl
  by_cases hsleeps : m.SleepsOn s v u
  · have hbefore : ¬ Awake m s v u := fun h => by
      have hasleep := hsleeps.1
      rw [h.2] at hasleep
      cases hasleep
    have hafter : Awake m (s.woken u) v u := ⟨hsleeps.2, hself⟩
    rw [if_neg hbefore, if_pos hafter] at hmove
    rw [if_pos hsleeps]
    exact hmove
  · have hsame : Awake m (s.woken u) v u ↔ Awake m s v u := by
      refine ⟨fun h => ⟨h.1, ?_⟩, fun h => ⟨h.1, hself⟩⟩
      exact Bool.eq_false_of_not_eq_true fun hasleep => hsleeps ⟨hasleep, h.1⟩
    rw [if_neg hsleeps]
    simp only [hsame] at hmove
    omega

/-- The notification of one thread changes. -/
theorem ones_update (t : T) (o : Option (Notification V)) (v : V) :
    Census.count (fun n => n = some ⟨v, false⟩) (Function.update s.notifying t o) +
      (if s.notifying t = some ⟨v, false⟩ then 1 else 0) =
      ones s v + if o = some ⟨v, false⟩ then 1 else 0 :=
  Census.count_update _ _ _ _

theorem Tokens.step_acted {I : σ → Prop} {v : V} {credit : σ → ℕ} (h : m.Tokens I v credit)
    (hI : I s.inner) (hkept : Tokens.Kept m v credit s) {l : ℓ} {inner : σ}
    (hawake : s.asleep (m.thread l) = false) (hquiet : s.notifying (m.thread l) = none)
    (hstep : m.innerStep s.inner l = some inner) : Tokens.Kept m v credit (m.acted s l inner) := by
  intro u hsleeps
  have hpays := h.pays _ _ _ hI hstep
  -- The thread goes to wait on `v` itself: no rule but the first lets it, and it spends all.
  by_cases hwaits : m.waitsOn inner (m.thread l) = some v
  · have hzero : credit inner = 0 := by
      cases hpays with
      | spent hzero => exact hzero
      | took hnot hle => exact absurd hwaits hnot
      | kept hnot hwaited hle => exact absurd hwaits hnot
      | one hnot hwaited hone hle => exact absurd hwaits hnot
      | all hnot hall => exact absurd hwaits hnot
    exact Or.inr (hzero.symm ▸ Nat.zero_le _)
  have hne : u ≠ m.thread l := fun he => hwaits (he ▸ hsleeps.2)
  have hother : ∀ x, x ≠ m.thread l → (m.acted s l inner).asleep x = s.asleep x :=
    fun x hx => Function.update_of_ne hx _ _
  -- A signal leaves one notification outstanding, any other action none.
  have hones : ones (m.acted s l inner) v =
      ones s v + if m.notifies s.inner l = some ⟨v, false⟩ then 1 else 0 := by
    have hu := ones_update (s := s) (m.thread l) (m.notifies s.inner l) v
    rw [hquiet, if_neg (by simp)] at hu
    exact hu
  -- Only the acting thread can change what awake waiters of `v` there are.
  have hmove := awake_move m s (m.acted s l inner) (m.thread l) (v := v)
    fun x hx => by
      unfold Awake
      rw [hother x hx]
      change m.waitsOn inner x = some v ∧ _ ↔ _
      rw [h.elsewhere _ _ _ hstep x hx]
  have hself : ¬ Awake m (m.acted s l inner) v (m.thread l) := fun ha => hwaits ha.1
  have hbefore : Awake m s v (m.thread l) ↔ m.waitsOn s.inner (m.thread l) = some v :=
    and_iff_left hawake
  rw [if_neg hself] at hmove
  simp only [hbefore] at hmove
  have hsleeper : m.SleepsOn s v u :=
    ⟨hother u hne ▸ hsleeps.1, (h.elsewhere _ _ _ hstep u hne).symm.trans hsleeps.2⟩
  -- Either a broadcast is on its way, which stays so, or the count must be kept.
  cases hkept u hsleeper with
  | inl hall =>
    refine Or.inl (hall.imp fun t ht => notifying_update _ ht ?_)
    rw [hquiet]
    simp
  | inr hle =>
    cases hpays with
    | spent hzero => exact Or.inr (hzero.symm ▸ Nat.zero_le _)
    | took _ htook =>
      refine Or.inr ?_
      change credit inner ≤ _
      split at hmove <;> omega
    | kept _ hwaited hkept =>
      rw [if_neg hwaited] at hmove
      refine Or.inr ?_
      change credit inner ≤ _
      omega
    | one _ hwaited hone hle' =>
      rw [if_neg hwaited] at hmove
      rw [if_pos hone] at hones
      refine Or.inr ?_
      change credit inner ≤ _
      omega
    | all _ hall => exact Or.inl ⟨m.thread l, by rw [← hall]; exact Function.update_self _ _ _⟩

/-- A delivery takes one notification away. -/
theorem ones_delivered {t : T} {v' : V} {all : Bool} (hn : s.notifying t = some ⟨v', all⟩) (v : V) :
    ones (s.delivered t) v + (if v' = v ∧ all = false then 1 else 0) = ones s v := by
  have hones := ones_update (s := s) t none v
  rw [hn] at hones
  simp only [Option.some.injEq, Notification.mk.injEq, reduceCtorEq, if_false] at hones
  exact hones

theorem Tokens.step {I : σ → Prop} {v : V} {credit : σ → ℕ} (h : m.Tokens I v credit)
    (hI : I s.inner) (hkept : Tokens.Kept m v credit s) {label : Label T ℓ}
    (hs : m.step s label = some s') : Tokens.Kept m v credit s' := by
  cases moves_of_step hs with
  | acts l inner hawake hquiet hstep => exact h.step_acted hI hkept hawake hquiet hstep
  | all t v' hn =>
    intro u hsleeps
    have hbefore := hsleeps.1
    simp only [notifyAll, Bool.and_eq_true, Bool.not_eq_true', decide_eq_false_iff_not] at hbefore
    -- `u` sleeps on, so that the notification was for another condition variable
    have hne : v' ≠ v := fun he => hbefore.2 (he ▸ hsleeps.2)
    have hones := ones_delivered hn v
    rw [if_neg fun hv => hne hv.1] at hones
    have hawake : awake m (m.notifyAll (s.delivered t) v') v = awake m s v := by
      apply Census.count_congr
      intro x
      rw [decide_eq_true_iff, decide_eq_true_iff]
      refine and_congr_right fun hx => ?_
      change (s.asleep x && !decide (m.waitsOn s.inner x = some v')) = false ↔ s.asleep x = false
      rw [show m.waitsOn s.inner x = some v from hx]
      simp [Ne.symm hne]
    refine (hkept u ⟨hbefore.1, hsleeps.2⟩).imp (fun hall => ?_) fun hle => ?_
    · refine hall.imp fun t' ht' => notifying_update _ ht' ?_
      rw [hn]
      simp [hne]
    · change credit s.inner ≤ ones (s.delivered t) v + awake m (m.notifyAll (s.delivered t) v') v
      omega
  | one t u' v' hn hsleeps' =>
    intro u hsleeps
    have hbefore : s.asleep u = true := asleep_of_woken (s := s.delivered t) hsleeps'.1 hsleeps.1
    have hones := ones_delivered hn v
    have hwoken := awake_woken (m := m) (s := s.delivered t) u' v
    -- `u'` sleeps on `v` if the notification was for `v`
    have hwoke : m.SleepsOn (s.delivered t) v u' ↔ v' = v := by
      refine ⟨fun h => ?_, fun h => h ▸ hsleeps'⟩
      exact Option.some.inj (hsleeps'.2.symm.trans h.2)
    simp only [hwoke] at hwoken
    simp only [and_true] at hones
    refine (hkept u ⟨hbefore, hsleeps.2⟩).imp (fun hall => ?_) fun hle => ?_
    · refine hall.imp fun t' ht' => notifying_update _ ht' ?_
      rw [hn]
      simp
    · change credit s.inner ≤ ones (s.delivered t) v + awake m ((s.delivered t).woken u') v
      have hsame : awake m (s.delivered t) v = awake m s v := rfl
      omega
  | nobody t v' hn hempty =>
    intro u hsleeps
    have hne : v' ≠ v := fun he => hempty u (he ▸ hsleeps)
    have hones := ones_delivered hn v
    rw [if_neg fun hv => hne hv.1] at hones
    refine (hkept u hsleeps).imp (fun hall => ?_) fun hle => ?_
    · refine hall.imp fun t' ht' => notifying_update _ ht' ?_
      rw [hn]
      simp
    · change credit s.inner ≤ ones (s.delivered t) v + awake m s v
      omega
  | wakes t ht =>
    intro u hsleeps
    have hbefore : m.SleepsOn s v u := ⟨asleep_of_woken ht hsleeps.1, hsleeps.2⟩
    have hwoken := awake_woken (m := m) (s := s) t v
    refine (hkept u hbefore).imp id fun hle => ?_
    change credit s.inner ≤ ones s v + awake m (s.woken t) v
    omega

omit [DecidableEq T] in
/-- In a quiet state there is no token for a sleeper to take. -/
theorem Tokens.none_left {v : V} {credit : σ → ℕ} (hkept : Tokens.Kept m v credit s)
    (hquiet : m.Quiet s) {u : T} (hsleeps : m.SleepsOn s v u) : credit s.inner = 0 := by
  have hones : ones s v = 0 := by
    apply (Census.count_eq_zero_iff _ _).mpr
    intro t
    rw [hquiet.1 t]
    simp
  have hawake : awake m s v = 0 := by
    apply (Census.count_eq_zero_iff _ _).mpr
    intro t ht
    have hnone := of_decide_eq_true ht
    have hasleep := hquiet.2 t (by rw [hnone.1]; simp)
    rw [hnone.2] at hasleep
    cases hasleep
  cases hkept u hsleeps with
  | inl hall =>
    cases hall with
    | intro t ht =>
      rw [hquiet.1 t] at ht
      cases ht
  | inr hle => omega

end Monitor

end Condvars
