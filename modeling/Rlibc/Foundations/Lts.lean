import Mathlib.Data.List.Basic

/-!
# Labelled transition systems with a partial step function

`step s l` is the state after label `l`, or `none` where `s` refuses `l`.  A run is the list of
its labels, so that a concrete run evaluates.  `Always` speaks about the states a run visits,
`EachStep` about the steps it takes; the two gate rules turn a condition on the steps of a run
into an invariant of its states, and back.
-/

namespace Lts

variable {σ ℓ : Type*} {step : σ → ℓ → Option σ}

/-- The state after the labels of a run in order, or `none` where one of them is refused. -/
def run (step : σ → ℓ → Option σ) : σ → List ℓ → Option σ
  | s, [] => some s
  | s, l :: ls => (step s l).bind fun s' => run step s' ls

/-- `P` holds of every state the run visits, the first one included. -/
def Always (step : σ → ℓ → Option σ) (P : σ → Prop) : σ → List ℓ → Prop
  | s, [] => P s
  | s, l :: ls => P s ∧ ∀ s', step s l = some s' → Always step P s' ls

/-- `Q` holds of every step the run takes: of the state before it and its label. -/
def EachStep (step : σ → ℓ → Option σ) (Q : σ → ℓ → Prop) : σ → List ℓ → Prop
  | _, [] => True
  | s, l :: ls => ∀ s', step s l = some s' → Q s l ∧ EachStep step Q s' ls

/-- `Q` holds of every label the run offers, in the state it is offered to, also if it is refused
there. -/
def EachOffer (step : σ → ℓ → Option σ) (Q : σ → ℓ → Prop) : σ → List ℓ → Prop
  | _, [] => True
  | s, l :: ls => Q s l ∧ ∀ s', step s l = some s' → EachOffer step Q s' ls

@[simp] theorem run_nil (s : σ) : run step s [] = some s := rfl

theorem run_cons (s : σ) (l : ℓ) (ls : List ℓ) :
    run step s (l :: ls) = (step s l).bind fun s' => run step s' ls := rfl

theorem run_cons_of_step {s s' : σ} {l : ℓ} (h : step s l = some s') (ls : List ℓ) :
    run step s (l :: ls) = run step s' ls := by
  rw [run_cons, h, Option.bind_some]

theorem run_append (s : σ) (ls ms : List ℓ) :
    run step s (ls ++ ms) = (run step s ls).bind fun s' => run step s' ms := by
  induction ls generalizing s with
  | nil => rfl
  | cons l ls ih =>
    rw [List.cons_append, run_cons, run_cons, Option.bind_assoc]
    congr 1
    funext s'
    exact ih s'

theorem eachStep_cons {Q : σ → ℓ → Prop} {s : σ} {l : ℓ} {ls : List ℓ} {s' : σ}
    (hstep : step s l = some s') :
    EachStep step Q s (l :: ls) ↔ Q s l ∧ EachStep step Q s' ls := by
  constructor
  · exact fun h => h s' hstep
  · intro h m hm
    cases hstep.symm.trans hm
    exact h

theorem eachStep_refused {Q : σ → ℓ → Prop} {s : σ} {l : ℓ} {ls : List ℓ}
    (hstep : step s l = none) : EachStep step Q s (l :: ls) :=
  fun _ hm => nomatch hstep.symm.trans hm

instance EachStep.decidable {Q : σ → ℓ → Prop} [∀ s l, Decidable (Q s l)] :
    (s : σ) → (ls : List ℓ) → Decidable (EachStep step Q s ls)
  | _, [] => .isTrue trivial
  | s, l :: ls =>
    match hstep : step s l with
    | none => .isTrue (eachStep_refused hstep)
    | some s' =>
      have : Decidable (EachStep step Q s' ls) := EachStep.decidable s' ls
      decidable_of_iff (Q s l ∧ EachStep step Q s' ls) (eachStep_cons hstep).symm

/-- A nonempty run starts with one step. -/
theorem run_cons_eq_some {s s'' : σ} {l : ℓ} {ls : List ℓ}
    (h : run step s (l :: ls) = some s'') :
    ∃ s', step s l = some s' ∧ run step s' ls = some s'' :=
  Option.bind_eq_some_iff.mp h

/-- **Invariant rule.**  What each label of a run preserves holds at its end. -/
theorem run_preserves_of_mem {P : σ → Prop} {s s' : σ} {ls : List ℓ}
    (hstep : ∀ l ∈ ls, ∀ s s', P s → step s l = some s' → P s')
    (hs : P s) (hrun : run step s ls = some s') : P s' := by
  induction ls generalizing s with
  | nil =>
    rw [run_nil, Option.some.injEq] at hrun
    exact hrun ▸ hs
  | cons l ls ih =>
    have hsplit := run_cons_eq_some hrun
    cases hsplit with
    | intro m hm =>
      exact ih (fun l' hl' => hstep l' (List.mem_cons_of_mem _ hl'))
        (hstep l List.mem_cons_self s m hs hm.1) hm.2

/-- What every step preserves holds at the end of every run. -/
theorem run_preserves {P : σ → Prop}
    (hstep : ∀ s l s', P s → step s l = some s' → P s')
    {s s' : σ} {ls : List ℓ} (hs : P s) (hrun : run step s ls = some s') : P s' :=
  run_preserves_of_mem (fun l _ s s' => hstep s l s') hs hrun

theorem Always.head {P : σ → Prop} {s : σ} {ls : List ℓ} (h : Always step P s ls) : P s := by
  cases ls with
  | nil => exact h
  | cons l ls => exact h.1

/-- `Always` covers the last state of a run as well. -/
theorem Always.last {P : σ → Prop} {s s' : σ} {ls : List ℓ} (h : Always step P s ls)
    (hrun : run step s ls = some s') : P s' := by
  induction ls generalizing s with
  | nil =>
    rw [run_nil, Option.some.injEq] at hrun
    exact hrun ▸ h
  | cons l ls ih =>
    have hsplit := run_cons_eq_some hrun
    cases hsplit with
    | intro m hm => exact ih (h.2 m hm.1) hm.2

theorem Always.imp {P P' : σ → Prop} (himp : ∀ s, P s → P' s) {s : σ} {ls : List ℓ}
    (h : Always step P s ls) : Always step P' s ls := by
  induction ls generalizing s with
  | nil => exact himp s h
  | cons l ls ih => exact ⟨himp s h.1, fun m hm => ih (h.2 m hm)⟩

/-- An invariant of all steps holds in every state a run visits. -/
theorem always_of_invariant {P : σ → Prop}
    (hstep : ∀ s l s', P s → step s l = some s' → P s')
    {s : σ} {ls : List ℓ} (hs : P s) : Always step P s ls := by
  induction ls generalizing s with
  | nil => exact hs
  | cons l ls ih => exact ⟨hs, fun m hm => ih (hstep s l m hs hm)⟩

/-- **Gate rule.**  `P` holds throughout a run whose steps all pass the gate `Q`, when a step
through the gate preserves `P`. -/
theorem always_of_eachStep {P : σ → Prop} {Q : σ → ℓ → Prop}
    (hstep : ∀ s l s', P s → Q s l → step s l = some s' → P s')
    {s : σ} {ls : List ℓ} (hs : P s) (hgate : EachStep step Q s ls) : Always step P s ls := by
  induction ls generalizing s with
  | nil => exact hs
  | cons l ls ih =>
    refine ⟨hs, fun m hm => ?_⟩
    have hq := hgate m hm
    exact ih (hstep s l m hs hq.1 hm) hq.2

theorem EachStep.imp {Q Q' : σ → ℓ → Prop} (himp : ∀ s l, Q s l → Q' s l) {s : σ} {ls : List ℓ}
    (h : EachStep step Q s ls) : EachStep step Q' s ls := by
  induction ls generalizing s with
  | nil => exact trivial
  | cons l ls ih =>
    intro m hm
    have hq := h m hm
    exact ⟨himp s l hq.1, ih hq.2⟩

theorem eachStep_and {Q Q' : σ → ℓ → Prop} {s : σ} {ls : List ℓ} :
    EachStep step (fun s l => Q s l ∧ Q' s l) s ls ↔
      EachStep step Q s ls ∧ EachStep step Q' s ls := by
  refine ⟨fun h => ⟨h.imp fun s l hq => hq.1, h.imp fun s l hq => hq.2⟩, ?_⟩
  rintro ⟨h, h'⟩
  induction ls generalizing s with
  | nil => exact trivial
  | cons l ls ih =>
    intro m hm
    have hq := h m hm
    have hq' := h' m hm
    exact ⟨⟨hq.1, hq'.1⟩, ih hq.2 hq'.2⟩

/-- Two conditions on the steps that agree in every state of `P`, which a run through the gate `G`
never leaves. -/
theorem eachStep_congr {P : σ → Prop} {G Q Q' : σ → ℓ → Prop}
    (hstep : ∀ s l s', P s → G s l → step s l = some s' → P s')
    (hiff : ∀ s l, P s → (Q s l ↔ Q' s l)) {s : σ} {ls : List ℓ} (hs : P s)
    (hgate : EachStep step G s ls) : EachStep step Q s ls ↔ EachStep step Q' s ls := by
  induction ls generalizing s with
  | nil => exact Iff.rfl
  | cons l ls ih =>
    refine forall_congr' fun m => forall_congr' fun hm => ?_
    have hg := hgate m hm
    exact and_congr (hiff s l hs) (ih (hstep s l m hs hg.1 hm) hg.2)

/-- The steps of a run in two parts. -/
theorem eachStep_append {Q : σ → ℓ → Prop} {s s' : σ} {ls ms : List ℓ}
    (hrun : run step s ls = some s') (h : EachStep step Q s ls) (h' : EachStep step Q s' ms) :
    EachStep step Q s (ls ++ ms) := by
  induction ls generalizing s with
  | nil =>
    rw [run_nil, Option.some.injEq] at hrun
    exact hrun ▸ h'
  | cons l ls ih =>
    intro m hm
    rw [run_cons, hm, Option.bind_some] at hrun
    have hq := h m hm
    exact ⟨hq.1, ih hrun hq.2⟩

/-- A condition on the labels is one on the steps. -/
theorem eachStep_of_labels {Q : ℓ → Prop} (s : σ) {ls : List ℓ} (h : ∀ l ∈ ls, Q l) :
    EachStep step (fun _ l => Q l) s ls := by
  induction ls generalizing s with
  | nil => exact trivial
  | cons l ls ih =>
    intro m _
    exact ⟨h l List.mem_cons_self, ih m fun l' hl' => h l' (List.mem_cons_of_mem _ hl')⟩

/-- The gate rule, where the gate also looks at the state that a step ends in. -/
theorem always_of_gates {P H : σ → Prop} {Q : σ → ℓ → Prop}
    (hstep : ∀ s l s', P s → Q s l → H s' → step s l = some s' → P s')
    {s : σ} {ls : List ℓ} (hs : P s) (hgate : EachStep step Q s ls) (hstates : Always step H s ls) :
    Always step P s ls := by
  induction ls generalizing s with
  | nil => exact hs
  | cons l ls ih =>
    refine ⟨hs, fun m hm => ?_⟩
    have hq := hgate m hm
    have hrest := hstates.2 m hm
    exact ih (hstep s l m hs hq.1 hrest.head hm) hq.2 hrest

/-- **Progress rule.**  If a state of `P` never refuses a label of `Q` and stays in `P`, a run of
such labels goes through, and `P` holds throughout. -/
theorem run_of_eachOffer {P : σ → Prop} {Q : σ → ℓ → Prop}
    (hstep : ∀ s l, P s → Q s l → ∃ s', step s l = some s' ∧ P s')
    {s : σ} {ls : List ℓ} (hs : P s) (hoffer : EachOffer step Q s ls) :
    (run step s ls).isSome ∧ Always step P s ls := by
  induction ls generalizing s with
  | nil => exact ⟨rfl, hs⟩
  | cons l ls ih =>
    cases hstep s l hs hoffer.1 with
    | intro s' hs' =>
      have hrest := ih hs'.2 (hoffer.2 s' hs'.1)
      rw [run_cons, hs'.1]
      refine ⟨hrest.1, hs, fun m hm => ?_⟩
      cases hs'.1.symm.trans hm
      exact hrest.2

/-- A system that keeps a record beside the states of another one takes its labels as they come. -/
theorem EachOffer.lift {τ : Type*} {step' : τ → ℓ → Option τ} {f : τ → σ}
    (hstep : ∀ t l t', step' t l = some t' → step (f t) l = some (f t')) {Q : σ → ℓ → Prop} {t : τ}
    {ls : List ℓ} (h : EachOffer step Q (f t) ls) :
    EachOffer step' (fun t l => Q (f t) l) t ls := by
  induction ls generalizing t with
  | nil => exact trivial
  | cons l ls ih => exact ⟨h.1, fun t' ht' => ih (h.2 (f t') (hstep t l t' ht'))⟩

/-- The gate rule is exact for a property `G` that `P` strengthens, when a step past the gate
breaks `G` at once. -/
theorem always_iff_eachStep {P G : σ → Prop} {Q : σ → ℓ → Prop} (hPG : ∀ s, P s → G s)
    (hkeep : ∀ s l s', P s → Q s l → step s l = some s' → P s')
    (hbreak : ∀ s l s', P s → step s l = some s' → G s' → Q s l)
    {s : σ} {ls : List ℓ} (hs : P s) : Always step G s ls ↔ EachStep step Q s ls := by
  refine ⟨fun halways => ?_, fun hgate => (always_of_eachStep hkeep hs hgate).imp hPG⟩
  induction ls generalizing s with
  | nil => exact trivial
  | cons l ls ih =>
    intro m hm
    have htail := halways.2 m hm
    have hq := hbreak s l m hs hm htail.head
    exact ⟨hq, ih (hkeep s l m hs hq hm) htail⟩

end Lts
