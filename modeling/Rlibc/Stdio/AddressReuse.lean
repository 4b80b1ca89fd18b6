import Rlibc.Stdio.StreamSteps

/-!
# Streams at addresses that are used again

`fclose` clears the record of an address after the host has closed it, when the address may
already be another stream's.  What was recorded for a stream lasts as long as it is open, in runs
in which no address is given out between the two.
-/

namespace Rlibc.Stdio

namespace System

/-- Threads use what they opened. -/
def OwnUse (s : System) : Label → Prop
  | .start t c _ => c.stream = 0 ∨ s.opener c.stream = some t
  | .turn _ _ => True

/-- The host gives no address out whose record an `fclose` still has to clear. -/
def NoEarlyReuse (s : System) : Label → Prop
  | .start _ c answer => c.opens → ∀ t, s.pc t ≠ .closing answer.stream
  | .turn _ _ => True

/-- What was recorded for the streams that are open is in the registry. -/
def Kept (s : System) : Prop :=
  ∀ key, RecordedAt s key ∧ ∀ t, 0 < s.nest t key →
    (entryAt s.registry key).fileLockOwner = some t ∧
      (entryAt s.registry key).fileLockDepth = s.nest t key

/-- An address is not open, or about to be returned by one call, or has one opener. -/
structure ReuseInv (s : System) : Prop where
  distinct : s.registry.Distinct
  closing : ∀ t a, s.pc t = .closing a → s.hostOpen a = false ∧ s.opener a = none
  opening : ∀ t a, s.pc t = .opening a → s.hostOpen a = true ∧ s.opener a = none
  openingUnique : ∀ t t' a, s.pc t = .opening a → s.pc t' = .opening a → t = t'
  opened : ∀ t a, s.opener a = some t → s.hostOpen a = true
  inCall : ∀ t c, (s.pc t).call = some c → s.opener c.stream = some t
  unowned : ∀ a, s.opener a = none → s.recorded a = none ∧ ∀ t, s.nest t a = 0
  owned : ∀ t a, s.opener a = some t → LocksAt s a ∧ RecordedAt s a

end System

instance (s : System) : (l : Label) → Decidable (s.OwnUse l)
  | .start _ _ _ => inferInstanceAs (Decidable (_ ∨ _))
  | .turn _ _ => inferInstanceAs (Decidable True)

theorem initial_reuseInv (host : Host) : (initial host).ReuseInv where
  distinct := List.nodup_nil
  closing _ _ h := by cases h
  opening _ _ h := by cases h
  openingUnique _ _ _ h := by cases h
  opened _ _ h := by cases h
  inCall _ _ h := by cases h
  unowned _ _ := ⟨rfl, fun _ => rfl⟩
  owned _ _ h := by cases h

theorem kept_of_reuseInv {s : System} (hinv : s.ReuseInv) : s.Kept := by
  intro key
  cases hopener : s.opener key with
  | none =>
    obtain ⟨hrecorded, hnest⟩ := hinv.unowned key hopener
    constructor
    · intro cfg hcfg
      cases hrecorded.symm.trans hcfg
    · intro t hpos
      rw [hnest t] at hpos
      exact absurd hpos (Nat.lt_irrefl 0)
  | some t =>
    obtain ⟨hlocks, hrecorded⟩ := hinv.owned t key hopener
    exact ⟨hrecorded, fun t' hpos => hlocks.owner_eq hpos⟩

/-! ## Steps -/

/-- A step moves one thread. -/
theorem pc_update_cases {s s' : System} {t : ThreadId} {pc : Pc}
    (hpc : s'.pc = Function.update s.pc t pc) (t' : ThreadId) :
    t' = t ∧ s'.pc t' = pc ∨ t' ≠ t ∧ s'.pc t' = s.pc t' := by
  by_cases ht : t' = t
  · rw [hpc, ht, Function.update_self]
    exact Or.inl ⟨rfl, rfl⟩
  · rw [hpc, Function.update_of_ne ht]
    exact Or.inr ⟨ht, rfl⟩

/-- No thread but those that did is about to return an address. -/
theorem openingUnique_of_before {s s' : System} (hinv : s.ReuseInv)
    (hbefore : ∀ t a, s'.pc t = .opening a → s.pc t = .opening a) (t t' : ThreadId) (a : Nat)
    (h : s'.pc t = .opening a) (h' : s'.pc t' = .opening a) : t = t' :=
  hinv.openingUnique t t' a (hbefore t a h) (hbefore t' a h')

/-- Steps in which no address changes hands. -/
theorem reuseInv_same {s s' : System} {t : ThreadId} {pc : Pc} (hinv : s.ReuseInv)
    (hdistinct : s'.registry.Distinct) (howners : SameOwners s s')
    (hpc : s'.pc = Function.update s.pc t pc)
    (hcall : pc = .idle ∨ ∃ c, pc.call = some c ∧ s.opener c.stream = some t)
    (hunowned : ∀ a, s.opener a = none → s'.recorded a = s.recorded a ∧
      ∀ t', s'.nest t' a = s.nest t' a)
    (howned : ∀ a, LocksAt s a ∧ RecordedAt s a → LocksAt s' a ∧ RecordedAt s' a) :
    s'.ReuseInv := by
  obtain ⟨hhost, hopener⟩ := howners
  -- Only the acting thread changes its place, and no place of opening or closing is new.
  have hmoved : ∀ t', s'.pc t' = s.pc t' ∨ t' = t ∧ s'.pc t' = pc := fun t' =>
    (pc_update_cases hpc t').symm.imp_left And.right
  have hnotOpening : ∀ a, pc ≠ .opening a := by
    -- A stream that is in use stays in use, so its owner is the one before.
    intro a ha
    rcases hcall with hidle | ⟨c, hc, -⟩
    · cases hidle.symm.trans ha
    · rw [ha] at hc
      cases hc
  have hnotClosing : ∀ a, pc ≠ .closing a := by
    intro a ha
    rcases hcall with hidle | ⟨c, hc, -⟩
    · cases hidle.symm.trans ha
    · rw [ha] at hc
      cases hc
  have hopening : ∀ t' a, s'.pc t' = .opening a → s.pc t' = .opening a := by
    intro t' a ha
    rcases hmoved t' with hstay | ⟨-, hgo⟩
    · exact hstay.symm.trans ha
    · exact absurd (hgo.symm.trans ha) (hnotOpening a)
  constructor
  · exact hdistinct
  · intro t' a ha
    rw [hhost, hopener]
    rcases hmoved t' with hstay | ⟨-, hgo⟩
    · exact hinv.closing t' a (hstay.symm.trans ha)
    · exact absurd (hgo.symm.trans ha) (hnotClosing a)
  · intro t' a ha
    rw [hhost, hopener]
    exact hinv.opening t' a (hopening t' a ha)
  · exact openingUnique_of_before hinv hopening
  · rw [hhost, hopener]
    exact hinv.opened
  · intro t' c hc
    rw [hopener]
    rcases hmoved t' with hstay | ⟨ht, hgo⟩
    · rw [hstay] at hc
      exact hinv.inCall t' c hc
    · rw [hgo] at hc
      rcases hcall with hidle | ⟨c', hc', howner⟩
      · rw [hidle] at hc
        cases hc
      · cases hc'.symm.trans hc
        rw [ht]
        exact howner
  -- The records of an address without an owner are those of a fresh stream still.
  · intro a ha
    rw [hopener] at ha
    obtain ⟨hrecorded, hnest⟩ := hinv.unowned a ha
    obtain ⟨hrecorded', hnest'⟩ := hunowned a ha
    exact ⟨hrecorded'.trans hrecorded, fun t' => (hnest' t').trans (hnest t')⟩
  · intro t' a ha
    rw [hopener] at ha
    exact howned a (hinv.owned t' a ha)

/-- An address that the host gives out. -/
theorem reuseInv_opens {s s' : System} {t : ThreadId} {a : Nat} (hinv : s.ReuseInv)
    (hclosed : s.hostOpen a = false) (hreuse : ∀ t', s.pc t' ≠ .closing a)
    (hs' : s' = { s with
      hostOpen := Function.update s.hostOpen a true
      pc := Function.update s.pc t (.opening a) }) : s'.ReuseInv := by
  have hpc : s'.pc = Function.update s.pc t (.opening a) := by rw [hs']
  have hmoved := pc_update_cases hpc
  subst hs'
  -- The host gave the address out again, so nobody owns it, opens it or still closes it.
  have hnone : s.opener a = none := by
    cases hopener : s.opener a with
    | none => rfl
    | some owner => cases hclosed.symm.trans (hinv.opened owner a hopener)
  have hfirst : ∀ t', s.pc t' ≠ .opening a := by
    intro t' ht'
    cases hclosed.symm.trans (hinv.opening t' a ht').1
  -- Every other address is as open as before.
  have hmono : ∀ b, s.hostOpen b = true → Function.update s.hostOpen a true b = true := by
    intro b hb
    by_cases hab : b = a
    · rw [hab, Function.update_self]
    · rw [Function.update_of_ne hab, hb]
  constructor
  · exact hinv.distinct
  · intro t' b hb
    rcases hmoved t' with ⟨-, hgo⟩ | ⟨-, hstay⟩
    · cases hgo.symm.trans hb
    · have hbefore := hstay.symm.trans hb
      have hab : b ≠ a := fun hab => hreuse t' (hab ▸ hbefore)
      obtain ⟨hhost, hopener⟩ := hinv.closing t' b hbefore
      exact ⟨(Function.update_of_ne hab _ _).trans hhost, hopener⟩
  · intro t' b hb
    rcases hmoved t' with ⟨-, hgo⟩ | ⟨-, hstay⟩
    · cases hgo.symm.trans hb
      exact ⟨Function.update_self a true s.hostOpen, hnone⟩
    · obtain ⟨hhost, hopener⟩ := hinv.opening t' b (hstay.symm.trans hb)
      exact ⟨hmono b hhost, hopener⟩
  · intro t₁ t₂ b h₁ h₂
    rcases hmoved t₁ with ⟨ht₁, hgo₁⟩ | ⟨-, hstay₁⟩
    · cases hgo₁.symm.trans h₁
      rcases hmoved t₂ with ⟨ht₂, -⟩ | ⟨-, hstay₂⟩
      · rw [ht₁, ht₂]
      · exact absurd (hstay₂.symm.trans h₂) (hfirst t₂)
    · rcases hmoved t₂ with ⟨-, hgo₂⟩ | ⟨-, hstay₂⟩
      · cases hgo₂.symm.trans h₂
        exact absurd (hstay₁.symm.trans h₁) (hfirst t₁)
      · exact hinv.openingUnique t₁ t₂ b (hstay₁.symm.trans h₁) (hstay₂.symm.trans h₂)
  · intro t' b hb
    exact hmono b (hinv.opened t' b hb)
  · intro t' c hc
    rcases hmoved t' with ⟨-, hgo⟩ | ⟨-, hstay⟩
    · rw [hgo] at hc
      cases hc
    · rw [hstay] at hc
      exact hinv.inCall t' c hc
  · exact hinv.unowned
  · exact hinv.owned

/-- The record of an address is cleared, and those of the others stay. -/
theorem cleared_owned {s s' : System} {a b : Nat} {t : ThreadId} (hinv : s.ReuseInv)
    (hregistry : s'.registry = clearStreamTrackingState s.registry a) (hnest : s'.nest = s.nest)
    (hrecorded : s'.recorded = s.recorded) (hab : b ≠ a) (hb : s.opener b = some t) :
    LocksAt s' b ∧ RecordedAt s' b := by
  unfold LocksAt RecordedAt
  rw [hregistry, hnest, hrecorded, clearStreamTrackingState_eq, Function.update_of_ne hab]
  exact hinv.owned t b hb

/-- `fopen` returns. -/
theorem reuseInv_opened {s s' : System} {t : ThreadId} {a : Nat} (hinv : s.ReuseInv)
    (hopening : s.pc t = .opening a)
    (hs' : s' = { s with
      registry := clearStreamTrackingState s.registry a
      opener := Function.update s.opener a (some t)
      pc := Function.update s.pc t .idle }) : s'.ReuseInv := by
  have hpc : s'.pc = Function.update s.pc t .idle := by rw [hs']
  have hmoved := pc_update_cases hpc
  subst hs'
  obtain ⟨hhost, hnone⟩ := hinv.opening t a hopening
  obtain ⟨hrecorded, hnest⟩ := hinv.unowned a hnone
  constructor
  · exact hinv.distinct.eraseAll a
  · intro t' b hb
    rcases hmoved t' with ⟨-, hgo⟩ | ⟨-, hstay⟩
    · cases hgo.symm.trans hb
    · obtain ⟨hfree, hopener⟩ := hinv.closing t' b (hstay.symm.trans hb)
      have hab : b ≠ a := by
        intro hab
        rw [hab, hhost] at hfree
        cases hfree
      exact ⟨hfree, (Function.update_of_ne hab _ _).trans hopener⟩
  · intro t' b hb
    rcases hmoved t' with ⟨-, hgo⟩ | ⟨hne, hstay⟩
    · cases hgo.symm.trans hb
    · have hbefore := hstay.symm.trans hb
      obtain ⟨hopen, hopener⟩ := hinv.opening t' b hbefore
      have hab : b ≠ a := by
        intro hab
        rw [hab] at hbefore
        exact hne (hinv.openingUnique t' t a hbefore hopening)
      exact ⟨hopen, (Function.update_of_ne hab _ _).trans hopener⟩
  · apply openingUnique_of_before hinv
    intro t' b hb
    rcases hmoved t' with ⟨-, hgo⟩ | ⟨-, hstay⟩
    · cases hgo.symm.trans hb
    · exact hstay.symm.trans hb
  · intro t' b hb
    by_cases hab : b = a
    · rw [hab]
      exact hhost
    · exact hinv.opened t' b ((Function.update_of_ne hab _ _).symm.trans hb)
  · intro t' c hc
    rcases hmoved t' with ⟨-, hgo⟩ | ⟨-, hstay⟩
    · rw [hgo] at hc
      cases hc
    · rw [hstay] at hc
      have hopener := hinv.inCall t' c hc
      have hab : c.stream ≠ a := by
        intro hab
        rw [hab, hnone] at hopener
        cases hopener
      exact (Function.update_of_ne hab _ _).trans hopener
  · intro b hb
    by_cases hab : b = a
    · rw [hab]
      exact ⟨hrecorded, hnest⟩
    · exact hinv.unowned b ((Function.update_of_ne hab _ _).symm.trans hb)
  · intro t' b hb
    by_cases hab : b = a
    · subst hab
      -- The new stream has no lock and no configuration yet, and a fresh record.
      constructor
      · change LockOk (entryAt (clearStreamTrackingState s.registry b) b) fun t' => s.nest t' b
        rw [clearStreamTrackingState_eq, Function.update_self, funext hnest]
        exact LockOk.fresh b
      · intro cfg hcfg
        cases hrecorded.symm.trans hcfg
    · exact cleared_owned hinv rfl rfl rfl hab ((Function.update_of_ne hab _ _).symm.trans hb)

/-- The host closes a stream. -/
theorem reuseInv_closes {s s' : System} {t : ThreadId} {a : Nat} {status : Int}
    (hinv : s.ReuseInv) (hlocked : s.pc t = .locked (.fclose a))
    (hs' : s' = ({ s with
      hostOpen := Function.update s.hostOpen a false
      status := Function.update s.status t status
      pc := Function.update s.pc t (.closing a) } : System).forget a) : s'.ReuseInv := by
  have hpc : s'.pc = Function.update s.pc t (.closing a) := by rw [hs']; rfl
  have hmoved := pc_update_cases hpc
  -- The thread that closes is the owner, so no other thread is in a call on the stream.
  have howner : s.opener a = some t := hinv.inCall t (.fclose a) (by rw [hlocked]; rfl)
  have hhost : s'.hostOpen = Function.update s.hostOpen a false := by rw [hs']; rfl
  have hopener : s'.opener = Function.update s.opener a none := by rw [hs']; rfl
  have hrecorded : s'.recorded = Function.update s.recorded a none := by rw [hs']; rfl
  have hregistry : s'.registry = s.registry := by rw [hs']; rfl
  have hnest : ∀ t' b, s'.nest t' b = if b = a then 0 else s.nest t' b := by
    intro t' b
    rw [hs', forget_nest]
  -- What is kept at `a` is forgotten at once, before the host may hand the address out again.
  constructor
  · rw [hregistry]
    exact hinv.distinct
  · intro t' b hb
    rw [hhost, hopener]
    by_cases hab : b = a
    · rw [hab, Function.update_self, Function.update_self]
      exact ⟨rfl, rfl⟩
    · rw [Function.update_of_ne hab, Function.update_of_ne hab]
      rcases hmoved t' with ⟨-, hgo⟩ | ⟨-, hstay⟩
      · cases hgo.symm.trans hb
        exact absurd rfl hab
      · exact hinv.closing t' b (hstay.symm.trans hb)
  · intro t' b hb
    rcases hmoved t' with ⟨-, hgo⟩ | ⟨-, hstay⟩
    · cases hgo.symm.trans hb
    · obtain ⟨hopen, hnone⟩ := hinv.opening t' b (hstay.symm.trans hb)
      have hab : b ≠ a := by
        intro hab
        rw [hab, howner] at hnone
        cases hnone
      rw [hhost, hopener, Function.update_of_ne hab, Function.update_of_ne hab]
      exact ⟨hopen, hnone⟩
  · apply openingUnique_of_before hinv
    intro t' b hb
    rcases hmoved t' with ⟨-, hgo⟩ | ⟨-, hstay⟩
    · cases hgo.symm.trans hb
    · exact hstay.symm.trans hb
  · intro t' b hb
    rw [hopener] at hb
    have hab : b ≠ a := by
      intro hab
      rw [hab, Function.update_self] at hb
      cases hb
    rw [Function.update_of_ne hab] at hb
    rw [hhost, Function.update_of_ne hab]
    exact hinv.opened t' b hb
  · intro t' c hc
    rcases hmoved t' with ⟨-, hgo⟩ | ⟨hne, hstay⟩
    · rw [hgo] at hc
      cases hc
    · rw [hstay] at hc
      have hother := hinv.inCall t' c hc
      have hab : c.stream ≠ a := by
        intro hab
        rw [hab, howner] at hother
        exact hne (Option.some.inj hother).symm
      rw [hopener, Function.update_of_ne hab]
      exact hother
  · intro b hb
    rw [hopener] at hb
    rw [hrecorded]
    by_cases hab : b = a
    · rw [hab, Function.update_self]
      exact ⟨rfl, fun t' => by rw [hnest, if_pos rfl]⟩
    · rw [Function.update_of_ne hab] at hb ⊢
      obtain ⟨hnone, hzero⟩ := hinv.unowned b hb
      exact ⟨hnone, fun t' => by rw [hnest, if_neg hab, hzero t']⟩
  · intro t' b hb
    rw [hopener] at hb
    have hab : b ≠ a := by
      intro hab
      rw [hab, Function.update_self] at hb
      cases hb
    rw [Function.update_of_ne hab] at hb
    obtain ⟨hlocks, hsettings⟩ := hinv.owned t' b hb
    have hcolumn : (fun t' => s'.nest t' b) = fun t' => s.nest t' b :=
      funext fun t' => by rw [hnest, if_neg hab]
    unfold LocksAt RecordedAt
    rw [hcolumn, hregistry, hrecorded, Function.update_of_ne hab]
    exact ⟨hlocks, hsettings⟩

/-- `fclose` returns. -/
theorem reuseInv_closed {s s' : System} {t : ThreadId} {a : Nat} (hinv : s.ReuseInv)
    (hclosing : s.pc t = .closing a)
    (hs' : s' = { s with
      registry := clearStreamTrackingState s.registry a
      pc := Function.update s.pc t .idle }) : s'.ReuseInv := by
  have hpc : s'.pc = Function.update s.pc t .idle := by rw [hs']
  have hmoved := pc_update_cases hpc
  subst hs'
  obtain ⟨-, hnone⟩ := hinv.closing t a hclosing
  constructor
  · exact hinv.distinct.eraseAll a
  · intro t' b hb
    rcases hmoved t' with ⟨-, hgo⟩ | ⟨-, hstay⟩
    · cases hgo.symm.trans hb
    · exact hinv.closing t' b (hstay.symm.trans hb)
  · intro t' b hb
    rcases hmoved t' with ⟨-, hgo⟩ | ⟨-, hstay⟩
    · cases hgo.symm.trans hb
    · exact hinv.opening t' b (hstay.symm.trans hb)
  · apply openingUnique_of_before hinv
    intro t' b hb
    rcases hmoved t' with ⟨-, hgo⟩ | ⟨-, hstay⟩
    · cases hgo.symm.trans hb
    · exact hstay.symm.trans hb
  · exact hinv.opened
  · intro t' c hc
    rcases hmoved t' with ⟨-, hgo⟩ | ⟨-, hstay⟩
    · rw [hgo] at hc
      cases hc
    · rw [hstay] at hc
      exact hinv.inCall t' c hc
  · exact hinv.unowned
  · intro t' b hb
    have hab : b ≠ a := by
      intro hab
      rw [hab] at hb
      cases hnone.symm.trans hb
    exact cleared_owned hinv rfl rfl rfl hab hb

/-- One step keeps the invariant. -/
theorem reuseInv_step {host : Host} {s s' : System} {l : Label} (hinv : s.ReuseInv)
    (huse : s.OwnUse l) (hreuse : s.NoEarlyReuse l) (hcounts : s'.Counts)
    (hstep : step host s l = some s') : s'.ReuseInv := by
  obtain ⟨heffect, hdistinct⟩ := step_effect hinv.distinct hstep
  cases heffect with
  | returns hsettings hentry hnest hrecorded howners hpc =>
    refine reuseInv_same hinv hdistinct howners hpc (Or.inl rfl)
      (fun a _ => ⟨by rw [hrecorded], fun t' => by rw [hnest]⟩) ?_
    rintro a ⟨hlocks, hsame⟩
    refine ⟨locksAt_same hlocks (hsettings a).1 hnest, fun cfg hcfg => ?_⟩
    rw [hrecorded] at hcfg
    exact (hsame cfg hcfg).of_buffering (hsettings a).2
  | works c pc hcause heffect howners hcall hguard hpc =>
    have howner : s.opener c.stream = some l.thread := by
      rcases hcause with ⟨answer, hlabel, hstream⟩ | hin
      · rw [hlabel] at huse
        exact huse.resolve_left hstream
      · exact hinv.inCall l.thread c hin
    have hother : ∀ a, s.opener a = none → a ≠ c.stream := by
      intro a ha hac
      rw [hac, howner] at ha
      cases ha
    exact reuseInv_same hinv hdistinct howners hpc
      (hcall.imp_right fun hc => ⟨c, hc, howner⟩)
      (fun a ha => ⟨heffect.recorded_of_ne (hother a ha),
        fun t' => heffect.nest_of_ne fun h => hother a ha h.2⟩)
      (fun a h => ⟨heffect.locksAt (hcounts l.thread c.stream) h.1, heffect.recordedAt h.2⟩)
  | opens c answer hlabel hopens hclosed hs' =>
    rw [hlabel] at hreuse
    exact reuseInv_opens hinv hclosed (hreuse hopens) hs'
  | opened stream hopening hs' => exact reuseInv_opened hinv hopening hs'
  | closes stream status hlocked hs' => exact reuseInv_closes hinv hlocked hs'
  | closed stream hclosing hs' => exact reuseInv_closed hinv hclosing hs'

/-! ## Runs -/

/-- **Records of streams at reused addresses.** -/
theorem records_survive_reuse (host : Host) (labels : List Label)
    (hgate : Lts.EachStep (step host) (fun s l => s.OwnUse l ∧ s.NoEarlyReuse l) (initial host)
      labels)
    (hcounts : Lts.Always (step host) System.Counts (initial host) labels) :
    Lts.Always (step host) System.Kept (initial host) labels := by
  have hinv : Lts.Always (step host) System.ReuseInv (initial host) labels :=
    Lts.always_of_gates (fun _ _ _ hinv hq hcounts hstep =>
      reuseInv_step hinv hq.1 hq.2 hcounts hstep) (initial_reuseInv host) hgate hcounts
  exact hinv.imp fun _ => kept_of_reuseInv

/-- The gate for addresses, looked up for the threads of a list only. -/
def System.NoEarlyReuseBy (threads : List ThreadId) (s : System) : Label → Prop
  | .start _ c answer => c.opens → ∀ t ∈ threads, s.pc t ≠ .closing answer.stream
  | .turn _ _ => True

instance (threads : List ThreadId) (s : System) :
    (l : Label) → Decidable (s.NoEarlyReuseBy threads l)
  | .start _ c answer =>
    inferInstanceAs (Decidable (c.opens → ∀ t ∈ threads, s.pc t ≠ .closing answer.stream))
  | .turn _ _ => inferInstanceAs (Decidable True)

/-- The gate of a run of some threads. -/
theorem gate_of_threads {host : Host} (threads : List ThreadId) {s : System}
    {labels : List Label} (hdistinct : s.registry.Distinct) (hidle : ∀ t, t ∉ threads → s.pc t = .idle)
    (hthreads : ∀ l ∈ labels, l.thread ∈ threads)
    (hgate : Lts.EachStep (step host) (fun s l => s.OwnUse l ∧ s.NoEarlyReuseBy threads l) s labels) :
    Lts.EachStep (step host) (fun s l => s.OwnUse l ∧ s.NoEarlyReuse l) s labels := by
  induction labels generalizing s with
  | nil => exact trivial
  | cons l labels ih =>
    intro s' hstep
    obtain ⟨⟨huse, hreuse⟩, hrest⟩ := hgate s' hstep
    refine ⟨⟨huse, ?_⟩, ?_⟩
    · cases l with
      | turn t answer => exact trivial
      | start t c answer =>
        intro hopens t'
        by_cases ht' : t' ∈ threads
        · exact hreuse hopens t' ht'
        · rw [hidle t' ht']
          intro h
          cases h
    · refine ih (step_effect hdistinct hstep).2 ?_
        (fun l' hl' => hthreads l' (List.mem_cons_of_mem l hl')) hrest
      intro t ht
      have hne : t ≠ l.thread := fun h => ht (h ▸ hthreads l List.mem_cons_self)
      obtain ⟨pc, hpc⟩ := (step_effect hdistinct hstep).1.moves
      rw [hpc, Function.update_of_ne hne]
      exact hidle t ht

/-- One thread has closed a stream when another one gets its address, buffers it and locks it. -/
def reuseRun : List Label :=
  [.start 1 .fopen ⟨7, 0, fun _ => none⟩, .turn 1 ⟨0, 0, fun _ => none⟩,
    .start 1 (.fclose 7) ⟨0, 0, fun _ => none⟩, .turn 1 ⟨0, 0, fun _ => none⟩,
    .turn 1 ⟨0, 0, fun _ => none⟩, .turn 1 ⟨0, 0, fun _ => none⟩,
    .start 2 .fopen ⟨7, 0, fun _ => none⟩, .turn 2 ⟨0, 0, fun _ => none⟩,
    .start 2 (.setvbuf 7 64 _IOFBF 16) ⟨0, 0, fun _ => none⟩, .turn 2 ⟨0, 0, fun _ => none⟩,
    .turn 2 ⟨0, 0, fun _ => none⟩, .turn 2 ⟨0, 0, fun _ => none⟩,
    .start 2 (.ftrylockfile 7) ⟨0, 0, fun _ => none⟩]

theorem records_survive_reuse_run :
    Lts.Always (step ⟨10, 11, 12, true⟩) System.Kept (initial ⟨10, 11, 12, true⟩) reuseRun :=
  records_survive_reuse ⟨10, 11, 12, true⟩ reuseRun
    (gate_of_threads [1, 2] List.nodup_nil (fun _ _ => rfl) (by decide)
      (by decide +kernel))
    (counts_of_short 0 List.nodup_nil (fun _ _ => Nat.le_refl 0) (by decide))

/-- The same calls, but the first thread has not cleared the record yet. -/
def earlyReuseRun : List Label :=
  [.start 1 .fopen ⟨7, 0, fun _ => none⟩, .turn 1 ⟨0, 0, fun _ => none⟩,
    .start 1 (.fclose 7) ⟨0, 0, fun _ => none⟩, .turn 1 ⟨0, 0, fun _ => none⟩,
    .turn 1 ⟨0, 0, fun _ => none⟩,
    .start 2 .fopen ⟨7, 0, fun _ => none⟩, .turn 2 ⟨0, 0, fun _ => none⟩,
    .start 2 (.setvbuf 7 64 _IOFBF 16) ⟨0, 0, fun _ => none⟩, .turn 2 ⟨0, 0, fun _ => none⟩,
    .turn 2 ⟨0, 0, fun _ => none⟩, .turn 2 ⟨0, 0, fun _ => none⟩,
    .start 2 (.ftrylockfile 7) ⟨0, 0, fun _ => none⟩, .turn 1 ⟨0, 0, fun _ => none⟩]

/-- Configuration and lock of a stream that was not closed are gone. -/
theorem early_reuse_loses_records :
    Lts.EachStep (step ⟨10, 11, 12, true⟩) (fun s l => s.OwnUse l) (initial ⟨10, 11, 12, true⟩)
      earlyReuseRun ∧
    ∃ s, Lts.run (step ⟨10, 11, 12, true⟩) (initial ⟨10, 11, 12, true⟩) earlyReuseRun = some s ∧
      s.opener 7 = some 2 ∧ s.recorded 7 = some (.of 64 _IOFBF 16) ∧ s.nest 2 7 = 1 ∧
      entryAt s.registry 7 = newStreamState 7 ∧ ¬s.Kept := by
  have hview : (Lts.run (step ⟨10, 11, 12, true⟩) (initial ⟨10, 11, 12, true⟩) earlyReuseRun).map
      (fun s => (s.opener 7, s.recorded 7, s.nest 2 7, entryAt s.registry 7)) =
        some (some 2, some (.of 64 _IOFBF 16), 1, newStreamState 7) := by
    decide +kernel
  obtain ⟨s, hrun, hs⟩ := Option.map_eq_some_iff.mp hview
  simp only [Prod.mk.injEq] at hs
  obtain ⟨hopener, hrecorded, hnest, hentry⟩ := hs
  refine ⟨by decide +kernel, s, hrun, hopener, hrecorded, hnest, hentry, fun hkept => ?_⟩
  have howner := ((hkept 7).2 2 (by rw [hnest]; decide)).1
  rw [hentry] at howner
  cases howner

end Rlibc.Stdio
