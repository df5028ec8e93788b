import Mathlib.Logic.Basic

/-!
# Runs of a partial step function

A component is a step function `step : σ → α → Option σ`: `step s a` is the state after the
action `a`, and `none` when the action has no defined result (a fault).  A run is a list of
actions taken one after the other from a given state.

* `Along P` — `P` holds in every state the run passes through, the first one included.
* `EachStep C` — `C` holds of every step of the run, in the state the step is taken from.

Principal results: `along_of_eachStep` (an invariant that every step meeting `C` preserves),
`along_of_step` (one that every step preserves), `along_iff_eachStep` (when `C` is exactly what a
step needs to preserve `P`, a run stays inside `P` iff all its steps meet `C`), `eachStep_congr`
(conditions that are equivalent wherever an invariant holds), `run_iff_eachStep` (a run whose first
step off `C` cannot be made good ends well iff all its steps meet `C`), `run_isSome` (a run whose
steps are all defined ends), `run_refines` (and takes the abstract state where the abstract actions
take it), `run_simulates` (a run of another system follows it), `answers_simulates` (and answers its
calls alike).
-/

set_option autoImplicit false

namespace Runs

variable {σ α : Type*} {step : σ → α → Option σ}

/-- The state after a list of actions. -/
def run (step : σ → α → Option σ) : σ → List α → Option σ
  | s, [] => some s
  | s, a :: as =>
    match step s a with
    | some s' => run step s' as
    | none => none

/-- `P` holds in every state the run passes through. -/
def Along (step : σ → α → Option σ) (P : σ → Prop) : σ → List α → Prop
  | s, [] => P s
  | s, a :: as => P s ∧ ∀ s', step s a = some s' → Along step P s' as

/-- `C` holds of every step of the run, in the state the step is taken from. -/
def EachStep (step : σ → α → Option σ) (C : σ → α → Prop) : σ → List α → Prop
  | _, [] => True
  | s, a :: as => C s a ∧ ∀ s', step s a = some s' → EachStep step C s' as

theorem Along.head {P : σ → Prop} {s : σ} : ∀ {as : List α}, Along step P s as → P s
  | [], h => h
  | _ :: _, h => h.1

theorem run_cons {s s' : σ} {a : α} (as : List α) (h : step s a = some s') :
    run step s (a :: as) = run step s' as := by
  simp only [run, h]

/-- What holds along a run holds in the state it ends in. -/
theorem Along.last {P : σ → Prop} : ∀ {as : List α} {s t : σ}, Along step P s as →
    run step s as = some t → P t
  | [], s, t, h, hr => by
    simp only [run, Option.some.injEq] at hr
    subst hr; exact h
  | a :: as, s, t, h, hr => by
    simp only [run] at hr
    split at hr
    · rename_i s' hs
      exact Along.last (h.2 s' hs) hr
    · cases hr

theorem Along.mono {P Q : σ → Prop} (hPQ : ∀ s, P s → Q s) :
    ∀ {as : List α} {s : σ}, Along step P s as → Along step Q s as
  | [], _, h => hPQ _ h
  | _ :: _, _, h => ⟨hPQ _ h.1, fun s' hs => Along.mono hPQ (h.2 s' hs)⟩

/-- Each step of the run starts and ends where `P` holds. -/
theorem Along.eachStep {P : σ → Prop} :
    ∀ {as : List α} {s : σ}, Along step P s as →
      EachStep step (fun s a => P s ∧ ∀ s', step s a = some s' → P s') s as
  | [], _, _ => trivial
  | _ :: _, _, h => ⟨⟨h.1, fun s' hs => (h.2 s' hs).head⟩, fun s' hs => (h.2 s' hs).eachStep⟩

theorem eachStep_of_forall {C : σ → α → Prop} (h : ∀ s a, C s a) :
    ∀ (s : σ) (as : List α), EachStep step C s as
  | _, [] => trivial
  | s, a :: as => ⟨h s a, fun s' _ => eachStep_of_forall h s' as⟩

theorem EachStep.mono {C D : σ → α → Prop} (hCD : ∀ s a, C s a → D s a) :
    ∀ {as : List α} {s : σ}, EachStep step C s as → EachStep step D s as
  | [], _, _ => trivial
  | _ :: _, _, h => ⟨hCD _ _ h.1, fun s' hs => EachStep.mono hCD (h.2 s' hs)⟩

theorem EachStep.and {C D : σ → α → Prop} :
    ∀ {as : List α} {s : σ}, EachStep step C s as → EachStep step D s as →
      EachStep step (fun s a => C s a ∧ D s a) s as
  | [], _, _, _ => trivial
  | _ :: _, _, hc, hd => ⟨⟨hc.1, hd.1⟩, fun s' hs => (hc.2 s' hs).and (hd.2 s' hs)⟩

/-- A run can be checked step by step. -/
instance decidableEachStep {C : σ → α → Prop} [∀ s a, Decidable (C s a)] :
    ∀ (s : σ) (as : List α), Decidable (EachStep step C s as)
  | _, [] => isTrue trivial
  | s, a :: as =>
    match hs : step s a with
    | none => decidable_of_iff (C s a) ⟨fun hc => ⟨hc, fun s' h => by simp [hs] at h⟩, And.left⟩
    | some s' =>
      have : Decidable (EachStep step C s' as) := decidableEachStep s' as
      decidable_of_iff (C s a ∧ EachStep step C s' as)
        ⟨fun h => ⟨h.1, fun t ht => Option.some.inj (hs.symm.trans ht) ▸ h.2⟩,
          fun h => ⟨h.1, h.2 s' hs⟩⟩

instance decidableAlong {P : σ → Prop} [∀ s, Decidable (P s)] :
    ∀ (s : σ) (as : List α), Decidable (Along step P s as)
  | s, [] => inferInstanceAs (Decidable (P s))
  | s, a :: as =>
    match hs : step s a with
    | none => decidable_of_iff (P s) ⟨fun hP => ⟨hP, fun s' h => by simp [hs] at h⟩, And.left⟩
    | some s' =>
      have : Decidable (Along step P s' as) := decidableAlong s' as
      decidable_of_iff (P s ∧ Along step P s' as)
        ⟨fun h => ⟨h.1, fun t ht => Option.some.inj (hs.symm.trans ht) ▸ h.2⟩,
          fun h => ⟨h.1, h.2 s' hs⟩⟩

/-- **The invariant rule.** -/
theorem along_of_eachStep {P : σ → Prop} {C : σ → α → Prop}
    (hstep : ∀ s a s', P s → C s a → step s a = some s' → P s') :
    ∀ {as : List α} {s : σ}, P s → EachStep step C s as → Along step P s as
  | [], _, hP, _ => hP
  | _ :: _, _, hP, hC => ⟨hP, fun s' hs => along_of_eachStep hstep (hstep _ _ s' hP hC.1 hs)
      (hC.2 s' hs)⟩

/-- The invariant rule where every step preserves `P`. -/
theorem along_of_step {P : σ → Prop} (hstep : ∀ s a s', P s → step s a = some s' → P s')
    {s : σ} (hP : P s) (as : List α) : Along step P s as := by
  induction as generalizing s with
  | nil => exact hP
  | cons a as ih => exact ⟨hP, fun s' hs => ih (hstep s a s' hP hs)⟩

/-- Conditions that are the same wherever an invariant holds are the same along a run. -/
theorem eachStep_congr {I : σ → Prop} {C D : σ → α → Prop}
    (hstep : ∀ s a s', I s → step s a = some s' → I s') (h : ∀ s a, I s → (C s a ↔ D s a)) :
    ∀ {as : List α} {s : σ}, I s → (EachStep step C s as ↔ EachStep step D s as)
  | [], _, _ => Iff.rfl
  | a :: as, s, hI => by
    refine and_congr (h s a hI) (forall_congr' fun s' => ?_)
    exact imp_congr_right fun hs => eachStep_congr hstep h (hstep s a s' hI hs)

/-- A run whose steps are all defined ends, and the invariant holds where it ends. -/
theorem run_isSome {P : σ → Prop} {C : σ → α → Prop}
    (hstep : ∀ s a, P s → C s a → ∃ s', step s a = some s' ∧ P s') :
    ∀ {as : List α} {s : σ}, P s → EachStep step C s as → ∃ t, run step s as = some t ∧ P t
  | [], s, hP, _ => ⟨s, rfl, hP⟩
  | a :: as, s, hP, hC => by
    obtain ⟨s', hs, hP'⟩ := hstep s a hP hC.1
    obtain ⟨t, ht, hPt⟩ := run_isSome hstep hP' (hC.2 s' hs)
    exact ⟨t, by rw [run_cons as hs]; exact ht, hPt⟩

/-- **The refinement rule**: steps that have the effect of an abstract action, seen through the
abstraction `abs`, make up runs that do. -/
theorem run_refines {τ : Type*} {P : σ → Prop} {C : σ → α → Prop} {abs : σ → τ}
    {spec : τ → α → τ}
    (hstep : ∀ s a, P s → C s a → ∃ s', step s a = some s' ∧ P s' ∧ abs s' = spec (abs s) a) :
    ∀ {as : List α} {s : σ}, P s → EachStep step C s as →
      ∃ t, run step s as = some t ∧ P t ∧ abs t = as.foldl spec (abs s)
  | [], s, hP, _ => ⟨s, rfl, hP, rfl⟩
  | a :: as, s, hP, hC => by
    obtain ⟨s', hs, hP', habs⟩ := hstep s a hP hC.1
    obtain ⟨t, ht, hPt, hrest⟩ := run_refines hstep hP' (hC.2 s' hs)
    refine ⟨t, by rw [run_cons as hs]; exact ht, hPt, ?_⟩
    rw [hrest, habs, List.foldl_cons]

/-- **The simulation rule**: steps that the other system can follow make up runs that it can. -/
theorem run_simulates {τ : Type*} {spec : τ → α → Option τ} {R : σ → τ → Prop}
    (hstep : ∀ s t a s', R s t → step s a = some s' → ∃ t', spec t a = some t' ∧ R s' t') :
    ∀ {as : List α} {s s' : σ} {t : τ}, R s t → run step s as = some s' →
      ∃ t', run spec t as = some t' ∧ R s' t'
  | [], s, s', t, hR, hr => by
    cases hr
    exact ⟨t, rfl, hR⟩
  | a :: as, s, s', t, hR, hr => by
    cases hs : step s a with
    | none =>
      simp only [run, hs] at hr
      cases hr
    | some s₁ =>
      rw [run_cons as hs] at hr
      obtain ⟨t₁, ht, hR₁⟩ := hstep s t a s₁ hR hs
      obtain ⟨t', ht', hR'⟩ := run_simulates hstep hR₁ hr
      exact ⟨t', by rw [run_cons as ht]; exact ht', hR'⟩

/-- **The exact invariant rule.**  `I` is an invariant of all the steps under consideration
(those meeting `E`), and from a state in `P` such a step stays in `P` exactly when it meets
`C`.  Then a run stays in `P` iff each of its steps meets `C`. -/
theorem along_iff_eachStep {I P : σ → Prop} {E C : σ → α → Prop}
    (hdef : ∀ s a, I s → E s a → ∃ s', step s a = some s' ∧ I s')
    (hexact : ∀ s a s', I s → P s → E s a → step s a = some s' → (P s' ↔ C s a)) :
    ∀ {as : List α} {s : σ}, I s → P s → EachStep step E s as →
      (Along step P s as ↔ EachStep step C s as)
  | [], _, _, hP, _ => ⟨fun _ => trivial, fun _ => hP⟩
  | a :: as, s, hI, hP, hE => by
    obtain ⟨s', hs, hI'⟩ := hdef s a hI hE.1
    have hx := hexact s a s' hI hP hE.1 hs
    have ih := fun hP' => along_iff_eachStep hdef hexact hI' hP' (hE.2 s' hs)
    have huniq : ∀ t, step s a = some t → t = s' := fun t ht => by
      rw [hs] at ht; exact (Option.some.inj ht).symm
    constructor
    · intro h
      have hP' : P s' := (h.2 s' hs).head
      refine ⟨hx.1 hP', fun t ht => ?_⟩
      rw [huniq t ht]
      exact (ih hP').1 (h.2 s' hs)
    · intro h
      have hP' : P s' := hx.2 h.1
      refine ⟨hP, fun t ht => ?_⟩
      rw [huniq t ht]
      exact (ih hP').2 (h.2 s' hs)

/-- **The rule of no repair.**  Steps that meet `C` preserve `I`; a step from `I` that does not
leads to `Bad`, which no step leads out of.  Then a run ends outside `Bad` iff each of its steps
meets `C`, and `I` holds there. -/
theorem run_iff_eachStep {I Bad : σ → Prop} {C : σ → α → Prop}
    (hgood : ∀ s a s', I s → C s a → step s a = some s' → I s')
    (hbad : ∀ s a s', I s → ¬ C s a → step s a = some s' → Bad s')
    (hkeep : ∀ s a s', Bad s → step s a = some s' → Bad s') (hdisj : ∀ s, I s → ¬ Bad s) :
    ∀ {as : List α} {s t : σ}, I s → run step s as = some t →
      (¬ Bad t ↔ EachStep step C s as) ∧ (EachStep step C s as → I t)
  | [], s, t, hI, hr => by
    cases hr
    exact ⟨iff_of_true (hdisj s hI) trivial, fun _ => hI⟩
  | a :: as, s, t, hI, hr => by
    cases hs : step s a with
    | none =>
      simp only [run, hs] at hr
      cases hr
    | some s' =>
      rw [run_cons as hs] at hr
      have htail : EachStep step C s (a :: as) ↔ C s a ∧ EachStep step C s' as :=
        and_congr_right fun _ =>
          ⟨fun h => h s' hs, fun h t' ht => by rwa [Option.some.inj (ht.symm.trans hs)]⟩
      rw [htail]
      by_cases hC : C s a
      · obtain ⟨hiff, hend⟩ := run_iff_eachStep hgood hbad hkeep hdisj (hgood s a s' hI hC hs) hr
        exact ⟨hiff.trans (and_iff_right hC).symm, fun h => hend h.2⟩
      · have hBad : Bad t := (along_of_step hkeep (hbad s a s' hI hC hs) as).last hr
        exact ⟨iff_of_false (not_not_intro hBad) fun h => hC h.1, fun h => absurd h.1 hC⟩

/-! ## Calls that answer -/

section Answers

variable {τ β : Type*} {call : σ → α → Option (β × σ)}

/-- The state after a call that answers. -/
def after (call : σ → α → Option (β × σ)) (s : σ) (a : α) : Option σ := (call s a).map Prod.snd

/-- The answers of a list of calls. -/
def answers (call : σ → α → Option (β × σ)) : σ → List α → Option (List β)
  | _, [] => some []
  | s, a :: as =>
    match call s a with
    | some (b, s') => (answers call s' as).map (b :: ·)
    | none => none

/-- **The simulation rule for answers**: calls that another system answers alike, and that leave
the two related, are answered alike one after the other. -/
theorem answers_simulates {spec : τ → α → Option (β × τ)} {R : σ → τ → Prop}
    (hcall : ∀ s t a, R s t → (call s a = none ∧ spec t a = none) ∨
      ∃ b s' t', call s a = some (b, s') ∧ spec t a = some (b, t') ∧ R s' t') :
    ∀ {as : List α} {s : σ} {t : τ}, R s t → answers call s as = answers spec t as
  | [], _, _, _ => rfl
  | a :: as, s, t, hR => by
    rcases hcall s t a hR with ⟨hs, ht⟩ | ⟨b, s', t', hs, ht, hR'⟩
    · simp only [answers, hs, ht]
    · simp only [answers, hs, ht]
      rw [answers_simulates hcall hR']

/-- Calls are answered to the end iff none of them has no answer. -/
theorem answers_eq_none_iff {P : σ → Prop} {bad : α → Prop}
    (hcall : ∀ s a, P s → (call s a = none ↔ bad a))
    (hstep : ∀ s a b s', P s → call s a = some (b, s') → P s') :
    ∀ {as : List α} {s : σ}, P s → (answers call s as = none ↔ ∃ a ∈ as, bad a)
  | [], s, _ => by simp [answers]
  | a :: as, s, hP => by
    cases hs : call s a with
    | none => simp [answers, hs, (hcall s a hP).1 hs]
    | some p =>
      obtain ⟨b, s'⟩ := p
      have hgood : ¬ bad a := fun hbad => by rw [(hcall s a hP).2 hbad] at hs; cases hs
      simp [answers, hs, hgood, answers_eq_none_iff hcall hstep (hstep s a b s' hP hs)]

end Answers

end Runs
