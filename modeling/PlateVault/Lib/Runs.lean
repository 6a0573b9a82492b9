import Mathlib.Data.List.Basic

/-!
# Runs of a transition relation

A run is a sequence of labelled steps. An invariant that every step keeps holds after the run, and
a reflexive transitive relation that every step respects relates the run's ends. Both rules come in
a form that may use an invariant already known of the states between.
-/

/-- `Run step s labels s'`: the steps `labels` lead from `s` to `s'`. -/
inductive Run {σ ℓ : Type*} (step : σ → ℓ → σ → Prop) : σ → List ℓ → σ → Prop
  | nil (s : σ) : Run step s [] s
  | cons {s : σ} {l : ℓ} {s' : σ} {ls : List ℓ} {s'' : σ} :
      step s l s' → Run step s' ls s'' → Run step s (l :: ls) s''

namespace Run

variable {σ ℓ : Type*} {step : σ → ℓ → σ → Prop}

theorem append {s s' s'' : σ} {ls ls' : List ℓ} (h : Run step s ls s')
    (h' : Run step s' ls' s'') : Run step s (ls ++ ls') s'' := by
  induction h with
  | nil => exact h'
  | cons hstep _ ih => exact .cons hstep (ih h')

/-- A run of steps each of which another relation allows. -/
theorem mono {step' : σ → ℓ → σ → Prop} (hstep : ∀ s l s', step s l s' → step' s l s')
    {s s' : σ} {ls : List ℓ} (h : Run step s ls s') : Run step' s ls s' := by
  induction h with
  | nil s => exact .nil s
  | cons h _ ih => exact .cons (hstep _ _ _ h) ih

/-- The rule for runs: what every step keeps, a run keeps. -/
theorem invariant {I : σ → Prop} (hI : ∀ s l s', I s → step s l s' → I s')
    {s s' : σ} {ls : List ℓ} (h : Run step s ls s') (hs : I s) : I s' := by
  induction h with
  | nil => exact hs
  | cons hstep _ ih => exact ih (hI _ _ _ hs hstep)

/-- A relation that every step from an invariant state respects relates the run's ends. -/
theorem relates {I : σ → Prop} {R : σ → σ → Prop} (hrefl : ∀ s, R s s)
    (htrans : ∀ a b c, R a b → R b c → R a c) (hI : ∀ s l s', I s → step s l s' → I s')
    (hR : ∀ s l s', I s → step s l s' → R s s')
    {s s' : σ} {ls : List ℓ} (h : Run step s ls s') (hs : I s) : R s s' := by
  induction h with
  | nil => exact hrefl _
  | cons hstep _ ih => exact htrans _ _ _ (hR _ _ _ hs hstep) (ih (hI _ _ _ hs hstep))

/-- The rule for what is said of a state and the steps that led to it. -/
theorem traced {I : List ℓ → σ → Prop} (hI : ∀ ls s l s', I ls s → step s l s' → I (ls ++ [l]) s')
    {s s' : σ} {before ls : List ℓ} (h : Run step s ls s') (hs : I before s) :
    I (before ++ ls) s' := by
  induction h generalizing before with
  | nil => rwa [List.append_nil]
  | @cons s l s' ls s'' hstep _ ih =>
    have := ih (hI before s l s' hs hstep)
    rwa [List.append_assoc, List.singleton_append] at this

theorem cons_iff {s s'' : σ} {l : ℓ} {ls : List ℓ} :
    Run step s (l :: ls) s'' ↔ ∃ s', step s l s' ∧ Run step s' ls s'' := by
  constructor
  · rintro (_ | ⟨hstep, hrest⟩)
    exact ⟨_, hstep, hrest⟩
  · rintro ⟨s', hstep, hrest⟩
    exact .cons hstep hrest

/-- Where a run's steps are cut, the run is. -/
theorem split {s s'' : σ} {ls ls' : List ℓ} (h : Run step s (ls ++ ls') s'') :
    ∃ s', Run step s ls s' ∧ Run step s' ls' s'' := by
  induction ls generalizing s with
  | nil => exact ⟨s, .nil s, h⟩
  | cons l ls ih =>
    obtain ⟨s₁, hstep, hrest⟩ := cons_iff.mp h
    obtain ⟨s', hfront, hback⟩ := ih hrest
    exact ⟨s', .cons hstep hfront, hback⟩

end Run
