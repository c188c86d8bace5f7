import Mathlib.Logic.Relation

/-!
# Runs of a transition system

The rule that carries an invariant from one step to a whole run, and runs along a list of labels.
-/

namespace Transition

variable {σ α : Type*}

/-- The states that a run from `s` reaches. -/
abbrev Reaches (step : σ → σ → Prop) : σ → σ → Prop := Relation.ReflTransGen step

/-- What every step preserves holds in every state reached. -/
theorem invariant_of_step (step : σ → σ → Prop) {I : σ → Prop}
    (hstep : ∀ s s', I s → step s s' → I s') {s s' : σ} (hrun : Reaches step s s') (h : I s) :
    I s' := by
  induction hrun with
  | refl => exact h
  | tail _ hlast ih => exact hstep _ _ ih hlast

/-- The labels lead from one state to another. -/
inductive Leads (step : α → σ → σ → Prop) : List α → σ → σ → Prop
  | nil (s : σ) : Leads step [] s s
  | cons {a : α} {as : List α} {s t u : σ} (hstep : step a s t) (hrest : Leads step as t u) :
    Leads step (a :: as) s u

theorem leads_nil_iff {step : α → σ → σ → Prop} {s t : σ} : Leads step [] s t ↔ s = t := by
  constructor
  · rintro ⟨⟩
    rfl
  · rintro rfl
    exact .nil s

theorem leads_cons_iff {step : α → σ → σ → Prop} {a : α} {as : List α} {s u : σ} :
    Leads step (a :: as) s u ↔ ∃ t, step a s t ∧ Leads step as t u := by
  constructor
  · intro h
    cases h with
    | cons hstep hrest => exact ⟨_, hstep, hrest⟩
  · rintro ⟨t, hstep, hrest⟩
    exact .cons hstep hrest

/-- A run has come through a state between any two of its labels. -/
theorem Leads.split {step : α → σ → σ → Prop} {as bs : List α} {s u : σ}
    (h : Leads step (as ++ bs) s u) : ∃ t, Leads step as s t ∧ Leads step bs t u := by
  induction as generalizing s with
  | nil => exact ⟨s, .nil s, h⟩
  | cons a as ih =>
    obtain ⟨t, hstep, hrest⟩ := leads_cons_iff.mp h
    obtain ⟨r, has, hbs⟩ := ih hrest
    exact ⟨r, .cons hstep has, hbs⟩

/-- A run goes on by one more step. -/
theorem Leads.snoc {step : α → σ → σ → Prop} {a : α} {as : List α} {s t u : σ}
    (h : Leads step as s t) (hstep : step a t u) : Leads step (as ++ [a]) s u := by
  induction h with
  | nil => exact .cons hstep (.nil _)
  | cons hfirst _ ih => exact .cons hfirst (ih hstep)

end Transition
