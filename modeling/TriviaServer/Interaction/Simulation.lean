import Mathlib.Logic.Relation

/-! # Forward simulations

A relation between the states of two systems such that every step of the first is matched by
some steps, or none, of the second. -/

namespace Interaction

variable {σ τ : Type} {R : σ → τ → Prop} {step : σ → σ → Prop} {step' : τ → τ → Prop}

def Simulates (R : σ → τ → Prop) (step : σ → σ → Prop) (step' : τ → τ → Prop) : Prop :=
  ∀ ⦃s s' t⦄, R s t → step s s' → ∃ t', Relation.ReflTransGen step' t t' ∧ R s' t'

/-- Every run is matched by a run. -/
theorem Simulates.run (h : Simulates R step step') {s s' : σ} {t : τ} (hr : R s t)
    (hrun : Relation.ReflTransGen step s s') :
    ∃ t', Relation.ReflTransGen step' t t' ∧ R s' t' := by
  induction hrun with
  | refl => exact ⟨t, .refl, hr⟩
  | tail _ hs ih =>
      obtain ⟨t₁, hfirst, hr₁⟩ := ih
      obtain ⟨t₂, hlast, hr₂⟩ := h hr₁ hs
      exact ⟨t₂, hfirst.trans hlast, hr₂⟩

/-- A step that the second system does not see. -/
theorem stutter {s : σ} {t : τ} (hr : R s t) :
    ∃ t', Relation.ReflTransGen step' t t' ∧ R s t' :=
  ⟨t, .refl, hr⟩

/-- A step matched by one step. -/
theorem match_once {s : σ} {t t' : τ} (hs : step' t t') (hr : R s t') :
    ∃ t', Relation.ReflTransGen step' t t' ∧ R s t' :=
  ⟨t', .single hs, hr⟩

end Interaction
