import Kernel391.Foundations.Runs

/-! A transition system with a ghost: a value that every step updates and no step reads.
What the ghost records of a run is proved like an invariant of the pair. -/
namespace Kernel391.Foundations
set_option autoImplicit false

variable {σ ε γ : Type}

structure Ghosted (σ γ : Type) where
  state : σ
  ghost : γ

def ghostStep (step : σ → ε → Option σ) (update : σ → ε → γ → γ) (s : Ghosted σ γ) (e : ε) : Option (Ghosted σ γ) :=
  (step s.state e).map fun t => ⟨t, update s.state e s.ghost⟩

section Ghost
variable {step : σ → ε → Option σ} {update : σ → ε → γ → γ} {ok : σ → ε → Prop} {s s' : Ghosted σ γ} {e : ε}

theorem ghostStep_some (h : ghostStep step update s e = some s') :
    step s.state e = some s'.state ∧ s'.ghost = update s.state e s.ghost := by
  obtain ⟨t, ht, rfl⟩ := Option.map_eq_some_iff.mp h
  exact ⟨ht, rfl⟩

theorem ghostStep_of {t t' : σ} (h : step t e = some t') (update : σ → ε → γ → γ) (g : γ) :
    ghostStep step update ⟨t, g⟩ e = some ⟨t', update t e g⟩ := by
  unfold ghostStep
  simp only
  rw [h]
  rfl

theorem Reaches.ghosted {t t' : σ} (h : Reaches step ok t t') (g : γ) :
    ∃ g', Reaches (ghostStep step update) (fun s => ok s.state) ⟨t, g⟩ ⟨t', g'⟩ := by
  induction h with
  | refl => exact ⟨g, .refl _⟩
  | @tail t₁ t₂ e _ hok hs ih =>
    obtain ⟨g₁, hrun⟩ := ih
    exact ⟨update t₁ e g₁, hrun.tail hok (ghostStep_of hs update g₁)⟩

end Ghost

end Kernel391.Foundations
