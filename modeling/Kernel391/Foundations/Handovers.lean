import Kernel391.Foundations.Ghosts
import Mathlib.Logic.Function.Basic

/-! One processor and many owners. What an owner leaves behind when it loses the processor is captured; it is a fact
about the owner until it has the processor again, if a step neither forgets it for the others nor misses it for the
one that loses the processor. -/
namespace Kernel391.Foundations
set_option autoImplicit false

variable {σ ε ι α : Type} [DecidableEq ι]

def recordLoss (step : σ → ε → Option σ) (owner : σ → ι) (capture : σ → ε → α) (s : σ) (e : ε) (g : ι → α) : ι → α :=
  match step s e with
  | some t => if owner t = owner s then g else Function.update g (owner s) (capture s e)
  | none => g

/-- What was left behind is true of all live owners without the processor. -/
def Suspended (owner : σ → ι) (live : σ → ι → Prop) (R : σ → ι → α → Prop) (s : Ghosted σ (ι → α)) : Prop :=
  ∀ i, live s.state i → i ≠ owner s.state → R s.state i (s.ghost i)

section Record
variable {step : σ → ε → Option σ} {owner : σ → ι} {capture : σ → ε → α} {s t : σ} {e : ε} {g : ι → α} {i : ι}

theorem recordLoss_self (hs : step s e = some t) (ho : owner t ≠ owner s) :
    recordLoss step owner capture s e g (owner s) = capture s e := by
  unfold recordLoss
  simp only [hs]
  rw [if_neg ho, Function.update_self]

theorem recordLoss_ne (hs : step s e = some t) (hi : i ≠ owner s) : recordLoss step owner capture s e g i = g i := by
  unfold recordLoss
  simp only [hs]
  split
  · rfl
  · exact Function.update_of_ne hi _ _

end Record

section Step
variable {step : σ → ε → Option σ} {owner : σ → ι} {capture : σ → ε → α} {live : σ → ι → Prop} {R : σ → ι → α → Prop}
  {s t : Ghosted σ (ι → α)} {e : ε}

theorem Suspended.keep (h : Suspended owner live R s) (hs : ghostStep step (recordLoss step owner capture) s e = some t)
    (bystander : ∀ i, i ≠ owner s.state → i ≠ owner t.state → live t.state i →
      live s.state i ∧ ∀ x, R s.state i x → R t.state i x)
    (loser : owner t.state ≠ owner s.state → live t.state (owner s.state) →
      R t.state (owner s.state) (capture s.state e)) :
    Suspended owner live R t := by
  obtain ⟨hstep, hghost⟩ := ghostStep_some hs
  intro i hlive hi
  rw [hghost]
  by_cases his : i = owner s.state
  · subst his
    rw [recordLoss_self hstep hi.symm]
    exact loser hi.symm hlive
  · obtain ⟨hold, hkeep⟩ := bystander i his hi hlive
    rw [recordLoss_ne hstep his]
    exact hkeep _ (h i hold his)

end Step
end Kernel391.Foundations
