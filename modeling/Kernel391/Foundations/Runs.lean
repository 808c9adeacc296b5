import Mathlib.Data.List.Forall2
import Mathlib.Data.Option.Defs
import Mathlib.Logic.Relation

/-! Labelled transition systems given by a partial step function, and the runs
whose steps all meet a condition. The invariant rule is stated once, for the
state reached and for the pair of states around the last step. -/
namespace Kernel391.Foundations
set_option autoImplicit false

variable {σ ε : Type}

/-- `Reaches step ok s t`: some run leads from `s` to `t`, and every step of it is taken from a
state and with an event that meet `ok`. -/
inductive Reaches (step : σ → ε → Option σ) (ok : σ → ε → Prop) : σ → σ → Prop
  | refl (s : σ) : Reaches step ok s s
  | tail {s t u : σ} {e : ε} : Reaches step ok s t → ok t e → step t e = some u → Reaches step ok s u

def anyStep : σ → ε → Prop := fun _ _ => True

namespace Reaches
variable {step : σ → ε → Option σ} {ok ok' : σ → ε → Prop} {s t u : σ}

theorem trans (h₁ : Reaches step ok s t) (h₂ : Reaches step ok t u) : Reaches step ok s u := by
  induction h₂ with
  | refl => exact h₁
  | tail _ hok hstep ih => exact ih.tail hok hstep

theorem single {e : ε} (hok : ok s e) (h : step s e = some t) : Reaches step ok s t :=
  (Reaches.refl s).tail hok h

theorem head {e : ε} (hok : ok s e) (hs : step s e = some t) (h : Reaches step ok t u) : Reaches step ok s u :=
  (single hok hs).trans h

theorem carry {ε' : Type} {step' : σ → ε' → Option σ} {ok' : σ → ε' → Prop}
    (hstep : ∀ s e t, ok s e → step s e = some t → ∃ e', ok' s e' ∧ step' s e' = some t) (h : Reaches step ok s t) :
    Reaches step' ok' s t := by
  induction h with
  | refl => exact .refl _
  | tail _ hok hs ih =>
    obtain ⟨e', hok', hs'⟩ := hstep _ _ _ hok hs
    exact ih.tail hok' hs'

theorem mono (hle : ∀ s e, ok s e → ok' s e) (h : Reaches step ok s t) : Reaches step ok' s t :=
  h.carry fun s e _ hok hs => ⟨e, hle s e hok, hs⟩

theorem invariant {P : σ → Prop} (h : Reaches step ok s t) (h0 : P s)
    (hstep : ∀ s e t, P s → ok s e → step s e = some t → P t) : P t := by
  induction h with
  | refl => exact h0
  | tail _ hok hs ih => exact hstep _ _ _ ih hok hs

end Reaches

/-! ## Runs on a list of events -/

def runEvents (step : σ → ε → Option σ) : σ → List ε → Option σ
  | s, [] => some s
  | s, e :: es =>
    match step s e with
    | some t => runEvents step t es
    | none => none

theorem runEvents_cons {step : σ → ε → Option σ} {s t : σ} {e : ε} {es : List ε} (h : step s e = some t) :
    runEvents step s (e :: es) = runEvents step t es := by
  simp only [runEvents, h]

theorem reaches_of_runEvents {step : σ → ε → Option σ} {s t : σ} {es : List ε}
    (h : runEvents step s es = some t) : Reaches step anyStep s t := by
  induction es generalizing s with
  | nil =>
    simp only [runEvents, Option.some.injEq] at h
    subst h
    exact .refl _
  | cons e es ih =>
    simp only [runEvents] at h
    split at h
    · next u hu => exact (Reaches.single trivial hu).trans (ih h)
    · cases h

theorem runEvents_rel {τ : Type} {step : σ → ε → Option σ} {step' : τ → ε → Option τ} {R : σ → τ → Prop}
    (hstep : ∀ s t e, R s t → Option.Rel R (step s e) (step' t e)) {s : σ} {t : τ} (h : R s t) (es : List ε) :
    Option.Rel R (runEvents step s es) (runEvents step' t es) := by
  induction es generalizing s t with
  | nil => exact .some h
  | cons e es ih =>
    have hs := hstep s t e h
    simp only [runEvents]
    cases hs' : step s e with
    | none =>
      rw [hs'] at hs
      cases ht : step' t e with
      | none => exact .none
      | some b =>
        rw [ht] at hs
        cases hs
    | some a =>
      rw [hs'] at hs
      cases ht : step' t e with
      | none =>
        rw [ht] at hs
        cases hs
      | some b =>
        rw [ht] at hs
        cases hs with
        | some hab => exact ih hab

/-- A system whose steps another one follows, each with an event of its own, until it is dead. -/
theorem runEvents_follows {τ ε' : Type} {step : σ → ε → Option σ} {step' : τ → ε' → Option τ} {R : σ → τ → Prop}
    {label : ε → ε' → Prop} {dead : σ → Prop} (hdead : ∀ s e, dead s → step s e = none)
    (hstep : ∀ s t e u, R s t → step s e = some u → dead u ∨ ∃ e' v, label e e' ∧ step' t e' = some v ∧ R u v)
    {s u : σ} {t : τ} {es : List ε} (h : R s t) (hrun : runEvents step s es = some u) :
    dead u ∨ ∃ es' v, List.Forall₂ label es es' ∧ runEvents step' t es' = some v ∧ R u v := by
  induction es generalizing s t with
  | nil =>
    simp only [runEvents, Option.some.injEq] at hrun
    subst hrun
    exact Or.inr ⟨[], t, .nil, rfl, h⟩
  | cons e es ih =>
    simp only [runEvents] at hrun
    cases hs : step s e with
    | none =>
      rw [hs] at hrun
      cases hrun
    | some s₁ =>
      rw [hs] at hrun
      rcases hstep s t e s₁ h hs with hd | ⟨e', t₁, hlabel, ht, hR⟩
      · cases es with
        | nil =>
          simp only [runEvents, Option.some.injEq] at hrun
          exact Or.inl (hrun ▸ hd)
        | cons e₁ es =>
          simp only [runEvents, hdead s₁ e₁ hd] at hrun
          cases hrun
      · rcases ih hR hrun with hd | ⟨es', v, hmatched, hrun', hv⟩
        · exact Or.inl hd
        · refine Or.inr ⟨e' :: es', v, .cons hlabel hmatched, ?_, hv⟩
          simp only [runEvents, ht]
          exact hrun'

def guarded (step : σ → ε → Option σ) (test : σ → ε → Bool) (s : σ) (e : ε) : Option σ :=
  if test s e then step s e else none

theorem reaches_of_guarded {step : σ → ε → Option σ} {test : σ → ε → Bool} {ok : σ → ε → Prop} {s t : σ}
    (hok : ∀ s e, test s e = true → ok s e) (h : Reaches (guarded step test) anyStep s t) : Reaches step ok s t := by
  induction h with
  | refl => exact .refl _
  | tail _ _ hs ih =>
    unfold guarded at hs
    split at hs
    · next htest => exact ih.tail (hok _ _ htest) hs
    · cases hs

end Kernel391.Foundations
