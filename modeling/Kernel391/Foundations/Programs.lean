import Mathlib.Logic.Basic
import Mathlib.Data.Nat.Notation

/-! Programs over a state that end with a value or stop. `Ends` is total correctness from a
state: the program ends there, with a value and a state that satisfy the postcondition. The rules
push it through a program, and a loop ends when its rounds make a measure smaller. -/
namespace Kernel391.Foundations
set_option autoImplicit false

abbrev Prog (ε σ : Type) := StateT σ (Except ε)

section Ends
variable {ε σ α β γ : Type}

/-- The program ends from `s`, and what it leaves satisfies `Q`. -/
def Ends (p : Prog ε σ α) (s : σ) (Q : α → σ → Prop) : Prop := ∃ a s', p.run s = .ok (a, s') ∧ Q a s'

variable {p : Prog ε σ α} {s : σ} {Q Q' : α → σ → Prop}

@[simp] theorem ends_pure (a : α) : Ends (pure a : Prog ε σ α) s Q ↔ Q a s := by
  constructor
  · rintro ⟨a', s', h, hq⟩
    cases h
    exact hq
  · exact fun h => ⟨a, s, rfl, h⟩

@[simp] theorem ends_bind {f : α → Prog ε σ β} {R : β → σ → Prop} :
    Ends (p >>= f) s R ↔ Ends p s fun a s' => Ends (f a) s' R := by
  have hrun : (p >>= f).run s = p.run s >>= fun r => (f r.1).run r.2 := rfl
  unfold Ends
  rw [hrun]
  constructor
  · rintro ⟨b, s', h, hr⟩
    cases hp : p.run s with
    | error e =>
      rw [hp] at h
      cases h
    | ok r =>
      rw [hp] at h
      exact ⟨r.1, r.2, rfl, b, s', h, hr⟩
  · rintro ⟨a, s₁, hp, b, s', hf, hr⟩
    refine ⟨b, s', ?_, hr⟩
    rw [hp]
    exact hf

@[simp] theorem ends_get {R : σ → σ → Prop} : Ends (get : Prog ε σ σ) s R ↔ R s s := ends_pure s

@[simp] theorem ends_set (t : σ) {R : PUnit → σ → Prop} : Ends (set t : Prog ε σ PUnit) s R ↔ R ⟨⟩ t := by
  constructor
  · rintro ⟨a, s', h, hr⟩
    cases h
    exact hr
  · exact fun h => ⟨⟨⟩, t, rfl, h⟩

@[simp] theorem ends_modify (f : σ → σ) {R : PUnit → σ → Prop} : Ends (modify f : Prog ε σ PUnit) s R ↔ R ⟨⟩ (f s) := by
  constructor
  · rintro ⟨a, s', h, hr⟩
    cases h
    exact hr
  · exact fun h => ⟨⟨⟩, f s, rfl, h⟩

@[simp] theorem ends_throw (e : ε) : ¬ Ends (throw e : Prog ε σ α) s Q := by
  rintro ⟨a, s', h, -⟩
  cases h

theorem Ends.mono (h : Ends p s Q) (hq : ∀ a s', Q a s' → Q' a s') : Ends p s Q' := by
  obtain ⟨a, s', hrun, ha⟩ := h
  exact ⟨a, s', hrun, hq a s' ha⟩

theorem Ends.bind {f : α → Prog ε σ β} {R : β → σ → Prop} (h : Ends p s Q)
    (hf : ∀ a s', Q a s' → Ends (f a) s' R) : Ends (p >>= f) s R := ends_bind.mpr (h.mono hf)

end Ends

/-! ## Loops -/

section Loop
variable {ε σ α β : Type}

/-- Rounds that either go on with new locals or leave with a value. `out` is what happens when the rounds run out. -/
def loop (out : ε) (body : β → Prog ε σ (β ⊕ α)) : ℕ → β → Prog ε σ α
  | 0, _ => throw out
  | n + 1, b => do
    match ← body b with
    | .inl b' => loop out body n b'
    | .inr a => pure a

/-- How one round may end: with the result, or nearer to it. -/
def Round (I : ℕ → β → σ → Prop) (Q : α → σ → Prop) (n : ℕ) : β ⊕ α → σ → Prop
  | .inl b', s' => ∃ m < n, I m b' s'
  | .inr a, s' => Q a s'

variable {out : ε} {body : β → Prog ε σ (β ⊕ α)} {I : ℕ → β → σ → Prop} {Q : α → σ → Prop}

/-- **The loop rule.** Every round keeps the invariant at a smaller measure or leaves with the postcondition;
more rounds than the measure are enough. -/
theorem ends_loop (hround : ∀ n b s, I n b s → Ends (body b) s (Round I Q n)) {fuel n : ℕ} {b : β} {s : σ}
    (h : I n b s) (hfuel : n < fuel) : Ends (loop out body fuel b) s Q := by
  induction fuel generalizing n b s with
  | zero => exact absurd hfuel (Nat.not_lt_zero n)
  | succ fuel ih =>
    refine (hround n b s h).bind fun r s' hr => ?_
    cases r with
    | inl b' =>
      obtain ⟨m, hm, hinv⟩ := hr
      exact ih hinv (Nat.lt_of_lt_of_le hm (Nat.le_of_lt_succ hfuel))
    | inr a => exact (ends_pure a).mpr hr

end Loop

end Kernel391.Foundations
