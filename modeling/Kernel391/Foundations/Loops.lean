import Mathlib.Data.Nat.Notation

/-! Counted loops. `forLoop n f s` runs `f 0`, …, `f (n - 1)` on a state, and facts about
it are facts about one round: an invariant, or a relation between two loops that
run side by side. -/
namespace Kernel391.Foundations
set_option autoImplicit false

variable {σ : Type}

/-- `for (i = 0; i < n; i++) s = f(i, s)`. -/
def forLoop (f : ℕ → σ → σ) : ℕ → σ → σ
  | 0, s => s
  | n + 1, s => f n (forLoop f n s)

@[simp] theorem forLoop_zero (f : ℕ → σ → σ) (s : σ) : forLoop f 0 s = s := rfl

theorem forLoop_succ (f : ℕ → σ → σ) (n : ℕ) (s : σ) :
    forLoop f (n + 1) s = f n (forLoop f n s) := rfl

theorem forLoop_invariant {P : σ → Prop} {f : ℕ → σ → σ} {n : ℕ} {s : σ} (h0 : P s)
    (hstep : ∀ i < n, ∀ t, P t → P (f i t)) : P (forLoop f n s) := by
  induction n with
  | zero => exact h0
  | succ n ih =>
    exact hstep n (by omega) _ (ih fun i hi => hstep i (by omega))

theorem forLoop_relation {R : σ → σ → Prop} {f g : ℕ → σ → σ} {n : ℕ} {s t : σ} (h0 : R s t)
    (hstep : ∀ i < n, ∀ u v, R u v → R (f i u) (g i v)) : R (forLoop f n s) (forLoop g n t) := by
  induction n with
  | zero => exact h0
  | succ n ih =>
    exact hstep n (by omega) _ _ (ih fun i hi => hstep i (by omega))

end Kernel391.Foundations
