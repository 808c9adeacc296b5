import Mathlib.Logic.Function.Basic
import Mathlib.Data.List.Range
import Kernel391.Foundations.Loops
import Kernel391.Foundations.Stores

/-! Blocks of memory. What a copy and a fill leave, address by address, and how a block
is put together from smaller ones. -/
namespace Kernel391.Foundations
set_option autoImplicit false

/-- `n` bytes from `s` on have been copied to `d`. -/
def copied (m : ℕ → UInt8) (d s n : ℕ) : ℕ → UInt8 := fun a => if d ≤ a ∧ a < d + n then m (s + (a - d)) else m a

/-- `n` bytes from `d` on have been set to `b`. -/
def filled (m : ℕ → UInt8) (d : ℕ) (b : UInt8) (n : ℕ) : ℕ → UInt8 := fun a => if d ≤ a ∧ a < d + n then b else m a

/-- Two blocks of the same length with no byte in common. -/
def BlocksApart (d s n : ℕ) : Prop := d + n ≤ s ∨ s + n ≤ d

variable {m : ℕ → UInt8} {d s n k a : ℕ} {b : UInt8}

theorem copied_zero : copied m d s 0 = m := by
  funext a
  apply if_neg
  omega

theorem filled_zero : filled m d b 0 = m := by
  funext a
  apply if_neg
  omega

theorem copied_outside (h : ¬ (d ≤ a ∧ a < d + n)) : copied m d s n a = m a := if_neg h

theorem filled_outside (h : ¬ (d ≤ a ∧ a < d + n)) : filled m d b n a = m a := if_neg h

theorem copied_one : copied m d s 1 = Function.update m d (m s) := by
  funext a
  by_cases h : a = d
  · subst h
    rw [Function.update_self]
    simp [copied]
  · rw [Function.update_of_ne h]
    apply copied_outside
    omega

theorem filled_one : filled m d b 1 = Function.update m d b := by
  funext a
  by_cases h : a = d
  · subst h
    rw [Function.update_self]
    simp [filled]
  · rw [Function.update_of_ne h]
    apply filled_outside
    omega

/-- A copy goes on behind the bytes it has copied, which are none of those it has still to read. -/
theorem copied_append (h : BlocksApart d s (k + n)) :
    copied (copied m d s k) (d + k) (s + k) n = copied m d s (k + n) := by
  unfold BlocksApart at h
  funext a
  by_cases hlow : d ≤ a ∧ a < d + k
  · rw [copied_outside (by omega)]
    unfold copied
    rw [if_pos hlow, if_pos (by omega)]
  · by_cases hhigh : d + k ≤ a ∧ a < d + k + n
    · have hread : copied m d s k (s + k + (a - (d + k))) = m (s + k + (a - (d + k))) := copied_outside (by omega)
      have hadd : s + k + (a - (d + k)) = s + (a - d) := by omega
      rw [hadd] at hread
      show (if d + k ≤ a ∧ a < d + k + n then copied m d s k (s + k + (a - (d + k))) else copied m d s k a) = _
      rw [if_pos hhigh, hadd, hread]
      exact (if_pos (by omega)).symm
    · rw [copied_outside hhigh, copied_outside hlow, copied_outside (by omega)]

theorem filled_append : filled (filled m d b k) (d + k) b n = filled m d b (k + n) := by
  funext a
  by_cases hhigh : d + k ≤ a ∧ a < d + k + n
  · exact (if_pos hhigh).trans (if_pos (by omega)).symm
  · rw [filled_outside hhigh]
    by_cases hlow : d ≤ a ∧ a < d + k
    · exact (if_pos hlow).trans (if_pos (by omega)).symm
    · rw [filled_outside hlow, filled_outside (by omega)]

theorem BlocksApart.take (h : BlocksApart d s (k + n)) : BlocksApart d s k := by
  unfold BlocksApart at h ⊢
  omega

theorem BlocksApart.drop (h : BlocksApart d s (k + n)) : BlocksApart (d + k) (s + k) n := by
  unfold BlocksApart at h ⊢
  omega

theorem copied_succ (h : BlocksApart d s (n + 1)) :
    copied (Function.update m d (m s)) (d + 1) (s + 1) n = copied m d s (n + 1) := by
  rw [Nat.add_comm] at h
  rw [← copied_one, copied_append h, Nat.add_comm]

theorem filled_succ : filled (Function.update m d b) (d + 1) b n = filled m d b (n + 1) := by
  rw [← filled_one, filled_append, Nat.add_comm]

theorem copied_loop (h : BlocksApart d s n) :
    forLoop (fun i m => Function.update m (d + i) (m (s + i))) n m = copied m d s n := by
  induction n with
  | zero => exact copied_zero.symm
  | succ n ih => rw [forLoop_succ, ih h.take, ← copied_one, copied_append h]

theorem filled_loop : forLoop (fun i m => Function.update m (d + i) b) n m = filled m d b n := by
  induction n with
  | zero => exact filled_zero.symm
  | succ n ih => rw [forLoop_succ, ih, ← filled_one, filled_append]

end Kernel391.Foundations
