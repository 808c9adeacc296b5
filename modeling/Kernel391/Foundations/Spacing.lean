import Mathlib.Data.Nat.Init
import Mathlib.Order.Basic

/-! Picking moments that lie at least `c` apart. Picking greedily, each as early as
possible, is best: no other choice has picked more by any moment. -/
namespace Kernel391.Foundations
set_option autoImplicit false

/-- `f 1, …, f n` are good moments, each at least `c` after the one before; `f 0` is moment 0. -/
structure Spaced (c : ℕ) (ok : ℕ → Prop) (n : ℕ) (f : ℕ → ℕ) : Prop where
  zero : f 0 = 0
  far : ∀ j < n, f j + c ≤ f (j + 1)
  good : ∀ j < n, ok (f (j + 1))

/-- By moment `i` the greedy choice has picked `m` moments, the last one `last`. -/
structure Greedy (c : ℕ) (ok : ℕ → Prop) (i m last : ℕ) : Prop where
  within : last ≤ i
  picks : ∃ f, Spaced c ok m f ∧ f m = last
  best : ∀ n f, Spaced c ok n f → f n ≤ i → n ≤ m ∧ (n = m → last ≤ f n)

variable {c i m n last : ℕ} {ok : ℕ → Prop} {f : ℕ → ℕ}

theorem Spaced.shorter (h : Spaced c ok (n + 1) f) : Spaced c ok n f :=
  ⟨h.zero, fun j hj => h.far j (Nat.lt_succ_of_lt hj), fun j hj => h.good j (Nat.lt_succ_of_lt hj)⟩

theorem Spaced.le (h : Spaced c ok n f) : n * c ≤ f n := by
  induction n with
  | zero => rw [Nat.zero_mul]; exact Nat.zero_le _
  | succ n ih =>
    have hfar := h.far n (Nat.lt_succ_self n)
    have hle := ih h.shorter
    rw [Nat.succ_mul]
    omega

theorem Spaced.extend (h : Spaced c ok n f) {a : ℕ} (hfar : f n + c ≤ a) (ha : ok a) :
    Spaced c ok (n + 1) (fun j => if j ≤ n then f j else a) := by
  refine ⟨?_, ?_, ?_⟩
  · rw [if_pos (Nat.zero_le n)]
    exact h.zero
  · intro j hj
    by_cases hjn : j < n
    · rw [if_pos (by omega), if_pos (by omega)]
      exact h.far j hjn
    · have hjeq : j = n := by omega
      rw [hjeq, if_pos (Nat.le_refl n), if_neg (by omega)]
      exact hfar
  · intro j hj
    by_cases hjn : j < n
    · rw [if_pos (by omega)]
      exact h.good j hjn
    · rw [if_neg (by omega)]
      exact ha

theorem Greedy.start (hc : 0 < c) : Greedy c ok 0 0 0 := by
  refine ⟨Nat.le_refl 0, ⟨fun _ => 0, ⟨rfl, by omega, by omega⟩, rfl⟩, ?_⟩
  intro n f hf h0
  have hle := hf.le
  refine ⟨?_, fun _ => Nat.zero_le _⟩
  cases n with
  | zero => exact Nat.le_refl 0
  | succ n =>
    rw [Nat.succ_mul] at hle
    omega

theorem Greedy.take (hc : 0 < c) (h : Greedy c ok i m last) (hok : ok (i + 1)) (hfar : last + c ≤ i + 1) :
    Greedy c ok (i + 1) (m + 1) (i + 1) := by
  obtain ⟨g, hg, hlast⟩ := h.picks
  refine ⟨Nat.le_refl _, ⟨_, hg.extend (by rw [hlast]; exact hfar) hok, if_neg (by omega)⟩, ?_⟩
  intro n f hf hn
  cases n with
  | zero => exact ⟨Nat.zero_le _, by omega⟩
  | succ n =>
    have hstep := hf.far n (Nat.lt_succ_self n)
    have hle := (h.best n f hf.shorter (by omega)).1
    refine ⟨by omega, fun _ => ?_⟩
    by_contra hlt
    have hmore := (h.best (n + 1) f hf (by omega)).1
    omega

theorem Greedy.skip (h : Greedy c ok i m last) (hno : ok (i + 1) → i + 1 < last + c) :
    Greedy c ok (i + 1) m last := by
  refine ⟨Nat.le_succ_of_le h.within, h.picks, ?_⟩
  intro n f hf hn
  by_cases hi : f n ≤ i
  · exact h.best n f hf hi
  · cases n with
    | zero =>
      rw [hf.zero] at hi
      omega
    | succ n =>
      have hat : f (n + 1) = i + 1 := by omega
      have hnear := hno (hat ▸ hf.good n (Nat.lt_succ_self n))
      have hstep := hf.far n (Nat.lt_succ_self n)
      have hwithin := h.within
      obtain ⟨hle, hlast⟩ := h.best n f hf.shorter (by omega)
      have hne : n ≠ m := by
        intro heq
        have := hlast heq
        omega
      omega

/-- **The greedy choice picks the greatest number possible** exactly when some choice does. -/
theorem Greedy.count_eq (hc : 0 < c) (h : Greedy c ok i m last) :
    m = i / c ↔ ∃ f, Spaced c ok (i / c) f ∧ f (i / c) ≤ i := by
  obtain ⟨g, hg, hlast⟩ := h.picks
  have hwithin := h.within
  constructor
  · intro hm
    rw [← hm]
    exact ⟨g, hg, by omega⟩
  · rintro ⟨f, hf, hfi⟩
    have hle := (h.best _ f hf hfi).1
    have hge : m ≤ i / c := by
      rw [Nat.le_div_iff_mul_le hc]
      have := hg.le
      omega
    omega

end Kernel391.Foundations
