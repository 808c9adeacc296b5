import Mathlib.Data.List.Chain
import Mathlib.Data.List.Nodup
import Mathlib.Data.List.Perm.Basic
import Mathlib.Data.List.Range
import Mathlib.Data.Nat.ModEq

/-! Going round `n` places in cyclic order from one chosen place to the next. A round
visits every chosen place once before it comes back to any. -/
namespace Kernel391.Foundations
set_option autoImplicit false

variable {n m c p q q' : ℕ} {A : ℕ → Prop}

/-- Place `q` is the first chosen one strictly after `c`; `c` itself comes last. -/
def FirstAfter (n : ℕ) (A : ℕ → Prop) (c q : ℕ) : Prop :=
  ∃ d, 0 < d ∧ d ≤ n ∧ q = (c + d) % n ∧ A q ∧ ∀ i, 0 < i → i < d → ¬ A ((c + i) % n)

theorem FirstAfter.chosen (h : FirstAfter n A c q) : A q := by
  obtain ⟨-, -, -, -, hA, -⟩ := h
  exact hA

theorem FirstAfter.lt (h : FirstAfter n A c q) : q < n := by
  obtain ⟨d, hd, hdn, rfl, -, -⟩ := h
  exact Nat.mod_lt _ (by omega)

theorem FirstAfter.unique (h : FirstAfter n A c q) (h' : FirstAfter n A c q') : q = q' := by
  obtain ⟨d, hd, -, hq, hA, hbefore⟩ := h
  obtain ⟨d', hd', -, hq', hA', hbefore'⟩ := h'
  rcases Nat.lt_trichotomy d d' with hlt | rfl | hlt
  · exact absurd (hq ▸ hA) (hbefore' d hd hlt)
  · rw [hq, hq']
  · exact absurd (hq' ▸ hA') (hbefore d' hd' hlt)

theorem FirstAfter.congr {B : ℕ → Prop} (h : FirstAfter n A c q) (hAB : ∀ p < n, A p ↔ B p) : FirstAfter n B c q := by
  have hlt := h.lt
  obtain ⟨d, hd, hdn, hq, hA, hbefore⟩ := h
  refine ⟨d, hd, hdn, hq, (hAB q hlt).mp hA, fun i hi hid hB => ?_⟩
  exact hbefore i hi hid ((hAB _ (Nat.mod_lt _ (by omega))).mpr hB)

/-! ## A round -/

section Round
variable [DecidablePred A]

/-- The chosen places among the `m` behind `p`, in cyclic order. -/
def round (n : ℕ) (A : ℕ → Prop) [DecidablePred A] (p m : ℕ) : List ℕ :=
  ((List.range m).map fun i => (p + 1 + i) % n).filter A

theorem round_succ : round n A p (m + 1) =
    if A ((p + 1) % n) then (p + 1) % n :: round n A ((p + 1) % n) m else round n A ((p + 1) % n) m := by
  have hstep : (fun i => (p + 1 + i) % n) ∘ Nat.succ = fun i => ((p + 1) % n + 1 + i) % n := by
    funext i
    rw [Function.comp_apply, Nat.add_assoc ((p + 1) % n), Nat.mod_add_mod, Nat.succ_eq_one_add]
  unfold round
  rw [List.range_succ_eq_map, List.map_cons, List.map_map, hstep, List.filter_cons, Nat.add_zero]
  simp only [decide_eq_true_eq]

theorem round_mod : round n A (p % n) m = round n A p m := by
  unfold round
  congr 2
  funext i
  rw [Nat.add_assoc, Nat.mod_add_mod, ← Nat.add_assoc]

theorem head_round (hm : m ≤ n) (h : (round n A p m).head? = some q) : FirstAfter n A p q := by
  have hfirst : ∀ m' j, m' + j = m → (∀ i, 0 < i → i ≤ j → ¬ A ((p + i) % n)) →
      (round n A ((p + j) % n) m').head? = some q → FirstAfter n A p q := by
    intro m'
    induction m' with
    | zero =>
      intro j _ _ hhead
      cases hhead
    | succ m' ih =>
      intro j hj hnone hhead
      have hmod : ((p + j) % n + 1) % n = (p + (j + 1)) % n := by rw [Nat.mod_add_mod, Nat.add_assoc]
      rw [round_succ, hmod] at hhead
      split at hhead
      · next hA =>
        cases hhead
        exact ⟨j + 1, Nat.succ_pos j, by omega, rfl, hA, fun i hi hij => hnone i hi (by omega)⟩
      · next hA =>
        refine ih (j + 1) (by omega) (fun i hi hij => ?_) hhead
        rcases Nat.eq_or_lt_of_le hij with rfl | hlt
        · exact hA
        · exact hnone i hi (by omega)
  refine hfirst m 0 rfl (fun i hi hi0 => absurd hi0 (by omega)) ?_
  rwa [Nat.add_zero, round_mod]

theorem nodup_round (hm : m ≤ n) : (round n A p m).Nodup := by
  refine List.Nodup.filter _ ((List.nodup_map_iff_inj_on List.nodup_range).mpr fun i hi j hj hij => ?_)
  rw [List.mem_range] at hi hj
  have hmod : Nat.ModEq n (p + 1 + i) (p + 1 + j) := hij
  exact Nat.ModEq.eq_of_lt_of_lt (Nat.ModEq.add_left_cancel' (p + 1) hmod) (by omega) (by omega)

theorem mem_round : q ∈ round n A p n ↔ q < n ∧ A q := by
  unfold round
  rw [List.mem_filter, decide_eq_true_eq, List.mem_map]
  constructor
  · rintro ⟨⟨i, hi, rfl⟩, hA⟩
    rw [List.mem_range] at hi
    exact ⟨Nat.mod_lt _ (by omega), hA⟩
  · rintro ⟨hq, hA⟩
    have hp := Nat.mod_lt (p + 1) (show 0 < n by omega)
    refine ⟨⟨(q + n - (p + 1) % n) % n, List.mem_range.mpr (Nat.mod_lt _ (by omega)), ?_⟩, hA⟩
    rw [Nat.add_mod_mod, ← Nat.mod_add_mod, show (p + 1) % n + (q + n - (p + 1) % n) = q + n by omega,
      Nat.add_mod_right, Nat.mod_eq_of_lt hq]

theorem round_perm : (round n A p n).Perm ((List.range n).filter A) := by
  rw [List.perm_ext_iff_of_nodup (nodup_round (Nat.le_refl n)) (List.nodup_range.filter _)]
  intro q
  rw [mem_round, List.mem_filter, List.mem_range, decide_eq_true_eq]

theorem firstAfter_iff_head : (round n A c n).head? = some q ↔ FirstAfter n A c q := by
  refine ⟨head_round (Nat.le_refl n), fun h => ?_⟩
  cases hround : (round n A c n).head? with
  | none =>
    have hmem := (@mem_round n c q A _).mpr ⟨h.lt, h.chosen⟩
    rw [List.head?_eq_none_iff.mp hround] at hmem
    cases hmem
  | some q' => rw [h.unique (head_round (Nat.le_refl n) hround)]

theorem head_none_iff : (round n A c n).head? = none ↔ ∀ q < n, ¬ A q := by
  rw [List.head?_eq_none_iff, List.eq_nil_iff_forall_not_mem]
  constructor
  · intro h q hq hA
    exact h q (mem_round.mpr ⟨hq, hA⟩)
  · intro h q hq
    obtain ⟨hlt, hA⟩ := mem_round.mp hq
    exact h q hlt hA

/-! ## From one to the next -/

theorem steps_round {qs : List ℕ} (h : (c :: qs).IsChain (FirstAfter n A)) (hlen : qs.length ≤ (round n A c m).length) :
    qs = (round n A c m).take qs.length := by
  induction m generalizing c qs with
  | zero =>
    have hnil : qs = [] := List.eq_nil_of_length_eq_zero (Nat.le_zero.mp hlen)
    rw [hnil]
    rfl
  | succ m ih =>
    cases qs with
    | nil => rfl
    | cons q qs =>
      obtain ⟨hfirst, hrest⟩ := List.isChain_cons_cons.mp h
      rw [round_succ] at hlen ⊢
      split at hlen
      · next hA =>
        rw [if_pos hA]
        have hn := hfirst.lt
        have hq : q = (c + 1) % n :=
          hfirst.unique ⟨1, Nat.one_pos, by omega, rfl, hA, fun i hi hi1 => absurd hi1 (by omega)⟩
        rw [← hq] at hlen ⊢
        rw [List.length_cons, List.length_cons] at hlen
        rw [List.length_cons, List.take_succ_cons, ← ih hrest (by omega)]
      · next hA =>
        rw [if_neg hA]
        refine ih (List.isChain_cons_cons.mpr ⟨?_, hrest⟩) hlen
        -- the place behind `c` is not chosen, so the search from there finds the same
        obtain ⟨d, hd, hdn, hq, hAq, hbefore⟩ := hfirst
        have hone : d ≠ 1 := by
          rintro rfl
          exact hA (hq ▸ hAq)
        refine ⟨d - 1, by omega, by omega, ?_, hAq, fun i hi hid => ?_⟩
        · rw [hq, Nat.mod_add_mod]
          congr 1
          omega
        · rw [Nat.mod_add_mod, Nat.add_assoc, Nat.add_comm 1 i]
          exact hbefore (i + 1) (by omega) (by omega)

theorem steps_chosen {qs : List ℕ} (h : (c :: qs).IsChain (FirstAfter n A)) :
    ∀ q ∈ qs, q ∈ (List.range n).filter A := by
  induction qs generalizing c with
  | nil => exact fun q hq => absurd hq List.not_mem_nil
  | cons q qs ih =>
    obtain ⟨hfirst, hrest⟩ := List.isChain_cons_cons.mp h
    intro p hp
    rcases List.mem_cons.mp hp with rfl | hp
    · exact List.mem_filter.mpr ⟨List.mem_range.mpr hfirst.lt, decide_eq_true hfirst.chosen⟩
    · exact ih hrest p hp

/-- **Every chosen place once** before any comes again. -/
theorem steps_fair {qs : List ℕ} (h : (c :: qs).IsChain (FirstAfter n A))
    (hlen : qs.length ≤ ((List.range n).filter A).length) :
    qs.Nodup ∧ (qs.length = ((List.range n).filter A).length → ∀ p < n, A p → p ∈ qs) := by
  have hcount : (round n A c n).length = ((List.range n).filter A).length := round_perm.length_eq
  have hqs := @steps_round n n c A _ qs h (by omega)
  constructor
  · rw [hqs]
    exact (nodup_round (Nat.le_refl n)).sublist (List.take_sublist _ _)
  · intro hall p hp hA
    rw [hqs, List.take_of_length_le (by omega)]
    exact mem_round.mpr ⟨hp, hA⟩

end Round
end Kernel391.Foundations
