import Mathlib.Data.List.Chain
import Mathlib.Data.List.Nodup
import Mathlib.Logic.Function.Basic

/-! Families of stacks over a common set of cells, each cell in at most one place. The
four ways such a family changes (a push, a pop, a first cell, a last one taken away)
are updates of one stack; what they do to tops and members is said here once. -/
namespace Kernel391.Foundations
set_option autoImplicit false

variable {ι α : Type}

/-- No cell occurs twice, neither in one stack nor in two. -/
structure Apart (S : ι → List α) : Prop where
  nodup : ∀ t, (S t).Nodup
  disjoint : ∀ {t u p}, p ∈ S t → p ∈ S u → t = u

def Stacked (S : ι → List α) (p : α) : Prop := ∃ t, p ∈ S t

def IsTop (S : ι → List α) (p : α) : Prop := ∃ t, (S t).head? = some p

/-- Cell `p` stands directly on cell `q`. -/
def Above (S : ι → List α) (p q : α) : Prop := ∃ t l l', S t = l ++ p :: q :: l'

section Members
variable {S : ι → List α} {t u : ι} {p q : α} {l : List α}

theorem isTop_of_cons (h : S t = p :: l) : IsTop S p := ⟨t, by rw [h]; rfl⟩

theorem IsTop.stacked (h : IsTop S p) : Stacked S p := by
  obtain ⟨t, ht⟩ := h
  exact ⟨t, List.mem_of_head? ht⟩

theorem IsTop.cons (h : IsTop S p) : ∃ t l, S t = p :: l := by
  obtain ⟨t, ht⟩ := h
  obtain ⟨l, hl⟩ := List.head?_eq_some_iff.mp ht
  exact ⟨t, l, hl⟩

theorem Apart.not_isTop (h : Apart S) (ht : S t = p :: l) (hq : q ∈ l) : ¬ IsTop S q := by
  rintro ⟨u, hu⟩
  have hmem : q ∈ S t := by
    rw [ht]
    exact List.mem_cons_of_mem p hq
  have htu := h.disjoint hmem (List.mem_of_head? hu)
  subst htu
  rw [ht, List.head?_cons, Option.some.injEq] at hu
  subst hu
  have hnd := h.nodup t
  rw [ht] at hnd
  exact (List.nodup_cons.mp hnd).1 hq

theorem Apart.not_isTop_tail (h : Apart S) (hq : q ∈ (S t).tail) : ¬ IsTop S q := by
  cases ht : S t with
  | nil =>
    rw [ht] at hq
    exact absurd hq List.not_mem_nil
  | cons p l =>
    rw [ht] at hq
    exact h.not_isTop ht hq

theorem Apart.top_of_mem (h : Apart S) (hp : IsTop S p) (hmem : p ∈ S t) : ∃ l, S t = p :: l := by
  obtain ⟨u, l, hu⟩ := hp.cons
  have hpu : p ∈ S u := by
    rw [hu]
    exact List.mem_cons_self ..
  rw [h.disjoint hmem hpu]
  exact ⟨l, hu⟩

theorem Apart.isTop_elsewhere (h : Apart S) {r : α} : (∃ u ≠ t, (S u).head? = some r) ↔ IsTop S r ∧ r ∉ S t := by
  constructor
  · rintro ⟨u, hut, hu⟩
    exact ⟨⟨u, hu⟩, fun hr => hut (h.disjoint (List.mem_of_head? hu) hr)⟩
  · rintro ⟨⟨u, hu⟩, hr⟩
    refine ⟨u, ?_, hu⟩
    rintro rfl
    exact hr (List.mem_of_head? hu)

theorem Apart.stacked_elsewhere (h : Apart S) {r : α} : (∃ u ≠ t, r ∈ S u) ↔ Stacked S r ∧ r ∉ S t := by
  constructor
  · rintro ⟨u, hut, hu⟩
    exact ⟨⟨u, hu⟩, fun hr => hut (h.disjoint hu hr)⟩
  · rintro ⟨⟨u, hu⟩, hr⟩
    refine ⟨u, ?_, hu⟩
    rintro rfl
    exact hr hu

theorem Above.stacked (h : Above S p q) : Stacked S p := by
  obtain ⟨t, l, l', ht⟩ := h
  exact ⟨t, by rw [ht]; exact List.mem_append_right _ (List.mem_cons_self ..)⟩

theorem Above.stacked_lower (h : Above S p q) : Stacked S q := by
  obtain ⟨t, l, l', ht⟩ := h
  exact ⟨t, by rw [ht]; exact List.mem_append_right _ (List.mem_cons_of_mem p (List.mem_cons_self ..))⟩

theorem Apart.not_isTop_lower (h : Apart S) (hpq : Above S p q) : ¬ IsTop S q := by
  obtain ⟨t, l, l', ht⟩ := hpq
  refine h.not_isTop_tail (t := t) ?_
  rw [ht]
  cases l with
  | nil => exact List.mem_cons_self ..
  | cons a l => exact List.mem_append_right l (List.mem_cons_of_mem p (List.mem_cons_self ..))

theorem Apart.above_top (h : Apart S) (hpq : Above S p q) (ht : S t = p :: l) : ∃ l', l = q :: l' := by
  obtain ⟨u, m, l', hu⟩ := hpq
  have hmem : p ∈ S u := by
    rw [hu]
    exact List.mem_append_right _ (List.mem_cons_self ..)
  obtain rfl : t = u := h.disjoint (by rw [ht]; exact List.mem_cons_self ..) hmem
  rw [ht] at hu
  cases m with
  | nil => exact ⟨l', (List.cons.inj hu).2⟩
  | cons a m =>
    have hnd := h.nodup t
    obtain ⟨-, htail⟩ := List.cons.inj hu
    rw [ht, htail] at hnd
    exact absurd (List.mem_append_right m (List.mem_cons_self ..)) (List.nodup_cons.mp hnd).1

theorem Apart.chain_keep (h : Apart S) {R R' : α → α → Prop} (hR : (S t).IsChain R)
    (hkeep : ∀ a b, Stacked S a → Stacked S b → ¬ IsTop S b → R a b → R' a b) : (S t).IsChain R' :=
  hR.imp_of_mem_tail_imp fun a b ha hb hab =>
    hkeep a b ⟨t, ha⟩ ⟨t, List.mem_of_mem_tail hb⟩ (h.not_isTop_tail hb) hab

end Members

/-! ## Changing one stack -/

section Update
variable [DecidableEq ι] {S : ι → List α} {t : ι} {p q r : α} {l : List α}

theorem stacked_update : Stacked (Function.update S t l) r ↔ r ∈ l ∨ ∃ u ≠ t, r ∈ S u := by
  constructor
  · rintro ⟨u, hu⟩
    by_cases hut : u = t
    · subst hut
      rw [Function.update_self] at hu
      exact Or.inl hu
    · rw [Function.update_of_ne hut] at hu
      exact Or.inr ⟨u, hut, hu⟩
  · rintro (h | ⟨u, hut, hu⟩)
    · exact ⟨t, by rwa [Function.update_self]⟩
    · exact ⟨u, by rwa [Function.update_of_ne hut]⟩

theorem isTop_update : IsTop (Function.update S t l) r ↔ l.head? = some r ∨ ∃ u ≠ t, (S u).head? = some r := by
  constructor
  · rintro ⟨u, hu⟩
    by_cases hut : u = t
    · subst hut
      rw [Function.update_self] at hu
      exact Or.inl hu
    · rw [Function.update_of_ne hut] at hu
      exact Or.inr ⟨u, hut, hu⟩
  · rintro (h | ⟨u, hut, hu⟩)
    · exact ⟨t, by rwa [Function.update_self]⟩
    · exact ⟨u, by rwa [Function.update_of_ne hut]⟩

theorem Apart.update (h : Apart S) (hnd : l.Nodup) (hl : ∀ r ∈ l, r ∈ S t ∨ ¬ Stacked S r) :
    Apart (Function.update S t l) := by
  have hother : ∀ {u r}, u ≠ t → r ∈ l → r ∉ S u := by
    intro u r hut hr hu
    rcases hl r hr with hr' | hr'
    · exact hut (h.disjoint hu hr')
    · exact hr' ⟨u, hu⟩
  refine ⟨fun u => ?_, fun {u v r} hu hv => ?_⟩
  · by_cases hut : u = t
    · subst hut
      rwa [Function.update_self]
    · rw [Function.update_of_ne hut]
      exact h.nodup u
  · by_cases hut : u = t <;> by_cases hvt : v = t
    · rw [hut, hvt]
    · rw [hut, Function.update_self] at hu
      rw [Function.update_of_ne hvt] at hv
      exact absurd hv (hother hvt hu)
    · rw [hvt, Function.update_self] at hv
      rw [Function.update_of_ne hut] at hu
      exact absurd hu (hother hut hv)
    · rw [Function.update_of_ne hut] at hu
      rw [Function.update_of_ne hvt] at hv
      exact h.disjoint hu hv

theorem Apart.isTop_replace (h : Apart S) {l' : List α} (ht : S t = q :: l) :
    IsTop (Function.update S t (p :: l')) r ↔ r = p ∨ IsTop S r ∧ r ≠ q := by
  rw [isTop_update, h.isTop_elsewhere, List.head?_cons, Option.some.injEq, eq_comm (a := p)]
  constructor
  · rintro (hr | ⟨hr, hmem⟩)
    · exact Or.inl hr
    · refine Or.inr ⟨hr, ?_⟩
      rintro rfl
      exact hmem (by rw [ht]; exact List.mem_cons_self ..)
  · rintro (hr | ⟨hr, hne⟩)
    · exact Or.inl hr
    · refine Or.inr ⟨hr, fun hmem => ?_⟩
      rw [ht] at hmem
      rcases List.mem_cons.mp hmem with rfl | hmem
      · exact hne rfl
      · exact h.not_isTop ht hmem hr

theorem Apart.isTop_new (h : Apart S) (ht : S t = []) :
    IsTop (Function.update S t [p]) r ↔ r = p ∨ IsTop S r := by
  rw [isTop_update, h.isTop_elsewhere, List.head?_cons, Option.some.injEq, eq_comm (a := p), ht]
  simp only [List.not_mem_nil, not_false_eq_true, and_true]

theorem Apart.isTop_close (h : Apart S) (ht : S t = [p]) :
    IsTop (Function.update S t []) r ↔ IsTop S r ∧ r ≠ p := by
  rw [isTop_update, h.isTop_elsewhere, ht]
  simp

theorem Apart.stacked_push (h : Apart S) (ht : S t = q :: l) :
    Stacked (Function.update S t (p :: q :: l)) r ↔ r = p ∨ Stacked S r := by
  rw [stacked_update, h.stacked_elsewhere, ← ht, List.mem_cons]
  constructor
  · rintro ((hr | hr) | ⟨hr, -⟩)
    · exact Or.inl hr
    · exact Or.inr ⟨t, hr⟩
    · exact Or.inr hr
  · rintro (hr | hr)
    · exact Or.inl (Or.inl hr)
    · by_cases hmem : r ∈ S t
      · exact Or.inl (Or.inr hmem)
      · exact Or.inr ⟨hr, hmem⟩

theorem Apart.stacked_pop (h : Apart S) (ht : S t = p :: l) :
    Stacked (Function.update S t l) r ↔ Stacked S r ∧ r ≠ p := by
  rw [stacked_update, h.stacked_elsewhere, ht]
  have hnd := h.nodup t
  rw [ht] at hnd
  have hp := (List.nodup_cons.mp hnd).1
  constructor
  · rintro (hr | ⟨hr, hmem⟩)
    · refine ⟨⟨t, by rw [ht]; exact List.mem_cons_of_mem p hr⟩, ?_⟩
      rintro rfl
      exact hp hr
    · exact ⟨hr, fun he => hmem (by rw [he]; exact List.mem_cons_self ..)⟩
  · rintro ⟨hr, hne⟩
    by_cases hmem : r ∈ l
    · exact Or.inl hmem
    · exact Or.inr ⟨hr, fun hx => (List.mem_cons.mp hx).elim hne hmem⟩

theorem Apart.stacked_new (h : Apart S) (ht : S t = []) :
    Stacked (Function.update S t [p]) r ↔ r = p ∨ Stacked S r := by
  rw [stacked_update, h.stacked_elsewhere, ht]
  simp

/-! ## Cells one above the other -/

theorem Above.update_of_short (h : Above S p q) (ht : (S t).length ≤ 1) : Above (Function.update S t l) p q := by
  obtain ⟨u, m, l', hu⟩ := h
  refine ⟨u, m, l', ?_⟩
  have hut : u ≠ t := by
    rintro rfl
    rw [hu, List.length_append, List.length_cons, List.length_cons] at ht
    omega
  rw [Function.update_of_ne hut, hu]

theorem Above.push (h : Above S p q) (l₀ : List α) (ht : S t = l) : Above (Function.update S t (l₀ ++ l)) p q := by
  obtain ⟨u, m, l', hu⟩ := h
  by_cases hut : u = t
  · subst hut
    exact ⟨u, l₀ ++ m, l', by rw [Function.update_self, ← ht, hu, List.append_assoc]⟩
  · exact ⟨u, m, l', by rw [Function.update_of_ne hut, hu]⟩

theorem Above.pop (h : Above S p q) (ht : S t = r :: l) (hr : p ≠ r) : Above (Function.update S t l) p q := by
  obtain ⟨u, m, l', hu⟩ := h
  by_cases hut : u = t
  · subst hut
    rw [ht] at hu
    cases m with
    | nil => exact absurd (List.cons.inj hu).1.symm hr
    | cons a m =>
      refine ⟨u, m, l', ?_⟩
      rw [Function.update_self, (List.cons.inj hu).2]
      rfl
  · exact ⟨u, m, l', by rw [Function.update_of_ne hut, hu]⟩

/-! ## Chains -/

end Update
end Kernel391.Foundations
