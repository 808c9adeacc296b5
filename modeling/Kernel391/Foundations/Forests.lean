import Mathlib.Logic.Function.Basic
import Mathlib.Logic.Function.Iterate
import Mathlib.Tactic.Common

/-! Cells that come and go, each with a parent. A record numbers the occupants of the cells in the order in which they
come and keeps for each the number of the one that brought it in; numbers decrease from a cell to its parent, so the way
up ends at the root. -/
namespace Kernel391.Foundations
set_option autoImplicit false

variable {ι : Type}

structure Record (ι : Type) where
  count : ℕ
  number : ι → ℕ
  creator : ι → ℕ

def Record.first : Record ι := ⟨1, fun _ => 0, fun _ => 0⟩

/-- A new occupant of cell `p`, brought in by that of cell `c`. -/
def Record.add [DecidableEq ι] (r : Record ι) (p c : ι) : Record ι where
  count := r.count + 1
  number := Function.update r.number p r.count
  creator := Function.update r.creator p (r.number c)

/-- Every occupied cell but the root has an occupied parent, whose occupant brought in its own. -/
structure Linked (root : ι) (alive : ι → Prop) (parent : ι → ι → Prop) (r : Record ι) : Prop where
  link : ∀ p, alive p → p ≠ root → ∃ q, parent p q ∧ alive q ∧ r.number q = r.creator p ∧ r.number q < r.number p
  counted : ∀ p, alive p → r.number p < r.count

namespace Linked
variable {root : ι} {alive alive' : ι → Prop} {parent parent' : ι → ι → Prop} {r : Record ι}

theorem survive (h : Linked root alive parent r) (halive : ∀ p, alive' p → alive p)
    (hparent : ∀ p q, alive' p → parent p q → parent' p q)
    (hkeep : ∀ p q, alive' p → p ≠ root → alive q → parent p q → alive' q) : Linked root alive' parent' r where
  link p hp hroot := by
    obtain ⟨q, hq, hlive, hcreator, hlt⟩ := h.link p (halive p hp) hroot
    exact ⟨q, hparent p q hp hq, hkeep p q hp hroot hlive hq, hcreator, hlt⟩
  counted p hp := h.counted p (halive p hp)

/-- Cell `s`, free or without children, gets a new occupant from the occupant of cell `c`, or it is the root. -/
theorem add [DecidableEq ι] {s c : ι} (h : Linked root alive parent r) (halive : ∀ p, alive' p → p ≠ s → alive p)
    (hparent : ∀ p q, alive' p → p ≠ s → parent p q → parent' p q)
    (hkeep : ∀ p q, alive' p → p ≠ s → p ≠ root → alive q → parent p q → q ≠ s ∧ alive' q)
    (hnew : s ≠ root → parent' s c ∧ alive c ∧ c ≠ s ∧ alive' c) : Linked root alive' parent' (r.add s c) where
  link p hp hroot := by
    by_cases hps : p = s
    · subst hps
      obtain ⟨hpar, hlive, hne, hlive'⟩ := hnew hroot
      refine ⟨c, hpar, hlive', ?_, ?_⟩
      · show Function.update r.number p r.count c = Function.update r.creator p (r.number c) p
        rw [Function.update_of_ne hne, Function.update_self]
      · show Function.update r.number p r.count c < Function.update r.number p r.count p
        rw [Function.update_of_ne hne, Function.update_self]
        exact h.counted c hlive
    · obtain ⟨q, hq, hlive, hcreator, hlt⟩ := h.link p (halive p hp hps) hroot
      obtain ⟨hqs, hlive'⟩ := hkeep p q hp hps hroot hlive hq
      refine ⟨q, hparent p q hp hps hq, hlive', ?_, ?_⟩
      · show Function.update r.number s r.count q = Function.update r.creator s (r.number c) p
        rw [Function.update_of_ne hqs, Function.update_of_ne hps]
        exact hcreator
      · show Function.update r.number s r.count q < Function.update r.number s r.count p
        rw [Function.update_of_ne hqs, Function.update_of_ne hps]
        exact hlt
  counted p hp := by
    show Function.update r.number s r.count p < r.count + 1
    by_cases hps : p = s
    · rw [hps, Function.update_self]
      exact Nat.lt_succ_self _
    · rw [Function.update_of_ne hps]
      exact Nat.lt_succ_of_lt (h.counted p (halive p hp hps))

theorem reaches_root (h : Linked root alive parent r) {up : ι → ι} (hup : ∀ p q, parent p q → up p = q) {p : ι}
    (hp : alive p) : ∃ n, up^[n] p = root := by
  induction hn : r.number p using Nat.strongRecOn generalizing p with
  | ind n ih =>
    by_cases hroot : p = root
    · exact ⟨0, hroot⟩
    · obtain ⟨q, hq, hlive, -, hlt⟩ := h.link p hp hroot
      obtain ⟨m, hm⟩ := ih (r.number q) (hn ▸ hlt) hlive rfl
      refine ⟨m + 1, ?_⟩
      rw [Function.iterate_succ_apply, hup p q hq]
      exact hm

end Linked
end Kernel391.Foundations
