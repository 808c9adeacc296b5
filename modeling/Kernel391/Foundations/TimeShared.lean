import Mathlib.Logic.Function.Basic

/-! A value that several owners have in turn. One of them has it live, what the others had is
saved; handing it on saves it under its owner and loads what the next one had. -/
namespace Kernel391.Foundations
set_option autoImplicit false

structure TimeShared (ι α : Type) where
  saved : ι → α
  live : α

namespace TimeShared
variable {ι α : Type} [DecidableEq ι] (s : TimeShared ι α)

/-- The live value goes to `i`, the one saved for `j` becomes live. -/
def handOn (i j : ι) : TimeShared ι α :=
  ⟨Function.update s.saved i s.live, Function.update s.saved i s.live j⟩

def write (x : α) : TimeShared ι α := { s with live := x }

/-- What `i` has saved becomes `x`. -/
def store (i : ι) (x : α) : TimeShared ι α := { s with saved := Function.update s.saved i x }

omit [DecidableEq ι] in
/-- Everyone has the value that is theirs, and `i` has it live. -/
structure Holds (value : ι → α) (i : ι) : Prop where
  live : s.live = value i
  saved : ∀ j, j ≠ i → s.saved j = value j

/-- Everyone's value while `i` has it live. -/
def values (i : ι) : ι → α := fun j => if j = i then s.live else s.saved j

theorem holds_values (i : ι) : s.Holds (s.values i) i where
  live := (if_pos rfl).symm
  saved _ hj := (if_neg hj).symm

variable {s} {value : ι → α} {i j l : ι} {x : α}

theorem Holds.values (h : s.Holds value i) : s.values i = value := by
  funext j
  by_cases hj : j = i
  · rw [hj]
    exact (if_pos rfl).trans h.live
  · exact (if_neg hj).trans (h.saved j hj)

theorem Holds.handOn (h : s.Holds value i) (j : ι) : (s.handOn i j).Holds value j where
  live := by
    by_cases hji : j = i
    · subst hji
      exact (Function.update_self ..).trans h.live
    · exact (Function.update_of_ne hji ..).trans (h.saved j hji)
  saved l hl := by
    by_cases hli : l = i
    · subst hli
      exact (Function.update_self ..).trans h.live
    · exact (Function.update_of_ne hli ..).trans (h.saved l hli)

theorem Holds.write (h : s.Holds value i) (x : α) : (s.write x).Holds (Function.update value i x) i where
  live := by
    show x = _
    rw [Function.update_self]
  saved l hl := (h.saved l hl).trans (Function.update_of_ne hl ..).symm

theorem Holds.store (h : s.Holds value i) (hj : i ≠ j) (x : α) : (s.store j x).Holds (Function.update value j x) i where
  live := h.live.trans (Function.update_of_ne hj ..).symm
  saved l hl := by
    by_cases hlj : l = j
    · rw [hlj, Function.update_self]
      exact Function.update_self ..
    · rw [Function.update_of_ne hlj, ← h.saved l hl]
      exact Function.update_of_ne hlj ..

theorem Holds.replace_iff (h : s.Holds value i) :
    (s.write x).Holds (Function.update value j x) j ↔ i = j ∨ s.saved i = value i := by
  constructor
  · intro h'
    by_cases hij : i = j
    · exact Or.inl hij
    · exact Or.inr ((h'.saved i hij).trans (Function.update_of_ne hij ..))
  · intro hor
    refine ⟨?_, fun l hl => ?_⟩
    · show x = _
      rw [Function.update_self]
    rw [Function.update_of_ne hl]
    by_cases hli : l = i
    · subst hli
      exact hor.resolve_left hl
    · exact h.saved l hli

theorem handOn_back (hij : i ≠ j) (s : TimeShared ι α) (x : α) :
    (((s.handOn i j).write x).handOn j i).live = s.live := by
  show Function.update (Function.update s.saved i s.live) j x i = s.live
  rw [Function.update_of_ne hij, Function.update_self]

theorem handOn_saved (hl : l ≠ i) (s : TimeShared ι α) (j : ι) : (s.handOn i j).saved l = s.saved l :=
  Function.update_of_ne hl ..

/-- The value of `u` is the same, live when `u` is the owner `i` and saved otherwise. -/
def Agree (u i : ι) (s s' : TimeShared ι α) : Prop :=
  if i = u then s'.live = s.live else s'.saved u = s.saved u

variable {s' : TimeShared ι α} {u : ι}

theorem agree_live (h : s'.live = s.live) : Agree i i s s' := by
  unfold Agree
  rwa [if_pos rfl]

theorem agree_saved (hi : i ≠ u) (h : s'.saved u = s.saved u) : Agree u i s s' := by
  unfold Agree
  rwa [if_neg hi]

theorem Agree.live (h : Agree i i s s') : s'.live = s.live := by
  unfold Agree at h
  rwa [if_pos rfl] at h

theorem Agree.saved (h : Agree u i s s') (hi : i ≠ u) : s'.saved u = s.saved u := by
  unfold Agree at h
  rwa [if_neg hi] at h

theorem Agree.symm (h : Agree u i s s') : Agree u i s' s := by
  by_cases hi : i = u
  · subst hi
    exact agree_live h.live.symm
  · exact agree_saved hi (h.saved hi).symm

theorem Agree.trans {s'' : TimeShared ι α} (h : Agree u i s s') (h' : Agree u i s' s'') : Agree u i s s'' := by
  by_cases hi : i = u
  · subst hi
    exact agree_live (h'.live.trans h.live)
  · exact agree_saved hi ((h'.saved hi).trans (h.saved hi))

theorem Agree.handOn (h : Agree u i s s') (j : ι) : Agree u j (s.handOn i j) (s'.handOn i j) := by
  have hsaved : (s'.handOn i j).saved u = (s.handOn i j).saved u := by
    by_cases hi : i = u
    · subst hi
      show Function.update s'.saved i s'.live i = Function.update s.saved i s.live i
      rw [Function.update_self, Function.update_self, h.live]
    · rw [handOn_saved (Ne.symm hi), handOn_saved (Ne.symm hi), h.saved hi]
  by_cases hj : j = u
  · subst hj
    exact agree_live hsaved
  · exact agree_saved hj hsaved

end TimeShared
end Kernel391.Foundations
