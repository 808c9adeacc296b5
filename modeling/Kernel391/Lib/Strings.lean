import Mathlib.Algebra.Group.Int.Defs
import Mathlib.Algebra.Group.Nat.Defs
import Mathlib.Data.List.Basic
import Mathlib.Data.List.Range
import Mathlib.Data.List.TakeWhile

/-! The string functions of `lib.c`. A C string is read through its bytes, so the
functions take memories; `cstr` is the memory that holds a given string and its
terminator. -/
namespace Kernel391
set_option autoImplicit false

def ascii (s : List Char) : List UInt8 := s.map fun c => UInt8.ofNat c.toNat

/-- The memory at a string: its characters, then the terminator. -/
def cstr (s : List UInt8) : ℕ → UInt8 := fun j => (s[j]?).getD 0

/-- A C string: characters none of which is the terminator. -/
structure CString where
  chars : List UInt8
  noNul : 0 ∉ chars

/-- A 32-bit word read as `int32_t`. -/
def int32 (w : ℕ) : ℤ := if w < 2 ^ 31 then w else (w : ℤ) - 2 ^ 32

/-- An `int32_t` read as `uint32_t`. -/
def uint32 (i : ℤ) : ℕ := (i % 2 ^ 32).toNat

/-- `strlen`: the characters before the first NUL. -/
def strlen (s : List UInt8) : ℕ := (s.takeWhile (· ≠ 0)).length

/-- `strncmp`: stop at the first difference, at a common NUL or after `n` characters. `i` is the loop
variable and the first argument counts the iterations left. The characters are `char`, signed. -/
def strncmp (s1 s2 : ℕ → UInt8) : ℕ → ℕ → ℤ
  | 0, _ => 0
  | n + 1, i =>
    if s1 i ≠ s2 i ∨ s1 i = 0 then (s1 i).toInt8.toInt - (s2 i).toInt8.toInt
    else strncmp s1 s2 n (i + 1)

/-- The second loop of `strncpy`: zeros up to `n`. -/
def strncpyPad (dest : ℕ → UInt8) : ℕ → ℕ → ℕ → UInt8
  | 0, _ => dest
  | n + 1, i => strncpyPad (Function.update dest i 0) n (i + 1)

/-- `strncpy`: characters up to a NUL or to `n`, then zeros up to `n`. The first number counts the
characters left, the second is the loop variable. -/
def strncpy (dest src : ℕ → UInt8) : ℕ → ℕ → ℕ → UInt8
  | 0, _ => dest
  | n + 1, i =>
    if src i ≠ 0 then strncpy (Function.update dest i (src i)) src n (i + 1)
    else strncpyPad dest (n + 1) i

/-! ## What the comparison decides -/

theorem cstr_lt (s : List UInt8) {j : ℕ} (h : j < s.length) : cstr s j = s[j] := by
  simp [cstr, h]

theorem cstr_ge (s : List UInt8) {j : ℕ} (h : s.length ≤ j) : cstr s j = 0 := by
  simp [cstr, h]

theorem strlen_noNul {s : List UInt8} (h : 0 ∉ s) : strlen s = s.length := by
  have hs : s.takeWhile (· ≠ 0) = s := by
    rw [List.takeWhile_eq_self_iff]
    intro c hc
    have : c ≠ 0 := fun e => h (e ▸ hc)
    simpa using this
  rw [strlen, hs]

/-- The characters from `i` on, at most `n` of them, up to the first NUL. -/
def window (s : ℕ → UInt8) (n i : ℕ) : List UInt8 :=
  ((List.range n).map fun k => s (i + k)).takeWhile (· ≠ 0)

theorem window_succ (s : ℕ → UInt8) (n i : ℕ) :
    window s (n + 1) i = if s i = 0 then [] else s i :: window s n (i + 1) := by
  have hshift : (fun k => s (i + k)) ∘ Nat.succ = fun k => s (i + 1 + k) := by
    funext k
    simp only [Function.comp_apply]
    congr 1
    omega
  unfold window
  rw [List.range_succ_eq_map, List.map_cons, List.map_map, hshift, List.takeWhile_cons, Nat.add_zero]
  by_cases h : s i = 0 <;> simp [h]

section Windows
variable {s s' : ℕ → UInt8} {l : List UInt8} {n i t : ℕ}

theorem window_congr (h : ∀ j < n, s (i + j) = s' (t + j)) : window s n i = window s' n t := by
  unfold window
  congr 1
  exact List.map_congr_left fun j hj => h j (List.mem_range.mp hj)

theorem window_length_le : (window s n i).length ≤ n := by
  unfold window
  refine (List.takeWhile_prefix _).length_le.trans ?_
  rw [List.length_map, List.length_range]

theorem window_noNul : (0 : UInt8) ∉ window s n i := by
  intro h
  have := List.mem_takeWhile_imp h
  simp at this

/-- The memory at `t` holds the string `l`. -/
structure Holds (s : ℕ → UInt8) (t : ℕ) (l : List UInt8) : Prop where
  chars : ∀ j (h : j < l.length), s (t + j) = l[j]
  nul : s (t + l.length) = 0

theorem Holds.drop (h : Holds s t l) (hi : i ≤ l.length) : Holds s (t + i) (l.drop i) where
  chars j hj := by
    rw [List.length_drop] at hj
    rw [List.getElem_drop, Nat.add_assoc]
    exact h.chars (i + j) (by omega)
  nul := by
    rw [List.length_drop, Nat.add_assoc, Nat.add_sub_cancel' hi]
    exact h.nul

theorem Holds.tail {c : UInt8} (h : Holds s t (c :: l)) : s t = c ∧ Holds s (t + 1) l :=
  ⟨h.chars 0 (Nat.zero_lt_succ _), h.drop (i := 1) (by simp)⟩

theorem Holds.window (h : Holds s t l) (hl : 0 ∉ l) : window s n t = l.take n := by
  induction l generalizing n t with
  | nil =>
    cases n with
    | zero => rfl
    | succ n =>
      have hnul : s t = 0 := h.nul
      rw [window_succ, if_pos hnul, List.take_nil]
  | cons c l ih =>
    cases n with
    | zero => rfl
    | succ n =>
      obtain ⟨hc, htail⟩ := h.tail
      have hc0 : c ≠ 0 := fun hx => hl (hx ▸ List.mem_cons_self ..)
      rw [window_succ, hc, if_neg hc0, ih htail fun hx => hl (List.mem_cons_of_mem _ hx), List.take_succ_cons]

end Windows

theorem toInt8_sub_eq_zero (a b : UInt8) : a.toInt8.toInt - b.toInt8.toInt = 0 ↔ a = b := by
  constructor
  · intro h
    have hab : a.toInt8 = b.toInt8 := Int8.toInt_inj.mp (by omega)
    rw [← UInt8.toUInt8_toInt8 a, hab, UInt8.toUInt8_toInt8]
  · rintro rfl
    omega

theorem strncmp_eq_zero (s1 s2 : ℕ → UInt8) (n i : ℕ) :
    strncmp s1 s2 n i = 0 ↔ window s1 n i = window s2 n i := by
  induction n generalizing i with
  | zero => simp [strncmp, window]
  | succ n ih =>
    rw [window_succ, window_succ]
    unfold strncmp
    by_cases hne : s1 i = s2 i
    · by_cases h0 : s1 i = 0
      · simp [h0, ← hne]
      · simp only [hne] at h0 ⊢
        simp [h0, ih]
    · rw [if_pos (Or.inl hne), toInt8_sub_eq_zero]
      refine iff_of_false hne ?_
      by_cases h1 : s1 i = 0 <;> by_cases h2 : s2 i = 0 <;> simp [h1, h2]
      · exact hne (h1.trans h2.symm)
      · exact fun e _ => hne e

theorem window_cstr {s : List UInt8} (h : 0 ∉ s) (n : ℕ) : window (cstr s) n 0 = s.take n := by
  induction n generalizing s with
  | zero => simp [window]
  | succ n ih =>
    rw [window_succ]
    cases s with
    | nil => simp [cstr]
    | cons c s =>
      have hc : c ≠ 0 := fun e => h (by simp [e])
      have hs : 0 ∉ s := fun e => h (List.mem_cons_of_mem c e)
      have hshift : window (cstr (c :: s)) n 1 = window (cstr s) n 0 := by
        simp [window, cstr, Nat.add_comm]
      rw [Nat.zero_add, hshift, ih hs]
      simp [cstr, hc]

theorem strncmp_extends {s lit : List UInt8} (hs : 0 ∉ s) (hl : 0 ∉ lit) :
    strncmp (cstr s) (cstr lit) lit.length 0 = 0 ↔ lit <+: s := by
  rw [strncmp_eq_zero, window_cstr hs, window_cstr hl, List.take_length]
  constructor
  · intro h
    rw [← h]
    exact List.take_prefix _ _
  · intro h
    exact (List.prefix_iff_eq_take.mp h).symm

end Kernel391
