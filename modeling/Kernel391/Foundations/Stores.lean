import Mathlib.Algebra.Group.Int.Defs
import Mathlib.Algebra.Group.Nat.Defs
import Mathlib.Logic.Function.Basic
import Mathlib.Data.List.Basic

/-! Byte stores: memories that take one byte at a time and may stop at an address
that is not mapped. A run of consecutive writes is one operation with its own
composition law; the function store and the log store are the two models used
to read a write sequence back. -/
namespace Kernel391.Foundations
set_option autoImplicit false

/-- A memory that bytes can be written to. `.error` carries the memory as it stood when the
write hit an unmapped address. -/
class ByteStore (σ : Type) where
  put : σ → ℕ → UInt8 → Except σ σ

namespace ByteStore
variable {σ : Type} [ByteStore σ]

/-- Write the bytes one after the other from address `a` on. -/
def putBytes (m : σ) (a : ℕ) : List UInt8 → Except σ σ
  | [] => .ok m
  | b :: bs =>
    match put m a b with
    | .ok m' => putBytes m' (a + 1) bs
    | .error m' => .error m'

@[simp] theorem putBytes_nil (m : σ) (a : ℕ) : putBytes m a [] = .ok m := rfl

theorem putBytes_cons_ok {m m' : σ} {a : ℕ} {b : UInt8} (bs : List UInt8)
    (h : put m a b = .ok m') : putBytes m a (b :: bs) = putBytes m' (a + 1) bs := by
  simp only [putBytes, h]

theorem putBytes_cons_error {m m' : σ} {a : ℕ} {b : UInt8} (bs : List UInt8)
    (h : put m a b = .error m') : putBytes m a (b :: bs) = .error m' := by
  simp only [putBytes, h]

theorem putBytes_append (m : σ) (a : ℕ) (xs ys : List UInt8) :
    putBytes m a (xs ++ ys) =
      match putBytes m a xs with
      | .ok m' => putBytes m' (a + xs.length) ys
      | .error m' => .error m' := by
  induction xs generalizing m a with
  | nil => simp
  | cons x xs ih =>
    rw [List.cons_append]
    cases h : put m a x with
    | ok m' =>
      rw [putBytes_cons_ok _ h, putBytes_cons_ok _ h, ih, List.length_cons]
      rw [show a + 1 + xs.length = a + (xs.length + 1) by omega]
    | error m' => rw [putBytes_cons_error _ h, putBytes_cons_error _ h]

/-- A preorder that holds around every store, whether it succeeds or faults. -/
structure Follows (R : σ → σ → Prop) : Prop where
  refl : ∀ m, R m m
  trans : ∀ {m₁ m₂ m₃}, R m₁ m₂ → R m₂ m₃ → R m₁ m₃
  put : ∀ {m a b m'}, put m a b = .ok m' ∨ put m a b = .error m' → R m m'

end ByteStore

/-! ## The function store -/

instance : ByteStore (ℕ → UInt8) where
  put m a b := .ok (Function.update m a b)

/-- The memory after the bytes `bs` are laid down from `a` on. -/
def overlay (m : ℕ → UInt8) (a : ℕ) (bs : List UInt8) : ℕ → UInt8 :=
  fun i => if a ≤ i then (bs[i - a]?).getD (m i) else m i

theorem overlay_nil (m : ℕ → UInt8) (a : ℕ) : overlay m a [] = m := by
  funext i
  simp [overlay]

theorem overlay_of_lt (m : ℕ → UInt8) {a i : ℕ} (bs : List UInt8) (h : i < a) :
    overlay m a bs i = m i := if_neg (by omega)

theorem overlay_of_ge (m : ℕ → UInt8) {a i : ℕ} (bs : List UInt8) (h : a + bs.length ≤ i) :
    overlay m a bs i = m i := by
  unfold overlay
  split
  · rw [List.getElem?_eq_none (by omega), Option.getD_none]
  · rfl

theorem overlay_at (m : ℕ → UInt8) (a k : ℕ) (bs : List UInt8) (h : k < bs.length) :
    overlay m a bs (a + k) = bs[k] := by
  unfold overlay
  rw [if_pos (by omega), Nat.add_sub_cancel_left, List.getElem?_eq_getElem h, Option.getD_some]

theorem overlay_cons (m : ℕ → UInt8) (a : ℕ) (b : UInt8) (bs : List UInt8) :
    overlay (Function.update m a b) (a + 1) bs = overlay m a (b :: bs) := by
  funext i
  rcases Nat.lt_trichotomy i a with h | h | h
  · rw [overlay_of_lt _ _ (by omega), overlay_of_lt _ _ h, Function.update_of_ne (by omega)]
  · subst h
    rw [overlay_of_lt _ _ (by omega), Function.update_self]
    simp [overlay]
  · have hi : i - a = (i - (a + 1)) + 1 := by omega
    simp only [overlay, if_pos (show a + 1 ≤ i by omega), if_pos (show a ≤ i by omega), hi,
      List.getElem?_cons_succ]
    rw [Function.update_of_ne (by omega)]

theorem putBytes_function (m : ℕ → UInt8) (a : ℕ) (bs : List UInt8) :
    ByteStore.putBytes m a bs = .ok (overlay m a bs) := by
  induction bs generalizing m a with
  | nil => rw [ByteStore.putBytes_nil, overlay_nil]
  | cons b bs ih => rw [ByteStore.putBytes_cons_ok bs rfl, ih, overlay_cons]

theorem overlay_append (m : ℕ → UInt8) (a : ℕ) (xs ys : List UInt8) :
    overlay m a (xs ++ ys) = overlay (overlay m a xs) (a + xs.length) ys := by
  have h := ByteStore.putBytes_append m a xs ys
  simp only [putBytes_function, Except.ok.injEq] at h
  exact h

theorem overlay_single (m : ℕ → UInt8) (a : ℕ) (b : UInt8) : overlay m a [b] = Function.update m a b := by
  rw [← overlay_cons, overlay_nil]

/-- The little-endian word in the four bytes from `a` on. -/
def wordAt (m : ℕ → UInt8) (a : ℕ) : ℕ :=
  (m a).toNat + 256 * (m (a + 1)).toNat + 65536 * (m (a + 2)).toNat + 16777216 * (m (a + 3)).toNat

theorem wordAt_lt (m : ℕ → UInt8) (a : ℕ) : wordAt m a < 2 ^ 32 := by
  have h0 := (m a).toNat_lt
  have h1 := (m (a + 1)).toNat_lt
  have h2 := (m (a + 2)).toNat_lt
  have h3 := (m (a + 3)).toNat_lt
  unfold wordAt
  omega

/-! ## The log store -/

/-- The writes done so far, in order: every address and the byte it was given. -/
structure WriteLog where
  writes : List (ℕ × UInt8)

instance : ByteStore WriteLog where
  put m a b := .ok ⟨m.writes ++ [(a, b)]⟩

/-- The log of a run of consecutive writes. -/
def consecutive (a : ℕ) : List UInt8 → List (ℕ × UInt8)
  | [] => []
  | b :: bs => (a, b) :: consecutive (a + 1) bs

theorem putBytes_log (m : WriteLog) (a : ℕ) (bs : List UInt8) :
    ByteStore.putBytes m a bs = .ok ⟨m.writes ++ consecutive a bs⟩ := by
  induction bs generalizing m a with
  | nil => simp [consecutive]
  | cons b bs ih =>
    rw [ByteStore.putBytes_cons_ok bs rfl, ih]
    simp [consecutive]

theorem mem_consecutive {a : ℕ} {bs : List UInt8} {w : ℕ × UInt8} :
    w ∈ consecutive a bs ↔ a ≤ w.1 ∧ bs[w.1 - a]? = some w.2 := by
  induction bs generalizing a with
  | nil => simp [consecutive]
  | cons b bs ih =>
    obtain ⟨i, c⟩ := w
    rw [consecutive, List.mem_cons, ih, Prod.mk.injEq]
    rcases Nat.lt_trichotomy i a with h | h | h
    · have h1 : ¬ i = a := by omega
      have h2 : ¬ a + 1 ≤ i := by omega
      have h3 : ¬ a ≤ i := by omega
      simp [h1, h2, h3]
    · subst h
      have h1 : ¬ i + 1 ≤ i := by omega
      simp [h1, eq_comm]
    · have hi : i - a = (i - (a + 1)) + 1 := by omega
      have h1 : ¬ i = a := by omega
      have h2 : a + 1 ≤ i := by omega
      have h3 : a ≤ i := by omega
      simp [hi, h1, h2, h3]

end Kernel391.Foundations
