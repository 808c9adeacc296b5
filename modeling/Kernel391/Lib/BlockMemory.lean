import Kernel391.Foundations.Blocks

/-! `memcpy` and `memset` of `lib.c`: single bytes up to an aligned destination, long words
with a repeated string instruction, single bytes for what is left. -/
namespace Kernel391
open Kernel391.Foundations
set_option autoImplicit false

section Loops
variable (m : ℕ → UInt8)

/-- One round of `movsl`: a long word is read, then written. -/
def movsl (edi esi : ℕ) : ℕ → UInt8 :=
  let b₀ := m (esi % 2 ^ 32)
  let b₁ := m ((esi + 1) % 2 ^ 32)
  let b₂ := m ((esi + 2) % 2 ^ 32)
  let b₃ := m ((esi + 3) % 2 ^ 32)
  let m := Function.update m (edi % 2 ^ 32) b₀
  let m := Function.update m ((edi + 1) % 2 ^ 32) b₁
  let m := Function.update m ((edi + 2) % 2 ^ 32) b₂
  Function.update m ((edi + 3) % 2 ^ 32) b₃

/-- One round of `stosl`. -/
def stosl (edi : ℕ) (eax : UInt32) : ℕ → UInt8 :=
  let m := Function.update m (edi % 2 ^ 32) eax.toUInt8
  let m := Function.update m ((edi + 1) % 2 ^ 32) (eax >>> 8).toUInt8
  let m := Function.update m ((edi + 2) % 2 ^ 32) (eax >>> 16).toUInt8
  Function.update m ((edi + 3) % 2 ^ 32) (eax >>> 24).toUInt8

end Loops

/-- `rep movsl`, the direction flag clear; the number is ECX. What is left are the memory, EDI and ESI. -/
def repMovsl (m : ℕ → UInt8) (edi esi : ℕ) : ℕ → (ℕ → UInt8) × ℕ × ℕ
  | 0 => (m, edi, esi)
  | ecx + 1 => repMovsl (movsl m edi esi) ((edi + 4) % 2 ^ 32) ((esi + 4) % 2 ^ 32) ecx

/-- The loop at `.memcpy_bottom`; the number is EDX. -/
def memcpyBottom (m : ℕ → UInt8) (edi esi : ℕ) : ℕ → ℕ → UInt8
  | 0 => m
  | edx + 1 => memcpyBottom (Function.update m edi (m esi)) ((edi + 1) % 2 ^ 32) ((esi + 1) % 2 ^ 32) edx

/-- From `.memcpy_aligned` on. -/
def memcpyAligned (m : ℕ → UInt8) (edi esi ecx : ℕ) : ℕ → UInt8 :=
  let edx := ecx &&& 3
  let (m, edi, esi) := repMovsl m edi esi (ecx >>> 2)
  memcpyBottom m edi esi edx

/-- The loop at `.memcpy_top`; the number is ECX. -/
def memcpyTop (m : ℕ → UInt8) (edi esi : ℕ) : ℕ → ℕ → UInt8
  | 0 => m
  | ecx + 1 =>
    if edi &&& 3 = 0 then memcpyAligned m edi esi (ecx + 1)
    else memcpyTop (Function.update m edi (m esi)) ((edi + 1) % 2 ^ 32) ((esi + 1) % 2 ^ 32) ecx

/-- `memcpy`. -/
def memcpy (m : ℕ → UInt8) (dest src n : ℕ) : ℕ → UInt8 := memcpyTop m dest src n

/-- `rep stosl`. -/
def repStosl (m : ℕ → UInt8) (edi : ℕ) (eax : UInt32) : ℕ → (ℕ → UInt8) × ℕ
  | 0 => (m, edi)
  | ecx + 1 => repStosl (stosl m edi eax) ((edi + 4) % 2 ^ 32) eax ecx

/-- The loop at `.memset_bottom`. -/
def memsetBottom (m : ℕ → UInt8) (edi : ℕ) (eax : UInt32) : ℕ → ℕ → UInt8
  | 0 => m
  | edx + 1 => memsetBottom (Function.update m edi eax.toUInt8) ((edi + 1) % 2 ^ 32) eax edx

/-- From `.memset_aligned` on. -/
def memsetAligned (m : ℕ → UInt8) (edi : ℕ) (eax : UInt32) (ecx : ℕ) : ℕ → UInt8 :=
  let edx := ecx &&& 3
  let (m, edi) := repStosl m edi eax (ecx >>> 2)
  memsetBottom m edi eax edx

/-- The loop at `.memset_top`. -/
def memsetTop (m : ℕ → UInt8) (edi : ℕ) (eax : UInt32) : ℕ → ℕ → UInt8
  | 0 => m
  | ecx + 1 =>
    if edi &&& 3 = 0 then memsetAligned m edi eax (ecx + 1)
    else memsetTop (Function.update m edi eax.toUInt8) ((edi + 1) % 2 ^ 32) eax ecx

/-- The byte of `c` in all four places of EAX. -/
def memsetEax (c : UInt32) : UInt32 :=
  let c := c &&& 0xFF
  c <<< 24 ||| c <<< 16 ||| c <<< 8 ||| c

/-- `memset`. -/
def memset (m : ℕ → UInt8) (s : ℕ) (c : UInt32) (n : ℕ) : ℕ → UInt8 := memsetTop m s (memsetEax c) n

def copyBytes (m : ℕ → UInt8) (dest src n : ℕ) : ℕ → UInt8 :=
  forLoop (fun i m => Function.update m (dest + i) (m (src + i))) n m

def fillBytes (m : ℕ → UInt8) (s : ℕ) (c : UInt32) (n : ℕ) : ℕ → UInt8 :=
  forLoop (fun i m => Function.update m (s + i) c.toUInt8) n m

/-! ## Addresses -/

section Addresses
variable {d n k : ℕ}

theorem address_eq (h : d + (n + 1) ≤ 2 ^ 32) : d % 2 ^ 32 = d := Nat.mod_eq_of_lt (by omega)

theorem split_count (n : ℕ) : 4 * (n >>> 2) + (n &&& 3) = n := by
  have hmod : n &&& 3 = n % 4 := Nat.and_two_pow_sub_one_eq_mod n 2
  rw [hmod, Nat.shiftRight_eq_div_pow]
  omega

end Addresses
/-! ## Copying -/

section Copy
variable {m : ℕ → UInt8} {d s n k : ℕ}

theorem movsl_eq (hd : d + 4 ≤ 2 ^ 32) (hs : s + 4 ≤ 2 ^ 32) (h : BlocksApart d s 4) :
    movsl m d s = copied m d s 4 := by
  unfold BlocksApart at h
  have hloop := @copied_loop m d s 4 h
  have hother : ∀ i, 0 < i → i < 4 → s + i ≠ d ∧ s + i ≠ d + 1 ∧ s + i ≠ d + 2 := by omega
  simp only [forLoop, Nat.add_zero] at hloop
  rw [Function.update_of_ne (hother 1 (by omega) (by omega)).1,
    Function.update_of_ne (hother 2 (by omega) (by omega)).2.1,
    Function.update_of_ne (hother 2 (by omega) (by omega)).1,
      Function.update_of_ne (hother 3 (by omega) (by omega)).2.2,
    Function.update_of_ne (hother 3 (by omega) (by omega)).2.1,
      Function.update_of_ne (hother 3 (by omega) (by omega)).1] at hloop
  unfold movsl
  simp only
  rw [Nat.mod_eq_of_lt (show s < 2 ^ 32 by omega), Nat.mod_eq_of_lt (show s + 1 < 2 ^ 32 by omega),
    Nat.mod_eq_of_lt (show s + 2 < 2 ^ 32 by omega), Nat.mod_eq_of_lt (show s + 3 < 2 ^ 32 by omega),
    Nat.mod_eq_of_lt (show d < 2 ^ 32 by omega), Nat.mod_eq_of_lt (show d + 1 < 2 ^ 32 by omega),
    Nat.mod_eq_of_lt (show d + 2 < 2 ^ 32 by omega), Nat.mod_eq_of_lt (show d + 3 < 2 ^ 32 by omega)]
  exact hloop

theorem repMovsl_eq (hd : d + 4 * n ≤ 2 ^ 32) (hs : s + 4 * n ≤ 2 ^ 32) (h : BlocksApart d s (4 * n)) :
    repMovsl m (d % 2 ^ 32) (s % 2 ^ 32) n = (copied m d s (4 * n), (d + 4 * n) % 2 ^ 32, (s + 4 * n) % 2 ^ 32) := by
  induction n generalizing m d s with
  | zero => rw [Nat.mul_zero, copied_zero]; rfl
  | succ n ih =>
    have hcount : 4 * (n + 1) = 4 + 4 * n := by omega
    rw [hcount] at hd hs h ⊢
    have hfirst := h.take
    have hrest := h.drop
    rw [repMovsl, Nat.mod_eq_of_lt (show d < 2 ^ 32 by omega), Nat.mod_eq_of_lt (show s < 2 ^ 32 by omega),
      movsl_eq (by omega) (by omega) hfirst, ih (by omega) (by omega) hrest, copied_append h,
        Nat.add_assoc, Nat.add_assoc]

theorem memcpyBottom_eq (hd : d + n ≤ 2 ^ 32) (hs : s + n ≤ 2 ^ 32) (h : BlocksApart d s n) :
    memcpyBottom m (d % 2 ^ 32) (s % 2 ^ 32) n = copied m d s n := by
  induction n generalizing m d s with
  | zero => exact copied_zero.symm
  | succ n ih =>
    have hrest : BlocksApart (d + 1) (s + 1) n := by
      rw [Nat.add_comm] at h
      exact h.drop
    rw [memcpyBottom, address_eq hd, address_eq hs, ih (by omega) (by omega) hrest, copied_succ h]

theorem memcpyAligned_eq (hd : d + n ≤ 2 ^ 32) (hs : s + n ≤ 2 ^ 32) (h : BlocksApart d s n) :
    memcpyAligned m (d % 2 ^ 32) (s % 2 ^ 32) n = copied m d s n := by
  have hsplit := split_count n
  unfold memcpyAligned
  generalize n >>> 2 = q at hsplit
  generalize n &&& 3 = r at hsplit
  subst hsplit
  rw [repMovsl_eq (by omega) (by omega) h.take]
  simp only
  rw [memcpyBottom_eq (by omega) (by omega) h.drop, copied_append h]

theorem memcpyTop_eq (hd : d + n ≤ 2 ^ 32) (hs : s + n ≤ 2 ^ 32) (h : BlocksApart d s n) :
    memcpyTop m (d % 2 ^ 32) (s % 2 ^ 32) n = copied m d s n := by
  induction n generalizing m d s with
  | zero => exact copied_zero.symm
  | succ n ih =>
    have hrest : BlocksApart (d + 1) (s + 1) n := by
      rw [Nat.add_comm] at h
      exact h.drop
    rw [memcpyTop]
    split
    · exact memcpyAligned_eq hd hs h
    · rw [address_eq hd, address_eq hs, ih (by omega) (by omega) hrest, copied_succ h]

theorem memcpy_eq (hd : d + n ≤ 2 ^ 32) (hs : s + n ≤ 2 ^ 32) (h : BlocksApart d s n) :
    memcpy m d s n = copied m d s n := by
  cases n with
  | zero => exact copied_zero.symm
  | succ n =>
    have heq := @memcpyTop_eq m d s (n + 1) hd hs h
    rw [address_eq hd, address_eq hs] at heq
    exact heq

end Copy
/-! ## Filling -/

section Fill
variable {m : ℕ → UInt8} {d n : ℕ} {eax : UInt32} {b : UInt8}

/-- A long word of one byte four times. -/
structure Fourfold (eax : UInt32) (b : UInt8) : Prop where
  first : eax.toUInt8 = b
  second : (eax >>> 8).toUInt8 = b
  third : (eax >>> 16).toUInt8 = b
  fourth : (eax >>> 24).toUInt8 = b

theorem stosl_eq (hd : d + 4 ≤ 2 ^ 32) (h : Fourfold eax b) : stosl m d eax = filled m d b 4 := by
  have hloop := @filled_loop m d 4 b
  simp only [forLoop, Nat.add_zero] at hloop
  unfold stosl
  simp only [h.first, h.second, h.third, h.fourth]
  rw [Nat.mod_eq_of_lt (show d < 2 ^ 32 by omega), Nat.mod_eq_of_lt (show d + 1 < 2 ^ 32 by omega),
    Nat.mod_eq_of_lt (show d + 2 < 2 ^ 32 by omega), Nat.mod_eq_of_lt (show d + 3 < 2 ^ 32 by omega)]
  exact hloop

theorem repStosl_eq (hd : d + 4 * n ≤ 2 ^ 32) (h : Fourfold eax b) :
    repStosl m (d % 2 ^ 32) eax n = (filled m d b (4 * n), (d + 4 * n) % 2 ^ 32) := by
  induction n generalizing m d with
  | zero => rw [Nat.mul_zero, filled_zero]; rfl
  | succ n ih =>
    have hcount : 4 * (n + 1) = 4 + 4 * n := by omega
    rw [hcount] at hd ⊢
    rw [repStosl, Nat.mod_eq_of_lt (show d < 2 ^ 32 by omega), stosl_eq (by omega) h, ih (by omega),
      filled_append, Nat.add_assoc]

theorem memsetBottom_eq (hd : d + n ≤ 2 ^ 32) (h : eax.toUInt8 = b) :
    memsetBottom m (d % 2 ^ 32) eax n = filled m d b n := by
  induction n generalizing m d with
  | zero => exact filled_zero.symm
  | succ n ih => rw [memsetBottom, address_eq hd, ih (by omega), h, filled_succ]

theorem memsetAligned_eq (hd : d + n ≤ 2 ^ 32) (h : Fourfold eax b) :
    memsetAligned m (d % 2 ^ 32) eax n = filled m d b n := by
  have hsplit := split_count n
  unfold memsetAligned
  generalize n >>> 2 = q at hsplit
  generalize n &&& 3 = r at hsplit
  subst hsplit
  rw [repStosl_eq (by omega) h]
  simp only
  rw [memsetBottom_eq (by omega) h.first, filled_append]

theorem memsetTop_eq (hd : d + n ≤ 2 ^ 32) (h : Fourfold eax b) : memsetTop m (d % 2 ^ 32) eax n = filled m d b n := by
  induction n generalizing m d with
  | zero => exact filled_zero.symm
  | succ n ih =>
    rw [memsetTop]
    split
    · exact memsetAligned_eq hd h
    · rw [address_eq hd, ih (by omega), h.first, filled_succ]

theorem fourfold_of_byte : ∀ b : Fin 256,
    let c : UInt32 := UInt32.ofNat b.val
    (c <<< 24 ||| c <<< 16 ||| c <<< 8 ||| c).toUInt8 = UInt8.ofNat b.val ∧
      ((c <<< 24 ||| c <<< 16 ||| c <<< 8 ||| c) >>> 8).toUInt8 = UInt8.ofNat b.val ∧
      ((c <<< 24 ||| c <<< 16 ||| c <<< 8 ||| c) >>> 16).toUInt8 = UInt8.ofNat b.val ∧
      ((c <<< 24 ||| c <<< 16 ||| c <<< 8 ||| c) >>> 24).toUInt8 = UInt8.ofNat b.val := by
  decide +kernel

theorem and_byte (c : UInt32) : c &&& 0xFF = UInt32.ofNat (c.toNat % 256) := by
  apply UInt32.toNat_inj.mp
  rw [UInt32.toNat_and]
  show c.toNat &&& (2 ^ 8 - 1) = _
  rw [Nat.and_two_pow_sub_one_eq_mod]
  simp
  omega

theorem memsetEax_fourfold (c : UInt32) : Fourfold (memsetEax c) c.toUInt8 := by
  have hlow : c.toUInt8 = UInt8.ofNat (c.toNat % 256) := by
    apply UInt8.toNat_inj.mp
    simp
  have h := fourfold_of_byte ⟨c.toNat % 256, Nat.mod_lt _ (by decide)⟩
  unfold memsetEax
  rw [and_byte, hlow]
  exact ⟨h.1, h.2.1, h.2.2.1, h.2.2.2⟩

theorem memset_eq (hd : d + n ≤ 2 ^ 32) (c : UInt32) : memset m d c n = filled m d c.toUInt8 n := by
  cases n with
  | zero => exact filled_zero.symm
  | succ n =>
    have heq := @memsetTop_eq m d (n + 1) _ _ hd (memsetEax_fourfold c)
    rw [address_eq hd] at heq
    exact heq

end Fill
/-! ## What the loops stand for -/

/-- **The block operations are their byte loops**, and touch nothing else. -/
theorem block_operations_exact (m : ℕ → UInt8) (dest n : ℕ) (hdest : dest + n ≤ 2 ^ 32) :
    (∀ src, src + n ≤ 2 ^ 32 → BlocksApart dest src n → memcpy m dest src n = copyBytes m dest src n ∧
      ∀ a, ¬ (dest ≤ a ∧ a < dest + n) → memcpy m dest src n a = m a) ∧
    ∀ c, memset m dest c n = fillBytes m dest c n ∧ ∀ a, ¬ (dest ≤ a ∧ a < dest + n) → memset m dest c n a = m a := by
  refine ⟨fun src hsrc hapart => ?_, fun c => ?_⟩
  · rw [memcpy_eq hdest hsrc hapart]
    exact ⟨(copied_loop hapart).symm, fun a ha => copied_outside ha⟩
  · rw [memset_eq hdest]
    exact ⟨filled_loop.symm, fun a ha => filled_outside ha⟩

/-- Eleven bytes to an odd address and to the last bytes there are. -/
theorem block_operations_exact_eleven : (0x800001 + 11 ≤ 2 ^ 32 ∧
      memcpy (fun a => UInt8.ofNat a) 0x800001 (2 ^ 32 - 11) 11 = copyBytes (fun a => UInt8.ofNat a) 0x800001
        (2 ^ 32 - 11) 11) ∧
    memset (fun _ => 0) (2 ^ 32 - 11) 0xFFFFFF41 11 = fillBytes (fun _ => 0) (2 ^ 32 - 11) 0xFFFFFF41 11 :=
  ⟨⟨by decide, ((block_operations_exact (fun a => UInt8.ofNat a) 0x800001 11 (by decide)).1 (2 ^ 32 - 11) (by decide)
      (by unfold BlocksApart; decide)).1⟩,
    ((block_operations_exact (fun _ => 0) (2 ^ 32 - 11) 11 (by decide)).2 0xFFFFFF41).1⟩

end Kernel391
