import Mathlib.Algebra.Group.Int.Defs
import Mathlib.Algebra.Group.Nat.Defs
import Mathlib.Data.List.Basic

/-! A small part of the 32-bit machine: the registers, memory by bytes, the instructions that move words to and
from the stack, and the calling convention of C. Addresses wrap. -/
namespace Kernel391.Foundations
set_option autoImplicit false

abbrev Word : Type := BitVec 32

/-! ## Memory -/

def store32 (m : Word → BitVec 8) (a v : Word) : Word → BitVec 8 := fun b =>
  if b = a then v.extractLsb' 0 8
  else if b = a + 1 then v.extractLsb' 8 8
  else if b = a + 2 then v.extractLsb' 16 8
  else if b = a + 3 then v.extractLsb' 24 8
  else m b

def load32 (m : Word → BitVec 8) (a : Word) : Word := m (a + 3) ++ m (a + 2) ++ m (a + 1) ++ m a

/-- A byte of the `n` from `a` on. -/
def Inside (a : Word) (n : ℕ) (b : Word) : Prop := (b - a).toNat < n

def Apart32 (a b : Word) : Prop := 4 ≤ (b - a).toNat ∧ 4 ≤ (a - b).toNat

section Memory
variable {m m' : Word → BitVec 8} {a b v : Word}

theorem bytes_word (v : Word) :
    v.extractLsb' 24 8 ++ v.extractLsb' 16 8 ++ v.extractLsb' 8 8 ++ v.extractLsb' 0 8 = v := by
  ext i hi
  simp
  grind

theorem load32_store32 : load32 (store32 m a v) a = v := by
  have h₁ : ¬ a + 1 = a := by bv_omega
  have h₂ : ¬ a + 2 = a := by bv_omega
  have h₂₁ : ¬ a + 2 = a + 1 := by bv_omega
  have h₃ : ¬ a + 3 = a := by bv_omega
  have h₃₁ : ¬ a + 3 = a + 1 := by bv_omega
  have h₃₂ : ¬ a + 3 = a + 2 := by bv_omega
  unfold load32 store32
  simp only [h₁, h₂, h₂₁, h₃, h₃₁, h₃₂, if_true, if_false]
  exact bytes_word v

theorem store32_outside (h : ¬ Inside a 4 b) : store32 m a v b = m b := by
  unfold Inside at h
  have h₀ : ¬ b = a := by rintro rfl; bv_omega
  have h₁ : ¬ b = a + 1 := by rintro rfl; bv_omega
  have h₂ : ¬ b = a + 2 := by rintro rfl; bv_omega
  have h₃ : ¬ b = a + 3 := by rintro rfl; bv_omega
  unfold store32
  rw [if_neg h₀, if_neg h₁, if_neg h₂, if_neg h₃]

theorem load32_congr (h : ∀ b, Inside a 4 b → m' b = m b) : load32 m' a = load32 m a := by
  unfold load32
  rw [h a (by unfold Inside; bv_omega), h (a + 1) (by unfold Inside; bv_omega), h (a + 2) (by unfold Inside; bv_omega),
    h (a + 3) (by unfold Inside; bv_omega)]

theorem load32_apart (h : Apart32 a b) : load32 (store32 m b v) a = load32 m a := by
  unfold Apart32 at h
  refine load32_congr fun x hx => store32_outside ?_
  unfold Inside at hx ⊢
  bv_omega

end Memory

/-! ## Instructions -/

structure X86 where
  eax : Word
  ebx : Word
  ecx : Word
  edx : Word
  esi : Word
  edi : Word
  ebp : Word
  esp : Word
  eip : Word
  mem : Word → BitVec 8

namespace X86
variable (s : X86)

def push (v : Word) : X86 := { s with esp := s.esp - 4, mem := store32 s.mem (s.esp - 4) v }

/-- `pop`, with the register it goes to. -/
def pop (put : X86 → Word → X86) : X86 := put { s with esp := s.esp + 4 } (load32 s.mem s.esp)

def popEbx : X86 := s.pop fun s v => { s with ebx := v }
def popEsi : X86 := s.pop fun s v => { s with esi := v }
def popEdi : X86 := s.pop fun s v => { s with edi := v }
def popEbp : X86 := s.pop fun s v => { s with ebp := v }

def leave : X86 := ({ s with esp := s.ebp } : X86).popEbp

def ret : X86 := s.pop fun s v => { s with eip := v }

/-- `call` of a function that ends with its `ret`. -/
def call (f : X86 → X86) (next : Word) : X86 := f (s.push next)

end X86

/-- The C calling convention: a call from `s` ends in `s'` behind the call, with the registers a callee saves and the
stack pointer as they were, and no memory changed but the `n` bytes below the stack pointer and the words given. -/
structure Honours (n : ℕ) (words : List Word) (next : Word) (s s' : X86) : Prop where
  eip : s'.eip = next
  ebx : s'.ebx = s.ebx
  esi : s'.esi = s.esi
  edi : s'.edi = s.edi
  ebp : s'.ebp = s.ebp
  esp : s'.esp = s.esp
  mem : ∀ b, ¬ Inside (s.esp - BitVec.ofNat 32 n) n b → (∀ w ∈ words, ¬ Inside w 4 b) → s'.mem b = s.mem b

end Kernel391.Foundations
