import Kernel391.Devices.TerminalRead
import Kernel391.Process.Execute

/-! The line buffers as a line editor. What a key does to the buffer of the terminal on
screen is an operation on that buffer alone, and nothing else in the kernel but
`terminal_read` touches a buffer. -/
namespace Kernel391
open Kernel391.Foundations
set_option autoImplicit false

/-! ## One buffer -/

namespace KeyboardStruct
variable (kb : KeyboardStruct)

def contents : List UInt8 := (List.range kb.top).map kb.buffer

/-- The buffer part of `acceptChar`. -/
def typed (c : UInt8) : KeyboardStruct :=
  let kb' :=
    if c ≠ 0 ∧ kb.enterLock = 0 then
      if c = esc then kb
      else if c = 0x08 ∧ kb.top > 0 then { kb with top := kb.top - 1 }
      else if c = 0x09 ∧ kb.top < 124 then (((kb.push 0x20).push 0x20).push 0x20).push 0x20
      else if c ≠ 0x08 ∧ kb.top < 128 ∧ c ≠ 0x09 then
        if kb.top = 127 then if c = 0x0A then kb.push c else kb else kb.push c
      else kb
    else kb
  if c = 0x0A then { kb' with enterLock := 1 } else kb'

@[simp] theorem contents_length : kb.contents.length = kb.top := by simp [contents]

@[simp] theorem push_top (c : UInt8) : (kb.push c).top = kb.top + 1 := rfl
@[simp] theorem push_enterLock (c : UInt8) : (kb.push c).enterLock = kb.enterLock := rfl

theorem contents_push (c : UInt8) : (kb.push c).contents = kb.contents ++ [c] := by
  unfold contents push
  simp only [List.range_succ, List.map_append, List.map_cons, List.map_nil, Function.update_self]
  congr 1
  apply List.map_congr_left
  intro i hi
  exact Function.update_of_ne (Nat.ne_of_lt (List.mem_range.mp hi)) _ _

theorem contents_backspace : ({ kb with top := kb.top - 1 } : KeyboardStruct).contents = kb.contents.dropLast := by
  unfold contents
  rw [List.dropLast_eq_take, List.length_map, List.length_range, ← List.map_take, List.take_range]
  congr 2
  show kb.top - 1 = min (kb.top - 1) kb.top
  omega

theorem ready_iff : kb.ready = true ↔ kb.contents.getLast? = some 0x0A := by
  unfold ready contents
  rw [List.getLast?_map, List.getLast?_range, decide_eq_true_iff]
  by_cases h : kb.top = 0
  · simp [h]
  · simp [h]

theorem copied_all {n : ℕ} (h : kb.top ≤ n) : (kb.copied n).take (kb.count n) = kb.contents := by
  unfold copied count contents
  rw [Nat.min_eq_right h, ← List.map_take, List.take_range, Nat.min_eq_left h]
  apply List.map_congr_left
  intro i hi
  exact if_pos (List.mem_range.mp hi)

theorem lower_all {n : ℕ} (h : kb.top ≤ n) : (kb.lower n).top = 0 := by
  show (if kb.top ≥ n then kb.top - n else 0) = 0
  split <;> omega

end KeyboardStruct

/-! ## The reference editor -/

/-- One key on a line that is being typed: at most 127 characters before the newline. -/
def editLine (line : List UInt8) (c : UInt8) : List UInt8 :=
  if c = 0 ∨ c = esc then line
  else if c = 0x08 then line.dropLast
  else if c = 0x09 then if line.length < 124 then line ++ List.replicate 4 0x20 else line
  else if line.length < 127 then line ++ [c]
  else line

section Typed
variable {kb : KeyboardStruct} {c : UInt8}

theorem typed_locked (h : kb.enterLock ≠ 0) (hc : c ≠ 0x0A) : kb.typed c = kb := by
  unfold KeyboardStruct.typed
  simp only [if_neg (fun hx : c ≠ 0 ∧ kb.enterLock = 0 => h hx.2), if_neg hc]

theorem typed_locked_newline (h : kb.enterLock = 1) : kb.typed 0x0A = kb := by
  unfold KeyboardStruct.typed
  simp only [h]
  cases kb
  simp_all

theorem typed_newline (h : kb.enterLock = 0) (htop : kb.top ≤ 127) :
    (kb.typed 0x0A).contents = kb.contents ++ [0x0A] ∧ (kb.typed 0x0A).enterLock = 1 := by
  have hval : kb.typed 0x0A = { kb.push 0x0A with enterLock := 1 } := by
    unfold KeyboardStruct.typed
    simp only [h, show (0x0A : UInt8) ≠ 0 by decide, show (0x0A : UInt8) ≠ esc by decide,
      show (0x0A : UInt8) ≠ 0x08 by decide, show (0x0A : UInt8) ≠ 0x09 by decide, show kb.top < 128 by omega,
      ne_eq, not_false_eq_true, false_and, and_true, if_true, if_false, ite_self]
  rw [hval]
  exact ⟨kb.contents_push 0x0A, rfl⟩

theorem typed_edit (h : kb.enterLock = 0) (htop : kb.top ≤ 127) (hc : c ≠ 0x0A) :
    (kb.typed c).contents = editLine kb.contents c ∧ (kb.typed c).enterLock = 0 := by
  unfold KeyboardStruct.typed editLine
  simp only [h, and_true, if_neg hc, KeyboardStruct.contents_length]
  by_cases h0 : c = 0
  · rw [if_neg (not_not.mpr h0), if_pos (Or.inl h0)]
    exact ⟨rfl, h⟩
  rw [if_pos h0]
  by_cases he : c = esc
  · rw [if_pos he, if_pos (Or.inr he)]
    exact ⟨rfl, h⟩
  rw [if_neg he, if_neg (show ¬ (c = 0 ∨ c = esc) from fun hx => hx.elim h0 he)]
  by_cases hb : c = 0x08
  · have ht : c ≠ 0x09 := by
      rw [hb]
      decide
    rw [if_pos hb]
    by_cases hpos : kb.top > 0
    · rw [if_pos ⟨hb, hpos⟩]
      exact ⟨kb.contents_backspace, rfl⟩
    · rw [if_neg (fun hx => hpos hx.2), if_neg (fun hx => ht hx.1), if_neg (fun hx => hx.1 hb)]
      have hnil : kb.contents = [] := List.length_eq_zero_iff.mp (by rw [kb.contents_length]; omega)
      rw [hnil]
      exact ⟨rfl, h⟩
  rw [if_neg (fun hx => hb hx.1), if_neg hb]
  by_cases ht : c = 0x09
  · rw [if_pos ht]
    by_cases hlt : kb.top < 124
    · rw [if_pos ⟨ht, hlt⟩, if_pos hlt]
      simp only [KeyboardStruct.contents_push, KeyboardStruct.push_enterLock, List.append_assoc]
      exact ⟨rfl, h⟩
    · rw [if_neg (fun hx => hlt hx.2), if_neg (fun hx => hx.2.2 ht), if_neg hlt]
      exact ⟨rfl, h⟩
  rw [if_neg (fun hx => ht hx.1), if_pos ⟨hb, by omega, ht⟩, if_neg ht]
  by_cases h127 : kb.top = 127
  · rw [if_pos h127, if_neg (by omega)]
    exact ⟨rfl, h⟩
  · rw [if_neg h127, if_pos (by omega)]
    exact ⟨kb.contents_push c, h⟩

theorem editLine_length (line : List UInt8) (h : line.length ≤ 127) (c : UInt8) : (editLine line c).length ≤ 127 := by
  unfold editLine
  repeat' split
  · exact h
  · rw [List.length_dropLast]
    omega
  · rw [List.length_append, List.length_replicate]
    omega
  · exact h
  · rw [List.length_append, List.length_singleton]
    omega
  · exact h

theorem editLine_noNewline {line : List UInt8} (h : 0x0A ∉ line) (hc : c ≠ 0x0A) : 0x0A ∉ editLine line c := by
  unfold editLine
  repeat' split
  · exact h
  · exact fun hx => h (List.dropLast_subset line hx)
  · simp [h]
  · exact h
  · simp [h, Ne.symm hc]
  · exact h

end Typed
end Kernel391
