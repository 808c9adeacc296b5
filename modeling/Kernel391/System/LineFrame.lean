import Kernel391.Devices.LineBuffer
import Kernel391.Process.Transitions
import Kernel391.System.EventFrames

/-! What an event does to the line buffers. Switching processes and terminals leaves
them alone; a keystroke acts on the buffer of the terminal on screen. -/
namespace Kernel391
open Kernel391.Foundations
set_option autoImplicit false

/-- The line buffers and the state of the keys. -/
structure Input where
  keyboard : ℕ → KeyboardStruct
  keys : KeyState

def Kernel.input (k : Kernel) : Input := ⟨k.keyboard, k.keys⟩

/-- The input state as a function leaves it, however it ends. -/
def Outcome.input : Outcome → Input
  | .ret _ k => k.input
  | .gone k => k.input
  | .fault k => k.input

/-! ## Functions that leave the input alone -/

theorem ignores_input : Ignores (fun _ => True) Kernel.input where
  written _ _ _ _ := rfl
  kept _ _ _ _ := rfl
  rest k k' _ hkeyboard hkeys := by
    unfold Kernel.input
    rw [hkeyboard, hkeys]

theorem spares_all (k : Kernel) (a : ℕ) : Spares (fun _ => True) k a := ⟨fun _ _ _ => trivial, trivial⟩

theorem Outcome.input_kernel (o : Outcome) : o.input = o.kernel.input := by
  cases o <;> rfl

section Functions
variable {img : Image} {fs : Filesystem}

theorem input_switchTerminal (k : Kernel) (e : Entry) (t : ℕ) : (switchTerminal img fs k e t).input = k.input :=
  (Outcome.input_kernel _).trans (ignores_input.switchTerminal k e (fun _ _ => trivial) t)

theorem input_afterInterrupt (o : Outcome) (e : Entry) (caller : Cpu) :
    (o.afterInterrupt img fs e caller).input = o.input := by
  rw [Outcome.input_kernel]
  exact ignores_input.afterInterrupt rfl (fun k₁ _ => spares_all k₁ _) caller

/-! ## A keystroke -/

/-- The character a scan code is decoded to, for the terminal on screen; none when nothing is on
screen or the code repeats too soon. -/
def Kernel.keyed (k : Kernel) (scanCode : ℕ) : Option (ℕ × UInt8) :=
  match k.findOnscreenTerminalNum with
  | none => none
  | some t => if k.keys.handled scanCode then some (t, (k.keys.press scanCode).currentChar scanCode) else none

def Kernel.typedInto (k : Kernel) (scanCode : ℕ) : ℕ → KeyboardStruct :=
  match k.keyed scanCode with
  | none => k.keyboard
  | some (t, c) => Function.update k.keyboard t ((k.keyboard t).typed c)

theorem requested_silent {s : KeyState} {temp t : ℕ} (h : s.requestedTerminal temp = some t) :
    s.currentChar temp = 0 := by
  unfold KeyState.requestedTerminal at h
  unfold KeyState.currentChar
  split at h
  · next hc =>
    obtain ⟨h62, hctrl, halt, -⟩ := hc
    rw [if_pos h62, if_neg hctrl, if_pos halt]
  · cases h

theorem typed_zero (kb : KeyboardStruct) : kb.typed 0 = kb := by
  unfold KeyboardStruct.typed
  simp only [ne_eq, not_true_eq_false, false_and, if_false]
  exact if_neg (by decide)

theorem input_combination (k : Kernel) (e : Entry) (temp : ℕ) :
    (combination img fs k e temp).input = k.input := by
  unfold combination
  split
  · next t _ =>
    have h := @input_switchTerminal img fs k e t
    cases hs : switchTerminal img fs k e t <;> rw [hs] at h
    · simp only
      split <;> exact h
    · exact h
    · exact h
  · split <;> rfl

theorem combination_silent {k k' : Kernel} {e : Entry} {temp : ℕ}
    (h : combination img fs k e temp = .gone k' ∨ combination img fs k e temp = .fault k') :
    k.keys.currentChar temp = 0 := by
  unfold combination at h
  split at h
  · next t ht => exact requested_silent ht
  · rcases h with h | h <;> cases h

theorem keyboard_acceptChar (k : Kernel) (t : ℕ) (c : UInt8) :
    (k.acceptChar t c).keyboard = Function.update k.keyboard t ((k.keyboard t).typed c) ∧
      (k.acceptChar t c).keys = k.keys := by
  have hid : ∀ {kb : KeyboardStruct}, kb = k.keyboard t → Function.update k.keyboard t kb = k.keyboard := by
    rintro kb rfl
    exact Function.update_eq_self t k.keyboard
  unfold Kernel.acceptChar KeyboardStruct.typed
  simp only [Kernel.delc, Kernel.puts, Kernel.putc]
  by_cases hn : c = 0x0A
  · rw [if_pos hn, if_pos hn]
    repeat' split
    all_goals
      refine ⟨?_, rfl⟩
      simp only [Kernel.setKeyboard, Kernel.withConsole, Function.update_self, Function.update_idem]
  · rw [if_neg hn, if_neg hn]
    repeat' split
    all_goals
      refine ⟨?_, rfl⟩
      first
        | exact (hid rfl).symm
        | rfl

theorem keyboard_handleScanCode (k : Kernel) (e : Entry) (curr temp : ℕ) :
    (handleScanCode img fs k e curr temp).input.keyboard =
      if k.keys.handled temp then
        Function.update k.keyboard curr ((k.keyboard curr).typed ((k.keys.press temp).currentChar temp))
      else k.keyboard := by
  unfold handleScanCode
  by_cases hh : k.keys.handled temp = true
  · rw [if_pos hh, if_pos hh]
    generalize hk₁ : ({ k with keys := k.keys.press temp } : Kernel) = k₁
    have hkb : k₁.keyboard = k.keyboard := by rw [← hk₁]
    have hkeys : k₁.keys = k.keys.press temp := by rw [← hk₁]
    have h := @input_combination img fs k₁ e temp
    simp only
    cases hc : combination img fs k₁ e temp with
    | ret r k₂ =>
      rw [hc] at h
      simp only [Outcome.input, Kernel.input, Input.mk.injEq] at h ⊢
      rw [← hkb, ← hkeys, ← h.1, ← h.2]
      exact (keyboard_acceptChar k₂ curr _).1
    | gone k₂ =>
      have hsilent := combination_silent (Or.inl hc)
      rw [hc] at h
      simp only [Outcome.input, Kernel.input, Input.mk.injEq] at h ⊢
      rw [← hkeys, hsilent, typed_zero, Function.update_eq_self, h.1, hkb]
    | fault k₂ =>
      have hsilent := combination_silent (Or.inr hc)
      rw [hc] at h
      simp only [Outcome.input, Kernel.input, Input.mk.injEq] at h ⊢
      rw [← hkeys, hsilent, typed_zero, Function.update_eq_self, h.1, hkb]
  · rw [if_neg hh, if_neg hh]
    rfl

theorem input_borrowScreen (k : Kernel) (t : TerminalInfo) (curr : ℕ) : (k.borrowScreen t curr).input = k.input := by
  unfold Kernel.borrowScreen
  split <;> rfl

theorem input_returnScreen (k : Kernel) (page : ℕ) (t : TerminalInfo) (curr : ℕ) :
    (k.returnScreen page t curr).input = k.input := by
  unfold Kernel.returnScreen
  split <;> rfl

/-- **A keystroke** types into the buffer of the terminal on screen and touches no other. -/
theorem keyboard_handleKeyboard (k : Kernel) (e : Entry) (temp : ℕ) :
    (handleKeyboard img fs k e temp).input.keyboard = k.typedInto temp := by
  unfold handleKeyboard Kernel.typedInto Kernel.keyed
  cases hon : k.findOnscreenTerminalNum with
  | none => rfl
  | some t =>
    simp only
    generalize hk₀ : k.setAttrib (color ((some t).getD 255)) = k₀
    generalize (k₀.pcb (getPcb k₀.cpu.esp)).terminalInfo = info
    have hin : (k₀.borrowScreen info t).input = k.input := by
      rw [input_borrowScreen, ← hk₀, ignores_input.setAttrib]
    simp only [Kernel.input, Input.mk.injEq] at hin
    have h := @keyboard_handleScanCode img fs (k₀.borrowScreen info t) e t temp
    rw [hin.1, hin.2] at h
    have htyped : (handleScanCode img fs (k₀.borrowScreen info t) e t temp).input.keyboard =
        match (motive := Option (ℕ × UInt8) → ℕ → KeyboardStruct)
          if k.keys.handled temp = true then some (t, (k.keys.press temp).currentChar temp) else none with
        | none => k.keyboard
        | some (t, c) => Function.update k.keyboard t ((k.keyboard t).typed c) := by
      rw [h]
      split <;> rfl
    rw [← htyped]
    cases handleScanCode img fs (k₀.borrowScreen info t) e t temp with
    | ret r k' => exact congrArg Input.keyboard (input_returnScreen _ _ _ _)
    | gone k' => rfl
    | fault k' => rfl

/-! ## The state of the keys -/

theorem keys_handleScanCode {k k' : Kernel} {e : Entry} {curr temp : ℕ} (hh : k.keys.handled temp = true) :
    (∀ r, handleScanCode img fs k e curr temp = .ret r k' → k'.keys = { k.keys.press temp with oldData := temp }) ∧
      (handleScanCode img fs k e curr temp = .gone k' → k'.keys = k.keys.press temp) := by
  unfold handleScanCode
  rw [if_pos hh]
  generalize hk₁ : ({ k with keys := k.keys.press temp } : Kernel) = k₁
  have hkeys : k₁.keys = k.keys.press temp := by rw [← hk₁]
  have h := @input_combination img fs k₁ e temp
  simp only
  cases hc : combination img fs k₁ e temp with
  | ret r k₂ =>
    rw [hc] at h
    have hk₂ : k₂.keys = k₁.keys := congrArg Input.keys h
    refine ⟨fun r hr => ?_, fun hr => (by cases hr)⟩
    cases hr
    show ({ (k₂.acceptChar curr (k₂.keys.currentChar temp)).keys with oldData := temp } : KeyState) = _
    rw [(keyboard_acceptChar k₂ curr _).2, hk₂, hkeys]
  | gone k₂ =>
    rw [hc] at h
    have hk₂ : k₂.keys = k₁.keys := congrArg Input.keys h
    refine ⟨fun r hr => (by cases hr), fun hr => ?_⟩
    cases hr
    exact hk₂.trans hkeys
  | fault k₂ => exact ⟨fun r hr => (by cases hr), fun hr => (by cases hr)⟩

theorem keys_handleKeyboard {k k' : Kernel} {e : Entry} {temp : ℕ} (hon : k.findOnscreenTerminalNum ≠ none)
    (hh : k.keys.handled temp = true) :
    (∀ r, handleKeyboard img fs k e temp = .ret r k' → k'.keys = { k.keys.press temp with oldData := temp }) ∧
      (handleKeyboard img fs k e temp = .gone k' → k'.keys = k.keys.press temp) := by
  unfold handleKeyboard
  cases hon' : k.findOnscreenTerminalNum with
  | none => exact absurd hon' hon
  | some t =>
    simp only
    generalize hk₀ : k.setAttrib (color ((some t).getD 255)) = k₀
    generalize (k₀.pcb (getPcb k₀.cpu.esp)).terminalInfo = info
    have hin : (k₀.borrowScreen info t).keys = k.keys := by
      have h := input_borrowScreen k₀ info t
      rw [← hk₀, ignores_input.setAttrib, hk₀] at h
      exact congrArg Input.keys h
    rw [← hin] at hh
    cases hs : handleScanCode img fs (k₀.borrowScreen info t) e t temp with
    | ret r k₁ =>
      refine ⟨fun r hr => ?_, fun hr => (by cases hr)⟩
      cases hr
      rw [← hin]
      exact (congrArg Input.keys (input_returnScreen _ _ _ _)).trans ((keys_handleScanCode hh).1 r hs)
    | gone k₁ =>
      refine ⟨fun r hr => (by cases hr), fun hr => ?_⟩
      cases hr
      rw [← hin]
      exact (keys_handleScanCode hh).2 hs
    | fault k₁ => exact ⟨fun r hr => (by cases hr), fun hr => (by cases hr)⟩

/-! ## Events -/

/-- **What an event does to the input state.** -/
theorem step_input {k k' : Kernel} {ev : Event} (h : step img fs k ev = some k') :
    k'.input =
      match ev with
      | .key e scanCode => (handleKeyboard img fs (k.interrupted e) e scanCode).input
      | .work w => ⟨w.keyboard, k.keys⟩
      | _ => k.input := by
  have hquiet : (∀ e scanCode, ev ≠ .key e scanCode) → (∀ w, ev ≠ .work w) → k'.input = k.input := fun hkey hwork =>
    ignores_input.step (fun _ => spares_all k _) h hkey hwork
  cases ev with
  | key e scanCode =>
    simp only [step] at h
    split at h
    · cases h
      exact input_afterInterrupt _ e k.cpu
    · cases h
  | work w =>
    simp only [step] at h
    split at h
    · cases h
      rfl
    · cases h
  | _ => exact hquiet (fun _ _ hx => by cases hx) fun _ hx => by cases hx

/-- **What an event does to the line buffers.** -/
theorem step_keyboard {k k' : Kernel} {ev : Event} (h : step img fs k ev = some k') :
    k'.keyboard =
      match ev with
      | .key _ scanCode => k.typedInto scanCode
      | .work w => w.keyboard
      | _ => k.keyboard := by
  have hin := congrArg Input.keyboard (step_input h)
  cases ev with
  | key e scanCode => exact hin.trans (keyboard_handleKeyboard _ e scanCode)
  | _ => exact hin

end Functions
end Kernel391
