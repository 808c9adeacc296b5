import Kernel391.System.LineFrame
import Kernel391.Process.Mapping

/-! A keystroke that asks for no terminal. The handler lends the screen to the terminal
shown, types, and gives back what it took; nothing else of the kernel changes. -/
namespace Kernel391
open Kernel391.Foundations
set_option autoImplicit false

/-- The terminal of the process on the stack in use. -/
def Kernel.terminalNow (k : Kernel) : TerminalInfo := (k.pcb (getPcb k.cpu.esp)).terminalInfo

/-- What a scan code that asks for no terminal does to the screen and to the line of terminal `t`. -/
def Kernel.typeCode (k : Kernel) (t temp : ℕ) : Kernel :=
  if k.keys.handled temp then
    let k := { k with keys := k.keys.press temp }
    let k := if temp < 62 ∧ k.keys.ctrl = 1 ∧ temp = 0x26 then k.clearScreen else k
    (k.acceptChar t (k.keys.currentChar temp)).setOldData temp
  else { k with keys := { k.keys with holdingCount := k.keys.holdingCount - 1, oldData := temp } }

/-- The kernel once the screen is lent to terminal `t`. -/
def Kernel.lent (k : Kernel) (t : ℕ) : Kernel := (k.setAttrib (color t)).borrowScreen k.terminalNow t

/-- The page the handler remembers to give the screen back to. -/
def Kernel.oldPage (k : Kernel) : ℕ := if k.terminalNow.isOnscreen = 0 then k.terminalNow.fakePageAddr else 0

/-- Only the text page, the cursor, its ports, the line buffers and the keys have changed. -/
structure Echoed (k k' : Kernel) : Prop where
  same : k' = { k with
    phys := k'.phys, screenX := k'.screenX, screenY := k'.screenY, ports := k'.ports, keyboard := k'.keyboard
    keys := k'.keys }
  phys : ∀ a, ¬ (k.frameOf video ≤ a ∧ a < k.frameOf video + fourKb) → k'.phys a = k.phys a

section Echoed
variable {k k₁ k₂ : Kernel} {t temp : ℕ} {c : UInt8}

theorem Echoed.refl (k : Kernel) : Echoed k k := ⟨rfl, fun _ _ => rfl⟩

theorem Echoed.frameOf (h : Echoed k k₁) : k₁.frameOf video = k.frameOf video := by
  rw [h.same]
  rfl

theorem Echoed.trans (h₁ : Echoed k k₁) (h₂ : Echoed k₁ k₂) : Echoed k k₂ where
  same := by
    rw [h₂.same, h₁.same]
  phys a ha := by
    rw [h₂.phys a (by rw [h₁.frameOf]; exact ha), h₁.phys a ha]

theorem echoed_withConsole (k : Kernel) (f : Console → Console) : Echoed k (k.withConsole f) :=
  ⟨rfl, fun _ ha => if_neg ha⟩

theorem echoed_setKeyboard (k : Kernel) (f : KeyboardStruct → KeyboardStruct) : Echoed k (k.setKeyboard t f) :=
  ⟨rfl, fun _ _ => rfl⟩

theorem echoed_acceptChar (k : Kernel) (t : ℕ) (c : UInt8) : Echoed k (k.acceptChar t c) := by
  have hlock : ∀ k₁, Echoed k k₁ →
      Echoed k (if c = 0x0A then k₁.setKeyboard t fun kb => { kb with enterLock := 1 } else k₁) := by
    intro k₁ h
    split
    · exact h.trans (echoed_setKeyboard _ _)
    · exact h
  have hkey : ∀ f g, Echoed k ((k.withConsole f).setKeyboard t g) := fun f g =>
    (echoed_withConsole k f).trans (echoed_setKeyboard _ _)
  have hsame := Echoed.refl k
  unfold Kernel.acceptChar
  apply hlock
  repeat' split
  all_goals
    first
      | assumption
      | exact hkey _ _

theorem echoed_keys (k : Kernel) (keys : KeyState) : Echoed k { k with keys := keys } := ⟨rfl, fun _ _ => rfl⟩

theorem echoed_setOldData (k : Kernel) (temp : ℕ) : Echoed k (k.setOldData temp) := ⟨rfl, fun _ _ => rfl⟩

theorem echoed_clearScreen (k : Kernel) : Echoed k k.clearScreen := echoed_withConsole k Console.clearScreen

theorem echoed_typeCode (k : Kernel) (t temp : ℕ) : Echoed k (k.typeCode t temp) := by
  unfold Kernel.typeCode
  split
  · refine (echoed_keys k (k.keys.press temp)).trans ?_
    generalize ({ k with keys := k.keys.press temp } : Kernel) = k₁
    simp only
    split
    · exact ((echoed_clearScreen k₁).trans (echoed_acceptChar _ _ _)).trans (echoed_setOldData _ _)
    · exact (echoed_acceptChar _ _ _).trans (echoed_setOldData _ _)
  · exact echoed_keys _ _

end Echoed

/-! ## The page behind the mapping -/

theorem phys_updateCursor (k : Kernel) (a : ℕ) : k.updateCursor.phys a = k.phys a := by
  show (if k.frameOf video ≤ a ∧ a < k.frameOf video + fourKb then k.phys (k.frameOf video + (a - k.frameOf video))
    else k.phys a) = k.phys a
  split
  · next h => rw [Nat.add_sub_cancel' h.1]
  · rfl

theorem phys_moved (k : Kernel) (page a b x : ℕ) :
    ((k.setVideo page).switchCursor a b).updateCursor.phys x = k.phys x :=
  phys_updateCursor ((k.setVideo page).switchCursor a b) x

theorem frameOf_setVideo (k : Kernel) : (k.setVideo video).frameOf video = video := by
  show Function.update k.pageTbl (tableIdx video) (pageTableEntry video 0) (tableIdx video) / 2 ^ 12 * 2 ^ 12 = video
  rw [Function.update_self]
  rfl

theorem frameOf_borrowed (k : Kernel) (a b : ℕ) :
    ((k.setVideo video).switchCursor a b).updateCursor.frameOf video = video := frameOf_setVideo k

/-! ## What decides what is on screen -/

section Same
variable {k k₁ k₂ : Kernel}

/-- The parts of the kernel that decide what is on screen. -/
structure SameProcesses (k k' : Kernel) : Prop where
  pcb : k'.pcb = k.pcb
  cpu : k'.cpu = k.cpu
  ids : k'.processIds = k.processIds

theorem SameProcesses.trans (h₁ : SameProcesses k k₁) (h₂ : SameProcesses k₁ k₂) : SameProcesses k k₂ :=
  ⟨h₂.pcb.trans h₁.pcb, h₂.cpu.trans h₁.cpu, h₂.ids.trans h₁.ids⟩

theorem SameProcesses.onscreenNum (h : SameProcesses k k₁) :
    k₁.findOnscreenTerminalNum = k.findOnscreenTerminalNum := by
  unfold Kernel.findOnscreenTerminalNum
  rw [h.pcb, h.ids]

theorem SameProcesses.terminalNow (h : SameProcesses k k₁) : k₁.terminalNow = k.terminalNow := by
  unfold Kernel.terminalNow
  rw [h.pcb, h.cpu]

theorem same_moved (k : Kernel) (page a b : ℕ) :
    SameProcesses k ((k.setVideo page).switchCursor a b).updateCursor := ⟨rfl, rfl, rfl⟩

theorem same_setAttrib (k : Kernel) (a : UInt8) : SameProcesses k (k.setAttrib a) := ⟨rfl, rfl, rfl⟩

theorem same_lent (k : Kernel) (t : ℕ) : SameProcesses k (k.lent t) := by
  unfold Kernel.lent Kernel.borrowScreen
  split
  · exact (same_setAttrib k _).trans (same_moved _ _ _ _)
  · exact same_setAttrib k _

theorem Echoed.sameProcesses (h : Echoed k k₁) : SameProcesses k k₁ := by
  rw [h.same]
  exact ⟨rfl, rfl, rfl⟩

theorem same_returnScreen (k : Kernel) (page : ℕ) (info : TerminalInfo) (t : ℕ) :
    SameProcesses k (k.returnScreen page info t) := by
  unfold Kernel.returnScreen
  split
  · exact same_moved _ _ _ _
  · exact ⟨rfl, rfl, rfl⟩

end Same
/-! ## The handler -/

section Handler
variable {img : Image} {fs : Filesystem} {k : Kernel} {e : Entry} {t temp : ℕ}

theorem keys_lent (k : Kernel) (t : ℕ) : (k.lent t).keys = k.keys := by
  unfold Kernel.lent
  exact congrArg Input.keys (input_borrowScreen (k.setAttrib (color t)) k.terminalNow t)

theorem keyboard_lent (k : Kernel) (t : ℕ) : (k.lent t).keyboard = k.keyboard := by
  unfold Kernel.lent
  exact congrArg Input.keyboard (input_borrowScreen (k.setAttrib (color t)) k.terminalNow t)

theorem handleScanCode_quiet (hreq : k.requests temp = none) :
    handleScanCode img fs k e t temp = .ret 0 (k.typeCode t temp) := by
  unfold handleScanCode Kernel.typeCode
  unfold Kernel.requests at hreq
  by_cases hh : k.keys.handled temp = true
  · rw [if_pos hh] at hreq
    rw [if_pos hh, if_pos hh]
    unfold combination
    simp only [hreq]
  · rw [if_neg hh, if_neg hh]

/-- **A keystroke that asks for no terminal.** -/
theorem handleKeyboard_quiet (hon : k.findOnscreenTerminalNum = some t) (hreq : k.requests temp = none) :
    handleKeyboard img fs k e temp = .ret 0 (((k.lent t).typeCode t temp).returnScreen k.oldPage k.terminalNow t) := by
  have hreq' : (k.lent t).requests temp = none := by
    unfold Kernel.requests at hreq ⊢
    rw [keys_lent]
    exact hreq
  have hs := @handleScanCode_quiet img fs (k.lent t) e t temp hreq'
  have hsame := (same_lent k t).trans (echoed_typeCode (k.lent t) t temp).sameProcesses
  have hinfo := hsame.terminalNow
  generalize (k.lent t).typeCode t temp = k₁ at hs hsame hinfo ⊢
  have hnow : (k₁.pcb (getPcb (k.setAttrib (color t)).cpu.esp)).terminalInfo = k.terminalNow := by
    rw [← hinfo]
    unfold Kernel.terminalNow
    rw [hsame.cpu]
    rfl
  unfold handleKeyboard
  rw [hon]
  unfold Kernel.lent Kernel.terminalNow at hs
  simp only [Option.getD_some]
  have hcode : handleScanCode img fs ((k.setAttrib (color t)).borrowScreen
      ((k.setAttrib (color t)).pcb (getPcb (k.setAttrib (color t)).cpu.esp)).terminalInfo t) e t temp = .ret 0 k₁ := hs
  rw [hcode]
  show Outcome.ret 0 (k₁.returnScreen k.oldPage (k₁.pcb (getPcb (k.setAttrib (color t)).cpu.esp)).terminalInfo t) = _
  rw [hnow]

end Handler
end Kernel391
