import Kernel391.Console.CursorPath
import Kernel391.Machine.PagingMeaning

/-! The screen of one terminal, wherever its bytes lie: the text and the cursor, and what a
console function makes of them. Nothing else of a console enters into it. -/
namespace Kernel391
open Kernel391.Foundations
set_option autoImplicit false

@[ext] structure LogicalScreen where
  text : Fin screenBytes → UInt8
  cursor : CursorPos

/-- The bytes of the screen and the cursor. -/
def Console.logical (s : Console) : LogicalScreen := ⟨fun o => s.videoMem o, s.cursorPos⟩

namespace LogicalScreen
variable (s : LogicalScreen)

/-- A console with the screen at the start of its page. -/
def console (attrib : UInt8) : Console where
  videoMem o := if h : o < screenBytes then s.text ⟨o, h⟩ else 0
  screenX := s.cursor.screenX
  screenY := s.cursor.screenY
  attrib := attrib
  isOnscreen := false
  ports := []

/-- The screen after a console function in colour `attrib`. -/
def draw (attrib : UInt8) (f : Console → Console) : LogicalScreen := (f (s.console attrib)).logical

end LogicalScreen

namespace Console
variable {f g : Console → Console}

/-- A function that sees and moves nothing but the screen of its console. -/
def Draws (f : Console → Console) : Prop :=
  ∀ s s' : Console, s.SameBytes screenBytes s' → (f s).SameBytes screenBytes (f s')

theorem logical_eq {s s' : Console} (h : s.SameBytes screenBytes s') : s'.logical = s.logical := by
  unfold logical cursorPos
  rw [h.screenX, h.screenY]
  exact congrArg (fun t => LogicalScreen.mk t _) (funext fun o => h.bytes o o.isLt)

/-- **What a function draws** depends on the screen and the colour alone. -/
theorem Draws.logical (hf : Draws f) (s : Console) : (f s).logical = s.logical.draw s.attrib f := by
  refine logical_eq (hf (s.logical.console s.attrib) s ⟨fun o ho => ?_, rfl, rfl, rfl⟩)
  show s.videoMem o = if h : o < screenBytes then s.videoMem o else 0
  rw [dif_pos ho]

theorem draws_id : Draws fun s => s := fun _ _ h => h

theorem draws_putc (c : UInt8) : Draws fun s => s.putc c := fun _ _ h => h.putc (le_refl _) c

theorem draws_puts (cs : List UInt8) : Draws fun s => s.puts cs := fun _ _ h => h.puts (le_refl _) cs

theorem draws_printf (cs : List UInt8) : Draws fun s => s.printf cs := fun _ _ h => h.printf (le_refl _) cs

theorem draws_delc : Draws delc := fun _ _ h => h.delc (le_refl _)

theorem draws_clearScreen : Draws clearScreen := fun _ _ h => h.clearScreen

end Console

namespace LogicalScreen
variable (s : LogicalScreen) (attrib : UInt8)

theorem cursor_putc (c : UInt8) : (s.draw attrib fun t => t.putc c).cursor = s.cursor.putc c :=
  (s.console attrib).cursorPos_putc c

theorem cursor_printf (cs : List UInt8) : (s.draw attrib fun t => t.printf cs).cursor = s.cursor.puts cs :=
  (s.console attrib).cursorPos_puts cs

end LogicalScreen

/-! ## The kernel's own -/

namespace Kernel
variable (k : Kernel)

/-- The screen behind the mapping of video memory, with the live cursor. -/
def logical : LogicalScreen := k.console.logical

/-- **A console function** runs on the screen behind the mapping. -/
theorem logical_withConsole {f : Console → Console} (hf : Console.Draws f) :
    (k.withConsole f).logical = k.logical.draw k.attrib f := by
  have hdrawn : (f k.console).logical = k.logical.draw k.attrib f := hf.logical k.console
  rw [← hdrawn]
  refine congrArg (fun t => LogicalScreen.mk t _) (funext fun o => ?_)
  have hlt : (o : ℕ) < fourKb := Nat.lt_of_lt_of_le o.isLt (by decide)
  show (if k.frameOf video ≤ k.frameOf video + o ∧ k.frameOf video + o < k.frameOf video + fourKb then
    (f k.console).videoMem (k.frameOf video + o - k.frameOf video) else _) = _
  rw [if_pos ⟨Nat.le_add_right _ _, Nat.add_lt_add_left hlt _⟩, Nat.add_sub_cancel_left]

end Kernel
end Kernel391
