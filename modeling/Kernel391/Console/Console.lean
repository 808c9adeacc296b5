import Mathlib.Logic.Function.Basic
import Kernel391.Foundations.Loops
import Kernel391.Machine.State

/-! The console functions of `lib.c` on one text page: the 25 × 80 cells behind
`video_mem`, the cursor, the attribute in force, whether the running process is on
screen, and the port writes made. -/
namespace Kernel391
open Kernel391.Foundations
set_option autoImplicit false

structure Console where
  videoMem : ℕ → UInt8
  screenX : ℕ
  screenY : ℕ
  attrib : UInt8
  isOnscreen : Bool
  ports : List (ℕ × ℕ)

namespace Console
variable (s : Console)

/-- The two stores every character goes through. -/
def setCell (cell : ℕ) (c : UInt8) : Console :=
  { s with videoMem := Function.update (Function.update s.videoMem (2 * cell) c) (2 * cell + 1) s.attrib }

def outb (data port : ℕ) : Console := { s with ports := (port, data) :: s.ports }

/-- The four port writes of a cursor update. -/
def cursorPorts (pos : ℕ) : Console :=
  (((s.outb 0x0F 0x3D4).outb (pos % 256) 0x3D5).outb 0x0E 0x3D4).outb (pos / 256 % 256) 0x3D5

def updateCursor : Console := s.cursorPorts ((s.screenY * numCols + s.screenX) % 2 ^ 16)

def updateCursorPos (x y : ℕ) : Console :=
  if x ≥ numCols ∨ y ≥ numRows then s else s.cursorPorts ((y * numCols + x) % 2 ^ 16)

def screenSetXy (x y : ℕ) : Console :=
  if x ≥ numCols then s else if y ≥ numRows then s else { s with screenX := x, screenY := y }

/-- `if (get_pcb()->terminal_info.is_onscreen) update_cursor();` -/
def updateCursorOnscreen : Console := if s.isOnscreen then s.updateCursor else s

def clear : Console := forLoop (fun i s => s.setCell i 0x20) (numRows * numCols) s

def clearScreen : Console := (s.clear.screenSetXy 0 0).updateCursorPos 0 0

/-- Every row takes the characters of the next one and the attribute in force; the last is blanked. -/
def vidScrollUp : Console :=
  let s := forLoop (fun i s =>
      forLoop (fun j s => s.setCell (numCols * j + i) (s.videoMem (2 * (numCols * (j + 1) + i))))
        (numRows - 1) s)
    numCols s
  let s := forLoop (fun i s => s.setCell (numCols * (numRows - 1) + i) 0x20) numCols s
  s.updateCursorOnscreen

def putc (c : UInt8) : Console :=
  let s :=
    if c = 0x0A ∨ c = 0x0D then { s with screenY := s.screenY + 1, screenX := 0 }
    else
      let s := s.setCell (numCols * s.screenY + s.screenX) c
      { s with screenY := s.screenY + (s.screenX + 1) / numCols, screenX := (s.screenX + 1) % numCols }
  let s := if s.screenY = numRows then { s.vidScrollUp with screenY := numRows - 1, screenX := 0 } else s
  s.updateCursorOnscreen

def puts (cs : List UInt8) : Console := cs.foldl putc s

/-- `printf` of a text without conversions. -/
def printf (cs : List UInt8) : Console := (s.puts cs).updateCursor

def delc : Console :=
  let s :=
    if s.screenX > 0 then
      let s := ({ s with screenX := s.screenX - 1 } : Console).putc 0x20
      { s with screenX := s.screenX - 1 }
    else if s.screenY > 0 then
      let s := ({ s with screenX := numCols - 1, screenY := s.screenY - 1 } : Console).putc 0x20
      { s with screenX := numCols - 1, screenY := s.screenY - 1 }
    else s
  s.updateCursorOnscreen

/-- The characters `terminal_write` prints: NUL bytes are skipped. -/
def terminalWrite (cs : List UInt8) : Console := s.puts (cs.filter (· ≠ 0))

end Console
end Kernel391
