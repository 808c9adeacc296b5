import Kernel391.Console.Console
import Kernel391.Machine.Paging

/-! The console of the kernel: the text page is whatever physical page the kernel's
video mapping designates, and a console function runs on it. -/
namespace Kernel391
open Kernel391.Foundations
set_option autoImplicit false

namespace Kernel
variable (k : Kernel)

/-- The console as the process on the current stack sees it. -/
def console : Console where
  videoMem := fun o => k.phys (k.frameOf video + o)
  screenX := k.screenX
  screenY := k.screenY
  attrib := k.attrib
  isOnscreen := (k.pcb (getPcb k.cpu.esp)).terminalInfo.isOnscreen ≠ 0
  ports := k.ports

/-- Run a console function on the mapped page. -/
def withConsole (f : Console → Console) : Kernel :=
  let s := f k.console
  { k with
    phys := fun a =>
      if k.frameOf video ≤ a ∧ a < k.frameOf video + fourKb then s.videoMem (a - k.frameOf video)
      else k.phys a
    screenX := s.screenX
    screenY := s.screenY
    ports := s.ports }

def updateCursor : Kernel := k.withConsole Console.updateCursor
def clearScreen : Kernel := k.withConsole Console.clearScreen
def putc (c : UInt8) : Kernel := k.withConsole fun s => s.putc c
def puts (cs : List UInt8) : Kernel := k.withConsole fun s => s.puts cs
def printf (cs : List UInt8) : Kernel := k.withConsole fun s => s.printf cs
def delc : Kernel := k.withConsole Console.delc

/-- `switch_cursor`: the live cursor goes to one terminal's slot and the other's becomes live. -/
def switchCursor (currTerminal tarTerminal : ℕ) : Kernel :=
  let cursor := Function.update k.cursor currTerminal ⟨k.screenX, k.screenY⟩
  { k with cursor := cursor, screenX := (cursor tarTerminal).screenX, screenY := (cursor tarTerminal).screenY }

end Kernel

/-- The text colour of each terminal. Past the table of three the C code reads a byte that is not
its own; it does so only when no process is on screen, and the byte is taken as zero here. -/
def color : ℕ → UInt8
  | 0 => 0x07
  | 1 => 0x20
  | 2 => 0x30
  | _ => 0

end Kernel391
