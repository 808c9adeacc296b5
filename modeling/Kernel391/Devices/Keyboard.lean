import Kernel391.Devices.Terminal

/-! `handle_keyboard`: modifier keys and typematic repeat, decoding, terminal switches
and the line buffer of the terminal on screen. -/
namespace Kernel391
open Kernel391.Foundations
set_option autoImplicit false

def esc : UInt8 := 0xFF
def holdingInit : ℕ := 3
def doubleCode : ℕ := 0xE0

/-! ## Scan codes -/

def scanCodeSet1Norm : List UInt8 :=
  [0x00, esc] ++ ascii "1234567890-=".toList ++ [0x08, 0x09] ++ ascii "qwertyuiop[]".toList ++
    [0x0A, 0x00] ++ ascii "asdfghjkl;".toList ++ [39, 0x60, 0x00, 92] ++ ascii "zxcvbnm,./".toList ++
    [0x00, 0x00, 0x00, 0x20, 0x00, 0x00, 0x00, 0x00]

def scanCodeSet1Cap : List UInt8 :=
  [0x00, esc] ++ ascii "1234567890-=".toList ++ [0x08, 0x09] ++ ascii "QWERTYUIOP[]".toList ++
    [0x0A, 0x00] ++ ascii "ASDFGHJKL;".toList ++ [39, 0x60, 0x00, 92] ++ ascii "ZXCVBNM,./".toList ++
    [0x00, 0x00, 0x00, 0x20, 0x00, 0x00, 0x00, 0x00]

def scanCodeSet1Shift : List UInt8 :=
  [0x00, esc] ++ ascii "!@#$%^&*()_+".toList ++ [0x08, 0x09] ++
    ascii "QWERTYUIOP".toList ++ [0x7B, 0x7D] ++ [0x0A, 0x00] ++ ascii "ASDFGHJKL:".toList ++
    [0x22, 0x7E, 0x00, 0x7C] ++ ascii "ZXCVBNM<>?".toList ++
    [0x00, 0x00, 0x00, 0x20, 0x00, 0x00, 0x00, 0x00]

def scanCodeSet1ShiftCap : List UInt8 :=
  [0x00, esc] ++ ascii "!@#$%^&*()_+".toList ++ [0x08, 0x09] ++
    ascii "qwertyuiop".toList ++ [0x7B, 0x7D] ++ [0x0A, 0x00] ++ ascii "asdfghjkl:".toList ++
    [0x22, 0x7E, 0x00, 0x7C] ++ ascii "zxcvbnm<>?".toList ++
    [0x00, 0x00, 0x00, 0x20, 0x00, 0x00, 0x00, 0x00]

namespace KeyState
variable (s : KeyState)

/-- The two `switch` statements over function keys; the first runs after the code 0xE0. -/
def functionKey (temp : ℕ) : KeyState :=
  if s.oldData = doubleCode then
    match temp with
    | 0xB8 => { s with alt := 0 }
    | 0x9D => { s with ctrl := 0 }
    | 0x38 => { s with alt := 1 }
    | 0x1D => { s with ctrl := 1 }
    | _ => s
  else
    match temp with
    | 0xAA => { s with shift := 0 }
    | 0xB6 => { s with shift := 0 }
    | 0xB8 => { s with alt := 0 }
    | 0x9D => { s with ctrl := 0 }
    | 0x2A => { s with shift := 1 }
    | 0x36 => { s with shift := 1 }
    | 0x38 => { s with alt := 1 }
    | 0x1D => { s with ctrl := 1 }
    | 0x3A => { s with capslock := s.capslock ^^^ 1 }
    | _ => s

/-- The code is handled unless it repeats the last one while the holding count runs. -/
def handled (temp : ℕ) : Bool := temp ≠ s.oldData ∨ s.holdingCount = 0

def press (temp : ℕ) : KeyState :=
  if temp ≠ s.oldData then ({ s with holdingCount := holdingInit } : KeyState).functionKey temp else s

/-- `current_char` after decoding; Ctrl and Alt combinations print nothing. -/
def currentChar (temp : ℕ) : UInt8 :=
  if temp < 62 then
    if s.ctrl = 1 then 0
    else if s.alt = 1 then 0
    else if s.capslock = 1 ∧ s.shift = 1 then scanCodeSet1ShiftCap.getD temp 0
    else if s.capslock = 1 then scanCodeSet1Cap.getD temp 0
    else if s.shift = 1 then scanCodeSet1Shift.getD temp 0
    else scanCodeSet1Norm.getD temp 0
  else 0

/-- The terminal an Alt combination asks for. -/
def requestedTerminal (temp : ℕ) : Option ℕ :=
  if temp < 62 ∧ s.ctrl ≠ 1 ∧ s.alt = 1 ∧ 59 ≤ temp then some (temp - 59) else none

end KeyState

namespace Kernel
variable (k : Kernel)

def setKeyboard (terminal : ℕ) (f : KeyboardStruct → KeyboardStruct) : Kernel :=
  { k with keyboard := Function.update k.keyboard terminal (f (k.keyboard terminal)) }

def setOldData (temp : ℕ) : Kernel := { k with keys := { k.keys with oldData := temp } }

end Kernel

/-- `buffer[top] = c; top++`. -/
def KeyboardStruct.push (kb : KeyboardStruct) (c : UInt8) : KeyboardStruct :=
  { kb with buffer := Function.update kb.buffer kb.top c, top := kb.top + 1 }

/-- The buffer update for a decoded character, with its echo. -/
def Kernel.acceptChar (k : Kernel) (currTerminal : ℕ) (c : UInt8) : Kernel :=
  let kb := k.keyboard currTerminal
  let k :=
    if c ≠ 0 ∧ kb.enterLock = 0 then
      if c = esc then k
      else if c = 0x08 ∧ kb.top > 0 then
        k.delc.setKeyboard currTerminal fun kb => { kb with top := kb.top - 1 }
      else if c = 0x09 ∧ kb.top < 124 then
        (k.puts (ascii "    ".toList)).setKeyboard currTerminal fun kb =>
          (((kb.push 0x20).push 0x20).push 0x20).push 0x20
      else if c ≠ 0x08 ∧ kb.top < 128 ∧ c ≠ 0x09 then
        if kb.top = 127 then
          if c = 0x0A then (k.putc c).setKeyboard currTerminal fun kb => kb.push c else k
        else (k.putc c).setKeyboard currTerminal fun kb => kb.push c
      else k
    else k
  if c = 0x0A then k.setKeyboard currTerminal fun kb => { kb with enterLock := 1 } else k

def cannotOpen (terminal : ℕ) : List UInt8 :=
  ascii ("can not open ternimal ".toList ++ (["1", "2", "3"].getD terminal "").toList ++ ['\n'])

/-- The effect of a Ctrl or Alt combination. -/
def combination (img : Image) (fs : Filesystem) (k : Kernel) (e : Entry) (temp : ℕ) : Outcome :=
  match k.keys.requestedTerminal temp with
  | some t =>
    match switchTerminal img fs k e t with
    | .ret r k => .ret 0 (if r < 0 then k.printf (cannotOpen t) else k)
    | o => o
  | none => .ret 0 (if temp < 62 ∧ k.keys.ctrl = 1 ∧ temp = 0x26 then k.clearScreen else k)

/-- The part of the handler between the two changes of the video mapping. -/
def handleScanCode (img : Image) (fs : Filesystem) (k : Kernel) (e : Entry) (currTerminal temp : ℕ) :
    Outcome :=
  if k.keys.handled temp then
    let k := { k with keys := k.keys.press temp }
    match combination img fs k e temp with
    | .ret _ k => .ret 0 ((k.acceptChar currTerminal (k.keys.currentChar temp)).setOldData temp)
    | o => o
  else .ret 0 { k with keys := { k.keys with holdingCount := k.keys.holdingCount - 1, oldData := temp } }

/-- Before the scan code is read: a process that is off screen lends its video mapping and its cursor
to the terminal on screen. -/
def Kernel.borrowScreen (k : Kernel) (t : TerminalInfo) (currTerminal : ℕ) : Kernel :=
  if t.isOnscreen = 0 then ((k.setVideo video).switchCursor t.terminalNum currTerminal).updateCursor else k

/-- Right before return: they are given back, to the process's own page whatever is on screen now. -/
def Kernel.returnScreen (k : Kernel) (oldPage : ℕ) (t : TerminalInfo) (currTerminal : ℕ) : Kernel :=
  if oldPage ≠ 0 then
    ((k.setVideo t.fakePageAddr).switchCursor currTerminal t.terminalNum).updateCursor
  else k

/-- `handle_keyboard` with `temp` read from the data port. -/
def handleKeyboard (img : Image) (fs : Filesystem) (k : Kernel) (e : Entry) (temp : ℕ) : Outcome :=
  let onscreenNum := k.findOnscreenTerminalNum
  let k := k.setAttrib (color (onscreenNum.getD 255))
  match onscreenNum with
  | none => .ret 0 k
  | some currTerminal =>
    let currentPcb := getPcb k.cpu.esp
    let t := (k.pcb currentPcb).terminalInfo
    let oldPage := if t.isOnscreen = 0 then t.fakePageAddr else 0
    match handleScanCode img fs (k.borrowScreen t currTerminal) e currTerminal temp with
    | .ret _ k => .ret 0 (k.returnScreen oldPage (k.pcb currentPcb).terminalInfo currTerminal)
    | o => o

end Kernel391
