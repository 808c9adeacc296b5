import Kernel391.Filesystem.Dentry
import Kernel391.Console.Screen
import Kernel391.Machine.Switching
import Kernel391.Process.ProcessTable

/-! `switch_terminal`: show a terminal that has an active process, or start a shell on
one that has none. The second path repeats `execute` by hand. -/
namespace Kernel391
open Kernel391.Foundations
set_option autoImplicit false

def shell : List UInt8 := ascii "shell".toList

namespace Kernel
variable (k : Kernel)

/-- `update_kernel_vmem` and `update_vidmap_vmem`, always called as a pair. -/
def setVideo (page : ℕ) : Kernel := (k.updateKernelVmem page video).updateVidmapVmem page userPage

def videoPage (t : TerminalInfo) : ℕ := if t.isOnscreen ≠ 0 then video else t.fakePageAddr

/-- Save the displayed page and load the requested one, unless they are the same terminal's. -/
def showTerminal (onscreen requested : ℕ) : Except Kernel Kernel :=
  let onscreenTerminal := (k.pcb onscreen).terminalInfo
  let requestedTerminal := (k.pcb requested).terminalInfo
  let r :=
    if onscreenTerminal.terminalNum ≠ requestedTerminal.terminalNum then
      k.switchKernelMemory onscreenTerminal.fakePageAddr requestedTerminal.fakePageAddr
    else .ok k
  match r with
  | .error k => .error k
  | .ok k =>
    .ok ((k.setTerminal onscreen fun t => { t with isOnscreen := 0 }).setTerminal requested
      fun t => { t with isOnscreen := 1 })

/-- The PCB of the root shell of a new terminal. -/
def newTerminal (requestedTerminalNum : ℕ) : TerminalInfo where
  isOnscreen := 1
  terminalNum := requestedTerminalNum
  userPageAddr := 0
  fakePageAddr := video + eightKb * (requestedTerminalNum + 1) / 2

end Kernel

open Kernel

/-- The path of `switch_terminal` that starts a shell. Nothing is mapped at address 0, so the write
to the parent's terminal faults when the parent is NULL. -/
def createTerminal (img : Image) (fs : Filesystem) (k : Kernel) (e : Entry) (onscreen requested : ℕ) :
    Outcome :=
  match checkExecutable img fs e.magicNumbers shell with
  | none => .fault k
  | some startOfProg =>
    if startOfProg < 0 then .ret (-1) k
    else
      match k.getProcessId with
      | none => .ret (-1) k
      | some (availProcess, k) =>
        let k := k.setAttrib (color requested)
        let k := k.setPagerDirEntry (eightMb + fourMb * availProcess)
        match openExecutable img fs k e.eip startOfProg with
        | .error k => .fault k
        | .ok (_, eip, k) =>
          let self := getPcbPtr availProcess
          let parent := k.getParentPcb availProcess
          if parent = 0 then .fault k
          else
            let k := k.setTerminal parent fun t => { t with isOnscreen := 0 }
            let k := k.setTerminal self fun _ => newTerminal requested
            let k := k.setPcb self fun p => setupPcb availProcess parent { p with isActive := 1 }
            match k.showTerminal onscreen self with
            | .error k => .fault k
            | .ok k =>
              let k := k.setTss (eightMb - eightKb * availProcess - 4)
              let k := (k.saveRegs self e.regs).setFrame e.regs.ebp .switchTerminal
              let k := k.clearScreen
              .gone (k.setupExecStack (wordAt eip 0) self e.frame .switchTerminal e.eax)

/-- `switch_terminal`. -/
def switchTerminal (img : Image) (fs : Filesystem) (k : Kernel) (e : Entry)
    (requestedTerminalNum : ℕ) : Outcome :=
  let onscreen := getPcbPtr (k.findOnscreenTerminalPid.getD 255)
  match k.findTerminalPid requestedTerminalNum with
  | none => createTerminal img fs k e onscreen requestedTerminalNum
  | some requestedPid =>
    let k := k.setAttrib (color requestedTerminalNum)
    let requested := getPcbPtr requestedPid
    let sameTerminal :=
      (k.pcb onscreen).terminalInfo.terminalNum = (k.pcb requested).terminalInfo.terminalNum
    match k.showTerminal onscreen requested with
    | .error k => .fault k
    | .ok k =>
      if sameTerminal then .ret 1 k
      else .ret 1 (k.setVideo (videoPage (k.pcb (getPcb k.cpu.esp)).terminalInfo))

end Kernel391
