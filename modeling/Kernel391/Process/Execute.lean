import Kernel391.Devices.Terminal
import Kernel391.Process.ParseArguments

/-! The system calls `execute` and `halt`, and `exception_handler`, which halts the
process with status 255. -/
namespace Kernel391
open Kernel391.Foundations
set_option autoImplicit false

namespace Kernel
variable (k : Kernel)

/-- `timer_set`. In the second data byte the shift binds tighter than the mask. -/
def timerSet (freq : ℕ) : Kernel :=
  let rate := 1193180 / freq
  ((k.outb 0x36 0x43).outb (rate &&& 0xFF) 0x40).outb (rate &&& (0xFF00 >>> 8)) 0x40

def initPit : Kernel := k.timerSet 20

/-- The child takes its parent's terminal, its place on screen and its active tag. -/
def inheritTerminal (self parent : ℕ) : Kernel :=
  let t := (k.pcb parent).terminalInfo
  let k := k.setTerminal self fun _ => t
  let k := k.setTerminal parent fun t => { t with isOnscreen := 0 }
  let k := k.setPcb self fun p => { p with isActive := (k.pcb parent).isActive }
  k.setPcb parent fun p => { p with isActive := 0 }

/-- The branch of the first terminal. -/
def firstTerminal (self : ℕ) : Kernel :=
  let k := k.initPit
  let k := k.setTerminal self fun t =>
    { t with isOnscreen := 1, terminalNum := 0, fakePageAddr := video + eightKb / 2 }
  k.setPcb self fun p => { p with isActive := 1 }

def freeProcess (pid : ℕ) : Kernel := { k with processIds := Function.update k.processIds pid 0 }

end Kernel

/-! ## The room on the kernel stack -/

/-- A `pcb_t`. -/
def pcbBytes : ℕ := 328

/-- An `inode_t`, which fills a block. -/
def inodeBytes : ℕ := bytesPerBlock

/-- What the functions called by a handler or a system call take of the stack at most, apart from the
copy of an inode. -/
def calleeBytes : ℕ := 1024

namespace Kernel
variable (k : Kernel)

/-- Below the frame there is room for the inode that `read_data` copies. -/
def roomToLoad (e : Entry) : Bool := k.current + pcbBytes + calleeBytes + inodeBytes ≤ e.regs.esp

/-- `execute` has room for `copy_cmd`, `parsed_executable` and `parsed_arguments` in its frame, and below
it for the loading. A longer command would run over the PCB of its caller. -/
def roomFor (e : Entry) (command : List UInt8) : Bool :=
  e.regs.esp + (strlen command + 1 + 33 + 128) ≤ e.regs.ebp ∧ k.roomToLoad e

end Kernel

/-- What `execute` makes of its command on a given stack. -/
def parsedCommand (e : Entry) (command : List UInt8) : ParsedCommand :=
  parseArguments (strlen command) (copyCmd command e.tail) e.executableBuf e.argumentBuf

/-- The name it looks up: the string in `parsed_executable`. -/
def executableName (e : Entry) (command : List UInt8) : List UInt8 :=
  window (parsedCommand e command).executableBuf 33 0

/-- `execute`, called by the code `caller`. -/
def execute (img : Image) (fs : Filesystem) (k : Kernel) (e : Entry) (caller : Cpu)
    (command : List UInt8) : Outcome :=
  match checkExecutable img fs e.magicNumbers (executableName e command) with
  | none => .fault k
  | some startOfProg =>
    if startOfProg < 0 then .ret (-1) k
    else
      match k.getProcessId with
      | none => .ret (-1) k
      | some (availProcess, k) =>
        let k := k.setPagerDirEntry (eightMb + fourMb * availProcess)
        match openExecutable img fs k e.eip startOfProg with
        | .error k => .fault k
        | .ok (_, eip, k) =>
          let self := getPcbPtr availProcess
          let parent := k.getParentPcb availProcess
          let k := if parent ≠ 0 then k.inheritTerminal self parent else k.firstTerminal self
          let k := k.setPcb self (setupPcb availProcess parent)
          let k := (k.saveRegs self e.regs).setFrame e.regs.ebp (.execute caller)
          let parsed := parsedCommand e command
          let k := k.setPcb self fun p =>
            { p with args := strncpy p.args parsed.argumentBuf parsed.argCount 0 }
          let k := k.setTss (eightMb - eightKb * availProcess - 4)
          .gone (k.setupExecStack (wordAt eip 0) self e.frame (.setupExecStack caller) e.eax)

/-- After the nested `execute`, which comes back only when it fails. -/
def Outcome.reexecuted : Outcome → Outcome
  | .ret _ k => .ret (-1) k
  | o => o

/-- After `switch_terminal(0)`: the slot is freed and the processor spins on its stack. -/
def Outcome.thenSpin (self : ℕ) : Outcome → Outcome
  | .ret _ k => .gone { k.freeProcess (k.pcb self).processId with cpu := { k.cpu with mode := .spin } }
  | o => o

/-- The parent becomes active, takes the screen flag, its program page and its kernel stack. -/
def Kernel.handBack (k : Kernel) (self parent : ℕ) : Kernel :=
  let k := k.setPcb parent fun p => { p with isActive := 1 }
  let onscreen := (k.pcb self).terminalInfo.isOnscreen
  let k := k.setTerminal parent fun t => { t with isOnscreen := onscreen }
  let k := k.setTerminal self fun t => { t with isOnscreen := 0 }
  let k := k.freeProcess (k.pcb self).processId
  let availProcess := (k.pcb parent).processId % 256
  let k := k.setPagerDirEntry (eightMb + fourMb * availProcess)
  k.setTss (k.pcb parent).esp0

/-- `halt`: the root process is executed again; the root shell of another terminal shows terminal 0
and spins; any other process hands its terminal back to its parent. -/
def halt (img : Image) (fs : Filesystem) (k : Kernel) (e : Entry) (caller : Cpu) (status : ℕ) : Outcome :=
  let self := getPcb k.cpu.esp
  let parent := (k.pcb self).parent
  if parent = 0 then
    (execute img fs (k.freeProcess (k.pcb self).processId) e caller shell).reexecuted
  else
    let k := k.setPcb self fun p => { p with isActive := 0 }
    if (k.pcb parent).terminalInfo.terminalNum ≠ (k.pcb self).terminalInfo.terminalNum then
      (switchTerminal img fs k e 0).thenSpin self
    else
      let k := k.handBack self parent
      .gone (k.haltProcess status (k.pcb self).haltEbp)

/-! ## Exceptions -/

/-- The names of the vectors that have an entry in the interrupt table. -/
def interruptMsgMapper : List String :=
  ["Divide Error", "reserved_2", "nmi_interrupt", "breakpoint", "overflow", "bound_range_exceeded",
    "invalid_opcode", "device_not_available", "double_fault", "coprocessor_segment_overrun",
    "invalid_tss", "segment_not_present", "stack_segment_fault", "general_protection", "page_fault",
    "reserved_15", "x87_fpu_floating_point_error", "alignment_check", "machine_check",
    "SIM_floating_point_exception"]

def exceptionReceived : String := "exception received... ~\\(0.0)/~ ... oops\n"

/-- `exception_handler` for the vectors below 20, the only ones with an entry. -/
def exceptionHandler (img : Image) (fs : Filesystem) (k : Kernel) (e : Entry) (caller : Cpu)
    (vector : ℕ) : Outcome :=
  let k := k.printf (ascii exceptionReceived.toList)
  let k := k.printf (ascii "exception: ".toList)
  let k := k.printf (ascii ((interruptMsgMapper.getD vector "").toList ++ ['\n']))
  halt img fs k e caller 255

end Kernel391
