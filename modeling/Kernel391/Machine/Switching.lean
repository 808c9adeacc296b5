import Kernel391.Machine.State

/-! The assembly helpers that move the processor between stacks: `save_regs` and
`do_schedule` of `pit_helper.S`, `setup_exec_stack` and `halt_process` of
`syscall_helper.S`. They are read at the level of frames: which frame `leave; ret`
goes through, and where that leads. -/
namespace Kernel391
set_option autoImplicit false

/-- What an entry into the kernel finds on the stack: the frame addresses of the functions it goes
through, and the contents of the locals that are read before they are written. -/
structure Entry where
  /-- EBP of the interrupt handler. -/
  handler : ℕ
  /-- EBP and ESP as `save_regs` finds them. -/
  regs : Regs
  /-- EBP of `setup_exec_stack`. -/
  frame : ℕ
  tail : ℕ → UInt8
  executableBuf : ℕ → UInt8
  argumentBuf : ℕ → UInt8
  magicNumbers : ℕ → UInt8
  eip : ℕ → UInt8
  /-- What EAX is left with where the code does not set it. -/
  eax : ℕ

/-- An entry whose frames lie below the address `top`, the one of `save_regs` by `nested` deeper than
the handler's. -/
def Entry.below (top nested : ℕ) : Entry where
  handler := top - 64
  regs := ⟨top - 64 - nested, top - 512⟩
  frame := top - 512
  tail _ := 0
  executableBuf _ := 0
  argumentBuf _ := 0
  magicNumbers _ := 0
  eip _ := 0
  eax := 0

/-- How a kernel function ends: it returns, control has left its stack, or it touched a page that is
not present. -/
inductive Outcome
  | ret (eax : ℤ) (k : Kernel)
  | gone (k : Kernel)
  | fault (k : Kernel)

/-- `movsx` of a byte to 32 bits. -/
def signExtend (status : ℕ) : ℕ := if status < 128 then status else status + 2 ^ 32 - 256

def programStack : ℕ := 0x083ffffc

namespace Kernel
variable (k : Kernel)

def saveRegs (pcb : ℕ) (r : Regs) : Kernel :=
  k.setPcb pcb fun p => { p with scheduleEbp := r.ebp, scheduleEsp := r.esp }

def setTss (esp0 : ℕ) : Kernel := { k with tss := ⟨esp0, kernelDs⟩ }

/-- Control goes through a frame that does not lead back to the process it is meant for. -/
def goWild (eax : ℕ) : Kernel := { k with cpu := { k.cpu with mode := .wild, eax := eax } }

/-- `setup_exec_stack`: EBP goes to `halt_ebp`, then `iret` to the program's entry point. -/
def setupExecStack (eip pcb frame : ℕ) (f : Frame) (eax : ℕ) : Kernel :=
  { (k.setPcb pcb fun p => { p with haltEbp := frame }).setFrame frame f with
    cpu := ⟨.user, eip, programStack, eax⟩ }

/-- `halt_process`: the sign-extended status in EAX, then `leave; ret` through the frame at
`halt_ebp`. When that is `setup_exec_stack` called from `execute`, the `return 0` there sets EAX
again before the system call returns. -/
def haltProcess (status haltEbp : ℕ) : Kernel :=
  match k.frames haltEbp with
  | .setupExecStack caller => { k with cpu := { caller with eax := 0 } }
  | _ => k.goWild (signExtend status)

/-- `do_schedule`: `leave; ret` through the frame at `ebp`. -/
def doSchedule (next ebp eax : ℕ) : Kernel :=
  match k.frames ebp with
  | .interrupt interrupted =>
    if getPcb ebp = next then { k with cpu := interrupted } else k.goWild eax
  | .execute caller => { k with cpu := { caller with eax := eax } }
  | _ => k.goWild eax

end Kernel
end Kernel391
