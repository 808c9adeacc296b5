import Kernel391.Foundations.Stores
import Kernel391.Lib.Strings

/-! The state of the kernel between two instructions that matter: the process
table, the processor, the kernel stacks, the paging structures, memory and the
device variables. Pointers to PCBs are addresses; a PCB lies at the foot of the
8 KB stack of its process, so every stack pointer designates one. -/
namespace Kernel391
open Kernel391.Foundations
set_option autoImplicit false

def eightMb : ℕ := 0x00800000
def eightKb : ℕ := 0x00002000
def maxProcesses : ℕ := 6
def video : ℕ := 0xB8000
def userPage : ℕ := 0x08400000
def kernelDs : ℕ := 0x0018
def numCols : ℕ := 80
def numRows : ℕ := 25

/-! ## Process control blocks -/

/-- The operation tables of `func_table.c`. -/
inductive FileOps
  | stdin | stdout | file | directory | rtc
  deriving DecidableEq, Repr

structure FileDescriptor where
  fileOps : Option FileOps
  inode : ℤ
  filePos : ℤ
  flags : ℤ
  deriving DecidableEq

structure TerminalInfo where
  isOnscreen : ℕ
  terminalNum : ℕ
  userPageAddr : ℕ
  fakePageAddr : ℕ
  deriving DecidableEq

structure Pcb where
  processId : ℕ
  isActive : ℕ
  scheduleEsp : ℕ
  scheduleEbp : ℕ
  parent : ℕ
  terminalInfo : TerminalInfo
  esp0 : ℕ
  haltEbp : ℕ
  args : ℕ → UInt8
  available : ℕ → ℕ
  fd : ℕ → FileDescriptor

/-! ## Processor and kernel stacks -/

/-- Where the processor is. `kernel` is a system call that interrupts may preempt, `spin` the final
loop of `halt`. In `wild` control went through a stack frame that is no longer there; nothing is
known of what runs next and the model follows it no further. -/
inductive Mode
  | user | kernel | spin | wild
  deriving DecidableEq, Repr

structure Cpu where
  mode : Mode
  eip : ℕ
  esp : ℕ
  eax : ℕ
  deriving DecidableEq

/-- What `leave; ret` finds at a frame. An interrupt handler returns to the code it interrupted;
`execute` to the code that made the system call; `setup_exec_stack` to the tail of `execute`, whose
caller it names; the frames of a terminal creation lead back into `handle_keyboard`. -/
inductive Frame
  | lost
  | interrupt (interrupted : Cpu)
  | execute (caller : Cpu)
  | setupExecStack (caller : Cpu)
  | switchTerminal
  deriving DecidableEq

/-- The pair `save_regs` stores. -/
structure Regs where
  ebp : ℕ
  esp : ℕ
  deriving DecidableEq

structure Tss where
  esp0 : ℕ
  ss0 : ℕ
  deriving DecidableEq

/-! ## Paging structures -/

inductive PageTable
  | pageTbl | pageTblVmem
  deriving DecidableEq, Repr

/-- A page directory entry: a raw word, or the address of one of the two page tables with its flag
bits. -/
inductive PageDirEntry
  | word (w : ℕ)
  | table (t : PageTable) (flags : ℕ)
  deriving DecidableEq

/-! ## Device variables -/

structure KeyboardStruct where
  buffer : ℕ → UInt8
  top : ℕ
  enterLock : ℕ

/-- The statics of `keyboard.c`. -/
structure KeyState where
  oldData : ℕ
  shift : ℕ
  capslock : ℕ
  alt : ℕ
  ctrl : ℕ
  holdingCount : ℕ
  deriving DecidableEq

structure CursorPos where
  screenX : ℕ
  screenY : ℕ
  deriving DecidableEq

structure Rtc where
  rtcVEnable : ℕ
  vRate : ℕ
  baseF : ℕ
  countNum : ℕ → ℕ
  countDown : ℕ → ℕ
  frequency : ℕ → ℕ
  interrupt : ℕ → ℕ

/-! ## The kernel -/

structure Kernel where
  processIds : ℕ → ℕ
  pcb : ℕ → Pcb
  cpu : Cpu
  frames : ℕ → Frame
  tss : Tss
  pageDir : ℕ → PageDirEntry
  pageTbl : ℕ → ℕ
  pageTblVmem : ℕ → ℕ
  phys : ℕ → UInt8
  attrib : UInt8
  screenX : ℕ
  screenY : ℕ
  cursor : ℕ → CursorPos
  keyboard : ℕ → KeyboardStruct
  keys : KeyState
  rtc : Rtc
  ports : List (ℕ × ℕ)

namespace Kernel
variable (k : Kernel)

def setPcb (a : ℕ) (f : Pcb → Pcb) : Kernel := { k with pcb := Function.update k.pcb a (f (k.pcb a)) }

def setTerminal (a : ℕ) (f : TerminalInfo → TerminalInfo) : Kernel :=
  k.setPcb a fun p => { p with terminalInfo := f p.terminalInfo }

def setAttrib (a : UInt8) : Kernel := { k with attrib := a }

/-- `outb`: the write is recorded, the latest first. -/
def outb (data port : ℕ) : Kernel := { k with ports := (port, data) :: k.ports }

end Kernel

/-- `get_pcb`: the stack pointer rounded down to 8 KB. -/
def getPcb (esp : ℕ) : ℕ := esp / eightKb * eightKb

/-- `get_pcb_ptr`, with the `uint8_t` parameter wrapping. -/
def getPcbPtr (pcbId : ℕ) : ℕ := eightMb - eightKb * (pcbId % 256 + 1)

/-! ## Entering the kernel -/

namespace Kernel
variable (k : Kernel)

/-- The stack pointer the next entry into the kernel starts from. -/
def entryEsp : ℕ :=
  match k.cpu.mode with
  | .user => k.tss.esp0
  | .kernel => k.cpu.esp
  | .spin => k.cpu.esp
  | .wild => k.tss.esp0

/-- The PCB of the stack the processor is on, or enters the kernel on. -/
def current : ℕ := getPcb (k.entryEsp - 4)

/-- An address on the stack in use, below the three words the least entry pushes. -/
def onStack (a : ℕ) : Bool := getPcb a = k.current ∧ a + 12 ≤ k.entryEsp

/-- What an entry leaves of the frames on its stack: nothing below the top of the stack survives. -/
def clobber : ℕ → Frame := fun a => if getPcb a = k.current ∧ a < k.tss.esp0 then .lost else k.frames a

/-- Inside the kernel with stack pointer `esp`. -/
def enter (esp : ℕ) : Kernel :=
  { k with frames := k.clobber, cpu := { k.cpu with mode := .kernel, esp := esp } }

def setFrame (a : ℕ) (f : Frame) : Kernel := { k with frames := Function.update k.frames a f }

end Kernel

/-! ## Stack slots -/

theorem getPcbPtr_eq {p : ℕ} (hp : p < maxProcesses) : getPcbPtr p = eightMb - eightKb * (p + 1) := by
  simp only [maxProcesses] at hp
  unfold getPcbPtr
  rw [Nat.mod_eq_of_lt (by omega)]

theorem getPcbPtr_inj {p q : ℕ} (hp : p < maxProcesses) (hq : q < maxProcesses) :
    getPcbPtr p = getPcbPtr q ↔ p = q := by
  rw [getPcbPtr_eq hp, getPcbPtr_eq hq]
  simp only [maxProcesses, eightMb, eightKb] at *
  omega

theorem getPcbPtr_ne_zero {p : ℕ} (hp : p < maxProcesses) : getPcbPtr p ≠ 0 := by
  rw [getPcbPtr_eq hp]
  simp only [maxProcesses, eightMb, eightKb] at *
  omega

theorem getPcb_slot {p a : ℕ} (hp : p < maxProcesses) :
    getPcb a = getPcbPtr p ↔ eightMb - eightKb * (p + 1) ≤ a ∧ a < eightMb - eightKb * p := by
  rw [getPcbPtr_eq hp]
  simp only [maxProcesses, eightMb, eightKb, getPcb] at *
  omega

theorem update_slot {α : Type} (f : ℕ → α) (v : α) {p q : ℕ} (hp : p < maxProcesses)
    (hq : q < maxProcesses) :
    Function.update f (getPcbPtr p) v (getPcbPtr q) = if q = p then v else f (getPcbPtr q) := by
  by_cases h : q = p
  · rw [h, Function.update_self, if_pos rfl]
  · rw [Function.update_of_ne (fun e => h ((getPcbPtr_inj hq hp).mp e)), if_neg h]

end Kernel391
