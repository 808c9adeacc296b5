import Kernel391.Devices.Keyboard
import Kernel391.Devices.Pit
import Kernel391.Process.Execute
import Kernel391.Process.FrameConditions
import Kernel391.Foundations.Runs

/-! The kernel as a transition system. Every interrupt, exception and system call that
moves the processor between stacks is an event; what user programs and the other
system calls do in between is covered by two events that change nothing a process
switch depends on. -/
namespace Kernel391
open Kernel391.Foundations
set_option autoImplicit false

/-- What a running program and the system calls that do not switch processes may change: memory,
the screen, the keyboard buffers, the real-time clock and the descriptors of the process. -/
structure Work where
  phys : ℕ → UInt8
  screenX : ℕ
  screenY : ℕ
  keyboard : ℕ → KeyboardStruct
  rtc : Rtc
  ports : List (ℕ × ℕ)
  available : ℕ → ℕ
  fd : ℕ → FileDescriptor

inductive Event
  | tick (e : Entry)
  | key (e : Entry) (scanCode : ℕ)
  | execute (e : Entry) (command : List UInt8)
  | halt (e : Entry) (status : ℕ)
  | exception (e : Entry) (vector : ℕ)
  /-- One character of a `terminal_write` in progress. -/
  | output (c : UInt8)
  /-- A system call is entered or left, or the stack pointer moves inside one. -/
  | trap (c : Cpu)
  | work (w : Work)

namespace Kernel
variable (k : Kernel)

/-- The addresses of an entry lie on the stack in use, callees below their callers, with room for one
more word. Between them and the PCB at the bottom of the stack is room for the functions called. -/
def fits (e : Entry) : Bool :=
  k.onStack e.handler ∧ k.onStack e.regs.ebp ∧ k.onStack e.regs.esp ∧ k.onStack e.frame ∧
    e.regs.ebp ≤ e.handler ∧ e.regs.esp < e.regs.ebp ∧ e.frame < e.regs.ebp ∧
    getPcb (e.regs.esp - 4) = k.current ∧ k.current + pcbBytes + calleeBytes ≤ e.regs.esp ∧
    k.current + pcbBytes ≤ e.frame

/-- Inside an interrupt handler: the frame of the handler leads back to the interrupted code. -/
def interrupted (e : Entry) : Kernel := (k.enter e.regs.esp).setFrame e.handler (.interrupt k.cpu)

def doWork (w : Work) : Kernel :=
  ({ k with
    phys := w.phys, screenX := w.screenX, screenY := w.screenY, keyboard := w.keyboard, rtc := w.rtc
    ports := w.ports } : Kernel).setPcb k.current fun p => { p with available := w.available, fd := w.fd }

/-- No system call closes the standard input. -/
def keepsInput (w : Work) : Bool := (k.pcb k.current).available 0 = 0 → w.available 0 = 0

/-- Back to the code that was left, with a return value or with its own EAX. -/
def resume (c : Cpu) : Kernel := { k with cpu := c }

end Kernel

variable (img : Image) (fs : Filesystem)

/-- Run a halting function to its end. A fault inside it is an exception inside an exception. -/
def Outcome.afterHalt (caller : Cpu) : Outcome → Kernel
  | .ret eax k => k.resume { caller with eax := uint32 eax }
  | .gone k => k
  | .fault k => k.goWild 0

/-- A page fault inside the kernel halts the process on whose stack it happened. -/
def pageFault (k : Kernel) (e : Entry) (caller : Cpu) : Kernel :=
  (exceptionHandler img fs k e caller 14).afterHalt caller

def Outcome.afterCall (e : Entry) (caller : Cpu) : Outcome → Kernel
  | .ret eax k => k.resume { caller with eax := uint32 eax }
  | .gone k => k
  | .fault k => pageFault img fs k e caller

def Outcome.afterInterrupt (e : Entry) (caller : Cpu) : Outcome → Kernel
  | .ret _ k => k.resume caller
  | .gone k => k
  | .fault k => pageFault img fs k e caller

/-- The exception handler runs below the inode of the load that faulted. A second load does not fit there,
and the initial process would need one for its next shell. -/
def Outcome.leavesRoom (k : Kernel) : Outcome → Bool
  | .fault _ => (k.pcb k.current).parent ≠ 0
  | _ => true

/-- One event. `none` when it cannot happen in the state, or when it would run over the PCB at the bottom
of the stack. -/
def step (k : Kernel) : Event → Option Kernel
  | .tick e =>
    if k.cpu.mode ≠ .wild ∧ k.fits e ∧ e.handler = e.regs.ebp then
      some ((pitHandler (k.interrupted e) e).afterInterrupt img fs e k.cpu)
    else none
  | .key e scanCode =>
    if k.cpu.mode ≠ .wild ∧ k.fits e ∧ scanCode < 256 ∧ (k.requests scanCode = none ∨ k.roomToLoad e) then
      some ((handleKeyboard img fs (k.interrupted e) e scanCode).afterInterrupt img fs e k.cpu)
    else none
  | .execute e command =>
    if k.cpu.mode = .user ∧ k.fits e ∧ k.roomFor e command ∧
        (execute img fs (k.enter e.regs.esp) e k.cpu command).leavesRoom k then
      some ((execute img fs (k.enter e.regs.esp) e k.cpu command).afterCall img fs e k.cpu)
    else none
  | .halt e status =>
    if k.cpu.mode = .user ∧ k.fits e ∧ status < 256 ∧ k.roomFor e shell then
      some ((halt img fs (k.enter e.regs.esp) e k.cpu status).afterHalt k.cpu)
    else none
  | .exception e vector =>
    if k.cpu.mode = .user ∧ k.fits e ∧ vector < 20 ∧ k.roomFor e shell then
      some ((exceptionHandler img fs (k.enter e.regs.esp) e k.cpu vector).afterHalt k.cpu)
    else none
  | .output c =>
    if k.cpu.mode = .kernel ∧ c ≠ 0 then some (k.putc c) else none
  | .trap c =>
    match k.cpu.mode, c.mode with
    | .user, .user => some (k.resume c)
    | .kernel, .user => some (k.resume c)
    | .user, .kernel =>
      if k.onStack c.esp ∧ getPcb (c.esp - 4) = k.current ∧
        k.current + pcbBytes ≤ c.esp then some ((k.enter c.esp).resume c) else none
    | .kernel, .kernel =>
      if getPcb c.esp = k.current ∧ getPcb (c.esp - 4) = k.current ∧ c.esp ≤ k.tss.esp0 ∧
          k.current + pcbBytes ≤ c.esp then
        some ((k.enter c.esp).resume c)
      else none
    | _, _ => none
  | .work w => if (k.cpu.mode = .user ∨ k.cpu.mode = .kernel) ∧ k.keepsInput w then some (k.doWork w) else none

/-! ## The first shell -/

/-- The state in which `launch_tests` executes the first shell: the process table is empty, the
boot stack is the stack of slot 0, the paging structures are those of `enable_paging` and
`setup_pager_vidmap_table`, the device variables are initialised. -/
structure Booted (k : Kernel) : Prop where
  processIds : ∀ p, k.processIds p = 0
  pcb : ∀ p < maxProcesses, (k.slot p).processId = 0 ∧ (k.slot p).isActive = 0 ∧
    (k.slot p).terminalInfo.isOnscreen = 0 ∧ (k.slot p).terminalInfo.terminalNum = 0 ∧ (k.slot p).parent = 0
  mode : k.cpu.mode = .kernel
  stack : getPcb k.cpu.esp = getPcbPtr 0 ∧ getPcb (k.cpu.esp - 4) = getPcbPtr 0
  frames : ∀ a, k.frames a = .lost
  tss : k.tss = ⟨eightMb, kernelDs⟩
  pageDir : k.pageDir = k.setupPaging.pageDir
  pageTbl : k.pageTbl = k.setupPaging.pageTbl
  pageTblVmem : k.pageTblVmem = k.setupPaging.pageTblVmem
  attrib : k.attrib = 0x07
  screen : k.screenX < numCols ∧ k.screenY < numRows
  cursor : k.cursor = fun _ => ⟨0, 0⟩
  keyboard : ∀ t, (k.keyboard t).top = 0 ∧ (k.keyboard t).enterLock = 0
  keys : k.keys = ⟨0, 0, 0, 0, 0, holdingInit⟩

theorem boot_booted : Booted Kernel.boot where
  processIds _ := rfl
  pcb _ _ := ⟨rfl, rfl, rfl, rfl, rfl⟩
  mode := rfl
  stack := by decide
  frames _ := rfl
  tss := rfl
  pageDir := rfl
  pageTbl := rfl
  pageTblVmem := rfl
  attrib := rfl
  screen := by decide
  cursor := rfl
  keyboard _ := ⟨rfl, rfl⟩
  keys := rfl

/-- The states right after the first shell has started. -/
def Started (k : Kernel) : Prop :=
  ∃ k₀ e, Booted k₀ ∧ (k₀.fits e ∧ k₀.roomFor e shell) ∧
    execute img fs (k₀.enter e.regs.esp) e k₀.cpu shell = .gone k

/-! ## The first shell of the small image -/

def Outcome.isGone : Outcome → Bool
  | .gone _ => true
  | _ => false

theorem Outcome.eq_gone {o : Outcome} (h : o.isGone = true) : o = .gone o.kernel := by
  cases o with
  | gone k => rfl
  | ret r k => cases h
  | fault k => cases h

def bootEntry : Entry := Entry.below (eightMb - 64) 64

def firstShell : Kernel :=
  (execute Image.small (Image.WellFormed.pointers Image.small) (Kernel.boot.enter bootEntry.regs.esp) bootEntry
    Kernel.boot.cpu shell).kernel

theorem firstShell_started : Started Image.small (Image.WellFormed.pointers Image.small) firstShell := by
  have hgone : (execute Image.small (Image.WellFormed.pointers Image.small) (Kernel.boot.enter bootEntry.regs.esp)
      bootEntry Kernel.boot.cpu shell).isGone = true := by decide +kernel
  have hfits : Kernel.boot.fits bootEntry = true ∧ Kernel.boot.roomFor bootEntry shell = true := by decide +kernel
  exact ⟨Kernel.boot, bootEntry, boot_booted, hfits, Outcome.eq_gone hgone⟩

end Kernel391
