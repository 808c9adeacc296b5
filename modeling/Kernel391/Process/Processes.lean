import Kernel391.Devices.Keyboard
import Kernel391.Devices.Pit
import Kernel391.Machine.PagingMeaning
import Kernel391.Process.Execute

/-! The process view of the kernel: slots, what their PCBs say about scheduling and
terminals, the kernel stacks and the processor. Paging, memory and the devices are
projected away, so the functions that only touch those are invisible here and the
others become operations on the view. -/
namespace Kernel391
open Kernel391.Foundations
set_option autoImplicit false

/-- The fields of a PCB that process switches and terminal switches depend on. -/
structure Info where
  processId : ℕ
  isActive : ℕ
  scheduleEbp : ℕ
  scheduleEsp : ℕ
  parent : ℕ
  isOnscreen : ℕ
  terminalNum : ℕ
  fakePageAddr : ℕ
  esp0 : ℕ
  haltEbp : ℕ

/-- The top of the stack of a slot. -/
def stackTop (p : ℕ) : ℕ := eightMb - eightKb * p

namespace Info

def blank : Info := ⟨0, 0, 0, 0, 0, 0, 0, 0, 0, 0⟩

def setActive (a : ℕ) (i : Info) : Info := { i with isActive := a }
def setOnscreen (o : ℕ) (i : Info) : Info := { i with isOnscreen := o }
def saveRegs (r : Regs) (i : Info) : Info := { i with scheduleEbp := r.ebp, scheduleEsp := r.esp }
def setHaltEbp (a : ℕ) (i : Info) : Info := { i with haltEbp := a }

@[simp] theorem saveRegs_isActive (r : Regs) (i : Info) : (i.saveRegs r).isActive = i.isActive := rfl
@[simp] theorem saveRegs_isOnscreen (r : Regs) (i : Info) : (i.saveRegs r).isOnscreen = i.isOnscreen := rfl
@[simp] theorem saveRegs_processId (r : Regs) (i : Info) : (i.saveRegs r).processId = i.processId := rfl

/-- The slot of a program started by `execute`: it continues its caller's terminal. -/
def child (caller : Info) (p parent : ℕ) (e : Entry) : Info :=
  { caller with
    processId := p, scheduleEbp := e.regs.ebp, scheduleEsp := e.regs.esp, parent := parent
    esp0 := stackTop p, haltEbp := e.frame }

/-- The slot of the root shell of a terminal. -/
def root (p parent t : ℕ) (e : Entry) : Info where
  processId := p
  isActive := 1
  scheduleEbp := e.regs.ebp
  scheduleEsp := e.regs.esp
  parent := parent
  isOnscreen := 1
  terminalNum := t
  fakePageAddr := fakePage t
  esp0 := stackTop p
  haltEbp := e.frame

end Info

def Pcb.info (b : Pcb) : Info where
  processId := b.processId
  isActive := b.isActive
  scheduleEbp := b.scheduleEbp
  scheduleEsp := b.scheduleEsp
  parent := b.parent
  isOnscreen := b.terminalInfo.isOnscreen
  terminalNum := b.terminalInfo.terminalNum
  fakePageAddr := b.terminalInfo.fakePageAddr
  esp0 := b.esp0
  haltEbp := b.haltEbp

/-- The part of the first 4 MB's mapping that is never changed: all but the video entry. -/
structure FixedPages where
  directory : PageDirEntry
  table : ℕ → ℕ

section PcbInfo
variable (b : Pcb)

@[simp] theorem Pcb.info_processId : b.info.processId = b.processId := rfl
@[simp] theorem Pcb.info_isActive : b.info.isActive = b.isActive := rfl
@[simp] theorem Pcb.info_isOnscreen : b.info.isOnscreen = b.terminalInfo.isOnscreen := rfl
@[simp] theorem Pcb.info_terminalNum : b.info.terminalNum = b.terminalInfo.terminalNum := rfl
@[simp] theorem Pcb.info_fakePageAddr : b.info.fakePageAddr = b.terminalInfo.fakePageAddr := rfl
@[simp] theorem Pcb.info_parent : b.info.parent = b.parent := rfl
@[simp] theorem Pcb.info_esp0 : b.info.esp0 = b.esp0 := rfl
@[simp] theorem Pcb.info_haltEbp : b.info.haltEbp = b.haltEbp := rfl
@[simp] theorem Pcb.info_scheduleEbp : b.info.scheduleEbp = b.scheduleEbp := rfl

end PcbInfo

structure Processes where
  ids : ℕ → ℕ
  info : ℕ → Info
  frames : ℕ → Frame
  cpu : Cpu
  esp0 : ℕ
  fixed : FixedPages

def Kernel.processes (k : Kernel) : Processes where
  ids := k.processIds
  info := fun p => if p < maxProcesses then (k.slot p).info else Info.blank
  frames := k.frames
  cpu := k.cpu
  esp0 := k.tss.esp0
  fixed := ⟨k.pageDir 0, fun i => if i = pgTblIdx then 0 else k.pageTbl i⟩

/-! ## Operations on the view -/

namespace Processes
variable (P : Processes)

def inUse (p : ℕ) : Prop := P.ids p ≠ 0

def setInfo (p : ℕ) (f : Info → Info) : Processes :=
  { P with info := Function.update P.info p (f (P.info p)) }

def setFrame (a : ℕ) (f : Frame) : Processes := { P with frames := Function.update P.frames a f }

def take (p : ℕ) : Processes := { P with ids := Function.update P.ids p 1 }
def release (p : ℕ) : Processes := { P with ids := Function.update P.ids p 0 }
def setEsp0 (a : ℕ) : Processes := { P with esp0 := a }
def resume (c : Cpu) : Processes := { P with cpu := c }
def goWild (eax : ℕ) : Processes := P.resume { P.cpu with mode := .wild, eax := eax }

/-- The stack pointer the next entry into the kernel starts from. -/
def entryEsp : ℕ :=
  match P.cpu.mode with
  | .user => P.esp0
  | .kernel => P.cpu.esp
  | .spin => P.cpu.esp
  | .wild => P.esp0

/-- The PCB of the stack the processor is on, or enters the kernel on. -/
def current : ℕ := getPcb (P.entryEsp - 4)

def enter (esp : ℕ) : Processes :=
  { P with
    frames := fun a => if getPcb a = P.current ∧ a < P.esp0 then .lost else P.frames a
    cpu := { P.cpu with mode := .kernel, esp := esp } }

/-- The searches of `pcb.c`, on the view. -/
def findTerminalPid (requested : ℕ) : Option ℕ :=
  (List.range maxProcesses).find? fun i =>
    P.ids (P.info i).processId ≠ 0 ∧ (P.info i).isActive ≠ 0 ∧ (P.info i).terminalNum = requested

def findOnscreenTerminalPid : Option ℕ :=
  (List.range maxProcesses).find? fun i => P.ids i ≠ 0 ∧ (P.info i).isOnscreen ≠ 0

def findOnscreenTerminalNum : Option ℕ :=
  ((List.range maxProcesses).find? fun i =>
    P.ids (P.info i).processId ≠ 0 ∧ (P.info i).isOnscreen ≠ 0).map fun i => (P.info i).terminalNum

structure FirstFree (p : ℕ) : Prop where
  lt : p < maxProcesses
  free : P.ids p = 0
  least : ∀ q < p, P.ids q ≠ 0

/-- Control passes to a program that starts in slot `p`. -/
def launch (p : ℕ) (e : Entry) (eip : ℕ) (outer inner : Frame) : Processes :=
  (((P.setFrame e.regs.ebp outer).setEsp0 (stackTop p - 4)).setFrame e.frame inner).resume
    ⟨.user, eip, programStack, e.eax⟩

/-- `execute` by the process in slot `c`. -/
def push (c p : ℕ) (e : Entry) (caller : Cpu) (eip : ℕ) : Processes :=
  (((P.take p).setInfo c fun i => (i.setOnscreen 0).setActive 0).setInfo p fun _ =>
    (P.info c).child p (getPcbPtr c) e).launch p e eip (.execute caller) (.setupExecStack caller)

/-- `execute` with no parent: the first terminal. -/
def start (e : Entry) (caller : Cpu) (eip : ℕ) : Processes :=
  ((P.take 0).setInfo 0 fun _ => Info.root 0 0 0 e).launch 0 e eip (.execute caller)
    (.setupExecStack caller)

/-- A root shell for terminal `t` in slot `p`, started on the stack of slot `c` while `o` is on screen. -/
def create (c o p t : ℕ) (e : Entry) (eip : ℕ) : Processes :=
  ((((P.take p).setInfo c (Info.setOnscreen 0)).setInfo o (Info.setOnscreen 0)).setInfo p fun _ =>
    Info.root p (getPcbPtr c) t e).launch p e eip .switchTerminal .switchTerminal

/-- Slot `r` is displayed in place of slot `o`. -/
def display (o r : ℕ) : Processes := (P.setInfo o (Info.setOnscreen 0)).setInfo r (Info.setOnscreen 1)

/-- The exit of slot `s` into slot `q`, up to the jump. -/
def handBack (s q : ℕ) : Processes :=
  let P := P.setInfo q (Info.setActive 1)
  let P := P.setInfo q (Info.setOnscreen (P.info s).isOnscreen)
  let P := P.setInfo s (Info.setOnscreen 0)
  (P.release (P.info s).processId).setEsp0 (P.info q).esp0

def haltProcess (status haltEbp : ℕ) : Processes :=
  match P.frames haltEbp with
  | .setupExecStack caller => P.resume { caller with eax := 0 }
  | _ => P.goWild (signExtend status)

def doSchedule (next ebp eax : ℕ) : Processes :=
  match P.frames ebp with
  | .interrupt interrupted => if getPcb ebp = next then P.resume interrupted else P.goWild eax
  | .execute caller => P.resume { caller with eax := eax }
  | _ => P.goWild eax

end Processes

/-! ## The kernel's operations, seen in the view -/

namespace Kernel
variable (k : Kernel)

theorem processes_info {p : ℕ} (hp : p < maxProcesses) : k.processes.info p = (k.slot p).info := if_pos hp

theorem find_range_congr {f g : ℕ → Bool} (h : ∀ i < maxProcesses, f i = g i) :
    (List.range maxProcesses).find? f = (List.range maxProcesses).find? g := by
  have hmem : ∀ i ∈ List.range maxProcesses, f i = g i := fun i hi => h i (List.mem_range.mp hi)
  generalize List.range maxProcesses = l at hmem
  induction l with
  | nil => rfl
  | cons i l ih =>
    rw [List.find?_cons, List.find?_cons, hmem i (List.mem_cons_self ..),
      ih fun j hj => hmem j (List.mem_cons_of_mem i hj)]

theorem processes_findTerminalPid (t : ℕ) : k.processes.findTerminalPid t = k.findTerminalPid t := by
  refine find_range_congr fun i hi => ?_
  simp only [k.processes_info hi, Pcb.info_processId, Pcb.info_isActive, Pcb.info_terminalNum]
  rfl

theorem processes_findOnscreenTerminalPid :
    k.processes.findOnscreenTerminalPid = k.findOnscreenTerminalPid := by
  refine find_range_congr fun i hi => ?_
  simp only [k.processes_info hi, Pcb.info_isOnscreen]
  rfl

theorem processes_findOnscreenTerminalNum :
    k.processes.findOnscreenTerminalNum = k.findOnscreenTerminalNum := by
  unfold Processes.findOnscreenTerminalNum findOnscreenTerminalNum
  have hfind := find_range_congr (f := fun i => decide (k.processes.ids (k.processes.info i).processId ≠ 0 ∧
      (k.processes.info i).isOnscreen ≠ 0)) (g := fun i => decide (k.processIds (k.slot i).processId ≠ 0 ∧
      (k.slot i).terminalInfo.isOnscreen ≠ 0)) fun i hi => by
    simp only [k.processes_info hi, Pcb.info_processId, Pcb.info_isOnscreen]
    rfl
  rw [hfind]
  cases hf : (List.range maxProcesses).find? (fun i => decide (k.processIds (k.slot i).processId ≠ 0 ∧
      (k.slot i).terminalInfo.isOnscreen ≠ 0)) with
  | none =>
    unfold slot at hf
    rw [hf]
    rfl
  | some i =>
    have hi : i < maxProcesses := List.mem_range.mp (List.mem_of_find?_eq_some hf)
    unfold slot at hf
    rw [hf, Option.map_some, Option.map_some, k.processes_info hi, Pcb.info_terminalNum]
    rfl

theorem processes_setPcb {p : ℕ} (hp : p < maxProcesses) {f : Pcb → Pcb} {g : Info → Info}
    (h : ∀ b, (f b).info = g b.info) :
    (k.setPcb (getPcbPtr p) f).processes = k.processes.setInfo p g := by
  have hinfo : (k.setPcb (getPcbPtr p) f).processes.info = (k.processes.setInfo p g).info := by
    funext q
    simp only [Processes.setInfo, processes, slot, setPcb]
    by_cases hq : q < maxProcesses
    · rw [if_pos hq, update_slot _ _ hp hq]
      by_cases hqp : q = p
      · subst hqp
        rw [if_pos rfl, Function.update_self, if_pos hp]
        exact h _
      · rw [if_neg hqp, Function.update_of_ne hqp, if_pos hq]
    · have hqp : q ≠ p := fun e => hq (e ▸ hp)
      rw [if_neg hq, Function.update_of_ne hqp, if_neg hq]
  unfold processes at hinfo ⊢
  unfold Processes.setInfo at hinfo ⊢
  simp only [Processes.mk.injEq]
  exact ⟨rfl, hinfo, rfl, rfl, rfl, rfl⟩

theorem processes_setPcb_other {a : ℕ} (ha : ∀ p < maxProcesses, a ≠ getPcbPtr p) (f : Pcb → Pcb) :
    (k.setPcb a f).processes = k.processes := by
  have hinfo : (k.setPcb a f).processes.info = k.processes.info := by
    funext q
    simp only [processes, slot, setPcb]
    by_cases hq : q < maxProcesses
    · rw [if_pos hq, if_pos hq, Function.update_of_ne (fun e => ha q hq e.symm)]
    · rw [if_neg hq, if_neg hq]
  unfold processes at hinfo ⊢
  simp only [Processes.mk.injEq]
  exact ⟨rfl, hinfo, rfl, rfl, rfl, rfl⟩

theorem processes_setTerminal {p : ℕ} (hp : p < maxProcesses) {f : TerminalInfo → TerminalInfo}
    {g : Info → Info} (h : ∀ b : Pcb, ({ b with terminalInfo := f b.terminalInfo } : Pcb).info = g b.info) :
    (k.setTerminal (getPcbPtr p) f).processes = k.processes.setInfo p g := k.processes_setPcb hp h

theorem processes_saveRegs {p : ℕ} (hp : p < maxProcesses) (r : Regs) :
    (k.saveRegs (getPcbPtr p) r).processes = k.processes.setInfo p (Info.saveRegs r) :=
  k.processes_setPcb hp fun _ => rfl

theorem processes_cpu (c : Cpu) : ({ k with cpu := c } : Kernel).processes = k.processes.resume c := rfl

@[simp] theorem processes_setFrame (a : ℕ) (f : Frame) :
    (k.setFrame a f).processes = k.processes.setFrame a f := rfl

theorem processes_setupExecStack {p : ℕ} (hp : p < maxProcesses) (eip frame eax : ℕ) (f : Frame) :
    (k.setupExecStack eip (getPcbPtr p) frame f eax).processes =
      ((k.processes.setInfo p (Info.setHaltEbp frame)).setFrame frame f).resume
        ⟨.user, eip, programStack, eax⟩ := by
  unfold setupExecStack
  rw [processes_cpu, processes_setFrame, k.processes_setPcb (f := fun b => { b with haltEbp := frame })
    (g := Info.setHaltEbp frame) hp
    fun _ => rfl]

theorem processes_haltProcess (status haltEbp : ℕ) :
    (k.haltProcess status haltEbp).processes = k.processes.haltProcess status haltEbp := by
  unfold haltProcess Processes.haltProcess
  rw [show k.processes.frames = k.frames from rfl]
  cases k.frames haltEbp <;> rfl

theorem processes_doSchedule (next ebp eax : ℕ) :
    (k.doSchedule next ebp eax).processes = k.processes.doSchedule next ebp eax := by
  unfold doSchedule Processes.doSchedule
  rw [show k.processes.frames = k.frames from rfl]
  cases k.frames ebp with
  | interrupt c =>
    simp only
    split <;> rfl
  | _ => rfl

theorem processes_current : k.processes.current = k.current := by
  unfold current Processes.current entryEsp Processes.entryEsp processes
  cases k.cpu.mode <;> rfl

theorem processes_enter (esp : ℕ) : (k.enter esp).processes = k.processes.enter esp := by
  unfold enter Processes.enter
  rw [processes_current]
  rfl

@[simp] theorem processes_phys (m : ℕ → UInt8) : ({ k with phys := m } : Kernel).processes = k.processes := rfl
@[simp] theorem processes_setAttrib (a : UInt8) : (k.setAttrib a).processes = k.processes := rfl
@[simp] theorem processes_keys (s : KeyState) : ({ k with keys := s } : Kernel).processes = k.processes := rfl
@[simp] theorem processes_setPagerDirEntry (a : ℕ) : (k.setPagerDirEntry a).processes = k.processes := by
  have h : (k.setPagerDirEntry a).pageDir 0 = k.pageDir 0 := by
    have hne : (0 : ℕ) ≠ programIdx := by decide
    simp only [setPagerDirEntry, Function.update_of_ne hne]
  unfold processes
  rw [h]
  rfl

@[simp] theorem processes_setVideo (a : ℕ) : (k.setVideo a).processes = k.processes := by
  have h : (fun i => if i = pgTblIdx then 0 else (k.setVideo a).pageTbl i) =
      fun i => if i = pgTblIdx then 0 else k.pageTbl i := by
    funext i
    by_cases hi : i = pgTblIdx
    · rw [if_pos hi, if_pos hi]
    · rw [if_neg hi, if_neg hi]
      exact Function.update_of_ne hi _ _
  unfold processes
  rw [h]
  rfl

@[simp] theorem processes_switchCursor (a b : ℕ) : (k.switchCursor a b).processes = k.processes := rfl
@[simp] theorem processes_withConsole (f : Console → Console) : (k.withConsole f).processes = k.processes := rfl
@[simp] theorem processes_setKeyboard (t : ℕ) (f : KeyboardStruct → KeyboardStruct) :
    (k.setKeyboard t f).processes = k.processes := rfl
@[simp] theorem processes_setTss (a : ℕ) : (k.setTss a).processes = k.processes.setEsp0 a := rfl
@[simp] theorem processes_freeProcess (p : ℕ) : (k.freeProcess p).processes = k.processes.release p := rfl

end Kernel
end Kernel391
