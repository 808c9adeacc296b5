import Kernel391.Process.Mapping
import Kernel391.Process.ShellStart
import Kernel391.Process.StackExits
import Kernel391.System.Step

/-! One event over the stacks. Every event that can happen in a state that represents the
stacks is one of the moves, or control is lost. -/
namespace Kernel391
open Kernel391.Foundations
set_option autoImplicit false

/-! ## The scheduler's search -/

namespace Kernel
variable {k k' : Kernel} {n p q : ℕ}

theorem findNextActivePcbLoop_congr (hids : k'.processIds = k.processIds)
    (hinfo : ∀ p < maxProcesses, (k'.slot p).processId = (k.slot p).processId ∧
      (k'.slot p).isActive = (k.slot p).isActive) (hp : p < maxProcesses) :
    k'.findNextActivePcbLoop n (getPcbPtr p) = k.findNextActivePcbLoop n (getPcbPtr p) := by
  induction n generalizing p with
  | zero => rfl
  | succ n ih =>
    have hq : (p + 1) % maxProcesses < maxProcesses := Nat.mod_lt _ (by decide)
    obtain ⟨hid, hact⟩ := hinfo _ hq
    unfold slot at hid hact
    simp only [findNextActivePcbLoop, next_slot hp, hid, hact, hids, ih hq]

theorem findNextActivePcb_saveRegs (hp : p < maxProcesses) (a : ℕ) (r : Regs) :
    (k.saveRegs a r).findNextActivePcb (getPcbPtr p) = k.findNextActivePcb (getPcbPtr p) := by
  refine findNextActivePcbLoop_congr rfl (fun q _ => ?_) hp
  unfold slot saveRegs setPcb
  by_cases hqa : getPcbPtr q = a
  · rw [hqa]
    simp only [Function.update_self, and_self]
  · simp only [Function.update_of_ne hqa, and_self]

theorem findNextActivePcbLoop_none (hn : k.Numbered) (hp : p < maxProcesses)
    (h : k.findNextActivePcbLoop n (getPcbPtr p) = none) {j : ℕ} (hj : j < n) :
    ¬ (k.inUse ((p + 1 + j) % maxProcesses) ∧ (k.slot ((p + 1 + j) % maxProcesses)).isActive = 1) := by
  induction n generalizing p j with
  | zero => exact absurd hj (Nat.not_lt_zero j)
  | succ n ih =>
    have hq : (p + 1) % maxProcesses < maxProcesses := Nat.mod_lt _ (by decide)
    simp only [findNextActivePcbLoop, next_slot hp] at h
    split at h
    · cases h
    · next hc =>
      cases j with
      | zero =>
        rintro ⟨hu, ha⟩
        have hid := hn.active _ hq (by rw [ha]; decide)
        unfold slot at ha hid
        exact hc ⟨by rw [hid]; exact hu, ha⟩
      | succ j =>
        have hmod : ((p + 1) % maxProcesses + 1 + j) % maxProcesses = (p + 1 + (j + 1)) % maxProcesses := by
          simp only [maxProcesses]
          omega
        have := ih hq h (j := j) (by omega)
        rwa [hmod] at this

theorem findNextActivePcb_none (hn : k.Numbered) (hp : p < maxProcesses)
    (h : k.findNextActivePcb (getPcbPtr p) = none) (hq : q < maxProcesses) :
    ¬ (k.inUse q ∧ (k.slot q).isActive = 1) := by
  have hround := findNextActivePcbLoop_none hn hp h (j := (q + maxProcesses - (p + 1)) % maxProcesses)
    (Nat.mod_lt _ (by decide))
  have hmod : (p + 1 + (q + maxProcesses - (p + 1)) % maxProcesses) % maxProcesses = q := by
    simp only [maxProcesses] at hp hq ⊢
    omega
  rwa [hmod] at hround

theorem pitHandler_next {c : ℕ} {e : Entry} (hc : c < maxProcesses) (hcur : getPcb k.cpu.esp = getPcbPtr c)
    (hnext : k.findNextActivePcb (getPcbPtr c) = some (getPcbPtr q)) :
    pitHandler k e = .gone
      (((k.saveRegs (getPcbPtr c) e.regs).loadNext (getPcbPtr c) (getPcbPtr q)).doSchedule (getPcbPtr q)
      ((k.saveRegs (getPcbPtr c) e.regs).pcb (getPcbPtr q)).scheduleEbp e.eax) := by
  rw [← findNextActivePcb_saveRegs hc (getPcbPtr c) e.regs] at hnext
  unfold pitHandler
  have ha0 : getPcb k.cpu.esp ≠ 0 := hcur ▸ getPcbPtr_ne_zero hc
  rw [hcur] at ha0 ⊢
  simp only [if_neg ha0, hnext]

end Kernel

/-! ## Entries -/

section Entries
variable {k : Kernel} {S : Stacks} {c : ℕ} {e : Entry}

theorem entryEsp_le (h : At k.processes S c) : k.entryEsp ≤ stackTop c := by
  have hesp0 : k.tss.esp0 ≤ stackTop c := by
    have hor : k.tss.esp0 = stackTop c - 4 ∨ k.tss.esp0 = stackTop c := h.onSlot.esp0
    omega
  have hlt : getPcb k.cpu.esp = getPcbPtr c → k.cpu.esp ≤ stackTop c := by
    intro hx
    rw [getPcb_slot h.lt] at hx
    unfold stackTop
    omega
  have hrun : IsTop S c ∧ Resumable c k.cpu ∨
      k.cpu.mode = .spin ∧ getPcb k.cpu.esp = getPcbPtr c ∧ ¬ Stacked S c ∧ k.processIds c = 0 := h.running.2
  unfold Kernel.entryEsp
  rcases hrun with ⟨-, hu | ⟨hk, hesp, -⟩⟩ | ⟨hs, hesp, -⟩
  · rw [hu]
    exact hesp0
  · rw [hk]
    exact hlt hesp
  · rw [hs]
    exact hlt hesp

theorem current_eq (h : At k.processes S c) : k.current = getPcbPtr c := k.processes_current.symm.trans h.onSlot.current

theorem entryOn_of_fits (h : At k.processes S c) (hf : k.fits e = true) :
    EntryOn c e ∧ getPcb (e.regs.esp - 4) = getPcbPtr c := by
  have htop := entryEsp_le h
  have hcur := current_eq h
  unfold Kernel.fits Kernel.onStack at hf
  simp only [decide_eq_true_eq, hcur] at hf
  obtain ⟨⟨h₁, h₁'⟩, ⟨h₂, h₂'⟩, ⟨h₃, h₃'⟩, ⟨h₄, h₄'⟩, -, -, h₅, h₆, -⟩ := hf
  exact ⟨⟨⟨h₁, by omega⟩, ⟨h₂, by omega⟩, h₃, ⟨h₄, by omega⟩, h₅⟩, h₆⟩

theorem entered_call (h : At k.processes S c) (esp : ℕ) : Entered k.processes c k.cpu (k.enter esp).processes := by
  rw [Kernel.processes_enter]
  exact entered_enter h.contexts h.onSlot k.cpu esp

theorem entered_interrupt (h : At k.processes S c) (hent : EntryOn c e) :
    Entered k.processes c k.cpu (k.interrupted e).processes := by
  unfold Kernel.interrupted
  rw [Kernel.processes_setFrame, Kernel.processes_enter]
  exact entered_interrupted h.contexts h.onSlot _ _ hent.handler

end Entries
/-! ## The moves -/

def Kernel.announce (k : Kernel) (vector : ℕ) : Kernel :=
  ((k.printf (ascii exceptionReceived.toList)).printf (ascii "exception: ".toList)).printf
    (ascii ((interruptMsgMapper.getD vector "").toList ++ ['\n']))

/-- The event ends the process on the processor, which calls `halt` in `k₁`. -/
inductive Ending (img : Image) (fs : Filesystem) (k : Kernel) : Event → Kernel → Entry → ℕ → Prop
  | halt (e : Entry) (status : ℕ) : Ending img fs k (.halt e status) (k.enter e.regs.esp) e status
  | exception (e : Entry) (vector : ℕ) :
    Ending img fs k (.exception e vector) ((k.enter e.regs.esp).announce vector) e 255
  | fault {e : Entry} {command : List UInt8} {k₁ : Kernel}
    (h : execute img fs (k.enter e.regs.esp) e k.cpu command = .fault k₁) :
    Ending img fs k (.execute e command) (k₁.announce 14) e 255

theorem Ending.not_gone {img : Image} {fs : Filesystem} {k k' k₁ : Kernel} {command : List UInt8}
    {e e' : Entry} {status : ℕ}
    (h : Ending img fs k (.execute e command) k₁ e' status) :
    execute img fs (k.enter e.regs.esp) e k.cpu command ≠ .gone k' := by
  cases h with
  | fault hf =>
    rw [hf]
    exact fun hx => by cases hx

/-- The processes with a slot taken for a program that could not be loaded. -/
def Processes.leaked (P : Processes) : Option ℕ → Processes
  | none => P
  | some p => P.take p

/-- The slot displayed, `c` when there is none. -/
def Processes.onscreen (P : Processes) (c : ℕ) : ℕ := P.findOnscreenTerminalPid.getD c

def Kernel.called (k : Kernel) (e : Entry) : Processes := (k.enter e.regs.esp).processes

def Kernel.preempted (k : Kernel) (e : Entry) : Processes := (k.interrupted e).processes

def Going (img : Image) (fs : Filesystem) (k : Kernel) (ev : Event) : Prop :=
  ∀ k₁ e status, ¬ Ending img fs k ev k₁ e status

/-- Nothing moves: the event ends no process, is no tick, asks for a terminal only in vain, and executes no program. -/
structure Uneventful (img : Image) (fs : Filesystem) (k : Kernel) (S : Stacks) (ev : Event) : Prop where
  going : Going img fs k ev
  tick : ∀ e, ev ≠ .tick e
  key : ∀ e scanCode t, ev = .key e scanCode → k.requests scanCode = some t →
    S t = [] ∧ ∀ p < maxProcesses, k.processes.ids p ≠ 0
  execute : ∀ e command k₁, ev = .execute e command → execute img fs (k.enter e.regs.esp) e k.cpu command ≠ .gone k₁

/-- What an event makes of the stacks `S` and the slot `c` in use. -/
inductive Move (img : Image) (fs : Filesystem) (k : Kernel) (S : Stacks) (c : ℕ) (k' : Kernel) :
    Event → Stacks → ℕ → Prop
  | stay {ev : Event} (uneventful : Uneventful img fs k S ev) (ids : k'.processes.ids = k.processes.ids)
    (info : k'.processes.info = k.processes.info)
    (remapped : Paging.Remapped (k.processes.info c).fakePageAddr k.paging k'.paging) :
    Move img fs k S c k' ev S c
  | tick {e : Entry} {q : ℕ} (entered : Entered k.processes c k.cpu (k.preempted e)) (top : IsTop S q)
    (next : k.findNextActivePcb (getPcbPtr c) = some (getPcbPtr q))
    (gone : pitHandler (k.interrupted e) e = .gone k') (view : k'.processes = (k.preempted e).switchTo c q e) :
    Move img fs k S c k' (.tick e) S q
  | display {e : Entry} {scanCode t q : ℕ} {l : List ℕ} {k₁ : Kernel}
    (entered : Entered k.processes c k.cpu (k.preempted e)) (request : k.requests scanCode = some t)
    (stack : S t = q :: l)
    (ret : handleKeyboard img fs (k.interrupted e) e scanCode = .ret 0 k₁) (resume : k' = k₁.resume k.cpu)
    (view : k'.processes = ((k.preempted e).display ((k.preempted e).onscreen q) q).resume k.cpu) :
    Move img fs k S c k' (.key e scanCode) S c
  | create {e : Entry} {scanCode t p eip : ℕ} (entered : Entered k.processes c k.cpu (k.preempted e))
    (entry : EntryOn c e)
    (request : k.requests scanCode = some t) (stack : S t = []) (slot : k.processes.FirstFree p)
    (gone : handleKeyboard img fs (k.interrupted e) e scanCode = .gone k')
    (view : k'.processes = (k.preempted e).create c ((k.preempted e).onscreen c) p t e eip) :
    Move img fs k S c k' (.key e scanCode) (Function.update S t [p]) p
  | push {e : Entry} {command : List UInt8} {t p eip : ℕ} {l : List ℕ}
    (entered : Entered k.processes c k.cpu (k.called e)) (entry : EntryOn c e) (stack : S t = c :: l)
    (slot : k.processes.FirstFree p) (gone : execute img fs (k.enter e.regs.esp) e k.cpu command = .gone k')
    (view : k'.processes = (k.called e).push c p e k.cpu eip) :
    Move img fs k S c k' (.execute e command) (Function.update S t (p :: c :: l)) p
  | pop {ev : Event} {e : Entry} {status t q : ℕ} {l : List ℕ} {k₁ : Kernel} {o : Option ℕ} {y : Cpu}
    (entered : Entered k.processes c k.cpu (k.called e)) (ending : Ending img fs k ev k₁ e status)
    (before : k₁.processes = (k.called e).leaked o) (leak : ∀ p ∈ o, k.processes.FirstFree p)
    (stack : S t = c :: q :: l)
    (frame : k.processes.frames (k.processes.info c).haltEbp = .setupExecStack y)
    (gone : halt img fs k₁ e k.cpu status = .gone k')
    (view : k'.processes = (((k.called e).leaked o).exitTo c q).resume { y with eax := 0 }) :
    Move img fs k S c k' ev (Function.update S t (q :: l)) q
  | restart {ev : Event} {e : Entry} {status eip : ℕ} {k₁ : Kernel} {o : Option ℕ}
    (entered : Entered k.processes c k.cpu (k.called e)) (ending : Ending img fs k ev k₁ e status)
    (before : k₁.processes = (k.called e).leaked o) (leak : ∀ p ∈ o, k.processes.FirstFree p) (stack : S 0 = [c])
    (gone : halt img fs k₁ e k.cpu status = .gone k')
    (view : k'.processes = (((k.called e).leaked o).release c).start e k.cpu eip) : Move img fs k S c k' ev S c
  | close {ev : Event} {e : Entry} {status t q y : ℕ} {l : List ℕ} {k₁ : Kernel} {o : Option ℕ} {x : Cpu}
    (entered : Entered k.processes c k.cpu (k.called e)) (ending : Ending img fs k ev k₁ e status)
    (before : k₁.processes = (k.called e).leaked o) (leak : ∀ p ∈ o, k.processes.FirstFree p) (stack : S t = [c])
    (other : t ≠ 0) (parent : y < maxProcesses ∧ (k.processes.info c).parent = getPcbPtr y)
    (elsewhere : (k.processes.info y).terminalNum ≠ t) (first : S 0 = q :: l)
    (spin : x.mode = .spin ∧ x.esp = e.regs.esp)
    (gone : halt img fs k₁ e k.cpu status = .gone k')
    (view : k'.processes = (((k.called e).leaked o).exitToSpin c (((k.called e).leaked o).onscreen q) q).resume x) :
    Move img fs k S c k' ev (Function.update S t []) c
  | lost {ev : Event} {e : Entry} {status t y : ℕ} {k₁ : Kernel} {o : Option ℕ}
    (entered : Entered k.processes c k.cpu (k.called e)) (ending : Ending img fs k ev k₁ e status)
    (before : k₁.processes = (k.called e).leaked o) (leak : ∀ p ∈ o, k.processes.FirstFree p) (stack : S t = [c])
    (other : t ≠ 0) (parent : y < maxProcesses ∧ (k.processes.info c).parent = getPcbPtr y)
    (same : (k.processes.info y).terminalNum = t) (gone : halt img fs k₁ e k.cpu status = .gone k')
    (view : k'.processes = (((k.called e).leaked o).exitTo c y).haltProcess status (k.processes.info c).haltEbp)
    (wild : k'.cpu.mode = .wild) : Move img fs k S c k' ev S c

/-- The stacks after an event, unless control is lost. -/
def Follows (img : Image) (fs : Filesystem) (k : Kernel) (S : Stacks) (c : ℕ) (ev : Event) (k' : Kernel) : Prop :=
  ∃ S' c', Move img fs k S c k' ev S' c' ∧ (k'.cpu.mode = .wild ∨ At k'.processes S' c')

/-! ## Events that move nothing -/

section Quiet
variable {img : Image} {fs : Filesystem} {k k' : Kernel} {S : Stacks} {c : ℕ}

theorem uneventful_quiet {ev : Event} (h : (∃ x, ev = .trap x) ∨ (∃ b, ev = .output b) ∨ ∃ w, ev = .work w) :
    Uneventful img fs k S ev := by
  rcases h with ⟨x, rfl⟩ | ⟨b, rfl⟩ | ⟨w, rfl⟩ <;>
    exact ⟨fun _ _ _ hx => (by cases hx), fun _ hx => (by cases hx), fun _ _ _ hx => (by cases hx),
      fun _ _ _ hx => (by cases hx)⟩

theorem trap_follows (h : At k.processes S c) {x : Cpu} (hs : step img fs k (.trap x) = some k') :
    Follows img fs k S c (.trap x) k' := by
  have hout : ∀ y : Cpu, k.cpu.mode ≠ .spin → y.mode = .user → Follows img fs k S c (.trap x) (k.resume y) :=
    fun y hm hy =>
    ⟨S, c, .stay (uneventful_quiet (Or.inl ⟨x, rfl⟩)) rfl rfl (Or.inl rfl),
      Or.inr (h.back_to h.table h.contexts h.shown rfl (h.isTop hm) (Or.inl hy))⟩
  have hin : k.cpu.mode ≠ .spin → x.mode = .kernel → getPcb x.esp = k.current → getPcb (x.esp - 4) = k.current →
      Follows img fs k S c (.trap x) ((k.enter x.esp).resume x) := by
    intro hm hx h₁ h₂
    have he := entered_call h x.esp
    rw [current_eq h] at h₁ h₂
    exact ⟨S, c, .stay (uneventful_quiet (Or.inl ⟨x, rfl⟩)) rfl rfl (Or.inl rfl),
      Or.inr (h.back_to (h.table_entered he) (h.contexts_entered he c) (h.shown_entered he) he.esp0 (h.isTop hm)
        (Or.inr ⟨hx, h₁, h₂⟩))⟩
  simp only [step] at hs
  split at hs
  · next hm hx =>
    cases hs
    exact hout x (by rw [hm]; decide) hx
  · next hm hx =>
    cases hs
    exact hout x (by rw [hm]; decide) hx
  · next hm hx =>
    split at hs
    · next hc =>
      cases hs
      have hon := hc.1
      unfold Kernel.onStack at hon
      exact hin (by rw [hm]; decide) hx (of_decide_eq_true hon).1 hc.2.1
    · cases hs
  · next hm hx =>
    split at hs
    · next hc =>
      cases hs
      exact hin (by rw [hm]; decide) hx hc.1 hc.2.1
    · cases hs
  · cases hs

theorem output_follows (h : At k.processes S c) {b : UInt8} (hs : step img fs k (.output b) = some k') :
    Follows img fs k S c (.output b) k' := by
  simp only [step] at hs
  split at hs
  · cases hs
    have hview : (k.putc b).processes = k.processes := k.processes_withConsole _
    exact ⟨S, c, .stay (uneventful_quiet (Or.inr (Or.inl ⟨b, rfl⟩))) (congrArg Processes.ids hview)
      (congrArg Processes.info hview) (Or.inl rfl), Or.inr (by rwa [hview])⟩
  · cases hs

theorem doWork_processes (h : At k.processes S c) (w : Work) : (k.doWork w).processes = k.processes := by
  have hid : k.processes.setInfo c id = k.processes := by
    simp only [Processes.setInfo, id, Function.update_eq_self]
  unfold Kernel.doWork
  rw [current_eq h]
  generalize hk₁ : ({ k with
    phys := w.phys, screenX := w.screenX, screenY := w.screenY, keyboard := w.keyboard, rtc := w.rtc
    ports := w.ports } : Kernel) = k₁
  have hview : k₁.processes = k.processes := by
    subst hk₁
    rfl
  rw [Kernel.processes_setPcb k₁ (f := fun p => { p with available := w.available, fd := w.fd }) (g := id) h.lt
    fun _ => rfl, hview, hid]

theorem work_follows (h : At k.processes S c) {w : Work} (hs : step img fs k (.work w) = some k') :
    Follows img fs k S c (.work w) k' := by
  simp only [step] at hs
  split at hs
  · cases hs
    have hview := doWork_processes h w
    exact ⟨S, c, .stay (uneventful_quiet (Or.inr (Or.inr ⟨w, rfl⟩))) (congrArg Processes.ids hview)
      (congrArg Processes.info hview) (Or.inl rfl), Or.inr (by rwa [hview])⟩
  · cases hs

/-! ## A tick -/

theorem schedule_processes {q : ℕ} {e : Entry} (hc : c < maxProcesses) (hq : q < maxProcesses) :
    (((k.saveRegs (getPcbPtr c) e.regs).loadNext (getPcbPtr c) (getPcbPtr q)).doSchedule (getPcbPtr q)
      ((k.saveRegs (getPcbPtr c) e.regs).pcb (getPcbPtr q)).scheduleEbp e.eax).processes =
        k.processes.switchTo c q e := by
  have hsave := k.processes_saveRegs hc e.regs
  generalize k.saveRegs (getPcbPtr c) e.regs = k₁ at hsave
  have hinfo : (k₁.pcb (getPcbPtr q)).info = k₁.processes.info q := slot_info hq
  have hid : (k₁.pcb (getPcbPtr q)).processId = (k₁.processes.info q).processId := by
    rw [← hinfo, Pcb.info_processId]
  have hebp : (k₁.pcb (getPcbPtr q)).scheduleEbp = (k₁.processes.info q).scheduleEbp := by
    rw [← hinfo, Pcb.info_scheduleEbp]
  rw [Kernel.processes_doSchedule, loadNext_processes, hid, hebp, hsave]
  rfl

theorem findNextActivePcb_top (h : At k.processes S c) :
    ∃ q, IsTop S q ∧ k.findNextActivePcb (getPcbPtr c) = some (getPcbPtr q) := by
  have hn := Kernel.numbered_of_processes h.table.numbered
  cases hf : k.findNextActivePcb (getPcbPtr c) with
  | none =>
    obtain ⟨p, l, hp⟩ := h.table.first_cons
    have htop := isTop_of_cons hp
    have hlt := h.table.slot_lt htop.stacked
    have hactive := h.table.active p hlt htop
    rw [k.processes_info hlt] at hactive
    exact absurd ⟨h.table.used htop.stacked, hactive⟩ (Kernel.findNextActivePcb_none hn h.lt hf hlt)
  | some a =>
    obtain ⟨q, hq, ha, -, hactive⟩ := Kernel.findNextActivePcb_some h.lt hn hf
    refine ⟨q, h.table.isTop_of_active hq ?_, congrArg some ha⟩
    rw [k.processes_info hq, Pcb.info_isActive, hactive]
    exact Nat.one_ne_zero

theorem tick_gone (h : At k.processes S c) {e : Entry} (hent : EntryOn c e) :
    ∃ q k₁, IsTop S q ∧ k.findNextActivePcb (getPcbPtr c) = some (getPcbPtr q) ∧
      pitHandler (k.interrupted e) e = .gone k₁ ∧ k₁.processes = (k.interrupted e).processes.switchTo c q e := by
  obtain ⟨q, hq, hnext⟩ := findNextActivePcb_top h
  have hsame : (k.interrupted e).findNextActivePcb (getPcbPtr c) = k.findNextActivePcb (getPcbPtr c) :=
    Kernel.findNextActivePcbLoop_congr rfl (fun _ _ => ⟨rfl, rfl⟩) h.lt
  exact ⟨q, _, hq, hnext, Kernel.pitHandler_next h.lt hent.esp (hsame.trans hnext),
    schedule_processes h.lt (h.table.slot_lt hq.stacked)⟩

theorem tick_follows (h : At k.processes S c) {e : Entry} (hs : step img fs k (.tick e) = some k') :
    Follows img fs k S c (.tick e) k' := by
  simp only [step] at hs
  split at hs
  · next hc =>
    obtain ⟨hent, -⟩ := entryOn_of_fits h hc.2.1
    have he := entered_interrupt h hent
    obtain ⟨q, k₁, hq, hnext, hgone, hview⟩ := tick_gone h hent
    rw [hgone] at hs
    cases hs
    refine ⟨S, q, .tick he hq hnext hgone hview, ?_⟩
    rcases h.switch he (e := e) hq with hwild | hat
    · exact Or.inl ((congrArg (fun P => P.cpu.mode) hview).trans hwild)
    · refine Or.inr ?_
      show At k₁.processes S q
      rw [hview]
      exact hat
  · cases hs

end Quiet
end Kernel391
