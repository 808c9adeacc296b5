import Kernel391.Process.Processes

/-! What each kernel function can do to the processes, said once. Every theorem lists
the ways a function can end and gives the process view after it as an operation on
the view before it. -/
namespace Kernel391
open Kernel391.Foundations
set_option autoImplicit false

namespace Processes
variable (P : Processes)

@[simp] theorem setInfo_setInfo (p : ℕ) (f g : Info → Info) :
    (P.setInfo p f).setInfo p g = P.setInfo p fun i => g (f i) := by
  simp only [setInfo, Function.update_self, Function.update_idem]

theorem setInfo_comm {p q : ℕ} (h : p ≠ q) (f g : Info → Info) :
    (P.setInfo p f).setInfo q g = (P.setInfo q g).setInfo p f := by
  simp only [setInfo, Function.update_of_ne h, Function.update_of_ne h.symm, Function.update_comm h]

/-- Every slot with a flag set carries its own number. -/
def Numbered : Prop :=
  ∀ p < maxProcesses, (P.info p).isActive ≠ 0 ∨ (P.info p).isOnscreen ≠ 0 → (P.info p).processId = p

theorem setInfo_self (p : ℕ) (f : Info → Info) : (P.setInfo p f).info p = f (P.info p) :=
  Function.update_self _ _ _

theorem setInfo_ne {p q : ℕ} (h : q ≠ p) (f : Info → Info) : (P.setInfo p f).info q = P.info q :=
  Function.update_of_ne h _ _

theorem setInfo_field {α : Type} (field : Info → α) (p q : ℕ) (f : Info → Info)
    (hf : ∀ i, field (f i) = field i) : field ((P.setInfo p f).info q) = field (P.info q) := by
  by_cases hqp : q = p
  · rw [hqp, setInfo_self, hf]
  · rw [setInfo_ne _ hqp]

end Processes

theorem Kernel.numbered_of_processes {k : Kernel} (h : k.processes.Numbered) : k.Numbered where
  active p hp ha := by
    have := h p hp
    rw [k.processes_info hp, Pcb.info_isActive, Pcb.info_processId] at this
    exact this (Or.inl ha)
  onscreen p hp ho := by
    have := h p hp
    rw [k.processes_info hp, Pcb.info_isOnscreen, Pcb.info_processId] at this
    exact this (Or.inr ho)

section Parts
variable {img : Image} {fs : Filesystem} {k k' : Kernel}

theorem openExecutable_phys {eip eip' : ℕ → UInt8} {i r : ℤ}
    (h : openExecutable img fs k eip i = .ok (r, eip', k') ∨ openExecutable img fs k eip i = .error k') :
    ∃ m, k' = { k with phys := m } := by
  unfold openExecutable at h
  split at h
  · simp only [Except.error.injEq, reduceCtorEq, false_or] at h
    exact ⟨k.phys, h.symm⟩
  · split at h
    · simp only [Except.ok.injEq, Prod.mk.injEq, reduceCtorEq, or_false] at h
      exact ⟨k.phys, h.2.2.symm⟩
    · split at h
      · next hr =>
        simp only [Except.error.injEq, reduceCtorEq, false_or] at h
        exact h ▸ readData_follows Kernel.follows_phys (r := 0) (Or.inr hr)
      · next hr =>
        split at h <;>
        · simp only [Except.ok.injEq, Prod.mk.injEq, reduceCtorEq, or_false] at h
          exact h.2.2 ▸ readData_follows Kernel.follows_phys (Or.inl hr)

theorem openExecutable_processes {eip eip' : ℕ → UInt8} {i r : ℤ}
    (h : openExecutable img fs k eip i = .ok (r, eip', k') ∨ openExecutable img fs k eip i = .error k') :
    k'.processes = k.processes ∧ k'.cpu = k.cpu := by
  obtain ⟨m, rfl⟩ := openExecutable_phys h
  exact ⟨rfl, rfl⟩

namespace Kernel

theorem getProcessId_processes {p : ℕ} (h : k.getProcessId = some (p, k')) :
    k.processes.FirstFree p ∧ k'.processes = k.processes.take p ∧ k'.cpu = k.cpu := by
  obtain ⟨hp, hz, hl, rfl⟩ := getProcessId_some h
  exact ⟨⟨hp, hz, hl⟩, rfl, rfl⟩

theorem getParentPcb_eq {c : ℕ} (hc : getPcb k.cpu.esp = getPcbPtr c) (p : ℕ) :
    k.getParentPcb p = if p = 0 then 0 else getPcbPtr c := by
  unfold getParentPcb
  rw [hc]

theorem processes_inheritTerminal {p c : ℕ} (hp : p < maxProcesses) (hc : c < maxProcesses) (hne : p ≠ c) :
    (k.inheritTerminal (getPcbPtr p) (getPcbPtr c)).processes =
      (k.processes.setInfo c fun i => (i.setOnscreen 0).setActive 0).setInfo p fun i =>
        { i with
          isActive := (k.processes.info c).isActive
          isOnscreen := (k.processes.info c).isOnscreen
          terminalNum := (k.processes.info c).terminalNum
          fakePageAddr := (k.processes.info c).fakePageAddr } := by
  have hptr : getPcbPtr c ≠ getPcbPtr p := fun e => hne ((getPcbPtr_inj hc hp).mp e).symm
  have hptr' : getPcbPtr p ≠ getPcbPtr c := hptr.symm
  have hinfo : (k.inheritTerminal (getPcbPtr p) (getPcbPtr c)).processes.info =
      ((k.processes.setInfo c fun i => (i.setOnscreen 0).setActive 0).setInfo p fun i =>
        { i with
          isActive := (k.processes.info c).isActive
          isOnscreen := (k.processes.info c).isOnscreen
          terminalNum := (k.processes.info c).terminalNum
          fakePageAddr := (k.processes.info c).fakePageAddr }).info := by
    funext q
    rw [k.processes_info hc]
    simp only [processes, slot, inheritTerminal, setTerminal, setPcb, Processes.setInfo]
    by_cases hq : q < maxProcesses
    · rw [if_pos hq]
      by_cases hqp : q = p
      · subst hqp
        simp only [Function.update_self, Function.update_of_ne hptr', Function.update_of_ne hptr,
          Function.update_of_ne hne, if_pos hp]
        rfl
      · have hq' : getPcbPtr q ≠ getPcbPtr p := fun e => hqp ((getPcbPtr_inj hq hp).mp e)
        rw [Function.update_of_ne hqp]
        by_cases hqc : q = c
        · subst hqc
          simp only [Function.update_self, Function.update_of_ne hptr, if_pos hc]
          rfl
        · have hq'' : getPcbPtr q ≠ getPcbPtr c := fun e => hqc ((getPcbPtr_inj hq hc).mp e)
          simp only [Function.update_of_ne hq', Function.update_of_ne hq'', Function.update_of_ne hqc, if_pos hq]
    · have hqp : q ≠ p := fun e => hq (e ▸ hp)
      have hqc : q ≠ c := fun e => hq (e ▸ hc)
      rw [if_neg hq, Function.update_of_ne hqp, Function.update_of_ne hqc, if_neg hq]
  unfold processes at hinfo ⊢
  simp only [Processes.setInfo] at hinfo ⊢
  simp only [Processes.mk.injEq]
  exact ⟨rfl, hinfo, rfl, rfl, rfl, rfl⟩

theorem processes_outb (data port : ℕ) : (k.outb data port).processes = k.processes := rfl

theorem processes_initPit : k.initPit.processes = k.processes := by
  unfold initPit timerSet
  rw [processes_outb, processes_outb, processes_outb]

theorem processes_firstTerminal {p : ℕ} (hp : p < maxProcesses) :
    (k.firstTerminal (getPcbPtr p)).processes =
      k.processes.setInfo p fun i =>
        { i with isActive := 1, isOnscreen := 1, terminalNum := 0, fakePageAddr := fakePage 0 } := by
  have hpage : video + eightKb / 2 = fakePage 0 := by decide
  unfold firstTerminal
  rw [hpage, processes_setPcb (g := Info.setActive 1) _ hp fun _ => rfl,
    processes_setTerminal
      (g := fun i => { i with isOnscreen := 1, terminalNum := 0, fakePageAddr := fakePage 0 }) _ hp
      fun _ => rfl,
    Processes.setInfo_setInfo, processes_initPit]
  rfl

theorem processes_tail {p parent : ℕ} (hp : p < maxProcesses) (e : Entry) (eip : ℕ) (outer inner : Frame)
    (f : Pcb → Pcb) (hf : ∀ b, (f b).info = b.info) :
    ((((((k.setPcb (getPcbPtr p) (setupPcb p parent)).saveRegs (getPcbPtr p) e.regs).setFrame e.regs.ebp
        outer).setPcb (getPcbPtr p) f).setTss (eightMb - eightKb * p - 4)).setupExecStack eip (getPcbPtr p)
        e.frame inner e.eax).processes =
      (k.processes.setInfo p fun i =>
        { i with
          processId := p, scheduleEbp := e.regs.ebp, scheduleEsp := e.regs.esp, parent := parent
          esp0 := stackTop p, haltEbp := e.frame }).launch p e eip outer inner := by
  rw [processes_setupExecStack _ hp, processes_setTss,
    processes_setPcb (f := f) (g := id) _ hp hf, processes_setFrame, processes_saveRegs _ hp,
    processes_setPcb (f := setupPcb p parent)
      (g := fun i => { i with processId := p, parent := parent, esp0 := stackTop p }) _ hp fun _ => rfl]
  simp only [Processes.launch, Processes.setFrame, Processes.setEsp0, Processes.setInfo, Processes.resume,
    Function.update_self, Function.update_idem]
  rfl

end Kernel
end Parts

/-! ## `execute` -/

section Execute
variable {img : Image} {fs : Filesystem} {k k' : Kernel} {e : Entry} {caller : Cpu} {command : List UInt8}

theorem execute_ret {r : ℤ} (h : execute img fs k e caller command = .ret r k') : r = -1 ∧ k' = k := by
  unfold execute at h
  split at h
  · cases h
  · split at h
    · cases h
      exact ⟨rfl, rfl⟩
    · split at h
      · cases h
        exact ⟨rfl, rfl⟩
      · simp only at h
        split at h <;> cases h

theorem execute_fault (h : execute img fs k e caller command = .fault k') :
    k'.processes = k.processes ∨ ∃ p, k.processes.FirstFree p ∧ k'.processes = k.processes.take p := by
  unfold execute at h
  split at h
  · cases h
    exact Or.inl rfl
  · split at h
    · cases h
    · split at h
      · cases h
      · next p k₁ hid =>
        obtain ⟨hff, htake, -⟩ := Kernel.getProcessId_processes hid
        simp only at h
        split at h
        · next k₂ ho =>
          cases h
          have hload := (@openExecutable_processes _ _ _ _ _ (fun _ => 0) _ 0 (Or.inr ho)).1
          exact Or.inr ⟨p, hff, by rw [hload, Kernel.processes_setPagerDirEntry, htake]⟩
        · cases h

/-- **A successful `execute`** takes the lowest free slot. It is a push on the stack of the current
process, or the start of the first terminal when that slot is slot 0. -/
theorem execute_gone {c : ℕ} (hc : c < maxProcesses) (hcur : getPcb k.cpu.esp = getPcbPtr c)
    (h : execute img fs k e caller command = .gone k') :
    ∃ p eip, k.processes.FirstFree p ∧
      (p = 0 → k'.processes = k.processes.start e caller eip) ∧
      (p ≠ 0 → p ≠ c → k'.processes = k.processes.push c p e caller eip) := by
  unfold execute at h
  split at h
  · cases h
  · split at h
    · cases h
    · split at h
      · cases h
      · next p k₁ hid =>
        obtain ⟨hff, htake, hcpu⟩ := Kernel.getProcessId_processes hid
        simp only at h
        split at h
        · cases h
        · next eip k₂ ho =>
          obtain ⟨hload, hcpu₂⟩ := openExecutable_processes (Or.inl ho)
          rw [Kernel.processes_setPagerDirEntry, htake] at hload
          have hesp : getPcb k₂.cpu.esp = getPcbPtr c := by
            rw [hcpu₂]
            show getPcb k₁.cpu.esp = _
            rw [hcpu, hcur]
          have hparent := Kernel.getParentPcb_eq hesp p
          let args : Pcb → Pcb := fun b => { b with
            args := strncpy b.args (parsedCommand e command).argumentBuf (parsedCommand e command).argCount 0 }
          have hargs : ∀ b, (args b).info = b.info := fun _ => rfl
          simp only [Outcome.gone.injEq] at h
          subst h
          refine ⟨p, wordAt eip 0, hff, ?_, ?_⟩
          · rintro rfl
            rw [Kernel.processes_tail hff.lt _ _ _ _ args hargs, hparent, if_pos rfl,
              if_neg (by simp), Kernel.processes_firstTerminal hff.lt, Processes.setInfo_setInfo, hload]
            rfl
          · intro hp0 hpc
            rw [Kernel.processes_tail hff.lt _ _ _ _ args hargs, hparent, if_neg hp0,
              if_pos (getPcbPtr_ne_zero hc), Kernel.processes_inheritTerminal hff.lt hc hpc,
              Processes.setInfo_setInfo, hload]
            rfl

end Execute

/-! ## `switch_terminal` -/

section Switch
variable {img : Image} {fs : Filesystem} {k k' : Kernel} {e : Entry}

theorem getPcbPtr_255 {p : ℕ} (hp : p < maxProcesses) : getPcbPtr 255 ≠ getPcbPtr p := by
  rw [getPcbPtr_eq hp]
  simp only [getPcbPtr, maxProcesses, eightMb, eightKb] at *
  omega

namespace Kernel

theorem processes_setOnscreen {p : ℕ} (hp : p < maxProcesses) (o : ℕ) :
    (k.setTerminal (getPcbPtr p) fun t => { t with isOnscreen := o }).processes =
      k.processes.setInfo p (Info.setOnscreen o) := k.processes_setTerminal hp fun _ => rfl

theorem showTerminal_ok {o : Option ℕ} {r : ℕ} (ho : ∀ p ∈ o, p < maxProcesses) (hr : r < maxProcesses)
    (h : k.showTerminal (getPcbPtr (o.getD 255)) (getPcbPtr r) = .ok k') :
    k'.processes = k.processes.display (o.getD r) r := by
  unfold showTerminal at h
  simp only at h
  split at h
  · cases h
  · next k₁ hc =>
    have hk₁ : k₁.processes = k.processes := by
      split at hc
      · obtain ⟨m, rfl⟩ := switchKernelMemory_phys (Or.inl hc)
        rfl
      · cases hc
        rfl
    cases h
    rw [processes_setOnscreen hr]
    cases o with
    | some p =>
      simp only [Option.getD_some]
      rw [processes_setOnscreen (ho p rfl), hk₁]
      rfl
    | none =>
      simp only [Option.getD_none]
      unfold setTerminal
      rw [processes_setPcb_other _ (fun p hp => getPcbPtr_255 hp), hk₁, Processes.display,
        Processes.setInfo_setInfo]
      rfl

end Kernel

theorem createTerminal_ret {o t : ℕ} {r : ℤ} (h : createTerminal img fs k e o t = .ret r k') :
    r = -1 ∧ k' = k := by
  unfold createTerminal at h
  split at h
  · cases h
  · split at h
    · cases h
      exact ⟨rfl, rfl⟩
    · split at h
      · cases h
        exact ⟨rfl, rfl⟩
      · simp only at h
        split at h
        · cases h
        · split at h
          · cases h
          · split at h <;> cases h

/-- The PCB of a new root shell before its context is saved. -/
def Info.newRoot (p parent t : ℕ) (i : Info) : Info :=
  { i with
    processId := p, isActive := 1, parent := parent, isOnscreen := 1, terminalNum := t
    fakePageAddr := fakePage t, esp0 := stackTop p }

/-- The processes when the new root shell is set up but not yet displayed. -/
def Processes.prepare (P : Processes) (c p t : ℕ) : Processes :=
  ((P.take p).setInfo c (Info.setOnscreen 0)).setInfo p (Info.newRoot p (getPcbPtr c) t)

theorem Processes.create_eq (P : Processes) {c p : ℕ} {o : Option ℕ} (ho : ∀ q ∈ o, q ≠ p) (t eip : ℕ) :
    (((((((P.prepare c p t).display (o.getD p) p).setEsp0 (eightMb - eightKb * p - 4)).setInfo p
        (Info.saveRegs e.regs)).setFrame e.regs.ebp .switchTerminal).setInfo p
        (Info.setHaltEbp e.frame)).setFrame e.frame .switchTerminal).resume ⟨.user, eip, programStack, e.eax⟩ =
      P.create c (o.getD c) p t e eip := by
  unfold prepare create display
  cases o with
  | none =>
    simp only [Option.getD_none, setInfo_setInfo]
    simp only [launch, setFrame, setEsp0, setInfo, resume, Function.update_self, Function.update_idem]
    rfl
  | some q =>
    simp only [Option.getD_some]
    rw [setInfo_comm _ (ho q rfl).symm, setInfo_setInfo]
    simp only [launch, setFrame, setEsp0, setInfo, resume, Function.update_self, Function.update_idem]
    rfl

/-- **The creation of a terminal** takes the lowest free slot, which is not slot 0. -/
theorem createTerminal_gone {c t a : ℕ} {o : Option ℕ} (hc : c < maxProcesses)
    (hcur : getPcb k.cpu.esp = getPcbPtr c) (ho : ∀ p ∈ o, p < maxProcesses ∧ k.processes.inUse p)
    (ha : a = getPcbPtr (o.getD 255)) (h : createTerminal img fs k e a t = .gone k') :
    ∃ p eip, k.processes.FirstFree p ∧ p ≠ 0 ∧
      k'.processes = k.processes.create c (o.getD c) p t e eip := by
  unfold createTerminal at h
  split at h
  · cases h
  · split at h
    · cases h
    · split at h
      · cases h
      · next p k₁ hid =>
        obtain ⟨hff, htake, hcpu⟩ := Kernel.getProcessId_processes hid
        simp only at h
        split at h
        · cases h
        · next eip k₂ hopen =>
          obtain ⟨hload, hcpu₂⟩ := openExecutable_processes (Or.inl hopen)
          rw [Kernel.processes_setPagerDirEntry, Kernel.processes_setAttrib, htake] at hload
          split at h
          · cases h
          · next hpar =>
            have hesp : getPcb k₂.cpu.esp = getPcbPtr c := by
              rw [hcpu₂]
              show getPcb k₁.cpu.esp = _
              rw [hcpu, hcur]
            have hparent := Kernel.getParentPcb_eq hesp p
            have hp0 : p ≠ 0 := fun e0 => hpar (by rw [hparent, if_pos e0])
            rw [if_neg hp0] at hparent
            split at h
            · cases h
            · next k₃ hs =>
              rw [ha] at hs
              have hshow := Kernel.showTerminal_ok (fun q hq => (ho q hq).1) hff.lt hs
              rw [hparent, Kernel.processes_setPcb
                  (g := fun i => { i with
                    processId := p, isActive := 1, parent := getPcbPtr c, esp0 := stackTop p }) _ hff.lt
                  fun _ => rfl,
                Kernel.processes_setTerminal
                  (g := fun i => { i with isOnscreen := 1, terminalNum := t, fakePageAddr := fakePage t }) _
                  hff.lt fun _ => rfl,
                Kernel.processes_setOnscreen hc, Processes.setInfo_setInfo, hload] at hshow
              simp only [Outcome.gone.injEq] at h
              subst h
              refine ⟨p, wordAt eip 0, hff, hp0, ?_⟩
              have hprep : k₃.processes = (k.processes.prepare c p t).display (o.getD p) p := hshow
              rw [Kernel.processes_setupExecStack _ hff.lt]
              unfold Kernel.clearScreen
              rw [Kernel.processes_withConsole, Kernel.processes_setFrame, Kernel.processes_saveRegs _ hff.lt,
                Kernel.processes_setTss, hprep]
              exact Processes.create_eq _ (fun q hq e => (ho q hq).2 (e ▸ hff.free)) _ _

theorem onscreen_inUse : ∀ p ∈ k.processes.findOnscreenTerminalPid, p < maxProcesses ∧ k.processes.inUse p := by
  intro p hp
  rw [Kernel.processes_findOnscreenTerminalPid] at hp
  obtain ⟨hlt, hu, -⟩ := Kernel.findOnscreenTerminalPid_some hp
  exact ⟨hlt, hu⟩

theorem switchTerminal_ret {t : ℕ} {r : ℤ} (h : switchTerminal img fs k e t = .ret r k') :
    (k.processes.findTerminalPid t = none ∧ r = -1 ∧ k' = k) ∨
      ∃ q < maxProcesses, k.processes.findTerminalPid t = some q ∧ r = 1 ∧
        k'.processes = k.processes.display (k.processes.findOnscreenTerminalPid.getD q) q := by
  unfold switchTerminal at h
  rw [← Kernel.processes_findTerminalPid, ← Kernel.processes_findOnscreenTerminalPid] at h
  generalize ha : getPcbPtr (k.processes.findOnscreenTerminalPid.getD 255) = a at h
  simp only at h
  split at h
  · next hf => exact Or.inl ⟨hf, createTerminal_ret h⟩
  · next q hf =>
    have hq : q < maxProcesses := List.mem_range.mp (List.mem_of_find?_eq_some hf)
    refine Or.inr ⟨q, hq, hf, ?_⟩
    split at h
    · cases h
    · next k₁ hs =>
      rw [← ha] at hs
      have hshow := Kernel.showTerminal_ok (fun p hp => (onscreen_inUse p hp).1) hq hs
      rw [Kernel.processes_setAttrib] at hshow
      split at h
      · cases h
        exact ⟨rfl, hshow⟩
      · cases h
        exact ⟨rfl, by rw [Kernel.processes_setVideo, hshow]⟩

theorem switchTerminal_gone {c t : ℕ} (hc : c < maxProcesses) (hcur : getPcb k.cpu.esp = getPcbPtr c)
    (h : switchTerminal img fs k e t = .gone k') :
    k.processes.findTerminalPid t = none ∧ ∃ p eip, k.processes.FirstFree p ∧ p ≠ 0 ∧
      k'.processes = k.processes.create c (k.processes.findOnscreenTerminalPid.getD c) p t e eip := by
  unfold switchTerminal at h
  rw [← Kernel.processes_findTerminalPid, ← Kernel.processes_findOnscreenTerminalPid] at h
  generalize ha : getPcbPtr (k.processes.findOnscreenTerminalPid.getD 255) = a at h
  simp only at h
  split at h
  · next hf => exact ⟨hf, createTerminal_gone hc hcur onscreen_inUse ha.symm h⟩
  · split at h
    · cases h
    · split at h <;> cases h

end Switch

/-! ## `pit_handler` -/

section Pit
variable {k k' : Kernel} {e : Entry}

/-- What a tick makes of the processes when slot `c` is interrupted and slot `q` is next. -/
def Processes.switchTo (P : Processes) (c q : ℕ) (e : Entry) : Processes :=
  let P := P.setInfo c (Info.saveRegs e.regs)
  (P.setEsp0 (stackTop ((P.info q).processId % 256) - 4)).doSchedule (getPcbPtr q) (P.info q).scheduleEbp e.eax

theorem loadNext_processes (k : Kernel) (curr next : ℕ) :
    (k.loadNext curr next).processes =
      k.processes.setEsp0 (stackTop ((k.pcb next).processId % 256) - 4) := by
  unfold Kernel.loadNext
  simp only
  rw [Kernel.processes_setAttrib]
  split
  · unfold Kernel.updateCursor
    rw [Kernel.processes_withConsole, Kernel.processes_switchCursor, Kernel.processes_setVideo,
      Kernel.processes_setTss, Kernel.processes_setPagerDirEntry]
    rfl
  · rw [Kernel.processes_switchCursor, Kernel.processes_setVideo, Kernel.processes_setTss,
      Kernel.processes_setPagerDirEntry]
    rfl

end Pit

/-! ## `handle_keyboard` -/

section Keyboard
variable {img : Image} {fs : Filesystem} {k k' : Kernel} {e : Entry}

/-- The terminal a scan code asks for, if it is handled. -/
def Kernel.requests (k : Kernel) (temp : ℕ) : Option ℕ :=
  if k.keys.handled temp then (k.keys.press temp).requestedTerminal temp else none

theorem KeyState.requestedTerminal_lt {s : KeyState} {temp t : ℕ} (h : s.requestedTerminal temp = some t) :
    t < 3 := by
  unfold requestedTerminal at h
  split at h
  · next hc =>
    simp only [Option.some.injEq] at h
    omega
  · cases h

theorem Kernel.requests_lt {temp t : ℕ} (h : k.requests temp = some t) : t < 3 := by
  unfold requests at h
  split at h
  · exact KeyState.requestedTerminal_lt h
  · cases h

theorem processes_acceptChar (k : Kernel) (t : ℕ) (c : UInt8) :
    (k.acceptChar t c).processes = k.processes := by
  unfold Kernel.acceptChar Kernel.delc Kernel.puts Kernel.putc
  simp only
  repeat' split
  all_goals simp only [Kernel.processes_setKeyboard, Kernel.processes_withConsole]

theorem combination_cases (temp : ℕ) :
    (k.keys.requestedTerminal temp = none ∧
      ∃ k₁, combination img fs k e temp = .ret 0 k₁ ∧ k₁.processes = k.processes) ∨
    ∃ t, k.keys.requestedTerminal temp = some t ∧
      ((∃ r k₁ k₂, switchTerminal img fs k e t = .ret r k₁ ∧ combination img fs k e temp = .ret 0 k₂ ∧
        k₂.processes = k₁.processes) ∨
      (∃ k₁, switchTerminal img fs k e t = .gone k₁ ∧ combination img fs k e temp = .gone k₁) ∨
      ∃ k₁, switchTerminal img fs k e t = .fault k₁ ∧ combination img fs k e temp = .fault k₁) := by
  unfold combination
  cases hr : k.keys.requestedTerminal temp with
  | none =>
    refine Or.inl ⟨rfl, _, rfl, ?_⟩
    split
    · unfold Kernel.clearScreen
      rw [Kernel.processes_withConsole]
    · rfl
  | some t =>
    refine Or.inr ⟨t, rfl, ?_⟩
    cases hs : switchTerminal img fs k e t with
    | ret r k₁ =>
      simp only [hs]
      refine Or.inl ⟨r, k₁, _, rfl, rfl, ?_⟩
      split
      · unfold Kernel.printf
        rw [Kernel.processes_withConsole]
      · rfl
    | gone k₁ =>
      simp only [hs]
      exact Or.inr (Or.inl ⟨k₁, rfl, rfl⟩)
    | fault k₁ =>
      simp only [hs]
      exact Or.inr (Or.inr ⟨k₁, rfl, rfl⟩)

theorem borrowScreen_processes (k : Kernel) (t : TerminalInfo) (curr : ℕ) :
    (k.borrowScreen t curr).processes = k.processes ∧ (k.borrowScreen t curr).keys = k.keys := by
  unfold Kernel.borrowScreen Kernel.updateCursor
  split
  · exact ⟨by simp only [Kernel.processes_withConsole, Kernel.processes_switchCursor,
      Kernel.processes_setVideo], rfl⟩
  · exact ⟨rfl, rfl⟩

theorem returnScreen_processes (k : Kernel) (oldPage : ℕ) (t : TerminalInfo) (curr : ℕ) :
    (k.returnScreen oldPage t curr).processes = k.processes := by
  unfold Kernel.returnScreen Kernel.updateCursor
  split
  · simp only [Kernel.processes_withConsole, Kernel.processes_switchCursor, Kernel.processes_setVideo]
  · rfl

theorem handleScanCode_cases (curr temp : ℕ) :
    (k.requests temp = none ∧ ∃ k₁, handleScanCode img fs k e curr temp = .ret 0 k₁ ∧ k₁.processes = k.processes) ∨
    ∃ t k₀, k.requests temp = some t ∧ k₀.processes = k.processes ∧
      ((∃ r k₁ k₂, switchTerminal img fs k₀ e t = .ret r k₁ ∧
        handleScanCode img fs k e curr temp = .ret 0 k₂ ∧ k₂.processes = k₁.processes) ∨
      (∃ k₁, switchTerminal img fs k₀ e t = .gone k₁ ∧ handleScanCode img fs k e curr temp = .gone k₁) ∨
      ∃ k₁, switchTerminal img fs k₀ e t = .fault k₁ ∧ handleScanCode img fs k e curr temp = .fault k₁) := by
  unfold handleScanCode Kernel.requests
  cases hh : k.keys.handled temp with
  | false => exact Or.inl ⟨rfl, _, rfl, rfl⟩
  | true =>
    simp only [if_true]
    have hkeys : ({ k with keys := k.keys.press temp } : Kernel).processes = k.processes := rfl
    have hreq : ({ k with keys := k.keys.press temp } : Kernel).keys = k.keys.press temp := rfl
    generalize ({ k with keys := k.keys.press temp } : Kernel) = k₀ at hkeys hreq
    rcases @combination_cases img fs k₀ e temp with
      ⟨hnone, k₁, hc, hp⟩ | ⟨t, ht, hsw⟩
    · rw [hreq] at hnone
      refine Or.inl ⟨hnone, _, by rw [hc], ?_⟩
      exact (processes_acceptChar _ _ _).trans (hp.trans hkeys)
    · rw [hreq] at ht
      refine Or.inr ⟨t, k₀, ht, hkeys, ?_⟩
      rcases hsw with ⟨r, k₁, k₂, hs, hc, hp⟩ | ⟨k₁, hs, hc⟩ | ⟨k₁, hs, hc⟩
      · exact Or.inl ⟨r, k₁, (k₂.acceptChar curr (k₂.keys.currentChar temp)).setOldData temp, hs,
          by rw [hc], (processes_acceptChar _ _ _).trans hp⟩
      · exact Or.inr (Or.inl ⟨k₁, hs, by rw [hc]⟩)
      · exact Or.inr (Or.inr ⟨k₁, hs, by rw [hc]⟩)

/-- **A keystroke**: it leaves the processes alone, or it is a terminal switch. -/
theorem handleKeyboard_cases (temp : ℕ) :
    ((k.requests temp = none ∨ k.processes.findOnscreenTerminalNum = none) ∧
      ∃ k₁, handleKeyboard img fs k e temp = .ret 0 k₁ ∧ k₁.processes = k.processes) ∨
    ∃ t k₀, k.requests temp = some t ∧ k.processes.findOnscreenTerminalNum ≠ none ∧
      k₀.processes = k.processes ∧
      ((∃ r k₁ k₂, switchTerminal img fs k₀ e t = .ret r k₁ ∧
        handleKeyboard img fs k e temp = .ret 0 k₂ ∧ k₂.processes = k₁.processes) ∨
      (∃ k₁, switchTerminal img fs k₀ e t = .gone k₁ ∧ handleKeyboard img fs k e temp = .gone k₁) ∨
      ∃ k₁, switchTerminal img fs k₀ e t = .fault k₁ ∧ handleKeyboard img fs k e temp = .fault k₁) := by
  unfold handleKeyboard
  rw [Kernel.processes_findOnscreenTerminalNum]
  cases hnum : k.findOnscreenTerminalNum with
  | none => exact Or.inl ⟨Or.inr rfl, _, rfl, Kernel.processes_setAttrib _ _⟩
  | some curr =>
    simp only
    have hk : (k.setAttrib (color ((some curr).getD 255))).processes = k.processes :=
      Kernel.processes_setAttrib _ _
    have hkeys : (k.setAttrib (color ((some curr).getD 255))).keys = k.keys := rfl
    generalize k.setAttrib (color ((some curr).getD 255)) = k₀ at hk hkeys
    generalize getPcb k₀.cpu.esp = self
    generalize hb : k₀.borrowScreen (k₀.pcb self).terminalInfo curr = k₁
    have hk₁ : k₁.processes = k.processes ∧ k₁.keys = k.keys := by
      obtain ⟨hp, hs⟩ := borrowScreen_processes k₀ (k₀.pcb self).terminalInfo curr
      rw [hb] at hp hs
      exact ⟨hp.trans hk, hs.trans hkeys⟩
    have hreq : k₁.requests temp = k.requests temp := by
      unfold Kernel.requests
      rw [hk₁.2]
    rcases @handleScanCode_cases img fs k₁ e curr temp with
      ⟨hnone, k₂, hc, hp⟩ | ⟨t, k₂, ht, hp, hsw⟩
    · rw [hreq] at hnone
      refine Or.inl ⟨Or.inl hnone, _, by rw [hc], ?_⟩
      exact (returnScreen_processes _ _ _ _).trans (hp.trans hk₁.1)
    · refine Or.inr ⟨t, k₂, hreq ▸ ht, by simp, hp.trans hk₁.1, ?_⟩
      rcases hsw with ⟨r, k₃, k₄, hs, hc, hp'⟩ | ⟨k₃, hs, hc⟩ | ⟨k₃, hs, hc⟩
      · exact Or.inl ⟨r, k₃, _, hs, by rw [hc], (returnScreen_processes _ _ _ _).trans hp'⟩
      · exact Or.inr (Or.inl ⟨k₃, hs, by rw [hc]⟩)
      · exact Or.inr (Or.inr ⟨k₃, hs, by rw [hc]⟩)

end Keyboard

/-! ## `halt` -/

section Halt
variable {img : Image} {fs : Filesystem} {k k' : Kernel} {e : Entry} {caller : Cpu} {status c : ℕ}

theorem slot_info (hc : c < maxProcesses) : (k.pcb (getPcbPtr c)).info = k.processes.info c :=
  (k.processes_info hc).symm

/-- The exit of a process without a parent: its slot is freed and the shell executed again. -/
theorem halt_root (hc : c < maxProcesses) (hcur : getPcb k.cpu.esp = getPcbPtr c)
    (h0 : (k.processes.info c).parent = 0) :
    halt img fs k e caller status =
      (execute img fs (k.freeProcess (k.processes.info c).processId) e caller shell).reexecuted := by
  have hparent : (k.pcb (getPcb k.cpu.esp)).parent = 0 := by
    rw [hcur, ← Pcb.info_parent, slot_info hc, h0]
  have hid : (k.pcb (getPcb k.cpu.esp)).processId = (k.processes.info c).processId := by
    rw [hcur, ← Pcb.info_processId, slot_info hc]
  unfold halt
  simp only
  rw [if_pos hparent, hid]

theorem Kernel.deactivate_processes (hc : c < maxProcesses) :
    (k.setPcb (getPcbPtr c) fun p => { p with isActive := 0 }).processes =
      k.processes.setInfo c (Info.setActive 0) := k.processes_setPcb hc fun _ => rfl

theorem halt_cross {q : ℕ} (hc : c < maxProcesses) (hq : q < maxProcesses)
    (hcur : getPcb k.cpu.esp = getPcbPtr c) (hpar : (k.processes.info c).parent = getPcbPtr q)
    (hterm : (k.processes.info q).terminalNum ≠ (k.processes.info c).terminalNum) :
    ∃ k₁ : Kernel, k₁ = (k.setPcb (getPcbPtr c) fun p => { p with isActive := 0 }) ∧
      k₁.processes = k.processes.setInfo c (Info.setActive 0) ∧
      halt img fs k e caller status = (switchTerminal img fs k₁ e 0).thenSpin (getPcbPtr c) := by
  have hparent : (k.pcb (getPcb k.cpu.esp)).parent = getPcbPtr q := by
    rw [hcur, ← Pcb.info_parent, slot_info hc, hpar]
  have hview := k.deactivate_processes hc
  refine ⟨_, rfl, hview, ?_⟩
  unfold halt
  simp only
  rw [hparent, if_neg (getPcbPtr_ne_zero hq), hcur]
  generalize (k.setPcb (getPcbPtr c) fun p => { p with isActive := 0 }) = k₁ at hview
  rw [if_pos]
  rw [← Pcb.info_terminalNum, ← Pcb.info_terminalNum, slot_info hq, slot_info hc, hview,
    Processes.setInfo_field _ Info.terminalNum _ _ (Info.setActive 0) fun _ => rfl,
    Processes.setInfo_field _ Info.terminalNum _ _ (Info.setActive 0) fun _ => rfl]
  exact hterm

theorem Kernel.handBack_processes {q : ℕ} (hc : c < maxProcesses) (hq : q < maxProcesses) :
    (k.handBack (getPcbPtr c) (getPcbPtr q)).processes = k.processes.handBack c q := by
  unfold handBack
  simp only
  have h₁ := k.processes_setPcb (f := fun p => { p with isActive := 1 }) (g := Info.setActive 1) hq
    fun _ => rfl
  generalize (k.setPcb (getPcbPtr q) fun p => { p with isActive := 1 }) = k₁ at h₁ ⊢
  have ho : (k₁.pcb (getPcbPtr c)).terminalInfo.isOnscreen = (k₁.processes.info c).isOnscreen := by
    rw [← Pcb.info_isOnscreen, slot_info hc]
  rw [ho]
  have h₂ := k₁.processes_setOnscreen hq (k₁.processes.info c).isOnscreen
  generalize (k₁.setTerminal (getPcbPtr q) fun t =>
    { t with isOnscreen := (k₁.processes.info c).isOnscreen }) = k₂ at h₂ ⊢
  have h₃ := k₂.processes_setOnscreen hc 0
  generalize (k₂.setTerminal (getPcbPtr c) fun t => { t with isOnscreen := 0 }) = k₃ at h₃ ⊢
  have hid : (k₃.pcb (getPcbPtr c)).processId = (k₃.processes.info c).processId := by
    rw [← Pcb.info_processId, slot_info hc]
  have hesp : (k₃.pcb (getPcbPtr q)).esp0 = (k₃.processes.info q).esp0 := by
    rw [← Pcb.info_esp0, slot_info hq]
  have hpcb : ∀ a p, ((k₃.freeProcess p).setPagerDirEntry a).pcb = k₃.pcb := fun _ _ => rfl
  rw [hpcb, processes_setTss, processes_setPagerDirEntry, processes_freeProcess, hid, hesp, h₃, h₂, h₁]
  rfl

theorem handBack_haltEbp (P : Processes) (c q r : ℕ) :
    ((P.handBack c q).info r).haltEbp = (P.info r).haltEbp := by
  unfold Processes.handBack
  simp only [Processes.release, Processes.setEsp0]
  rw [Processes.setInfo_field _ Info.haltEbp _ _ (Info.setOnscreen 0) fun _ => rfl,
    Processes.setInfo_field _ Info.haltEbp _ _ (Info.setOnscreen _) fun _ => rfl,
    Processes.setInfo_field _ Info.haltEbp _ _ (Info.setActive 1) fun _ => rfl]

theorem halt_same {q : ℕ} (hc : c < maxProcesses) (hq : q < maxProcesses)
    (hcur : getPcb k.cpu.esp = getPcbPtr c) (hpar : (k.processes.info c).parent = getPcbPtr q)
    (hterm : (k.processes.info q).terminalNum = (k.processes.info c).terminalNum) :
    ∃ k' : Kernel, halt img fs k e caller status = .gone k' ∧
      k'.processes = ((k.processes.setInfo c (Info.setActive 0)).handBack c q).haltProcess status
        (k.processes.info c).haltEbp := by
  have hparent : (k.pcb (getPcb k.cpu.esp)).parent = getPcbPtr q := by
    rw [hcur, ← Pcb.info_parent, slot_info hc, hpar]
  have hview := k.deactivate_processes hc
  unfold halt
  simp only
  rw [hparent, if_neg (getPcbPtr_ne_zero hq), hcur]
  generalize (k.setPcb (getPcbPtr c) fun p => { p with isActive := 0 }) = k₁ at hview ⊢
  rw [if_neg]
  · refine ⟨_, rfl, ?_⟩
    have hback := k₁.handBack_processes hc hq
    rw [Kernel.processes_haltProcess, ← Pcb.info_haltEbp, slot_info hc, hback, hview]
    rw [handBack_haltEbp, Processes.setInfo_field _ Info.haltEbp _ _ (Info.setActive 0) fun _ => rfl]
  · rw [← Pcb.info_terminalNum, ← Pcb.info_terminalNum, slot_info hq, slot_info hc, hview,
      Processes.setInfo_field _ Info.terminalNum _ _ (Info.setActive 0) fun _ => rfl,
      Processes.setInfo_field _ Info.terminalNum _ _ (Info.setActive 0) fun _ => rfl]
    exact not_not.mpr hterm

end Halt
end Kernel391
