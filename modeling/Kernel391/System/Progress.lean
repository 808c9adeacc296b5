import Kernel391.System.LineFrame
import Kernel391.System.MoveEffects

/-! Events that can happen. An entry a little below the top of the stack in use always
fits, and from a state that represents the stacks each keystroke, tick and system call
has the outcome its stacks call for. -/
namespace Kernel391
open Kernel391.Foundations
set_option autoImplicit false

/-- The stack in use has room for an entry. -/
def Roomy (k : Kernel) (c : ℕ) : Prop := stackTop c ≤ k.entryEsp + 1024

def Kernel.entry (k : Kernel) (nested : ℕ) : Entry := Entry.below k.entryEsp nested

theorem Processes.FirstFree.unique {P : Processes} {p q : ℕ} (hp : P.FirstFree p) (hq : P.FirstFree q) : p = q := by
  by_contra hne
  rcases Nat.lt_or_gt_of_ne hne with hlt | hlt
  · exact hq.least p hlt hp.free
  · exact hp.least q hlt hq.free

section Entry
variable {k : Kernel} {S : Stacks} {c n : ℕ}

theorem fits_entry (h : At k.processes S c) (hroom : Roomy k c) (hn : n < 192) : k.fits (k.entry n) = true := by
  have htop := entryEsp_le h
  have hcur := current_eq h
  have hc := h.lt
  unfold Roomy at hroom
  unfold Kernel.fits Kernel.onStack Kernel.entry Entry.below
  simp only [decide_eq_true_eq, hcur, getPcb_slot hc]
  simp only [getPcbPtr_eq hc, pcbBytes, calleeBytes, stackTop, maxProcesses, eightMb, eightKb] at *
  omega

theorem roomToLoad_entry (h : At k.processes S c) (hroom : Roomy k c) : k.roomToLoad (k.entry n) = true := by
  have htop := entryEsp_le h
  have hcur := current_eq h
  have hc := h.lt
  unfold Roomy at hroom
  unfold Kernel.roomToLoad Kernel.entry Entry.below
  simp only [decide_eq_true_eq, hcur, getPcbPtr_eq hc, pcbBytes, calleeBytes, inodeBytes, bytesPerBlock]
  simp only [stackTop, maxProcesses, eightMb, eightKb] at *
  omega

theorem roomFor_entry {command : List UInt8} (h : At k.processes S c) (hroom : Roomy k c)
    (hn : strlen command + n ≤ 286) : k.roomFor (k.entry n) command = true := by
  refine decide_eq_true ⟨?_, roomToLoad_entry h hroom⟩
  have htop := entryEsp_le h
  have hc := h.lt
  unfold Roomy at hroom
  unfold Kernel.entry Entry.below
  simp only [stackTop, maxProcesses, eightMb, eightKb] at *
  omega

theorem roomy_user (h : At k.processes S c) (hm : k.cpu.mode = .user) : Roomy k c := by
  have hesp0 : k.tss.esp0 = stackTop c - 4 ∨ k.tss.esp0 = stackTop c := h.onSlot.esp0
  unfold Roomy Kernel.entryEsp
  rw [hm]
  simp only
  omega

end Entry

/-! ## What keystrokes lead to -/

section Keys
variable {img : Image} {fs : Filesystem} {k : Kernel} {S : Stacks} {c t p q scanCode : ℕ} {l : List ℕ} {e : Entry}

theorem handled_of_requests (h : k.requests scanCode = some t) : k.keys.handled scanCode = true := by
  unfold Kernel.requests at h
  split at h
  · next hh => exact hh
  · cases h

theorem step_key (hm : k.cpu.mode ≠ .wild) (hf : k.fits e = true) (hsc : scanCode < 256)
    (hroom : k.requests scanCode = none ∨ k.roomToLoad e = true) :
    step img fs k (.key e scanCode) =
      some ((handleKeyboard img fs (k.interrupted e) e scanCode).afterInterrupt img fs e k.cpu) :=
  if_pos ⟨hm, hf, hsc, hroom⟩

theorem onscreenNum_interrupted (h : At k.processes S c) (hf : k.fits e = true) :
    (k.interrupted e).findOnscreenTerminalNum ≠ none := by
  have he := entered_interrupt h (entryOn_of_fits h hf).1
  rw [← Kernel.processes_findOnscreenTerminalNum]
  exact onscreenNum_some (h.table_entered he) (h.shown_entered he)

theorem key_typed (h : At k.processes S c) (hm : k.cpu.mode ≠ .wild) (hf : k.fits e = true) (hsc : scanCode < 256)
    (hreq : k.requests scanCode = none) (hh : k.keys.handled scanCode = true) :
    ∃ k' k₁, step img fs k (.key e scanCode) = some k' ∧
      handleKeyboard img fs (k.interrupted e) e scanCode = .ret 0 k₁ ∧
      k' = k₁.resume k.cpu ∧ k'.processes = (k.preempted e).resume k.cpu ∧
      At k'.processes S c ∧ k'.keys = { k.keys.press scanCode with oldData := scanCode } := by
  have hent := (entryOn_of_fits h hf).1
  have he := entered_interrupt h hent
  have hon := onscreenNum_interrupted h hf
  have hreq' : (k.interrupted e).requests scanCode = none := hreq
  rcases @handleKeyboard_cases img fs (k.interrupted e) e scanCode with ⟨-, k₁, hret, hview⟩ | ⟨t, -, hx, -⟩
  · have hres : (k₁.resume k.cpu).processes = (k.preempted e).resume k.cpu := congrArg (Processes.resume · k.cpu) hview
    have hkeys : k₁.keys = { k.keys.press scanCode with oldData := scanCode } := (keys_handleKeyboard hon hh).1 0 hret
    refine ⟨k₁.resume k.cpu, k₁, ?_, hret, rfl, hres, ?_, hkeys⟩
    · rw [step_key hm hf hsc (Or.inl hreq), hret]
      rfl
    · rw [hres]
      exact h.back (h.table_entered he) (h.contexts_entered he c) (h.shown_entered he) he.ids he.esp0
  · rw [hreq'] at hx
    cases hx

variable (boot : img.Bootable) (h : At k.processes S c)
include boot h

theorem key_shows (hm : k.cpu.mode ≠ .wild) (hf : k.fits e = true) (hsc : scanCode < 256)
    (hroom : k.roomToLoad e = true) (hreq : k.requests scanCode = some t) (hS : S t = q :: l) :
    ∃ k' k₁, step img (Image.WellFormed.pointers img) k (.key e scanCode) = some k' ∧
      handleKeyboard img (Image.WellFormed.pointers img) (k.interrupted e) e scanCode = .ret 0 k₁ ∧
        k' = k₁.resume k.cpu ∧
      k'.processes = ((k.preempted e).display ((k.preempted e).onscreen q) q).resume k.cpu ∧ At k'.processes S c ∧
      k'.keys = { k.keys.press scanCode with oldData := scanCode } := by
  have hs := @step_key img (Image.WellFormed.pointers img) k scanCode e hm hf hsc (Or.inr hroom)
  obtain ⟨S', c', hmove, hat⟩ := step_follows boot h hs
  have hon := onscreenNum_interrupted h hf
  generalize ((handleKeyboard img (Image.WellFormed.pointers img) (k.interrupted e) e scanCode).afterInterrupt img
    (Image.WellFormed.pointers img) e k.cpu) = k' at *
  cases hmove with
  | stay quiet => cases hS.symm.trans (quiet.key e scanCode t rfl hreq).1
  | @display _ _ _ _ _ k₁ entered request stack ret resume view =>
    obtain rfl : t = _ := Option.some.inj (hreq.symm.trans request)
    obtain ⟨rfl, rfl⟩ := List.cons.inj (hS.symm.trans stack)
    have hkeys : k₁.keys = { k.keys.press scanCode with oldData := scanCode } :=
      (keys_handleKeyboard hon (handled_of_requests hreq)).1 0 ret
    refine ⟨k', _, hs, ret, resume, view, hat.resolve_left fun hw => ?_, ?_⟩
    · rw [resume] at hw
      exact hm hw
    · rw [resume]
      exact hkeys
  | create entered entry request stack =>
    obtain rfl : t = _ := Option.some.inj (hreq.symm.trans request)
    cases hS.symm.trans stack
  | pop entered ending => cases ending
  | restart entered ending => cases ending
  | close entered ending => cases ending
  | lost entered ending => cases ending

theorem key_creates (hm : k.cpu.mode ≠ .wild) (hf : k.fits e = true) (hsc : scanCode < 256)
    (hroom : k.roomToLoad e = true) (hreq : k.requests scanCode = some t) (hS : S t = [])
    (hp : k.processes.FirstFree p) :
    ∃ k' eip, step img (Image.WellFormed.pointers img) k (.key e scanCode) = some k' ∧
      handleKeyboard img (Image.WellFormed.pointers img) (k.interrupted e) e scanCode = .gone k' ∧
      k'.processes = (k.preempted e).create c ((k.preempted e).onscreen c) p t e eip ∧
      At k'.processes (Function.update S t [p]) p ∧ k'.keys = k.keys.press scanCode := by
  have hs := @step_key img (Image.WellFormed.pointers img) k scanCode e hm hf hsc (Or.inr hroom)
  obtain ⟨S', c', hmove, hat⟩ := step_follows boot h hs
  have hon := onscreenNum_interrupted h hf
  generalize ((handleKeyboard img (Image.WellFormed.pointers img) (k.interrupted e) e scanCode).afterInterrupt img
    (Image.WellFormed.pointers img) e k.cpu) = k' at *
  cases hmove with
  | stay quiet => exact absurd hp.free ((quiet.key e scanCode t rfl hreq).2 p hp.lt)
  | display entered request stack =>
    obtain rfl : t = _ := Option.some.inj (hreq.symm.trans request)
    cases hS.symm.trans stack
  | create entered entry request stack slot gone view =>
    obtain rfl : t = _ := Option.some.inj (hreq.symm.trans request)
    obtain rfl := slot.unique hp
    refine ⟨k', _, hs, gone, view, hat.resolve_left fun hw => ?_,
      (keys_handleKeyboard hon (handled_of_requests hreq)).2 gone⟩
    have hmode := congrArg (fun P => P.cpu.mode) view
    rw [show k'.processes.cpu.mode = .wild from hw] at hmode
    cases hmode
  | pop entered ending => cases ending
  | restart entered ending => cases ending
  | close entered ending => cases ending
  | lost entered ending => cases ending

end Keys
/-! ## The screen flag -/

/-- Slot `p` alone is on screen among the slots in use. -/
structure Processes.OnlyShown (P : Processes) (p : ℕ) : Prop where
  used : P.ids p ≠ 0
  shown : (P.info p).isOnscreen ≠ 0
  only : ∀ q, P.ids q ≠ 0 → (P.info q).isOnscreen ≠ 0 → q = p

namespace Processes.OnlyShown
variable {P P' : Processes} {c o p q t eip : ℕ} {e : Entry}

theorem flags (h : P.OnlyShown p) (hids : P'.ids = P.ids) (hon : ∀ q, (P'.info q).isOnscreen = (P.info q).isOnscreen) :
    P'.OnlyShown p where
  used := by
    rw [hids]
    exact h.used
  shown := by
    rw [hon]
    exact h.shown
  only q hu hs := by
    rw [hids] at hu
    rw [hon] at hs
    exact h.only q hu hs

theorem congr (h : P.OnlyShown p) (hids : P'.ids = P.ids) (hinfo : P'.info = P.info) : P'.OnlyShown p :=
  h.flags hids fun _ => by rw [hinfo]

theorem resume (h : P.OnlyShown p) (x : Cpu) : (P.resume x).OnlyShown p := h.congr rfl rfl

theorem preempted {k : Kernel} (h : k.processes.OnlyShown p) (e : Entry) :
    (k.preempted e).OnlyShown p := h.congr rfl rfl

theorem onscreen (h : P.OnlyShown p) (hp : p < maxProcesses) : P.onscreen c = p := by
  unfold Processes.onscreen
  cases hf : P.findOnscreenTerminalPid with
  | none =>
    unfold Processes.findOnscreenTerminalPid at hf
    rw [List.find?_eq_none] at hf
    exact absurd (decide_eq_true ⟨h.used, h.shown⟩) (hf p (List.mem_range.mpr hp))
  | some q =>
    have hq := List.find?_some hf
    simp only [decide_eq_true_eq] at hq
    exact h.only q hq.1 hq.2

theorem create (h : P.OnlyShown o) : (P.create c o p t e eip).OnlyShown p where
  used := used_self P.ids p
  shown := by
    rw [Processes.create_info, if_pos rfl]
    exact Nat.one_ne_zero
  only q hu hs := by
    by_contra hqp
    rw [Processes.create_info, if_neg hqp] at hs
    have hu' : P.ids q ≠ 0 := by
      rwa [show (P.create c o p t e eip).ids q = P.ids q from Function.update_of_ne hqp _ _] at hu
    split at hs
    · exact hs rfl
    · next hqo => exact hqo (Or.inr (h.only q hu' hs))

theorem display (h : P.OnlyShown o) (hq : P.ids q ≠ 0) : (P.display o q).OnlyShown q where
  used := hq
  shown := by
    unfold Processes.display
    rw [Processes.setInfo_self]
    exact Nat.one_ne_zero
  only r hu hs := by
    by_contra hrq
    unfold Processes.display at hs
    rw [Processes.setInfo_ne _ hrq] at hs
    by_cases hro : r = o
    · rw [hro, Processes.setInfo_self] at hs
      exact hs rfl
    · rw [Processes.setInfo_ne _ hro] at hs
      exact hro (h.only r hu hs)

end Processes.OnlyShown

theorem started_onlyShown {img : Image} {fs : Filesystem} {k : Kernel} (h : Started img fs k) :
    k.processes.OnlyShown 0 := by
  obtain ⟨k₀, e, eip, hb, -, -, -, -, hview⟩ := started_start h
  rw [hview]
  refine ⟨used_self (k₀.enter e.regs.esp).processes.ids 0, ?_, fun q hu hs => ?_⟩
  · rw [Processes.start_info, if_pos rfl]
    exact Nat.one_ne_zero
  · by_contra hq0
    refine hu ((Function.update_of_ne hq0 _ _).trans (hb.processIds q))

/-! ## What system calls and ticks lead to -/

section Calls
variable {img : Image} {fs : Filesystem} {k : Kernel} {S : Stacks} {c t p q y status : ℕ} {l : List ℕ} {e : Entry}

theorem step_halt (hm : k.cpu.mode = .user) (hf : k.fits e = true) (hst : status < 256)
    (hroom : k.roomFor e shell = true) :
    step img fs k (.halt e status) = some ((halt img fs (k.enter e.regs.esp) e k.cpu status).afterHalt k.cpu) :=
  if_pos ⟨hm, hf, hst, hroom⟩

theorem step_execute {command : List UInt8} (hm : k.cpu.mode = .user) (hf : k.fits e = true)
    (hroom : k.roomFor e command = true)
    (hleaves : (execute img fs (k.enter e.regs.esp) e k.cpu command).leavesRoom k = true) :
    step img fs k (.execute e command) =
      some ((execute img fs (k.enter e.regs.esp) e k.cpu command).afterCall img fs e k.cpu) :=
  if_pos ⟨hm, hf, hroom, hleaves⟩

theorem step_tick (hm : k.cpu.mode ≠ .wild) (hf : k.fits e = true) (hent : e.handler = e.regs.ebp) :
    step img fs k (.tick e) = some ((pitHandler (k.interrupted e) e).afterInterrupt img fs e k.cpu) :=
  if_pos ⟨hm, hf, hent⟩

variable (boot : img.Bootable) (h : At k.processes S c)
include boot h

theorem halt_spins (hm : k.cpu.mode = .user) (hf : k.fits e = true) (hst : status < 256)
    (hroom : k.roomFor e shell = true) (hS : S t = [c]) (ht : t ≠ 0)
    (hpar : (k.processes.info c).parent = getPcbPtr y) (hy : y < maxProcesses)
    (helse : (k.processes.info y).terminalNum ≠ t)
    (hS0 : S 0 = q :: l) :
    ∃ k' x, step img (Image.WellFormed.pointers img) k (.halt e status) = some k' ∧ x.mode = .spin ∧
      x.esp = e.regs.esp ∧
      k'.processes = ((k.called e).exitToSpin c ((k.called e).onscreen q) q).resume x ∧
      At k'.processes (Function.update S t []) c := by
  have hs := @step_halt img (Image.WellFormed.pointers img) k status e hm hf hst hroom
  obtain ⟨S', c', hmove, hat⟩ := step_follows boot h hs
  generalize ((halt img (Image.WellFormed.pointers img) (k.enter e.regs.esp) e k.cpu status).afterHalt k.cpu) = k' at *
  have hmem : c ∈ S t := by
    rw [hS]
    exact List.mem_cons_self ..
  have hterminal : ∀ {u : ℕ} {l' : List ℕ}, S u = c :: l' → u = t := fun hu =>
    h.table.apart.disjoint (by rw [hu]; exact List.mem_cons_self ..) hmem
  cases hmove with
  | stay quiet => exact absurd (Ending.halt e status) (quiet.going _ _ _)
  | pop entered ending before leak stack =>
    rw [hterminal stack, hS] at stack
    cases stack
  | restart entered ending before leak stack => exact absurd (hterminal stack).symm ht
  | close entered ending before leak stack other parent elsewhere first spin gone view =>
    obtain rfl := hterminal stack
    cases ending
    obtain ⟨rfl, rfl⟩ := List.cons.inj (hS0.symm.trans first)
    rw [← before] at view
    refine ⟨k', _, hs, spin.1, spin.2, view, hat.resolve_left fun hw => ?_⟩
    have hmode := congrArg (fun P => P.cpu.mode) view
    rw [show k'.processes.cpu.mode = .wild from hw] at hmode
    exact absurd (hmode.trans spin.1) (by decide)
  | lost entered ending before leak stack other parent same =>
    obtain rfl := hterminal stack
    rw [(getPcbPtr_inj parent.1 hy).mp (parent.2.symm.trans hpar)] at same
    exact absurd same helse

end Calls

theorem firstShell_waits : firstShell.cpu.mode = .user ∧ firstShell.keys = ⟨0, 0, 0, 0, 0, 3⟩ := by
  decide +kernel

/-! ## A shell in the same terminal -/

/-- The outcome of `execute` right below the stack pointer. -/
def Kernel.executes (k : Kernel) (command : List UInt8) : Outcome :=
  execute Image.small (Image.WellFormed.pointers Image.small) (k.enter (k.entry 64).regs.esp) (k.entry 64) k.cpu command

theorem step_executes {k : Kernel} {command : List UInt8} (hm : k.cpu.mode = .user) (hf : k.fits (k.entry 64) = true)
    (hroom : k.roomFor (k.entry 64) command = true) (hgone : (k.executes command).isGone = true) :
    step Image.small (Image.WellFormed.pointers Image.small) k (.execute (k.entry 64) command) =
      some (k.executes command).kernel := by
  have ho := Outcome.eq_gone hgone
  unfold Kernel.executes at ho ⊢
  rw [step_execute hm hf hroom (by rw [ho]; rfl), ho]
  rfl

end Kernel391
