import Kernel391.Console.CursorPath
import Kernel391.Foundations.TimeShared
import Kernel391.System.Keystroke
import Kernel391.System.Progress

/-! The screen and the cursor as the running process and the terminal shown have them in
turn: what a tick and a keystroke hand on, and what they leave alone. -/
namespace Kernel391
open Kernel391.Foundations
set_option autoImplicit false

/-- The live cursor, and the cursors saved for the terminals. -/
def Kernel.cursors (k : Kernel) : TimeShared ℕ CursorPos := ⟨k.cursor, ⟨k.screenX, k.screenY⟩⟩

/-- The terminal of the process on the processor. -/
def Kernel.terminal (k : Kernel) : TerminalInfo := (k.pcb k.current).terminalInfo

namespace Kernel
variable (k : Kernel)

theorem cursors_switchCursor (a b : ℕ) : (k.switchCursor a b).cursors = k.cursors.handOn a b := rfl

theorem cursors_updateCursor : k.updateCursor.cursors = k.cursors := rfl

theorem cursors_withConsole (f : Console → Console) :
    (k.withConsole f).cursors = k.cursors.write (f k.console).cursorPos := rfl

theorem cursors_moved (page a b : ℕ) :
    ((k.setVideo page).switchCursor a b).updateCursor.cursors = k.cursors.handOn a b := rfl

theorem field_doSchedule {α : Type} (field : Kernel → α)
    (h : ∀ (k : Kernel) (x : Cpu), field { k with cpu := x } = field k)
    (next ebp eax : ℕ) : field (k.doSchedule next ebp eax) = field k := by
  unfold doSchedule goWild
  split
  · split
    · exact h k _
    · exact h k _
  · exact h k _
  · exact h k _

theorem cursors_loadNext (curr next : ℕ) : (k.loadNext curr next).cursors =
    k.cursors.handOn (k.pcb curr).terminalInfo.terminalNum (k.pcb next).terminalInfo.terminalNum := by
  have hattrib : ∀ (k : Kernel) (a : UInt8), (k.setAttrib a).cursors = k.cursors := fun _ _ => rfl
  unfold loadNext
  simp only [hattrib]
  split
  · rw [cursors_updateCursor, cursors_switchCursor]
    rfl
  · rw [cursors_switchCursor]
    rfl

theorem phys_loadNext (curr next x : ℕ) : (k.loadNext curr next).phys x = k.phys x := by
  unfold loadNext
  simp only
  split
  · exact phys_updateCursor _ x
  · rfl

/-- The kernel without text, cursors, line buffers and keys. -/
def core : Kernel :=
  { k with
    phys := fun _ => 0, screenX := 0, screenY := 0, cursor := fun _ => ⟨0, 0⟩
    keyboard := fun _ => ⟨fun _ => 0, 0, 0⟩, keys := ⟨0, 0, 0, 0, 0, 0⟩, ports := [] }

/-- The same with no frame that the next entry overwrites. -/
def settled : Kernel := { k.core with frames := k.clobber }

theorem core_setAttrib (a : UInt8) : (k.setAttrib a).core = k.core.setAttrib a := rfl
theorem core_setPagerDirEntry (a : ℕ) : (k.setPagerDirEntry a).core = k.core.setPagerDirEntry a := rfl
theorem core_setTss (a : ℕ) : (k.setTss a).core = k.core.setTss a := rfl
theorem core_setVideo (page : ℕ) : (k.setVideo page).core = k.core.setVideo page := rfl
theorem core_saveRegs (a : ℕ) (r : Regs) : (k.saveRegs a r).core = k.core.saveRegs a r := rfl
theorem core_resume (c : Cpu) : (k.resume c).core = k.core.resume c := rfl
theorem core_switchCursor (a b : ℕ) : (k.switchCursor a b).core = k.core := rfl
theorem core_updateCursor : k.updateCursor.core = k.core := rfl

theorem core_loadNext (curr next : ℕ) : (k.loadNext curr next).core =
    (((k.core.setPagerDirEntry (eightMb + fourMb * ((k.core.pcb next).processId % 256))).setTss
      (eightMb - eightKb * ((k.core.pcb next).processId % 256) - 4)).setVideo
        (videoPage (k.core.pcb next).terminalInfo)).setAttrib (color (k.core.pcb next).terminalInfo.terminalNum) := by
  unfold loadNext
  rw [show k.core.pcb = k.pcb from rfl]
  simp only [core_setAttrib]
  split
  · simp only [core_updateCursor, core_switchCursor, core_setVideo, core_setTss, core_setPagerDirEntry]
  · simp only [core_switchCursor, core_setVideo, core_setTss, core_setPagerDirEntry]

theorem core_pcb : k.core.pcb = k.pcb := rfl

theorem core_frameOf : k.core.frameOf video = k.frameOf video := rfl

theorem core_processIds : k.core.processIds = k.processIds := rfl

theorem pcb_loadNext (curr next : ℕ) : (k.loadNext curr next).pcb = k.pcb := by
  have hset : ∀ (k : Kernel) (a b page : ℕ) (x : UInt8),
      ((((k.setPagerDirEntry a).setTss b).setVideo page).setAttrib x).pcb = k.pcb := fun _ _ _ _ _ => rfl
  rw [← core_pcb, core_loadNext, hset, core_pcb]

theorem processIds_loadNext (curr next : ℕ) : (k.loadNext curr next).processIds = k.processIds := by
  have hset : ∀ (k : Kernel) (a b page : ℕ) (x : UInt8),
      ((((k.setPagerDirEntry a).setTss b).setVideo page).setAttrib x).processIds = k.processIds := fun _ _ _ _ _ => rfl
  rw [← core_processIds, core_loadNext, hset, core_processIds]

theorem core_doSchedule (next ebp eax : ℕ) : (k.doSchedule next ebp eax).core = k.core.doSchedule next ebp eax := by
  unfold doSchedule
  rw [show k.core.frames = k.frames from rfl]
  cases k.frames ebp with
  | interrupt x =>
    simp only
    split <;> rfl
  | _ => rfl

theorem clobber_idem (a : ℕ) :
    (if getPcb a = k.current ∧ a < k.tss.esp0 then .lost else k.clobber a) = k.clobber a := by
  unfold clobber
  split
  · rfl
  · rfl

theorem core_enter (esp : ℕ) : (k.enter esp).core = k.settled.enter esp := by
  have hframes : k.settled.clobber = k.clobber := funext fun a => k.clobber_idem a
  unfold enter
  rw [hframes]
  rfl

theorem core_interrupted (e : Entry) : (k.interrupted e).core = k.settled.interrupted e :=
  congrArg (fun k₁ : Kernel => k₁.setFrame e.handler (.interrupt k.cpu)) (k.core_enter e.regs.esp)

end Kernel
/-! ## A tick -/

section Tick
variable {img : Image} {fs : Filesystem} {k k' : Kernel} {S : Stacks} {c q : ℕ} {e : Entry}

/-- The kernel that a tick goes on with in the process of slot `q`. -/
def Kernel.ticked (k : Kernel) (e : Entry) (c q : ℕ) : Kernel :=
  (((k.interrupted e).saveRegs (getPcbPtr c) e.regs).loadNext (getPcbPtr c) (getPcbPtr q)).doSchedule (getPcbPtr q)
    (((k.interrupted e).saveRegs (getPcbPtr c) e.regs).pcb (getPcbPtr q)).scheduleEbp e.eax

theorem ticked_eq (k : Kernel) (e : Entry) (c q : ℕ) : k.ticked e c q =
    (((k.interrupted e).saveRegs (getPcbPtr c) e.regs).loadNext (getPcbPtr c) (getPcbPtr q)).doSchedule (getPcbPtr q)
      (((k.interrupted e).saveRegs (getPcbPtr c) e.regs).pcb (getPcbPtr q)).scheduleEbp e.eax := rfl

theorem tick_ticked (hc : c < maxProcesses) (hf : k.fits e = true) (hcur : k.current = getPcbPtr c)
    (hnext : k.findNextActivePcb (getPcbPtr c) = some (getPcbPtr q)) (hm : k.cpu.mode ≠ .wild)
    (he : e.handler = e.regs.ebp) :
    step img fs k (.tick e) = some (k.ticked e c q) := by
  have hsame : (k.interrupted e).findNextActivePcb (getPcbPtr c) = k.findNextActivePcb (getPcbPtr c) :=
    Kernel.findNextActivePcbLoop_congr rfl (fun _ _ => ⟨rfl, rfl⟩) hc
  have hesp : getPcb (k.interrupted e).cpu.esp = getPcbPtr c := (fits_esp hf).trans hcur
  rw [step_tick hm hf he, Kernel.pitHandler_next hc hesp (hsame.trans hnext)]
  rfl

/-- **A tick** goes on with a top. -/
theorem tick_next (h : At k.processes S c) (hs : step img fs k (.tick e) = some k') :
    ∃ q, IsTop S q ∧ k.findNextActivePcb (getPcbPtr c) = some (getPcbPtr q) ∧ k' = k.ticked e c q ∧
      k'.processes = (k.preempted e).switchTo c q e ∧ (k'.cpu.mode = .wild ∨ At k'.processes S q) := by
  have hcond : k.cpu.mode ≠ .wild ∧ k.fits e = true ∧ e.handler = e.regs.ebp := by
    have hs' := hs
    simp only [step] at hs'
    split at hs'
    · next hc => exact hc
    · cases hs'
  obtain ⟨S', c', hmove, hat⟩ := tick_follows h hs
  cases hmove with
  | stay quiet => exact absurd rfl (quiet.tick e)
  | @tick _ q entered top next gone view =>
    refine ⟨_, top, next, ?_, view, hat⟩
    rw [@tick_ticked img fs k c _ e h.lt hcond.2.1 (current_eq h) next hcond.1 hcond.2.2, Option.some.injEq] at hs
    exact hs.symm
  | pop _ ending => cases ending
  | restart _ ending => cases ending
  | close _ ending => cases ending
  | lost _ ending => cases ending

theorem terminalInfo_saved (k : Kernel) (e : Entry) (a b : ℕ) (r : Regs) :
    (((k.interrupted e).saveRegs a r).pcb b).terminalInfo = (k.pcb b).terminalInfo :=
  (k.interrupted e).pcb_field Pcb.terminalInfo (f := fun p => { p with scheduleEbp := r.ebp, scheduleEsp := r.esp })
    (fun _ => rfl) a b

theorem cursors_saved (k : Kernel) (e : Entry) (a : ℕ) (r : Regs) :
    ((k.interrupted e).saveRegs a r).cursors = k.cursors := rfl

theorem phys_saved (k : Kernel) (e : Entry) (a x : ℕ) (r : Regs) :
    ((k.interrupted e).saveRegs a r).phys x = k.phys x := rfl

theorem cursors_ticked (k : Kernel) (e : Entry) (c q : ℕ) :
    (k.ticked e c q).cursors = k.cursors.handOn (k.slot c).terminalInfo.terminalNum
      (k.slot q).terminalInfo.terminalNum := by
  rw [ticked_eq]
  unfold Kernel.slot
  rw [Kernel.field_doSchedule _ Kernel.cursors fun _ _ => rfl, Kernel.cursors_loadNext, terminalInfo_saved,
    terminalInfo_saved, cursors_saved]

theorem phys_loaded (k : Kernel) (a b ebp eax x : ℕ) : ((k.loadNext a b).doSchedule b ebp eax).phys x = k.phys x :=
  (Kernel.field_doSchedule _ (fun k => k.phys x) (fun _ _ => rfl) b ebp eax).trans (k.phys_loadNext a b x)

theorem phys_ticked (k : Kernel) (e : Entry) (c q x : ℕ) : (k.ticked e c q).phys x = k.phys x := by
  rw [ticked_eq]
  generalize getPcbPtr c = a
  generalize getPcbPtr q = b
  rw [phys_loaded, phys_saved]

theorem pcb_ticked (k : Kernel) (e : Entry) (c q : ℕ) :
    (k.ticked e c q).pcb = ((k.interrupted e).saveRegs (getPcbPtr c) e.regs).pcb := by
  rw [ticked_eq, Kernel.field_doSchedule _ Kernel.pcb fun _ _ => rfl, Kernel.pcb_loadNext]

theorem terminalInfo_ticked (k : Kernel) (e : Entry) (c q x : ℕ) :
    ((k.ticked e c q).pcb x).terminalInfo = (k.pcb x).terminalInfo := by
  rw [pcb_ticked]
  exact terminalInfo_saved k e _ x _

theorem slot_terminalInfo {k k' : Kernel} (h : ∀ x, (k'.pcb x).terminalInfo = (k.pcb x).terminalInfo) (p : ℕ) :
    (k'.slot p).terminalInfo = (k.slot p).terminalInfo := h _

theorem slot_ticked (k : Kernel) (e : Entry) (c q p : ℕ) :
    ((k.ticked e c q).slot p).terminalInfo = (k.slot p).terminalInfo :=
  slot_terminalInfo (terminalInfo_ticked k e c q) p

theorem processIds_ticked (k : Kernel) (e : Entry) (c q : ℕ) : (k.ticked e c q).processIds = k.processIds := by
  rw [ticked_eq, Kernel.field_doSchedule _ Kernel.processIds fun _ _ => rfl, Kernel.processIds_loadNext]
  rfl

theorem frameOf_of {P : Paging} {page : ℕ} {k : Kernel} (h : k.paging = P.setVideo page) :
    k.frameOf video = pageTableEntry page 0 / 2 ^ 12 * 2 ^ 12 := by
  have hentry : k.pageTbl (tableIdx video) = (P.setVideo page).table (tableIdx video) :=
    congrArg (fun P : Paging => P.table (tableIdx video)) h
  unfold Kernel.frameOf
  rw [hentry]
  show Function.update P.table (tableIdx video) (pageTableEntry page 0) (tableIdx video) / 2 ^ 12 * 2 ^ 12 = _
  rw [Function.update_self]

theorem paging_ticked (k : Kernel) (e : Entry) (c q : ℕ) : (k.ticked e c q).paging =
    (((k.interrupted e).saveRegs (getPcbPtr c) e.regs).paging.setProgram
      (programFrame ((((k.interrupted e).saveRegs (getPcbPtr c) e.regs).pcb (getPcbPtr q)).processId % 256))).setVideo
        (Kernel.videoPage (k.slot q).terminalInfo) := by
  rw [ticked_eq]
  unfold Kernel.slot
  rw [Kernel.paging_doSchedule, Kernel.paging_loadNext, terminalInfo_saved]

theorem frameOf_ticked (k : Kernel) (e : Entry) (c q : ℕ) :
    (k.ticked e c q).frameOf video = pageTableEntry (Kernel.videoPage (k.slot q).terminalInfo) 0 / 2 ^ 12 * 2 ^ 12 :=
  frameOf_of (paging_ticked k e c q)

end Tick
/-! ## A keystroke that asks for no terminal -/

section Key
variable {img : Image} {fs : Filesystem} {k k₁ k' : Kernel} {t temp x : ℕ} {e : Entry}

/-- The kernel at the end of the handler. -/
def Kernel.echoed (k : Kernel) (t temp : ℕ) : Kernel :=
  ((k.lent t).typeCode t temp).returnScreen k.oldPage k.terminalNow t

theorem key_quiet (hs : step img fs k (.key e temp) = some k') (hon : k.findOnscreenTerminalNum = some t)
    (hreq : k.requests temp = none) : k.fits e = true ∧ k' = ((k.interrupted e).echoed t temp).resume k.cpu := by
  simp only [step] at hs
  split at hs
  · next hc =>
    rw [@handleKeyboard_quiet img fs (k.interrupted e) e t temp hon hreq] at hs
    exact ⟨hc.2.1, (Option.some.inj hs).symm⟩
  · cases hs

theorem terminalNow_interrupted (hf : k.fits e = true) : (k.interrupted e).terminalNow = k.terminal :=
  congrArg (fun a => (k.pcb a).terminalInfo) (fits_esp hf)

theorem Echoed.core (h : Echoed k k₁) : k₁.core = k.core := by
  rw [h.same]
  rfl

theorem Echoed.cursors (h : Echoed k k₁) : k₁.cursors = k.cursors.write ⟨k₁.screenX, k₁.screenY⟩ := by
  rw [h.same]
  rfl

theorem core_moved (k : Kernel) (page a b : ℕ) :
    ((k.setVideo page).switchCursor a b).updateCursor.core = k.core.setVideo page := rfl

theorem setVideo_setVideo (k : Kernel) (a b : ℕ) : (k.setVideo a).setVideo b = k.setVideo b := by
  unfold Kernel.setVideo Kernel.updateKernelVmem Kernel.updateVidmapVmem
  simp only [Function.update_idem]

theorem kernelEntry_setVideo (k : Kernel) (page : ℕ) :
    (k.setVideo page).pageTbl (tableIdx video) = pageTableEntry page 0 := by
  show Function.update k.pageTbl (tableIdx video) (pageTableEntry page 0) (tableIdx video) = _
  rw [Function.update_self]

theorem vidmapEntry_setVideo (k : Kernel) (page : ℕ) :
    (k.setVideo page).pageTblVmem (tableIdx userPage) = pageTableEntry page 1 := by
  show Function.update k.pageTblVmem (tableIdx userPage) (pageTableEntry page 1) (tableIdx userPage) = _
  rw [Function.update_self]

/-- What a process off screen gets back. -/
structure GivenBack (k k' : Kernel) (t : ℕ) : Prop where
  core : k'.core = (k.setAttrib (color t)).core.setVideo k.terminalNow.fakePageAddr
  cursors :
    ∃ p, k'.cursors = ((k.cursors.handOn k.terminalNow.terminalNum t).write p).handOn t k.terminalNow.terminalNum
  phys : ∀ x, ¬ (video ≤ x ∧ x < video + fourKb) → k'.phys x = k.phys x

/-- What a keystroke leaves of a process on screen. -/
structure TypedHere (k k' : Kernel) (t : ℕ) : Prop where
  core : k'.core = (k.setAttrib (color t)).core
  cursors : ∃ p, k'.cursors = k.cursors.write p
  phys : ∀ x, ¬ (k.frameOf video ≤ x ∧ x < k.frameOf video + fourKb) → k'.phys x = k.phys x

theorem echoed_offscreen (hoff : k.terminalNow.isOnscreen = 0) (hpage : k.terminalNow.fakePageAddr ≠ 0) :
    GivenBack k (k.echoed t temp) t := by
  have hlent :
    k.lent t = (((k.setAttrib (color t)).setVideo video).switchCursor k.terminalNow.terminalNum t).updateCursor := by
    unfold Kernel.lent Kernel.borrowScreen
    rw [if_pos hoff]
  have hecho := echoed_typeCode (k.lent t) t temp
  have hframe : (k.lent t).frameOf video = video := by
    rw [hlent]
    exact frameOf_borrowed _ _ _
  unfold Kernel.echoed Kernel.oldPage
  generalize (k.lent t).typeCode t temp = k₁ at hecho
  unfold Kernel.returnScreen
  rw [if_pos hoff, if_pos hpage]
  refine ⟨?_, ⟨⟨k₁.screenX, k₁.screenY⟩, ?_⟩, fun x hx => ?_⟩
  · rw [core_moved, hecho.core, hlent, core_moved, setVideo_setVideo]
  · rw [Kernel.cursors_moved, hecho.cursors, hlent, Kernel.cursors_moved]
    rfl
  · rw [phys_moved, hecho.phys x (by rw [hframe]; exact hx), hlent, phys_moved]
    rfl

theorem echoed_onscreen (hon : k.terminalNow.isOnscreen ≠ 0) : TypedHere k (k.echoed t temp) t := by
  have hlent : k.lent t = k.setAttrib (color t) := by
    unfold Kernel.lent Kernel.borrowScreen
    rw [if_neg hon]
  have hecho := echoed_typeCode (k.lent t) t temp
  unfold Kernel.echoed Kernel.oldPage
  generalize (k.lent t).typeCode t temp = k₁ at hecho
  unfold Kernel.returnScreen
  rw [if_neg hon, if_neg (by decide)]
  rw [hlent] at hecho
  exact ⟨hecho.core, ⟨_, hecho.cursors⟩, hecho.phys⟩

end Key
/-! ## What depends on the core alone -/

section Core
variable {img : Image} {fs : Filesystem} {a b k : Kernel} {e : Entry} {c q t : ℕ} {x : Cpu}

theorem settled_of_core (h : b.core = a.core) : b.settled = a.settled :=
  congrArg (fun k : Kernel => { k with frames := k.clobber }) h

theorem settled_core (h : a.core = b) : a.settled = { b with frames := b.clobber } := by
  subst h
  rfl

theorem core_ticked (h : b.settled = a.settled) (e : Entry) (c q : ℕ) :
    (b.ticked e c q).core = (a.ticked e c q).core := by
  have hsaved : ∀ p r, ((b.interrupted e).saveRegs p r).core = ((a.interrupted e).saveRegs p r).core := by
    intro p r
    rw [Kernel.core_saveRegs, Kernel.core_saveRegs, Kernel.core_interrupted, Kernel.core_interrupted, h]
  have hload : ∀ k₁ k₂ : Kernel, k₁.core = k₂.core → ∀ p r,
      ((k₁.loadNext p r).doSchedule r (k₁.pcb r).scheduleEbp e.eax).core =
        ((k₂.loadNext p r).doSchedule r (k₂.pcb r).scheduleEbp e.eax).core := by
    intro k₁ k₂ hk p r
    have hpcb := congrArg Kernel.pcb hk
    change k₁.pcb = k₂.pcb at hpcb
    rw [Kernel.core_doSchedule, Kernel.core_doSchedule, Kernel.core_loadNext, Kernel.core_loadNext, hk, hpcb]
  rw [ticked_eq, ticked_eq]
  exact hload _ _ (hsaved _ _) _ _

theorem core_resumed (h : b.core = a.core) (x : Cpu) : (b.resume x).core = (a.resume x).core :=
  congrArg (fun k : Kernel => k.resume x) h

theorem core_entered (h : b.settled = a.settled) (esp : ℕ) : (b.enter esp).core = (a.enter esp).core := by
  rw [Kernel.core_enter, Kernel.core_enter, h]

theorem settled_resume (hcur : (k.resume x).current = k.current) : (k.resume x).settled = k.settled.resume x := by
  have hframes : (k.resume x).clobber = k.clobber := by
    unfold Kernel.clobber
    rw [hcur]
    rfl
  unfold Kernel.settled
  rw [hframes]
  rfl

theorem settled_pcb (k : Kernel) : k.settled.pcb = k.pcb := rfl
theorem settled_processIds (k : Kernel) : k.settled.processIds = k.processIds := rfl
theorem settled_cpu (k : Kernel) : k.settled.cpu = k.cpu := rfl
theorem settled_tss (k : Kernel) : k.settled.tss = k.tss := rfl
theorem settled_paging (k : Kernel) : k.settled.paging = k.paging := rfl
theorem settled_attrib (k : Kernel) : k.settled.attrib = k.attrib := rfl

theorem field_settled {α : Type} (field : Kernel → α) (hfield : ∀ k : Kernel, field k.settled = field k)
    (h : b.settled = a.settled) : field b = field a := by
  rw [← hfield, h, hfield]

theorem settled_entryEsp (k : Kernel) : k.settled.entryEsp = k.entryEsp := by
  unfold Kernel.entryEsp
  rfl

theorem settled_current (k : Kernel) : k.settled.current = k.current := by
  unfold Kernel.current
  rw [settled_entryEsp]

theorem settled_fits (k : Kernel) (e : Entry) : k.settled.fits e = k.fits e := by
  unfold Kernel.fits Kernel.onStack
  rw [settled_entryEsp, settled_current]

end Core
theorem trap_eq {img : Image} {fs : Filesystem} {k k' : Kernel} {x : Cpu} (hs : step img fs k (.trap x) = some k') :
    k' = k.resume x ∨ k' = (k.enter x.esp).resume x := by
  simp only [step] at hs
  split at hs
  · exact Or.inl (Option.some.inj hs).symm
  · exact Or.inl (Option.some.inj hs).symm
  · split at hs
    · exact Or.inr (Option.some.inj hs).symm
    · cases hs
  · split at hs
    · exact Or.inr (Option.some.inj hs).symm
    · cases hs
  · cases hs

/-! ## The terminal of the running process -/

section Terminal
variable {k : Kernel} {P : Processes} {S : Stacks} {c p t : ℕ}

theorem onscreen_some (h : At k.processes S c) : ∃ t, k.findOnscreenTerminalNum = some t := by
  have hon := onscreenNum_some h.table h.shown
  rw [Kernel.processes_findOnscreenTerminalNum] at hon
  exact Option.ne_none_iff_exists'.mp hon

theorem onscreen_of_onlyShown (h : At k.processes S c) (hshown : k.processes.OnlyShown p) (hp : p ∈ S t) :
    k.findOnscreenTerminalNum = some t := by
  obtain ⟨u, hu⟩ := onscreen_some h
  rw [hu]
  rw [← Kernel.processes_findOnscreenTerminalNum] at hu
  unfold Processes.findOnscreenTerminalNum at hu
  obtain ⟨i, hi, hnum⟩ := Option.map_eq_some_iff.mp hu
  have hlt := List.mem_range.mp (List.mem_of_find?_eq_some hi)
  have hfound := List.find?_some hi
  simp only [decide_eq_true_eq] at hfound
  have hid := h.table.numbered i hlt (Or.inr hfound.2)
  rw [hid] at hfound
  obtain rfl := hshown.only i hfound.1 hfound.2
  rw [← hnum, (h.table.slot t i hp).terminalNum]

theorem terminal_eq (h : At k.processes S c) : k.terminal = (k.slot c).terminalInfo := by
  unfold Kernel.terminal
  rw [current_eq h]
  rfl

theorem terminal_of_mem (h : At k.processes S c) (hc : c ∈ S t) : k.terminal.terminalNum = t ∧
    k.terminal.fakePageAddr = fakePage t ∧ k.terminal.isOnscreen = (k.processes.info c).isOnscreen := by
  have hslot := h.table.slot t c hc
  have hnum := hslot.terminalNum
  have hpage := hslot.fakePageAddr
  rw [k.processes_info h.lt, Pcb.info_terminalNum] at hnum
  rw [k.processes_info h.lt, Pcb.info_fakePageAddr] at hpage
  rw [terminal_eq h, k.processes_info h.lt, Pcb.info_isOnscreen]
  exact ⟨hnum, hpage, rfl⟩

theorem terminal_page (h : At k.processes S c) (ht : IsTop S c) :
    ∃ u < 3, k.terminal.terminalNum = u ∧ k.terminal.fakePageAddr = fakePage u := by
  obtain ⟨u, hu⟩ := ht.stacked
  obtain ⟨hnum, hpage, -⟩ := terminal_of_mem h hu
  exact ⟨u, (h.table.lt u c hu).1, hnum, hpage⟩

theorem fakePage_ne_zero (u : ℕ) : fakePage u ≠ 0 := by
  rw [fakePage_eq]
  simp only [video, fourKb]
  omega

theorem terminal_page_ne_zero (h : At k.processes S c) (ht : IsTop S c) : k.terminal.fakePageAddr ≠ 0 := by
  obtain ⟨u, -, -, hpage⟩ := terminal_page h ht
  rw [hpage]
  exact fakePage_ne_zero u

end Terminal
/-! ## Back to the first shell -/

section Return
variable {img : Image} {k k₀ : Kernel} {S : Stacks}

theorem attrib_loadNext (k : Kernel) (curr next : ℕ) :
    (k.loadNext curr next).attrib = color (k.pcb next).terminalInfo.terminalNum := by
  have hattrib : ∀ (k : Kernel) (a : UInt8), (k.setAttrib a).attrib = a := fun _ _ => rfl
  unfold Kernel.loadNext
  simp only [hattrib]

theorem attrib_ticked (k : Kernel) (e : Entry) (c q : ℕ) :
    (k.ticked e c q).attrib = color (k.slot q).terminalInfo.terminalNum := by
  rw [ticked_eq]
  unfold Kernel.slot
  rw [Kernel.field_doSchedule _ Kernel.attrib fun _ _ => rfl, attrib_loadNext, terminalInfo_saved]

theorem create_frames (P : Processes) (c o p t eip : ℕ) (e : Entry) : (P.create c o p t e eip).frames =
    Function.update (Function.update P.frames e.regs.ebp .switchTerminal) e.frame .switchTerminal := rfl

theorem preempted_frames (k : Kernel) (e : Entry) :
    (k.preempted e).frames = Function.update k.clobber e.handler (.interrupt k.cpu) := rfl

/-- A tick goes on in the interrupted code of a process off the stack in use. -/
theorem switchTo_resumes {P : Processes} {c q : ℕ} {e : Entry} {x : Cpu} (hcq : q ≠ c)
    (hframe : P.frames (P.info q).scheduleEbp = .interrupt x) (hebp : getPcb (P.info q).scheduleEbp = getPcbPtr q) :
    (P.switchTo c q e).cpu = x := by
  unfold Processes.switchTo Processes.doSchedule
  simp only [Processes.setInfo_ne _ hcq]
  have hframes : ∀ a, ((P.setInfo c (Info.saveRegs e.regs)).setEsp0 a).frames = P.frames := fun _ => rfl
  rw [hframes, hframe]
  simp only
  rw [if_pos hebp]
  rfl

theorem switchTo_same {P : Processes} {c : ℕ} {e : Entry} {x : Cpu} (hframe : P.frames e.regs.ebp = .interrupt x)
    (hebp : getPcb e.regs.ebp = getPcbPtr c) :
    (P.switchTo c c e).cpu = x := by
  unfold Processes.switchTo Processes.doSchedule
  simp only [Processes.setInfo_self]
  have hframes : ∀ a, ((P.setInfo c (Info.saveRegs e.regs)).setEsp0 a).frames = P.frames := fun _ => rfl
  have hsaved : ((P.info c).saveRegs e.regs).scheduleEbp = e.regs.ebp := rfl
  rw [hframes, hsaved, hframe]
  simp only
  rw [if_pos hebp]
  rfl

end Return

end Kernel391
