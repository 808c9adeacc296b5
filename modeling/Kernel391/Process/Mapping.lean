import Kernel391.Process.ProgramStart

/-! The paging structures under the kernel's functions. Only two things ever change: the
program page, and the page that the two mappings of video memory lead to. -/
namespace Kernel391
open Kernel391.Foundations
set_option autoImplicit false

structure Paging where
  directory : ℕ → PageDirEntry
  table : ℕ → ℕ
  vidmap : ℕ → ℕ

def Kernel.paging (k : Kernel) : Paging := ⟨k.pageDir, k.pageTbl, k.pageTblVmem⟩

namespace Paging
variable (P : Paging)

def setProgram (a : ℕ) : Paging := { P with directory := Function.update P.directory programIdx (programEntry a) }

def setVideo (page : ℕ) : Paging :=
  { P with
    table := Function.update P.table (tableIdx video) (pageTableEntry page 0)
    vidmap := Function.update P.vidmap (tableIdx userPage) (pageTableEntry page 1) }

/-- The tables of `paging.c` with a program page and a page behind the two mappings of video memory. -/
def of (program page : ℕ) : Paging where
  directory :=
    Function.update (Function.update setupPagerDirectory (userPage / 2 ^ 22) (.table .pageTblVmem 7)) programIdx
    (programEntry program)
  table := Function.update setupPagerTable (tableIdx video) (pageTableEntry page 0)
  vidmap := Function.update (fun _ => emptyPage) (tableIdx userPage) (pageTableEntry page 1)

@[simp] theorem setProgram_entry (a : ℕ) : (P.setProgram a).directory programIdx = programEntry a := by
  simp only [setProgram, Function.update_self]

@[simp] theorem setVideo_setVideo (a b : ℕ) : (P.setVideo a).setVideo b = P.setVideo b := by
  simp only [setVideo, Function.update_idem]

theorem of_setProgram (a b page : ℕ) : (of a page).setProgram b = of b page := by
  simp only [of, setProgram, Function.update_idem]

theorem of_setVideo (a page page' : ℕ) : (of a page).setVideo page' = of a page' := by
  simp only [of, setVideo, Function.update_idem]

/-- The page behind video memory is the one it was, the physical one, or `own`. -/
def Remapped (own : ℕ) (P P' : Paging) : Prop := P' = P ∨ P' = P.setVideo video ∨ P' = P.setVideo own

theorem Remapped.trans {own : ℕ} {P P' P'' : Paging} (h₁ : Remapped own P P') (h₂ : Remapped own P' P'') :
    Remapped own P P'' := by
  rcases h₂ with rfl | rfl | rfl
  · exact h₁
  · rcases h₁ with rfl | rfl | rfl <;> exact Or.inr (Or.inl (by simp only [setVideo_setVideo]))
  · rcases h₁ with rfl | rfl | rfl <;> exact Or.inr (Or.inr (by simp only [setVideo_setVideo]))

end Paging

theorem paging_booted {k : Kernel} (hdir : k.pageDir = k.setupPaging.pageDir) (htbl : k.pageTbl = k.setupPaging.pageTbl)
    (hvid : k.pageTblVmem = k.setupPaging.pageTblVmem) (a : ℕ) : k.paging.setProgram a = Paging.of a video := by
  have h₁ : Function.update setupPagerTable (tableIdx video) (pageTableEntry video 0) = setupPagerTable :=
    Function.update_eq_self_iff.mpr rfl
  have h₂ : Function.update (fun _ => emptyPage) (tableIdx userPage) (pageTableEntry video 1) =
      fun i => if i = tableIdx userPage then pageTableEntry video 1 else emptyPage := by
    funext i
    by_cases hi : i = tableIdx userPage
    · rw [hi, Function.update_self, if_pos rfl]
    · rw [Function.update_of_ne hi, if_neg hi]
  unfold Kernel.paging Paging.setProgram Paging.of
  rw [hdir, htbl, hvid, h₁, h₂]
  rfl

/-! ## Single operations -/

namespace Kernel
variable (k : Kernel)

@[simp] theorem paging_setPagerDirEntry (a : ℕ) : (k.setPagerDirEntry a).paging = k.paging.setProgram a := rfl
@[simp] theorem paging_setVideo (page : ℕ) : (k.setVideo page).paging = k.paging.setVideo page := rfl
@[simp] theorem paging_setPcb (a : ℕ) (f : Pcb → Pcb) : (k.setPcb a f).paging = k.paging := rfl
@[simp] theorem paging_setTerminal (a : ℕ) (f : TerminalInfo → TerminalInfo) :
    (k.setTerminal a f).paging = k.paging := rfl
@[simp] theorem paging_saveRegs (a : ℕ) (r : Regs) : (k.saveRegs a r).paging = k.paging := rfl
@[simp] theorem paging_setFrame (a : ℕ) (f : Frame) : (k.setFrame a f).paging = k.paging := rfl
@[simp] theorem paging_setTss (a : ℕ) : (k.setTss a).paging = k.paging := rfl
@[simp] theorem paging_setAttrib (a : UInt8) : (k.setAttrib a).paging = k.paging := rfl
@[simp] theorem paging_withConsole (f : Console → Console) : (k.withConsole f).paging = k.paging := rfl
@[simp] theorem paging_switchCursor (a b : ℕ) : (k.switchCursor a b).paging = k.paging := rfl
@[simp] theorem paging_freeProcess (p : ℕ) : (k.freeProcess p).paging = k.paging := rfl
@[simp] theorem paging_enter (esp : ℕ) : (k.enter esp).paging = k.paging := rfl
@[simp] theorem paging_printf (cs : List UInt8) : (k.printf cs).paging = k.paging := rfl
@[simp] theorem paging_clearScreen : k.clearScreen.paging = k.paging := rfl
@[simp] theorem paging_updateCursor : k.updateCursor.paging = k.paging := rfl

@[simp] theorem paging_setupExecStack (eip a frame eax : ℕ) (f : Frame) :
    (k.setupExecStack eip a frame f eax).paging = k.paging := rfl

@[simp] theorem paging_inheritTerminal (a b : ℕ) : (k.inheritTerminal a b).paging = k.paging := rfl

@[simp] theorem paging_firstTerminal (a : ℕ) : (k.firstTerminal a).paging = k.paging := rfl

@[simp] theorem paging_haltProcess (status haltEbp : ℕ) : (k.haltProcess status haltEbp).paging = k.paging := by
  unfold haltProcess
  split <;> rfl

@[simp] theorem paging_doSchedule (next ebp eax : ℕ) : (k.doSchedule next ebp eax).paging = k.paging := by
  unfold doSchedule
  split
  · split <;> rfl
  · rfl
  · rfl

theorem paging_loadNext (curr next : ℕ) : (k.loadNext curr next).paging =
    (k.paging.setProgram (programFrame ((k.pcb next).processId % 256))).setVideo
      (videoPage (k.pcb next).terminalInfo) := by
  unfold loadNext programFrame
  simp only [paging_setAttrib]
  split <;> simp only [paging_updateCursor, paging_switchCursor, paging_setVideo, paging_setTss,
    paging_setPagerDirEntry]

theorem paging_acceptChar (t : ℕ) (c : UInt8) : (k.acceptChar t c).paging = k.paging := by
  unfold acceptChar delc puts putc
  simp only
  repeat' split
  all_goals rfl

theorem pcb_field {α : Type} (field : Pcb → α) {f : Pcb → Pcb} (hf : ∀ b, field (f b) = field b) (a x : ℕ) :
    field ((k.setPcb a f).pcb x) = field (k.pcb x) := by
  by_cases hxa : x = a
  · subst hxa
    simp only [setPcb, Function.update_self, hf]
  · simp only [setPcb, Function.update_of_ne hxa]

theorem paging_handBack (a b : ℕ) :
    (k.handBack a b).paging = k.paging.setProgram (programFrame ((k.pcb b).processId % 256)) := by
  have hid : ∀ (k : Kernel) (f : TerminalInfo → TerminalInfo) y,
    ((k.setTerminal y f).pcb b).processId = (k.pcb b).processId := by
    intro k f y
    refine k.pcb_field Pcb.processId ?_ y b
    exact fun _ => rfl
  have hfree : ∀ (k : Kernel) p, (k.freeProcess p).pcb = k.pcb := fun _ _ => rfl
  unfold handBack
  simp only [paging_setTss, paging_setPagerDirEntry, paging_freeProcess, paging_setTerminal, paging_setPcb, hfree]
  refine congrArg (fun n => k.paging.setProgram (programFrame (n % 256))) ?_
  refine (hid _ _ _).trans ((hid _ _ _).trans (k.pcb_field Pcb.processId ?_ b b))
  exact fun _ => rfl

theorem videoPage_cases (t : TerminalInfo) : videoPage t = video ∨ videoPage t = t.fakePageAddr := by
  unfold videoPage
  split
  · exact Or.inl rfl
  · exact Or.inr rfl

end Kernel

/-! ## Functions -/

section Functions
variable {img : Image} {fs : Filesystem} {k k' : Kernel} {e : Entry}

theorem paging_showTerminal {o r : ℕ} (hs : k.showTerminal o r = .ok k') : k'.paging = k.paging ∧ k'.cpu = k.cpu ∧
    ∀ x, (k'.pcb x).terminalInfo.fakePageAddr = (k.pcb x).terminalInfo.fakePageAddr := by
  have hswitch : ∀ {a b : ℕ} {c : Prop} [Decidable c] {k₁ : Kernel},
      (if c then k.switchKernelMemory a b else .ok k) = .ok k₁ → ∃ m, k₁ = { k with phys := m } := by
    intro a b c _ k₁ hs
    split at hs
    · exact Kernel.switchKernelMemory_phys (Or.inl hs)
    · cases hs
      exact ⟨k.phys, rfl⟩
  unfold Kernel.showTerminal at hs
  simp only at hs
  split at hs
  · cases hs
  · next hc =>
    cases hs
    obtain ⟨m, rfl⟩ := hswitch hc
    have hpage :
      ∀ (k : Kernel) a b x, ((k.setTerminal a fun t => { t with isOnscreen := b }).pcb x).terminalInfo.fakePageAddr =
        (k.pcb x).terminalInfo.fakePageAddr := by
      intro k a b x
      refine k.pcb_field (fun b => b.terminalInfo.fakePageAddr) ?_ a x
      exact fun _ => rfl
    exact ⟨rfl, rfl, fun x => (hpage _ _ _ _).trans (hpage _ _ _ _)⟩

/-- **`execute`** changes the program page only, to that of the child. -/
theorem paging_execute {caller : Cpu} {command : List UInt8} (h : execute img fs k e caller command = .gone k') :
    ∃ p, k.processes.FirstFree p ∧ k'.paging = k.paging.setProgram (programFrame p) := by
  unfold execute at h
  split at h
  · cases h
  · split at h
    · cases h
    · split at h
      · cases h
      · next p k₁ hid =>
        simp only at h
        split at h
        · cases h
        · next eip k₂ ho =>
          obtain ⟨m, hm⟩ := openExecutable_phys (Or.inl ho)
          have hfree := (Kernel.getProcessId_processes hid).1
          obtain ⟨-, -, -, rfl⟩ := Kernel.getProcessId_some hid
          have h₂ : k₂.paging = k.paging.setProgram (programFrame p) := by
            rw [hm]
            rfl
          cases h
          refine ⟨p, hfree, ?_⟩
          rw [← h₂]
          simp only [Kernel.paging_setupExecStack, Kernel.paging_setTss, Kernel.paging_setPcb, Kernel.paging_setFrame,
            Kernel.paging_saveRegs]
          split <;> rfl

theorem paging_execute_fault {caller : Cpu} {command : List UInt8} (h : execute img fs k e caller command = .fault k') :
    k'.paging = k.paging ∨ ∃ p, k'.paging = k.paging.setProgram p := by
  unfold execute at h
  split at h
  · cases h
    exact Or.inl rfl
  · split at h
    · cases h
    · split at h
      · cases h
      · next p k₁ hid =>
        simp only at h
        split at h
        · next k₂ ho =>
          cases h
          obtain ⟨m, hm⟩ := @openExecutable_phys _ _ _ _ _ (fun _ => 0) _ 0 (Or.inr ho)
          obtain ⟨-, -, -, rfl⟩ := Kernel.getProcessId_some hid
          refine Or.inr ⟨programFrame p, ?_⟩
          rw [hm]
          rfl
        · cases h

/-- **A terminal's creation** leaves the mapping of video memory as it is. -/
theorem paging_createTerminal {o t : ℕ} (h : createTerminal img fs k e o t = .gone k') :
    ∃ p, k.processes.FirstFree p ∧ k'.paging = k.paging.setProgram (programFrame p) := by
  unfold createTerminal at h
  split at h
  · cases h
  · split at h
    · cases h
    · split at h
      · cases h
      · next p k₁ hid =>
        simp only at h
        split at h
        · cases h
        · next eip k₂ ho =>
          obtain ⟨m, hm⟩ := openExecutable_phys (Or.inl ho)
          have hfree := (Kernel.getProcessId_processes hid).1
          obtain ⟨-, -, -, rfl⟩ := Kernel.getProcessId_some hid
          have h₂ : k₂.paging = k.paging.setProgram (programFrame p) := by
            rw [hm]
            rfl
          split at h
          · cases h
          · split at h
            · cases h
            · next k₃ hs =>
              cases h
              refine ⟨p, hfree, ?_⟩
              rw [← h₂]
              exact (paging_showTerminal hs).1

theorem paging_switchTerminal {t : ℕ} {r : ℤ} (h : switchTerminal img fs k e t = .ret r k') :
    Paging.Remapped (k.pcb (getPcb k.cpu.esp)).terminalInfo.fakePageAddr k.paging k'.paging ∧ k'.cpu = k.cpu ∧
      (k'.pcb (getPcb k.cpu.esp)).terminalInfo.fakePageAddr = (k.pcb (getPcb k.cpu.esp)).terminalInfo.fakePageAddr := by
  unfold switchTerminal at h
  generalize getPcbPtr (k.findOnscreenTerminalPid.getD 255) = onscreen at h
  simp only at h
  split at h
  · obtain ⟨-, rfl⟩ := createTerminal_ret h
    exact ⟨Or.inl rfl, rfl, rfl⟩
  · next q _ =>
    generalize getPcbPtr q = requested at h
    split at h
    · cases h
    · next k₁ hs =>
      obtain ⟨hpaging, hcpu, hpage⟩ := paging_showTerminal hs
      have hcpu' : k₁.cpu = k.cpu := hcpu
      have hpaging' : k₁.paging = k.paging := hpaging
      have hpage' : ∀ x, (k₁.pcb x).terminalInfo.fakePageAddr = (k.pcb x).terminalInfo.fakePageAddr := hpage
      split at h
      · cases h
        exact ⟨Or.inl hpaging', hcpu', hpage' _⟩
      · cases h
        refine ⟨Or.inr ?_, hcpu', hpage' _⟩
        rw [Kernel.paging_setVideo, hpaging', ← hpage', ← hcpu']
        rcases Kernel.videoPage_cases (k₁.pcb (getPcb k₁.cpu.esp)).terminalInfo with hp | hp
        · exact Or.inl (by rw [hp])
        · exact Or.inr (by rw [hp])

/-! ## A keystroke -/

/-- What a function that returns to the interrupted code may have done to the mapping: the pages of `k` or that of the
process on whose stack it ran. -/
structure Kernel.Remaps (k k' : Kernel) : Prop where
  paging : Paging.Remapped (k.pcb (getPcb k.cpu.esp)).terminalInfo.fakePageAddr k.paging k'.paging
  cpu : k'.cpu = k.cpu
  page : (k'.pcb (getPcb k.cpu.esp)).terminalInfo.fakePageAddr = (k.pcb (getPcb k.cpu.esp)).terminalInfo.fakePageAddr

theorem Kernel.Remaps.of_eq (hpaging : k'.paging = k.paging) (hcpu : k'.cpu = k.cpu) (hpcb : k'.pcb = k.pcb) :
    k.Remaps k' := ⟨Or.inl hpaging, hcpu, by rw [hpcb]⟩

theorem Kernel.Remaps.trans {k₁ k₂ k₃ : Kernel} (h₁ : k₁.Remaps k₂) (h₂ : k₂.Remaps k₃) : k₁.Remaps k₃ := by
  obtain ⟨hp₂, hc₂, hg₂⟩ := h₂
  rw [h₁.cpu, h₁.page] at hp₂
  rw [h₁.cpu] at hg₂
  exact ⟨h₁.paging.trans hp₂, hc₂.trans h₁.cpu, hg₂.trans h₁.page⟩

theorem acceptChar_remaps (k : Kernel) (t : ℕ) (c : UInt8) : k.Remaps (k.acceptChar t c) := by
  refine .of_eq (k.paging_acceptChar t c) ?_ ?_
  all_goals
    unfold Kernel.acceptChar Kernel.delc Kernel.puts Kernel.putc
    simp only
    repeat' split
    all_goals rfl

theorem combination_remaps {temp : ℕ} {r : ℤ} (h : combination img fs k e temp = .ret r k') : k.Remaps k' := by
  unfold combination at h
  split at h
  · next t _ =>
    cases hs : switchTerminal img fs k e t with
    | ret r k₁ =>
      obtain ⟨hp, hc, hg⟩ := paging_switchTerminal hs
      have hk₁ : k.Remaps k₁ := ⟨hp, hc, hg⟩
      simp only [hs, Outcome.ret.injEq] at h
      rw [← h.2]
      split
      · exact hk₁.trans (.of_eq rfl rfl rfl)
      · exact hk₁
    | gone k₁ =>
      simp only [hs] at h
      cases h
    | fault k₁ =>
      simp only [hs] at h
      cases h
  · cases h
    split
    · exact .of_eq rfl rfl rfl
    · exact .of_eq rfl rfl rfl

theorem handleScanCode_remaps {curr temp : ℕ} {r : ℤ} (h : handleScanCode img fs k e curr temp = .ret r k') :
    k.Remaps k' := by
  unfold handleScanCode at h
  split at h
  · simp only at h
    generalize hk₀ : ({ k with keys := k.keys.press temp } : Kernel) = k₀ at h
    have h₀ : k.Remaps k₀ := by
      rw [← hk₀]
      exact .of_eq rfl rfl rfl
    cases hc : combination img fs k₀ e temp with
    | ret r k₁ =>
      simp only [hc, Outcome.ret.injEq] at h
      rw [← h.2]
      exact ((h₀.trans (combination_remaps hc)).trans (acceptChar_remaps k₁ _ _)).trans (.of_eq rfl rfl rfl)
    | gone k₁ =>
      simp only [hc] at h
      cases h
    | fault k₁ =>
      simp only [hc] at h
      cases h
  · cases h
    exact .of_eq rfl rfl rfl

theorem borrowScreen_remaps (k : Kernel) (t : TerminalInfo) (curr : ℕ) : k.Remaps (k.borrowScreen t curr) := by
  unfold Kernel.borrowScreen
  split
  · exact ⟨Or.inr (Or.inl rfl), rfl, rfl⟩
  · exact .of_eq rfl rfl rfl

theorem returnScreen_remaps (k : Kernel) (page curr : ℕ) :
    k.Remaps (k.returnScreen page (k.pcb (getPcb k.cpu.esp)).terminalInfo curr) := by
  unfold Kernel.returnScreen
  split
  · exact ⟨Or.inr (Or.inr rfl), rfl, rfl⟩
  · exact .of_eq rfl rfl rfl

/-- **A keystroke that returns** leaves video memory on its page, the physical one, or that of the process. -/
theorem handleKeyboard_remaps {temp : ℕ} {r : ℤ} (h : handleKeyboard img fs k e temp = .ret r k') : k.Remaps k' := by
  unfold handleKeyboard at h
  cases hon : k.findOnscreenTerminalNum with
  | none =>
    simp only [hon] at h
    cases h
    exact .of_eq rfl rfl rfl
  | some t =>
    simp only [hon] at h
    generalize hk₀ : k.setAttrib (color ((some t).getD 255)) = k₀ at h
    have h₀ : k.Remaps k₀ := by
      rw [← hk₀]
      exact .of_eq rfl rfl rfl
    generalize hinfo : (k₀.pcb (getPcb k₀.cpu.esp)).terminalInfo = info at h
    have hb := borrowScreen_remaps k₀ info t
    cases hs : handleScanCode img fs (k₀.borrowScreen info t) e t temp with
    | ret r k₁ =>
      simp only [hs, Outcome.ret.injEq] at h
      have h₁ := (h₀.trans hb).trans (handleScanCode_remaps hs)
      have hcpu : k₀.cpu = k₁.cpu := h₀.cpu.trans h₁.cpu.symm
      rw [← h.2, hcpu]
      exact h₁.trans (returnScreen_remaps k₁ _ t)
    | gone k₁ =>
      simp only [hs] at h
      cases h
    | fault k₁ =>
      simp only [hs] at h
      cases h

/-- Off screen when it is interrupted, the process gets its own page back, whatever is on screen by then. -/
theorem handleKeyboard_returned {temp : ℕ} {r : ℤ} (h : handleKeyboard img fs k e temp = .ret r k')
    (hon : k.findOnscreenTerminalNum ≠ none) (hoff : (k.pcb (getPcb k.cpu.esp)).terminalInfo.isOnscreen = 0)
    (hpage : (k.pcb (getPcb k.cpu.esp)).terminalInfo.fakePageAddr ≠ 0) :
    k'.paging = k.paging.setVideo (k.pcb (getPcb k.cpu.esp)).terminalInfo.fakePageAddr := by
  unfold handleKeyboard at h
  obtain ⟨t, ht⟩ := Option.ne_none_iff_exists'.mp hon
  simp only [ht] at h
  generalize hk₀ : k.setAttrib (color ((some t).getD 255)) = k₀ at h
  have h₀ : k.Remaps k₀ := by
    rw [← hk₀]
    exact .of_eq rfl rfl rfl
  have hpcb : k₀.pcb = k.pcb := by
    rw [← hk₀]
    rfl
  have hinfo : (k₀.pcb (getPcb k₀.cpu.esp)).terminalInfo = (k.pcb (getPcb k.cpu.esp)).terminalInfo := by
    rw [hpcb, h₀.cpu]
  rw [hinfo, if_pos hoff] at h
  have hb := borrowScreen_remaps k₀ (k.pcb (getPcb k.cpu.esp)).terminalInfo t
  cases hs : handleScanCode img fs (k₀.borrowScreen (k.pcb (getPcb k.cpu.esp)).terminalInfo t) e t temp with
  | ret r k₁ =>
    simp only [hs, Outcome.ret.injEq] at h
    have h₁ := (h₀.trans hb).trans (handleScanCode_remaps hs)
    rw [← h.2]
    unfold Kernel.returnScreen
    rw [if_pos hpage, h₀.cpu]
    show k₁.paging.setVideo (k₁.pcb (getPcb k.cpu.esp)).terminalInfo.fakePageAddr = _
    rw [h₁.page]
    rcases h₁.paging with hp | hp | hp <;> rw [hp]
    all_goals exact Paging.setVideo_setVideo ..
  | gone k₁ =>
    simp only [hs] at h
    cases h
  | fault k₁ =>
    simp only [hs] at h
    cases h

theorem paging_switchTerminal_gone {t : ℕ} (h : switchTerminal img fs k e t = .gone k') :
    ∃ p, k.processes.FirstFree p ∧ k'.paging = k.paging.setProgram (programFrame p) := by
  unfold switchTerminal at h
  simp only at h
  split at h
  · exact paging_createTerminal h
  · split at h
    · cases h
    · split at h <;> cases h

theorem paging_handleScanCode_gone {curr temp : ℕ} (h : handleScanCode img fs k e curr temp = .gone k') :
    ∃ p, k.processes.FirstFree p ∧ k'.paging = k.paging.setProgram (programFrame p) := by
  unfold handleScanCode at h
  split at h
  · simp only at h
    generalize hk₀ : ({ k with keys := k.keys.press temp } : Kernel) = k₀ at h
    have h₀ : k₀.paging = k.paging ∧ k₀.processes = k.processes := by
      rw [← hk₀]
      exact ⟨rfl, rfl⟩
    rw [← h₀.1, ← h₀.2]
    have hc : combination img fs k₀ e temp = .gone k' := by
      cases hc : combination img fs k₀ e temp with
      | ret r k₁ =>
        simp only [hc] at h
        cases h
      | gone k₁ => simpa only [hc] using h
      | fault k₁ =>
        simp only [hc] at h
        cases h
    unfold combination at hc
    split at hc
    · next t _ =>
      cases hs : switchTerminal img fs k₀ e t with
      | ret r k₁ =>
        simp only [hs] at hc
        cases hc
      | gone k₁ =>
        simp only [hs, Outcome.gone.injEq] at hc
        rw [← hc]
        exact paging_switchTerminal_gone hs
      | fault k₁ =>
        simp only [hs] at hc
        cases hc
    · cases hc
  · cases h

/-- **A keystroke that creates a terminal** starts its shell with the video mapping of the interrupted process, or with
physical video memory when that process was off screen. -/
theorem paging_handleKeyboard_gone {temp : ℕ} (h : handleKeyboard img fs k e temp = .gone k') :
    ∃ p, k.processes.FirstFree p ∧ k'.paging = (if (k.pcb (getPcb k.cpu.esp)).terminalInfo.isOnscreen = 0 then
      k.paging.setVideo video else k.paging).setProgram (programFrame p) := by
  unfold handleKeyboard at h
  cases hon : k.findOnscreenTerminalNum with
  | none =>
    simp only [hon] at h
    cases h
  | some t =>
    simp only [hon] at h
    generalize hk₀ : k.setAttrib (color ((some t).getD 255)) = k₀ at h
    have h₀ : k₀.paging = k.paging ∧ k₀.processes = k.processes ∧ k₀.pcb = k.pcb ∧ k₀.cpu = k.cpu := by
      rw [← hk₀]
      exact ⟨rfl, rfl, rfl, rfl⟩
    rw [← h₀.1, ← h₀.2.1, ← h₀.2.2.1, ← h₀.2.2.2]
    generalize (k₀.pcb (getPcb k₀.cpu.esp)).terminalInfo = info at h ⊢
    have hb : (k₀.borrowScreen info t).paging = if info.isOnscreen = 0 then k₀.paging.setVideo video
      else k₀.paging := by
      unfold Kernel.borrowScreen
      split <;> rfl
    cases hs : handleScanCode img fs (k₀.borrowScreen info t) e t temp with
    | ret r k₁ =>
      simp only [hs] at h
      cases h
    | gone k₁ =>
      simp only [hs, Outcome.gone.injEq] at h
      obtain ⟨p, hp, hpaging⟩ := paging_handleScanCode_gone hs
      rw [(borrowScreen_processes k₀ info t).1] at hp
      refine ⟨p, hp, ?_⟩
      rw [← h, hpaging, hb]
    | fault k₁ =>
      simp only [hs] at h
      cases h

/-! ## Exits and ticks -/

theorem paging_halt_same {caller : Cpu} {status c q : ℕ} (hc : c < maxProcesses) (hq : q < maxProcesses)
    (hcur : getPcb k.cpu.esp = getPcbPtr c) (hpar : (k.processes.info c).parent = getPcbPtr q)
    (hterm : (k.processes.info q).terminalNum = (k.processes.info c).terminalNum)
    (hid : (k.processes.info q).processId = q) (h : halt img fs k e caller status = .gone k') :
    k'.paging = k.paging.setProgram (programFrame q) := by
  have hparent : (k.pcb (getPcb k.cpu.esp)).parent = getPcbPtr q := by
    rw [hcur, ← Pcb.info_parent, slot_info hc, hpar]
  have hview := k.deactivate_processes hc
  have hpaging : (k.setPcb (getPcbPtr c) fun p => { p with isActive := 0 }).paging = k.paging := rfl
  unfold halt at h
  simp only at h
  rw [hparent, if_neg (getPcbPtr_ne_zero hq), hcur] at h
  generalize (k.setPcb (getPcbPtr c) fun p => { p with isActive := 0 }) = k₁ at hview hpaging h
  rw [if_neg] at h
  · cases h
    rw [Kernel.paging_haltProcess, ← hpaging]
    have hq' : (k₁.pcb (getPcbPtr q)).processId = q := by
      rw [← Pcb.info_processId, slot_info hq, hview,
        Processes.setInfo_field _ Info.processId _ _ (Info.setActive 0) fun _ => rfl, hid]
    have hmod : q % 256 = q := by
      simp only [maxProcesses] at hq
      omega
    rw [Kernel.paging_handBack, hq', hmod]
  · rw [← Pcb.info_terminalNum, ← Pcb.info_terminalNum, slot_info hq, slot_info hc, hview,
      Processes.setInfo_field _ Info.terminalNum _ _ (Info.setActive 0) fun _ => rfl,
      Processes.setInfo_field _ Info.terminalNum _ _ (Info.setActive 0) fun _ => rfl]
    exact not_not.mpr hterm

end Functions
end Kernel391
