import Kernel391.System.CalmRuns

/-! What a running program can reach. The process that runs is followed through the run by
the code's own choices, not by the tables: the child after `execute`, the parent after
`halt`, the scheduler's choice after a tick, the new shell after a terminal's creation. -/
namespace Kernel391
open Kernel391.Foundations
set_option autoImplicit false

/-! ## The walk in user mode -/

namespace Kernel
variable (k : Kernel)

/-- The user bit is set at every level of the walk. -/
def userAccessible (a : ℕ) : Bool :=
  match k.pageDir (a / 2 ^ 22) with
  | .word w => w / 4 % 2 = 1
  | .table t flags => flags / 4 % 2 = 1 ∧ k.tableOf t (tableIdx a) / 4 % 2 = 1

/-- The physical address a program's access leads to. -/
def userTranslate (a : ℕ) : Option ℕ := if k.userAccessible a then k.translate a else none

end Kernel

/-- The virtual addresses of the program, and those of the page `vidmap` hands out. -/
def InProgram (a : ℕ) : Prop := programAddr ≤ a ∧ a < programAddr + fourMb
def InVidmap (a : ℕ) : Prop := vmemAddr ≤ a ∧ a < vmemAddr + fourKb

/-- Slot `p` runs in its own address space. -/
structure Isolated (k : Kernel) (p : ℕ) : Prop where
  program : ∀ o < fourMb, k.userTranslate (programAddr + o) = some (programFrame p + o)
  vidmap : ∃ page, (page = video ∨ page = fakePage (k.slot p).terminalInfo.terminalNum) ∧
    ∀ o < fourKb, k.userTranslate (vmemAddr + o) = some (page + o)
  user : ∀ a < 2 ^ 32, k.userTranslate a ≠ none → InProgram a ∨ InVidmap a
  absent : ∀ a < 2 ^ 32, k.translate a ≠ none → a < eightMb ∨ InProgram a ∨ InVidmap a
  stack : eightMb - eightKb * (p + 1) < k.tss.esp0 ∧ k.tss.esp0 ≤ eightMb - eightKb * p

section Walk
variable {k : Kernel} {p page a : ℕ}

theorem directory_of (h : k.paging = Paging.of (programFrame p) page) (i : ℕ) :
    k.pageDir i = if i = programIdx then programEntry (programFrame p)
      else if i = vmemAddr / 2 ^ 22 then .table .pageTblVmem 7 else setupPagerDirectory i := by
  have hdir :
    k.pageDir = Function.update (Function.update setupPagerDirectory (vmemAddr / 2 ^ 22) (.table .pageTblVmem 7))
    programIdx (programEntry (programFrame p)) := congrArg Paging.directory h
  rw [hdir, Function.update_apply, Function.update_apply]

theorem vidmap_of (h : k.paging = Paging.of (programFrame p) page) (i : ℕ) :
    k.pageTblVmem i = if i = tableIdx vmemAddr then pageTableEntry page 1 else emptyPage := by
  have hvid : k.pageTblVmem = Function.update (fun _ => emptyPage) (tableIdx vmemAddr) (pageTableEntry page 1) :=
    congrArg Paging.vidmap h
  rw [hvid, Function.update_apply]

theorem walk_entry (h : k.pageDir programIdx = programEntry (programFrame p)) (hp : p < maxProcesses)
    (ha : a / 2 ^ 22 = programIdx) :
    k.userTranslate a = some (programFrame p + a % 2 ^ 22) ∧ k.translate a = some (programFrame p + a % 2 ^ 22) := by
  have hframe := programFrame_entry hp
  generalize programFrame p = f at h hframe ⊢
  unfold programEntry at h
  generalize f / 2 ^ 22 % 2 ^ 10 = d at h hframe
  have hlow : (d * 2 ^ 22 + 0x87) % 2 = 1 := by omega
  have hlarge : (d * 2 ^ 22 + 0x87) / 128 % 2 = 1 := by omega
  have huser : (d * 2 ^ 22 + 0x87) / 4 % 2 = 1 := by omega
  have hdiv : (d * 2 ^ 22 + 0x87) / 2 ^ 22 = d := by omega
  unfold Kernel.userTranslate Kernel.userAccessible Kernel.translate
  simp only [ha, h, hlow, hlarge, huser, hdiv, and_self, decide_true, if_true]
  rw [hframe]

theorem program_index {o : ℕ} (ho : o < fourMb) : (programAddr + o) / 2 ^ 22 = programIdx ∧
    (programAddr + o) % 2 ^ 22 = o := by
  simp only [programAddr, programIdx, fourMb] at ho ⊢
  omega

theorem walk_program (h : k.paging = Paging.of (programFrame p) page) (hp : p < maxProcesses)
    (ha : a / 2 ^ 22 = programIdx) :
    k.userTranslate a = some (programFrame p + a % 2 ^ 22) := by
  have hdir := directory_of h programIdx
  rw [if_pos rfl] at hdir
  exact (walk_entry hdir hp ha).1

theorem walk_vidmap (h : k.paging = Paging.of (programFrame p) page) (hpage : page % 2 ^ 12 = 0) (hlt : page < 2 ^ 32)
    (ha : a / 2 ^ 22 = vmemAddr / 2 ^ 22) :
    k.translate a = (if tableIdx a = tableIdx vmemAddr then some (page + a % 2 ^ 12) else none) ∧
      k.userTranslate a = k.translate a := by
  have hne : vmemAddr / 2 ^ 22 ≠ programIdx := by decide
  have hdir := directory_of h (a / 2 ^ 22)
  rw [ha, if_neg hne, if_pos rfl, ← ha] at hdir
  have hentry := vidmap_of h (tableIdx a)
  have hpresent : pageTableEntry page 1 % 2 = 1 ∧ pageTableEntry page 1 / 4 % 2 = 1 ∧
      pageTableEntry page 1 / 2 ^ 12 * 2 ^ 12 = page := by
    unfold pageTableEntry
    omega
  unfold Kernel.userTranslate Kernel.userAccessible Kernel.translate
  simp only [hdir, Kernel.tableOf, hentry]
  by_cases hi : tableIdx a = tableIdx vmemAddr
  · simp only [if_pos hi, hpresent]
    exact ⟨rfl, rfl⟩
  · simp only [if_neg hi]
    exact ⟨rfl, rfl⟩

theorem walk_low (h : k.paging = Paging.of (programFrame p) page) (ha : a / 2 ^ 22 < 2) : k.userTranslate a = none := by
  have hdir := directory_of h (a / 2 ^ 22)
  have hcases : a / 2 ^ 22 = 0 ∨ a / 2 ^ 22 = 1 := by omega
  unfold Kernel.userTranslate Kernel.userAccessible
  rcases hcases with hz | hz
  · rw [hz] at hdir
    simp only [hz, hdir]
    rfl
  · rw [hz] at hdir
    simp only [hz, hdir]
    rfl

theorem walk_absent (h : k.paging = Paging.of (programFrame p) page) (h₁ : a / 2 ^ 22 ≠ programIdx)
    (h₂ : a / 2 ^ 22 ≠ vmemAddr / 2 ^ 22) (h₃ : ¬ a / 2 ^ 22 < 2) : k.translate a = none := by
  have hdir := directory_of h (a / 2 ^ 22)
  have h0 : a / 2 ^ 22 ≠ 0 := by omega
  have h1 : a / 2 ^ 22 ≠ 1 := by omega
  rw [if_neg h₁, if_neg h₂] at hdir
  unfold setupPagerDirectory at hdir
  rw [if_neg h0, if_neg h1] at hdir
  unfold Kernel.translate
  rw [hdir]
  rfl

/-- **The tables isolate** the slot whose program page they hold. -/
theorem isolated_of (h : k.paging = Paging.of (programFrame p) page) (hp : p < maxProcesses) {t : ℕ} (ht : t < 3)
    (hpage : page = video ∨ page = fakePage t) (hterm : (k.slot p).terminalInfo.terminalNum = t)
    (hstack : k.tss.esp0 = stackTop p - 4 ∨ k.tss.esp0 = stackTop p) : Isolated k p := by
  have halign : page % 2 ^ 12 = 0 ∧ page < 2 ^ 32 := by
    rcases hpage with rfl | rfl
    · decide
    · rw [fakePage_eq]
      simp only [video, fourKb]
      omega
  have hregion : ∀ a < 2 ^ 32, k.translate a ≠ none → a / 2 ^ 22 < 2 ∨ InProgram a ∨ InVidmap a := by
    intro a ha hpres
    by_cases h₁ : a / 2 ^ 22 = programIdx
    · refine Or.inr (Or.inl ?_)
      unfold InProgram
      simp only [programIdx, programAddr, fourMb] at *
      omega
    by_cases h₂ : a / 2 ^ 22 = vmemAddr / 2 ^ 22
    · refine Or.inr (Or.inr ?_)
      have hw := (walk_vidmap h halign.1 halign.2 h₂).1
      by_cases hi : tableIdx a = tableIdx vmemAddr
      · unfold InVidmap
        unfold tableIdx at hi
        simp only [vmemAddr, fourKb] at *
        omega
      · rw [if_neg hi] at hw
        exact absurd hw hpres
    by_cases h₃ : a / 2 ^ 22 < 2
    · exact Or.inl h₃
    · exact absurd (walk_absent h h₁ h₂ h₃) hpres
  have huser : ∀ a, k.userTranslate a ≠ none → k.translate a ≠ none := by
    intro a ha hx
    unfold Kernel.userTranslate at ha
    rw [hx, ite_self] at ha
    exact ha rfl
  refine ⟨fun o ho => ?_, ⟨page, ?_, fun o ho => ?_⟩, fun a ha hua => ?_, fun a ha hpres => ?_, ?_⟩
  · obtain ⟨hidx, hoff⟩ := program_index ho
    rw [walk_program h hp hidx, hoff]
  · rw [hterm]
    exact hpage
  · have hidx : (vmemAddr + o) / 2 ^ 22 = vmemAddr / 2 ^ 22 := by
      simp only [vmemAddr, fourKb] at ho ⊢
      omega
    have htbl : tableIdx (vmemAddr + o) = tableIdx vmemAddr := by
      unfold tableIdx
      simp only [vmemAddr, fourKb] at ho ⊢
      omega
    have hoff : (vmemAddr + o) % 2 ^ 12 = o := by
      simp only [vmemAddr, fourKb] at ho ⊢
      omega
    obtain ⟨hw, hwu⟩ := walk_vidmap h halign.1 halign.2 hidx
    rw [hwu, hw, if_pos htbl, hoff]
  · refine (hregion a ha (huser a hua)).resolve_left fun hlow => ?_
    exact hua (walk_low h hlow)
  · refine (hregion a ha hpres).imp_left fun hlow => ?_
    simp only [eightMb]
    omega
  · have hp' : p < 6 := hp
    unfold stackTop at hstack
    simp only [eightMb, eightKb] at *
    omega

end Walk

/-! ## The process that is chosen to run -/

def slotOf (a : ℕ) : ℕ := (eightMb - a) / eightKb - 1

theorem slotOf_getPcbPtr {p : ℕ} (hp : p < maxProcesses) : slotOf (getPcbPtr p) = p := by
  rw [getPcbPtr_eq hp]
  unfold slotOf
  simp only [maxProcesses, eightMb, eightKb] at *
  omega

namespace Kernel
variable (img : Image) (fs : Filesystem) (k : Kernel) (c : ℕ)

/-- The slot a new program gets; none is free, and `c` goes on. -/
def newSlot : ℕ := (k.getProcessId.map Prod.fst).getD c

/-- Who goes on after the process in slot `c` ends: the first shell again, its parent in the same terminal, or
slot `c` itself, in the last loop of `halt`. -/
def exitsTo : ℕ :=
  if (k.slot c).parent = 0 then 0
  else if (k.pcb (k.slot c).parent).terminalInfo.terminalNum ≠ (k.slot c).terminalInfo.terminalNum then c
  else slotOf (k.slot c).parent

/-- The slot that has the processor after an event, when slot `c` had it before. -/
def chosen : Event → ℕ
  | .tick _ => ((k.findNextActivePcb (getPcbPtr c)).map slotOf).getD c
  | .key _ scanCode =>
    match k.requests scanCode with
    | some t => if k.findTerminalPid t = none then k.newSlot c else c
    | none => c
  | .execute e command =>
    match execute img fs (k.enter e.regs.esp) e k.cpu command with
    | .ret _ _ => c
    | .gone _ => k.newSlot c
    | .fault _ => k.exitsTo c
  | .halt _ _ => k.exitsTo c
  | .exception _ _ => k.exitsTo c
  | _ => c

end Kernel

section Chosen
variable {img : Image} {fs : Filesystem} {k k' k₁ : Kernel} {S S' : Stacks} {c c' p q y t status : ℕ}
  {l : List ℕ} {ev : Event}
  {e : Entry}

theorem getProcessId_of_firstFree (h : k.processes.FirstFree p) : k.getProcessId.map Prod.fst = some p := by
  cases hid : k.getProcessId with
  | none => exact absurd h.free (Kernel.getProcessId_none.mp hid p h.lt)
  | some x =>
    obtain ⟨q, k'⟩ := x
    exact congrArg some ((Kernel.getProcessId_processes hid).1.unique h)

theorem newSlot_of_firstFree (h : k.processes.FirstFree p) : k.newSlot c = p := by
  unfold Kernel.newSlot
  rw [getProcessId_of_firstFree h]
  rfl

theorem newSlot_full (h : ∀ p < maxProcesses, k.processes.ids p ≠ 0) : k.newSlot c = c := by
  unfold Kernel.newSlot
  rw [Kernel.getProcessId_none.mpr h]
  rfl

theorem findTerminalPid_of_nil (h : At k.processes S c) (hS : S t = []) : k.findTerminalPid t = none := by
  rw [← Kernel.processes_findTerminalPid]
  cases hf : k.processes.findTerminalPid t with
  | none => rfl
  | some q =>
    obtain ⟨-, l, hl⟩ := h.table.findTerminalPid_some hf
    cases hS.symm.trans hl

theorem findTerminalPid_of_cons (h : At k.processes S c) (hS : S t = q :: l) : k.findTerminalPid t = some q := by
  rw [← Kernel.processes_findTerminalPid, h.table.findTerminalPid_eq hS]

theorem exitsTo_parent (hc : c < maxProcesses) (hq : q < maxProcesses)
    (hpar : (k.processes.info c).parent = getPcbPtr q)
    (hterm : (k.processes.info q).terminalNum = (k.processes.info c).terminalNum) : k.exitsTo c = q := by
  rw [k.processes_info hc, Pcb.info_parent] at hpar
  rw [k.processes_info hc, k.processes_info hq, Pcb.info_terminalNum, Pcb.info_terminalNum] at hterm
  unfold Kernel.slot at hpar hterm
  unfold Kernel.exitsTo Kernel.slot
  rw [hpar, if_neg (getPcbPtr_ne_zero hq), if_neg (not_not.mpr hterm), slotOf_getPcbPtr hq]

theorem exitsTo_spin (hc : c < maxProcesses) (hy : y < maxProcesses) (hpar : (k.processes.info c).parent = getPcbPtr y)
    (hterm : (k.processes.info y).terminalNum ≠ (k.processes.info c).terminalNum) : k.exitsTo c = c := by
  rw [k.processes_info hc, Pcb.info_parent] at hpar
  rw [k.processes_info hc, k.processes_info hy, Pcb.info_terminalNum, Pcb.info_terminalNum] at hterm
  unfold Kernel.slot at hpar hterm
  unfold Kernel.exitsTo Kernel.slot
  rw [hpar, if_neg (getPcbPtr_ne_zero hy), if_pos hterm]

theorem chosen_ending (h : Ending img fs k ev k₁ e status) : k.chosen img fs c ev = k.exitsTo c := by
  cases h with
  | halt => rfl
  | exception => rfl
  | fault hf =>
    unfold Kernel.chosen
    simp only [hf]

/-- **The slot a move leads to** is the one the code chooses. -/
theorem Move.chosen (m : Move img fs k S c k' ev S' c') (h : At k.processes S c) (hk' : k'.cpu.mode ≠ .wild) :
    c' = k.chosen img fs c ev := by
  cases m with
  | stay quiet =>
    cases ev with
    | tick e => exact absurd rfl (quiet.tick e)
    | key e scanCode =>
      unfold Kernel.chosen
      cases hreq : k.requests scanCode with
      | none => simp only [hreq]
      | some t =>
        obtain ⟨hS, hfull⟩ := quiet.key e scanCode t rfl hreq
        simp only [hreq, findTerminalPid_of_nil h hS, if_true, newSlot_full hfull]
    | execute e command =>
      unfold Kernel.chosen
      cases ho : execute img fs (k.enter e.regs.esp) e k.cpu command with
      | ret r k₁ => simp only [ho]
      | gone k₁ => exact absurd ho (quiet.execute e command k₁ rfl)
      | fault k₁ => exact absurd (Ending.fault ho) (quiet.going _ _ _)
    | halt e status => exact absurd (Ending.halt e status) (quiet.going _ _ _)
    | exception e vector => exact absurd (Ending.exception e vector) (quiet.going _ _ _)
    | output b => rfl
    | trap x => rfl
    | work w => rfl
  | tick entered top next =>
    unfold Kernel.chosen
    simp only [next, Option.map_some, Option.getD_some, slotOf_getPcbPtr (h.table.slot_lt top.stacked)]
  | display entered request stack =>
    unfold Kernel.chosen
    simp only [request, findTerminalPid_of_cons h stack, reduceCtorEq, if_false]
  | create entered entry request stack slot =>
    unfold Kernel.chosen
    simp only [request, findTerminalPid_of_nil h stack, if_true, newSlot_of_firstFree slot]
  | push entered entry stack slot gone =>
    unfold Kernel.chosen
    simp only [gone, newSlot_of_firstFree slot]
  | @pop _ _ _ t q l _ _ _ entered ending before leak stack =>
    have hc : c ∈ S t := by
      rw [stack]
      exact List.mem_cons_self ..
    have hq : c' ∈ S t := by
      rw [stack]
      exact List.mem_cons_of_mem _ (List.mem_cons_self ..)
    have hpar := h.table.calls t
    rw [stack, List.isChain_cons_cons] at hpar
    rw [chosen_ending ending, exitsTo_parent h.lt (h.table.lt t c' hq).2 hpar.1]
    rw [(h.table.slot t c' hq).terminalNum, (h.table.slot t c hc).terminalNum]
  | restart entered ending before leak stack =>
    have hfirst := h.table.first
    rw [stack, List.getLast?_singleton, Option.some.injEq] at hfirst
    have hroot := h.table.root
    rw [k.processes_info (by decide), Pcb.info_parent] at hroot
    subst hfirst
    rw [chosen_ending ending]
    unfold Kernel.exitsTo
    rw [if_pos hroot]
  | @close _ _ _ t _ _ _ _ _ _ entered ending before leak stack other parent elsewhere =>
    have hc : c ∈ S t := by
      rw [stack]
      exact List.mem_cons_self ..
    rw [chosen_ending ending, exitsTo_spin h.lt parent.1 parent.2]
    rw [(h.table.slot t c hc).terminalNum]
    exact elsewhere
  | lost entered ending before leak stack other parent same gone view wild => exact absurd wild hk'

end Chosen

/-! ## The mapping through a run -/

/-- The physical video page or the page of a terminal. -/
def VideoPage (page : ℕ) : Prop := page = video ∨ ∃ u < 3, page = fakePage u

def Paging.Formed (P : Paging) : Prop := ∃ a page, P = Paging.of a page ∧ VideoPage page

/-- The tables outside the last loop of `halt` are those of slot `c`. -/
structure Mapped (k : Kernel) (c : ℕ) : Prop where
  formed : k.paging.Formed
  page : VideoPage (k.processes.info c).fakePageAddr
  own : k.cpu.mode ≠ .spin → ∃ page, k.paging = Paging.of (programFrame c) page ∧
    (page = video ∨ page = (k.processes.info c).fakePageAddr)

/-- A keystroke that opens terminal `t` while the flag of the interrupted process says it is on screen finds the page
of `vidmap` on the physical video page, or on that of `t`. -/
def MapsOwn (k : Kernel) (ev : Event) : Prop :=
  ∀ e scanCode t, ev = .key e scanCode → k.requests scanCode = some t → k.findTerminalPid t = none →
    k.getProcessId ≠ none → (k.pcb k.current).terminalInfo.isOnscreen ≠ 0 →
    k.pageTblVmem (tableIdx vmemAddr) = pageTableEntry video 1 ∨
      k.pageTblVmem (tableIdx vmemAddr) = pageTableEntry (fakePage t) 1

section Mapped
variable {img : Image} {k k' k₁ : Kernel} {S S' : Stacks} {c c' p q t status : ℕ} {ev : Event}
  {e : Entry}

theorem Paging.Formed.setProgram {P : Paging} (h : P.Formed) (a : ℕ) : (P.setProgram a).Formed := by
  obtain ⟨b, page, rfl, hpage⟩ := h
  exact ⟨a, page, Paging.of_setProgram b a page, hpage⟩

theorem Paging.Formed.remapped {P P' : Paging} {own : ℕ} (h : P.Formed) (hown : VideoPage own)
    (hr : Paging.Remapped own P P') :
    P'.Formed := by
  obtain ⟨b, page, rfl, hpage⟩ := h
  rcases hr with rfl | rfl | rfl
  · exact ⟨b, page, rfl, hpage⟩
  · exact ⟨b, video, Paging.of_setVideo b page video, Or.inl rfl⟩
  · exact ⟨b, own, Paging.of_setVideo b page own, hown⟩

theorem remapped_of {P : Paging} {a page own : ℕ} (hpage : page = video ∨ page = own)
    (hr : Paging.Remapped own (Paging.of a page) P) :
    ∃ page', P = Paging.of a page' ∧ (page' = video ∨ page' = own) := by
  rcases hr with rfl | rfl | rfl
  · exact ⟨page, rfl, hpage⟩
  · exact ⟨video, Paging.of_setVideo a page video, Or.inl rfl⟩
  · exact ⟨own, Paging.of_setVideo a page own, Or.inr rfl⟩

theorem VideoPage.entry_inj {page page' : ℕ} (h : VideoPage page) (h' : VideoPage page')
    (he : pageTableEntry page 1 = pageTableEntry page' 1) : page = page' := by
  have hentry : ∀ {x}, VideoPage x → pageTableEntry x 1 = x + 7 := by
    intro x hx
    have hx' : x % 2 ^ 12 = 0 ∧ x < 2 ^ 32 := by
      rcases hx with rfl | ⟨u, hu, rfl⟩
      · decide
      · rw [fakePage_eq]
        simp only [video, fourKb]
        omega
    unfold pageTableEntry
    omega
  rw [hentry h, hentry h'] at he
  omega

theorem mode_of_top (h : At k.processes S c) (ht : IsTop S c) : k.cpu.mode = .user ∨ k.cpu.mode = .kernel := by
  rcases h.running.2 with ⟨-, hu | ⟨hk, -, -⟩⟩ | ⟨-, -, hs, -⟩
  · exact Or.inl hu
  · exact Or.inr hk
  · exact absurd ht.stacked hs

theorem not_spin_of_top (h : At k.processes S c) (ht : IsTop S c) : k.cpu.mode ≠ .spin := by
  rcases mode_of_top h ht with hm | hm <;> rw [hm] <;> decide

theorem not_wild (h : At k.processes S c) : k.cpu.mode ≠ .wild := by
  by_cases hs : k.cpu.mode = .spin
  · rw [hs]
    decide
  · rcases mode_of_top h (h.isTop hs) with hm | hm <;> rw [hm] <;> decide

theorem page_of_top (h : At k.processes S c) (ht : IsTop S c) : VideoPage (k.processes.info c).fakePageAddr := by
  obtain ⟨t, hmem⟩ := ht.stacked
  exact Or.inr ⟨t, (h.table.lt t c hmem).1, (h.table.slot t c hmem).fakePageAddr⟩

theorem Mapped.of_page (page : ℕ) (h : At k.processes S c) (ht : IsTop S c)
    (hp : k.paging = Paging.of (programFrame c) page)
    (hpage : page = video ∨ page = (k.processes.info c).fakePageAddr) : Mapped k c where
  formed := by
    refine ⟨_, page, hp, ?_⟩
    rcases hpage with rfl | rfl
    · exact Or.inl rfl
    · exact page_of_top h ht
  page := page_of_top h ht
  own _ := ⟨page, hp, hpage⟩

theorem Mapped.remapped (hm : Mapped k c) (h : At k.processes S c) (h' : At k'.processes S c)
    (hr : Paging.Remapped (k.processes.info c).fakePageAddr k.paging k'.paging)
    (hinfo : (k'.processes.info c).fakePageAddr = (k.processes.info c).fakePageAddr) : Mapped k' c where
  formed := hm.formed.remapped hm.page hr
  page := by
    rw [hinfo]
    exact hm.page
  own hspin := by
    obtain ⟨page, hp, hpage⟩ := hm.own (not_spin_of_top h (h'.isTop hspin))
    rw [hinfo]
    rw [hp] at hr
    exact remapped_of hpage hr

theorem ending_paging {fs : Filesystem} (hent : EntryOn c e) (hend : Ending img fs k ev k₁ e status) :
    getPcb k₁.cpu.esp = getPcbPtr c ∧ (k₁.paging = k.paging ∨ ∃ a, k₁.paging = k.paging.setProgram a) := by
  have hannounce : ∀ (k : Kernel) vector, (k.announce vector).paging = k.paging ∧ (k.announce vector).cpu = k.cpu :=
    fun _ _ => ⟨rfl, rfl⟩
  cases hend with
  | halt => exact ⟨hent.esp, Or.inl rfl⟩
  | exception => exact ⟨hent.esp, Or.inl rfl⟩
  | @fault _ _ k₂ hf =>
    rw [(hannounce k₂ 14).1, (hannounce k₂ 14).2, (execute_fault_early hf).2.1]
    have hp := paging_execute_fault hf
    rw [Kernel.paging_enter] at hp
    exact ⟨hent.esp, hp⟩

theorem tick_mapped (h : At k.processes S c) (h' : At k'.processes S q) (hent : EntryOn c e)
    (hm : Mapped k c) (hq : IsTop S q) (hnext : k.findNextActivePcb (getPcbPtr c) = some (getPcbPtr q))
    (hgone : pitHandler (k.interrupted e) e = .gone k') (hview : k'.processes = (k.preempted e).switchTo c q e)
    (he : Entered k.processes c k.cpu (k.preempted e)) : Mapped k' q := by
  have hsame : (k.interrupted e).findNextActivePcb (getPcbPtr c) = k.findNextActivePcb (getPcbPtr c) :=
    Kernel.findNextActivePcbLoop_congr rfl (fun _ _ => ⟨rfl, rfl⟩) h.lt
  have hqlt := h.table.slot_lt hq.stacked
  rw [Kernel.pitHandler_next (k := k.interrupted e) (q := q) (c := c) h.lt hent.esp (hsame.trans hnext),
    Outcome.gone.injEq] at hgone
  generalize hk₁ : (k.interrupted e).saveRegs (getPcbPtr c) e.regs = k₁ at hgone
  have hpaging : k₁.paging = k.paging := by
    rw [← hk₁]
    rfl
  have hinfo : k₁.processes.info = (k.processes.setInfo c (Info.saveRegs e.regs)).info := by
    rw [← hk₁, Kernel.processes_saveRegs _ h.lt]
    show ((k.preempted e).setInfo c (Info.saveRegs e.regs)).info = _
    unfold Processes.setInfo
    rw [he.info]
  have hkept := setInfo_kept (P := k.processes) (saveRegs_kept e.regs) c q
  rw [← hinfo] at hkept
  have hid : (k₁.pcb (getPcbPtr q)).processId % 256 = q := by
    rw [← Pcb.info_processId, slot_info hqlt, hkept.processId, h.table.processId hq.stacked]
    simp only [maxProcesses] at hqlt
    omega
  have hpage : (k₁.pcb (getPcbPtr q)).terminalInfo.fakePageAddr = (k'.processes.info q).fakePageAddr := by
    have hkept' := setInfo_kept (P := k.preempted e) (saveRegs_kept e.regs) c q
    rw [← Pcb.info_fakePageAddr, slot_info hqlt, hkept.fakePageAddr, hview, switchTo_info, hkept'.fakePageAddr, he.info]
  obtain ⟨a, page, hof, -⟩ := hm.formed
  refine Mapped.of_page (Kernel.videoPage (k₁.pcb (getPcbPtr q)).terminalInfo) h' hq ?_ ?_
  · rw [← hgone, Kernel.paging_doSchedule, Kernel.paging_loadNext, hpaging, hof, hid, Paging.of_setProgram,
      Paging.of_setVideo]
  · rw [← hpage]
    exact Kernel.videoPage_cases _

theorem create_mapped {fs : Filesystem} {scanCode o eip : ℕ} (h : At k.processes S c)
    (h' : At k'.processes (Function.update S t [p]) p)
    (hent : EntryOn c e) (hm : Mapped k c) (hok : MapsOwn k (.key e scanCode)) (hreq : k.requests scanCode = some t)
    (hS : S t = []) (hp : k.processes.FirstFree p)
    (hgone : handleKeyboard img fs (k.interrupted e) e scanCode = .gone k')
    (hview : k'.processes = (k.preempted e).create c o p t e eip) (he : Entered k.processes c k.cpu (k.preempted e)) :
    Mapped k' p := by
  obtain ⟨p', hp', hpaging⟩ := paging_handleKeyboard_gone hgone
  obtain rfl := (he.firstFree hp').unique hp
  rw [show getPcb (k.interrupted e).cpu.esp = getPcbPtr c from hent.esp] at hpaging
  have hsame : (k.interrupted e).paging = k.paging := rfl
  have hpcb : (k.interrupted e).pcb = k.pcb := rfl
  rw [hsame, hpcb] at hpaging
  have htop : IsTop (Function.update S t [p']) p' := isTop_update.mpr (Or.inl rfl)
  have hpage : (k'.processes.info p').fakePageAddr = fakePage t := by
    rw [hview, Processes.create_info, if_pos rfl]
    rfl
  obtain ⟨a, page, hof, hvideo⟩ := hm.formed
  by_cases hon : (k.pcb (getPcbPtr c)).terminalInfo.isOnscreen = 0
  · rw [if_pos hon, hof, Paging.of_setVideo, Paging.of_setProgram] at hpaging
    exact Mapped.of_page video h' htop hpaging (Or.inl rfl)
  · rw [if_neg hon, hof, Paging.of_setProgram] at hpaging
    refine Mapped.of_page page h' htop hpaging ?_
    rw [hpage]
    have hentry : k.pageTblVmem (tableIdx vmemAddr) = pageTableEntry page 1 := by
      have hvid : k.pageTblVmem = Function.update (fun _ => emptyPage) (tableIdx vmemAddr) (pageTableEntry page 1) :=
        congrArg Paging.vidmap hof
      rw [hvid, Function.update_self]
    have hslot : k.getProcessId ≠ none := fun hx => Kernel.getProcessId_none.mp hx p' hp.lt hp.free
    rw [← current_eq h] at hon
    refine (hok e scanCode t rfl hreq (findTerminalPid_of_nil h hS) hslot hon).imp (fun hx => ?_) fun hx => ?_
    · exact hvideo.entry_inj (Or.inl rfl) (hentry.symm.trans hx)
    · exact hvideo.entry_inj (Or.inr ⟨t, Kernel.requests_lt hreq, rfl⟩) (hentry.symm.trans hx)

theorem push_mapped {fs : Filesystem} {command : List UInt8} {l : List ℕ} {eip : ℕ} (h : At k.processes S c)
    (h' : At k'.processes (Function.update S t (p :: c :: l)) p) (hm : Mapped k c) (hS : S t = c :: l)
    (hp : k.processes.FirstFree p) (hgone : execute img fs (k.enter e.regs.esp) e k.cpu command = .gone k')
    (hview : k'.processes = (k.called e).push c p e k.cpu eip) (he : Entered k.processes c k.cpu (k.called e)) :
    Mapped k' p := by
  obtain ⟨p', hp', hpaging⟩ := paging_execute hgone
  obtain rfl := (he.firstFree hp').unique hp
  have hpc : p' ≠ c := fun hx => h.table.firstFree hp ⟨t, by rw [hx, hS]; exact List.mem_cons_self ..⟩
  have hpage : (k'.processes.info p').fakePageAddr = (k.processes.info c).fakePageAddr := by
    rw [hview, Processes.push_info _ hpc, if_pos rfl, ← he.info]
    rfl
  obtain ⟨page, hof, hvideo⟩ := hm.own (not_spin_of_top h (isTop_of_cons hS))
  rw [Kernel.paging_enter, hof, Paging.of_setProgram] at hpaging
  refine Mapped.of_page page h' (isTop_update.mpr (Or.inl rfl)) hpaging ?_
  rwa [hpage]

theorem ending_mapped {fs : Filesystem} (h : At k.processes S c) (hm : Mapped k c) (hs : step img fs k ev = some k')
    (hend : Ending img fs k ev k₁ e status) (ht : IsTop S c) :
    EntryOn c e ∧ getPcb k₁.cpu.esp = getPcbPtr c ∧ k₁.paging.Formed ∧ ∃ a page, k₁.paging = Paging.of a page ∧
      (page = video ∨ page = (k.processes.info c).fakePageAddr) := by
  have hent := (entryOn_of_ending h hs hend).1
  obtain ⟨hesp, hpaging⟩ := ending_paging hent hend
  obtain ⟨page, hof, hpage⟩ := hm.own (not_spin_of_top h ht)
  refine ⟨hent, hesp, ?_, ?_⟩
  · rcases hpaging with hp | ⟨a, hp⟩
    · rw [hp]
      exact hm.formed
    · rw [hp]
      exact hm.formed.setProgram a
  · rcases hpaging with hp | ⟨a, hp⟩
    · exact ⟨_, page, hp.trans hof, hpage⟩
    · exact ⟨a, page, hp.trans (by rw [hof, Paging.of_setProgram]), hpage⟩

theorem pop_paging {fs : Filesystem} {l : List ℕ} {o : Option ℕ} (h : At k.processes S c)
    (hs : step img fs k ev = some k')
    (hend : Ending img fs k ev k₁ e status) (he : Entered k.processes c k.cpu (k.called e))
    (hbefore : k₁.processes = (k.called e).leaked o) (hS : S t = c :: q :: l)
    (hgone : halt img fs k₁ e k.cpu status = .gone k') :
    k'.paging = k₁.paging.setProgram (programFrame q) := by
  obtain ⟨hesp, -⟩ := ending_paging (entryOn_of_ending h hs hend).1 hend
  have hc : c ∈ S t := by
    rw [hS]
    exact List.mem_cons_self ..
  have hq : q ∈ S t := by
    rw [hS]
    exact List.mem_cons_of_mem c (List.mem_cons_self ..)
  have hinfo : ∀ r, k₁.processes.info r = k.processes.info r := fun r => by rw [hbefore, leaked_info, he.info]
  have hpar := h.table.calls t
  rw [hS, List.isChain_cons_cons] at hpar
  exact paging_halt_same h.lt (h.table.lt t q hq).2 hesp (by rw [hinfo]; exact hpar.1)
    (by rw [hinfo, hinfo, (h.table.slot t q hq).terminalNum, (h.table.slot t c hc).terminalNum])
    (by rw [hinfo]; exact (h.table.slot t q hq).processId) hgone

theorem pop_mapped {fs : Filesystem} {l : List ℕ} {o : Option ℕ} {x : Cpu} (h : At k.processes S c)
    (h' : At k'.processes (Function.update S t (q :: l)) q) (hm : Mapped k c) (hs : step img fs k ev = some k')
    (hend : Ending img fs k ev k₁ e status) (he : Entered k.processes c k.cpu (k.called e))
    (hbefore : k₁.processes = (k.called e).leaked o) (hS : S t = c :: q :: l)
    (hgone : halt img fs k₁ e k.cpu status = .gone k')
    (hview : k'.processes = (((k.called e).leaked o).exitTo c q).resume x) : Mapped k' q := by
  obtain ⟨-, -, -, a, page, hof, hpage⟩ := ending_mapped h hm hs hend (isTop_of_cons hS)
  have hc : c ∈ S t := by
    rw [hS]
    exact List.mem_cons_self ..
  have hq : q ∈ S t := by
    rw [hS]
    exact List.mem_cons_of_mem c (List.mem_cons_self ..)
  have hpaging := pop_paging h hs hend he hbefore hS hgone
  rw [hof, Paging.of_setProgram] at hpaging
  refine Mapped.of_page page h' (isTop_update.mpr (Or.inl rfl)) hpaging ?_
  have hkept : (k'.processes.info q).fakePageAddr = fakePage t := by
    rw [hview]
    show ((((k.called e).leaked o).exitTo c q).info q).fakePageAddr = fakePage t
    rw [(exitTo_kept q).fakePageAddr, leaked_info, he.info, (h.table.slot t q hq).fakePageAddr]
  rw [hkept, ← (h.table.slot t c hc).fakePageAddr]
  exact hpage

theorem restart_paging {fs : Filesystem} {o : Option ℕ} (h : At k.processes S 0) (hs : step img fs k ev = some k')
    (hend : Ending img fs k ev k₁ e status) (he : Entered k.processes 0 k.cpu (k.called e))
    (hbefore : k₁.processes = (k.called e).leaked o) (hS : S 0 = [0])
    (hgone : halt img fs k₁ e k.cpu status = .gone k') :
    k'.paging = k₁.paging.setProgram (programFrame 0) := by
  obtain ⟨hesp, -⟩ := ending_paging (entryOn_of_ending h hs hend).1 hend
  have hc : 0 ∈ S 0 := by
    rw [hS]
    exact List.mem_cons_self ..
  have hinfo : ∀ r, k₁.processes.info r = k.processes.info r := fun r => by rw [hbefore, leaked_info, he.info]
  have hid : (k₁.processes.info 0).processId = 0 := by
    rw [hinfo]
    exact (h.table.slot 0 0 hc).processId
  rw [halt_root h.lt hesp (by rw [hinfo]; exact h.table.root), hid] at hgone
  have hexec : execute img fs (k₁.freeProcess 0) e k.cpu shell = .gone k' := by
    cases hx : execute img fs (k₁.freeProcess 0) e k.cpu shell with
    | ret r k₂ =>
      rw [hx] at hgone
      cases hgone
    | gone k₂ =>
      rw [hx] at hgone
      exact hgone
    | fault k₂ =>
      rw [hx] at hgone
      cases hgone
  obtain ⟨p, hp, hpaging⟩ := paging_execute hexec
  have hp0 : p = 0 := by
    by_contra hne
    exact hp.least 0 (by omega) (Function.update_self 0 0 k₁.processIds)
  rw [hpaging, hp0, Kernel.paging_freeProcess]

theorem restart_mapped {fs : Filesystem} {eip : ℕ} {o : Option ℕ} (h : At k.processes S c) (h' : At k'.processes S c)
    (hm : Mapped k c) (hs : step img fs k ev = some k') (hend : Ending img fs k ev k₁ e status)
    (he : Entered k.processes c k.cpu (k.called e)) (hbefore : k₁.processes = (k.called e).leaked o) (hS : S 0 = [c])
    (hgone : halt img fs k₁ e k.cpu status = .gone k')
    (hview : k'.processes = (((k.called e).leaked o).release c).start e k.cpu eip) : Mapped k' c := by
  obtain ⟨-, -, -, a, page, hof, hpage⟩ := ending_mapped h hm hs hend (isTop_of_cons hS)
  have hc : c ∈ S 0 := by
    rw [hS]
    exact List.mem_cons_self ..
  have hc0 : c = 0 := by
    have hfirst := h.table.first
    rw [hS, List.getLast?_singleton, Option.some.injEq] at hfirst
    exact hfirst
  subst hc0
  have hpaging := restart_paging h hs hend he hbefore hS hgone
  rw [hof, Paging.of_setProgram] at hpaging
  refine Mapped.of_page page h' (isTop_of_cons hS) hpaging ?_
  rw [hview, Processes.start_info, if_pos rfl]
  rwa [(h.table.slot 0 0 hc).fakePageAddr] at hpage

theorem close_mapped {fs : Filesystem} {o : Option ℕ} {x : Cpu} {y d : ℕ} (h : At k.processes S c) (hm : Mapped k c)
    (hs : step img fs k ev = some k') (hend : Ending img fs k ev k₁ e status)
    (he : Entered k.processes c k.cpu (k.called e))
    (hbefore : k₁.processes = (k.called e).leaked o) (hS : S t = [c]) (hy : y < maxProcesses)
    (hpar : (k.processes.info c).parent = getPcbPtr y) (helse : (k.processes.info y).terminalNum ≠ t)
    (hgone : halt img fs k₁ e k.cpu status = .gone k') (hspin : x.mode = .spin)
    (hview : k'.processes = (((k.called e).leaked o).exitToSpin c d q).resume x) : Mapped k' c := by
  obtain ⟨hent, hesp, hformed, -⟩ := ending_mapped h hm hs hend (isTop_of_cons hS)
  have hc : c ∈ S t := by
    rw [hS]
    exact List.mem_cons_self ..
  have hinfo : ∀ r, k₁.processes.info r = k.processes.info r := fun r => by rw [hbefore, leaked_info, he.info]
  obtain ⟨k₂, hk₂, hview₂, hhalt⟩ := @halt_cross img fs k₁ e k.cpu status c y h.lt hy hesp (by rw [hinfo, hpar])
    (by rw [hinfo, hinfo, (h.table.slot t c hc).terminalNum]; exact helse)
  have hpage : ((k₂.pcb (getPcb k₂.cpu.esp)).terminalInfo).fakePageAddr = (k.processes.info c).fakePageAddr := by
    rw [show k₂.cpu = k₁.cpu by rw [hk₂]; rfl, hesp, ← Pcb.info_fakePageAddr, slot_info h.lt, hview₂,
      Processes.setInfo_field _ Info.fakePageAddr _ _ (Info.setActive 0) fun _ => rfl, hinfo]
  have hformed₂ : k₂.paging.Formed := by
    rw [hk₂]
    exact hformed
  rw [hhalt] at hgone
  refine ⟨?_, ?_, fun hns => ?_⟩
  · cases hx : switchTerminal img fs k₂ e 0 with
    | ret r k₃ =>
      rw [hx] at hgone
      cases hgone
      have hr := (paging_switchTerminal hx).1
      rw [hpage] at hr
      exact hformed₂.remapped hm.page hr
    | gone k₃ =>
      rw [hx] at hgone
      cases hgone
      obtain ⟨p, -, hp⟩ := paging_switchTerminal_gone hx
      rw [hp]
      exact hformed₂.setProgram _
    | fault k₃ =>
      rw [hx] at hgone
      cases hgone
  · rw [hview]
    show VideoPage ((((k.called e).leaked o).exitToSpin c d q).info c).fakePageAddr
    rw [(exitToSpin_kept c).fakePageAddr, leaked_info, he.info]
    exact hm.page
  · refine absurd ?_ hns
    show k'.processes.cpu.mode = .spin
    rw [hview]
    exact hspin

theorem Move.mapped {fs : Filesystem} (m : Move img fs k S c k' ev S' c') (h : At k.processes S c)
    (h' : At k'.processes S' c')
    (hs : step img fs k ev = some k') (hm : Mapped k c) (hok : MapsOwn k ev) : Mapped k' c' := by
  cases m with
  | stay uneventful ids info remapped => exact hm.remapped h h' remapped (by rw [info])
  | tick entered top next gone view => exact tick_mapped h h' (entryOn_of_tick h hs) hm top next gone view entered
  | display entered request stack ret resume view =>
    refine hm.remapped h h' ?_ ?_
    · have hr := interrupted_remapped h (entryOn_of_key h hs) (handleKeyboard_remaps ret)
      rw [resume]
      exact hr
    · rw [view, ← entered.info]
      exact (display_kept c).fakePageAddr
  | create entered entry request stack slot gone view =>
    exact create_mapped h h' entry hm hok request stack slot gone view entered
  | push entered entry stack slot gone view => exact push_mapped h h' hm stack slot gone view entered
  | pop entered ending before leak stack frame gone view =>
    exact pop_mapped h h' hm hs ending entered before stack gone view
  | restart entered ending before leak stack gone view =>
    exact restart_mapped h h' hm hs ending entered before stack gone view
  | close entered ending before leak stack other parent elsewhere first spin gone view =>
    exact close_mapped h hm hs ending entered before stack parent.1 parent.2 elsewhere gone spin.1 view
  | lost entered ending before leak stack other parent same gone view wild => exact absurd wild (not_wild h')

theorem started_paging {fs : Filesystem} (h0 : Started img fs k) : k.paging = Paging.of (programFrame 0) video := by
  obtain ⟨k₀, e, hb, -, hexec⟩ := h0
  obtain ⟨p, hp, hpaging⟩ := paging_execute hexec
  have hp0 : p = 0 := by
    by_contra hne
    exact hp.least 0 (by omega) (hb.processIds 0)
  rw [hpaging, hp0, Kernel.paging_enter, paging_booted hb.pageDir hb.pageTbl hb.pageTblVmem]

theorem started_mapped {fs : Filesystem} (h0 : Started img fs k) : Mapped k 0 :=
  Mapped.of_page video (started_at h0) (firstStacks_top.mpr rfl) (started_paging h0) (Or.inl rfl)

end Mapped

/-! ## Isolation in every run -/

/-- A kernel, with the slot the code has chosen to run. -/
structure Chosen where
  kernel : Kernel
  process : ℕ

def chosenStep (img : Image) (fs : Filesystem) (s : Chosen) (ev : Event) : Option Chosen :=
  (step img fs s.kernel ev).map fun k => ⟨k, s.kernel.chosen img fs s.process ev⟩

section Runs
variable {img : Image} {k₀ : Kernel} {s s' : Chosen} {ev : Event}

theorem chosenStep_some {fs : Filesystem} (hs : chosenStep img fs s ev = some s') :
    step img fs s.kernel ev = some s'.kernel ∧ s'.process = s.kernel.chosen img fs s.process ev := by
  obtain ⟨k, hk, rfl⟩ := Option.map_eq_some_iff.mp hs
  exact ⟨hk, rfl⟩

/-- The chosen slot is the one in use, and the tables are its own. -/
def Chosen.Proper (s : Chosen) : Prop :=
  s.kernel.cpu.mode = .wild ∨ ∃ S, At s.kernel.processes S s.process ∧ Mapped s.kernel s.process

theorem Chosen.Proper.step (boot : img.Bootable) (h : s.Proper) (hok : MapsOwn s.kernel ev)
    (hs : chosenStep img (Image.WellFormed.pointers img) s ev = some s') : s'.Proper := by
  obtain ⟨hstep, hprocess⟩ := chosenStep_some hs
  rcases h with hw | ⟨S, hat, hm⟩
  · rw [step_wild hw] at hstep
    cases hstep
  obtain ⟨S', c', hmove, hfollows⟩ := step_follows boot hat hstep
  by_cases hw : s'.kernel.cpu.mode = .wild
  · exact Or.inl hw
  have hat' := hfollows.resolve_left hw
  obtain rfl : c' = s'.process := (hmove.chosen hat hw).trans hprocess.symm
  exact Or.inr ⟨S', hat', hmove.mapped hat hat' hstep hm hok⟩

theorem Chosen.Proper.isolated (h : s.Proper) (hm : s.kernel.cpu.mode = .user) : Isolated s.kernel s.process := by
  obtain ⟨S, hat, hmap⟩ := h.resolve_left (by rw [hm]; decide)
  have hns : s.kernel.cpu.mode ≠ .spin := by
    rw [hm]
    decide
  obtain ⟨t, hmem⟩ := (hat.isTop hns).stacked
  have hslot := hat.table.slot t s.process hmem
  obtain ⟨page, hof, hpage⟩ := hmap.own hns
  rw [hslot.fakePageAddr] at hpage
  refine isolated_of hof hat.lt (hat.table.lt t s.process hmem).1 hpage ?_ hat.onSlot.esp0
  rw [← Pcb.info_terminalNum, ← s.kernel.processes_info hat.lt]
  exact hslot.terminalNum

end Runs

theorem reaches_chosen {img : Image} {fs : Filesystem} {ok : Kernel → Event → Prop} {k₀ k : Kernel} {p : ℕ}
    (h : Reaches (step img fs) ok k₀ k) :
    ∃ q, Reaches (chosenStep img fs) (fun s ev => ok s.kernel ev) ⟨k₀, p⟩ ⟨k, q⟩ := by
  induction h with
  | refl => exact ⟨p, .refl _⟩
  | @tail t u ev hreach hok hs ih =>
    obtain ⟨q, hq⟩ := ih
    refine ⟨t.chosen img fs q ev, hq.tail (e := ev) hok ?_⟩
    unfold chosenStep
    rw [hs]
    rfl

theorem chosen_current {img : Image} (boot : img.Bootable) {k₀ : Kernel} {s : Chosen}
    (h0 : Started img (Image.WellFormed.pointers img) k₀)
    (h : Reaches (chosenStep img (Image.WellFormed.pointers img)) anyStep ⟨k₀, 0⟩ s) :
    s.kernel.cpu.mode = .wild ∨ ∃ S, At s.kernel.processes S s.process := by
  refine h.invariant (P := fun s => s.kernel.cpu.mode = .wild ∨ ∃ S, At s.kernel.processes S s.process)
    (Or.inr ⟨_, started_at h0⟩) ?_
  rintro s ev u hinv - hs
  obtain ⟨hstep, hprocess⟩ := chosenStep_some hs
  rcases hinv with hw | ⟨S, hat⟩
  · rw [step_wild hw] at hstep
    cases hstep
  obtain ⟨S', c', hmove, hfollows⟩ := step_follows boot hat hstep
  by_cases hw : u.kernel.cpu.mode = .wild
  · exact Or.inl hw
  obtain rfl : c' = u.process := (hmove.chosen hat hw).trans hprocess.symm
  exact Or.inr ⟨S', hfollows.resolve_left hw⟩

/-- **A running program reaches its own memory only**: in every run in which each opening of a terminal finds the
mapping the flag of the interrupted process promises. -/
theorem programs_isolated (img : Image) (boot : img.Bootable) {k₀ : Kernel} {s : Chosen}
    (h0 : Started img (Image.WellFormed.pointers img) k₀)
    (h : Reaches (chosenStep img (Image.WellFormed.pointers img)) (fun s ev => MapsOwn s.kernel ev) ⟨k₀, 0⟩ s)
    (hm : s.kernel.cpu.mode = .user) : Isolated s.kernel s.process := by
  have hinv : s.Proper := h.invariant (P := Chosen.Proper) (Or.inr ⟨_, started_at h0, started_mapped h0⟩)
    fun _ _ _ hp hok hs => hp.step boot hok hs
  exact hinv.isolated hm

/-- Three terminals, opened and left by ticks, calls and an exit: the shell of the third one runs. -/
theorem programs_isolated_three : ∃ s : Chosen, Reaches (chosenStep Image.small (Image.WellFormed.pointers Image.small))
      (fun s ev => MapsOwn s.kernel ev) ⟨firstShell, 0⟩ s ∧
        Stage s.kernel (stacksOf [2, 0] [1] [3]) 3 3 ∧ s.process = 3 ∧
    Isolated s.kernel s.process := by
  obtain ⟨k, hrun, h, -⟩ := three_terminals
  obtain ⟨q, hchosen⟩ := reaches_chosen (p := 0) hrun
  obtain ⟨S, hat⟩ :=
    (chosen_current Image.small_bootable firstShell_started (hchosen.mono fun _ _ _ => trivial)).resolve_left
    (by rw [h.mode]; decide)
  obtain rfl : q = 3 := (getPcbPtr_inj hat.lt (by decide)).mp ((current_eq hat).symm.trans (current_eq h.here))
  have hown : Reaches _ (fun (s : Chosen) ev => MapsOwn s.kernel ev) _ _ :=
    hchosen.mono fun s ev hcalm e scanCode t hev _ _ _ hon =>
    Or.inl ((hcalm.keys e scanCode hev).2 hon)
  exact ⟨⟨k, 3⟩, hown, h, rfl, programs_isolated Image.small Image.small_bootable firstShell_started hown h.mode⟩

/-! ## A third terminal on the page of the second -/

section Keys
variable {img : Image} {fs : Filesystem} {k k' : Kernel} {S : Stacks} {c o p t scanCode : ℕ}

theorem Stage.offscreen_iff (h : Stage k S c o) : (k.processes.info c).isOnscreen = 0 ↔ o ≠ c := by
  refine ⟨fun hz hoc => h.shown.shown (hoc ▸ hz), fun hoc => ?_⟩
  by_contra hne
  exact hoc (h.shown.only c (h.here.table.used h.top.stacked) hne).symm

theorem Stage.interrupted_esp (h : Stage k S c o) :
    getPcb (k.interrupted (k.entry 64)).cpu.esp = getPcbPtr c :=
  (entryOn_of_fits h.here (h.fits (n := 64) (by decide))).1.esp

theorem Stage.interrupted_info (h : Stage k S c o) :
    ((k.interrupted (k.entry 64)).pcb (getPcbPtr c)).info = k.processes.info c := by
  rw [k.processes_info h.here.lt]
  rfl

theorem Stage.returned_formed (h : Stage k S c o) (hret : Returned img fs k scanCode k') (hf : k.paging.Formed) :
    k'.paging.Formed := by
  obtain ⟨k₁, hk₁, rfl⟩ := hret
  have hent := (entryOn_of_fits h.here (h.fits (n := 64) (by decide))).1
  show k₁.paging.Formed
  exact hf.remapped (page_of_top h.here h.top) (interrupted_remapped h.here hent (handleKeyboard_remaps hk₁))

theorem Stage.returned_offscreen (h : Stage k S c o) (hoc : o ≠ c) (hc : c ∈ S t)
    (hret : Returned img fs k scanCode k') : k'.paging = k.paging.setVideo (fakePage t) := by
  obtain ⟨k₁, hk₁, rfl⟩ := hret
  have hpage : (k.processes.info c).fakePageAddr = fakePage t := (h.here.table.slot t c hc).fakePageAddr
  have hp := handleKeyboard_returned hk₁ (onscreenNum_interrupted h.here (h.fits (by decide)))
    (by rw [h.interrupted_esp, ← Pcb.info_isOnscreen, h.interrupted_info, h.offscreen_iff.mpr hoc])
    (by
      rw [h.interrupted_esp, ← Pcb.info_fakePageAddr, h.interrupted_info, hpage]
      exact fakePage_ne_zero t)
  rw [h.interrupted_esp, ← Pcb.info_fakePageAddr, h.interrupted_info, hpage] at hp
  exact hp

theorem Stage.created_paging (h : Stage k S c o) (hp : k.processes.FirstFree p)
    (hgone : handleKeyboard img fs (k.interrupted (k.entry 64)) (k.entry 64) scanCode = .gone k') :
    k'.paging = (if o ≠ c then k.paging.setVideo video else k.paging).setProgram (programFrame p) := by
  have hent := (entryOn_of_fits h.here (h.fits (n := 64) (by decide))).1
  obtain ⟨q, hq, hpaging⟩ := paging_handleKeyboard_gone hgone
  obtain rfl := ((entered_interrupt h.here hent).firstFree hq).unique hp
  rw [hpaging, h.interrupted_esp, ← Pcb.info_isOnscreen, h.interrupted_info]
  simp only [h.offscreen_iff]
  rfl

theorem Stage.created_formed (h : Stage k S c o) (hp : k.processes.FirstFree p)
    (hgone : handleKeyboard img fs (k.interrupted (k.entry 64)) (k.entry 64) scanCode = .gone k')
    (hf : k.paging.Formed) : k'.paging.Formed := by
  rw [h.created_paging hp hgone]
  refine Paging.Formed.setProgram ?_ _
  split
  · exact hf.remapped (Or.inl rfl) (Or.inr (Or.inl rfl))
  · exact hf

end Keys

/-- Terminal 2 is opened, terminal 1 is shown, terminal 2 is shown again while its own shell runs, terminal 3 is
opened. -/
theorem third_terminal_mapped :
    ∃ k, Reaches (step Image.small (Image.WellFormed.pointers Image.small)) anyStep firstShell k ∧
      Stage k (stacksOf [0] [1] [2]) 2 2 ∧ k.paging = Paging.of (programFrame 2) (fakePage 1) := by
  obtain ⟨k₁, k₂, h⟩ := firstShell_stage.opens_second Image.small_bootable firstShell_waits.2
  have hfree₁ := h.first.firstFree (p := 1) (by decide) (by decide) (by decide)
  have hreq₂ : k₂.requests 0x3B = some 0 := by
    unfold Kernel.requests
    rw [h.pressed]
    decide
  -- Terminal 1 is shown, the shell of terminal 2 goes on off screen.
  obtain ⟨k₃, hs₃, hret₃, h₃, -, hkeys₃⟩ := h.second.shows Image.small_bootable (by decide) hreq₂ rfl
  have hreq₃ : k₃.requests 0x3C = some 1 := by
    unfold Kernel.requests
    rw [hkeys₃, h.pressed]
    decide
  -- Terminal 2 is shown again, and its shell is left with its own page.
  obtain ⟨k₄, hs₄, hret₄, h₄, -, hkeys₄⟩ := h₃.shows Image.small_bootable (by decide) hreq₃ rfl
  have hreq₄ : k₄.requests 0x3D = some 2 := by
    unfold Kernel.requests
    rw [hkeys₄, hkeys₃, h.pressed]
    decide
  have hfree₄ := h₄.firstFree (p := 2) (by decide) (by decide) (by decide)
  -- Its flag says it is on screen, so the handler takes its mapping over for the new shell.
  obtain ⟨k₅, hs₅, hgone₅, h₅, -⟩ := h₄.create Image.small_bootable (by decide) hreq₄ rfl hfree₄
  rw [update_stacksOf_two] at h₅
  have hformed₁ := firstShell_stage.returned_formed h.returned (started_mapped firstShell_started).formed
  have hformed₂ := h.first.created_formed hfree₁ h.gone hformed₁
  obtain ⟨a, page, hformed₃, -⟩ := h.second.returned_formed hret₃ hformed₂
  have hpaging₄ := h₃.returned_offscreen (t := 1) (by decide) (List.mem_cons_self ..) hret₄
  have hpaging₅ := h₄.created_paging hfree₄ hgone₅
  rw [hformed₃, Paging.of_setVideo] at hpaging₄
  rw [if_neg (fun hne => hne rfl), hpaging₄, Paging.of_setProgram] at hpaging₅
  refine ⟨k₅, ?_, h₅, hpaging₅⟩
  refine Reaches.tail (Reaches.tail (Reaches.tail ?_ trivial hs₃) trivial hs₄) trivial hs₅
  exact ((Reaches.refl _).tail trivial h.held).tail trivial h.opened

/-- It does not hold of every run: the shell of terminal 3 writes on the page of terminal 2. -/
theorem programs_not_isolated :
    ¬ ∀ (img : Image), img.Bootable → ∀ k₀ s, Started img (Image.WellFormed.pointers img) k₀ →
      Reaches (chosenStep img (Image.WellFormed.pointers img)) anyStep ⟨k₀, 0⟩ s → s.kernel.cpu.mode = .user →
      Isolated s.kernel s.process := by
  intro hall
  obtain ⟨k, hreach, h, hpaging⟩ := third_terminal_mapped
  obtain ⟨q, hrun⟩ := reaches_chosen (p := 0) hreach
  obtain ⟨S, hat⟩ :=
    (chosen_current Image.small_bootable firstShell_started hrun).resolve_left (by rw [h.mode]; decide)
  obtain rfl : q = 2 := (getPcbPtr_inj hat.lt (by decide)).mp ((current_eq hat).symm.trans (current_eq h.here))
  obtain ⟨page, hpage, hwalk⟩ :=
    (hall Image.small Image.small_bootable firstShell _ firstShell_started hrun h.mode).vidmap
  have hterm : (k.slot 2).terminalInfo.terminalNum = 2 := by
    rw [← Pcb.info_terminalNum, ← k.processes_info (by decide)]
    exact (h.here.table.slot 2 2 (List.mem_cons_self ..)).terminalNum
  have hown := walk_vidmap hpaging (by decide) (by decide) (a := vmemAddr) rfl
  rw [if_pos rfl] at hown
  have hgot := hwalk 0 (by decide)
  rw [Nat.add_zero, hown.2, hown.1, Option.some.injEq] at hgot
  have hvalue : page = fakePage 1 := by
    have hz : vmemAddr % 2 ^ 12 = 0 := by decide
    omega
  rw [hvalue, show (Chosen.mk k 2).kernel = k from rfl, hterm] at hpage
  exact absurd hpage (by decide)

end Kernel391
