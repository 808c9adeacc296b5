import Kernel391.System.DisplayOwner
import Kernel391.System.ScreenPages
import Kernel391.System.TerminalCursors

/-! Where video memory is mapped. A process on screen has the physical screen, any other the fake
page of its terminal. Every path keeps it but one: a keystroke that displays the very terminal of
the process it interrupts gives that process its fake page back. -/
namespace Kernel391
open Kernel391.Foundations
set_option autoImplicit false

/-- The page on which the output of a process belongs. -/
def Info.page (i : Info) : ℕ := if i.isOnscreen ≠ 0 then video else i.fakePageAddr

/-- Video memory is mapped where the output of slot `c` belongs, outside the last loop of `halt`. -/
def Kernel.Directed (k : Kernel) (c : ℕ) : Prop :=
  k.cpu.mode ≠ .spin → ∃ a, k.paging = Paging.of a (k.processes.info c).page

/-- No keystroke asks for the terminal of the process it interrupts while that terminal is off screen. -/
def Kernel.AsksElsewhere (k : Kernel) : Event → Prop
  | .key _ scanCode => k.requests scanCode = some k.terminal.terminalNum → k.terminal.isOnscreen ≠ 0
  | _ => True

section Places
variable {k : Kernel} {S : Stacks} {c q t : ℕ} {i : Info}

theorem Info.page_on (h : i.isOnscreen ≠ 0) : i.page = video := if_pos h

theorem Info.page_off (h : i.isOnscreen = 0) : i.page = i.fakePageAddr := if_neg (not_not.mpr h)

theorem info_page (hq : q < maxProcesses) : (k.processes.info q).page = Kernel.videoPage (k.slot q).terminalInfo := by
  rw [k.processes_info hq]
  rfl

theorem isOf_slot (h : At k.processes S c) (hq : q ∈ S t) : (k.slot q).terminalInfo.IsOf t := by
  obtain ⟨ht, hlt⟩ := h.table.lt t q hq
  have hslot := h.table.slot t q hq
  have hnum := hslot.terminalNum
  have hpage := hslot.fakePageAddr
  rw [k.processes_info hlt] at hnum hpage
  exact ⟨hnum, hpage, ht⟩

theorem terminal_info (h : At k.processes S c) : k.terminal.isOnscreen = (k.processes.info c).isOnscreen ∧
    k.terminal.fakePageAddr = (k.processes.info c).fakePageAddr := by
  rw [terminal_eq h, k.processes_info h.lt]
  exact ⟨rfl, rfl⟩

end Places
/-! ## Events that move nothing -/

section Stay
variable {img : Image} {fs : Filesystem} {k k' k₁ : Kernel} {S : Stacks} {c t a : ℕ} {ev : Event} {e : Entry}
  {scanCode u : ℕ} {r : ℤ}

theorem stay_paging (quiet : Uneventful img fs k S ev) (hkey : ∀ e scanCode, ev ≠ .key e scanCode)
    (hs : step img fs k ev = some k') :
    k'.paging = k.paging := by
  cases ev with
  | tick e => exact absurd rfl (quiet.tick e)
  | key e scanCode => exact absurd rfl (hkey e scanCode)
  | halt e status => exact absurd (Ending.halt e status) (quiet.going _ _ _)
  | exception e vector => exact absurd (Ending.exception e vector) (quiet.going _ _ _)
  | output x =>
    simp only [step] at hs
    split at hs
    · cases hs
      rfl
    · cases hs
  | trap x =>
    rcases trap_eq hs with rfl | rfl
    · rfl
    · rfl
  | work w =>
    simp only [step] at hs
    split at hs
    · cases hs
      rfl
    · cases hs
  | execute e command =>
    simp only [step] at hs
    split at hs
    · cases hx : execute img fs (k.enter e.regs.esp) e k.cpu command with
      | ret r k₁ =>
        obtain ⟨-, rfl⟩ := execute_ret hx
        rw [hx] at hs
        cases hs
        rfl
      | gone k₁ => exact absurd hx (quiet.execute e command k₁ rfl)
      | fault k₁ => exact absurd (Ending.fault hx) (quiet.going _ _ _)
    · cases hs

theorem paging_interrupted (k : Kernel) (e : Entry) : (k.interrupted e).paging = k.paging := rfl

theorem key_offscreen (h : At k.processes S c) (hf : k.fits e = true)
    (hret : handleKeyboard img fs (k.interrupted e) e scanCode = .ret r k₁)
    (ht : IsTop S c) (hoff : k.terminal.isOnscreen = 0) : k₁.paging = k.paging.setVideo k.terminal.fakePageAddr := by
  have hnow := terminalNow_interrupted hf
  unfold Kernel.terminalNow at hnow
  have hback := handleKeyboard_returned hret (onscreenNum_interrupted h hf) (by rw [hnow]; exact hoff)
    (by rw [hnow]; exact terminal_page_ne_zero h ht)
  rw [hnow, paging_interrupted] at hback
  exact hback

theorem key_onscreen (hon : k.findOnscreenTerminalNum = some t) (hscreen : k.terminalNow.isOnscreen ≠ 0)
    (hreq : ∀ u, k.requests scanCode = some u → k.findTerminalPid u = none)
    (hret : handleKeyboard img fs k e scanCode = .ret r k₁) :
    k₁.paging = k.paging := by
  have hkept : ∀ (k₁ : Kernel) info, k₁.returnScreen k.oldPage info t = k₁ := fun k₁ info => by
    unfold Kernel.oldPage Kernel.returnScreen
    rw [if_neg hscreen, if_neg (by decide)]
  have hlent : (k.lent t).paging = k.paging := by rw [paging_lent, if_neg hscreen]
  cases hr : k.requests scanCode with
  | none =>
    rw [handleKeyboard_quiet hon hr, Outcome.ret.injEq] at hret
    rw [← hret.2, hkept, ← hlent, (echoed_typeCode (k.lent t) t scanCode).same]
    rfl
  | some u =>
    have hpid := hreq u hr
    rw [handleKeyboard_request hon hr] at hret
    cases hs : switchTerminal img fs (k.asked t scanCode) e u with
    | ret r' k₂ =>
      rw [hs] at hret
      simp only [Outcome.ret.injEq] at hret
      obtain ⟨rfl, rfl⟩ := switchTerminal_vain ((findTerminalPid_asked k t scanCode).trans hpid) hs
      have hanswered : ((k.asked t scanCode).answered u scanCode (-1)).paging = (k.lent t).paging := by
        unfold Kernel.answered
        rw [if_pos (by decide)]
        rfl
      rw [← hret.2, hkept, hanswered, hlent]
    | gone k₂ =>
      rw [hs] at hret
      cases hret
    | fault k₂ =>
      rw [hs] at hret
      cases hret

end Stay
/-! ## One event -/

section Moves
variable {img : Image} {fs : Filesystem} {k k' k₁ : Kernel} {S S' : Stacks} {c c' p q t u a page : ℕ}
  {l : List ℕ} {ev : Event}
  {e : Entry} {scanCode : ℕ} {r : ℤ}

theorem key_displays (h : At k.processes S c) (hp : k.processes.Displays p) (hpt : p ∈ S t) (hS : S u = q :: l)
    (hof : k.paging = Paging.of a page) (hf : k.fits e = true) (hreq : k.requests scanCode = some u)
    (hret : handleKeyboard img fs (k.interrupted e) e scanCode = .ret r k₁) :
    k₁.pages = k.displayed t u ∧ (k.terminal.isOnscreen ≠ 0 → k₁.paging =
      if t = u then k.paging else k.paging.setVideo (Kernel.videoPage (k₁.slot c).terminalInfo)) := by
  have hq : q ∈ S u := by
    rw [hS]
    exact List.mem_cons_self ..
  obtain ⟨hpid, hnum, -⟩ := (h.owned hp).searches
  rw [k.processes_findOnscreenTerminalPid] at hpid
  rw [k.processes_findOnscreenTerminalNum, (h.table.slot t p hpt).terminalNum] at hnum
  have ht : ((k.interrupted e).slot p).terminalInfo.IsOf t := @isOf_slot k S c p t h hpt
  have hu : ((k.interrupted e).slot q).terminalInfo.IsOf u := @isOf_slot k S c q u h hq
  have hfound : (k.interrupted e).findTerminalPid u = some q := @findTerminalPid_of_cons k S c q u l h hS
  have hdisplays := handleKeyboard_displays (k := k.interrupted e) hof hnum hpid ht hreq hfound hu hret
  have hesp : getPcb (k.interrupted e).cpu.esp = getPcbPtr c := (fits_esp hf).trans (current_eq h)
  rw [terminalNow_interrupted hf, hesp] at hdisplays
  exact hdisplays

theorem directed_congr (h : k.Directed c) (hm : k'.cpu.mode ≠ .spin → k.cpu.mode ≠ .spin)
    (hpaging : k'.paging = k.paging)
    (hinfo : k'.processes.info c = k.processes.info c) : k'.Directed c := by
  intro hns
  rw [hpaging, hinfo]
  exact h (hm hns)

theorem directed_spin (hk' : k'.cpu = k.cpu) (hm : k.cpu.mode = .spin) : k'.Directed c := fun hns => by
  rw [hk'] at hns
  exact absurd hm hns

theorem directed_offscreen (h : At k.processes S c) (hd : k.Directed c) (hm : k.cpu.mode ≠ .spin) (hf : k.fits e = true)
    (hret : handleKeyboard img fs (k.interrupted e) e scanCode = .ret r k₁) (hk' : k' = k₁.resume k.cpu)
    (hoff : k.terminal.isOnscreen = 0) (hoff' : (k'.processes.info c).isOnscreen = 0)
    (hpage : (k'.processes.info c).fakePageAddr = (k.processes.info c).fakePageAddr) : k'.Directed c := by
  intro _
  obtain ⟨a, hof⟩ := hd hm
  have hback := key_offscreen h hf hret (h.isTop hm) hoff
  have hpaging : k'.paging = k₁.paging := by
    rw [hk']
    rfl
  refine ⟨a, ?_⟩
  rw [hpaging, hback, hof, Paging.of_setVideo, Info.page_off hoff', hpage, (terminal_info h).2]

theorem stay_directed (boot : img.Bootable) (h : At k.processes S c)
    (hs : step img (Image.WellFormed.pointers img) k ev = some k')
    (quiet : Uneventful img (Image.WellFormed.pointers img) k S ev) (hinfo : k'.processes.info = k.processes.info)
    (hd : k.Directed c)
    (h' : At k'.processes S c) : k'.Directed c := by
  have hsame : k'.processes.info c = k.processes.info c := congrFun hinfo c
  have hmode : k'.cpu.mode ≠ .spin → k.cpu.mode ≠ .spin := fun hns => not_spin_of_top h (h'.isTop hns)
  by_cases hkey : ∃ e scanCode, ev = .key e scanCode
  · obtain ⟨e, scanCode, rfl⟩ := hkey
    obtain ⟨hf, -⟩ := key_fits hs
    cases hout : handleKeyboard img (Image.WellFormed.pointers img) (k.interrupted e) e scanCode with
    | ret r k₁ =>
      obtain ⟨hk', -, -⟩ := key_returns boot h hs hout
      by_cases hm : k.cpu.mode = .spin
      · exact directed_spin (by rw [hk']; rfl) hm
      by_cases hoff : k.terminal.isOnscreen = 0
      · refine directed_offscreen h hd hm hf hout hk' hoff ?_ (by rw [hsame])
        rw [hsame, ← (terminal_info h).1]
        exact hoff
      · obtain ⟨t, ht⟩ := Option.ne_none_iff_exists'.mp (onscreenNum_interrupted h hf)
        have hkept := key_onscreen ht (by rw [terminalNow_interrupted hf]; exact hoff)
          (fun u hu => @findTerminalPid_of_nil k S c u h (quiet.key e scanCode u rfl hu).1) hout
        refine directed_congr hd hmode ?_ hsame
        rw [hk']
        exact hkept
    | gone k₁ =>
      obtain ⟨-, u, q, hreq, -, hq, hfree, -⟩ := key_leaves boot h hs hout
      exact absurd ((quiet.key e scanCode u rfl hreq).2 q hq) hfree
    | fault k₁ => exact absurd hout (keyboard_faultless boot h hf k₁)
  · exact directed_congr hd hmode (stay_paging quiet (fun e scanCode hx => hkey ⟨e, scanCode, hx⟩) hs) hsame

theorem display_directed (h : At k.processes S c) (hp : k.processes.Displays p) (hd : k.Directed c)
    (hf : k.fits e = true)
    (hask : k.AsksElsewhere (.key e scanCode)) (he : Entered k.processes c k.cpu (k.preempted e))
    (hreq : k.requests scanCode = some u)
    (hS : S u = q :: l) (hret : handleKeyboard img fs (k.interrupted e) e scanCode = .ret 0 k₁)
    (hk' : k' = k₁.resume k.cpu)
    (hview : k'.processes = ((k.preempted e).display ((k.preempted e).onscreen q) q).resume k.cpu) : k'.Directed c := by
  by_cases hm : k.cpu.mode = .spin
  · exact directed_spin (by rw [hk']; rfl) hm
  have hin : (k.preempted e).Displays p := hp.congr he.ids he.info
  have hinfo : k'.processes.info c = if c = q then (k.processes.info q).setOnscreen 1
      else if c = p then (k.processes.info p).setOnscreen 0 else k.processes.info c := by
    rw [hview, hin.onscreen]
    show ((k.preempted e).display p q).info c = _
    rw [(k.preempted e).display_info, he.info]
  have hq : q ∈ S u := by
    rw [hS]
    exact List.mem_cons_self ..
  obtain ⟨v, m, hv⟩ := (h.isTop hm).cons
  have hc : c ∈ S v := by
    rw [hv]
    exact List.mem_cons_self ..
  by_cases hoff : k.terminal.isOnscreen = 0
  · have hcq : c ≠ q := by
      rintro rfl
      obtain rfl : v = u := h.table.apart.disjoint hc hq
      exact hask (by rw [hreq, (terminal_of_mem h hc).1]) hoff
    rw [if_neg hcq] at hinfo
    refine directed_offscreen h hd hm hf hret hk' hoff ?_ ?_
    · rw [hinfo]
      split
      · rfl
      · rw [← (terminal_info h).1]
        exact hoff
    · rw [hinfo]
      split
      · next hcp =>
        rw [hcp]
        rfl
      · rfl
  · have hon : (k.processes.info c).isOnscreen ≠ 0 := by
      rw [← (terminal_info h).1]
      exact hoff
    obtain rfl := hp.only h.lt hon
    intro _
    obtain ⟨a, hof⟩ := hd hm
    have hpaging := (key_displays h hp hc hS hof hf hreq hret).2 hoff
    have hslot : k'.slot c = k₁.slot c := by
      rw [hk']
      rfl
    have hpaging' : k'.paging = k₁.paging := by
      rw [hk']
      rfl
    refine ⟨a, ?_⟩
    rw [hpaging', hpaging]
    by_cases hvu : v = u
    · subst hvu
      rw [hv, List.cons.injEq] at hS
      rw [if_pos rfl, hof, hinfo, if_pos hS.1, Info.page_on hon]
      rfl
    · rw [if_neg hvu, hof, Paging.of_setVideo, info_page h.lt, hslot]

theorem tick_directed (h : At k.processes S c) (hm : Mapped k c) (hs : step img fs k (.tick e) = some k')
    (hq : q < maxProcesses)
    (hnext : k.findNextActivePcb (getPcbPtr c) = some (getPcbPtr q)) : k'.Directed q := by
  intro _
  obtain ⟨q', hq', hnext', hk', -⟩ := tick_next h hs
  rw [hnext, Option.some.injEq] at hnext'
  obtain rfl := (getPcbPtr_inj hq (h.table.slot_lt hq'.stacked)).mp hnext'
  obtain ⟨b, page, hof, -⟩ := hm.formed
  have hsaved : ((k.interrupted e).saveRegs (getPcbPtr c) e.regs).paging = k.paging := rfl
  rw [info_page hq, hk', paging_ticked, hsaved, hof, Paging.of_setProgram, Paging.of_setVideo, slot_ticked]
  exact ⟨_, rfl⟩

theorem create_directed {o eip : ℕ} (h : At k.processes S c) (hp : k.processes.Displays p) (hm : Mapped k c)
    (hd : k.Directed c)
    (hent : EntryOn c e) (hgone : handleKeyboard img fs (k.interrupted e) e scanCode = .gone k')
    (hview : k'.processes = (k.preempted e).create c o q t e eip) : k'.Directed q := by
  intro _
  obtain ⟨p', -, hpaging⟩ := paging_handleKeyboard_gone hgone
  have hsame : (k.interrupted e).paging = k.paging ∧ (k.interrupted e).pcb = k.pcb := ⟨rfl, rfl⟩
  rw [show getPcb (k.interrupted e).cpu.esp = getPcbPtr c from hent.esp, hsame.1, hsame.2] at hpaging
  have hroot : (k'.processes.info q).page = video := by
    rw [hview, Processes.create_info, if_pos rfl]
    exact Info.page_on Nat.one_ne_zero
  rw [hroot, hpaging]
  by_cases hoff : (k.pcb (getPcbPtr c)).terminalInfo.isOnscreen = 0
  · obtain ⟨b, page, hof, -⟩ := hm.formed
    rw [if_pos hoff, hof, Paging.of_setVideo, Paging.of_setProgram]
    exact ⟨_, rfl⟩
  · have hon : (k.processes.info c).isOnscreen ≠ 0 := by
      rw [k.processes_info h.lt]
      exact hoff
    obtain rfl := hp.only h.lt hon
    obtain ⟨b, hof⟩ := hd (not_spin_of_top h (hp.top h.shown h.table))
    rw [if_neg hoff, hof, Info.page_on hon, Paging.of_setProgram]
    exact ⟨_, rfl⟩

theorem push_directed {command : List UInt8} {eip : ℕ} (h : At k.processes S c) (hd : k.Directed c) (ht : IsTop S c)
    (he : Entered k.processes c k.cpu (k.called e)) (hqc : q ≠ c)
    (hgone : execute img fs (k.enter e.regs.esp) e k.cpu command = .gone k')
    (hview : k'.processes = (k.called e).push c q e k.cpu eip) : k'.Directed q := by
  intro _
  obtain ⟨p', -, hpaging⟩ := paging_execute hgone
  obtain ⟨b, hof⟩ := hd (not_spin_of_top h ht)
  have hpage : (k'.processes.info q).page = (k.processes.info c).page := by
    rw [hview, Processes.push_info _ hqc, if_pos rfl, ← he.info]
    rfl
  rw [hpage, hpaging, Kernel.paging_enter, hof, Paging.of_setProgram]
  exact ⟨_, rfl⟩

theorem ending_directed {status : ℕ} (h : At k.processes S c) (hd : k.Directed c) (hs : step img fs k ev = some k')
    (hend : Ending img fs k ev k₁ e status) (ht : IsTop S c) :
    ∃ b, k₁.paging = Paging.of b (k.processes.info c).page := by
  obtain ⟨-, hpaging⟩ := ending_paging (entryOn_of_ending h hs hend).1 hend
  obtain ⟨b, hof⟩ := hd (not_spin_of_top h ht)
  rcases hpaging with hp | ⟨a, hp⟩
  · exact ⟨b, hp.trans hof⟩
  · exact ⟨a, hp.trans (by rw [hof, Paging.of_setProgram])⟩

theorem pop_directed {status : ℕ} {o : Option ℕ} {x : Cpu} (h : At k.processes S c) (hd : k.Directed c)
    (hs : step img fs k ev = some k') (hend : Ending img fs k ev k₁ e status)
    (he : Entered k.processes c k.cpu (k.called e))
    (hbefore : k₁.processes = (k.called e).leaked o) (hS : S t = c :: q :: l)
    (hgone : halt img fs k₁ e k.cpu status = .gone k')
    (hview : k'.processes = (((k.called e).leaked o).exitTo c q).resume x) : k'.Directed q := by
  intro _
  have hc : c ∈ S t := by
    rw [hS]
    exact List.mem_cons_self ..
  have hq : q ∈ S t := by
    rw [hS]
    exact List.mem_cons_of_mem c (List.mem_cons_self ..)
  have hcq : c ≠ q := by
    rintro rfl
    exact h.table.apart.not_isTop hS (List.mem_cons_self ..) (isTop_of_cons hS)
  obtain ⟨b, hof⟩ := ending_directed h hd hs hend (isTop_of_cons hS)
  -- The caller takes the flag of the process that ends; they are in one terminal.
  have hpage : (k'.processes.info q).page = (k.processes.info c).page := by
    rw [hview]
    show ((((k.called e).leaked o).exitTo c q).info q).page = _
    rw [exitTo_info hcq, if_neg hcq.symm, if_pos rfl, leaked_info, he.info]
    unfold Info.page
    rw [(h.table.slot t c hc).fakePageAddr, ← (h.table.slot t q hq).fakePageAddr]
    rfl
  rw [hpage, pop_paging h hs hend he hbefore hS hgone, hof, Paging.of_setProgram]
  exact ⟨_, rfl⟩

theorem restart_directed {status eip : ℕ} {o : Option ℕ} (h : At k.processes S 0) (hd : k.Directed 0)
    (hs : step img fs k ev = some k') (hend : Ending img fs k ev k₁ e status)
    (he : Entered k.processes 0 k.cpu (k.called e))
    (hbefore : k₁.processes = (k.called e).leaked o) (hS : S 0 = [0]) (hgone : halt img fs k₁ e k.cpu status = .gone k')
    (hview : k'.processes = (((k.called e).leaked o).release 0).start e k.cpu eip)
    (hon : (k.processes.info 0).isOnscreen ≠ 0) :
    k'.Directed 0 := by
  intro _
  obtain ⟨b, hof⟩ := ending_directed h hd hs hend (isTop_of_cons hS)
  have hroot : (k'.processes.info 0).page = video := by
    rw [hview, Processes.start_info, if_pos rfl]
    exact Info.page_on Nat.one_ne_zero
  rw [hroot, restart_paging h hs hend he hbefore hS hgone, hof, Info.page_on hon, Paging.of_setProgram]
  exact ⟨_, rfl⟩

theorem root_onscreen {status : ℕ} (h : At k.processes S 0) (hok : KeepsDisplay img fs k ev)
    (hend : Ending img fs k ev k₁ e status) :
    (k.processes.info 0).isOnscreen ≠ 0 := by
  have hroot := h.table.root
  rw [k.processes_info h.lt] at hroot
  have hon := hok.root _ _ _ hend (by rw [pcb_current h]; exact hroot)
  rw [pcb_current h] at hon
  rw [k.processes_info h.lt]
  exact hon

/-- **An event** that asks for no terminal off screen in its own process leaves video memory mapped where the output
belongs. -/
theorem Move.directed (boot : img.Bootable) (m : Move img (Image.WellFormed.pointers img) k S c k' ev S' c')
    (h : At k.processes S c)
    (h' : At k'.processes S' c') (hs : step img (Image.WellFormed.pointers img) k ev = some k')
    (hp : k.processes.Displays p)
    (hok : KeepsDisplay img (Image.WellFormed.pointers img) k ev) (hask : k.AsksElsewhere ev) (hm : Mapped k c)
    (hd : k.Directed c) :
    k'.Directed c' := by
  cases m with
  | stay quiet ids info _ => exact stay_directed boot h hs quiet info hd h'
  | tick entered top next gone view => exact tick_directed h hm hs (h.table.slot_lt top.stacked) next
  | display entered request stack ret resume view =>
    exact display_directed h hp hd (key_fits hs).1 hask entered request stack ret resume view
  | create entered entry request stack slot gone view => exact create_directed h hp hm hd entry gone view
  | @push e command t _ eip l entered entry stack slot gone view =>
    have hne : c' ≠ c := by
      rintro rfl
      exact h.table.firstFree slot ⟨t, by rw [stack]; exact List.mem_cons_self ..⟩
    exact push_directed h hd (isTop_of_cons stack) entered hne gone view
  | pop entered ending before leak stack frame gone view =>
    exact pop_directed h hd hs ending entered before stack gone view
  | restart entered ending before leak stack gone view =>
    obtain rfl : c = 0 := by
      have hfirst := h.table.first
      rw [stack, List.getLast?_singleton, Option.some.injEq] at hfirst
      exact hfirst
    exact restart_directed h hd hs ending entered before stack gone view (root_onscreen h hok ending)
  | close entered ending before leak stack other parent elsewhere first spin gone view =>
    intro hns
    refine absurd ?_ hns
    show k'.processes.cpu.mode = .spin
    rw [view]
    exact spin.1
  | lost entered ending before leak stack other parent same gone view wild => exact absurd wild (not_wild h')

end Moves
/-! ## Runs -/

/-- One process is on screen, and video memory is mapped where the output of slot `c` belongs. -/
structure InPlace (k : Kernel) (S : Stacks) (c p : ℕ) : Prop where
  here : At k.processes S c
  displays : k.processes.Displays p
  mapped : Mapped k c
  directed : k.Directed c

section Runs
variable {img : Image} {k k' k₀ : Kernel} {S : Stacks} {c p : ℕ} {ev : Event}

theorem InPlace.mapsOwn (h : InPlace k S c p) : MapsOwn k ev := by
  intro e scanCode t _ _ _ _ hon
  rw [pcb_current h.here, ← Pcb.info_isOnscreen, ← k.processes_info h.here.lt] at hon
  have htop := h.displays.top h.here.shown h.here.table
  rw [← h.displays.only h.here.lt hon] at htop
  obtain ⟨b, hof⟩ := h.directed (not_spin_of_top h.here htop)
  have hvid : k.pageTblVmem = Function.update (fun _ => emptyPage) (tableIdx vmemAddr)
    (pageTableEntry (k.processes.info c).page 1) :=
    congrArg Paging.vidmap hof
  left
  rw [hvid, Function.update_self, Info.page_on hon]

theorem InPlace.step (boot : img.Bootable) (h : InPlace k S c p)
    (hok : KeepsDisplay img (Image.WellFormed.pointers img) k ev)
    (hask : k.AsksElsewhere ev) (hs : step img (Image.WellFormed.pointers img) k ev = some k') :
    k'.cpu.mode = .wild ∨ ∃ S' c' p', InPlace k' S' c' p' := by
  obtain ⟨S', c', hmove, hafter⟩ := step_follows boot h.here hs
  refine hafter.imp_right fun hat => ?_
  obtain ⟨p', hp'⟩ := hmove.displays h.here hok h.displays
  exact ⟨S', c', p', hat, hp', hmove.mapped h.here hat hs h.mapped h.mapsOwn,
    hmove.directed boot h.here hat hs h.displays hok hask h.mapped h.directed⟩

theorem started_inPlace (h0 : Started img (Image.WellFormed.pointers img) k) : InPlace k firstStacks 0 0 where
  here := started_at h0
  displays := (started_owned h0).displays
  mapped := started_mapped h0
  directed _ := by
    rw [Info.page_on (started_owned h0).displays.shown]
    exact ⟨_, started_paging h0⟩

/-- A state of a run in which video memory is in place, unless control is lost. -/
def Kernel.Orderly (k : Kernel) : Prop := k.cpu.mode = .wild ∨ ∃ S c p, InPlace k S c p

theorem orderly_run (boot : img.Bootable) (h0 : Started img (Image.WellFormed.pointers img) k₀)
    (h : Reaches (step img (Image.WellFormed.pointers img))
      (fun k ev => KeepsDisplay img (Image.WellFormed.pointers img) k ev ∧ k.AsksElsewhere ev) k₀ k) : k.Orderly := by
  refine h.invariant (P := Kernel.Orderly) (Or.inr ⟨_, _, _, started_inPlace h0⟩) ?_
  intro k ev k' hk hok hs
  obtain ⟨S, c, p, hin⟩ := hk.resolve_left (not_wild_of_step hs)
  exact hin.step boot hok.1 hok.2 hs

end Runs
end Kernel391
