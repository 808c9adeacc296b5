import Kernel391.System.EventFrames
import Kernel391.System.Isolation
import Kernel391.System.StackFrames

/-! A call of `execute` and the return from it. Between the two the caller waits directly
below its child on the stack of their terminal, and nothing that other processes do there
or elsewhere touches what its PCB holds. -/
namespace Kernel391
open Kernel391.Foundations
set_option autoImplicit false

/-! ## Waiting below a child -/

section Waiting
variable {img : Image} {fs : Filesystem} {k k' : Kernel} {S S' : Stacks} {c d d' p : ℕ} {ev : Event} {e : Entry}

theorem Move.above (m : Move img fs k S d k' ev S' d') (h : At k.processes S d) (ha : Above S c p)
    (hc : k'.processes.ids c ≠ 0) : Above S' c p := by
  cases m with
  | stay => exact ha
  | tick => exact ha
  | display => exact ha
  | create entered entry request stack => exact ha.update_of_short (by rw [stack]; exact Nat.zero_le 1)
  | push entered entry stack => exact ha.push [d'] stack
  | @pop _ e _ t q l k₁ o y entered ending before leak stack frame gone view =>
    refine ha.pop stack ?_
    rintro rfl
    have hid : (((k.called e).leaked o).info c).processId = c := by
      rw [leaked_info, entered.info, h.table.processId ha.stacked]
    refine hc ?_
    rw [view]
    show (((k.called e).leaked o).exitTo c d').ids c = 0
    rw [exitTo_ids hid, Function.update_self]
  | restart => exact ha
  | close entered ending before leak stack => exact ha.update_of_short (by rw [stack]; exact Nat.le_refl 1)
  | lost => exact ha

theorem free_apart (h : At k.processes S d) (hp : Stacked S p) :
    ∀ q < maxProcesses, k.processIds q = 0 → getPcbPtr q ≠ getPcbPtr p := by
  intro q hq hz hx
  rw [(getPcbPtr_inj hq (h.table.slot_lt hp)).mp hx] at hz
  exact h.table.used hp hz

theorem key_kept (boot : img.Bootable) (h : At k.processes S d) (hp : Stacked S p) {scanCode : ℕ}
    (hs : step img (Image.WellFormed.pointers img) k (.key e scanCode) = some k') :
    (k'.pcb (getPcbPtr p)).belongings = (k.pcb (getPcbPtr p)).belongings := by
  simp only [step] at hs
  split at hs
  · next hc =>
    cases hs
    have ho : ((handleKeyboard img (Image.WellFormed.pointers img) (k.interrupted e) e scanCode).kernel.pcb
      (getPcbPtr p)).belongings =
        ((k.interrupted e).pcb (getPcbPtr p)).belongings :=
      (ignores_belongings (getPcbPtr p)).handleKeyboard (k.interrupted e) e
        (fun q hq => free_apart h hp q hq.lt hq.free) (fun _ _ hx => by rw [hx]) scanCode
    cases hx : handleKeyboard img (Image.WellFormed.pointers img) (k.interrupted e) e scanCode with
    | ret r k₁ =>
      rw [hx] at ho
      exact ho
    | gone k₁ =>
      rw [hx] at ho
      exact ho
    | fault k₁ => exact absurd hx (keyboard_faultless boot h hc.2.1 k₁)
  · cases hs

/-- **What a waiting process owns** is left alone by every event. -/
theorem waiting_kept (boot : img.Bootable) (h : At k.processes S d) (hp : Stacked S p) (hpd : p ≠ d)
    (hs : step img (Image.WellFormed.pointers img) k ev = some k') :
    (k'.pcb (getPcbPtr p)).belongings = (k.pcb (getPcbPtr p)).belongings := by
  have hlt := h.table.slot_lt hp
  have hcur := current_eq h
  cases ev with
  | key e scanCode => exact key_kept boot h hp hs
  | work w =>
    simp only [step] at hs
    split at hs
    · cases hs
      show ((k.doWork w).pcb (getPcbPtr p)).belongings = _
      unfold Kernel.doWork Kernel.setPcb
      rw [hcur]
      simp only
      rw [Function.update_of_ne fun hx => hpd ((getPcbPtr_inj hlt h.lt).mp hx)]
    · cases hs
  | _ =>
    refine (ignores_belongings (getPcbPtr p)).step (fun hm => ⟨free_apart h hp, ?_⟩) hs (by simp) (by simp)
    have hns : k.cpu.mode ≠ .spin := by
      rw [hm]
      decide
    have htop := h.isTop hns
    have hid : (k.pcb (getPcbPtr d)).processId = d := by
      rw [← Pcb.info_processId, slot_info h.lt, h.table.processId htop.stacked]
    rw [hcur, hid]
    exact fun hx => hpd ((getPcbPtr_inj h.lt hlt).mp hx).symm

/-- What the running process owns is left alone by the events that do not end it, its own work apart. -/
theorem running_kept (boot : img.Bootable) (h : At k.processes S p) (hp : Stacked S p)
    (hgo : Going img (Image.WellFormed.pointers img) k ev) (hwork : ∀ w, ev ≠ .work w)
    (hs : step img (Image.WellFormed.pointers img) k ev = some k') :
    (k'.pcb (getPcbPtr p)).belongings = (k.pcb (getPcbPtr p)).belongings := by
  have hπ := ignores_belongings (getPcbPtr p)
  cases ev with
  | tick e => exact hπ.tick hs
  | key e scanCode => exact key_kept boot h hp hs
  | execute e command =>
    simp only [step] at hs
    split at hs
    · cases hs
      refine hπ.afterCall (hπ.called (free_apart h hp) e command) (fun k₁ hk₁ => ?_) k.cpu
      exact absurd (Ending.fault hk₁) (hgo _ _ _)
    · cases hs
  | halt e status => exact absurd (Ending.halt e status) (hgo _ _ _)
  | exception e vector => exact absurd (Ending.exception e vector) (hgo _ _ _)
  | output b => exact hπ.output hs
  | trap x => exact hπ.trap hs
  | work w => exact absurd rfl (hwork w)

end Waiting

/-! ## From the call to the return -/

/-- Slot `p` waits below its child in slot `c`, with what it had in `k₀`. -/
structure Waits (k₀ : Kernel) (p c : ℕ) (k : Kernel) (S : Stacks) (d : ℕ) : Prop where
  at_ : At k.processes S d
  above : Above S c p
  belongings : (k.slot p).belongings = (k₀.slot p).belongings
  kept : (k₀.processes.info p).Kept (k.processes.info p)

/-- What the exit of the child in slot `c` leaves of the call that slot `p` made in `k`; the child exits in `k₂`. -/
structure Undone (k k₂ k₃ : Kernel) (p c : ℕ) : Prop where
  current : k₃.current = getPcbPtr p
  freed : ¬ k₃.inUse c
  used : k₃.inUse p
  active : (k₃.slot p).isActive = 1
  alone : ∀ q < maxProcesses, k₃.inUse q → (k₃.slot q).isActive ≠ 0 →
    (k₃.slot q).terminalInfo.terminalNum = (k₃.slot p).terminalInfo.terminalNum → q = p
  onscreen : (k₃.slot p).terminalInfo.isOnscreen = (k₂.slot c).terminalInfo.isOnscreen
  program : ∀ o < fourMb, k₃.translate (programAddr + o) = some (programFrame p + o)
  stack : eightMb - eightKb * (p + 1) < k₃.tss.esp0 ∧ k₃.tss.esp0 ≤ eightMb - eightKb * p
  belongings : (k₃.slot p).belongings = (k.slot p).belongings
  parent : (k₃.slot p).parent = (k.slot p).parent
  terminalNum : (k₃.slot p).terminalInfo.terminalNum = (k.slot p).terminalInfo.terminalNum

section Return
variable {img : Image} {k₀ k k' k₁ k₂ : Kernel} {S S' : Stacks} {c d d' p t status : ℕ} {ev : Event}
  {e : Entry} {l : List ℕ}

theorem Waits.apart (h : Waits k₀ p c k S d) : p ≠ d := by
  rintro rfl
  rcases h.at_.running.2 with ⟨htop, -⟩ | ⟨-, -, hns, -⟩
  · exact h.at_.table.apart.not_isTop_lower h.above htop
  · exact hns h.above.stacked_lower

theorem Waits.step (boot : img.Bootable) (h : Waits k₀ p c k S d)
    (hs : step img (Image.WellFormed.pointers img) k ev = some k') (hm : k'.cpu.mode ≠ .wild) (hc : k'.inUse c) :
    ∃ S' d', Waits k₀ p c k' S' d' := by
  obtain ⟨S', d', hmove, hfollows⟩ := step_follows boot h.at_ hs
  have hp := h.above.stacked_lower
  refine ⟨S', d', hfollows.resolve_left hm, hmove.above h.at_ h.above hc, ?_, ?_⟩
  · exact (waiting_kept boot h.at_ hp h.apart hs).trans h.belongings
  · exact h.kept.trans (hmove.kept h.at_.table (h.at_.table.used hp) fun hx => absurd hx h.apart)

theorem waits_call (boot : img.Bootable) {command : List UInt8} (h : At k.processes S p)
    (hs : Kernel391.step img (Image.WellFormed.pointers img) k (.execute e command) = some k')
    (hgone : execute img (Image.WellFormed.pointers img) (k.enter e.regs.esp) e k.cpu command = .gone k') :
    ∃ S' c, k.processes.FirstFree c ∧ Waits k p c k' S' c ∧
      k'.frames (k'.processes.info c).haltEbp = .setupExecStack k.cpu := by
  obtain ⟨S', c, hmove, hfollows⟩ := step_follows boot h hs
  cases hmove with
  | stay quiet => exact absurd hgone (quiet.execute e command k' rfl)
  | @push _ _ t _ eip l entered entry stack slot gone view =>
    have hstacked : Stacked S p := ⟨t, by rw [stack]; exact List.mem_cons_self ..⟩
    have hp := h.table.slot_lt hstacked
    have hcp : c ≠ p := by
      rintro rfl
      exact h.table.firstFree slot hstacked
    have hmode : k'.cpu.mode = .user := by
      show k'.processes.cpu.mode = .user
      rw [view]
      rfl
    refine ⟨_, c, slot,
      ⟨hfollows.resolve_left (by rw [hmode]; decide), ⟨t, [], l, Function.update_self ..⟩, ?_, ?_⟩, ?_⟩
    · have hself : ∀ q, (k.enter e.regs.esp).processes.FirstFree q → getPcbPtr q ≠ getPcbPtr p := by
        intro q hq hx
        have hz := hq.free
        rw [(getPcbPtr_inj hq.lt hp).mp hx] at hz
        exact h.table.used hstacked hz
      have ho := @Ignores.execute _ _ _ (ignores_belongings (getPcbPtr p)) (k.enter e.regs.esp) img
        (Image.WellFormed.pointers img) e
        hself k.cpu command
      rw [hgone] at ho
      exact ho
    · rw [view, ← entered.info]
      exact push_kept hcp hcp.symm
    · show k'.processes.frames (k'.processes.info c).haltEbp = .setupExecStack k.cpu
      rw [view, Processes.push_info _ hcp, if_pos rfl]
      exact Function.update_self ..
  | pop entered ending => exact absurd hgone ending.not_gone
  | restart entered ending => exact absurd hgone ending.not_gone
  | close entered ending => exact absurd hgone ending.not_gone
  | lost entered ending => exact absurd hgone ending.not_gone

theorem active_alone (h : At k.processes S p) (hS : S t = p :: l) : ∀ q < maxProcesses, k.inUse q →
    (k.slot q).isActive ≠ 0 →
    (k.slot q).terminalInfo.terminalNum = (k.slot p).terminalInfo.terminalNum → q = p := by
  intro q hq hu ha hterm
  have hplt := h.lt
  rw [← Pcb.info_isActive, ← k.processes_info hq] at ha
  rw [← Pcb.info_terminalNum, ← Pcb.info_terminalNum, ← k.processes_info hq, ← k.processes_info hplt] at hterm
  have htop : IsTop S q := by
    by_contra hn
    exact ha (h.table.idle q hq hn)
  obtain ⟨u, m, hu'⟩ := htop.cons
  have hq' : q ∈ S u := by
    rw [hu']
    exact List.mem_cons_self ..
  have hp' : p ∈ S t := by
    rw [hS]
    exact List.mem_cons_self ..
  rw [(h.table.slot u q hq').terminalNum, (h.table.slot t p hp').terminalNum] at hterm
  subst hterm
  exact (List.cons.inj (hu'.symm.trans hS)).1

theorem esp0_inside (h : At k.processes S p) :
    eightMb - eightKb * (p + 1) < k.tss.esp0 ∧ k.tss.esp0 ≤ eightMb - eightKb * p := by
  have hp := h.lt
  have hesp0 : k.tss.esp0 = stackTop p - 4 ∨ k.tss.esp0 = stackTop p := h.onSlot.esp0
  unfold stackTop at hesp0
  simp only [maxProcesses, eightMb, eightKb] at *
  omega

theorem Waits.pops {fs : Filesystem} {k₃ : Kernel} (h : Waits k p c k₂ S c) (ht : IsTop S c)
    (hend : Ending img fs k₂ ev k₁ e status)
    (m : Move img fs k₂ S c k₃ ev S' d') : ∃ k₁ e status u l o y, p = d' ∧ S' = Function.update S u (p :: l) ∧
      S u = c :: p :: l ∧
      Entered k₂.processes c k₂.cpu (k₂.called e) ∧ Ending img fs k₂ ev k₁ e status ∧
        k₁.processes = (k₂.called e).leaked o ∧
      k₂.processes.frames (k₂.processes.info c).haltEbp = .setupExecStack y ∧
        halt img fs k₁ e k₂.cpu status = .gone k₃ ∧
      k₃.processes = (((k₂.called e).leaked o).exitTo c p).resume { y with eax := 0 } := by
  have hT := h.at_.table
  obtain ⟨t, l, hS⟩ := ht.cons
  obtain ⟨l', rfl⟩ := hT.apart.above_top h.above hS
  have hmem : c ∈ S t := by
    rw [hS]
    exact List.mem_cons_self ..
  have hterminal : ∀ {u : ℕ} {m : List ℕ}, S u = c :: m → u = t := fun hu =>
    hT.apart.disjoint (by rw [hu]; exact List.mem_cons_self ..) hmem
  have hshort : ∀ {u : ℕ}, S u ≠ [c] := by
    intro u hu
    obtain rfl := hterminal hu
    rw [hS] at hu
    cases hu
  cases m with
  | stay quiet => exact absurd hend (quiet.going _ _ _)
  | tick => cases hend
  | display => cases hend
  | create => cases hend
  | push entered entry stack slot gone => exact absurd gone hend.not_gone
  | restart entered ending before leak stack => exact absurd stack hshort
  | close entered ending before leak stack => exact absurd stack hshort
  | lost entered ending before leak stack => exact absurd stack hshort
  | @pop _ e₁ _ u q m k₁' o y entered ending before leak stack frame gone view =>
    obtain rfl := hterminal stack
    obtain ⟨rfl, rfl⟩ := List.cons.inj (List.cons.inj (hS.symm.trans stack)).2
    exact ⟨k₁', e₁, _, u, l', o, y, rfl, rfl, stack, entered, ending, before, frame, gone, view⟩

/-- **The exit of the child** hands everything back to the process below it. -/
theorem waits_exit (boot : img.Bootable) {k₃ : Kernel} (h : Waits k p c k₂ S c) (ht : IsTop S c)
    (hend : Ending img (Image.WellFormed.pointers img) k₂ ev k₁ e status)
    (hs : Kernel391.step img (Image.WellFormed.pointers img) k₂ ev = some k₃) : Undone k k₂ k₃ p c := by
  obtain ⟨S', d', hmove, hfollows⟩ := step_follows boot h.at_ hs
  have hT := h.at_.table
  obtain ⟨k₁', e₁, status, u, l', o, y, rfl, rfl, stack, entered, ending, before, frame, gone, view⟩ :=
    h.pops ht hend hmove
  have hmem : c ∈ S u := by
    rw [stack]
    exact List.mem_cons_self ..
  have hp := h.above.stacked_lower
  have hplt := hT.slot_lt hp
  have hcp : c ≠ p := h.apart.symm
  have hview : k₁'.processes.info = k₂.processes.info := by rw [before, leaked_info, entered.info]
  have hinfo :
    k₃.processes.info p = ((k₂.processes.info p).setActive 1).setOnscreen (k₂.processes.info c).isOnscreen := by
    rw [view, ← before, ← hview]
    exact (k₁'.processes.handBack_info hcp).trans ((if_neg hcp.symm).trans (if_pos rfl))
  have hids : k₃.processes.ids = Function.update ((k₂.called e₁).leaked o).ids c 0 := by
    rw [view]
    exact exitTo_ids (by rw [leaked_info, entered.info, hT.processId h.above.stacked])
  have hpaging : k₃.paging = k₁'.paging.setProgram (programFrame p) := by
    have hcalls := hT.calls u
    rw [stack, List.isChain_cons_cons] at hcalls
    have hq : p ∈ S u := by
      rw [stack]
      exact List.mem_cons_of_mem c (List.mem_cons_self ..)
    have hesp := (ending_paging (entryOn_of_ending h.at_ hs ending).1 ending).1
    exact paging_halt_same h.at_.lt hplt hesp (by rw [hview]; exact hcalls.1)
      (by rw [hview, (hT.slot u p hq).terminalNum, (hT.slot u c hmem).terminalNum])
      (by rw [hview]; exact hT.processId hp) gone
  have hmode : k₃.cpu.mode = .user := by
    have hsuspended := h.at_.contexts.suspended u
    rw [stack, List.isChain_cons_cons] at hsuspended
    have hne : getPcb (k₂.processes.info c).haltEbp ≠ getPcbPtr c := by
      rw [hsuspended.1.1]
      exact fun hx => hcp ((getPcbPtr_inj hplt h.at_.lt).mp hx).symm
    show k₃.processes.cpu.mode = .user
    rw [view]
    exact h.at_.contexts.callers _ y hne (Or.inr frame)
  have hat := hfollows.resolve_left (by rw [hmode]; decide)
  have hkept : (k.processes.info p).Kept (k₃.processes.info p) := by
    refine h.kept.trans ?_
    rw [hinfo]
    exact (setActive_kept 1 _).trans (setOnscreen_kept _ _)
  have hpinfo : ∀ {α : Type} (field : Info → α), field (k₃.slot p).info = field (k₃.processes.info p) := fun field => by
    rw [k₃.processes_info hplt]
  refine ⟨current_eq hat, ?_, ?_, ?_, active_alone hat (Function.update_self u (p :: l') S), ?_, ?_, ?_, ?_, ?_, ?_⟩
  · show ¬ k₃.processes.ids c ≠ 0
    rw [hids, Function.update_self]
    exact not_not.mpr rfl
  · exact hat.table.used ⟨u, by rw [Function.update_self]; exact List.mem_cons_self ..⟩
  · rw [← Pcb.info_isActive, hpinfo Info.isActive, hinfo]
    rfl
  · rw [← Pcb.info_isOnscreen, hpinfo Info.isOnscreen, hinfo, ← Pcb.info_isOnscreen, ← k₂.processes_info h.at_.lt]
    rfl
  · intro o ho
    obtain ⟨hidx, hoff⟩ := program_index ho
    have hentry : k₃.pageDir programIdx = programEntry (programFrame p) := by
      have hdir := congrArg (fun P => P.directory programIdx) hpaging
      exact hdir.trans (Paging.setProgram_entry ..)
    rw [(walk_entry hentry hplt hidx).2, hoff]
  · exact esp0_inside hat
  · exact (waiting_kept boot h.at_ hp h.apart hs).trans h.belongings
  · rw [← Pcb.info_parent, hpinfo Info.parent, hkept.parent, k.processes_info hplt]
    rfl
  · rw [← Pcb.info_terminalNum, hpinfo Info.terminalNum, hkept.terminalNum, k.processes_info hplt]
    rfl

end Return

/-! ## The frame of a waiting caller -/

section Frame
variable {img : Image} {k₀ k k' k₁ k₂ k₃ : Kernel} {S S' : Stacks} {c d d' p status : ℕ} {ev : Event} {e e' : Entry}
  {command : List UInt8}

theorem Waits.named (h : Waits k₀ p c k S d) : getPcb (k.processes.info c).haltEbp = getPcbPtr p := by
  obtain ⟨t, l, l', hS⟩ := h.above
  have hchain := h.at_.contexts.suspended t
  rw [hS, List.isChain_append_cons_cons] at hchain
  exact hchain.2.1.1

theorem Waits.keeps_name (h : Waits k₀ p c k S d) (hmove : Move img (Image.WellFormed.pointers img) k S d k' ev S' d')
    (hc : k'.inUse c) : (k'.processes.info c).haltEbp = (k.processes.info c).haltEbp := by
  refine (hmove.kept h.at_.table (h.at_.table.used h.above.stacked) fun hcd _ _ _ hend => ?_).haltEbp
  subst hcd
  have htop : IsTop S c := by
    rcases h.at_.running.2 with ⟨htop, -⟩ | ⟨-, -, hns, -⟩
    · exact htop
    · exact absurd h.above.stacked hns
  obtain ⟨k₁, e, status, u, l, o, y, -, -, -, entered, -, -, -, -, view⟩ := h.pops htop hend hmove
  refine hc ?_
  show k'.processes.ids c = 0
  rw [view]
  show (((k.called e).leaked o).exitTo c p).ids c = 0
  rw [exitTo_ids (by rw [leaked_info, entered.info, h.at_.table.processId h.above.stacked]), Function.update_self]

/-- **The way back** stays open while the child lives. -/
theorem Waits.keeps_frame (boot : img.Bootable) {x : Cpu} (h : Waits k₀ p c k S d)
    (hs : Kernel391.step img (Image.WellFormed.pointers img) k ev = some k') (hc : k'.inUse c)
    (hf : k.frames (k.processes.info c).haltEbp = .setupExecStack x) :
    k'.frames (k'.processes.info c).haltEbp = .setupExecStack x := by
  obtain ⟨S', d', hmove, -⟩ := step_follows boot h.at_ hs
  have hp := h.at_.table.slot_lt h.above.stacked_lower
  rw [h.keeps_name hmove hc, hmove.frames boot h.at_ (by rw [h.named]; exact ptr_ne hp h.at_.lt h.apart) hs]
  exact hf

theorem called_waits (boot : img.Bootable) (h0 : Started img (Image.WellFormed.pointers img) k₀)
    (hrun : Reaches (step img (Image.WellFormed.pointers img)) anyStep k₀ k)
    (hcall : step img (Image.WellFormed.pointers img) k (.execute e command) = some k₁)
    (hgone : execute img (Image.WellFormed.pointers img) (k.enter e.regs.esp) e k.cpu command = .gone k₁)
    (hp : p < maxProcesses) (hcaller : k.current = getPcbPtr p) (hc : c < maxProcesses)
    (hchild : k₁.current = getPcbPtr c)
    (hlife : Reaches (step img (Image.WellFormed.pointers img)) (fun s _ => s.inUse c) k₁ k₂) (halive : k₂.inUse c)
    (hturn : k₂.current = getPcbPtr c) (hend : Ending img (Image.WellFormed.pointers img) k₂ ev k' e' status)
    (hexit : step img (Image.WellFormed.pointers img) k₂ ev = some k₃) :
    ∃ S, Waits k p c k₂ S c ∧ IsTop S c ∧ k₂.frames (k₂.processes.info c).haltEbp = .setupExecStack k.cpu := by
  obtain ⟨S, d, hat⟩ : ∃ S d, At k.processes S d := by
    refine (reached_at boot h0 hrun).resolve_left fun hw => ?_
    rw [step_wild hw] at hcall
    cases hcall
  obtain rfl : d = p := (getPcbPtr_inj hat.lt hp).mp ((current_eq hat).symm.trans hcaller)
  obtain ⟨S₁, c', -, hwaits, hframe⟩ := waits_call boot hat hcall hgone
  obtain rfl : c' = c := (getPcbPtr_inj hwaits.at_.lt hc).mp ((current_eq hwaits.at_).symm.trans hchild)
  have hinv : k₂.inUse c' → k₂.cpu.mode = .wild ∨ ∃ S i, Waits k d c' k₂ S i ∧
      k₂.frames (k₂.processes.info c').haltEbp = .setupExecStack k.cpu := by
    refine hlife.invariant (P := fun s => s.inUse c' → s.cpu.mode = .wild ∨ ∃ S i, Waits k d c' s S i ∧
      s.frames (s.processes.info c').haltEbp = .setupExecStack k.cpu) (fun _ => Or.inr ⟨_, _, hwaits, hframe⟩)
      fun s ev u hs hok hstep hu => ?_
    rcases hs hok with hw | ⟨S, i, hs, hf⟩
    · rw [step_wild hw] at hstep
      cases hstep
    by_cases hw : u.cpu.mode = .wild
    · exact Or.inl hw
    · obtain ⟨S', i', hs'⟩ := hs.step boot hstep hw hu
      exact Or.inr ⟨S', i', hs', hs.keeps_frame boot hstep hu hf⟩
  obtain ⟨S₂, i, hwaits₂, hframe₂⟩ := (hinv halive).resolve_left fun hw => by
    rw [step_wild hw] at hexit
    cases hexit
  obtain rfl : i = c' := (getPcbPtr_inj hwaits₂.at_.lt hc).mp ((current_eq hwaits₂.at_).symm.trans hturn)
  have hm := (entryOn_of_ending hwaits₂.at_ hexit hend).2
  have hns : k₂.cpu.mode ≠ .spin := by
    rw [hm]
    decide
  exact ⟨S₂, hwaits₂, hwaits₂.at_.isTop hns, hframe₂⟩

end Frame


/-! ## The return -/

theorem firstShell_calls :
    step Image.small (Image.WellFormed.pointers Image.small) firstShell (.execute (firstShell.entry 64) shell) =
      some (firstShell.executes shell).kernel ∧ firstShell.executes shell = .gone (firstShell.executes shell).kernel ∧
    firstShell.current = getPcbPtr 0 ∧ (firstShell.executes shell).kernel.current = getPcbPtr 1 ∧
    (firstShell.executes shell).kernel.inUse 1 ∧ (firstShell.executes shell).kernel.cpu.mode = .user ∧
    (firstShell.executes shell).kernel.fits ((firstShell.executes shell).kernel.entry 64) = true ∧
    (firstShell.executes shell).kernel.roomFor ((firstShell.executes shell).kernel.entry 64) shell = true := by
  have hgone : (firstShell.executes shell).isGone = true := by decide +kernel
  have hfirst : firstShell.cpu.mode = .user ∧ firstShell.fits (firstShell.entry 64) = true ∧
      firstShell.roomFor (firstShell.entry 64) shell = true ∧ firstShell.current = getPcbPtr 0 := by
    decide +kernel
  have hshell : (firstShell.executes shell).kernel.current = getPcbPtr 1 ∧ (firstShell.executes shell).kernel.inUse 1 ∧
      (firstShell.executes shell).kernel.cpu.mode = .user ∧
      (firstShell.executes shell).kernel.fits ((firstShell.executes shell).kernel.entry 64) = true ∧
      (firstShell.executes shell).kernel.roomFor ((firstShell.executes shell).kernel.entry 64) shell = true := by
    decide +kernel
  exact ⟨step_executes hfirst.1 hfirst.2.1 hfirst.2.2.1 hgone, Outcome.eq_gone hgone, hfirst.2.2.2, hshell⟩

/-- **`halt` undoes `execute`**: whatever the child and the other processes did since the call, while the child was
alive. -/
theorem called_undone {img : Image} (boot : img.Bootable) {k₀ k k₁ k₂ k₃ k' : Kernel} {e e' : Entry}
    {command : List UInt8} {ev : Event} {p c status : ℕ} (h0 : Started img (Image.WellFormed.pointers img) k₀)
    (hrun : Reaches (step img (Image.WellFormed.pointers img)) anyStep k₀ k)
    (hcall : step img (Image.WellFormed.pointers img) k (.execute e command) = some k₁)
    (hgone : execute img (Image.WellFormed.pointers img) (k.enter e.regs.esp) e k.cpu command = .gone k₁)
    (hp : p < maxProcesses) (hcaller : k.current = getPcbPtr p) (hc : c < maxProcesses)
    (hchild : k₁.current = getPcbPtr c)
    (hlife : Reaches (step img (Image.WellFormed.pointers img)) (fun s _ => s.inUse c) k₁ k₂) (halive : k₂.inUse c)
    (hturn : k₂.current = getPcbPtr c) (hend : Ending img (Image.WellFormed.pointers img) k₂ ev k' e' status)
    (hexit : step img (Image.WellFormed.pointers img) k₂ ev = some k₃) : Undone k k₂ k₃ p c := by
  obtain ⟨S, hwaits, htop, -⟩ :=
    called_waits boot h0 hrun hcall hgone hp hcaller hc hchild hlife halive hturn hend hexit
  exact waits_exit boot hwaits htop hend hexit

end Kernel391
