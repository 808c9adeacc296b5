import Kernel391.System.DisplayOwner
import Kernel391.System.SavedContexts
import Kernel391.System.TerminalCursors

/-! Where control is lost. The kernel leaves a stack through a saved frame pointer, at a tick and at an exit, and goes
astray when the frame it finds there is not the one that was saved. -/
namespace Kernel391
open Kernel391.Foundations
set_option autoImplicit false

namespace Kernel
variable (k : Kernel)

/-- The frame is still there once the kernel is entered. -/
def survives (a : ℕ) (f : Frame) : Prop := getPcb a ≠ k.current ∧ k.frames a = f

/-- The EBP saved for slot `p` leads into `execute`, or into a handler on the stack of the slot. -/
def leadsBack (p : ℕ) : Prop :=
  ∃ x, k.survives (k.slot p).scheduleEbp (.execute x) ∨
    k.survives (k.slot p).scheduleEbp (.interrupt x) ∧ getPcb (k.slot p).scheduleEbp = getPcbPtr p

/-- A tick goes on with a process that lost the processor to a new terminal and whose saved frame is gone. -/
def PicksStale (g : ℕ → Suspension) : Event → Prop
  | .tick _ => ∃ p < maxProcesses, k.findNextActivePcb k.current = some (getPcbPtr p) ∧ getPcbPtr p ≠ k.current ∧
      (g (getPcbPtr p)).byTick = false ∧ ¬ k.leadsBack p
  | _ => False

/-- A process ends whose PCB names a parent in its own terminal, and no `execute` waits where it returns to. -/
def EndsUncalled (img : Image) (fs : Filesystem) (ev : Event) : Prop :=
  ∃ k₁ e status, Ending img fs k ev k₁ e status ∧ ∃ y < maxProcesses, (k.pcb k.current).parent = getPcbPtr y ∧
    (k.slot y).terminalInfo.terminalNum = k.terminal.terminalNum ∧ ∀ x,
      ¬ k.survives (k.pcb k.current).haltEbp (.setupExecStack x)

end Kernel

section Steps
variable {img : Image} {fs : Filesystem} {k k' k₁ : Kernel} {S S' : Stacks} {c c' p q t y status : ℕ}
  {ev : Event} {e : Entry}

/-! ## Ticks -/

theorem schedule_slot (hq : q < maxProcesses) : (k.slot q).scheduleEbp = (k.processes.info q).scheduleEbp := by
  rw [k.processes_info hq]
  rfl

theorem tick_wild_iff (h : At k.processes S c) (hent : EntryOn c e) (hq : IsTop S q) (hqc : q ≠ c)
    (hview : k'.processes = (k.preempted e).switchTo c q e) : k'.cpu.mode = .wild ↔ ¬ k.leadsBack q := by
  have hqlt := h.table.slot_lt hq.stacked
  have he : Entered k.processes c k.cpu (k.preempted e) := entered_interrupt h hent
  have hinfo : ((k.preempted e).setInfo c (Info.saveRegs e.regs)).info q = k.processes.info q := by
    rw [Processes.setInfo_ne _ hqc, he.info]
  have hmode : k'.cpu.mode = (((k.preempted e).setInfo c (Info.saveRegs e.regs)).setEsp0
      (stackTop ((k.processes.info q).processId % 256) - 4) |>.doSchedule (getPcbPtr q)
        (k.processes.info q).scheduleEbp e.eax).cpu.mode := by
    have hcpu := congrArg (fun P : Processes => P.cpu.mode) hview
    unfold Processes.switchTo at hcpu
    simp only [hinfo] at hcpu
    exact hcpu
  have hframes : ∀ a, (((k.preempted e).setInfo c (Info.saveRegs e.regs)).setEsp0 a).frames =
    (k.preempted e).frames := fun _ => rfl
  rw [hmode]
  unfold Processes.doSchedule Kernel.leadsBack Kernel.survives
  rw [hframes, schedule_slot hqlt, current_eq h]
  by_cases hon : getPcb (k.processes.info q).scheduleEbp = getPcbPtr c
  · -- On the stack that was interrupted only the frame of the handler is left.
    have hne : getPcb (k.processes.info q).scheduleEbp ≠ getPcbPtr q := by
      rw [hon]
      exact ptr_ne h.lt hqlt hqc.symm
    refine iff_of_true ?_ (by simp [hon])
    rcases he.here _ hon with hl | ⟨-, hi⟩
    · rw [hl]
      rfl
    · rw [hi]
      simp only
      rw [if_neg hne]
      rfl
  · rw [he.there _ hon]
    cases hf : k.processes.frames (k.processes.info q).scheduleEbp with
    | interrupt x =>
      simp only
      have hf' : k.frames (k.processes.info q).scheduleEbp = .interrupt x := hf
      by_cases hptr : getPcb (k.processes.info q).scheduleEbp = getPcbPtr q
      · rw [if_pos hptr]
        refine iff_of_false ?_ (not_not.mpr ⟨x, Or.inr ⟨⟨hon, hf'⟩, hptr⟩⟩)
        have hx := h.contexts.resumable q x hq.stacked hptr hf
        show x.mode ≠ .wild
        rcases hx with hm | ⟨hm, -⟩
        all_goals
          rw [hm]
          decide
      · rw [if_neg hptr]
        refine iff_of_true rfl ?_
        rintro ⟨z, ⟨-, hz⟩ | ⟨-, hz⟩⟩
        · cases hf'.symm.trans hz
        · exact hptr hz
    | execute x =>
      refine iff_of_false ?_ (not_not.mpr ⟨x, Or.inl ⟨hon, hf⟩⟩)
      show x.mode ≠ .wild
      rw [h.contexts.callers _ x hon (Or.inl hf)]
      decide
    | _ =>
      refine iff_of_true rfl ?_
      rintro ⟨z, ⟨-, hz⟩ | ⟨⟨-, hz⟩, -⟩⟩
      all_goals cases hf.symm.trans hz

theorem tick_stays (h : At k.processes S c) (hs : step img fs k (.tick e) = some k')
    (hnext : k.findNextActivePcb (getPcbPtr c) = some (getPcbPtr c)) : k'.cpu = k.cpu := by
  apply tick_same h hs
  rw [current_eq h]
  exact hnext

/-! ## Exits -/

theorem parent_current (h : At k.processes S c) : (k.pcb k.current).parent = (k.processes.info c).parent ∧
    (k.pcb k.current).haltEbp = (k.processes.info c).haltEbp := by
  rw [pcb_current h, k.processes_info h.lt]
  exact ⟨rfl, rfl⟩

theorem parent_terminal (h : At k.processes S c) (hc : c ∈ S t) (hy : y < maxProcesses) :
    (k.slot y).terminalInfo.terminalNum = k.terminal.terminalNum ↔ (k.processes.info y).terminalNum = t := by
  rw [(terminal_of_mem h hc).1, k.processes_info hy]
  rfl

/-- The process that ends without a caller is alone on the stack of another terminal than the first. -/
theorem uncalled_alone (h : At k.processes S c) (hS : S t = [c]) (hy : y < maxProcesses)
    (hpar : (k.processes.info c).parent = getPcbPtr y) (hterm : (k.processes.info y).terminalNum = t) (ht : t ≠ 0) :
    ∀ x, ¬ k.survives (k.processes.info c).haltEbp (.setupExecStack x) := by
  obtain ⟨z, hz, hparent, hptr⟩ := h.contexts.orphaned t c ht (by rw [hS]; rfl)
  obtain rfl : z = y := (getPcbPtr_inj hz hy).mp (hparent.symm.trans hpar)
  rintro x ⟨hon, hx⟩
  rw [current_eq h, hptr] at hon
  have hzc : z ≠ c := fun hx => hon (by rw [hx])
  have hfree : ¬ Stacked S z := by
    intro hs
    have hmem := h.table.mem_terminal hs
    rw [hterm, hS] at hmem
    exact hzc (List.mem_singleton.mp hmem)
  exact h.contexts.dead z hz hfree _ x hptr hx

/-! ## All events -/

theorem stay_mode (boot : img.Bootable) (h : At k.processes S c)
    (hs : step img (Image.WellFormed.pointers img) k ev = some k')
    (quiet : Uneventful img (Image.WellFormed.pointers img) k S ev) : k'.cpu.mode ≠ .wild := by
  have hm := not_wild_of_step hs
  cases ev with
  | tick e => exact absurd rfl (quiet.tick e)
  | halt e status => exact absurd (Ending.halt e status) (quiet.going _ _ _)
  | exception e vector => exact absurd (Ending.exception e vector) (quiet.going _ _ _)
  | key e scanCode =>
    cases hout : handleKeyboard img (Image.WellFormed.pointers img) (k.interrupted e) e scanCode with
    | ret r k₁ =>
      rw [(key_returns boot h hs hout).1]
      exact hm
    | gone k₁ =>
      obtain ⟨-, u, q, hreq, -, hq, hfree, -⟩ := key_leaves boot h hs hout
      exact absurd ((quiet.key e scanCode u rfl hreq).2 q hq) hfree
    | fault k₁ => exact absurd hout (keyboard_faultless boot h (key_fits hs).1 k₁)
  | execute e command =>
    simp only [step] at hs
    split at hs
    · cases hx : execute img (Image.WellFormed.pointers img) (k.enter e.regs.esp) e k.cpu command with
      | ret r k₁ =>
        rw [hx] at hs
        cases hs
        exact hm
      | gone k₁ => exact absurd hx (quiet.execute e command k₁ rfl)
      | fault k₁ => exact absurd (Ending.fault hx) (quiet.going _ _ _)
    · cases hs
  | output b =>
    simp only [step] at hs
    split at hs
    · cases hs
      exact hm
    · cases hs
  | trap x =>
    simp only [step] at hs
    split at hs
    · next _ hx =>
      cases hs
      show x.mode ≠ .wild
      rw [hx]
      decide
    · next _ hx =>
      cases hs
      show x.mode ≠ .wild
      rw [hx]
      decide
    · next _ hx =>
      split at hs
      · cases hs
        show x.mode ≠ .wild
        rw [hx]
        decide
      · cases hs
    · next _ hx =>
      split at hs
      · cases hs
        show x.mode ≠ .wild
        rw [hx]
        decide
      · cases hs
    · cases hs
  | work w =>
    simp only [step] at hs
    split at hs
    · cases hs
      exact hm
    · cases hs

theorem mode_of_view {P : Processes} (hview : k'.processes = P) : k'.cpu.mode = P.cpu.mode :=
  congrArg (fun P : Processes => P.cpu.mode) hview

/-- **Other events than ticks** lose control exactly where a process ends without a caller. -/
theorem Move.wild_iff (boot : img.Bootable) (m : Move img (Image.WellFormed.pointers img) k S c k' ev S' c')
    (h : At k.processes S c)
    (hs : step img (Image.WellFormed.pointers img) k ev = some k') (htick : ∀ e, ev ≠ .tick e) :
    k'.cpu.mode = .wild ↔ k.EndsUncalled img (Image.WellFormed.pointers img) ev := by
  cases m with
  | stay quiet =>
    refine iff_of_false (stay_mode boot h hs quiet) ?_
    rintro ⟨k₁, e, status, hend, -⟩
    exact quiet.going _ _ _ hend
  | tick => exact absurd rfl (htick _)
  | display _ _ _ _ resume =>
    refine iff_of_false ?_ (by rintro ⟨k₁, e, status, hend, -⟩; cases hend)
    have hm := not_wild_of_step hs
    rw [resume]
    exact hm
  | create _ _ _ _ _ _ view =>
    refine iff_of_false ?_ (by rintro ⟨k₁, e, status, hend, -⟩; cases hend)
    rw [mode_of_view view]
    exact Mode.noConfusion
  | push _ _ _ _ gone view =>
    refine iff_of_false ?_ ?_
    · rw [mode_of_view view]
      exact Mode.noConfusion
    · rintro ⟨k₁, e, status, hend, -⟩
      cases hend with
      | fault hfault => cases gone.symm.trans hfault
  | @pop _ _ _ t _ l k₁ o x entered ending before leak stack frame gone view =>
    have hq : c' ∈ S t := by
      rw [stack]
      exact List.mem_cons_of_mem c (List.mem_cons_self ..)
    have hqc : c' ≠ c := by
      rintro rfl
      exact h.table.apart.not_isTop stack (List.mem_cons_self ..) (isTop_of_cons stack)
    have hsuspended := h.contexts.suspended t
    rw [stack, List.isChain_cons_cons] at hsuspended
    have hon : getPcb (k.processes.info c).haltEbp ≠ getPcbPtr c := by
      rw [hsuspended.1.1]
      exact ptr_ne (h.table.lt t c' hq).2 h.lt hqc
    refine iff_of_false ?_ ?_
    · rw [mode_of_view view]
      show x.mode ≠ .wild
      rw [h.contexts.callers _ x hon (Or.inr frame)]
      decide
    · rintro ⟨_, _, _, -, y, -, -, -, hnone⟩
      rw [(parent_current h).2] at hnone
      refine hnone x ⟨?_, frame⟩
      rw [current_eq h]
      exact hon
  | restart _ _ _ _ stack _ view =>
    obtain rfl : c = 0 := by
      have hfirst := h.table.first
      rw [stack, List.getLast?_singleton, Option.some.injEq] at hfirst
      exact hfirst
    refine iff_of_false ?_ ?_
    · rw [mode_of_view view]
      exact Mode.noConfusion
    · rintro ⟨_, _, _, -, y, hy, hpar, -⟩
      rw [(parent_current h).1, h.table.root] at hpar
      exact getPcbPtr_ne_zero hy hpar.symm
  | @close _ _ _ t q y l k₁ o x _ _ _ _ stack _ parent elsewhere _ spin _ view =>
    have hc : c ∈ S t := by
      rw [stack]
      exact List.mem_cons_self ..
    refine iff_of_false ?_ ?_
    · rw [mode_of_view view]
      show x.mode ≠ .wild
      rw [spin.1]
      decide
    · rintro ⟨_, _, _, -, z, hz, hpar, hterm, -⟩
      rw [(parent_current h).1] at hpar
      obtain rfl := (getPcbPtr_inj hz parent.1).mp (hpar.symm.trans parent.2)
      exact elsewhere ((parent_terminal h hc hz).mp hterm)
  | @lost _ e status t y k₁ o _ ending _ _ stack other parent same _ _ wild =>
    have hc : c ∈ S t := by
      rw [stack]
      exact List.mem_cons_self ..
    refine iff_of_true wild ⟨k₁, e, status, ending, y, parent.1, ?_, (parent_terminal h hc parent.1).mpr same, ?_⟩
    · rw [(parent_current h).1]
      exact parent.2
    · rw [(parent_current h).2]
      exact uncalled_alone h stack parent.1 parent.2 same other

end Steps
/-! ## Runs -/

section Runs
variable {img : Image} {k₀ k' : Kernel} {g₀ : ℕ → Suspension} {s : Ghosted Kernel (ℕ → Suspension)} {ev : Event}
  {S : Stacks} {c : ℕ}

/-- A run, with what each process left behind when it lost the processor. -/
abbrev lossStep (img : Image) (fs : Filesystem) : Ghosted Kernel (ℕ → Suspension) → Event →
    Option (Ghosted Kernel (ℕ → Suspension)) :=
  ghostStep (step img fs) (recordLoss (step img fs) Kernel.current Kernel.suspension)

def InControl (s : Ghosted Kernel (ℕ → Suspension)) : Prop :=
  Suspended Kernel.current Kernel.schedulable Kernel.holds s ∧
    (s.state.cpu.mode = .wild ∨ ∃ S c, At s.state.processes S c ∧ s.state.processes.Parented c)

theorem inControl_start (h0 : Started img (Image.WellFormed.pointers img) k₀) : InControl ⟨k₀, g₀⟩ :=
  ⟨started_suspended h0, Or.inr ⟨_, _, started_at h0, started_parented h0⟩⟩

theorem InControl.next {s' : Ghosted Kernel (ℕ → Suspension)} (boot : img.Bootable) (h : InControl s)
    (hs : lossStep img (Image.WellFormed.pointers img) s ev = some s') : InControl s' := by
  have hstep := (ghostStep_some hs).1
  obtain ⟨S, c, hat, hP⟩ := h.2.resolve_left (not_wild_of_step hstep)
  refine ⟨suspended_step boot hat hP h.1 hs, ?_⟩
  obtain ⟨S', c', hmove, hafter⟩ := step_follows boot hat hstep
  exact hafter.imp_right fun hat' => ⟨S', c', hat', hmove.parented hat hP hat'⟩

theorem tick_lost_iff (h : At s.state.processes S c)
    (hg : Suspended Kernel.current Kernel.schedulable Kernel.holds s) {e : Entry}
    {fs : Filesystem} (hs : step img fs s.state (.tick e) = some k') :
    k'.cpu.mode = .wild ↔ s.state.PicksStale s.ghost (.tick e) := by
  obtain ⟨q, htop, hnext, -, hview, -⟩ := tick_next h hs
  have hq := h.table.slot_lt htop.stacked
  have hcur := current_eq h
  by_cases hqc : q = c
  · subst hqc
    refine iff_of_false ?_ ?_
    · rw [tick_stays h hs hnext]
      exact not_wild_of_step hs
    · rintro ⟨p, hp, hfound, hne, -⟩
      rw [hcur] at hfound hne
      exact hne (Option.some.inj (hfound.symm.trans hnext))
  have hne : getPcbPtr q ≠ s.state.current := by
    rw [hcur]
    exact ptr_ne hq h.lt hqc
  have hwild := tick_wild_iff h (tick_frame h hs).1 htop hqc hview
  constructor
  · intro hw
    refine ⟨q, hq, by rw [hcur]; exact hnext, hne, ?_, hwild.mp hw⟩
    by_contra htimed
    rw [Bool.not_eq_false] at htimed
    -- After a tick the pair leads back into the process, and the code it was in is not lost.
    obtain ⟨hcpu, hback⟩ := tick_resumes h hg hq hs (by rw [hcur]; exact hnext) hne htimed
    obtain ⟨hpair, hframe⟩ := hg (getPcbPtr q) (schedulable_top h htop) hne
    obtain ⟨hframe, hebp⟩ := hframe htimed
    refine hwild.mp hw ⟨(s.ghost (getPcbPtr q)).context, Or.inr ?_⟩
    have hstored : (s.state.slot q).scheduleEbp = (s.ghost (getPcbPtr q)).regs.ebp := by
      have hregs := congrArg Regs.ebp hpair
      unfold Suspension.stored at hregs
      rw [if_pos htimed] at hregs
      exact hregs
    rw [hstored]
    refine ⟨⟨?_, hframe⟩, hebp⟩
    rw [hebp]
    exact hne
  · rintro ⟨p, hp, hfound, -, -, hdead⟩
    rw [hcur, hnext, Option.some.injEq] at hfound
    obtain rfl := (getPcbPtr_inj hq hp).mp hfound
    exact hwild.mpr hdead

theorem lost_iff (boot : img.Bootable) (h : InControl s)
    (hs : step img (Image.WellFormed.pointers img) s.state ev = some k') :
    k'.cpu.mode = .wild ↔ s.state.PicksStale s.ghost ev ∨
      s.state.EndsUncalled img (Image.WellFormed.pointers img) ev := by
  obtain ⟨S, c, hat, -⟩ := h.2.resolve_left (not_wild_of_step hs)
  by_cases htick : ∃ e, ev = .tick e
  · obtain ⟨e, rfl⟩ := htick
    rw [tick_lost_iff hat h.1 hs, or_iff_left]
    rintro ⟨k₁, e', status, hend, -⟩
    cases hend
  · obtain ⟨S', c', hmove, -⟩ := step_follows boot hat hs
    rw [hmove.wild_iff boot hat hs fun e hx => htick ⟨e, hx⟩, or_iff_right]
    intro hstale
    cases ev with
    | tick e => exact htick ⟨e, rfl⟩
    | _ => exact hstale

/-- **Control is lost** in two ways only: a tick goes on with a process that lost the processor to a new terminal
and whose saved frame is gone, or a process ends whose parent's PCB names its own terminal while no `execute` waits
there. A run without them stays under control. -/
theorem control_lost_iff (img : Image) (boot : img.Bootable) (h0 : Started img (Image.WellFormed.pointers img) k₀)
    (g₀ : ℕ → Suspension) (s : Ghosted Kernel (ℕ → Suspension)) :
    (Reaches (lossStep img (Image.WellFormed.pointers img)) anyStep ⟨k₀, g₀⟩ s →
      ∀ ev k', step img (Image.WellFormed.pointers img) s.state ev = some k' →
        (k'.cpu.mode = .wild ↔ s.state.PicksStale s.ghost ev ∨
          s.state.EndsUncalled img (Image.WellFormed.pointers img) ev)) ∧
    (Reaches (lossStep img (Image.WellFormed.pointers img))
      (fun s ev => ¬ (s.state.PicksStale s.ghost ev ∨ s.state.EndsUncalled img (Image.WellFormed.pointers img) ev))
        ⟨k₀, g₀⟩ s →
      s.state.cpu.mode ≠ .wild) := by
  refine ⟨fun h ev k' hs => ?_, fun h => ?_⟩
  · have hctl : InControl s := h.invariant (P := InControl) (inControl_start h0) fun _ _ _ hs _ hst => hs.next boot hst
    exact lost_iff boot hctl hs
  · have hboth : InControl s ∧ s.state.cpu.mode ≠ .wild := by
      refine h.invariant (P := fun s => InControl s ∧ s.state.cpu.mode ≠ .wild)
        ⟨inControl_start h0, not_wild (started_at h0)⟩ ?_
      intro s ev s' hs hok hst
      exact ⟨hs.1.next boot hst, fun hw => hok ((lost_iff boot hs.1 (ghostStep_some hst).1).mp hw)⟩
    exact hboth.2

/-- A tick keeps the first shell under control. -/
theorem control_kept_first :
    ∃ k, step Image.small (Image.WellFormed.pointers Image.small) firstShell (.tick (firstShell.entry 0)) = some k ∧
    ¬ (firstShell.PicksStale (fun _ => firstShell.suspension (.output 0)) (.tick (firstShell.entry 0)) ∨
      firstShell.EndsUncalled Image.small (Image.WellFormed.pointers Image.small) (.tick (firstShell.entry 0))) := by
  obtain ⟨k, hs, h, -⟩ := @Stage.tick Image.small firstShell _ 0 0 0 firstShell_stage
    (firstAfter_iff_head.mp (by decide)) fun hne => absurd rfl hne
  refine ⟨k, hs, fun hlost => ?_⟩
  have hiff := (control_lost_iff Image.small Image.small_bootable firstShell_started
    (fun _ => firstShell.suspension (.output 0)) ⟨firstShell, _⟩).1
    (.refl _) _ _ hs
  rw [h.mode] at hiff
  cases hiff.mpr hlost

end Runs
end Kernel391
