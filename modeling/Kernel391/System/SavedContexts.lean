import Kernel391.Foundations.Handovers
import Kernel391.System.CalmRuns

/-! The saved contexts. A tick saves the pair of the process it takes the processor from where the next tick looks
for it; the creation of a terminal takes the processor as well, and saves the pair in the PCB of the new shell. -/
namespace Kernel391
open Kernel391.Foundations
set_option autoImplicit false

/-! ## What a process leaves behind -/

/-- A process that lost the processor: the pair captured there, the code it was in, whether it was a tick, and the
pair its PCB held before. -/
structure Suspension where
  regs : Regs
  context : Cpu
  byTick : Bool
  before : Regs

def Suspension.stored (s : Suspension) : Regs := if s.byTick then s.regs else s.before

namespace Kernel
variable (k : Kernel)

/-- The pair `(schedule_ebp, schedule_esp)` of a PCB. -/
def pair (a : ℕ) : Regs := ⟨(k.pcb a).scheduleEbp, (k.pcb a).scheduleEsp⟩

/-- What the process on the processor leaves behind if the event takes the processor from it. -/
def suspension : Event → Suspension
  | .tick e => ⟨e.regs, k.cpu, true, k.pair k.current⟩
  | .key e _ => ⟨e.regs, k.cpu, false, k.pair k.current⟩
  | .execute e _ => ⟨e.regs, k.cpu, false, k.pair k.current⟩
  | .halt e _ => ⟨e.regs, k.cpu, false, k.pair k.current⟩
  | .exception e _ => ⟨e.regs, k.cpu, false, k.pair k.current⟩
  | _ => ⟨k.pair k.current, k.cpu, false, k.pair k.current⟩

/-- The PCB of a process in use that can be scheduled. -/
def schedulable (a : ℕ) : Prop := ∃ p < maxProcesses, a = getPcbPtr p ∧ k.inUse p ∧ (k.slot p).isActive ≠ 0

/-- The PCB holds what the process left behind, and after a tick the frame at the saved EBP, on the stack of the
process, leads back to the code it was in. -/
def holds (a : ℕ) (s : Suspension) : Prop :=
  k.pair a = s.stored ∧ (s.byTick = true → k.frames s.regs.ebp = .interrupt s.context ∧ getPcb s.regs.ebp = a)

end Kernel

def Info.pair (i : Info) : Regs := ⟨i.scheduleEbp, i.scheduleEsp⟩

/-- The parent of a PCB has been set up. -/
structure Processes.Parented (P : Processes) (c : ℕ) : Prop where
  current : (P.info c).esp0 = stackTop c
  parent : ∀ r < maxProcesses, ∀ y < maxProcesses, (P.info r).parent = getPcbPtr y → (P.info y).esp0 = stackTop y

section Moves
variable {img : Image} {fs : Filesystem} {k k' : Kernel} {S S' : Stacks} {c c' p q y : ℕ} {ev : Event} {P : Processes}

theorem pair_info (hp : p < maxProcesses) : k.pair (getPcbPtr p) = (k.processes.info p).pair := by
  rw [k.processes_info hp]
  rfl

/-! ## The stack of a slot that has been set up -/

theorem Info.Kept.top {i j : Info} (h : i.Kept j) (hi : i.esp0 = stackTop p) : j.esp0 = stackTop p := h.esp0.trans hi

theorem Move.esp0 (m : Move img fs k S c k' ev S' c') (h : At k.processes S c)
    (hp : (k.processes.info p).esp0 = stackTop p) :
    (k'.processes.info p).esp0 = stackTop p := by
  have hleak : ∀ {P₀ : Processes} {o : Option ℕ}, Entered k.processes c k.cpu P₀ →
      (P₀.leaked o).info = k.processes.info := fun he => (leaked_info _ _).trans he.info
  cases m with
  | stay _ _ info _ => rwa [info]
  | tick entered top next gone view =>
    rw [← entered.info] at hp
    rw [view, switchTo_info]
    exact (setInfo_kept (saveRegs_kept _) c p).top hp
  | display entered request stack ret resume view =>
    rw [← entered.info] at hp
    rw [view]
    exact (display_kept p).top hp
  | create entered entry request stack slot gone view =>
    rw [view]
    by_cases hpc : p = c'
    · rw [Processes.create_info, if_pos hpc, hpc]
      rfl
    · rw [← entered.info] at hp
      exact (create_kept hpc).top hp
  | push entered entry stack slot gone view =>
    have hne : c' ≠ c := by
      rintro rfl
      exact h.table.firstFree slot ⟨_, by rw [stack]; exact List.mem_cons_self ..⟩
    rw [view]
    by_cases hpc : p = c'
    · rw [Processes.push_info _ hne, if_pos hpc, hpc]
      rfl
    · rw [← entered.info] at hp
      exact (push_kept hne hpc).top hp
  | pop entered ending before leak stack frame gone view =>
    rw [← hleak entered] at hp
    rw [view]
    exact (exitTo_kept p).top hp
  | restart entered ending before leak stack gone view =>
    rw [view]
    by_cases hp0 : p = 0
    · rw [Processes.start_info, if_pos hp0, hp0]
      rfl
    · rw [← hleak entered] at hp
      exact (restart_kept hp0).top hp
  | close entered ending before leak stack other parent elsewhere first spin gone view =>
    rw [← hleak entered] at hp
    rw [view]
    exact (exitToSpin_kept p).top hp
  | lost entered ending before leak stack other parent same gone view wild =>
    rw [← hleak entered] at hp
    rw [view, haltProcess_info]
    exact (exitTo_kept p).top hp

theorem Move.lands (m : Move img fs k S c k' ev S' c') : c' = c ∨ Stacked S' c' := by
  cases m with
  | tick entered top => exact Or.inr top.stacked
  | @create _ _ t => exact Or.inr ⟨t, by rw [Function.update_self]; exact List.mem_cons_self ..⟩
  | @push _ _ t => exact Or.inr ⟨t, by rw [Function.update_self]; exact List.mem_cons_self ..⟩
  | @pop _ _ _ t => exact Or.inr ⟨t, by rw [Function.update_self]; exact List.mem_cons_self ..⟩
  | _ => exact Or.inl rfl

theorem Move.parented (m : Move img fs k S c k' ev S' c') (h : At k.processes S c) (hP : k.processes.Parented c)
    (hat : At k'.processes S' c') : k'.processes.Parented c' where
  current := by
    rcases m.lands with rfl | ⟨t, ht⟩
    · exact m.esp0 h hP.current
    · exact (hat.table.slot t c' ht).esp0
  parent r hr y hy hpar := by
    rcases m.parent h r with hsame | ⟨-, -, -, hnew⟩ | hzero
    · exact m.esp0 h (hP.parent r hr y hy (hsame.symm.trans hpar))
    · obtain rfl := (getPcbPtr_inj hy h.lt).mp (hpar.symm.trans hnew)
      exact m.esp0 h hP.current
    · exact absurd (hpar.symm.trans hzero) (getPcbPtr_ne_zero hy)

/-! ## Who keeps its pair -/

theorem display_pair {o q r : ℕ} : ((P.display o q).info r).pair = (P.info r).pair :=
  display_field Info.pair fun _ _ => rfl

theorem exitToSpin_field {α : Type} {o : ℕ} (field : Info → α)
    (hf : ∀ i b, field (i.setOnscreen b) = field i) (hpc : p ≠ c) :
    field ((P.exitToSpin c o q).info p) = field (P.info p) :=
  (display_field field hf).trans (by rw [Processes.setInfo_ne _ hpc])

theorem launch_current (hp : p < maxProcesses) (hm : P.cpu.mode = .user) (he : P.esp0 = stackTop p - 4) :
    P.current = getPcbPtr p :=
  (onSlot_of_resumable hp (Or.inl hm) (Or.inl he)).current

theorem current_view (hview : k'.processes = P) : k'.current = P.current := by
  rw [← hview]
  exact k'.processes_current.symm

theorem exitTo_esp0 : (P.exitTo c q).esp0 = (P.info q).esp0 := (exitTo_kept (P := P) (c := c) (q := q) q).esp0

/-- Where control is lost on the exit into slot `y`, the processor enters the kernel there. -/
theorem lost_current {status ebp : ℕ} (hy : y < maxProcesses) (htop : (P.info y).esp0 = stackTop y)
    (hw : ((P.exitTo c y).haltProcess status ebp).cpu.mode = .wild) :
    ((P.exitTo c y).haltProcess status ebp).current = getPcbPtr y := by
  have hesp0 : ((P.exitTo c y).haltProcess status ebp).esp0 = stackTop y := by
    unfold Processes.haltProcess
    split <;> exact exitTo_esp0.trans htop
  unfold Processes.current Processes.entryEsp
  rw [hw]
  simp only
  rw [hesp0]
  exact getPcb_below_top hy (by decide) (by decide)

theorem popped_current {t : ℕ} {l : List ℕ} {x : Cpu} {eax : ℕ} (h : At k.processes S c)
    (hinfo : P.info = k.processes.info)
    (hS : S t = c :: q :: l) (hframe : k.processes.frames (k.processes.info c).haltEbp = .setupExecStack x)
    (hview : k'.processes = (P.exitTo c q).resume { x with eax := eax }) : k'.current = getPcbPtr q := by
  have hq : q ∈ S t := by
    rw [hS]
    exact List.mem_cons_of_mem c (List.mem_cons_self ..)
  have hcq : q ≠ c := by
    rintro rfl
    exact h.table.apart.not_isTop hS (List.mem_cons_self ..) (isTop_of_cons hS)
  have hlt := (h.table.lt t q hq).2
  have hsuspended := h.contexts.suspended t
  rw [hS, List.isChain_cons_cons] at hsuspended
  have hx : x.mode = .user := h.contexts.callers _ x (by rw [hsuspended.1.1]; exact ptr_ne hlt h.lt hcq) (Or.inr hframe)
  have hesp0 : (P.exitTo c q).esp0 = stackTop q := by
    rw [exitTo_esp0, hinfo]
    exact (h.table.slot t q hq).esp0
  refine (current_view hview).trans ?_
  exact (@onSlot_of_resumable ((P.exitTo c q).resume { x with eax := eax }) q hlt (Or.inl hx) (Or.inr hesp0)).current

/-- **A process off the processor** before and after a move keeps its pair, and was schedulable before. -/
theorem Move.bystander (m : Move img fs k S c k' ev S' c') (h : At k.processes S c)
    (hP : k.processes.Parented c) (hpc : p ≠ c)
    (hcur : getPcbPtr p ≠ k'.current) (ha : (k'.processes.info p).isActive ≠ 0) :
    (k.processes.info p).isActive ≠ 0 ∧ (k'.processes.info p).pair = (k.processes.info p).pair := by
  have hleak : ∀ {P₀ : Processes} {o : Option ℕ}, Entered k.processes c k.cpu P₀ →
      (P₀.leaked o).info = k.processes.info := fun he => (leaked_info _ _).trans he.info
  have hsame : k'.processes.info p = k.processes.info p →
      (k.processes.info p).isActive ≠ 0 ∧ (k'.processes.info p).pair = (k.processes.info p).pair := fun hx => by
    rw [hx] at ha ⊢
    exact ⟨ha, rfl⟩
  cases m with
  | stay _ _ info _ => exact hsame (by rw [info])
  | tick entered top next gone view =>
    refine hsame ?_
    rw [view, switchTo_info, Processes.setInfo_ne _ hpc, entered.info]
  | @display e scanCode t q l k₁ entered request stack ret resume view =>
    have hinfo : k'.processes.info p = ((k.preempted e).display ((k.preempted e).onscreen q) q).info p := by
      rw [view]
      rfl
    rw [hinfo, display_field Info.isActive fun _ _ => rfl, entered.info] at ha
    rw [hinfo, display_pair, entered.info]
    exact ⟨ha, rfl⟩
  | create entered entry request stack slot gone view =>
    have hne : p ≠ c' := by
      rintro rfl
      exact hcur ((current_view view).trans (launch_current slot.lt rfl rfl)).symm
    rw [view, Processes.create_info, if_neg hne, entered.info] at ha ⊢
    split at ha
    · next hor =>
      rw [if_pos hor]
      exact ⟨ha, rfl⟩
    · next hor =>
      rw [if_neg hor]
      exact ⟨ha, rfl⟩
  | push entered entry stack slot gone view =>
    have hne : p ≠ c' := by
      rintro rfl
      exact hcur ((current_view view).trans (launch_current slot.lt rfl rfl)).symm
    have hcc : c' ≠ c := by
      rintro rfl
      exact h.table.firstFree slot ⟨_, by rw [stack]; exact List.mem_cons_self ..⟩
    refine hsame ?_
    rw [view, Processes.push_info _ hcc, if_neg hne, if_neg hpc, entered.info]
  | @pop _ e status t _ l k₁ o y entered ending before leak stack frame gone view =>
    have hne : p ≠ c' := by
      rintro rfl
      exact hcur (popped_current h (hleak entered) stack frame view).symm
    have hinfo : k'.processes.info = (((k.called e).leaked o).exitTo c c').info := by
      rw [view]
      rfl
    exact hsame (by rw [hinfo, exitTo_ne hpc hne, hleak entered])
  | restart entered ending before leak stack gone view =>
    obtain rfl : c = 0 := by
      have hfirst := h.table.first
      rw [stack, List.getLast?_singleton, Option.some.injEq] at hfirst
      exact hfirst
    refine hsame ?_
    rw [view, Processes.start_info, if_neg hpc, ← hleak entered]
    rfl
  | @close _ e status t q y l k₁ o x entered ending before leak stack other parent elsewhere first spin gone view =>
    have hinfo :
      k'.processes.info = (((k.called e).leaked o).exitToSpin c (((k.called e).leaked o).onscreen q) q).info := by
      rw [view]
      rfl
    rw [hinfo, exitToSpin_field Info.isActive (fun _ _ => rfl) hpc, hleak entered] at ha
    rw [hinfo, exitToSpin_field Info.pair (fun _ _ => rfl) hpc, hleak entered]
    exact ⟨ha, rfl⟩
  | @lost _ e status t y k₁ o entered ending before leak stack other parent same gone view wild =>
    have htop : (((k.called e).leaked o).info y).esp0 = stackTop y := by
      rw [hleak entered]
      exact hP.parent c h.lt y parent.1 parent.2
    have hne : p ≠ y := by
      rintro rfl
      refine hcur ((current_view view).trans (lost_current parent.1 htop ?_)).symm
      rw [← view]
      exact wild
    refine hsame ?_
    rw [view, haltProcess_info, exitTo_ne hpc hne, hleak entered]

/-! ## Who leaves a pair behind -/

theorem suspension_untimed (k : Kernel) (hev : ∀ e, ev ≠ .tick e) :
    (k.suspension ev).stored = k.pair k.current ∧ (k.suspension ev).byTick = false := by
  cases ev with
  | tick e => exact absurd rfl (hev e)
  | _ => exact ⟨rfl, rfl⟩

theorem holds_untimed (h : At k.processes S c) (hev : ∀ e, ev ≠ .tick e)
    (hpair : (k'.processes.info c).pair = (k.processes.info c).pair) : k'.holds (getPcbPtr c) (k.suspension ev) := by
  obtain ⟨hstored, htick⟩ := suspension_untimed k hev
  refine ⟨?_, fun hx => ?_⟩
  · rw [hstored, current_eq h, pair_info h.lt, pair_info h.lt, hpair]
  · rw [htick] at hx
    cases hx

theorem tick_frame {e : Entry} (h : At k.processes S c) (hs : step img fs k (.tick e) = some k') :
    EntryOn c e ∧ (k.preempted e).frames e.regs.ebp = .interrupt k.cpu := by
  simp only [step] at hs
  split at hs
  · next hc =>
    refine ⟨(entryOn_of_fits h hc.2.1).1, ?_⟩
    rw [preempted_frames, ← hc.2.2, Function.update_self]
  · cases hs

/-- **The process that loses the processor**, if it can be scheduled again, has its new pair after a tick, and its
old one after the creation of a terminal. -/
theorem Move.loser (m : Move img fs k S c k' ev S' c') (h : At k.processes S c) (hs : step img fs k ev = some k')
    (hcur : getPcbPtr c ≠ k'.current) (hu : k'.processes.ids c ≠ 0) (ha : (k'.processes.info c).isActive ≠ 0) :
    k'.holds (getPcbPtr c) (k.suspension ev) := by
  have hid : ∀ {e : Entry} {o : Option ℕ} {t : ℕ} {l : List ℕ},
    Entered k.processes c k.cpu (k.called e) → S t = c :: l →
      (((k.called e).leaked o).info c).processId = c := by
    intro e o t l he hS
    rw [leaked_info, he.info]
    exact h.table.processId ⟨t, by rw [hS]; exact List.mem_cons_self ..⟩
  cases m with
  | stay quiet ids info _ => exact holds_untimed h quiet.tick (by rw [info])
  | @tick e _ entered top next gone view =>
    obtain ⟨hent, hframe⟩ := tick_frame h hs
    have hframes : k'.frames = (k.preempted e).frames :=
      (congrArg Processes.frames view).trans (switchTo_frames _ _ _ _)
    refine ⟨?_, fun _ => ⟨?_, hent.ebp.1⟩⟩
    · rw [pair_info h.lt, view, switchTo_info, Processes.setInfo_self]
      rfl
    · rw [hframes]
      exact hframe
  | @display e scanCode t q l k₁ entered request stack ret resume view =>
    refine holds_untimed h (fun _ hx => by cases hx) ?_
    have hinfo : k'.processes.info c = ((k.preempted e).display ((k.preempted e).onscreen q) q).info c := by
      rw [view]
      rfl
    rw [hinfo, display_pair, entered.info]
  | create entered entry request stack slot gone view =>
    refine holds_untimed h (fun _ hx => by cases hx) ?_
    have hne : c ≠ c' := by
      rintro rfl
      exact hcur ((current_view view).trans (launch_current slot.lt rfl rfl)).symm
    rw [view, Processes.create_info, if_neg hne, if_pos (Or.inl rfl), entered.info]
    rfl
  | push entered entry stack slot gone view =>
    have hcc : c' ≠ c := by
      rintro rfl
      exact h.table.firstFree slot ⟨_, by rw [stack]; exact List.mem_cons_self ..⟩
    rw [view, Processes.push_info _ hcc, if_neg hcc.symm, if_pos rfl] at ha
    exact absurd rfl ha
  | @pop _ e status t _ l k₁ o y entered ending before leak stack frame gone view =>
    have hids : k'.processes.ids = (((k.called e).leaked o).exitTo c c').ids := by
      rw [view]
      rfl
    rw [hids, exitTo_ids (hid entered stack), Function.update_self] at hu
    exact absurd rfl hu
  | restart entered ending before leak stack gone view =>
    obtain rfl : c = 0 := by
      have hfirst := h.table.first
      rw [stack, List.getLast?_singleton, Option.some.injEq] at hfirst
      exact hfirst
    exact absurd ((current_view view).trans (launch_current h.lt rfl rfl)).symm hcur
  | @close _ e status t q y l k₁ o x entered ending before leak stack other parent elsewhere first spin gone view =>
    rw [view] at hu
    exact absurd (Function.update_self _ _ _) hu
  | @lost _ e status t y k₁ o entered ending before leak stack other parent same gone view wild =>
    rw [view, haltProcess_ids, exitTo_ids (hid entered stack), Function.update_self] at hu
    exact absurd rfl hu

end Moves

/-! ## Runs -/

/-- The contexts of the processes that wait for the processor: the pair in the PCB is the one captured exactly when
the process lost the processor to a tick, or the PCB held that pair before; after a tick the process goes on where
it was, on its own stack, and a tick that finds no other process changes nothing for the running one. -/
structure ContextsSaved (img : Image) (fs : Filesystem) (k : Kernel) (g : ℕ → Suspension) : Prop where
  saved : ∀ p < maxProcesses, k.inUse p → (k.slot p).isActive ≠ 0 → getPcbPtr p ≠ k.current →
    (k.pair (getPcbPtr p) = (g (getPcbPtr p)).regs ↔
      (g (getPcbPtr p)).byTick = true ∨ (g (getPcbPtr p)).before = (g (getPcbPtr p)).regs)
  resumed : ∀ e k' p, p < maxProcesses → step img fs k (.tick e) = some k' →
    k.findNextActivePcb k.current = some (getPcbPtr p) → getPcbPtr p ≠ k.current → (g (getPcbPtr p)).byTick = true →
      k'.cpu = (g (getPcbPtr p)).context ∧ k'.current = getPcbPtr p
  unmoved : ∀ e k', step img fs k (.tick e) = some k' → k.findNextActivePcb k.current = some k.current → k'.cpu = k.cpu

section Runs
variable {img : Image} {fs : Filesystem} {k k' : Kernel} {S : Stacks} {c p : ℕ} {e : Entry} {g : ℕ → Suspension}

theorem stored_iff (s : Suspension) : s.stored = s.regs ↔ s.byTick = true ∨ s.before = s.regs := by
  unfold Suspension.stored
  cases s.byTick with
  | true => simp
  | false => simp

theorem top_live (h : At k.processes S c) (hp : IsTop S p) : k.inUse p ∧ (k.slot p).isActive ≠ 0 := by
  have hlt := h.table.slot_lt hp.stacked
  have ha := h.table.active p hlt hp
  rw [k.processes_info hlt, Pcb.info_isActive] at ha
  refine ⟨h.table.used hp.stacked, ?_⟩
  rw [ha]
  exact Nat.one_ne_zero

theorem schedulable_top (h : At k.processes S c) (hp : IsTop S p) : k.schedulable (getPcbPtr p) :=
  ⟨p, h.table.slot_lt hp.stacked, rfl, top_live h hp⟩

/-- **A tick resumes** the process it picks where an earlier tick left it. -/
theorem tick_resumes (h : At k.processes S c) (hg : Suspended Kernel.current Kernel.schedulable Kernel.holds ⟨k, g⟩)
    (hp : p < maxProcesses) (hs : step img fs k (.tick e) = some k')
    (hnext : k.findNextActivePcb k.current = some (getPcbPtr p))
    (hne : getPcbPtr p ≠ k.current) (htick : (g (getPcbPtr p)).byTick = true) :
    k'.cpu = (g (getPcbPtr p)).context ∧ k'.current = getPcbPtr p := by
  obtain ⟨q, htop, hfound, -, hview, hafter⟩ := tick_next h hs
  rw [current_eq h] at hnext hne
  rw [hnext, Option.some.injEq] at hfound
  obtain rfl := (getPcbPtr_inj hp (h.table.slot_lt htop.stacked)).mp hfound
  obtain ⟨hpair, hframe⟩ := hg (getPcbPtr p) (schedulable_top h htop) (by rw [current_eq h]; exact hne)
  obtain ⟨hframe, hebp⟩ := hframe htick
  have hstored : (k.processes.info p).scheduleEbp = (g (getPcbPtr p)).regs.ebp := by
    have hregs := congrArg Regs.ebp hpair
    unfold Suspension.stored at hregs
    simp only [htick, if_true] at hregs
    rw [pair_info hp] at hregs
    exact hregs
  have he := entered_interrupt h (tick_frame h hs).1
  have hcpu : k'.cpu = (g (getPcbPtr p)).context := by
    refine (congrArg Processes.cpu hview).trans (switchTo_resumes (fun hx => hne (congrArg getPcbPtr hx)) ?_ ?_)
    · rw [show (k.preempted e).info = k.processes.info from he.info, hstored,
        show (k.preempted e).frames _ = k.frames _ from he.there _ (by rw [hebp]; exact hne)]
      exact hframe
    · rw [show (k.preempted e).info = k.processes.info from he.info, hstored]
      exact hebp
  have hgood : k'.cpu.mode ≠ .wild := by
    rw [hcpu]
    rcases h.contexts.resumable p _ htop.stacked (by rw [hstored]; exact hebp)
      (by rw [hstored]; exact hframe) with hm | ⟨hm, -⟩
    all_goals
      rw [hm]
      decide
  exact ⟨hcpu, current_eq (hafter.resolve_left hgood)⟩

theorem tick_same (h : At k.processes S c) (hs : step img fs k (.tick e) = some k')
    (hnext : k.findNextActivePcb k.current = some k.current) : k'.cpu = k.cpu := by
  obtain ⟨q, htop, hfound, -, hview, -⟩ := tick_next h hs
  rw [current_eq h, hfound, Option.some.injEq] at hnext
  obtain rfl := (getPcbPtr_inj (h.table.slot_lt htop.stacked) h.lt).mp hnext
  obtain ⟨hent, hframe⟩ := tick_frame h hs
  exact (congrArg Processes.cpu hview).trans (switchTo_same hframe hent.ebp.1)

theorem started_suspended (h : Started img fs k) : Suspended Kernel.current Kernel.schedulable Kernel.holds ⟨k, g⟩ := by
  have hat := started_at h
  rintro a ⟨p, hp, hpa, -, ha⟩ hne
  rw [← Pcb.info_isActive, ← k.processes_info hp] at ha
  have htop := hat.table.isTop_of_active hp ha
  rw [hpa, firstStacks_top.mp htop] at hne
  exact absurd (current_eq hat).symm hne

theorem started_parented (h : Started img fs k) : k.processes.Parented 0 := by
  have hat := started_at h
  refine ⟨(hat.table.slot 0 0 (by decide)).esp0, fun r hr y hy hpar => ?_⟩
  obtain ⟨k₀, e, eip, hb, -, -, -, -, hview⟩ := started_start h
  rw [hview, Processes.start_info] at hpar
  split at hpar
  · exact absurd hpar.symm (getPcbPtr_ne_zero hy)
  · have hzero : (k₀.processes.info r).parent = 0 := by
      rw [k₀.processes_info hr]
      exact (hb.pcb r hr).2.2.2.2
    exact absurd (hpar.symm.trans hzero) (getPcbPtr_ne_zero hy)

/-- **Every event** leaves the contexts of the waiting processes alone and captures the one of the process it stops. -/
theorem suspended_step {s s' : Ghosted Kernel (ℕ → Suspension)} {ev : Event} (boot : img.Bootable)
    (h : At s.state.processes S c) (hP : s.state.processes.Parented c)
    (hg : Suspended Kernel.current Kernel.schedulable Kernel.holds s)
    (hs : ghostStep (step img (Image.WellFormed.pointers img))
      (recordLoss (step img (Image.WellFormed.pointers img)) Kernel.current Kernel.suspension) s ev = some s') :
    Suspended Kernel.current Kernel.schedulable Kernel.holds s' := by
  have hstep := (ghostStep_some hs).1
  obtain ⟨S', c', hmove, -⟩ := step_follows boot h hstep
  refine hg.keep hs ?_ ?_
  · rintro a hne hne' ⟨p, hp, hpa, hu, ha⟩
    rw [hpa] at hne hne' ⊢
    have hpc : p ≠ c := by
      rintro rfl
      exact hne (current_eq h).symm
    rw [← Pcb.info_isActive, ← s'.state.processes_info hp] at ha
    obtain ⟨ha', hpair⟩ := hmove.bystander h hP hpc hne' ha
    refine ⟨schedulable_top h (h.table.isTop_of_active hp ha'), fun x hx => ?_⟩
    refine ⟨?_, fun ht => ?_⟩
    · rw [pair_info hp, hpair, ← pair_info hp]
      exact hx.1
    · obtain ⟨hframe, hebp⟩ := hx.2 ht
      refine ⟨?_, hebp⟩
      rw [hmove.frames boot h (by rw [hebp]; exact ptr_ne hp h.lt hpc) hstep]
      exact hframe
  · rintro hne ⟨p, hp, hpa, hu, ha⟩
    rw [current_eq h] at hne hpa ⊢
    obtain rfl := (getPcbPtr_inj hp h.lt).mp hpa.symm
    rw [← Pcb.info_isActive, ← s'.state.processes_info hp] at ha
    exact hmove.loser h hstep hne.symm hu ha

end Runs

/-- **The pair of a waiting process** is the one captured when it lost the processor, and a tick resumes it there,
exactly when it lost the processor to a tick, in every state a run reaches. -/
theorem contexts_saved (img : Image) (boot : img.Bootable) {k₀ : Kernel} {g₀ : ℕ → Suspension}
    {s : Ghosted Kernel (ℕ → Suspension)}
    (h0 : Started img (Image.WellFormed.pointers img) k₀)
    (h : Reaches (ghostStep (step img (Image.WellFormed.pointers img))
      (recordLoss (step img (Image.WellFormed.pointers img)) Kernel.current Kernel.suspension)) anyStep ⟨k₀, g₀⟩ s) :
    ContextsSaved img (Image.WellFormed.pointers img) s.state s.ghost := by
  have hinv : Suspended Kernel.current Kernel.schedulable Kernel.holds s ∧
      (s.state.cpu.mode = .wild ∨ ∃ S c, At s.state.processes S c ∧ s.state.processes.Parented c) := by
    refine h.invariant (P := fun s => Suspended Kernel.current Kernel.schedulable Kernel.holds s ∧
      (s.state.cpu.mode = .wild ∨ ∃ S c, At s.state.processes S c ∧ s.state.processes.Parented c))
      ⟨started_suspended h0, Or.inr ⟨_, _, started_at h0, started_parented h0⟩⟩ ?_
    rintro s ev u ⟨hg, hw | ⟨S, c, hat, hP⟩⟩ - hs
    · have hstep := (ghostStep_some hs).1
      rw [step_wild hw] at hstep
      cases hstep
    · refine ⟨suspended_step boot hat hP hg hs, ?_⟩
      obtain ⟨S', c', hmove, hafter⟩ := step_follows boot hat (ghostStep_some hs).1
      exact hafter.imp_right fun hat' => ⟨S', c', hat', hmove.parented hat hP hat'⟩
  obtain ⟨hg, hat⟩ := hinv
  have htick : ∀ {e k'}, step img (Image.WellFormed.pointers img) s.state (.tick e) = some k' → ∃ S c,
    At s.state.processes S c := by
    intro e k' hs
    rcases hat with hw | ⟨S, c, hat, -⟩
    · rw [step_wild hw] at hs
      cases hs
    · exact ⟨S, c, hat⟩
  refine ⟨fun p hp hu ha hne => ?_, fun e k' p hp hs hnext hne ht => ?_, fun e k' hs hnext => ?_⟩
  · rw [(hg (getPcbPtr p) ⟨p, hp, rfl, hu, ha⟩ hne).1]
    exact stored_iff _
  · obtain ⟨S, c, hat⟩ := htick hs
    exact tick_resumes hat hg hp hs hnext hne ht
  · obtain ⟨S, c, hat⟩ := htick hs
    exact tick_same hat hs hnext

/-- Three terminals: a tick took the processor from the shell of the second one, the opening of the third from that
of the first. -/
theorem contexts_saved_three : ∃ s : Ghosted Kernel (ℕ → Suspension),
    Reaches (ghostStep (step Image.small (Image.WellFormed.pointers Image.small))
      (recordLoss (step Image.small (Image.WellFormed.pointers Image.small)) Kernel.current Kernel.suspension)) anyStep
      ⟨firstShell, fun _ => firstShell.suspension (.output 0)⟩ s ∧
    (∀ p ∈ [1, 2], s.state.Runs p ∧ getPcbPtr p ≠ s.state.current) ∧
    ContextsSaved Image.small (Image.WellFormed.pointers Image.small) s.state s.ghost := by
  obtain ⟨k, hrun, h, -⟩ := three_terminals
  obtain ⟨g, hghosted⟩ := @Reaches.ghosted _ _ _ _
    (recordLoss (step Image.small (Image.WellFormed.pointers Image.small)) Kernel.current Kernel.suspension) _ _ _
    (hrun.mono fun _ _ _ => trivial) fun _ => firstShell.suspension (.output 0)
  refine ⟨⟨k, g⟩, hghosted, fun p hp => ?_, contexts_saved Image.small Image.small_bootable firstShell_started hghosted⟩
  rw [current_eq h.here]
  have hcases : p = 1 ∨ p = 2 := by simpa using hp
  rcases hcases with rfl | rfl
  · exact ⟨(h.here.runs_iff (by decide)).mpr (by decide), by decide⟩
  · exact ⟨(h.here.runs_iff (by decide)).mpr (by decide), by decide⟩

/-- Not in every run: the first shell loses the processor to the keystroke that opens terminal 2, and its PCB still
holds the pair of its start. -/
theorem context_not_saved :
    ¬ ∀ (img : Image), img.Bootable → ∀ k₀ g₀ (s : Ghosted Kernel (ℕ → Suspension)),
      Started img (Image.WellFormed.pointers img) k₀ →
      Reaches (ghostStep (step img (Image.WellFormed.pointers img))
        (recordLoss (step img (Image.WellFormed.pointers img)) Kernel.current Kernel.suspension)) anyStep ⟨k₀, g₀⟩ s →
      ∀ p < maxProcesses, s.state.inUse p → (s.state.slot p).isActive ≠ 0 → getPcbPtr p ≠ s.state.current →
        s.state.pair (getPcbPtr p) = (s.ghost (getPcbPtr p)).regs := by
  intro hall
  obtain ⟨k₁, k₂, h⟩ := firstShell_stage.opens_second Image.small_bootable firstShell_waits.2
  obtain ⟨g₁, hrun⟩ := @Reaches.ghosted _ _ _ _
    (recordLoss (step Image.small (Image.WellFormed.pointers Image.small)) Kernel.current Kernel.suspension) _ _ _
    (@Reaches.single _ _ _ anyStep _ _ _ trivial h.held) fun _ => firstShell.suspension (.output 0)
  have hlast := ghostStep_of h.opened
    (recordLoss (step Image.small (Image.WellFormed.pointers Image.small)) Kernel.current Kernel.suspension) g₁
  have hcur₁ : k₁.current = getPcbPtr 0 := current_eq h.first.here
  have hcur₂ : k₂.current = getPcbPtr 1 := current_eq h.second.here
  obtain ⟨hused, hactive⟩ := @top_live k₂ _ _ 0 h.second.here ⟨0, rfl⟩
  have hpair :=
    hall Image.small Image.small_bootable firstShell _ _ firstShell_started (hrun.tail trivial hlast) 0 (by decide)
    hused hactive (by rw [hcur₂]; decide)
  simp only at hpair
  rw [← hcur₁, recordLoss_self h.opened (by rw [hcur₁, hcur₂]; decide), hcur₁, pair_info (by decide)] at hpair
  have hebp : (k₂.processes.info 0).scheduleEbp = (k₁.entry 64).regs.ebp := congrArg Regs.ebp hpair
  -- The first shell is still entered where it was.
  have hentry : k₁.entry 64 = firstShell.entry 64 := by
    unfold Kernel.entry
    rw [h.entryEsp]
  rw [h.ebp, hentry] at hebp
  exact absurd hebp (by decide +kernel)

end Kernel391
