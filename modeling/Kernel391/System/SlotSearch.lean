import Kernel391.Foundations.Rounds
import Kernel391.System.MoveEffects

/-! The scheduler's choice. The search walks the slots by address and looks a process up
through the number in its PCB, so it is the next slot in cyclic order only as long as
every PCB with a flag set, stale ones among them, carries its own number. -/
namespace Kernel391
open Kernel391.Foundations
set_option autoImplicit false

/-! ## What the PCBs say in every state -/

/-- The active tag is 0 or 1, and a PCB that was ever tagged or belongs to a later terminal carries its number. -/
structure Marked (P : Processes) : Prop where
  flag : ∀ p < maxProcesses, (P.info p).isActive = 0 ∨ (P.info p).isActive = 1
  named : ∀ p < maxProcesses, (P.info p).isActive ≠ 0 ∨ (P.info p).terminalNum ≠ 0 → (P.info p).processId = p

/-- Number and terminal stay, and the tag does not come on. -/
structure Info.Calms (i j : Info) : Prop where
  processId : j.processId = i.processId
  terminalNum : j.terminalNum = i.terminalNum
  isActive : j.isActive = i.isActive ∨ j.isActive = 0

section Calms
variable {i j l : Info} {P P' : Processes} {c o p q r : ℕ}

theorem Info.Calms.refl (i : Info) : i.Calms i := ⟨rfl, rfl, Or.inl rfl⟩

theorem Info.Calms.trans (h₁ : i.Calms j) (h₂ : j.Calms l) : i.Calms l := by
  refine ⟨h₂.processId.trans h₁.processId, h₂.terminalNum.trans h₁.terminalNum, ?_⟩
  rcases h₂.isActive with h | h
  · rw [h]
    exact h₁.isActive
  · exact Or.inr h

theorem Info.Calms.of_eq (h : j = i) : i.Calms j := by
  subst h
  exact Info.Calms.refl j

theorem setInfo_calms {f : Info → Info} (hf : ∀ i : Info, i.Calms (f i)) (p r : ℕ) :
    (P.info r).Calms ((P.setInfo p f).info r) := by
  by_cases hrp : r = p
  · rw [hrp, Processes.setInfo_self]
    exact hf _
  · rw [Processes.setInfo_ne _ hrp]
    exact Info.Calms.refl _

theorem idle_calms (i : Info) : i.Calms (i.setActive 0) := ⟨rfl, rfl, Or.inr rfl⟩
theorem setOnscreen_calms (o : ℕ) (i : Info) : i.Calms (i.setOnscreen o) := ⟨rfl, rfl, Or.inl rfl⟩
theorem saveRegs_calms (r : Regs) (i : Info) : i.Calms (i.saveRegs r) := ⟨rfl, rfl, Or.inl rfl⟩

theorem display_calms (r : ℕ) : (P.info r).Calms ((P.display o q).info r) :=
  (setInfo_calms (setOnscreen_calms 0) o r).trans (setInfo_calms (setOnscreen_calms 1) q r)

theorem exitTo_calms (hr : r ≠ q) : (P.info r).Calms ((P.exitTo c q).info r) :=
  (((setInfo_calms idle_calms c r).trans (Info.Calms.of_eq (Processes.setInfo_ne _ hr _))).trans
    (setInfo_calms (setOnscreen_calms _) q r)).trans (setInfo_calms (setOnscreen_calms 0) c r)

theorem exitTo_active : ((P.exitTo c q).info q).isActive = 1 := by
  refine (Processes.setInfo_field _ Info.isActive c q (Info.setOnscreen 0) fun _ => rfl).trans ?_
  refine (Processes.setInfo_field _ Info.isActive q q (Info.setOnscreen _) fun _ => rfl).trans ?_
  rw [Processes.setInfo_self]
  rfl

theorem exitToSpin_calms (r : ℕ) : (P.info r).Calms ((P.exitToSpin c o q).info r) :=
  (setInfo_calms idle_calms c r).trans (display_calms r)

theorem Marked.of (h : Marked P) (hr : ∀ r < maxProcesses, (P.info r).Calms (P'.info r) ∨
    (P'.info r).processId = r ∧ ((P'.info r).isActive = 0 ∨ (P'.info r).isActive = 1)) : Marked P' := by
  refine ⟨fun r hlt => ?_, fun r hlt hset => ?_⟩
  · rcases hr r hlt with hcalm | ⟨-, hflag⟩
    · rcases hcalm.isActive with heq | hzero
      · rw [heq]
        exact h.flag r hlt
      · exact Or.inl hzero
    · exact hflag
  · rcases hr r hlt with hcalm | ⟨hnamed, -⟩
    · rw [hcalm.processId]
      apply h.named r hlt
      rw [hcalm.terminalNum] at hset
      rcases hcalm.isActive with heq | hzero
      · rwa [heq] at hset
      · exact Or.inr (hset.resolve_left (not_not_intro hzero))
    · exact hnamed

theorem Marked.congr (h : Marked P) (hinfo : P'.info = P.info) : Marked P' :=
  h.of fun r _ => Or.inl (Info.Calms.of_eq (by rw [hinfo]))

end Calms

section Moves
variable {img : Image} {fs : Filesystem} {k k' : Kernel} {S S' : Stacks} {c c' : ℕ} {ev : Event}

theorem exitTo_marked {P : Processes} {q : ℕ} (hM : Marked P) (hq : (P.info q).processId = q) :
    Marked (P.exitTo c q) := by
  refine hM.of fun r _ => ?_
  by_cases hrq : r = q
  · subst hrq
    exact Or.inr ⟨(exitTo_kept r).processId.trans hq, Or.inr exitTo_active⟩
  · exact Or.inl (exitTo_calms hrq)

/-- **Every move keeps the marks**, also one that loses control. -/
theorem Move.marked (m : Move img fs k S c k' ev S' c') (h : At k.processes S c) (hM : Marked k.processes) :
    Marked k'.processes := by
  have hinfo : ∀ {P₀ : Processes}, Entered k.processes c k.cpu P₀ → P₀.info = k.processes.info := fun he => he.info
  have hleak : ∀ {P₀ : Processes} {o : Option ℕ}, Entered k.processes c k.cpu P₀ →
      (P₀.leaked o).info = k.processes.info := fun he => (leaked_info _ _).trans he.info
  cases m with
  | stay _ _ info _ => exact hM.congr info
  | tick entered top next gone view =>
    refine hM.of fun r _ => Or.inl ?_
    rw [view, switchTo_info, ← hinfo entered]
    exact setInfo_calms (saveRegs_calms _) c r
  | display entered request stack ret resume view =>
    refine hM.of fun r _ => Or.inl ?_
    rw [view, ← hinfo entered]
    exact display_calms r
  | create entered entry request stack slot gone view =>
    refine hM.of fun r _ => ?_
    rw [view, Processes.create_info, hinfo entered]
    split
    · next hr => exact Or.inr ⟨hr.symm, Or.inr rfl⟩
    · left
      split
      · exact setOnscreen_calms 0 _
      · exact Info.Calms.refl _
  | push entered entry stack slot gone view =>
    have hpc : c' ≠ c := by
      rintro rfl
      exact h.table.firstFree slot ⟨_, by rw [stack]; exact List.mem_cons_self ..⟩
    refine hM.of fun r _ => ?_
    rw [view, Processes.push_info _ hpc, hinfo entered]
    split
    · next hr => exact Or.inr ⟨hr.symm, hM.flag c h.lt⟩
    · left
      split
      · next hr =>
        rw [hr]
        exact (setOnscreen_calms 0 _).trans (idle_calms _)
      · exact Info.Calms.refl _
  | @pop _ _ t q l _ _ _ _ entered ending before leak stack frame gone view =>
    have hq : Stacked S c' := ⟨_, by rw [stack]; exact List.mem_cons_of_mem c (List.mem_cons_self ..)⟩
    refine (@exitTo_marked c _ c' (hM.congr (hleak entered)) ?_).congr (by rw [view]; rfl)
    rw [hleak entered]
    exact h.table.processId hq
  | restart entered ending before leak stack gone view =>
    refine hM.of fun r _ => ?_
    rw [view, Processes.start_info]
    split
    · next hr => exact Or.inr ⟨hr.symm, Or.inr rfl⟩
    · exact Or.inl (Info.Calms.of_eq (congrFun (hleak entered) r))
  | close entered ending before leak stack other parent elsewhere first spin gone view =>
    refine hM.of fun r _ => Or.inl ?_
    rw [view, ← hleak entered]
    exact exitToSpin_calms r
  | @lost _ _ _ t y _ _ entered ending before leak stack other parent same gone view wild =>
    -- the dead slot it returns to was once set up, for it belongs to a later terminal
    have hy : (k.processes.info y).processId = y := hM.named y parent.1 (Or.inr (by rw [same]; exact other))
    refine (@exitTo_marked c _ y (hM.congr (hleak entered)) ?_).congr (by rw [view, haltProcess_info])
    rw [hleak entered]
    exact hy

end Moves

theorem started_marked {img : Image} {fs : Filesystem} {k : Kernel} (h : Started img fs k) : Marked k.processes := by
  obtain ⟨k₀, e, eip, hb, -, -, -, -, hview⟩ := started_start h
  have hzero : Marked (k₀.enter e.regs.esp).processes := by
    have hpcb : ∀ p < maxProcesses, ((k₀.enter e.regs.esp).processes.info p).isActive = 0 ∧
        ((k₀.enter e.regs.esp).processes.info p).terminalNum = 0 := by
      intro p hp
      obtain ⟨-, hactive, -, hterm, -⟩ := hb.pcb p hp
      rw [Kernel.processes_info _ hp]
      exact ⟨hactive, hterm⟩
    refine ⟨fun p hp => Or.inl (hpcb p hp).1, fun p hp hset => ?_⟩
    rw [(hpcb p hp).1, (hpcb p hp).2] at hset
    exact absurd hset (by decide)
  refine hzero.of fun r _ => ?_
  rw [hview, Processes.start_info]
  split
  · next hr => exact Or.inr ⟨hr.symm, Or.inr rfl⟩
  · exact Or.inl (Info.Calms.refl _)

/-! ## The search -/

/-- A slot is in use and its process active. -/
def Kernel.Runs (k : Kernel) (p : ℕ) : Prop := k.inUse p ∧ (k.slot p).isActive ≠ 0

instance (k : Kernel) : DecidablePred k.Runs := fun _ => inferInstanceAs (Decidable (_ ∧ _))

section Search
variable {k : Kernel} {n p : ℕ}

theorem Marked.tests (h : Marked k.processes) (hp : p < maxProcesses) :
    k.processIds (k.pcb (getPcbPtr p)).processId ≠ 0 ∧ (k.pcb (getPcbPtr p)).isActive = 1 ↔ k.Runs p := by
  have hflag := h.flag p hp
  have hnamed := h.named p hp
  rw [k.processes_info hp] at hflag hnamed
  constructor
  · rintro ⟨hused, hactive⟩
    have hset : (k.slot p).isActive ≠ 0 := by
      rw [show (k.slot p).isActive = 1 from hactive]
      decide
    rw [show (k.pcb (getPcbPtr p)).processId = p from hnamed (Or.inl hset)] at hused
    exact ⟨hused, hset⟩
  · rintro ⟨hused, hset⟩
    rw [show (k.pcb (getPcbPtr p)).processId = p from hnamed (Or.inl hset)]
    exact ⟨hused, hflag.resolve_left hset⟩

theorem findNextActivePcbLoop_round (h : Marked k.processes) (hp : p < maxProcesses) :
    k.findNextActivePcbLoop n (getPcbPtr p) = (round maxProcesses k.Runs p n).head?.map getPcbPtr := by
  induction n generalizing p with
  | zero => rfl
  | succ n ih =>
    have hq : (p + 1) % maxProcesses < maxProcesses := Nat.mod_lt _ (by decide)
    rw [round_succ]
    simp only [Kernel.findNextActivePcbLoop, Kernel.next_slot hp, h.tests hq]
    split
    · rfl
    · exact ih hq

theorem findNextActivePcb_round (h : Marked k.processes) (hp : p < maxProcesses) :
    k.findNextActivePcb (getPcbPtr p) = (round maxProcesses k.Runs p maxProcesses).head?.map getPcbPtr :=
  findNextActivePcbLoop_round h hp

theorem findNextActivePcb_firstAfter (h : Marked k.processes) {c q : ℕ} (hc : c < maxProcesses)
    (hq : q < maxProcesses) :
    k.findNextActivePcb (getPcbPtr c) = some (getPcbPtr q) ↔ FirstAfter maxProcesses k.Runs c q := by
  rw [findNextActivePcb_round h hc, ← firstAfter_iff_head, Option.map_eq_some_iff]
  constructor
  · rintro ⟨q', hhead, hptr⟩
    obtain rfl := (getPcbPtr_inj (firstAfter_iff_head.mp hhead).lt hq).mp hptr
    exact hhead
  · intro hhead
    exact ⟨q, hhead, rfl⟩

end Search

theorem At.runs_iff {k : Kernel} {S : Stacks} {c p : ℕ} (h : At k.processes S c) (hp : p < maxProcesses) :
    k.Runs p ↔ IsTop S p := by
  have hinfo : (k.processes.info p).isActive = (k.slot p).isActive := by
    rw [k.processes_info hp]
    rfl
  constructor
  · rintro ⟨-, hactive⟩
    exact h.table.isTop_of_active hp (by rwa [hinfo])
  · intro htop
    have hactive := h.table.active p hp htop
    rw [hinfo] at hactive
    exact ⟨h.table.used htop.stacked, by rw [hactive]; decide⟩

end Kernel391
