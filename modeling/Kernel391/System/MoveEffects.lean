import Kernel391.System.StackRuns

/-! What a move does to the process table, slot by slot: which slot it takes, what the PCBs
of the others keep, and whom a new process is told is its parent. -/
namespace Kernel391
open Kernel391.Foundations
set_option autoImplicit false

/-- Two PCBs that differ in the flags and the saved context at most. -/
structure Info.Kept (i j : Info) : Prop where
  processId : j.processId = i.processId
  parent : j.parent = i.parent
  terminalNum : j.terminalNum = i.terminalNum
  fakePageAddr : j.fakePageAddr = i.fakePageAddr
  esp0 : j.esp0 = i.esp0
  haltEbp : j.haltEbp = i.haltEbp

section Kept
variable {i j l : Info} {P : Processes} {c o p q r : ℕ}

theorem Info.Kept.refl (i : Info) : i.Kept i := ⟨rfl, rfl, rfl, rfl, rfl, rfl⟩

theorem Info.Kept.trans (h₁ : i.Kept j) (h₂ : j.Kept l) : i.Kept l :=
  ⟨h₂.processId.trans h₁.processId, h₂.parent.trans h₁.parent, h₂.terminalNum.trans h₁.terminalNum,
    h₂.fakePageAddr.trans h₁.fakePageAddr, h₂.esp0.trans h₁.esp0, h₂.haltEbp.trans h₁.haltEbp⟩

theorem setInfo_kept {f : Info → Info} (hf : ∀ i : Info, i.Kept (f i)) (p r : ℕ) :
    (P.info r).Kept ((P.setInfo p f).info r) := by
  by_cases hrp : r = p
  · rw [hrp, Processes.setInfo_self]
    exact hf _
  · rw [Processes.setInfo_ne _ hrp]
    exact Info.Kept.refl _

theorem setActive_kept (a : ℕ) (i : Info) : i.Kept (i.setActive a) := ⟨rfl, rfl, rfl, rfl, rfl, rfl⟩
theorem setOnscreen_kept (o : ℕ) (i : Info) : i.Kept (i.setOnscreen o) := ⟨rfl, rfl, rfl, rfl, rfl, rfl⟩
theorem saveRegs_kept (r : Regs) (i : Info) : i.Kept (i.saveRegs r) := ⟨rfl, rfl, rfl, rfl, rfl, rfl⟩

theorem display_kept (r : ℕ) : (P.info r).Kept ((P.display o q).info r) :=
  (setInfo_kept (setOnscreen_kept 0) o r).trans (setInfo_kept (setOnscreen_kept 1) q r)

theorem exitTo_kept (r : ℕ) : (P.info r).Kept ((P.exitTo c q).info r) :=
  (((setInfo_kept (setActive_kept 0) c r).trans (setInfo_kept (setActive_kept 1) q r)).trans
    (setInfo_kept (setOnscreen_kept _) q r)).trans (setInfo_kept (setOnscreen_kept 0) c r)

theorem exitTo_info (hcq : c ≠ q) : (P.exitTo c q).info r =
    if r = c then ((P.info c).setActive 0).setOnscreen 0
    else if r = q then ((P.info q).setActive 1).setOnscreen (P.info c).isOnscreen
    else P.info r := P.handBack_info hcq

theorem exitTo_self_info : (P.exitTo c c).info r = if r = c then ((P.info c).setActive 1).setOnscreen 0
    else P.info r := by
  unfold Processes.exitTo Processes.handBack
  simp only [Processes.release, Processes.setEsp0]
  by_cases hrc : r = c
  · subst hrc
    rw [if_pos rfl, Processes.setInfo_self, Processes.setInfo_self, Processes.setInfo_self, Processes.setInfo_self]
    rfl
  · rw [if_neg hrc, Processes.setInfo_ne _ hrc, Processes.setInfo_ne _ hrc, Processes.setInfo_ne _ hrc,
      Processes.setInfo_ne _ hrc]

theorem exitTo_ne (hrc : r ≠ c) (hrq : r ≠ q) : (P.exitTo c q).info r = P.info r := by
  by_cases hcq : c = q
  · rw [← hcq, exitTo_self_info, if_neg hrc]
  · rw [exitTo_info hcq, if_neg hrc, if_neg hrq]

theorem exitToSpin_kept (r : ℕ) : (P.info r).Kept ((P.exitToSpin c o q).info r) :=
  (setInfo_kept (setActive_kept 0) c r).trans (display_kept r)

theorem doSchedule_info (P : Processes) (a ebp eax : ℕ) : (P.doSchedule a ebp eax).info = P.info := by
  unfold Processes.doSchedule
  split
  · split <;> rfl
  · rfl
  · rfl

theorem doSchedule_ids (P : Processes) (a ebp eax : ℕ) : (P.doSchedule a ebp eax).ids = P.ids := by
  unfold Processes.doSchedule
  split
  · split <;> rfl
  · rfl
  · rfl

theorem haltProcess_info (P : Processes) (status ebp : ℕ) : (P.haltProcess status ebp).info = P.info := by
  unfold Processes.haltProcess
  split <;> rfl

theorem haltProcess_ids (P : Processes) (status ebp : ℕ) : (P.haltProcess status ebp).ids = P.ids := by
  unfold Processes.haltProcess
  split <;> rfl

theorem switchTo_info (P : Processes) (c q : ℕ) (e : Entry) :
    (P.switchTo c q e).info = (P.setInfo c (Info.saveRegs e.regs)).info := doSchedule_info _ _ _ _

theorem switchTo_ids (P : Processes) (c q : ℕ) (e : Entry) : (P.switchTo c q e).ids = P.ids := doSchedule_ids _ _ _ _

theorem push_kept {e : Entry} {caller : Cpu} {eip : ℕ} (hcp : p ≠ c) (hrp : r ≠ p) :
    (P.info r).Kept ((P.push c p e caller eip).info r) := by
  rw [P.push_info hcp, if_neg hrp]
  split
  · next hrc =>
    rw [hrc]
    exact (setOnscreen_kept 0 _).trans (setActive_kept 0 _)
  · exact Info.Kept.refl _

theorem create_kept {t : ℕ} {e : Entry} {eip : ℕ} (hrp : r ≠ p) :
    (P.info r).Kept ((P.create c o p t e eip).info r) := by
  rw [P.create_info, if_neg hrp]
  split
  · exact setOnscreen_kept 0 _
  · exact Info.Kept.refl _

theorem restart_kept {e : Entry} {caller : Cpu} {eip : ℕ} (hr0 : r ≠ 0) :
    (P.info r).Kept (((P.release c).start e caller eip).info r) := by
  rw [Processes.start_info, if_neg hr0]
  exact Info.Kept.refl _

theorem exitTo_ids (hid : (P.info c).processId = c) : (P.exitTo c q).ids = Function.update P.ids c 0 := by
  have hid' : (((((P.setInfo c (Info.setActive 0)).setInfo q (Info.setActive 1)).setInfo q
      (Info.setOnscreen (((P.setInfo c (Info.setActive 0)).setInfo q (Info.setActive 1)).info c).isOnscreen)).setInfo c
      (Info.setOnscreen 0)).info c).processId = c :=
    (exitTo_kept (P := P) (c := c) (q := q) c).processId.trans hid
  unfold Processes.exitTo Processes.handBack
  simp only [Processes.setEsp0, Processes.release, hid']
  rfl

end Kept

/-! ## Moves -/

section Moves
variable {img : Image} {fs : Filesystem} {k k' : Kernel} {S S' : Stacks} {c c' : ℕ} {ev : Event}

/-- **The PCB of a process that goes on** keeps all but its flags and its saved context. -/
theorem Move.kept (m : Move img fs k S c k' ev S' c') (hT : Table k.processes S) {r : ℕ} (hr : k.processes.ids r ≠ 0)
    (hgo : r = c → Going img fs k ev) : (k.processes.info r).Kept (k'.processes.info r) := by
  have hinfo : ∀ {P₀ : Processes}, Entered k.processes c k.cpu P₀ → P₀.info = k.processes.info := fun he => he.info
  have hleak : ∀ {P₀ : Processes} {o : Option ℕ}, Entered k.processes c k.cpu P₀ →
      (P₀.leaked o).info = k.processes.info := fun he => (leaked_info _ _).trans he.info
  cases m with
  | stay _ _ info _ =>
    rw [info]
    exact Info.Kept.refl _
  | tick entered top next gone view =>
    rw [view, switchTo_info, ← hinfo entered]
    exact setInfo_kept (saveRegs_kept _) c r
  | display entered request stack ret resume view =>
    rw [view, ← hinfo entered]
    exact display_kept r
  | create entered entry request stack slot gone view =>
    rw [view, ← hinfo entered]
    exact create_kept fun hx => hr (hx ▸ slot.free)
  | push entered entry stack slot gone view =>
    have hpc : c' ≠ c := by
      rintro rfl
      exact hT.firstFree slot ⟨_, by rw [stack]; exact List.mem_cons_self ..⟩
    rw [view, ← hinfo entered]
    exact push_kept hpc fun hx => hr (hx ▸ slot.free)
  | pop entered ending before leak stack frame gone view =>
    rw [view, ← hleak entered]
    exact exitTo_kept r
  | restart entered ending before leak stack gone view =>
    have hfirst := hT.first
    rw [stack, List.getLast?_singleton, Option.some.injEq] at hfirst
    have hr0 : r ≠ 0 := fun hx => hgo (hx.trans hfirst.symm) _ _ _ ending
    rw [view, ← hleak entered]
    exact restart_kept hr0
  | close entered ending before leak stack other parent elsewhere first spin gone view =>
    rw [view, ← hleak entered]
    exact exitToSpin_kept r
  | lost entered ending before leak stack other parent same gone view wild =>
    rw [view, haltProcess_info, ← hleak entered]
    exact exitTo_kept r

theorem leaked_ids (P : Processes) (o : Option ℕ) {r : ℕ} (h : (P.leaked o).ids r ≠ 0) : P.ids r ≠ 0 ∨ r ∈ o := by
  cases o with
  | none => exact Or.inl h
  | some p =>
    by_cases hrp : r = p
    · exact Or.inr (by rw [hrp]; rfl)
    · exact Or.inl (by rwa [show (P.leaked (some p)).ids = Function.update P.ids p 1 from rfl,
        Function.update_of_ne hrp] at h)

theorem used_of_update {f : ℕ → ℕ} {p r v : ℕ} (h : Function.update f p v r ≠ 0) : f r ≠ 0 ∨ r = p := by
  by_cases hrp : r = p
  · exact Or.inr hrp
  · rw [Function.update_of_ne hrp] at h
    exact Or.inl h

theorem used_self (f : ℕ → ℕ) (p : ℕ) : Function.update f p 1 p ≠ 0 := by
  rw [Function.update_self]
  exact Nat.one_ne_zero

/-- **A slot that comes into use** is the lowest free one; it is the slot in use only when a terminal is
created from the last loop of `halt`. -/
theorem Move.taken (m : Move img fs k S c k' ev S' c') (h : At k.processes S c) {r : ℕ} (hr : k.processes.ids r = 0)
    (hr' : k'.processes.ids r ≠ 0) : k.processes.FirstFree r ∧ (r ≠ c ∨ r = c' ∧ ∃ e scanCode t, ev = .key e scanCode ∧
      k.requests scanCode = some t ∧ S t = []) := by
  have hids : ∀ {P₀ : Processes}, Entered k.processes c k.cpu P₀ → P₀.ids r = 0 := fun he => by rw [he.ids, hr]
  have hleak : ∀ {P₀ : Processes} {o : Option ℕ} {t : ℕ} {l : List ℕ}, Entered k.processes c k.cpu P₀ → S t = c :: l →
      (∀ p ∈ o, k.processes.FirstFree p) → (P₀.leaked o).ids r ≠ 0 → k.processes.FirstFree r ∧ r ≠ c := by
    intro P₀ o t l he hS hfree hne
    have hro := (leaked_ids P₀ o hne).resolve_left fun hx => hx (hids he)
    refine ⟨hfree r hro, ?_⟩
    rintro rfl
    exact h.table.firstFree (hfree r hro) ⟨t, by rw [hS]; exact List.mem_cons_self ..⟩
  have hexit : ∀ {P₀ : Processes} {o : Option ℕ} {t q : ℕ} {l : List ℕ}, Entered k.processes c k.cpu P₀ → S t = c :: l →
      (∀ p ∈ o, k.processes.FirstFree p) → ((P₀.leaked o).exitTo c q).ids r ≠ 0 → k.processes.FirstFree r ∧ r ≠ c := by
    intro P₀ o t q l he hS hfree hne
    have hid : ((P₀.leaked o).info c).processId = c := by
      rw [leaked_info, he.info]
      exact h.table.processId ⟨t, by rw [hS]; exact List.mem_cons_self ..⟩
    rw [exitTo_ids hid] at hne
    rcases used_of_update hne with hx | rfl
    · exact hleak he hS hfree hx
    · rw [Function.update_self] at hne
      exact absurd rfl hne
  cases m with
  | stay _ ids info _ =>
    rw [ids] at hr'
    exact absurd hr hr'
  | tick entered top next gone view =>
    rw [view, switchTo_ids] at hr'
    exact absurd (hids entered) hr'
  | display entered request stack ret resume view =>
    rw [view] at hr'
    exact absurd (hids entered) hr'
  | create entered entry request stack slot gone view =>
    rw [view] at hr'
    obtain rfl := (used_of_update hr').resolve_left fun hx => hx (hids entered)
    exact ⟨slot, Or.inr ⟨rfl, _, _, _, rfl, request, stack⟩⟩
  | push entered entry stack slot gone view =>
    rw [view] at hr'
    obtain rfl := (used_of_update hr').resolve_left fun hx => hx (hids entered)
    refine ⟨slot, Or.inl ?_⟩
    rintro rfl
    exact h.table.firstFree slot ⟨_, by rw [stack]; exact List.mem_cons_self ..⟩
  | pop entered ending before leak stack frame gone view =>
    rw [view] at hr'
    obtain ⟨h₁, h₂⟩ := hexit entered stack leak hr'
    exact ⟨h₁, Or.inl h₂⟩
  | restart entered ending before leak stack gone view =>
    have hfirst := h.table.first
    rw [stack, List.getLast?_singleton, Option.some.injEq] at hfirst
    have hr0 : r ≠ c := by
      rintro rfl
      exact h.table.used ⟨0, by rw [stack]; exact List.mem_cons_self ..⟩ hr
    rw [view] at hr'
    rcases used_of_update hr' with hx | hx
    · rcases used_of_update hx with hx | hx
      · obtain ⟨h₁, h₂⟩ := hleak entered stack leak hx
        exact ⟨h₁, Or.inl h₂⟩
      · exact absurd hx hr0
    · exact absurd (hx.trans hfirst.symm) hr0
  | close entered ending before leak stack other parent elsewhere first spin gone view =>
    rw [view] at hr'
    rcases used_of_update hr' with hx | rfl
    · obtain ⟨h₁, h₂⟩ := hleak entered stack leak hx
      exact ⟨h₁, Or.inl h₂⟩
    · exact absurd (Function.update_self _ _ _) hr'
  | lost entered ending before leak stack other parent same gone view wild =>
    rw [view, haltProcess_ids] at hr'
    obtain ⟨h₁, h₂⟩ := hexit entered stack leak hr'
    exact ⟨h₁, Or.inl h₂⟩

/-- **Parents change only in the slot of a new process**, whose parent is the process it was started from. -/
theorem Move.parent (m : Move img fs k S c k' ev S' c') (h : At k.processes S c) (r : ℕ) :
    (k'.processes.info r).parent = (k.processes.info r).parent ∨
      r = c' ∧ k.processes.FirstFree r ∧ k'.processes.ids r ≠ 0 ∧ (k'.processes.info r).parent = getPcbPtr c ∨
        (k'.processes.info r).parent = 0 := by
  have hleak : ∀ {P₀ : Processes} {o : Option ℕ}, Entered k.processes c k.cpu P₀ →
      (P₀.leaked o).info = k.processes.info := fun he => (leaked_info _ _).trans he.info
  cases m with
  | stay _ _ info _ => exact Or.inl (by rw [info])
  | tick entered top next gone view =>
    rw [view, switchTo_info, ← entered.info]
    exact Or.inl (setInfo_kept (saveRegs_kept _) c r).parent
  | display entered request stack ret resume view =>
    rw [view, ← entered.info]
    exact Or.inl (display_kept r).parent
  | create entered entry request stack slot gone view =>
    by_cases hrp : r = c'
    · refine Or.inr (Or.inl ⟨hrp, hrp ▸ slot, ?_, ?_⟩)
      · rw [view, hrp]
        exact used_self _ _
      · rw [view, Processes.create_info, if_pos hrp]
        rfl
    · rw [view, ← entered.info]
      exact Or.inl (create_kept hrp).parent
  | push entered entry stack slot gone view =>
    have hpc : c' ≠ c := by
      rintro rfl
      exact h.table.firstFree slot ⟨_, by rw [stack]; exact List.mem_cons_self ..⟩
    by_cases hrp : r = c'
    · refine Or.inr (Or.inl ⟨hrp, hrp ▸ slot, ?_, ?_⟩)
      · rw [view, hrp]
        exact used_self _ _
      · rw [view, Processes.push_info _ hpc, if_pos hrp]
        rfl
    · rw [view, ← entered.info]
      exact Or.inl (push_kept hpc hrp).parent
  | pop entered ending before leak stack frame gone view =>
    rw [view, ← hleak entered]
    exact Or.inl (exitTo_kept r).parent
  | restart entered ending before leak stack gone view =>
    by_cases hr0 : r = 0
    · refine Or.inr (Or.inr ?_)
      rw [view, Processes.start_info, if_pos hr0]
      rfl
    · rw [view, ← hleak entered]
      exact Or.inl (restart_kept hr0).parent
  | close entered ending before leak stack other parent elsewhere first spin gone view =>
    rw [view, ← hleak entered]
    exact Or.inl (exitToSpin_kept r).parent
  | lost entered ending before leak stack other parent same gone view wild =>
    rw [view, haltProcess_info, ← hleak entered]
    exact Or.inl (exitTo_kept r).parent

end Moves
end Kernel391
