import Kernel391.System.Isolation
import Kernel391.System.SharedScreen

/-! Who owns the display. The flags of the PCBs name one process on screen and at most one active process for each
terminal. Every path keeps this but two: the root process is put on screen when it is started again, whoever is
displayed, and a root shell whose parent's PCB names its own terminal gives its place to a process that is gone. -/
namespace Kernel391
open Kernel391.Foundations
set_option autoImplicit false

/-! ## The screen flag in every path -/

/-- Slot `p` is in use and on screen, and no other slot is on screen, in use or not. -/
structure Processes.Displays (P : Processes) (p : ℕ) : Prop where
  lt : p < maxProcesses
  used : P.ids p ≠ 0
  shown : (P.info p).isOnscreen ≠ 0
  off : ∀ q < maxProcesses, q ≠ p → (P.info q).isOnscreen = 0

theorem leaked_used {P : Processes} {p : ℕ} (h : P.ids p ≠ 0) (o : Option ℕ) : (P.leaked o).ids p ≠ 0 := by
  cases o with
  | none => exact h
  | some q =>
    show Function.update P.ids q 1 p ≠ 0
    by_cases hpq : p = q
    · rw [hpq, Function.update_self]
      exact Nat.one_ne_zero
    · rwa [Function.update_of_ne hpq]

namespace Processes.Displays
variable {P P' : Processes} {c p q t eip : ℕ} {e : Entry} {caller : Cpu}

theorem flags (h : P.Displays p) (hids : P'.ids = P.ids) (hon : ∀ q, (P'.info q).isOnscreen = (P.info q).isOnscreen) :
    P'.Displays p where
  lt := h.lt
  used := by
    rw [hids]
    exact h.used
  shown := by
    rw [hon]
    exact h.shown
  off q hq hqp := (hon q).trans (h.off q hq hqp)

theorem congr (h : P.Displays p) (hids : P'.ids = P.ids) (hinfo : P'.info = P.info) : P'.Displays p :=
  h.flags hids fun _ => by rw [hinfo]

theorem only (h : P.Displays p) (hq : q < maxProcesses) (hon : (P.info q).isOnscreen ≠ 0) : q = p := by
  by_contra hne
  exact hon (h.off q hq hne)

theorem onscreen (h : P.Displays p) : P.onscreen c = p := by
  unfold Processes.onscreen
  cases hf : P.findOnscreenTerminalPid with
  | none =>
    unfold Processes.findOnscreenTerminalPid at hf
    rw [List.find?_eq_none] at hf
    exact absurd (decide_eq_true ⟨h.used, h.shown⟩) (hf p (List.mem_range.mpr h.lt))
  | some q =>
    have hq := List.find?_some hf
    simp only [decide_eq_true_eq] at hq
    exact h.only (List.mem_range.mp (List.mem_of_find?_eq_some hf)) hq.2

theorem leaked (h : P.Displays p) (o : Option ℕ) : (P.leaked o).Displays p where
  lt := h.lt
  used := leaked_used h.used o
  shown := by
    rw [leaked_info]
    exact h.shown
  off q hq hqp := by
    rw [leaked_info]
    exact h.off q hq hqp

theorem push (h : P.Displays p) (hc : c < maxProcesses) (hqc : q ≠ c) (hq : P.FirstFree q) :
    ∃ p', (P.push c q e caller eip).Displays p' := by
  have hpq : p ≠ q := by
    rintro rfl
    exact h.used hq.free
  by_cases hpc : p = c
  · subst hpc
    refine ⟨q, hq.lt, used_self _ _, ?_, fun r hr hrq => ?_⟩
    · rw [P.push_info hqc, if_pos rfl]
      exact h.shown
    · rw [P.push_info hqc, if_neg hrq]
      split
      · rfl
      · next hrp => exact h.off r hr hrp
  · refine ⟨p, h.lt, ?_, ?_, fun r hr hrp => ?_⟩
    · show Function.update P.ids q 1 p ≠ 0
      rw [Function.update_of_ne hpq]
      exact h.used
    · rw [P.push_info hqc, if_neg hpq, if_neg hpc]
      exact h.shown
    · rw [P.push_info hqc]
      split
      · -- The child has its caller's flag.
        exact h.off c hc (Ne.symm hpc)
      · split
        · rfl
        · exact h.off r hr hrp

theorem create (h : P.Displays p) (hq : P.FirstFree q) : (P.create c p q t e eip).Displays q where
  lt := hq.lt
  used := used_self _ _
  shown := by
    rw [P.create_info, if_pos rfl]
    exact Nat.one_ne_zero
  off r hr hrq := by
    rw [P.create_info, if_neg hrq]
    split
    · rfl
    · next hne => exact h.off r hr fun hx => hne (Or.inr hx)

theorem display (h : P.Displays p) (hq : q < maxProcesses) (hu : P.ids q ≠ 0) : (P.display p q).Displays q where
  lt := hq
  used := hu
  shown := by
    rw [P.display_info, if_pos rfl]
    exact Nat.one_ne_zero
  off r hr hrq := by
    rw [P.display_info, if_neg hrq]
    split
    · rfl
    · next hrp => exact h.off r hr hrp

theorem exitTo_off (h : P.Displays p) (hlt : c < maxProcesses) (hcq : c ≠ q)
    (hid : (P.info c).processId = c) (hpc : p ≠ c)
    (hpq : p ≠ q) : (P.exitTo c q).Displays p where
  lt := h.lt
  used := by
    rw [exitTo_ids hid, Function.update_of_ne hpc]
    exact h.used
  shown := by
    rw [exitTo_info hcq, if_neg hpc, if_neg hpq]
    exact h.shown
  off r hr hrp := by
    rw [exitTo_info hcq]
    split
    · rfl
    · split
      · by_contra hon
        exact hpc (h.only hlt hon).symm
      · exact h.off r hr hrp

theorem exitTo (h : P.Displays p) (hlt : c < maxProcesses) (hcq : c ≠ q) (hq : q < maxProcesses)
    (hid : (P.info c).processId = c)
    (hused : P.ids q ≠ 0) (hne : p ≠ q) : ∃ p', (P.exitTo c q).Displays p' := by
  by_cases hpc : p = c
  · subst hpc
    refine ⟨q, hq, ?_, ?_, fun r hr hrq => ?_⟩
    · rw [exitTo_ids hid, Function.update_of_ne hcq.symm]
      exact hused
    · rw [exitTo_info hcq, if_neg hcq.symm, if_pos rfl]
      exact h.shown
    · rw [exitTo_info hcq, if_neg hrq]
      split
      · rfl
      · next hrp => exact h.off r hr hrp
  · exact ⟨p, h.exitTo_off hlt hcq hid hpc hne⟩

theorem exitTo_self (h : P.Displays p) (hpc : p ≠ c) (hid : (P.info c).processId = c) : (P.exitTo c c).Displays p where
  lt := h.lt
  used := by
    rw [exitTo_ids hid, Function.update_of_ne hpc]
    exact h.used
  shown := by
    rw [exitTo_self_info, if_neg hpc]
    exact h.shown
  off r hr hrp := by
    rw [exitTo_self_info]
    split
    · rfl
    · exact h.off r hr hrp

theorem exitToSpin (h : P.Displays p) (hcq : c ≠ q) (hq : q < maxProcesses) (hu : P.ids q ≠ 0) :
    (P.exitToSpin c p q).Displays q := by
  have hactive : (P.setInfo c (Info.setActive 0)).Displays p := h.flags rfl fun r =>
    Processes.setInfo_field P Info.isOnscreen c r (Info.setActive 0) fun _ => rfl
  have hshow := hactive.display hq hu
  refine ⟨hq, ?_, hshow.shown, hshow.off⟩
  show Function.update P.ids c 0 q ≠ 0
  rw [Function.update_of_ne hcq.symm]
  exact hu

theorem restart (h : P.Displays 0) : ((P.release 0).start e caller eip).Displays 0 where
  lt := h.lt
  used := used_self (P.release 0).ids 0
  shown := by
    rw [Processes.start_info, if_pos rfl]
    exact Nat.one_ne_zero
  off r hr hr0 := by
    rw [Processes.start_info, if_neg hr0]
    exact h.off r hr hr0

end Processes.Displays

/-! ## The owner of the display -/

/-- The display has an owner `p`: it alone is on screen, and in its terminal, as in any other, at most one process is
active. -/
structure Processes.Owned (P : Processes) (p : ℕ) : Prop where
  displays : P.Displays p
  active : (P.info p).isActive ≠ 0
  numbered : (P.info p).processId = p
  alone : ∀ q < maxProcesses, ∀ r < maxProcesses, (P.info q).isActive ≠ 0 → (P.info r).isActive ≠ 0 →
    (P.info q).terminalNum = (P.info r).terminalNum → q = r

section Owned
variable {P P' : Processes} {S : Stacks} {c p q t y : ℕ}

theorem Processes.Owned.flags (h : P.Owned p) (hids : P'.ids = P.ids)
    (hinfo : ∀ q, (P'.info q).isOnscreen = (P.info q).isOnscreen ∧
    (P'.info q).isActive = (P.info q).isActive ∧ (P'.info q).terminalNum = (P.info q).terminalNum ∧
    (P'.info q).processId = (P.info q).processId) : P'.Owned p where
  displays := h.displays.flags hids fun q => (hinfo q).1
  active := by
    rw [(hinfo p).2.1]
    exact h.active
  numbered := (hinfo p).2.2.2.trans h.numbered
  alone q hq r hr hqa hra hqr := by
    rw [(hinfo q).2.1] at hqa
    rw [(hinfo r).2.1] at hra
    rw [(hinfo q).2.2.1, (hinfo r).2.2.1] at hqr
    exact h.alone q hq r hr hqa hra hqr

theorem Processes.Owned.congr (h : P.Owned p) (hids : P'.ids = P.ids) (hinfo : P'.info = P.info) : P'.Owned p := by
  refine h.flags hids fun q => ?_
  rw [hinfo]
  exact ⟨rfl, rfl, rfl, rfl⟩

theorem Processes.Owned.switchTo {e : Entry} (h : P.Owned p) : (P.switchTo c q e).Owned p := by
  have hsaved : ∀ {α : Type} (field : Info → α), (∀ i, field (i.saveRegs e.regs) = field i) → ∀ r,
      field ((P.switchTo c q e).info r) = field (P.info r) := by
    intro α field hf r
    rw [switchTo_info]
    exact Processes.setInfo_field P field c r (Info.saveRegs e.regs) hf
  exact h.flags (switchTo_ids _ _ _ _) fun r =>
    ⟨hsaved Info.isOnscreen (fun _ => rfl) r, hsaved Info.isActive (fun _ => rfl) r,
    hsaved Info.terminalNum (fun _ => rfl) r, hsaved Info.processId (fun _ => rfl) r⟩

theorem Processes.Displays.top (h : P.Displays p) (hS : Shown P S) (hT : Table P S) : IsTop S p := by
  obtain ⟨q, hq, hon⟩ := hS.some
  rwa [← h.only (hT.slot_lt hq.stacked) hon]

theorem Table.top_of_active (h : Table P S) (hp : p < maxProcesses) (ha : (P.info p).isActive ≠ 0) : IsTop S p := by
  by_contra ht
  exact ha (h.idle p hp ht)

theorem Table.top_unique (h : Table P S) (hp : IsTop S p) (hq : IsTop S q)
    (hpq : (P.info p).terminalNum = (P.info q).terminalNum) :
    p = q := by
  obtain ⟨t, ht⟩ := hp
  obtain ⟨u, hu⟩ := hq
  rw [(h.slot t p (List.mem_of_head? ht)).terminalNum, (h.slot u q (List.mem_of_head? hu)).terminalNum] at hpq
  rw [hpq, hu, Option.some.injEq] at ht
  exact ht.symm

theorem At.owned (h : At P S c) (hp : P.Displays p) : P.Owned p where
  displays := hp
  active := by
    rw [h.table.active p hp.lt (hp.top h.shown h.table)]
    exact Nat.one_ne_zero
  numbered := h.table.processId (hp.top h.shown h.table).stacked
  alone q hq r hr hqa hra hqr := h.table.top_unique (h.table.top_of_active hq hqa) (h.table.top_of_active hr hra) hqr

theorem active_exitTo {r : ℕ} (ha : ((P.exitTo c y).info r).isActive ≠ 0) :
    r = y ∨ r ≠ c ∧ (P.info r).isActive ≠ 0 := by
  by_cases hry : r = y
  · exact Or.inl hry
  refine Or.inr ?_
  by_cases hcy : c = y
  · subst hcy
    rw [exitTo_self_info, if_neg hry] at ha
    exact ⟨hry, ha⟩
  · rw [exitTo_info hcy] at ha
    split at ha
    · exact absurd rfl ha
    · next hrc => exact ⟨hrc, ha⟩

/-- The exit of a root shell into a slot without a caller: its terminal has no other process. -/
theorem At.owned_lost {P₀ : Processes} (h : At P S c) (hinfo : P₀.info = P.info) (hp : P.Displays p) (hS : S t = [c])
    (hpc : p ≠ c) (hterm : (P.info y).terminalNum = t) (hp' : (P₀.exitTo c y).Displays p) :
    (P₀.exitTo c y).Owned p := by
  have htop := hp.top h.shown h.table
  have hkept : ∀ r, (P.info r).Kept ((P₀.exitTo c y).info r) := fun r => by
    rw [← hinfo]
    exact exitTo_kept r
  have helse : ∀ {r}, IsTop S r → (P.info r).terminalNum = t → r = c := by
    intro r hr hrt
    have hmem := h.table.mem_terminal hr.stacked
    rw [hrt, hS] at hmem
    exact List.mem_singleton.mp hmem
  have hactive : ∀ {r}, r < maxProcesses → ((P₀.exitTo c y).info r).isActive ≠ 0 → r = y ∨ r ≠ c ∧ IsTop S r := by
    intro r hr ha
    refine (active_exitTo ha).imp_right fun hr' => ⟨hr'.1, h.table.top_of_active hr ?_⟩
    rw [← hinfo]
    exact hr'.2
  refine ⟨hp', ?_, (hkept p).processId.trans (h.table.processId htop.stacked), fun q hq r hr hqa hra hqr => ?_⟩
  · have hpy : p ≠ y := by
      rintro rfl
      exact hpc (helse htop hterm)
    rw [exitTo_ne hpc hpy, hinfo, h.table.active p hp.lt htop]
    exact Nat.one_ne_zero
  · rw [(hkept q).terminalNum, (hkept r).terminalNum] at hqr
    rcases hactive hq hqa with rfl | ⟨hqc, hqt⟩
    · rcases hactive hr hra with rfl | ⟨hrc, hrt⟩
      · rfl
      · exact absurd (helse hrt (hqr.symm.trans hterm)) hrc
    · rcases hactive hr hra with rfl | ⟨hrc, hrt⟩
      · exact absurd (helse hqt (hqr.trans hterm)) hqc
      · exact h.table.top_unique hqt hrt hqr

end Owned

/-! ## Events -/

/-- Process 0 ends only while it is on screen, and what is on screen does not end into a slot without a caller: a
process on screen whose parent's PCB names its own terminal is waited for in `execute`. -/
structure KeepsDisplay (img : Image) (fs : Filesystem) (k : Kernel) (ev : Event) : Prop where
  root : ∀ k₁ e status, Ending img fs k ev k₁ e status → (k.pcb k.current).parent = 0 →
    (k.pcb k.current).terminalInfo.isOnscreen ≠ 0
  waited : ∀ k₁ e status, Ending img fs k ev k₁ e status → (k.pcb k.current).terminalInfo.isOnscreen ≠ 0 →
    ∀ y < maxProcesses, (k.pcb k.current).parent = getPcbPtr y →
      (k.slot y).terminalInfo.terminalNum = (k.pcb k.current).terminalInfo.terminalNum →
      getPcbPtr y ≠ k.current ∧ ∃ x, k.frames (k.pcb k.current).haltEbp = .setupExecStack x

section Moves
variable {img : Image} {fs : Filesystem} {k k' : Kernel} {S S' : Stacks} {c c' p : ℕ} {ev : Event}

theorem pcb_current (h : At k.processes S c) : k.pcb k.current = k.slot c := by
  rw [current_eq h]
  rfl

/-- A root shell that an admitted event sends into a slot without a caller is off screen. -/
theorem lost_offscreen {k₁ : Kernel} {e : Entry} {status t y : ℕ} (h : At k.processes S c)
    (hok : KeepsDisplay img fs k ev)
    (hp : k.processes.Displays p) (ending : Ending img fs k ev k₁ e status) (stack : S t = [c]) (other : t ≠ 0)
    (parent : y < maxProcesses ∧ (k.processes.info c).parent = getPcbPtr y)
    (same : (k.processes.info y).terminalNum = t) :
    p ≠ c := by
  have hc : c ∈ S t := by
    rw [stack]
    exact List.mem_cons_self ..
  rintro rfl
  have hon := hp.shown
  have hnum := (h.table.slot t p hc).terminalNum
  obtain ⟨z, hz, hparent, hptr⟩ := h.contexts.orphaned t p other (by rw [stack]; rfl)
  obtain rfl : z = y := (getPcbPtr_inj hz parent.1).mp (hparent.symm.trans parent.2)
  have hterm : (k.slot z).terminalInfo.terminalNum = (k.slot p).terminalInfo.terminalNum := by
    rw [← hnum, k.processes_info h.lt, k.processes_info hz] at same
    exact same
  rw [k.processes_info h.lt] at hon hparent hptr
  obtain ⟨hne, x, hframe⟩ :=
    hok.waited _ _ _ ending (by rw [pcb_current h]; exact hon) z hz (by rw [pcb_current h]; exact hparent)
    (by rw [pcb_current h]; exact hterm)
  rw [pcb_current h] at hframe
  rw [current_eq h] at hne
  -- A slot on no stack has no frame of a caller, and the only slot in the terminal is the one that exits.
  refine h.contexts.dead z hz (fun hs => ?_) _ x hptr hframe
  have hmem := h.table.mem_terminal hs
  rw [same, stack] at hmem
  exact hne (congrArg getPcbPtr (List.mem_singleton.mp hmem))

theorem lost_displays {k₁ : Kernel} {e : Entry} {status t y : ℕ} (h : At k.processes S c)
    (hok : KeepsDisplay img fs k ev)
    (hp : k.processes.Displays p) (ending : Ending img fs k ev k₁ e status)
    (entered : Entered k.processes c k.cpu (k.called e))
    (o : Option ℕ) (stack : S t = [c]) (other : t ≠ 0)
    (parent : y < maxProcesses ∧ (k.processes.info c).parent = getPcbPtr y)
    (same : (k.processes.info y).terminalNum = t) : (((k.called e).leaked o).exitTo c y).Displays p := by
  have hpc := lost_offscreen h hok hp ending stack other parent same
  have hin := (hp.congr entered.ids entered.info).leaked o
  have hid : (((k.called e).leaked o).info c).processId = c := by
    rw [leaked_info, entered.info]
    exact h.table.processId ⟨t, by rw [stack]; exact List.mem_cons_self ..⟩
  by_cases hcy : c = y
  · subst hcy
    exact hin.exitTo_self hpc hid
  · have hpy : p ≠ y := by
      rintro rfl
      have hmem := h.table.mem_terminal (hp.top h.shown h.table).stacked
      rw [same, stack] at hmem
      exact hcy (List.mem_singleton.mp hmem).symm
    exact hin.exitTo_off h.lt hcy hid hpc hpy

/-- **An admitted event** leaves one process on screen. -/
theorem Move.displays (m : Move img fs k S c k' ev S' c') (h : At k.processes S c) (hok : KeepsDisplay img fs k ev)
    (hp : k.processes.Displays p) : ∃ p', k'.processes.Displays p' := by
  have hinside : ∀ {P₀ : Processes}, Entered k.processes c k.cpu P₀ → P₀.Displays p := fun he => hp.congr he.ids he.info
  have hptop := hp.top h.shown h.table
  cases m with
  | stay quiet ids info _ => exact ⟨p, hp.congr ids info⟩
  | tick entered top next gone view =>
    rw [view]
    refine ⟨p, (hinside entered).flags (switchTo_ids _ _ _ _) fun q => ?_⟩
    rw [switchTo_info]
    exact Processes.setInfo_field _ Info.isOnscreen c q (Info.saveRegs _) fun _ => rfl
  | @display e scanCode t q l k₁ entered request stack ret resume view =>
    have hq : q ∈ S t := by
      rw [stack]
      exact List.mem_cons_self ..
    have hin := hinside entered
    rw [view, hin.onscreen]
    refine ⟨q, (hin.display (h.table.lt t q hq).2 ?_).congr rfl rfl⟩
    rw [entered.ids]
    exact h.table.used ⟨t, hq⟩
  | @create e scanCode t _ eip entered entry request stack slot gone view =>
    have hin := hinside entered
    rw [view, hin.onscreen]
    refine ⟨c', hin.create ?_⟩
    exact ⟨slot.lt, by rw [entered.ids]; exact slot.free, fun q hq => by rw [entered.ids]; exact slot.least q hq⟩
  | @push e command t _ eip l entered entry stack slot gone view =>
    have hne : c' ≠ c := by
      rintro rfl
      exact h.table.firstFree slot ⟨t, by rw [stack]; exact List.mem_cons_self ..⟩
    rw [view]
    refine (hinside entered).push h.lt hne ?_
    exact ⟨slot.lt, by rw [entered.ids]; exact slot.free, fun q hq => by rw [entered.ids]; exact slot.least q hq⟩
  | @pop _ e status t _ l k₁ o y entered ending before leak stack frame gone view =>
    have hc : c ∈ S t := by
      rw [stack]
      exact List.mem_cons_self ..
    have hq : c' ∈ S t := by
      rw [stack]
      exact List.mem_cons_of_mem c (List.mem_cons_self ..)
    have hnq : ¬ IsTop S c' := h.table.apart.not_isTop stack (List.mem_cons_self ..)
    have hcq : c ≠ c' := by
      rintro rfl
      exact hnq (isTop_of_cons stack)
    have hused : ((k.called e).leaked o).ids c' ≠ 0 := by
      refine leaked_used ?_ o
      rw [entered.ids]
      exact h.table.used ⟨t, hq⟩
    obtain ⟨p', hp'⟩ := ((hinside entered).leaked o).exitTo h.lt hcq (h.table.lt t c' hq).2
      (by rw [leaked_info, entered.info]; exact h.table.processId ⟨t, hc⟩) hused fun hx => hnq (hx ▸ hptop)
    rw [view]
    exact ⟨p', hp'.congr rfl rfl⟩
  | @restart _ e status eip k₁ o entered ending before leak stack gone view =>
    obtain rfl : c = 0 := by
      have hfirst := h.table.first
      rw [stack, List.getLast?_singleton, Option.some.injEq] at hfirst
      exact hfirst
    have hroot := h.table.root
    rw [k.processes_info h.lt, Pcb.info_parent] at hroot
    have hon := hok.root _ _ _ ending (by rw [pcb_current h]; exact hroot)
    rw [pcb_current h, ← Pcb.info_isOnscreen, ← k.processes_info h.lt] at hon
    obtain rfl := hp.only h.lt hon
    rw [view]
    exact ⟨0, ((hinside entered).leaked o).restart⟩
  | @close _ e status t q y l k₁ o x entered ending before leak stack other parent elsewhere first spin gone view =>
    have hq : q ∈ S 0 := by
      rw [first]
      exact List.mem_cons_self ..
    have hcq : c ≠ q := by
      rintro rfl
      exact other (h.table.apart.disjoint (by rw [stack]; exact List.mem_cons_self ..) hq)
    have hin := (hinside entered).leaked o
    rw [view, hin.onscreen]
    refine ⟨q, (hin.exitToSpin hcq (h.table.lt 0 q hq).2 ?_).congr rfl rfl⟩
    refine leaked_used ?_ o
    rw [entered.ids]
    exact h.table.used ⟨0, hq⟩
  | @lost _ e status t y k₁ o entered ending before leak stack other parent same gone view wild =>
    rw [view]
    exact ⟨p, (lost_displays h hok hp ending entered o stack other parent same).congr (haltProcess_ids _ _ _)
      (haltProcess_info _ _ _)⟩

theorem At.not_wild {P : Processes} (h : At P S c) : P.cpu.mode ≠ .wild := by
  rcases h.running.2 with ⟨-, hu | ⟨hk, -⟩⟩ | ⟨hs, -⟩
  · rw [hu]
    decide
  · rw [hk]
    decide
  · rw [hs]
    decide

theorem mode_view {P : Processes} (h : k'.processes = P) (hm : P.cpu.mode ≠ .wild) : k'.cpu.mode ≠ .wild := by
  subst h
  exact hm

/-- **An admitted event** leaves the display to one owner, also where control is lost. -/
theorem Move.owned (m : Move img fs k S c k' ev S' c') (h : At k.processes S c) (hok : KeepsDisplay img fs k ev)
    (hp : k.processes.Owned p) (hafter : k'.cpu.mode = .wild ∨ At k'.processes S' c') :
    ∃ p', k'.processes.Owned p' := by
  rcases hafter with hw | hat
  · cases m with
    | stay quiet ids info _ => exact ⟨p, hp.congr ids info⟩
    | tick entered top next gone view =>
      rw [view]
      exact ⟨p, (hp.congr entered.ids entered.info).switchTo⟩
    | display entered request stack ret resume view => exact absurd hw (mode_view view h.not_wild)
    | create entered entry request stack slot gone view => exact absurd hw (mode_view view Mode.noConfusion)
    | push entered entry stack slot gone view => exact absurd hw (mode_view view Mode.noConfusion)
    | pop entered ending before leak stack frame gone view =>
      obtain ⟨y, hy, -, hat⟩ := h.pop entered stack 0
      rw [frame, Frame.setupExecStack.injEq] at hy
      rw [hy] at view
      exact absurd hw (mode_view view hat.not_wild)
    | restart entered ending before leak stack gone view => exact absurd hw (mode_view view Mode.noConfusion)
    | @close _ e status t q y l k₁ o x entered ending before leak stack other parent elsewhere first spin gone view =>
      have hx : x.mode ≠ .wild := by
        rw [spin.1]
        decide
      exact absurd hw (mode_view view hx)
    | @lost _ e status t y k₁ o entered ending before leak stack other parent same gone view wild =>
      have hexit := lost_displays h hok hp.displays ending entered o stack other parent same
      rw [view]
      exact ⟨p, (h.owned_lost ((leaked_info _ o).trans entered.info) hp.displays stack
        (lost_offscreen h hok hp.displays ending stack other parent same) same hexit).congr (haltProcess_ids _ _ _)
        (haltProcess_info _ _ _)⟩
  · obtain ⟨p', hp'⟩ := m.displays h hok hp.displays
    exact ⟨p', hat.owned hp'⟩

end Moves

/-! ## Runs -/

/-- The flags name one terminal on screen, and its active process. -/
structure DisplayOwned (k : Kernel) : Prop where
  onscreen : ∃! p, p < maxProcesses ∧ k.inUse p ∧ (k.slot p).terminalInfo.isOnscreen ≠ 0
  active : ∀ p < maxProcesses, ∀ q < maxProcesses, k.inUse p → k.inUse q → (k.slot p).isActive ≠ 0 →
    (k.slot q).isActive ≠ 0 →
    (k.slot p).terminalInfo.terminalNum = (k.slot q).terminalInfo.terminalNum → p = q
  owner : ∀ p < maxProcesses, k.inUse p → (k.slot p).terminalInfo.isOnscreen ≠ 0 → (k.slot p).isActive ≠ 0
  searches : ∃ p t, k.findOnscreenTerminalPid = some p ∧ k.findOnscreenTerminalNum = some t ∧
    k.findTerminalPid t = some p

theorem find_range_unique {f : ℕ → Bool} {n p : ℕ} (hp : p < n) (hf : f p = true)
    (honly : ∀ q < n, f q = true → q = p) :
    (List.range n).find? f = some p := by
  cases h : (List.range n).find? f with
  | none =>
    rw [List.find?_eq_none] at h
    exact absurd hf (h p (List.mem_range.mpr hp))
  | some q => rw [honly q (List.mem_range.mp (List.mem_of_find?_eq_some h)) (List.find?_some h)]

section Runs
variable {img : Image} {fs : Filesystem} {k : Kernel} {p : ℕ}

theorem Processes.Owned.searches {P : Processes} (h : P.Owned p) : P.findOnscreenTerminalPid = some p ∧
    P.findOnscreenTerminalNum = some (P.info p).terminalNum ∧ P.findTerminalPid (P.info p).terminalNum = some p := by
  have hd := h.displays
  have hused : P.ids (P.info p).processId ≠ 0 := by
    rw [h.numbered]
    exact hd.used
  refine ⟨?_, ?_, ?_⟩
  · refine find_range_unique hd.lt (decide_eq_true ⟨hd.used, hd.shown⟩) fun q hq hf => ?_
    exact hd.only hq (of_decide_eq_true hf).2
  · unfold Processes.findOnscreenTerminalNum
    have hfind :=
      @find_range_unique (fun i => decide (P.ids (P.info i).processId ≠ 0 ∧ (P.info i).isOnscreen ≠ 0)) maxProcesses p
      hd.lt (decide_eq_true ⟨hused, hd.shown⟩) fun q hq hf => hd.only hq (of_decide_eq_true hf).2
    rw [hfind]
    rfl
  · refine find_range_unique hd.lt (decide_eq_true ⟨hused, h.active, rfl⟩) fun q hq hf => ?_
    obtain ⟨-, ha, hterm⟩ := of_decide_eq_true hf
    exact h.alone q hq p hd.lt ha h.active hterm

theorem Processes.Owned.owned (h : k.processes.Owned p) : DisplayOwned k := by
  have hd := h.displays
  have hshown := hd.shown
  have hactive := h.active
  rw [k.processes_info hd.lt] at hshown hactive
  have honly : ∀ q < maxProcesses, (k.slot q).terminalInfo.isOnscreen ≠ 0 → q = p := by
    intro q hq hon
    refine hd.only hq ?_
    rw [k.processes_info hq]
    exact hon
  refine ⟨⟨p, ⟨hd.lt, hd.used, hshown⟩, fun q hq => honly q hq.1 hq.2.2⟩, fun q hq r hr _ _ hqa hra hqr => ?_,
    fun q hq _ hon => ?_, p, (k.processes.info p).terminalNum, ?_⟩
  · have halone := h.alone q hq r hr
    rw [k.processes_info hq, k.processes_info hr] at halone
    exact halone hqa hra hqr
  · rw [honly q hq hon]
    exact hactive
  · rw [← Kernel.processes_findOnscreenTerminalPid, ← Kernel.processes_findOnscreenTerminalNum,
      ← Kernel.processes_findTerminalPid]
    exact h.searches

theorem started_owned (h : Started img fs k) : k.processes.Owned 0 := by
  obtain ⟨k₀, e, eip, hb, -, -, -, -, hview⟩ := started_start h
  refine (started_at h).owned ?_
  rw [hview]
  refine ⟨by decide, used_self (k₀.enter e.regs.esp).processes.ids 0, ?_, fun q hq hq0 => ?_⟩
  · rw [Processes.start_info, if_pos rfl]
    exact Nat.one_ne_zero
  · rw [Processes.start_info, if_neg hq0]
    show (k₀.processes.info q).isOnscreen = 0
    rw [k₀.processes_info hq]
    exact (hb.pcb q hq).2.2.1

end Runs

/-- **The display has one owner**, the active process of the terminal on screen, in every run in which process 0
ends only while it is on screen, and a process on screen ends into a slot of its terminal only when it is waited for
there. -/
theorem display_owned (img : Image) (boot : img.Bootable) {k₀ k : Kernel}
    (h0 : Started img (Image.WellFormed.pointers img) k₀)
    (h : Reaches (step img (Image.WellFormed.pointers img)) (KeepsDisplay img (Image.WellFormed.pointers img)) k₀ k) :
    DisplayOwned k := by
  have hinv : (∃ p, k.processes.Owned p) ∧ (k.cpu.mode = .wild ∨ ∃ S c, At k.processes S c) := by
    refine h.invariant (P := fun k => (∃ p, k.processes.Owned p) ∧ (k.cpu.mode = .wild ∨ ∃ S c, At k.processes S c))
      ⟨⟨0, started_owned h0⟩, Or.inr ⟨_, _, started_at h0⟩⟩ ?_
    rintro s ev u ⟨⟨p, hp⟩, hw | ⟨S, c, hat⟩⟩ hok hs
    · rw [step_wild hw] at hs
      cases hs
    · obtain ⟨S', c', hmove, hat'⟩ := step_follows boot hat hs
      exact ⟨hmove.owned hat hok hp hat', hat'.imp_right fun hat' => ⟨S', c', hat'⟩⟩
  obtain ⟨⟨p, hp⟩, -⟩ := hinv
  exact hp.owned

/-- Three terminals, opened and left by ticks, calls and an exit off screen. -/
theorem display_owned_three : ∃ k, Reaches (step Image.small (Image.WellFormed.pointers Image.small))
      (KeepsDisplay Image.small (Image.WellFormed.pointers Image.small)) firstShell k ∧
    Stage k (stacksOf [2, 0] [1] [3]) 3 3 ∧ DisplayOwned k := by
  obtain ⟨k, hrun, h, -⟩ := three_terminals
  have hkeeps : Reaches _ (KeepsDisplay Image.small (Image.WellFormed.pointers Image.small)) _ _ :=
    hrun.mono fun s ev hcalm =>
    ⟨fun k₁ e status hend hroot => absurd hroot (hcalm.ends k₁ e status hend).1,
      fun k₁ e status hend hon => absurd (hcalm.ends k₁ e status hend).2.1 hon⟩
  exact ⟨k, hkeeps, h, display_owned Image.small Image.small_bootable firstShell_started hkeeps⟩

/-- Not in every run: while terminal 2 is displayed the first shell ends, and is put on screen when it is started
again. -/
theorem display_shared :
    ¬ ∀ (img : Image), img.Bootable → ∀ k₀ k, Started img (Image.WellFormed.pointers img) k₀ →
      Reaches (step img (Image.WellFormed.pointers img)) anyStep k₀ k → DisplayOwned k := by
  intro hall
  obtain ⟨k, hrun, h, -⟩ := second_terminal
  have hat := h.here
  have hshown := h.shown
  have hs := @step_halt Image.small (Image.WellFormed.pointers Image.small) k 0 (k.entry 64) h.mode
    (h.fits (by decide)) (by decide) (roomFor_entry hat h.roomy (by decide))
  generalize Outcome.afterHalt _ _ = k' at hs
  obtain ⟨S', c', hmove, -⟩ := step_follows Image.small_bootable hat hs
  have hfirst : ∀ {t l}, stacksOf [0] [1] [] t = 0 :: l → t = 0 ∧ l = [] := by
    intro t l hl
    have hzero : stacksOf [0] [1] [] 0 = [0] := rfl
    have ht : t = 0 := hat.table.apart.disjoint (p := 0) (by rw [hl]; exact List.mem_cons_self ..)
      (by rw [hzero]; exact List.mem_cons_self ..)
    rw [ht, hzero] at hl
    exact ⟨ht, (List.cons.inj hl).2.symm⟩
  have hboth : ∀ p ≤ 1, k'.processes.ids p ≠ 0 ∧ (k'.processes.info p).isOnscreen ≠ 0 := by
    cases hmove with
    | stay quiet ids info _ => exact absurd (Ending.halt _ _) (quiet.going _ _ _)
    | pop entered ending before leak stack frame gone view => cases (hfirst stack).2
    | close entered ending before leak stack other parent elsewhere first spin gone view =>
      exact absurd (hfirst stack).1 other
    | lost entered ending before leak stack other parent same gone view wild => exact absurd (hfirst stack).1 other
    | @restart _ e status eip k₁ o entered ending before leak stack gone view =>
      intro p hp
      rw [view]
      obtain rfl | rfl : p = 0 ∨ p = 1 := by omega
      · refine ⟨used_self (((k.called e).leaked o).release 0).ids 0, ?_⟩
        rw [Processes.start_info, if_pos rfl]
        exact Nat.one_ne_zero
      · refine ⟨?_, ?_⟩
        · show Function.update (Function.update ((k.called e).leaked o).ids 0 0) 0 1 1 ≠ 0
          rw [Function.update_of_ne (by decide), Function.update_of_ne (by decide)]
          refine leaked_used ?_ o
          rw [entered.ids]
          exact hshown.used
        · rw [Processes.start_info, if_neg (by decide)]
          show (((k.called e).leaked o).info 1).isOnscreen ≠ 0
          rw [leaked_info, entered.info]
          exact hshown.shown
  have hslot : ∀ p ≤ 1, p < maxProcesses ∧ k'.inUse p ∧ (k'.slot p).terminalInfo.isOnscreen ≠ 0 := by
    intro p hp
    have hlt : p < maxProcesses := Nat.lt_of_le_of_lt hp (by decide)
    obtain ⟨hused, hon⟩ := hboth p hp
    rw [k'.processes_info hlt] at hon
    exact ⟨hlt, hused, hon⟩
  have hreach : Reaches (step Image.small (Image.WellFormed.pointers Image.small)) anyStep firstShell k :=
    hrun.mono fun _ _ _ => trivial
  obtain ⟨p, -, honly⟩ :=
    (hall Image.small Image.small_bootable firstShell k' firstShell_started (hreach.tail trivial hs)).onscreen
  exact absurd ((honly 0 (hslot 0 (by decide))).trans (honly 1 (hslot 1 (by decide))).symm) (by decide)

end Kernel391
