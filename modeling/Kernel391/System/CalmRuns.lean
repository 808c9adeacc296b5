import Kernel391.System.SlotSearch
import Kernel391.System.StackFrames

/-! Runs in which every event has one outcome. In user mode a tick goes on with a process that an earlier tick stopped,
`execute` starts a shell in the lowest free slot, and the end of a program goes back to its caller; a run on the small
image takes them in turn until three terminals have a shell each. -/
namespace Kernel391
open Kernel391.Foundations
set_option autoImplicit false

/-- No process ends that is the initial one, on screen, or the parent of one in use; every program loads; no key
comes from the last loop of `halt`, and one from a process on screen finds the video page mapped. -/
structure Calm (img : Image) (fs : Filesystem) (k : Kernel) (ev : Event) : Prop where
  ends : ∀ k₁ e status, Ending img fs k ev k₁ e status → (k.pcb k.current).parent ≠ 0 ∧
    (k.pcb k.current).terminalInfo.isOnscreen = 0 ∧ ∀ p < maxProcesses, k.inUse p → (k.slot p).parent ≠ k.current
  loads : ∀ e command k₁, ev = .execute e command → execute img fs (k.enter e.regs.esp) e k.cpu command ≠ .fault k₁
  keys : ∀ e scanCode, ev = .key e scanCode → k.cpu.mode ≠ .spin ∧
    ((k.pcb k.current).terminalInfo.isOnscreen ≠ 0 → k.pageTblVmem (tableIdx vmemAddr) = pageTableEntry video 1)

/-- Slot `c` runs in user mode, slot `o` alone is on screen, and every slot in use stands on a stack. -/
structure Stage (k : Kernel) (S : Stacks) (c o : ℕ) : Prop where
  here : At k.processes S c
  mode : k.cpu.mode = .user
  marked : Marked k.processes
  shown : k.processes.OnlyShown o
  only : ∀ p, k.processes.ids p ≠ 0 → Stacked S p

/-- A tick stopped the process of slot `p` in user mode. -/
def Parked (P : Processes) (p : ℕ) : Prop :=
  getPcb (P.info p).scheduleEbp = getPcbPtr p ∧ ∃ x, P.frames (P.info p).scheduleEbp = .interrupt x ∧ x.mode = .user

/-- What an event of slot `c` leaves of the other processes. -/
structure Undisturbed (P P' : Processes) (c : ℕ) : Prop where
  parked : ∀ p < maxProcesses, p ≠ c → P.ids p ≠ 0 → Parked P p → Parked P' p
  parent : ∀ p, P.ids p ≠ 0 → (P'.info p).parent = (P.info p).parent

/-- The handler of a key came back to the process it interrupted. -/
def Returned (img : Image) (fs : Filesystem) (k : Kernel) (scanCode : ℕ) (k' : Kernel) : Prop :=
  ∃ k₁, handleKeyboard img fs (k.interrupted (k.entry 64)) (k.entry 64) scanCode = .ret 0 k₁ ∧ k' = k₁.resume k.cpu

section Stage
variable {img : Image} {k k' : Kernel} {S S' : Stacks} {c o p q t scanCode : ℕ} {l : List ℕ} {ev : Event} {e : Entry}

theorem Parked.of {P P' : Processes} (h : Parked P p) (hframes : ∀ a, getPcb a = getPcbPtr p → P'.frames a = P.frames a)
    (hebp : (P'.info p).scheduleEbp = (P.info p).scheduleEbp) : Parked P' p := by
  obtain ⟨hp, x, hx, hm⟩ := h
  unfold Parked
  rw [hebp, hframes _ hp]
  exact ⟨hp, x, hx, hm⟩

theorem Undisturbed.of {P P' : Processes} (hc : c < maxProcesses)
    (hframes : ∀ a, getPcb a ≠ getPcbPtr c → P'.frames a = P.frames a)
    (hebp : ∀ p, p ≠ c → P.ids p ≠ 0 → (P'.info p).scheduleEbp = (P.info p).scheduleEbp)
    (hparent : ∀ p, P.ids p ≠ 0 → (P'.info p).parent = (P.info p).parent) : Undisturbed P P' c where
  parked p hp hpc hu h := h.of (fun a ha => hframes a (by
    rw [ha]
    exact fun hx => hpc ((getPcbPtr_inj hp hc).mp hx))) (hebp p hpc hu)
  parent := hparent

theorem Stage.top (h : Stage k S c o) : IsTop S c := h.here.isTop (by
  show k.cpu.mode ≠ .spin
  rw [h.mode]
  decide)

theorem Stage.roomy (h : Stage k S c o) : Roomy k c := roomy_user h.here h.mode

theorem Stage.fits (h : Stage k S c o) {n : ℕ} (hn : n < 192) : k.fits (k.entry n) = true :=
  fits_entry h.here h.roomy hn

theorem Stage.used (h : Stage k S c o) : k.processes.ids p ≠ 0 ↔ Stacked S p := ⟨h.only p, h.here.table.used⟩

theorem Stage.firstFree (h : Stage k S c o) (hlt : p < maxProcesses) (hp : ¬ Stacked S p) (hq : ∀ q < p, Stacked S q) :
    k.processes.FirstFree p where
  lt := hlt
  free := not_not.mp fun hu => hp (h.only p hu)
  least q hqp := h.here.table.used (hq q hqp)

/-- A tick goes on with the next process that runs, when it is the one on the processor or a tick has stopped it. -/
theorem Stage.tick (h : Stage k S c o) (hnext : FirstAfter maxProcesses (IsTop S) c q)
    (hparked : q ≠ c → Parked k.processes q) :
    ∃ k', step img (Image.WellFormed.pointers img) k (.tick (k.entry 0)) = some k' ∧ Stage k' S q o ∧
      Undisturbed k.processes k'.processes c ∧ Parked k'.processes c ∧ k'.keys = k.keys := by
  have hent := (entryOn_of_fits h.here (h.fits (n := 0) (by decide))).1
  have he : Entered k.processes c k.cpu (k.preempted (k.entry 0)) := entered_interrupt h.here hent
  have hs := @step_tick img (Image.WellFormed.pointers img) k (k.entry 0) (by rw [h.mode]; decide)
    (h.fits (by decide)) rfl
  generalize (pitHandler (k.interrupted (k.entry 0)) (k.entry 0)).afterInterrupt img (Image.WellFormed.pointers img)
    (k.entry 0) k.cpu = k' at hs
  obtain ⟨q', htop, hchosen, -, hview, hafter⟩ := tick_next h.here hs
  have hruns : FirstAfter maxProcesses k.Runs c q := hnext.congr fun p hp => (h.here.runs_iff hp).symm
  rw [(findNextActivePcb_firstAfter h.marked h.here.lt hnext.lt).mpr hruns, Option.some.injEq] at hchosen
  obtain rfl := (getPcbPtr_inj hnext.lt (h.here.table.slot_lt htop.stacked)).mp hchosen
  have hmode : k'.cpu.mode = .user := by
    show k'.processes.cpu.mode = .user
    rw [hview]
    by_cases hqc : q = c
    · subst hqc
      rw [switchTo_same (x := k.cpu) (Function.update_self ..) hent.ebp.1, h.mode]
    · obtain ⟨hebp, x, hframe, hx⟩ := hparked hqc
      have hoff : getPcb (k.processes.info q).scheduleEbp ≠ getPcbPtr c := by
        rw [hebp]
        exact fun hx => hqc ((getPcbPtr_inj hnext.lt h.here.lt).mp hx)
      rw [switchTo_resumes (x := x) hqc (by rw [he.info, he.there _ hoff]; exact hframe)
        (by rw [he.info]; exact hebp), hx]
  have hat := hafter.resolve_left (by rw [hmode]; decide)
  have hids : k'.processes.ids = k.processes.ids := by rw [hview, switchTo_ids, he.ids]
  have hinfo : k'.processes.info = (k.processes.setInfo c (Info.saveRegs (k.entry 0).regs)).info := by
    rw [hview, switchTo_info]
    unfold Processes.setInfo
    rw [he.info]
  have hframes : k'.processes.frames = (k.preempted (k.entry 0)).frames := by rw [hview, switchTo_frames]
  obtain ⟨S', c', hmove, -⟩ := tick_follows h.here hs
  refine ⟨k', hs, ⟨hat, hmode, hmove.marked h.here h.marked, h.shown.flags hids fun p => ?_, ?_⟩, ?_,
    ⟨?_, k.cpu, ?_, h.mode⟩,
    congrArg Input.keys (step_input hs)⟩
  · rw [hinfo]
    by_cases hp : p = c
    · rw [hp, Processes.setInfo_self]
      rfl
    · rw [Processes.setInfo_ne _ hp]
  · rw [hids]
    exact h.only
  · refine Undisturbed.of h.here.lt (fun a ha => ?_) (fun p hp _ => ?_) fun p _ => ?_
    · rw [hframes]
      exact he.there a ha
    · rw [hinfo, Processes.setInfo_ne _ hp]
    · rw [hinfo]
      exact (setInfo_kept (saveRegs_kept _) c p).parent
  · rw [hinfo, Processes.setInfo_self]
    exact hent.handler.1
  · rw [hinfo, Processes.setInfo_self, hframes]
    exact Function.update_self ..

theorem Stage.ticked {fs : Filesystem} (h : Stage k S c o) (hs : step img fs k (.tick e) = some k')
    (h' : Stage k' S q p) : k' = k.ticked e c q := by
  obtain ⟨q', htop, -, hticked, -, hafter⟩ := tick_next h.here hs
  have hat := hafter.resolve_left (by rw [h'.mode]; decide)
  have hq : getPcbPtr q' = getPcbPtr q := (current_eq hat).symm.trans (current_eq h'.here)
  rw [(getPcbPtr_inj hat.lt h'.here.lt).mp hq] at hticked
  exact hticked

theorem Stage.execute (boot : img.Bootable) (h : Stage k S c o) (hS : S t = c :: l) (hoc : o ≠ c)
    (hp : k.processes.FirstFree p) :
    ∃ k', step img (Image.WellFormed.pointers img) k (.execute (k.entry 64) shell) = some k' ∧
      execute img (Image.WellFormed.pointers img) (k.enter (k.entry 64).regs.esp) (k.entry 64) k.cpu shell = .gone k' ∧
      Stage k' (Function.update S t (p :: c :: l)) p o ∧ Undisturbed k.processes k'.processes c ∧ k'.keys = k.keys := by
  have hslot : (k.enter (k.entry 64).regs.esp).getProcessId ≠ none := fun hn =>
    Kernel.getProcessId_none.mp hn p hp.lt hp.free
  obtain ⟨k', hgone⟩ := execute_shell boot (k.entry 64) k.cpu hslot
  have hs := @step_execute img (Image.WellFormed.pointers img) k (k.entry 64) shell h.mode (h.fits (by decide))
    (roomFor_entry h.here h.roomy (by decide)) (by rw [hgone]; rfl)
  rw [hgone] at hs
  replace hs : step img (Image.WellFormed.pointers img) k (.execute (k.entry 64) shell) = some k' := hs
  obtain ⟨S', c', hmove, hafter⟩ := step_follows boot h.here hs
  have hmarked := hmove.marked h.here h.marked
  have hframes := fun a ha => @Move.frames img k k' S S' c c' a _ boot hmove h.here ha hs
  cases hmove with
  | stay quiet => exact absurd hgone (quiet.execute _ _ k' rfl)
  | @push _ _ u p' eip l' entered entry stack slot gone view =>
    obtain rfl : t = u := h.here.table.apart.disjoint (p := c) (by rw [hS]; exact List.mem_cons_self ..)
      (by rw [stack]; exact List.mem_cons_self ..)
    obtain rfl := (List.cons.inj (stack.symm.trans hS)).2
    obtain rfl := slot.unique hp
    have hpc : c' ≠ c := fun hx => h.here.table.used h.top.stacked (hx ▸ hp.free)
    have hop : o ≠ c' := fun hx => h.shown.used (hx ▸ hp.free)
    have hids : k'.processes.ids = Function.update k.processes.ids c' 1 := by
      rw [view, ← entered.ids]
      rfl
    have hinfo : ∀ r, k'.processes.info r = if r = c' then (k.processes.info c).child c' (getPcbPtr c) (k.entry 64)
        else if r = c then ((k.processes.info c).setOnscreen 0).setActive 0 else k.processes.info r := by
      intro r
      rw [view, Processes.push_info _ hpc, entered.info]
    have hhidden : (k.processes.info c).isOnscreen = 0 := by
      by_contra hon
      exact hoc (h.shown.only c (h.here.table.used h.top.stacked) hon).symm
    have hold : ∀ r, k.processes.ids r ≠ 0 → r ≠ c' := fun r hu hx => hu (hx ▸ hp.free)
    have hmode : k'.cpu.mode = .user := by
      show k'.processes.cpu.mode = .user
      rw [view]
      rfl
    refine ⟨k', hs, hgone, ⟨hafter.resolve_left ?_, ?_, hmarked, ?_, fun r hr => ?_⟩, ?_,
      congrArg Input.keys (step_input hs)⟩
    · rw [hmode]
      decide
    · exact hmode
    · refine ⟨?_, ?_, fun r hu hon => ?_⟩
      · rw [hids, Function.update_of_ne hop]
        exact h.shown.used
      · rw [hinfo, if_neg hop, if_neg hoc]
        exact h.shown.shown
      · rw [hinfo] at hon
        split at hon
        · exact absurd hhidden hon
        · next hrp =>
          split at hon
          · exact absurd rfl hon
          · rw [hids, Function.update_of_ne hrp] at hu
            exact h.shown.only r hu hon
    · rw [hids] at hr
      rcases used_of_update hr with hu | rfl
      · obtain ⟨u, hu⟩ := h.only r hu
        by_cases hut : u = t
        · rw [hut, hS] at hu
          exact stacked_update.mpr (Or.inl (List.mem_cons_of_mem _ hu))
        · exact stacked_update.mpr (Or.inr ⟨u, hut, hu⟩)
      · exact stacked_update.mpr (Or.inl (List.mem_cons_self ..))
    · refine Undisturbed.of h.here.lt hframes (fun r hr hu => ?_) fun r hu => ?_
      · rw [hinfo, if_neg (hold r hu), if_neg hr]
      · rw [hinfo, if_neg (hold r hu)]
        split
        · next hr => rw [hr]; rfl
        · rfl
  | pop entered ending => exact absurd hgone ending.not_gone
  | restart entered ending => exact absurd hgone ending.not_gone
  | close entered ending => exact absurd hgone ending.not_gone
  | lost entered ending => exact absurd hgone ending.not_gone

theorem Stage.halt (boot : img.Bootable) (h : Stage k S c o) (hS : S t = c :: q :: l) (hoc : o ≠ c) (hoq : o ≠ q) :
    ∃ k', step img (Image.WellFormed.pointers img) k (.halt (k.entry 64) 0) = some k' ∧
      Stage k' (Function.update S t (q :: l)) q o ∧ Undisturbed k.processes k'.processes c ∧ k'.keys = k.keys := by
  have hs := @step_halt img (Image.WellFormed.pointers img) k 0 (k.entry 64) h.mode (h.fits (by decide)) (by decide)
    (roomFor_entry h.here h.roomy (by decide))
  generalize Outcome.afterHalt _ _ = k' at hs
  obtain ⟨S', c', hmove, hafter⟩ := step_follows boot h.here hs
  have hmarked := hmove.marked h.here h.marked
  have hframes := fun a ha => @Move.frames img k k' S S' c c' a _ boot hmove h.here ha hs
  have hmem : c ∈ S t := by
    rw [hS]
    exact List.mem_cons_self ..
  have hterminal : ∀ {u l'}, S u = c :: l' → u = t ∧ l' = q :: l := by
    intro u l' hu
    obtain rfl : u = t := h.here.table.apart.disjoint (by rw [hu]; exact List.mem_cons_self ..) hmem
    exact ⟨rfl, (List.cons.inj (hu.symm.trans hS)).2⟩
  have hchain := h.here.contexts.suspended t
  rw [hS] at hchain
  have hwaits := (List.isChain_cons_cons.mp hchain).1
  have hqc : q ≠ c := by
    rintro rfl
    exact h.here.table.apart.not_isTop hS (List.mem_cons_self ..) h.top
  cases hmove with
  | stay quiet => exact absurd (Ending.halt _ _) (quiet.going _ _ _)
  | restart entered ending before leak stack => cases (hterminal stack).2
  | close entered ending before leak stack => cases (hterminal stack).2
  | lost entered ending before leak stack => cases (hterminal stack).2
  | @pop _ e status u q' l' k₁ o' y entered ending before leak stack frame gone view =>
    obtain ⟨rfl, hl⟩ := hterminal stack
    obtain ⟨rfl, rfl⟩ := List.cons.inj hl
    cases ending
    rw [← before] at view
    have hids : k'.processes.ids = Function.update k.processes.ids c 0 := by
      rw [view]
      show ((k.called (k.entry 64)).exitTo c c').ids = _
      rw [exitTo_ids (by rw [entered.info]; exact h.here.table.processId h.top.stacked), entered.ids]
    have hinfo : ∀ r, k'.processes.info r = if r = c then ((k.processes.info c).setActive 0).setOnscreen 0
        else if r = c' then ((k.processes.info c').setActive 1).setOnscreen (k.processes.info c).isOnscreen
        else k.processes.info r := by
      intro r
      rw [view]
      show ((k.called (k.entry 64)).exitTo c c').info r = _
      rw [exitTo_info hqc.symm, entered.info]
    have hhidden : (k.processes.info c).isOnscreen = 0 := by
      by_contra hon
      exact hoc (h.shown.only c (h.here.table.used h.top.stacked) hon).symm
    have hmode : k'.cpu.mode = .user := by
      show k'.processes.cpu.mode = .user
      rw [view]
      exact h.here.contexts.callers _ y (by
        rw [hwaits.1]
        exact fun hx => hqc ((getPcbPtr_inj (h.here.table.slot_lt ⟨u, by rw [stack]; simp⟩) h.here.lt).mp hx))
          (Or.inr frame)
    refine ⟨k', hs, ⟨hafter.resolve_left ?_, hmode, hmarked, ?_, fun r hr => ?_⟩, ?_,
      congrArg Input.keys (step_input hs)⟩
    · rw [hmode]
      decide
    · refine ⟨?_, ?_, fun r hu hon => ?_⟩
      · rw [hids, Function.update_of_ne hoc]
        exact h.shown.used
      · rw [hinfo, if_neg hoc, if_neg hoq]
        exact h.shown.shown
      · rw [hids] at hu
        rw [hinfo] at hon
        split at hon
        · exact absurd rfl hon
        · next hrc =>
          split at hon
          · exact absurd hhidden hon
          · rw [Function.update_of_ne hrc] at hu
            exact h.shown.only r hu hon
    · rw [hids] at hr
      have hrc : r ≠ c := by
        rintro rfl
        exact hr (Function.update_self ..)
      rw [Function.update_of_ne hrc] at hr
      obtain ⟨v, hv⟩ := h.only r hr
      by_cases hvu : v = u
      · rw [hvu, stack] at hv
        exact stacked_update.mpr (Or.inl ((List.mem_cons.mp hv).resolve_left hrc))
      · exact stacked_update.mpr (Or.inr ⟨v, hvu, hv⟩)
    · refine Undisturbed.of h.here.lt hframes (fun r hr _ => ?_) fun r _ => ?_
      · rw [hinfo, if_neg hr]
        split
        · next hx => rw [hx]; rfl
        · rfl
      · rw [hinfo]
        split
        · next hx => rw [hx]; rfl
        · split
          · next hx => rw [hx]; rfl
          · rfl

/-- A key for a terminal without a shell starts one in the lowest free slot, as a child of the one it interrupts. -/
theorem Stage.create (boot : img.Bootable) (h : Stage k S c o) (hsc : scanCode < 256)
    (hreq : k.requests scanCode = some t) (hS : S t = []) (hp : k.processes.FirstFree p) :
    ∃ k', step img (Image.WellFormed.pointers img) k (.key (k.entry 64) scanCode) = some k' ∧
      handleKeyboard img (Image.WellFormed.pointers img) (k.interrupted (k.entry 64)) (k.entry 64) scanCode = .gone k' ∧
      Stage k' (Function.update S t [p]) p p ∧ Undisturbed k.processes k'.processes c ∧
      (k'.processes.info c).scheduleEbp = (k.processes.info c).scheduleEbp ∧
      ((k.processes.info c).scheduleEbp = (k.entry 64).handler → Parked k'.processes c) ∧
      (k'.processes.info p).parent = getPcbPtr c ∧ k'.keys = k.keys.press scanCode := by
  have hent := (entryOn_of_fits h.here (h.fits (n := 64) (by decide))).1
  have he : Entered k.processes c k.cpu (k.preempted (k.entry 64)) := entered_interrupt h.here hent
  obtain ⟨k', eip, hs, hgone, hview, hat, hkeys⟩ := key_creates boot h.here (by rw [h.mode]; decide)
    (h.fits (n := 64) (by decide)) hsc (roomToLoad_entry h.here h.roomy) hreq hS hp
  obtain ⟨S', c', hmove, -⟩ := step_follows boot h.here hs
  have hinside := h.shown.preempted (k.entry 64)
  have hids : k'.processes.ids = Function.update k.processes.ids p 1 := by
    rw [hview, ← he.ids]
    rfl
  have hold : ∀ r, k.processes.ids r ≠ 0 → r ≠ p := fun r hu hx => hu (hx ▸ hp.free)
  have hcp : c ≠ p := fun hx => h.here.table.used h.top.stacked (hx ▸ hp.free)
  have hebp : (k'.processes.info c).scheduleEbp = (k.processes.info c).scheduleEbp := by
    rw [hview, Processes.create_info, if_neg hcp, he.info]
    split <;> rfl
  refine ⟨k', hs, hgone, ⟨hat, ?_, hmove.marked h.here h.marked, ?_, fun r hr => ?_⟩, ?_, hebp, fun hhandler => ?_, ?_,
    hkeys⟩
  · show k'.processes.cpu.mode = .user
    rw [hview]
    rfl
  · rw [hview, hinside.onscreen (h.here.table.slot_lt (h.only o h.shown.used))]
    exact hinside.create
  · rw [hids] at hr
    rcases used_of_update hr with hu | rfl
    · obtain ⟨u, hu⟩ := h.only r hu
      by_cases hut : u = t
      · rw [hut, hS] at hu
        cases hu
      · exact stacked_update.mpr (Or.inr ⟨u, hut, hu⟩)
    · exact stacked_update.mpr (Or.inl (List.mem_cons_self ..))
  · refine Undisturbed.of h.here.lt (fun a ha => hmove.frames boot h.here ha hs) (fun r _ hu => ?_) fun r hu => ?_
    · rw [hview, Processes.create_info, if_neg (hold r hu), he.info]
      split <;> rfl
    · rw [hview, Processes.create_info, if_neg (hold r hu), he.info]
      split <;> rfl
  · have hne : (k.entry 64).handler ≠ (k.entry 64).regs.ebp ∧ (k.entry 64).handler ≠ (k.entry 64).frame := by
      have hroom := h.roomy
      have hc := h.here.lt
      unfold Roomy at hroom
      unfold Kernel.entry Entry.below
      simp only [stackTop, maxProcesses, eightMb, eightKb] at *
      omega
    unfold Parked
    rw [hebp, hhandler]
    refine ⟨hent.handler.1, k.cpu, ?_, h.mode⟩
    rw [hview, create_frames, Function.update_of_ne hne.2, Function.update_of_ne hne.1, preempted_frames]
    exact Function.update_self ..
  · rw [hview, Processes.create_info, if_pos rfl]
    rfl

/-- A key for a terminal with a shell shows it, and the process it interrupts goes on. -/
theorem Stage.shows (boot : img.Bootable) (h : Stage k S c o) (hsc : scanCode < 256)
    (hreq : k.requests scanCode = some t) (hS : S t = q :: l) :
    ∃ k', step img (Image.WellFormed.pointers img) k (.key (k.entry 64) scanCode) = some k' ∧
      Returned img (Image.WellFormed.pointers img) k scanCode k' ∧ Stage k' S c q ∧
      Undisturbed k.processes k'.processes c ∧ k'.keys = { k.keys.press scanCode with oldData := scanCode } := by
  have hent := (entryOn_of_fits h.here (h.fits (n := 64) (by decide))).1
  have he : Entered k.processes c k.cpu (k.preempted (k.entry 64)) := entered_interrupt h.here hent
  obtain ⟨k', k₁, hs, hret, hk', hview, hat, hkeys⟩ :=
    key_shows boot h.here (by rw [h.mode]; decide) (h.fits (n := 64) (by decide)) hsc
    (roomToLoad_entry h.here h.roomy) hreq hS
  obtain ⟨S', c', hmove, -⟩ := step_follows boot h.here hs
  have hinside := h.shown.preempted (k.entry 64)
  rw [hinside.onscreen (h.here.table.slot_lt (h.only o h.shown.used))] at hview
  have hids : k'.processes.ids = k.processes.ids := by
    rw [hview, ← he.ids]
    rfl
  have hfield : ∀ {α : Type} (field : Info → α), (∀ i b, field (i.setOnscreen b) = field i) →
      ∀ r, field (k'.processes.info r) = field (k.processes.info r) := by
    intro α field hf r
    rw [hview, ← he.info]
    exact display_field field hf
  refine ⟨k', hs, ⟨k₁, hret, hk'⟩, ⟨hat, ?_, hmove.marked h.here h.marked, ?_, ?_⟩, ?_, hkeys⟩
  · show k'.processes.cpu.mode = .user
    rw [hview]
    exact h.mode
  · rw [hview]
    refine (hinside.display ?_).resume _
    rw [he.ids]
    exact h.here.table.used (isTop_of_cons hS).stacked
  · rw [hids]
    exact h.only
  · refine Undisturbed.of h.here.lt (fun a ha => ?_) (fun r _ _ => hfield Info.scheduleEbp (fun _ _ => rfl) r)
      fun r _ => hfield Info.parent (fun _ _ => rfl) r
    rw [hview]
    exact he.there a ha

theorem Stage.types {fs : Filesystem} (h : Stage k S c o) (hsc : scanCode < 256) (hreq : k.requests scanCode = none)
    (hh : k.keys.handled scanCode = true) :
    ∃ k', step img fs k (.key (k.entry 64) scanCode) = some k' ∧ Returned img fs k scanCode k' ∧ Stage k' S c o ∧
      k'.processes.info = k.processes.info ∧ k'.entryEsp = k.entryEsp ∧
      k'.keys = { k.keys.press scanCode with oldData := scanCode } := by
  obtain ⟨k', k₁, hs, hret, hk', hview, hat, hkeys⟩ := @key_typed img fs _ _ _ _ _ h.here (by rw [h.mode]; decide)
    (h.fits (n := 64) (by decide)) hsc hreq hh
  have hmode : k'.cpu = k.cpu := by
    rw [hk']
    rfl
  have hinfo : k'.processes.info = k.processes.info := by
    rw [hview]
    rfl
  have hids : k'.processes.ids = k.processes.ids := by
    rw [hview]
    rfl
  refine ⟨k', hs, ⟨k₁, hret, hk'⟩,
    ⟨hat, by rw [hmode]; exact h.mode, h.marked.congr hinfo, h.shown.congr hids hinfo, ?_⟩, hinfo, ?_, hkeys⟩
  · rw [hids]
    exact h.only
  · have hesp0 : k'.tss.esp0 = k.tss.esp0 := congrArg Processes.esp0 hview
    unfold Kernel.entryEsp
    rw [hmode, h.mode, hesp0]

theorem Stage.prints {fs : Filesystem} (h : Stage k S c o) {b : UInt8} (hb : b ≠ 0) :
    ∃ k₁ k₂ k', step img fs k (.trap { k.cpu with mode := .kernel, esp := (k.entry 64).regs.esp }) = some k₁ ∧
      step img fs k₁ (.output b) = some k₂ ∧ step img fs k₂ (.trap k.cpu) = some k' ∧ k₁.processIds = k.processIds ∧
      k₂.processIds = k.processIds ∧ Stage k' S c o ∧ Undisturbed k.processes k'.processes c ∧ k'.keys = k.keys := by
  have hfits := h.fits (n := 64) (by decide)
  have he := entered_call h.here (k.entry 64).regs.esp
  have htrap : k.onStack (k.entry 64).regs.esp = true ∧ getPcb ((k.entry 64).regs.esp - 4) = k.current ∧
      k.current + pcbBytes ≤ (k.entry 64).regs.esp := by
    unfold Kernel.fits at hfits
    simp only [decide_eq_true_eq] at hfits
    exact ⟨hfits.2.2.1, hfits.2.2.2.2.2.2.2.1, by omega⟩
  have h₁ : step img fs k (.trap { k.cpu with mode := .kernel, esp := (k.entry 64).regs.esp }) = some
      ((k.enter (k.entry 64).regs.esp).resume { k.cpu with mode := .kernel, esp := (k.entry 64).regs.esp }) := by
    simp only [step, h.mode]
    exact if_pos htrap
  generalize hk₁ : (k.enter (k.entry 64).regs.esp).resume
    { k.cpu with mode := .kernel, esp := (k.entry 64).regs.esp } = k₁ at h₁
  have hmode₁ : k₁.cpu.mode = .kernel := by rw [← hk₁]; rfl
  have h₂ : step img fs k₁ (.output b) = some (k₁.putc b) := if_pos ⟨hmode₁, hb⟩
  have hput : (k₁.putc b).processes = k₁.processes := k₁.processes_withConsole _
  have h₃ : step img fs (k₁.putc b) (.trap k.cpu) = some ((k₁.putc b).resume k.cpu) := by
    have hmode₂ : (k₁.putc b).cpu.mode = .kernel := hmode₁
    simp only [step, hmode₂, h.mode]
  have hview : ((k₁.putc b).resume k.cpu).processes = ((k.enter (k.entry 64).regs.esp).processes).resume k.cpu := by
    show (k₁.putc b).processes.resume k.cpu = _
    rw [hput, ← hk₁]
    rfl
  have hat : At ((k₁.putc b).resume k.cpu).processes S c := by
    rw [hview]
    exact h.here.back_to (h.here.table_entered he) (h.here.contexts_entered he c)
      (h.here.shown_entered he) he.esp0 h.top
      (Or.inl h.mode)
  have hids : ((k₁.putc b).resume k.cpu).processes.ids = k.processes.ids := by
    rw [hview]
    exact he.ids
  have hinfo : ((k₁.putc b).resume k.cpu).processes.info = k.processes.info := by
    rw [hview]
    exact he.info
  refine ⟨k₁, _, _, h₁, h₂, h₃, ?_, ?_, ⟨hat, h.mode, h.marked.congr hinfo, h.shown.congr hids hinfo, ?_⟩, ?_, ?_⟩
  · rw [← hk₁]
    rfl
  · rw [← hk₁]
    rfl
  · rw [hids]
    exact h.only
  · refine Undisturbed.of h.here.lt (fun a ha => ?_) (fun r _ _ => by rw [hinfo]) fun r _ => by rw [hinfo]
    rw [hview]
    exact he.there a ha
  · rw [← hk₁]
    rfl

end Stage

/-! ## Events that are calm -/

section Calm
variable {img : Image} {fs : Filesystem} {k k' : Kernel} {S : Stacks} {c o q t scanCode : ℕ} {l : List ℕ}
  {ev : Event} {e : Entry}

theorem calm_quiet (hend : ∀ k₁ e status, ¬ Ending img fs k ev k₁ e status)
    (hexec : ∀ e command, ev ≠ .execute e command)
    (hkey : ∀ e scanCode, ev ≠ .key e scanCode) : Calm img fs k ev where
  ends k₁ e status h := absurd h (hend k₁ e status)
  loads e command _ h := absurd h (hexec e command)
  keys e scanCode h := absurd h (hkey e scanCode)

theorem calm_tick : Calm img fs k (.tick e) :=
  calm_quiet (fun _ _ _ h => by cases h) (fun _ _ h => by cases h) fun _ _ h => by cases h

theorem calm_trap {x : Cpu} : Calm img fs k (.trap x) :=
  calm_quiet (fun _ _ _ h => by cases h) (fun _ _ h => by cases h) fun _ _ h => by cases h

theorem calm_output {b : UInt8} : Calm img fs k (.output b) :=
  calm_quiet (fun _ _ _ h => by cases h) (fun _ _ h => by cases h) fun _ _ h => by cases h

theorem calm_execute {command : List UInt8} (hgone : execute img fs (k.enter e.regs.esp) e k.cpu command = .gone k') :
    Calm img fs k (.execute e command) where
  ends k₁ e' status h := absurd hgone h.not_gone
  loads e' command' k₁ h hf := by
    cases h
    cases hgone.symm.trans hf
  keys e' scanCode h := by cases h

theorem Stage.current (h : Stage k S c o) : k.pcb k.current = k.slot c := by
  rw [current_eq h.here]
  rfl

theorem Stage.onscreen (h : Stage k S c o) (hoc : o ≠ c) : (k.pcb k.current).terminalInfo.isOnscreen = 0 := by
  by_contra hon
  rw [h.current, ← Pcb.info_isOnscreen, ← k.processes_info h.here.lt] at hon
  exact hoc (h.shown.only c (h.here.table.used h.top.stacked) hon).symm

theorem Stage.calm_key (h : Stage k S c o)
    (hpage : o = c → k.pageTblVmem (tableIdx vmemAddr) = pageTableEntry video 1) :
    Calm img fs k (.key e scanCode) where
  ends k₁ e' status hend := by cases hend
  loads e' command k₁ hx := by cases hx
  keys e' scanCode' _ := ⟨by rw [h.mode]; decide, fun hon => hpage (not_not.mp fun hoc => hon (h.onscreen hoc))⟩

theorem Stage.calm_halt {status : ℕ} (h : Stage k S c o) (hS : S t = c :: q :: l) (hoc : o ≠ c)
    (hchild : ∀ p, Stacked S p → (k.processes.info p).parent ≠ getPcbPtr c) : Calm img fs k (.halt e status) where
  ends k₁ e' status' _ := by
    refine ⟨?_, h.onscreen hoc, fun p hp hu => ?_⟩
    · have hcalls := h.here.table.calls t
      rw [hS] at hcalls
      rw [h.current, ← Pcb.info_parent, ← k.processes_info h.here.lt, (List.isChain_cons_cons.mp hcalls).1]
      exact getPcbPtr_ne_zero (h.here.table.slot_lt ⟨t, by rw [hS]; simp⟩)
    · rw [current_eq h.here, ← Pcb.info_parent, ← k.processes_info hp]
      exact hchild p (h.only p hu)
  loads e' command k₁ hx := by cases hx
  keys e' scanCode hx := by cases hx

end Calm

/-! ## Three terminals on the small image -/

def stacksOf (l₀ l₁ l₂ : List ℕ) : Stacks := fun t => if t = 0 then l₀ else if t = 1 then l₁
    else if t = 2 then l₂ else []

section StacksOf
variable {l₀ l₁ l₂ l : List ℕ} {p : ℕ}

theorem firstStacks_eq : firstStacks = stacksOf [0] [] [] := by
  funext t
  unfold firstStacks stacksOf
  split_ifs <;> rfl

theorem update_stacksOf_zero : Function.update (stacksOf l₀ l₁ l₂) 0 l = stacksOf l l₁ l₂ := by
  funext t
  unfold stacksOf
  by_cases ht : t = 0
  · rw [ht, Function.update_self, if_pos rfl]
  · rw [Function.update_of_ne ht, if_neg ht, if_neg ht]

theorem update_stacksOf_one : Function.update (stacksOf l₀ l₁ l₂) 1 l = stacksOf l₀ l l₂ := by
  funext t
  unfold stacksOf
  by_cases ht : t = 1
  · rw [ht, Function.update_self, if_neg (by decide), if_pos rfl]
  · rw [Function.update_of_ne ht, if_neg ht, if_neg ht]

theorem update_stacksOf_two : Function.update (stacksOf l₀ l₁ l₂) 2 l = stacksOf l₀ l₁ l := by
  funext t
  unfold stacksOf
  by_cases ht : t = 2
  · rw [ht, Function.update_self, if_neg (by decide), if_neg (by decide), if_pos rfl]
  · rw [Function.update_of_ne ht, if_neg ht, if_neg ht]

theorem stacked_stacksOf : Stacked (stacksOf l₀ l₁ l₂) p ↔ p ∈ l₀ ∨ p ∈ l₁ ∨ p ∈ l₂ := by
  constructor
  · rintro ⟨t, ht⟩
    unfold stacksOf at ht
    split_ifs at ht
    · exact Or.inl ht
    · exact Or.inr (Or.inl ht)
    · exact Or.inr (Or.inr ht)
    · cases ht
  · rintro (h | h | h)
    exacts [⟨0, h⟩, ⟨1, h⟩, ⟨2, h⟩]

theorem isTop_stacksOf : IsTop (stacksOf l₀ l₁ l₂) p ↔ l₀.head? = some p ∨ l₁.head? = some p ∨ l₂.head? = some p := by
  constructor
  · rintro ⟨t, ht⟩
    unfold stacksOf at ht
    split_ifs at ht
    · exact Or.inl ht
    · exact Or.inr (Or.inl ht)
    · exact Or.inr (Or.inr ht)
    · cases ht
  · rintro (h | h | h)
    exacts [⟨0, h⟩, ⟨1, h⟩, ⟨2, h⟩]

instance : DecidablePred (IsTop (stacksOf l₀ l₁ l₂)) := fun _ => decidable_of_iff _ isTop_stacksOf.symm

instance : DecidablePred (Stacked (stacksOf l₀ l₁ l₂)) := fun _ => decidable_of_iff _ stacked_stacksOf.symm

end StacksOf

theorem started_stage {img : Image} {fs : Filesystem} {k : Kernel} (h : Started img fs k) (hm : k.cpu.mode = .user) :
    Stage k (stacksOf [0] [] []) 0 0 := by
  refine ⟨firstStacks_eq ▸ started_at h, hm, started_marked h, started_onlyShown h, fun p hu => ?_⟩
  obtain ⟨k₀, e, eip, hb, -, -, -, -, hview⟩ := started_start h
  rw [hview] at hu
  rcases used_of_update hu with hu | rfl
  · exact absurd (hb.processIds p) hu
  · exact ⟨0, List.mem_cons_self ..⟩

/-- Alt and F2 open terminal 2, counted from 1, beside the first shell. -/
structure OpensSecond (img : Image) (k k₁ k₂ : Kernel) : Prop where
  held : step img (Image.WellFormed.pointers img) k (.key (k.entry 64) 0x38) = some k₁
  opened : step img (Image.WellFormed.pointers img) k₁ (.key (k₁.entry 64) 0x3C) = some k₂
  alt : k.requests 0x38 = none
  request : k₁.requests 0x3C = some 1
  returned : Returned img (Image.WellFormed.pointers img) k 0x38 k₁
  gone : handleKeyboard img (Image.WellFormed.pointers img) (k₁.interrupted (k₁.entry 64)) (k₁.entry 64) 0x3C = .gone k₂
  first : Stage k₁ (stacksOf [0] [] []) 0 0
  second : Stage k₂ (stacksOf [0] [1] []) 1 1
  entryEsp : k₁.entryEsp = k.entryEsp
  ebp : (k₂.processes.info 0).scheduleEbp = (k.processes.info 0).scheduleEbp
  parks : (k.processes.info 0).scheduleEbp = (k.entry 64).handler → Parked k₂.processes 0
  creator : (k₂.processes.info 1).parent = getPcbPtr 0
  pressed : k₂.keys = ⟨0x38, 0, 0, 1, 0, 3⟩

theorem Stage.opens_second {img : Image} {k : Kernel} (boot : img.Bootable) (h : Stage k (stacksOf [0] [] []) 0 0)
    (hkeys : k.keys = ⟨0, 0, 0, 0, 0, 3⟩) : ∃ k₁ k₂, OpensSecond img k k₁ k₂ := by
  have halt : k.requests 0x38 = none := by
    unfold Kernel.requests
    rw [hkeys]
    decide
  obtain ⟨k₁, hs₁, hret, h₁, hinfo, hesp, hkeys₁⟩ := @Stage.types img k _ 0 0 0x38 (Image.WellFormed.pointers img) h
    (by decide) halt (by rw [hkeys]; decide)
  have hentry : k₁.entry 64 = k.entry 64 := by
    unfold Kernel.entry
    rw [hesp]
  have hreq : k₁.requests 0x3C = some 1 := by
    unfold Kernel.requests
    rw [hkeys₁, hkeys]
    decide
  obtain ⟨k₂, hs₂, hgone, h₂, -, hebp, hparks, hparent, hkeys₂⟩ := h₁.create boot (by decide) hreq rfl
    (h₁.firstFree (p := 1) (by decide) (by decide) (by decide))
  rw [update_stacksOf_one] at h₂
  rw [hinfo] at hebp hparks
  rw [hentry] at hparks
  refine ⟨k₁, k₂, hs₁, hs₂, halt, hreq, hret, hgone, h₁, h₂, hesp, hebp, hparks, hparent, ?_⟩
  rw [hkeys₂, hkeys₁, hkeys]
  decide

/-- What the first tick and the Alt key leave: the saved EBP is that of the next handler, and the video page is
mapped. -/
theorem firstShell_prepared :
    ((step Image.small (Image.WellFormed.pointers Image.small) firstShell (.tick (firstShell.entry 0))).bind
    fun a => (step Image.small (Image.WellFormed.pointers Image.small) a (.key (a.entry 64) 0x38)).map fun b =>
      decide (a.pageTblVmem (tableIdx vmemAddr) = pageTableEntry video 1 ∧
        b.pageTblVmem (tableIdx vmemAddr) = pageTableEntry video 1 ∧
        (a.processes.info 0).scheduleEbp = (a.entry 64).handler)) = some true := by
  decide +kernel

/-- Two terminals: a tick, Alt and F2, and a tick back to the first shell. -/
structure SecondTerminal (a b c k : Kernel) : Prop extends OpensSecond Image.small a b c where
  ticked : step Image.small (Image.WellFormed.pointers Image.small) firstShell (.tick (firstShell.entry 0)) = some a
  back : step Image.small (Image.WellFormed.pointers Image.small) c (.tick (c.entry 0)) = some k
  alone : Stage a (stacksOf [0] [] []) 0 0
  stage : Stage k (stacksOf [0] [1] []) 0 1
  parked : Parked k.processes 1
  parent : (k.processes.info 1).parent = getPcbPtr 0
  keys : k.keys = ⟨0x38, 0, 0, 1, 0, 3⟩

theorem firstShell_stage : Stage firstShell (stacksOf [0] [] []) 0 0 :=
  started_stage firstShell_started firstShell_waits.1

theorem second_terminal_opens : ∃ a b c k, SecondTerminal a b c k := by
  obtain ⟨a, hsa, ha, -, -, hkeysa⟩ := @Stage.tick Image.small firstShell _ 0 0 0 firstShell_stage
    (firstAfter_iff_head.mp (by decide)) fun hne => absurd rfl hne
  obtain ⟨b, c, h⟩ := ha.opens_second Image.small_bootable (hkeysa.trans firstShell_waits.2)
  have hprepared := firstShell_prepared
  rw [hsa, Option.bind_some, h.held, Option.map_some, Option.some.injEq, decide_eq_true_eq] at hprepared
  obtain ⟨d, hsd, hd, hundisturbed, hparkedd, hkeysd⟩ := @Stage.tick Image.small c _ 1 1 0 h.second
    (firstAfter_iff_head.mp (by decide)) fun _ => h.parks hprepared.2.2
  refine ⟨a, b, c, d, h, hsa, hsd, ha, hd, hparkedd, ?_, hkeysd.trans h.pressed⟩
  rw [hundisturbed.parent 1 (h.second.used.mpr (by decide)), h.creator]

theorem SecondTerminal.reaches {a b c k : Kernel} (h : SecondTerminal a b c k) :
    Reaches (step Image.small (Image.WellFormed.pointers Image.small))
      (Calm Image.small (Image.WellFormed.pointers Image.small)) firstShell k := by
  have hprepared := firstShell_prepared
  rw [h.ticked, Option.bind_some, h.held, Option.map_some, Option.some.injEq, decide_eq_true_eq] at hprepared
  obtain ⟨hpagea, hpageb, -⟩ := hprepared
  refine Reaches.tail ?_ calm_tick h.back
  refine Reaches.tail ?_ (h.first.calm_key fun _ => hpageb) h.opened
  refine Reaches.tail ?_ (h.alone.calm_key fun _ => hpagea) h.held
  exact Reaches.single calm_tick h.ticked

theorem second_terminal : ∃ k, Reaches (step Image.small (Image.WellFormed.pointers Image.small))
      (Calm Image.small (Image.WellFormed.pointers Image.small)) firstShell k ∧ Stage k (stacksOf [0] [1] []) 0 1 ∧
    Parked k.processes 1 ∧ (k.processes.info 1).parent = getPcbPtr 0 ∧ k.keys = ⟨0x38, 0, 0, 1, 0, 3⟩ := by
  obtain ⟨a, b, c, k, h⟩ := second_terminal_opens
  exact ⟨k, h.reaches, h.stage, h.parked, h.parent, h.keys⟩

/-- The first shell prints off screen, the second one gets the processor, a key shows the terminal of the first, and a
tick goes on with it. -/
theorem SecondTerminal.shown {a b c k : Kernel} (h : SecondTerminal a b c k) {x : UInt8}
    (hx : x ≠ 0) : ∃ k₁ k₂ k₃ d e s,
    step Image.small (Image.WellFormed.pointers Image.small) k
      (.trap { k.cpu with mode := .kernel, esp := (k.entry 64).regs.esp }) =
      some k₁ ∧
    step Image.small (Image.WellFormed.pointers Image.small) k₁ (.output x) = some k₂ ∧
    step Image.small (Image.WellFormed.pointers Image.small) k₂ (.trap k.cpu) = some k₃ ∧
    step Image.small (Image.WellFormed.pointers Image.small) k₃ (.tick (k₃.entry 0)) = some d ∧
    step Image.small (Image.WellFormed.pointers Image.small) d (.key (d.entry 64) 0x3B) = some e ∧
    step Image.small (Image.WellFormed.pointers Image.small) e (.tick (e.entry 0)) = some s ∧
    Stage d (stacksOf [0] [1] []) 1 1 ∧ d.requests 0x3B = some 0 ∧ Stage s (stacksOf [0] [1] []) 0 0 := by
  have hu : ∀ {S : Stacks} {c o p : ℕ} {s : Kernel}, Stage s S c o → Stacked S p → s.processes.ids p ≠ 0 :=
    fun hs => hs.used.mpr
  obtain ⟨k₁, k₂, k₃, hs₁, hs₂, hs₃, -, -, h₃, hd₃, hkeys₃⟩ := @Stage.prints Image.small k _ 0 1
    (Image.WellFormed.pointers Image.small) h.stage x hx
  have hparked₃ := hd₃.parked 1 (by decide) (by decide) (hu h.stage (by decide)) h.parked
  obtain ⟨d, hs₄, h₄, hd₄, hparked₄, hkeys₄⟩ :=
    @Stage.tick Image.small k₃ _ 0 1 1 h₃ (firstAfter_iff_head.mp (by decide))
    fun _ => hparked₃
  have hreq : d.requests 0x3B = some 0 := by
    unfold Kernel.requests
    rw [hkeys₄, hkeys₃, h.keys]
    decide
  obtain ⟨e, hs₅, -, h₅, hd₅, -⟩ := h₄.shows Image.small_bootable (by decide) hreq rfl
  have hparked₅ := hd₅.parked 0 (by decide) (by decide) (hu h₄ (by decide)) hparked₄
  obtain ⟨s, hs₆, h₆, -⟩ := @Stage.tick Image.small e _ 1 0 0 h₅ (firstAfter_iff_head.mp (by decide)) fun _ => hparked₅
  exact ⟨k₁, k₂, k₃, d, e, s, hs₁, hs₂, hs₃, hs₄, hs₅, hs₆, h₄, hreq, h₆⟩

section Interlude
variable {img : Image} {k k₁ : Kernel}

/-- A shell above the first one is stopped by a tick, comes back and prints a letter. -/
theorem Stage.life (h₁ : Stage k₁ (stacksOf [2, 0] [1] []) 2 1) (hparked : Parked k₁.processes 1) :
    ∃ k₂ k₆, step img (Image.WellFormed.pointers img) k₁ (.tick (k₁.entry 0)) = some k₂ ∧
      Stage k₂ (stacksOf [2, 0] [1] []) 1 1 ∧
      Reaches (step img (Image.WellFormed.pointers img))
        (fun s ev => s.inUse 2 ∧ Calm img (Image.WellFormed.pointers img) s ev) k₂ k₆ ∧
      Stage k₆ (stacksOf [2, 0] [1] []) 2 1 ∧ Parked k₆.processes 1 ∧
      (k₆.processes.info 1).parent = (k₁.processes.info 1).parent ∧ k₆.keys = k₁.keys := by
  have hu : ∀ {s : Kernel} {c : ℕ}, Stage s (stacksOf [2, 0] [1] []) c 1 → s.inUse 2 :=
    fun hs => hs.used.mpr (by decide)
  have hu' : ∀ {s : Kernel} {c : ℕ}, Stage s (stacksOf [2, 0] [1] []) c 1 → s.processes.ids 1 ≠ 0 := fun hs =>
    hs.used.mpr (by decide)
  obtain ⟨k₂, hs₂, h₂, hd₂, hpark₂, hkeys₂⟩ :=
    @Stage.tick img k₁ _ 2 1 1 h₁ (firstAfter_iff_head.mp (by decide)) fun _ => hparked
  obtain ⟨k₃, hs₃, h₃, hd₃, hpark₃, hkeys₃⟩ :=
    @Stage.tick img k₂ _ 1 1 2 h₂ (firstAfter_iff_head.mp (by decide)) fun _ => hpark₂
  obtain ⟨k₄, k₅, k₆, hs₄, hs₅, hs₆, hids₄, hids₅, h₆, hd₆, hkeys₆⟩ := @Stage.prints img k₃ _ 2 1
    (Image.WellFormed.pointers img) h₃ 0x61 (by decide)
  have hu₄ : k₄.inUse 2 := by
    unfold Kernel.inUse
    rw [hids₄]
    exact hu h₃
  have hu₅ : k₅.inUse 2 := by
    unfold Kernel.inUse
    rw [hids₅]
    exact hu h₃
  refine ⟨k₂, k₆, hs₂, h₂, ?_, h₆, ?_, ?_, ?_⟩
  · refine Reaches.tail ?_ ⟨hu₅, calm_trap⟩ hs₆
    refine Reaches.tail ?_ ⟨hu₄, calm_output⟩ hs₅
    refine Reaches.tail ?_ ⟨hu h₃, calm_trap⟩ hs₄
    exact Reaches.single ⟨hu h₂, calm_tick⟩ hs₃
  · exact hd₆.parked 1 (by decide) (by decide) (hu' h₃) hpark₃
  · rw [hd₆.parent 1 (hu' h₃), hd₃.parent 1 (hu' h₂), hd₂.parent 1 (hu' h₁)]
  · rw [hkeys₆, hkeys₃, hkeys₂]

theorem Stage.calls (boot : img.Bootable) (h : Stage k (stacksOf [0] [1] []) 0 1) (hparked : Parked k.processes 1) :
    ∃ k₁, step img (Image.WellFormed.pointers img) k (.execute (k.entry 64) shell) = some k₁ ∧
      Kernel391.execute img (Image.WellFormed.pointers img) (k.enter (k.entry 64).regs.esp)
        (k.entry 64) k.cpu shell = .gone k₁ ∧
      Stage k₁ (stacksOf [2, 0] [1] []) 2 1 ∧ Parked k₁.processes 1 ∧
      (k₁.processes.info 1).parent = (k.processes.info 1).parent ∧ k₁.keys = k.keys := by
  obtain ⟨k₁, hs₁, hgone, h₁, hd₁, hkeys₁⟩ := h.execute boot (t := 0) rfl (by decide)
    (h.firstFree (p := 2) (by decide) (by decide) (by decide))
  rw [update_stacksOf_zero] at h₁
  have hu : k.processes.ids 1 ≠ 0 := h.used.mpr (by decide)
  exact ⟨k₁, hs₁, hgone, h₁, hd₁.parked 1 (by decide) (by decide) hu hparked, hd₁.parent 1 hu, hkeys₁⟩

theorem Stage.returns (boot : img.Bootable) (h : Stage k (stacksOf [2, 0] [1] []) 2 1)
    (hparked : Parked k.processes 1) :
    ∃ k', step img (Image.WellFormed.pointers img) k (.halt (k.entry 64) 0) = some k' ∧
      Stage k' (stacksOf [0] [1] []) 0 1 ∧
      Parked k'.processes 1 ∧ k'.keys = k.keys := by
  obtain ⟨k', hs, h', hd, hkeys⟩ := h.halt boot (t := 0) rfl (by decide) (by decide)
  rw [update_stacksOf_zero] at h'
  exact ⟨k', hs, h', hd.parked 1 (by decide) (by decide) (h.used.mpr (by decide)) hparked, hkeys⟩

/-- While the first shell waits, none but its child names it as the parent in its terminal. -/
theorem Stage.childless (h : Stage k (stacksOf [2, 0] [1] []) 2 1)
    (hparent : (k.processes.info 1).parent = getPcbPtr 0) :
    ∀ p, Stacked (stacksOf [2, 0] [1] []) p → (k.processes.info p).parent ≠ getPcbPtr 2 := by
  intro p hp
  have hcalls := h.here.table.calls 0
  have hzero : (k.processes.info 0).parent = 0 := h.here.table.root
  have hcases : (p = 2 ∨ p = 0) ∨ p = 1 := by simpa using stacked_stacksOf.mp hp
  rcases hcases with (rfl | rfl) | rfl
  · rw [(List.isChain_cons_cons.mp hcalls).1]
    decide
  · rw [hzero]
    exact (getPcbPtr_ne_zero (by decide)).symm
  · rw [hparent]
    decide

end Interlude

/-- Three terminals with a shell each, after a shell started in the first one has come and gone and another one runs
there. -/
theorem three_terminals : ∃ k, Reaches (step Image.small (Image.WellFormed.pointers Image.small))
      (Calm Image.small (Image.WellFormed.pointers Image.small)) firstShell k ∧ Stage k (stacksOf [2, 0] [1] [3]) 3 3 ∧
    Parked k.processes 1 := by
  obtain ⟨k, hrun, h, hparked, hparent, hkeys⟩ := second_terminal
  obtain ⟨k₁, hs₁, hgone, h₁, hparked₁, hparent₁, hkeys₁⟩ := h.calls Image.small_bootable hparked
  obtain ⟨k₂, k₆, hs₂, -, hlife, h₆, hparked₆, hparent₆, hkeys₆⟩ := h₁.life hparked₁
  obtain ⟨k₇, hs₇, h₇, hparked₇, hkeys₇⟩ := h₆.returns Image.small_bootable hparked₆
  obtain ⟨k₈, hs₈, hgone₈, h₈, hparked₈, -, hkeys₈⟩ := h₇.calls Image.small_bootable hparked₇
  have hreq : k₈.requests 0x3D = some 2 := by
    unfold Kernel.requests
    rw [hkeys₈, hkeys₇, hkeys₆, hkeys₁, hkeys]
    decide
  obtain ⟨k₉, hs₉, -, h₉, hd₉, -⟩ := h₈.create Image.small_bootable (by decide) hreq rfl
    (h₈.firstFree (p := 3) (by decide) (by decide) (by decide))
  rw [update_stacksOf_two] at h₉
  refine ⟨k₉, ?_, h₉, hd₉.parked 1 (by decide) (by decide) (h₈.used.mpr (by decide)) hparked₈⟩
  refine Reaches.tail ?_ (h₈.calm_key fun hx => absurd hx (by decide)) hs₉
  refine Reaches.tail ?_ (calm_execute hgone₈) hs₈
  refine Reaches.tail ?_ (h₆.calm_halt (t := 0) rfl (by decide)
    (h₆.childless (hparent₆.trans (hparent₁.trans hparent)))) hs₇
  refine Reaches.trans ?_ (hlife.mono fun _ _ hok => hok.2)
  refine Reaches.tail ?_ calm_tick hs₂
  exact hrun.tail (calm_execute hgone) hs₁

end Kernel391
