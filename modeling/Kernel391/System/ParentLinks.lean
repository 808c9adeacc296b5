import Kernel391.Foundations.Forests
import Kernel391.Foundations.Ghosts
import Kernel391.System.Isolation
import Kernel391.System.SlotReuse

/-! The parent links. A process is told that its parent is the one that had the processor when it was started; nothing
keeps that process alive afterwards, and the last loop of `halt` runs on a slot that is already free. -/
namespace Kernel391
open Kernel391.Foundations
set_option autoImplicit false

/-! ## The processes an event starts -/

namespace Kernel
variable (img : Image) (fs : Filesystem) (k : Kernel)

/-- The end of the root process starts it again. -/
def restarts : Option ℕ := if (k.pcb k.current).parent = 0 then some 0 else none

/-- The slot in which an event starts a process. -/
def startsIn : Event → Option ℕ
  | .key _ scanCode =>
    match k.requests scanCode with
    | some t => if k.findTerminalPid t = none then k.getProcessId.map Prod.fst else none
    | none => none
  | .execute e command =>
    match execute img fs (k.enter e.regs.esp) e k.cpu command with
    | .ret _ _ => none
    | .gone _ => k.getProcessId.map Prod.fst
    | .fault _ => k.restarts
  | .halt _ _ => k.restarts
  | .exception _ _ => k.restarts
  | _ => none

end Kernel

/-- The record of the processes started, each by the one on the processor. -/
def recordStart (img : Image) (fs : Filesystem) (k : Kernel) (ev : Event) (r : Record ℕ) : Record ℕ :=
  match k.startsIn img fs ev with
  | some p => r.add p (slotOf k.current)
  | none => r

/-- No process ends while another one in use has it as its parent, no terminal is opened from the last loop of `halt`,
and no program fails to load with a slot taken for it. -/
structure KeepsParents (img : Image) (fs : Filesystem) (k : Kernel) (ev : Event) : Prop where
  childless : ∀ k₁ e status, Ending img fs k ev k₁ e status → ∀ p < maxProcesses, k.inUse p →
    (k.slot p).parent ≠ k.current
  opened : ∀ e scanCode t, ev = .key e scanCode → k.requests scanCode = some t → k.findTerminalPid t = none →
    k.cpu.mode ≠ .spin
  loaded : ∀ e command k₁, ev = .execute e command → execute img fs (k.enter e.regs.esp) e k.cpu command = .fault k₁ →
    k₁.processIds = k.processIds

/-- The parent links of the processes in use, with the record of how they came to be. -/
structure ParentsValid (k : Kernel) (r : Record ℕ) : Prop where
  parent : ∀ p < maxProcesses, p ≠ 0 → k.inUse p → ∃ q < maxProcesses, (k.slot p).parent = getPcbPtr q ∧
    k.processIds q = 1 ∧ q ≠ p ∧ r.number q = r.creator p
  root : ∀ p < maxProcesses, k.inUse p → ∃ n, (fun p => slotOf (k.slot p).parent)^[n] p = 0

namespace Processes
variable (P : Processes)

def Alive (p : ℕ) : Prop := p < maxProcesses ∧ P.ids p ≠ 0

def ChildOf (p q : ℕ) : Prop := q < maxProcesses ∧ (P.info p).parent = getPcbPtr q

structure Family (r : Record ℕ) : Prop where
  linked : Linked 0 P.Alive P.ChildOf r
  bit : ∀ p, P.ids p = 0 ∨ P.ids p = 1

end Processes

section Family
variable {P P' : Processes} {r : Record ℕ} {c s : ℕ}

theorem bit_update {f : ℕ → ℕ} (h : ∀ p, f p = 0 ∨ f p = 1) {v : ℕ} (hv : v = 0 ∨ v = 1) (s : ℕ) :
    ∀ p, Function.update f s v p = 0 ∨ Function.update f s v p = 1 := by
  intro p
  by_cases hp : p = s
  · rw [hp, Function.update_self]
    exact hv
  · rw [Function.update_of_ne hp]
    exact h p

theorem Processes.Family.congr (h : P.Family r) (hids : P'.ids = P.ids)
    (hparent : ∀ p, (P'.info p).parent = (P.info p).parent) : P'.Family r where
  linked := by
    refine h.linked.survive (fun p hp => ?_) (fun p q _ hq => ?_) fun p q _ _ hq _ => ?_
    · exact ⟨hp.1, by rw [← hids]; exact hp.2⟩
    · exact ⟨hq.1, (hparent p).trans hq.2⟩
    · exact ⟨hq.1, by rw [hids]; exact hq.2⟩
  bit := by
    rw [hids]
    exact h.bit

theorem Processes.Family.remove (h : P.Family r) (hids : P'.ids = Function.update P.ids c 0)
    (hparent : ∀ p, (P'.info p).parent = (P.info p).parent)
    (hchild : ∀ p < maxProcesses, P.ids p ≠ 0 → (P.info p).parent ≠ getPcbPtr c) : P'.Family r where
  linked := by
    have hold : ∀ p, P'.ids p ≠ 0 → P.ids p ≠ 0 := by
      intro p hp
      rw [hids] at hp
      by_cases hpc : p = c
      · rw [hpc, Function.update_self] at hp
        exact absurd rfl hp
      · rwa [Function.update_of_ne hpc] at hp
    refine h.linked.survive (fun p hp => ⟨hp.1, hold p hp.2⟩) (fun p q _ hq => ?_) fun p q hp _ hq hpq => ⟨hq.1, ?_⟩
    · exact ⟨hq.1, (hparent p).trans hq.2⟩
    · have hqc : q ≠ c := by
        rintro rfl
        exact hchild p hp.1 (hold p hp.2) hpq.2
      rw [hids, Function.update_of_ne hqc]
      exact hq.2
  bit := by
    rw [hids]
    exact bit_update h.bit (Or.inl rfl) c

theorem Processes.Family.start (h : P.Family r) (hids : P'.ids = Function.update P.ids s 1) (hs : P.ids s = 0)
    (hparent : ∀ p, p ≠ s → (P'.info p).parent = (P.info p).parent) (hnew : (P'.info s).parent = getPcbPtr c)
    (hc : c < maxProcesses) (hused : P.ids c ≠ 0) : P'.Family (r.add s c) where
  linked := by
    have hsame : ∀ p, p ≠ s → P'.ids p = P.ids p := fun p hp => by rw [hids, Function.update_of_ne hp]
    have hfree : ∀ {q}, P.ids q ≠ 0 → q ≠ s := by
      rintro q hq rfl
      exact hq hs
    refine h.linked.add (fun p hp hps => ⟨hp.1, ?_⟩) (fun p q _ hps hq => ?_) (fun p q _ _ _ hq _ => ?_) fun _ => ?_
    · rw [← hsame p hps]
      exact hp.2
    · exact ⟨hq.1, (hparent p hps).trans hq.2⟩
    · refine ⟨hfree hq.2, hq.1, ?_⟩
      rw [hsame q (hfree hq.2)]
      exact hq.2
    · refine ⟨⟨hc, hnew⟩, ⟨hc, hused⟩, hfree hused, hc, ?_⟩
      rw [hsame c (hfree hused)]
      exact hused
  bit := by
    rw [hids]
    exact bit_update h.bit (Or.inr rfl) s

theorem Processes.Family.restart (h : P.Family r) (hids : P'.ids = P.ids)
    (hparent : ∀ p, p ≠ 0 → (P'.info p).parent = (P.info p).parent)
    (hchild : ∀ p < maxProcesses, P.ids p ≠ 0 → (P.info p).parent ≠ getPcbPtr 0) : P'.Family (r.add 0 c) where
  linked := by
    refine h.linked.add (fun p hp _ => ⟨hp.1, ?_⟩) (fun p q _ hp0 hq => ?_) (fun p q hp _ _ hq hpq => ?_) fun h0 =>
      absurd rfl h0
    · rw [← hids]
      exact hp.2
    · exact ⟨hq.1, (hparent p hp0).trans hq.2⟩
    · refine ⟨?_, hq.1, ?_⟩
      · rintro rfl
        exact hchild p hp.1 (by rw [← hids]; exact hp.2) hpq.2
      · rw [hids]
        exact hq.2
  bit := by
    rw [hids]
    exact h.bit

end Family

/-! ## Moves -/

section Moves
variable {img : Image} {fs : Filesystem} {k k' k₁ : Kernel} {S S' : Stacks} {c c' p t status : ℕ}
  {ev : Event} {e : Entry}
  {o : Option ℕ} {r : Record ℕ}

theorem slotOf_current (h : At k.processes S c) : slotOf k.current = c := by
  rw [current_eq h, slotOf_getPcbPtr h.lt]

theorem leaked_none (hok : KeepsParents img fs k ev) (ending : Ending img fs k ev k₁ e status)
    (before : k₁.processes = (k.called e).leaked o) (leak : ∀ p ∈ o, k.processes.FirstFree p) : o = none := by
  have hids : k₁.processIds = k.processIds := by
    cases ending with
    | halt => rfl
    | exception => rfl
    | fault hf =>
      have hsame := hok.loaded _ _ _ rfl hf
      exact hsame
  cases o with
  | none => rfl
  | some p =>
    have hp := congrFun (congrArg Processes.ids before) p
    rw [show k₁.processes.ids = k.processes.ids from hids, (leak p rfl).free] at hp
    have hone : ((k.called e).leaked (some p)).ids p = 1 := Function.update_self p 1 _
    rw [hone] at hp
    cases hp

theorem startsIn_ending (h : Ending img fs k ev k₁ e status) : k.startsIn img fs ev = k.restarts := by
  cases h with
  | halt => rfl
  | exception => rfl
  | fault hf =>
    unfold Kernel.startsIn
    simp only [hf]

theorem startsIn_uneventful (h : At k.processes S c) (quiet : Uneventful img fs k S ev) :
    k.startsIn img fs ev = none := by
  unfold Kernel.startsIn
  cases ev with
  | key e scanCode =>
    cases hreq : k.requests scanCode with
    | none => simp only [hreq]
    | some t =>
      obtain ⟨hS, hfull⟩ := quiet.key e scanCode t rfl hreq
      have hnone : k.getProcessId = none := Kernel.getProcessId_none.mpr hfull
      simp only [hreq, findTerminalPid_of_nil h hS, if_true, hnone, Option.map_none]
  | execute e command =>
    cases ho : execute img fs (k.enter e.regs.esp) e k.cpu command with
    | ret x k₁ => simp only [ho]
    | gone k₁ => exact absurd ho (quiet.execute e command k₁ rfl)
    | fault k₁ => exact absurd (Ending.fault ho) (quiet.going _ _ _)
  | halt e status => exact absurd (Ending.halt e status) (quiet.going _ _ _)
  | exception e vector => exact absurd (Ending.exception e vector) (quiet.going _ _ _)
  | _ => rfl

theorem restarts_none {y : ℕ} (h : At k.processes S c) (hy : y < maxProcesses)
    (hpar : (k.processes.info c).parent = getPcbPtr y) : k.restarts = none := by
  rw [k.processes_info h.lt, Pcb.info_parent] at hpar
  unfold Kernel.restarts
  rw [current_eq h]
  refine if_neg ?_
  unfold Kernel.slot at hpar
  rw [hpar]
  exact getPcbPtr_ne_zero hy

theorem recordStart_none (h : k.startsIn img fs ev = none) : recordStart img fs k ev r = r := by
  unfold recordStart
  rw [h]

theorem recordStart_some (h : At k.processes S c) (hs : k.startsIn img fs ev = some p) :
    recordStart img fs k ev r = r.add p c := by
  unfold recordStart
  rw [hs]
  exact congrArg (r.add p) (slotOf_current h)

/-- **An admitted event** keeps the forest. -/
theorem Move.family (m : Move img fs k S c k' ev S' c') (h : At k.processes S c) (hok : KeepsParents img fs k ev)
    (hf : k.processes.Family r) : k'.processes.Family (recordStart img fs k ev r) := by
  have hchild : ∀ {k₁ e status}, Ending img fs k ev k₁ e status → ∀ p < maxProcesses, k.processes.ids p ≠ 0 →
      (k.processes.info p).parent ≠ getPcbPtr c := by
    intro k₁ e status hend p hp hu
    rw [k.processes_info hp, Pcb.info_parent, ← current_eq h]
    exact hok.childless k₁ e status hend p hp hu
  have hcalls : ∀ {t q l}, S t = c :: q :: l → q < maxProcesses ∧ (k.processes.info c).parent = getPcbPtr q := by
    intro t q l hS
    have hpar := h.table.calls t
    rw [hS, List.isChain_cons_cons] at hpar
    exact ⟨(h.table.lt t q (by rw [hS]; exact List.mem_cons_of_mem _ (List.mem_cons_self ..))).2, hpar.1⟩
  have hexit : ∀ {P₀ : Processes} {q : ℕ}, Entered k.processes c k.cpu P₀ → Stacked S c →
      (∀ p < maxProcesses, k.processes.ids p ≠ 0 → (k.processes.info p).parent ≠ getPcbPtr c) →
      (P₀.exitTo c q).Family r := by
    intro P₀ q he hs hnone
    refine hf.remove ?_ (fun p => ?_) hnone
    · rw [exitTo_ids (by rw [he.info]; exact h.table.processId hs), he.ids]
    · rw [(exitTo_kept p).parent, he.info]
  have hstacked : ∀ {t l}, S t = c :: l → Stacked S c := fun hS => ⟨_, by rw [hS]; exact List.mem_cons_self ..⟩
  cases m with
  | stay quiet ids info _ =>
    rw [recordStart_none (startsIn_uneventful h quiet)]
    exact hf.congr ids fun p => by rw [info]
  | tick entered top next gone view =>
    rw [recordStart_none rfl, view]
    refine hf.congr ((switchTo_ids _ _ _ _).trans entered.ids) fun p => ?_
    rw [switchTo_info, (setInfo_kept (saveRegs_kept _) c p).parent, entered.info]
  | @display e scanCode t q l k₁ entered request stack ret resume view =>
    have hstart : k.startsIn img fs (.key e scanCode) = none := by
      unfold Kernel.startsIn
      simp only [request, findTerminalPid_of_cons h stack, reduceCtorEq, if_false]
    rw [recordStart_none hstart, view]
    refine hf.congr entered.ids fun p => ?_
    exact (display_kept p).parent.trans (by rw [entered.info])
  | @create e scanCode t p eip entered entry request stack slot gone view =>
    have hfind := findTerminalPid_of_nil h stack
    have hstart : k.startsIn img fs (.key e scanCode) = some c' := by
      unfold Kernel.startsIn
      simp only [request, hfind, if_true, getProcessId_of_firstFree slot]
    have htop := h.isTop (hok.opened e scanCode t rfl request hfind)
    rw [recordStart_some h hstart, view]
    refine hf.start ?_ slot.free (fun p hp => ?_) ?_ h.lt (h.table.used htop.stacked)
    · rw [← entered.ids]
      rfl
    · rw [(create_kept hp).parent, entered.info]
    · rw [Processes.create_info, if_pos rfl]
      rfl
  | @push e command t p eip l entered entry stack slot gone view =>
    have hstart : k.startsIn img fs (.execute e command) = some c' := by
      unfold Kernel.startsIn
      simp only [gone, getProcessId_of_firstFree slot]
    have hne : c' ≠ c := by
      rintro rfl
      exact h.table.firstFree slot (hstacked stack)
    rw [recordStart_some h hstart, view]
    refine hf.start ?_ slot.free (fun p hp => ?_) ?_ h.lt (h.table.used (hstacked stack))
    · rw [← entered.ids]
      rfl
    · rw [(push_kept hne hp).parent, entered.info]
    · rw [Processes.push_info _ hne, if_pos rfl]
      rfl
  | pop entered ending before leak stack frame gone view =>
    obtain rfl := leaked_none hok ending before leak
    obtain ⟨hq, hpar⟩ := hcalls stack
    rw [recordStart_none ((startsIn_ending ending).trans (restarts_none h hq hpar)), view]
    exact (hexit entered (hstacked stack) (hchild ending)).congr rfl fun _ => rfl
  | restart entered ending before leak stack gone view =>
    obtain rfl := leaked_none hok ending before leak
    obtain rfl : c = 0 := by
      have hfirst := h.table.first
      rw [stack, List.getLast?_singleton, Option.some.injEq] at hfirst
      exact hfirst
    have hstart : k.startsIn img fs ev = some 0 := by
      have hroot := h.table.root
      rw [k.processes_info h.lt, Pcb.info_parent] at hroot
      rw [startsIn_ending ending]
      unfold Kernel.restarts
      rw [current_eq h]
      exact if_pos hroot
    have hone : k.processes.ids 0 = 1 := (hf.bit 0).resolve_left (h.table.used (hstacked stack))
    rw [recordStart_some h hstart, view]
    refine hf.restart ?_ (fun p hp => ?_) (hchild ending)
    · show Function.update (Function.update (k.called _).ids 0 0) 0 1 = _
      rw [Function.update_idem, entered.ids, ← hone, Function.update_eq_self]
    · rw [(restart_kept hp).parent]
      exact congrArg (fun i : ℕ → Info => (i p).parent) entered.info
  | close entered ending before leak stack other parent elsewhere first spin gone view =>
    obtain rfl := leaked_none hok ending before leak
    rw [recordStart_none ((startsIn_ending ending).trans (restarts_none h parent.1 parent.2)), view]
    refine hf.remove ?_ (fun p => ?_) (hchild ending)
    · rw [← entered.ids]
      rfl
    · refine (exitToSpin_kept p).parent.trans ?_
      exact congrArg (fun i : ℕ → Info => (i p).parent) entered.info
  | lost entered ending before leak stack other parent same gone view wild =>
    obtain rfl := leaked_none hok ending before leak
    rw [recordStart_none ((startsIn_ending ending).trans (restarts_none h parent.1 parent.2)), view]
    exact (hexit entered (hstacked stack) (hchild ending)).congr (haltProcess_ids _ _ _) fun _ => by
      rw [haltProcess_info]; rfl

end Moves

/-! ## Runs -/

section Runs
variable {img : Image} {fs : Filesystem} {k : Kernel} {r : Record ℕ}

theorem started_family (h : Started img fs k) : k.processes.Family Record.first := by
  obtain ⟨k₀, e, eip, hb, -, -, -, -, hview⟩ := started_start h
  have hids : k.processes.ids = Function.update (fun _ => 0) 0 1 := by
    rw [hview]
    show Function.update k₀.processIds 0 1 = _
    rw [show k₀.processIds = fun _ => 0 from funext hb.processIds]
  have hzero : ∀ p, k.processes.ids p ≠ 0 → p = 0 := by
    intro p hp
    by_contra hne
    rw [hids, Function.update_of_ne hne] at hp
    exact hp rfl
  refine ⟨⟨fun p hp hp0 => absurd (hzero p hp.2) hp0, fun p _ => Nat.one_pos⟩, ?_⟩
  rw [hids]
  exact bit_update (fun _ => Or.inl rfl) (Or.inr rfl) 0

theorem Processes.Family.valid (h : k.processes.Family r) : ParentsValid k r where
  parent p hp hp0 hu := by
    obtain ⟨q, hq, hlive, hcreator, hlt⟩ := h.linked.link p ⟨hp, hu⟩ hp0
    have hpar := hq.2
    rw [k.processes_info hp, Pcb.info_parent] at hpar
    refine ⟨q, hq.1, hpar, (h.bit q).resolve_left hlive.2, ?_, hcreator⟩
    rintro rfl
    exact Nat.lt_irrefl _ hlt
  root p hp hu := by
    refine h.linked.reaches_root (fun p q hpq => ?_) ⟨hp, hu⟩
    have hpar := hpq.2
    by_cases hlt : p < maxProcesses
    · rw [k.processes_info hlt, Pcb.info_parent] at hpar
      rw [hpar, slotOf_getPcbPtr hpq.1]
    · rw [show k.processes.info p = Info.blank from if_neg hlt] at hpar
      exact absurd hpar.symm (getPcbPtr_ne_zero hpq.1)

end Runs

/-- **The parent of a process is alive**, the one that started it, and the way up ends at process 0, in every run in
which no process ends before those that have it as their parent, the last loop of `halt` opens no terminal, and no
program fails to load. -/
theorem parent_links_valid (img : Image) (boot : img.Bootable) {k₀ : Kernel} {s : Ghosted Kernel (Record ℕ)}
    (h0 : Started img (Image.WellFormed.pointers img) k₀)
    (h : Reaches
      (ghostStep (step img (Image.WellFormed.pointers img)) (recordStart img (Image.WellFormed.pointers img)))
      (fun s ev => KeepsParents img (Image.WellFormed.pointers img) s.state ev) ⟨k₀, Record.first⟩ s) :
    ParentsValid s.state s.ghost := by
  have hinv : s.state.processes.Family s.ghost ∧ (s.state.cpu.mode = .wild ∨ ∃ S c, At s.state.processes S c) := by
    refine h.invariant (P := fun s => s.state.processes.Family s.ghost ∧ (s.state.cpu.mode = .wild ∨
      ∃ S c, At s.state.processes S c)) ⟨started_family h0, Or.inr ⟨_, _, started_at h0⟩⟩ ?_
    rintro s ev u ⟨hf, hw | ⟨S, c, hat⟩⟩ hok hs
    · have hstep := (ghostStep_some hs).1
      rw [step_wild hw] at hstep
      cases hstep
    · obtain ⟨hstep, hghost⟩ := ghostStep_some hs
      obtain ⟨S', c', hmove, hat'⟩ := step_follows boot hat hstep
      rw [hghost]
      exact ⟨hmove.family hat hok hf, hat'.imp_right fun hat' => ⟨S', c', hat'⟩⟩
  exact hinv.1.valid

/-- Three terminals: the shells of two of them are children of shells in the first, which has one waiting for
another. -/
theorem parent_links_valid_three : ∃ s : Ghosted Kernel (Record ℕ),
    Reaches (ghostStep (step Image.small (Image.WellFormed.pointers Image.small))
      (recordStart Image.small (Image.WellFormed.pointers Image.small)))
      (fun s ev => KeepsParents Image.small (Image.WellFormed.pointers Image.small) s.state ev)
        ⟨firstShell, Record.first⟩ s ∧
    Stage s.state (stacksOf [2, 0] [1] [3]) 3 3 ∧ ParentsValid s.state s.ghost := by
  obtain ⟨k, hrun, h, -⟩ := three_terminals
  have hkeeps : Reaches _ (KeepsParents Image.small (Image.WellFormed.pointers Image.small)) _ _ :=
    hrun.mono fun s ev hcalm =>
    ⟨fun k₁ e status hend => (hcalm.ends k₁ e status hend).2.2, fun e scanCode t hev _ _ =>
      (hcalm.keys e scanCode hev).1,
      fun e command k₁ hev hf => absurd hf (hcalm.loads e command k₁ hev)⟩
  obtain ⟨r, hrecorded⟩ :=
    @Reaches.ghosted _ _ _ _ (recordStart Image.small (Image.WellFormed.pointers Image.small)) _ _ _ hkeeps
    Record.first
  exact ⟨⟨k, r⟩, hrecorded, h, parent_links_valid Image.small Image.small_bootable firstShell_started hrecorded⟩

/-- Not in every run: a terminal opened twice from the last loop of `halt` has a shell that is its own parent. -/
theorem parent_links_invalid :
    ¬ ∀ (img : Image), img.Bootable → ∀ k₀ (s : Ghosted Kernel (Record ℕ)),
      Started img (Image.WellFormed.pointers img) k₀ →
      Reaches (ghostStep (step img (Image.WellFormed.pointers img))
        (recordStart img (Image.WellFormed.pointers img))) anyStep
        ⟨k₀, Record.first⟩ s → ParentsValid s.state s.ghost := by
  intro hall
  obtain ⟨k, e, k', hreach, hs, -, -, hused, hparent⟩ := slot_handed_out_running
  obtain ⟨r, hrun⟩ := @Reaches.ghosted _ _ _ _ (recordStart Image.small (Image.WellFormed.pointers Image.small)) _ _ _
    (hreach.tail trivial hs) Record.first
  obtain ⟨q, hq, hptr, -, hne, -⟩ :=
    (hall Image.small Image.small_bootable firstShell ⟨k', r⟩ firstShell_started hrun).parent 1
    (by decide) (by decide) hused
  exact hne ((getPcbPtr_inj hq (by decide)).mp (hptr.symm.trans hparent))

end Kernel391
