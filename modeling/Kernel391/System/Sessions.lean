import Kernel391.System.CallReturn
import Kernel391.System.DisplayOwner
import Kernel391.System.RoundRobin

/-! The kernel as the programs see it: on each terminal the calls of `execute` that have not returned, the slots
that are taken, and the one that has the processor. Every run of the kernel is a run of these, until control is lost. -/
namespace Kernel391
open Kernel391.Foundations
set_option autoImplicit false

/-! ## The sessions -/

/-- What is going on: the programs of each terminal, each waiting for the one in front of it. -/
structure Sessions where
  calls : ℕ → List ℕ
  taken : ℕ → Bool
  running : ℕ

inductive SessionEvent
  | idle
  | tick
  /-- A terminal gets its shell. -/
  | openShell (terminal : ℕ)
  | call
  /-- The program on the processor ends. With `lost` a slot was taken for a program that could not be loaded. -/
  | finish (lost : Bool)
  deriving DecidableEq

namespace Sessions
variable (s : Sessions)

/-- The programs that do not wait for another. -/
def Front (p : ℕ) : Prop := ∃ t < 3, (s.calls t).head? = some p

instance : DecidablePred s.Front := fun _ => inferInstanceAs (Decidable (∃ t < 3, _))

def freeSlot : Option ℕ := (List.range maxProcesses).find? fun p => !s.taken p

/-- The terminal of the program on the processor. -/
def terminal : Option ℕ := (List.range 3).find? fun t => (s.calls t).head? = some s.running

def next : Option ℕ := (round maxProcesses s.Front s.running maxProcesses).head?

/-- A program starts in the lowest free slot. -/
def start (t : ℕ) : Option Sessions := s.freeSlot.map fun p =>
  { calls := Function.update s.calls t (p :: s.calls t), taken := Function.update s.taken p true, running := p }

def loseSlot : Option Sessions := s.freeSlot.map fun p => { s with taken := Function.update s.taken p true }

/-- The end of the program on the processor: the shell of terminal 0 starts again, and the last program of another
terminal leaves the processor with nothing to do. -/
def leave (t : ℕ) : Option Sessions :=
  match s.calls t with
  | [] => none
  | [c] =>
    if t = 0 then some s
    else some { s with calls := Function.update s.calls t [], taken := Function.update s.taken c false }
  | c :: q :: l =>
    some { calls := Function.update s.calls t (q :: l), taken := Function.update s.taken c false, running := q }

def step : SessionEvent → Option Sessions
  | .idle => some s
  | .tick => s.next.map fun q => { s with running := q }
  | .openShell t => if t < 3 ∧ s.calls t = [] then s.start t else none
  | .call => s.terminal.bind s.start
  | .finish lost => (if lost then s.loseSlot else some s).bind fun s' => s'.terminal.bind s'.leave

def first : Sessions where
  calls t := if t = 0 then [0] else []
  taken p := p = 0
  running := 0

end Sessions

/-! ## What the kernel has of them -/

/-- The process table, the saved contexts and the processor are those of the sessions. -/
structure Kernel.Represents (k : Kernel) (s : Sessions) : Prop where
  at_ : At k.processes s.calls s.running
  taken : ∀ p < maxProcesses, s.taken p = true ↔ k.inUse p

/-- The event of the sessions for an event of the kernel. -/
inductive Means : Event → SessionEvent → Prop
  | tick (e : Entry) : Means (.tick e) .tick
  | key (e : Entry) (scanCode : ℕ) : Means (.key e scanCode) .idle
  | openShell (e : Entry) (scanCode t : ℕ) : Means (.key e scanCode) (.openShell t)
  | refused (e : Entry) (command : List UInt8) : Means (.execute e command) .idle
  | call (e : Entry) (command : List UInt8) : Means (.execute e command) .call
  | fault (e : Entry) (command : List UInt8) (lost : Bool) : Means (.execute e command) (.finish lost)
  | halt (e : Entry) (status : ℕ) : Means (.halt e status) (.finish false)
  | exception (e : Entry) (vector : ℕ) : Means (.exception e vector) (.finish false)
  | output (c : UInt8) : Means (.output c) .idle
  | trap (c : Cpu) : Means (.trap c) .idle
  | work (w : Work) : Means (.work w) .idle

section Step
variable {img : Image} {fs : Filesystem} {k k' : Kernel} {s : Sessions} {t p q c : ℕ} {l : List ℕ} {ev : Event}

theorem front_iff (h : k.Represents s) : s.Front p ↔ IsTop s.calls p := by
  constructor
  · rintro ⟨t, -, ht⟩
    exact ⟨t, ht⟩
  · rintro ⟨t, ht⟩
    exact ⟨t, (h.at_.table.lt t p (List.mem_of_head? ht)).1, ht⟩

theorem freeSlot_eq (h : k.Represents s) (hp : k.processes.FirstFree p) : s.freeSlot = some p := by
  have hfree : s.taken p = false := Bool.eq_false_iff.mpr fun ht => (h.taken p hp.lt).mp ht hp.free
  unfold Sessions.freeSlot
  rw [List.find?_range_eq_some]
  refine ⟨by rw [hfree]; rfl, List.mem_range.mpr hp.lt, fun q hq => ?_⟩
  have htaken : s.taken q = true := (h.taken q (hq.trans hp.lt)).mpr (hp.least q hq)
  rw [htaken]
  rfl

theorem terminal_running (h : k.Represents s) (ht : s.calls t = s.running :: l) : s.terminal = some t := by
  have hmem : s.running ∈ s.calls t := by
    rw [ht]
    exact List.mem_cons_self
  unfold Sessions.terminal
  rw [List.find?_range_eq_some]
  refine ⟨by rw [ht]; simp, List.mem_range.mpr (h.at_.table.lt t s.running hmem).1, fun u hu => ?_⟩
  simp only [Bool.not_eq_true', decide_eq_false_iff_not]
  intro hhead
  have hsame := h.at_.table.apart.disjoint (List.mem_of_head? hhead) hmem
  omega

theorem Sessions.leave_back (h : s.calls t = c :: q :: l) :
    s.leave t = some ⟨Function.update s.calls t (q :: l), Function.update s.taken c false, q⟩ := by
  unfold Sessions.leave
  simp only [h]

theorem Sessions.leave_first (h : s.calls 0 = [c]) : s.leave 0 = some s := by
  unfold Sessions.leave
  simp only [h, if_true]

theorem Sessions.leave_last (h : s.calls t = [c]) (ht : t ≠ 0) :
    s.leave t = some ⟨Function.update s.calls t [], Function.update s.taken c false, s.running⟩ := by
  unfold Sessions.leave
  simp only [h, if_neg ht]

theorem taken_update {ids : ℕ → ℕ} {taken : ℕ → Bool} {v : ℕ} {b : Bool}
    (h : ∀ q < maxProcesses, taken q = true ↔ ids q ≠ 0)
    (hv : b = true ↔ v ≠ 0) (hids : k'.processIds = Function.update ids p v) :
    ∀ q < maxProcesses, Function.update taken p b q = true ↔ k'.inUse q := by
  intro q hq
  unfold Kernel.inUse
  rw [hids]
  by_cases hqp : q = p
  · rw [hqp, Function.update_self, Function.update_self]
    exact hv
  · rw [Function.update_of_ne hqp, Function.update_of_ne hqp]
    exact h q hq

theorem start_represents (h : k.Represents s) (hp : k.processes.FirstFree p)
    (hids : k'.processIds = Function.update k.processIds p 1)
    (hat : At k'.processes (Function.update s.calls t (p :: s.calls t)) p) : ∃ s', s.start t = some s' ∧
      k'.Represents s' := by
  refine ⟨_, by unfold Sessions.start; rw [freeSlot_eq h hp]; rfl, hat, ?_⟩
  exact taken_update h.taken (iff_of_true rfl Nat.one_ne_zero) hids

theorem lost_slot (h : k.Represents s) {k₁ : Kernel} {e : Entry} {status : ℕ} {o : Option ℕ}
    (hend : Ending img fs k ev k₁ e status)
    (hids : (k.called e).ids = k.processIds) (hbefore : k₁.processes = (k.called e).leaked o)
    (hleak : ∀ p ∈ o, k.processes.FirstFree p) :
    ∃ lost s₁, Means ev (.finish lost) ∧ (if lost then s.loseSlot else some s) = some s₁ ∧ s₁.calls = s.calls ∧
      s₁.running = s.running ∧ ∀ q < maxProcesses, s₁.taken q = true ↔ ((k.called e).leaked o).ids q ≠ 0 := by
  cases o with
  | none =>
    refine ⟨false, s, ?_, rfl, rfl, rfl, fun q hq => ?_⟩
    · cases hend with
      | halt => exact .halt _ _
      | exception => exact .exception _ _
      | fault => exact .fault _ _ _
    · rw [h.taken q hq]
      unfold Processes.leaked Kernel.inUse
      rw [hids]
  | some p =>
    have hp := hleak p rfl
    have hfree : k.processIds p = 0 := hp.free
    have hone : k₁.processIds p = 1 := by
      have hat := congrFun (congrArg Processes.ids hbefore) p
      exact hat.trans (Function.update_self _ _ _)
    cases hend with
    | halt =>
      rw [show (k.enter e.regs.esp).processIds p = k.processIds p from rfl, hfree] at hone
      cases hone
    | exception e vector =>
      have hsame := congrFun (congrArg Processes.ids (announce_processes (k.enter e.regs.esp) vector)) p
      rw [show ((k.enter e.regs.esp).announce vector).processIds p = k.processIds p from hsame, hfree] at hone
      cases hone
    | fault =>
      refine ⟨true, { s with taken := Function.update s.taken p true }, .fault _ _ _, ?_, rfl, rfl, fun q hq => ?_⟩
      · rw [if_pos rfl]
        unfold Sessions.loseSlot
        rw [freeSlot_eq h hp]
        rfl
      · show Function.update s.taken p true q = true ↔ Function.update (k.called e).ids p 1 q ≠ 0
        rw [hids]
        by_cases hqp : q = p
        · rw [hqp, Function.update_self, Function.update_self]
          exact iff_of_true rfl Nat.one_ne_zero
        · rw [Function.update_of_ne hqp, Function.update_of_ne hqp]
          exact h.taken q hq

theorem terminal_congr {s₁ : Sessions} (hcalls : s₁.calls = s.calls) (hrunning : s₁.running = s.running) :
    s₁.terminal = s.terminal := by
  unfold Sessions.terminal
  rw [hcalls, hrunning]

theorem finish_step (h : k.Represents s) {s₁ s' : Sessions} {lost : Bool} (stack : s.calls t = s.running :: l)
    (hlost : (if lost then s.loseSlot else some s) = some s₁) (hcalls : s₁.calls = s.calls)
    (hrunning : s₁.running = s.running)
    (hleave : s₁.leave t = some s') : s.step (.finish lost) = some s' := by
  unfold Sessions.step
  simp only [hlost, Option.bind_some]
  rw [terminal_congr hcalls hrunning, terminal_running h stack, Option.bind_some, hleave]

/-- **Every event of the kernel** is one of the sessions, unless control is lost. -/
theorem step_represents (boot : img.Bootable) (h : k.Represents s) (hM : Marked k.processes)
    (hs : Kernel391.step img (Image.WellFormed.pointers img) k ev = some k') :
    k'.cpu.mode = .wild ∨ ∃ a s', Means ev a ∧ s.step a = some s' ∧ k'.Represents s' ∧ Marked k'.processes := by
  obtain ⟨S', c', hmove, hafter⟩ := step_follows boot h.at_ hs
  have hmarked := hmove.marked h.at_ hM
  rcases hafter with hwild | hat
  · exact Or.inl hwild
  by_cases hwild : k'.cpu.mode = .wild
  · exact Or.inl hwild
  refine Or.inr ?_
  suffices hgoal : ∃ a s', Means ev a ∧ s.step a = some s' ∧ k'.Represents s' by
    obtain ⟨a, s', hmeans, hstep, hrep⟩ := hgoal
    exact ⟨a, s', hmeans, hstep, hrep, hmarked⟩
  cases hmove with
  | stay uneventful ids info _ =>
    have hids : k'.processIds = k.processIds := ids
    refine ⟨.idle, s, ?_, rfl, hat, fun p hp => ?_⟩
    · cases ev with
      | tick e => exact absurd rfl (uneventful.tick e)
      | key e scanCode => exact .key e scanCode
      | execute e command => exact .refused e command
      | halt e status => exact absurd (Ending.halt e status) (uneventful.going _ _ _)
      | exception e vector => exact absurd (Ending.exception e vector) (uneventful.going _ _ _)
      | output c => exact .output c
      | trap c => exact .trap c
      | work w => exact .work w
    · unfold Kernel.inUse
      rw [hids]
      exact h.taken p hp
  | tick entered top next gone view =>
    have hq := h.at_.table.slot_lt top.stacked
    have hfirst := (findNextActivePcb_firstAfter hM h.at_.lt hq).mp next
    have hfront : FirstAfter maxProcesses s.Front s.running c' :=
      hfirst.congr fun p hp => (h.at_.runs_iff hp).trans (front_iff h).symm
    have hids : k'.processIds = k.processIds := by
      have hview := congrArg Processes.ids view
      rw [switchTo_ids] at hview
      exact hview.trans entered.ids
    refine ⟨.tick, { s with running := c' }, .tick _, ?_, hat, fun p hp => ?_⟩
    · unfold Sessions.step Sessions.next
      simp only
      rw [firstAfter_iff_head.mpr hfront]
      rfl
    · unfold Kernel.inUse
      rw [hids]
      exact h.taken p hp
  | display entered request stack ret resume view =>
    have hids : k'.processIds = k.processIds := (congrArg Processes.ids view).trans entered.ids
    refine ⟨.idle, s, .key _ _, rfl, hat, fun p hp => ?_⟩
    unfold Kernel.inUse
    rw [hids]
    exact h.taken p hp
  | @create e scanCode t p eip entered entry request stack slot gone view =>
    have hids : k'.processIds = Function.update k.processIds c' 1 :=
      (congrArg Processes.ids view).trans (congrArg (fun ids => Function.update ids c' 1) entered.ids)
    have hsingle : [c'] = c' :: s.calls t := by rw [stack]
    rw [hsingle] at hat
    obtain ⟨s', hstart, hrep⟩ := start_represents h slot hids hat
    refine ⟨.openShell t, s', .openShell _ _ _, ?_, hrep⟩
    unfold Sessions.step
    simp only
    rw [if_pos ⟨Kernel.requests_lt request, stack⟩]
    exact hstart
  | @push e command t p eip l entered entry stack slot gone view =>
    have hids : k'.processIds = Function.update k.processIds c' 1 :=
      (congrArg Processes.ids view).trans (congrArg (fun ids => Function.update ids c' 1) entered.ids)
    rw [← stack] at hat
    obtain ⟨s', hstart, hrep⟩ := start_represents h slot hids hat
    refine ⟨.call, s', .call _ _, ?_, hrep⟩
    unfold Sessions.step
    simp only
    rw [terminal_running h stack]
    exact hstart
  | @pop ev e status t q l k₁ o y entered ending before leak stack frame gone view =>
    obtain ⟨lost, s₁, hmeans, hlost, hcalls, hrunning, htaken⟩ := lost_slot h ending entered.ids before leak
    have hid : (((k.called e).leaked o).info s.running).processId = s.running := by
      rw [leaked_info, entered.info]
      exact h.at_.table.processId ⟨t, by rw [stack]; exact List.mem_cons_self⟩
    have hids : k'.processIds = Function.update ((k.called e).leaked o).ids s.running 0 :=
      (congrArg Processes.ids view).trans (exitTo_ids hid)
    have hleave := Sessions.leave_back (hcalls ▸ stack : s₁.calls t = s.running :: c' :: l)
    rw [hcalls] at hleave
    exact ⟨.finish lost, _, hmeans, finish_step h stack hlost hcalls hrunning hleave, hat,
      taken_update htaken (iff_of_false Bool.false_ne_true fun hv => hv rfl) hids⟩
  | @restart ev e status eip k₁ o entered ending before leak stack gone view =>
    obtain ⟨lost, s₁, hmeans, hlost, hcalls, hrunning, htaken⟩ := lost_slot h ending entered.ids before leak
    have hzero : s.running = 0 := by
      have hfirst := h.at_.table.first
      rwa [stack, List.getLast?_singleton, Option.some.injEq] at hfirst
    have hids : k'.processIds = Function.update ((k.called e).leaked o).ids 0 1 := by
      have hview : k'.processIds = Function.update (Function.update ((k.called e).leaked o).ids s.running 0) 0 1 :=
        congrArg Processes.ids view
      rw [hview, hzero, Function.update_idem]
    have hused : s₁.taken 0 = true := by
      refine (htaken 0 (by decide)).mpr (leaked_used (P := k.called e) ?_ o)
      rw [entered.ids]
      exact h.at_.table.used ⟨0, by rw [stack, hzero]; exact List.mem_cons_self⟩
    have hleave := Sessions.leave_first (hcalls ▸ stack : s₁.calls 0 = [s.running])
    refine ⟨.finish lost, s₁, hmeans, finish_step h stack hlost hcalls hrunning hleave, ?_, fun q hq => ?_⟩
    · rw [hcalls, hrunning]
      exact hat
    · unfold Kernel.inUse
      rw [hids]
      by_cases hq0 : q = 0
      · rw [hq0, Function.update_self]
        exact iff_of_true hused Nat.one_ne_zero
      · rw [Function.update_of_ne hq0]
        exact htaken q hq
  | @close ev e status t q y l k₁ o x entered ending before leak stack other parent elsewhere first spin gone view =>
    obtain ⟨lost, s₁, hmeans, hlost, hcalls, hrunning, htaken⟩ := lost_slot h ending entered.ids before leak
    have hids : k'.processIds = Function.update ((k.called e).leaked o).ids s.running 0 := congrArg Processes.ids view
    have hleave := Sessions.leave_last (hcalls ▸ stack : s₁.calls t = [s.running]) other
    rw [hcalls, hrunning] at hleave
    exact ⟨.finish lost, _, hmeans, finish_step h stack hlost hcalls hrunning hleave, hat,
      taken_update htaken (iff_of_false Bool.false_ne_true fun hv => hv rfl) hids⟩
  | lost entered ending before leak stack other parent same gone view wild => exact absurd wild hwild

end Step

/-! ## Whole runs -/

theorem started_represents {img : Image} {fs : Filesystem} {k : Kernel} (h : Started img fs k) :
    k.Represents Sessions.first := by
  obtain ⟨k₀, e, eip, hb, -, -, -, -, hview⟩ := started_start h
  refine ⟨started_at h, fun p hp => ?_⟩
  have hids : k.processIds = Function.update k₀.processIds 0 1 := congrArg Processes.ids hview
  unfold Kernel.inUse Sessions.first
  simp only [decide_eq_true_eq, hids]
  by_cases hp0 : p = 0
  · rw [hp0, Function.update_self]
    exact iff_of_true rfl Nat.one_ne_zero
  · rw [Function.update_of_ne hp0, hb.processIds p]
    exact iff_of_false hp0 fun h => h rfl

theorem represents_run {img : Image} (boot : img.Bootable) {k₀ k : Kernel} {s₀ : Sessions} {es : List Event}
    (h : k₀.Represents s₀) (hM : Marked k₀.processes)
    (hrun : runEvents (step img (Image.WellFormed.pointers img)) k₀ es = some k) :
    k.cpu.mode = .wild ∨ ∃ acts s, List.Forall₂ Means es acts ∧ runEvents Sessions.step s₀ acts = some s ∧
      k.Represents s := by
  have hfollows := @runEvents_follows _ _ _ _ _ Sessions.step (fun k s => k.Represents s ∧ Marked k.processes) Means
    (fun k => k.cpu.mode = .wild) (fun k ev hk => step_wild hk) ?_ _ _ _ _ ⟨h, hM⟩ hrun
  · rcases hfollows with hw | ⟨acts, s, hmeans, hacts, hrep, -⟩
    · exact Or.inl hw
    · exact Or.inr ⟨acts, s, hmeans, hacts, hrep⟩
  · rintro k s ev u ⟨hrep, hmarked⟩ hs
    rcases step_represents boot hrep hmarked hs with hw | ⟨a, s', hmeans, hstep, hrep', hmarked'⟩
    · exact Or.inl hw
    · exact Or.inr ⟨a, s', hmeans, hstep, hrep', hmarked'⟩

/-- **Every run of the kernel is a run of the sessions**, event by event, until control is lost. -/
theorem runs_refine (img : Image) (boot : img.Bootable) {k₀ k : Kernel} {es : List Event}
    (h0 : Started img (Image.WellFormed.pointers img) k₀)
    (hrun : runEvents (step img (Image.WellFormed.pointers img)) k₀ es = some k) :
    k.cpu.mode = .wild ∨ ∃ acts s, List.Forall₂ Means es acts ∧ runEvents Sessions.step Sessions.first acts = some s ∧
      k.Represents s :=
  represents_run boot (started_represents h0) (started_marked h0) hrun

theorem runs_refine_call : (firstShell.executes shell).kernel.cpu.mode = .wild ∨ ∃ acts s,
    List.Forall₂ Means [.execute (firstShell.entry 64) shell] acts ∧
      runEvents Sessions.step Sessions.first acts = some s ∧
      (firstShell.executes shell).kernel.Represents s := by
  obtain ⟨hcall, -⟩ := firstShell_calls
  exact runs_refine Image.small Image.small_bootable firstShell_started (by simp only [runEvents, hcall])

end Kernel391
