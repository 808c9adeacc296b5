import Kernel391.System.CalmRuns

/-! Round robin. Between a start or an end of a process and the next, the ticks go round the active processes in the
order of their slots. -/
namespace Kernel391
open Kernel391.Foundations
set_option autoImplicit false

/-! ## The ticks of a run -/

/-- A run in which no process starts or ends, with the slots its ticks select. -/
inductive Selects (img : Image) (fs : Filesystem) : Kernel → List ℕ → Kernel → Prop
  | nil (k : Kernel) : Selects img fs k [] k
  | tick {k k₁ k' : Kernel} {e : Entry} {q : ℕ} {qs : List ℕ} (happens : step img fs k (.tick e) = some k₁)
    (lt : q < maxProcesses)
    (chosen : k.findNextActivePcb k.current = some (getPcbPtr q)) (rest : Selects img fs k₁ qs k') :
    Selects img fs k (q :: qs) k'
  | other {k k₁ k' : Kernel} {ev : Event} {qs : List ℕ} (happens : step img fs k ev = some k₁)
    (quiet : ∀ e, ev ≠ .tick e)
    (starts : k₁.processIds = k.processIds) (ends : Going img fs k ev) (rest : Selects img fs k₁ qs k') :
    Selects img fs k qs k'

def Kernel.running (k : Kernel) : List ℕ := (List.range maxProcesses).filter k.Runs

section Ticks
variable {img : Image} {fs : Filesystem} {k k' : Kernel} {S S' : Stacks} {c c' : ℕ} {ev : Event} {qs : List ℕ}

/-- Without a start or an end, and without a tick, the stacks and the process on the processor stay. -/
theorem Move.quiet (m : Move img fs k S c k' ev S' c') (hquiet : ∀ e, ev ≠ .tick e)
    (hids : k'.processIds = k.processIds)
    (hgoing : Going img fs k ev) : S' = S ∧ c' = c := by
  have htaken : ∀ {P P₀ : Processes} {p : ℕ}, k.processes.FirstFree p → P₀.ids = k.processes.ids → k'.processes = P →
      P.ids = Function.update P₀.ids p 1 → False := by
    intro P P₀ p hfree hentered hview htake
    have hp : k'.processIds p = 1 := by
      show k'.processes.ids p = 1
      rw [hview, htake, Function.update_self]
    rw [hids] at hp
    exact absurd (hp.symm.trans hfree.free) (by decide)
  cases m with
  | stay => exact ⟨rfl, rfl⟩
  | tick => exact absurd rfl (hquiet _)
  | display => exact ⟨rfl, rfl⟩
  | create entered entry request stack slot gone view => exact (htaken slot entered.ids view rfl).elim
  | push entered entry stack slot gone view => exact (htaken slot entered.ids view rfl).elim
  | pop entered ending => exact absurd ending (hgoing _ _ _)
  | restart entered ending => exact absurd ending (hgoing _ _ _)
  | close entered ending => exact absurd ending (hgoing _ _ _)
  | lost entered ending => exact absurd ending (hgoing _ _ _)

theorem Selects.wild (h : Selects img fs k qs k') (hw : k.cpu.mode = .wild) : qs = [] := by
  cases h with
  | nil => rfl
  | tick happens =>
    rw [step_wild hw] at happens
    cases happens
  | other happens =>
    rw [step_wild hw] at happens
    cases happens

theorem Selects.steps {k : Kernel} (boot : img.Bootable) (h : Selects img (Image.WellFormed.pointers img) k qs k')
    (hat : At k.processes S c) (hM : Marked k.processes) : (c :: qs).IsChain (FirstAfter maxProcesses (IsTop S)) := by
  induction h generalizing c with
  | nil => exact List.isChain_singleton c
  | @tick k k₁ k' e q qs happens lt chosen rest ih =>
    rw [current_eq hat] at chosen
    have hnext := (findNextActivePcb_firstAfter hM hat.lt lt).mp chosen
    refine List.isChain_cons_cons.mpr ⟨hnext.congr fun p hp => hat.runs_iff hp, ?_⟩
    obtain ⟨S', c', hmove, hafter⟩ := step_follows boot hat happens
    have hM' := hmove.marked hat hM
    cases hmove with
    | stay uneventful => exact absurd rfl (uneventful.tick e)
    | tick entered top next gone view =>
      obtain rfl : q = c' :=
        (getPcbPtr_inj lt (hat.table.slot_lt top.stacked)).mp (Option.some.inj (chosen.symm.trans next))
      rcases hafter with hw | hat'
      · rw [rest.wild hw]
        exact List.isChain_singleton q
      · exact ih hat' hM'
    | pop entered ending => cases ending
    | restart entered ending => cases ending
    | close entered ending => cases ending
    | lost entered ending => cases ending
  | other happens quiet starts ends rest ih =>
    obtain ⟨S', c', hmove, hafter⟩ := step_follows boot hat happens
    have hM' := hmove.marked hat hM
    obtain ⟨rfl, rfl⟩ := hmove.quiet quiet starts ends
    rcases hafter with hw | hat'
    · rw [rest.wild hw]
      exact List.isChain_singleton c'
    · exact ih hat' hM'

end Ticks

/-! ## Round robin -/

/-- The choice and the rounds from a state. -/
structure RoundRobin (img : Image) (fs : Filesystem) (k : Kernel) : Prop where
  slot : ∀ c < maxProcesses, ∀ a, k.findNextActivePcb (getPcbPtr c) = some a → ∃ q < maxProcesses, a = getPcbPtr q
  first : ∀ c < maxProcesses, ∀ q < maxProcesses, k.findNextActivePcb (getPcbPtr c) = some (getPcbPtr q) ↔
    FirstAfter maxProcesses k.Runs c q
  alone : ∀ c < maxProcesses, k.Runs c → (∀ q < maxProcesses, k.Runs q → q = c) →
    k.findNextActivePcb (getPcbPtr c) = some (getPcbPtr c)
  null : ∀ c < maxProcesses, k.findNextActivePcb (getPcbPtr c) = none ↔ ∀ q < maxProcesses, ¬ k.Runs q
  rounds : ∀ qs k', Selects img fs k qs k' → qs.length ≤ k.running.length →
    qs.Nodup ∧ (∀ q ∈ qs, q ∈ k.running) ∧ (qs.length = k.running.length → ∀ p ∈ k.running, p ∈ qs)

/-- **The scheduler is fair**: in every state a run reaches it chooses the next active process, and goes round all
of them. -/
theorem round_robin (img : Image) (boot : img.Bootable) {k₀ k : Kernel}
    (h0 : Started img (Image.WellFormed.pointers img) k₀)
    (h : Reaches (step img (Image.WellFormed.pointers img)) anyStep k₀ k) :
    RoundRobin img (Image.WellFormed.pointers img) k := by
  have hinv : Marked k.processes ∧ (k.cpu.mode = .wild ∨ ∃ S c, At k.processes S c) := by
    refine h.invariant (P := fun k => Marked k.processes ∧ (k.cpu.mode = .wild ∨ ∃ S c, At k.processes S c))
      ⟨started_marked h0, Or.inr ⟨_, _, started_at h0⟩⟩ ?_
    rintro s ev u ⟨hM, hw | ⟨S, c, hat⟩⟩ - hs
    · rw [step_wild hw] at hs
      cases hs
    · obtain ⟨S', c', hmove, hat'⟩ := step_follows boot hat hs
      exact ⟨hmove.marked hat hM, hat'.imp_right fun hat' => ⟨S', c', hat'⟩⟩
  obtain ⟨hM, hcontrol⟩ := hinv
  have hnull : ∀ c < maxProcesses, k.findNextActivePcb (getPcbPtr c) = none ↔ ∀ q < maxProcesses,
    ¬ k.Runs q := fun c hc => by
    rw [findNextActivePcb_round hM hc, Option.map_eq_none_iff, head_none_iff]
  have hslot : ∀ c < maxProcesses, ∀ a, k.findNextActivePcb (getPcbPtr c) = some a →
      ∃ q < maxProcesses, a = getPcbPtr q ∧ k.Runs q := by
    intro c hc a ha
    rw [findNextActivePcb_round hM hc, Option.map_eq_some_iff] at ha
    obtain ⟨q, hq, rfl⟩ := ha
    have hfirst := firstAfter_iff_head.mp hq
    exact ⟨q, hfirst.lt, rfl, hfirst.chosen⟩
  refine ⟨fun c hc a ha => ?_, fun c hc q hq => findNextActivePcb_firstAfter hM hc hq,
    fun c hc hruns honly => ?_, hnull, ?_⟩
  · obtain ⟨q, hq, ha, -⟩ := hslot c hc a ha
    exact ⟨q, hq, ha⟩
  · cases hnext : k.findNextActivePcb (getPcbPtr c) with
    | none => exact absurd hruns ((hnull c hc).mp hnext c hc)
    | some a =>
      obtain ⟨q, hq, ha, hrunsq⟩ := hslot c hc a hnext
      exact congrArg some (ha.trans (congrArg getPcbPtr (honly q hq hrunsq)))
  · intro qs k' hselects hlen
    rcases hcontrol with hw | ⟨S, c, hat⟩
    · rw [hselects.wild hw] at hlen ⊢
      refine ⟨List.nodup_nil, fun q hq => absurd hq List.not_mem_nil, fun hall p hp => ?_⟩
      rw [List.eq_nil_of_length_eq_zero hall.symm] at hp
      exact absurd hp List.not_mem_nil
    · have hsteps : (c :: qs).IsChain (FirstAfter maxProcesses k.Runs) :=
        (hselects.steps boot hat hM).imp fun _ _ hfirst => hfirst.congr fun p hp => (hat.runs_iff hp).symm
      obtain ⟨hnodup, hall⟩ := steps_fair hsteps hlen
      have hmem : ∀ q ∈ qs, q ∈ k.running := steps_chosen hsteps
      refine ⟨hnodup, hmem, fun heq p hp => ?_⟩
      obtain ⟨hlt, hruns⟩ := List.mem_filter.mp hp
      exact hall heq p (List.mem_range.mp hlt) (of_decide_eq_true hruns)

/-- Three active processes, in slots 1, 2 and 3. -/
theorem round_robin_three :
    ∃ k, Reaches (step Image.small (Image.WellFormed.pointers Image.small)) anyStep firstShell k ∧
    k.running = [1, 2, 3] ∧ RoundRobin Image.small (Image.WellFormed.pointers Image.small) k := by
  obtain ⟨k, hrun, h, -⟩ := three_terminals
  have hany : Reaches _ anyStep _ _ := hrun.mono fun _ _ _ => trivial
  refine ⟨k, hany, ?_, round_robin Image.small Image.small_bootable firstShell_started hany⟩
  have htops : k.running = (List.range maxProcesses).filter (Foundations.IsTop (stacksOf [2, 0] [1] [3])) :=
    List.filter_congr fun p hp => by rw [decide_eq_decide.mpr (h.here.runs_iff (List.mem_range.mp hp))]
  rw [htops]
  decide

end Kernel391
