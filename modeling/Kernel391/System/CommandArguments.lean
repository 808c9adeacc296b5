import Kernel391.Process.Arguments
import Kernel391.Process.DescriptorTable
import Kernel391.System.CallReturn

/-! The arguments of a running program. `execute` copies them into the PCB of the child, and
nothing writes them there again while the child lives. -/
namespace Kernel391
open Kernel391.Foundations
set_option autoImplicit false

/-- Slot `c` lives above its caller, with `args` in its PCB and its standard input open. -/
structure Holding (args : ℕ → UInt8) (p c : ℕ) (k : Kernel) (S : Stacks) (d : ℕ) : Prop where
  at_ : At k.processes S d
  above : Above S c p
  args : (k.slot c).args = args
  input : (k.slot c).available 0 = 0

/-- Slot `c` has the processor, alive since `execute` started `command` there in `k`. -/
structure RunsCommand (img : Image) (fs : Filesystem) (k : Kernel) (command : List UInt8) (k' : Kernel)
    (c : ℕ) : Prop where
  start : ∃ k₀, Started img fs k₀ ∧ Reaches (step img fs) anyStep k₀ k
  call : ∃ e k₁, step img fs k (.execute e command) = some k₁ ∧
    execute img fs (k.enter e.regs.esp) e k.cpu command = .gone k₁ ∧ k₁.current = getPcbPtr c ∧
    Reaches (step img fs) (fun s _ => s.inUse c) k₁ k'
  lt : c < maxProcesses
  alive : k'.inUse c
  turn : k'.current = getPcbPtr c

section Runs
variable {img : Image} {k k' : Kernel} {S : Stacks} {c d p : ℕ} {ev : Event} {args : ℕ → UInt8} {command : List UInt8}

theorem table_call_keepsInput {fs : Filesystem} {call : TableCall} {w : Work} (hv : k.getPcbNow.ValidTable)
    (h : tableStep img fs k call = some k') (hw : w.available = k'.getPcbNow.available) : k.keepsInput w = true := by
  unfold Kernel.keepsInput
  rw [decide_eq_true_eq, hw]
  exact fun _ => (tableStep_valid hv h).stdin.1

theorem doWork_pcb {w : Work} {a : ℕ} (hcur : k.current = a) :
    (k.doWork w).pcb a = { k.pcb a with available := w.available, fd := w.fd } := by
  unfold Kernel.doWork Kernel.setPcb
  simp only [hcur, Function.update_self]

/-- The running child's own work changes its descriptors at most, and leaves its standard input open. -/
theorem work_holds {w : Work} {a : ℕ} (hcur : k.current = a) (hinput : (k.pcb a).available 0 = 0)
    (hs : step img (Image.WellFormed.pointers img) k (.work w) = some k') :
    (k'.pcb a).args = (k.pcb a).args ∧ (k'.pcb a).available 0 = 0 := by
  simp only [step] at hs
  split at hs
  · next hc =>
    cases hs
    have hkeep := hc.2
    unfold Kernel.keepsInput at hkeep
    rw [hcur, decide_eq_true_eq] at hkeep
    rw [doWork_pcb hcur]
    exact ⟨rfl, hkeep hinput⟩
  · cases hs

theorem Holding.step (boot : img.Bootable) (h : Holding args p c k S d)
    (hs : step img (Image.WellFormed.pointers img) k ev = some k') (hm : k'.cpu.mode ≠ .wild) (hc : k'.inUse c) :
    ∃ S' d', Holding args p c k' S' d' := by
  obtain ⟨S', d', hmove, hfollows⟩ := step_follows boot h.at_ hs
  have hstacked := h.above.stacked
  have hof : (k'.slot c).args = (k.slot c).args ∧ (k'.slot c).available 0 = 0 → ∃ S' d',
    Holding args p c k' S' d' := fun hx =>
    ⟨S', d', hfollows.resolve_left hm, hmove.above h.at_ h.above hc, hx.1.trans h.args, hx.2⟩
  have hkept : (k'.pcb (getPcbPtr c)).belongings = (k.pcb (getPcbPtr c)).belongings → ∃ S' d',
    Holding args p c k' S' d' := by
    intro hx
    unfold Pcb.belongings at hx
    rw [Belongings.mk.injEq] at hx
    refine hof ⟨hx.1, ?_⟩
    show (k'.pcb (getPcbPtr c)).available 0 = 0
    rw [hx.2.1]
    exact h.input
  by_cases hcd : c = d
  · subst hcd
    by_cases hgo : Going img (Image.WellFormed.pointers img) k ev
    · cases ev with
      | work w =>
        have hx := work_holds (current_eq h.at_) h.input hs
        exact hof hx
      | _ => exact hkept (running_kept boot h.at_ hstacked hgo (by simp) hs)
    · obtain ⟨k₁, e, status, hend⟩ : ∃ k₁ e status, Ending img (Image.WellFormed.pointers img) k ev k₁ e status := by
        unfold Going at hgo
        push Not at hgo
        exact hgo
      have htop : IsTop S c := by
        rcases h.at_.running.2 with ⟨htop, -⟩ | ⟨-, -, hns, -⟩
        · exact htop
        · exact absurd hstacked hns
      have hwaits : Waits k p c k S c := ⟨h.at_, h.above, rfl, Info.Kept.refl _⟩
      exact absurd hc (waits_exit boot hwaits htop hend hs).freed
  · exact hkept (waiting_kept boot h.at_ hstacked hcd hs)

theorem RunsCommand.holding (boot : img.Bootable) (h : RunsCommand img (Image.WellFormed.pointers img) k command k' c)
    (hm : k'.cpu.mode ≠ .wild) : ∃ e p S, Holding (strncpy (k.slot c).args (parsedCommand e command).argumentBuf
      (parsedCommand e command).argCount 0) p c k' S c := by
  obtain ⟨k₀, h0, hrun⟩ := h.start
  obtain ⟨e, k₁, hcall, hgone, hchild, hlife⟩ := h.call
  obtain ⟨S, p, hat⟩ : ∃ S p, At k.processes S p := by
    refine (reached_at boot h0 hrun).resolve_left fun hw => ?_
    rw [step_wild hw] at hcall
    cases hcall
  obtain ⟨S₁, c', hfree, hwaits, -⟩ := waits_call boot hat hcall hgone
  obtain rfl : c' = c := (getPcbPtr_inj hwaits.at_.lt h.lt).mp ((current_eq hwaits.at_).symm.trans hchild)
  have hhold : ∃ S d, Holding (strncpy (k.slot c').args (parsedCommand e command).argumentBuf
      (parsedCommand e command).argCount 0) p c' k₁ S d := by
    obtain ⟨q, parent, hq, hbelongings⟩ := execute_belongings hgone
    obtain rfl : q = c' := ((entered_call hat e.regs.esp).firstFree hq).unique hfree
    unfold Pcb.belongings at hbelongings
    rw [Belongings.mk.injEq] at hbelongings
    refine ⟨S₁, q, hwaits.at_, hwaits.above, hbelongings.1, ?_⟩
    show (k₁.pcb (getPcbPtr q)).available 0 = 0
    rw [hbelongings.2.1]
    rfl
  have hinv : k'.inUse c' → k'.cpu.mode = .wild ∨ ∃ S d,
    Holding (strncpy (k.slot c').args (parsedCommand e command).argumentBuf
      (parsedCommand e command).argCount 0) p c' k' S d := by
    refine hlife.invariant (P := fun s => s.inUse c' → s.cpu.mode = .wild ∨ ∃ S d, Holding (strncpy (k.slot c').args
      (parsedCommand e command).argumentBuf (parsedCommand e command).argCount 0) p c' s S d)
      (fun _ => Or.inr hhold) fun s ev u hs hok hstep hu => ?_
    rcases hs hok with hw | ⟨S, i, hs⟩
    · rw [step_wild hw] at hstep
      cases hstep
    by_cases hw : u.cpu.mode = .wild
    · exact Or.inl hw
    · exact Or.inr (hs.step boot hstep hw hu)
  obtain ⟨S₂, d, hlast⟩ := (hinv h.alive).resolve_left hm
  obtain rfl : d = c' := (getPcbPtr_inj hlast.at_.lt h.lt).mp ((current_eq hlast.at_).symm.trans h.turn)
  exact ⟨e, p, S₂, hlast⟩

end Runs

/-! ## The round trip -/

theorem argumentText_noNul {command : List UInt8} (h0 : 0 ∉ command) : 0 ∉ argumentText command := fun hx =>
  h0 (List.mem_of_mem_drop ((List.dropWhile_sublist _).mem ((List.takeWhile_prefix _).mem hx)))

/-- **The child is given its arguments** exactly when the terminator was copied behind them, or what the slot held
before completes them. -/
theorem arguments_round_trip (img : Image) (boot : img.Bootable) {k k' : Kernel} {command : List UInt8} {c esp : ℕ}
    (hrun : RunsCommand img (Image.WellFormed.pointers img) k command k' c) (hm : k'.cpu.mode ≠ .wild)
    (h0 : 0 ∉ command)
    (hlen : (argumentText command).length < 128) (hesp : getPcb esp = getPcbPtr c) :
    GivesArguments (k'.enter esp) (argumentText command) ↔ ArgumentsPass command (k.slot c).args := by
  obtain ⟨e, p, S, hhold⟩ := hrun.holding boot hm
  have hnow : (k'.enter esp).getPcbNow = k'.slot c := by
    show k'.pcb (getPcb esp) = k'.pcb (getPcbPtr c)
    rw [hesp]
  rw [givesArguments_iff (argumentText_noNul h0) hlen, hnow, arguments_window hhold.input, hhold.args]
  exact arguments_eq_iff h0 e _

/-- The first shell, after a command it started has exited at once. -/
def Kernel.afterCommand (k : Kernel) (command : List UInt8) : Kernel :=
  let k₁ := (k.executes command).kernel
  (halt Image.small (Image.WellFormed.pointers Image.small) (k₁.enter (k₁.entry 64).regs.esp)
    (k₁.entry 64) k₁.cpu 0).afterHalt k₁.cpu

theorem runs_executed {k₀ k : Kernel} {command : List UInt8} {c : ℕ}
    (h0 : Started Image.small (Image.WellFormed.pointers Image.small) k₀)
    (hrun : Reaches (step Image.small (Image.WellFormed.pointers Image.small)) anyStep k₀ k) (hm : k.cpu.mode = .user)
    (hf : k.fits (k.entry 64) = true ∧ k.roomFor (k.entry 64) command = true)
    (hgone : (k.executes command).isGone = true) (hc : c < maxProcesses)
    (halive : (k.executes command).kernel.inUse c) (hturn : (k.executes command).kernel.current = getPcbPtr c) :
    RunsCommand Image.small (Image.WellFormed.pointers Image.small) k command (k.executes command).kernel c where
  start := ⟨k₀, h0, hrun⟩
  call := ⟨k.entry 64, _, step_executes hm hf.1 hf.2 hgone, Outcome.eq_gone hgone, hturn, .refl _⟩
  lt := hc
  alive := halive
  turn := hturn

theorem arguments_round_trip_first :
    GivesArguments ((firstShell.executes (ascii "shell abc".toList)).kernel.enter (stackTop 1 - 512))
    (ascii "abc".toList) := by
  have hfirst : firstShell.cpu.mode = .user ∧
      (firstShell.fits (firstShell.entry 64) = true ∧
        firstShell.roomFor (firstShell.entry 64) (ascii "shell abc".toList) = true) ∧
      (firstShell.executes (ascii "shell abc".toList)).isGone = true := by
    decide +kernel
  have hchild : (firstShell.executes (ascii "shell abc".toList)).kernel.inUse 1 ∧
      (firstShell.executes (ascii "shell abc".toList)).kernel.current = getPcbPtr 1 ∧
      (firstShell.executes (ascii "shell abc".toList)).kernel.cpu.mode ≠ .wild := by
    decide +kernel
  have hrun := runs_executed firstShell_started (.refl _) hfirst.1 hfirst.2.1 hfirst.2.2 (by decide) hchild.1 hchild.2.1
  exact (arguments_round_trip Image.small Image.small_bootable hrun hchild.2.2 (by decide) (by decide) (by decide)).mpr
    (Or.inl (by decide))

/-- It does not hold of every command: after `shell abc`, the newline of `shell x` leaves the `bc` behind. -/
theorem arguments_not_round_trip :
    ¬ ∀ (img : Image), img.Bootable → ∀ (k k' : Kernel) (command : List UInt8) (c esp : ℕ),
      RunsCommand img (Image.WellFormed.pointers img) k command k' c → k'.cpu.mode ≠ .wild → 0 ∉ command →
      (argumentText command).length < 128 → getPcb esp = getPcbPtr c →
        GivesArguments (k'.enter esp) (argumentText command) := by
  intro hall
  have hfirst : firstShell.cpu.mode = .user ∧
      (firstShell.fits (firstShell.entry 64) = true ∧
        firstShell.roomFor (firstShell.entry 64) (ascii "shell abc".toList) = true) ∧
      (firstShell.executes (ascii "shell abc".toList)).isGone = true := by
    decide +kernel
  have hchild : (firstShell.executes (ascii "shell abc".toList)).kernel.cpu.mode = .user ∧
      (firstShell.executes (ascii "shell abc".toList)).kernel.fits
        ((firstShell.executes (ascii "shell abc".toList)).kernel.entry 64) = true ∧
      (firstShell.executes (ascii "shell abc".toList)).kernel.roomFor
        ((firstShell.executes (ascii "shell abc".toList)).kernel.entry 64) shell = true := by
    decide +kernel
  have hagain : (firstShell.afterCommand (ascii "shell abc".toList)).cpu.mode = .user ∧
      ((firstShell.afterCommand (ascii "shell abc".toList)).fits
        ((firstShell.afterCommand (ascii "shell abc".toList)).entry 64) = true ∧
        (firstShell.afterCommand (ascii "shell abc".toList)).roomFor
          ((firstShell.afterCommand (ascii "shell abc".toList)).entry 64) (ascii "shell x\n".toList) = true) ∧
      ((firstShell.afterCommand (ascii "shell abc".toList)).executes (ascii "shell x\n".toList)).isGone = true := by
    decide +kernel
  have hlast :
    ((firstShell.afterCommand (ascii "shell abc".toList)).executes (ascii "shell x\n".toList)).kernel.inUse 1 ∧
      ((firstShell.afterCommand (ascii "shell abc".toList)).executes (ascii "shell x\n".toList)).kernel.current =
        getPcbPtr 1 ∧
      ((firstShell.afterCommand (ascii "shell abc".toList)).executes (ascii "shell x\n".toList)).kernel.cpu.mode ≠
        .wild := by
    decide +kernel
  have hreach : Reaches (step Image.small (Image.WellFormed.pointers Image.small)) anyStep firstShell
      (firstShell.afterCommand (ascii "shell abc".toList)) :=
    ((Reaches.refl _).tail trivial (step_executes hfirst.1 hfirst.2.1.1 hfirst.2.1.2 hfirst.2.2)).tail trivial
      (@step_halt _ _ _ 0 _ hchild.1 hchild.2.1 (by decide) hchild.2.2)
  have hrun := runs_executed firstShell_started hreach hagain.1 hagain.2.1 hagain.2.2 (by decide) hlast.1 hlast.2.1
  have hgives := hall Image.small Image.small_bootable _ _ _ _ (stackTop 1 - 512) hrun hlast.2.2 (by decide)
    (by decide) (by decide)
  rw [givesArguments_iff (by decide) (by decide)] at hgives
  revert hgives
  decide +kernel

end Kernel391
