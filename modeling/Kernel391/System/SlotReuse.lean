import Kernel391.System.CalmRuns

/-! A slot that is still running is not handed out again, so no process is its own
parent. The exception is the last loop of `halt`: the slot under the loop is free, and
a terminal opened from there takes it when it is the lowest. -/
namespace Kernel391
open Kernel391.Foundations
set_option autoImplicit false

/-- A keystroke that opens a terminal in the last loop of `halt` finds a free slot below the one the
processor is on. -/
def FindsLower (k : Kernel) (ev : Event) : Prop :=
  ∀ e scanCode t q, ev = .key e scanCode → k.requests scanCode = some t → k.findTerminalPid t = none →
    k.cpu.mode = .spin → q < maxProcesses → k.current = getPcbPtr q → ∃ p < q, ¬ k.inUse p

/-- No process is its own parent, and no admitted event hands out the slot the processor is on. -/
structure SlotsKept (img : Image) (fs : Filesystem) (ok : Kernel → Event → Prop) (k : Kernel) : Prop where
  parent : ∀ p < maxProcesses, (k.slot p).parent ≠ getPcbPtr p
  taken : ∀ ev k', ok k ev → step img fs k ev = some k' → ∀ p < maxProcesses, ¬ k.inUse p → k'.inUse p →
    getPcbPtr p ≠ k.current

section Moves
variable {img : Image} {fs : Filesystem} {k k' : Kernel} {S S' : Stacks} {c c' r : ℕ} {ev : Event}

/-- A slot the processor is on is free only in the last loop of `halt`. -/
theorem spin_of_free (h : At k.processes S c) (hc : k.processes.ids c = 0) : k.cpu.mode = .spin := by
  by_contra hm
  exact h.table.used (h.isTop hm).stacked hc

theorem Move.taken_apart (m : Move img fs k S c k' ev S' c') (h : At k.processes S c) (hok : FindsLower k ev)
    (hr : k.processes.ids r = 0) (hr' : k'.processes.ids r ≠ 0) : r ≠ c := by
  obtain ⟨hfree, hne | ⟨-, e, scanCode, t, hev, hreq, hS⟩⟩ := m.taken h hr hr'
  · exact hne
  rintro rfl
  have hnone : k.findTerminalPid t = none := by
    rw [← Kernel.processes_findTerminalPid]
    cases hf : k.processes.findTerminalPid t with
    | none => rfl
    | some q =>
      obtain ⟨-, l, hl⟩ := h.table.findTerminalPid_some hf
      cases hS.symm.trans hl
  obtain ⟨p, hpr, hp⟩ := hok e scanCode t r hev hreq hnone (spin_of_free h hr) h.lt (current_eq h)
  exact hp (hfree.least p hpr)

theorem Move.parent_apart (m : Move img fs k S c k' ev S' c') (h : At k.processes S c) (hok : FindsLower k ev)
    (hr : r < maxProcesses) (hparent : (k.processes.info r).parent ≠ getPcbPtr r) :
    (k'.processes.info r).parent ≠ getPcbPtr r := by
  rcases m.parent h r with hp | ⟨-, hfree, hused, hp⟩ | hp
  · rwa [hp]
  · rw [hp]
    intro hx
    exact m.taken_apart h hok hfree.free hused ((getPcbPtr_inj h.lt hr).mp hx).symm
  · rw [hp]
    exact (getPcbPtr_ne_zero hr).symm

end Moves

theorem started_parent {img : Image} {fs : Filesystem} {k : Kernel} (h : Started img fs k) {p : ℕ}
    (hp : p < maxProcesses) :
    (k.processes.info p).parent = 0 := by
  obtain ⟨k₀, e, eip, hb, -, -, -, -, hview⟩ := started_start h
  rw [hview, Processes.start_info]
  split
  · rfl
  · show (k₀.processes.info p).parent = 0
    rw [k₀.processes_info hp]
    exact (hb.pcb p hp).2.2.2.2

/-- **A slot in use under the processor is never handed out**, and no process is its own parent, as long
as no terminal is opened from the last loop of `halt` with every lower slot in use. -/
theorem running_slot_kept (img : Image) (boot : img.Bootable) {k₀ k : Kernel}
    (h0 : Started img (Image.WellFormed.pointers img) k₀)
    (h : Reaches (step img (Image.WellFormed.pointers img)) FindsLower k₀ k) :
    SlotsKept img (Image.WellFormed.pointers img) FindsLower k := by
  have hinv : (∀ p < maxProcesses, (k.processes.info p).parent ≠ getPcbPtr p) ∧
      (k.cpu.mode = .wild ∨ ∃ S c, At k.processes S c) := by
    refine h.invariant (P := fun k => (∀ p < maxProcesses, (k.processes.info p).parent ≠ getPcbPtr p) ∧
      (k.cpu.mode = .wild ∨ ∃ S c, At k.processes S c)) ⟨fun p hp => ?_, Or.inr ⟨_, _, started_at h0⟩⟩ ?_
    · rw [started_parent h0 hp]
      exact (getPcbPtr_ne_zero hp).symm
    · rintro s ev u ⟨hparent, hw | ⟨S, c, hat⟩⟩ hok hs
      · rw [step_wild hw] at hs
        cases hs
      · obtain ⟨S', c', hmove, hat'⟩ := step_follows boot hat hs
        exact ⟨fun p hp => hmove.parent_apart hat hok hp (hparent p hp), hat'.imp_right fun hat' => ⟨S', c', hat'⟩⟩
  refine ⟨fun p hp => ?_, fun ev k' hok hs p hp hfree hused => ?_⟩
  · have hparent := hinv.1 p hp
    rwa [k.processes_info hp] at hparent
  · rcases hinv.2 with hw | ⟨S, c, hat⟩
    · rw [step_wild hw] at hs
      cases hs
    · obtain ⟨S', c', hmove, -⟩ := step_follows boot hat hs
      rw [current_eq hat]
      intro hx
      exact hmove.taken_apart hat hok (not_not.mp hfree) hused ((getPcbPtr_inj hp hat.lt).mp hx)

/-- Three terminals, opened and left by ticks, calls and an exit. -/
theorem running_slot_kept_three :
    ∃ k, Reaches (step Image.small (Image.WellFormed.pointers Image.small)) FindsLower firstShell k ∧
    Stage k (stacksOf [2, 0] [1] [3]) 3 3 ∧
      SlotsKept Image.small (Image.WellFormed.pointers Image.small) FindsLower k := by
  obtain ⟨k, hrun, h, -⟩ := three_terminals
  have hlower : Reaches _ FindsLower _ _ := hrun.mono fun s ev hcalm e scanCode t q hev _ _ hspin =>
    absurd hspin (hcalm.keys e scanCode hev).1
  exact ⟨k, hlower, h, running_slot_kept Image.small Image.small_bootable firstShell_started hlower⟩

/-- Terminal 2 is opened, its shell exits, and terminal 2 is opened again before a tick arrives. -/
theorem slot_handed_out_running :
    ∃ k e k', Reaches (step Image.small (Image.WellFormed.pointers Image.small)) anyStep firstShell k ∧
      step Image.small (Image.WellFormed.pointers Image.small) k (.key e 0x3C) = some k' ∧ k.current = getPcbPtr 1 ∧
      ¬ k.inUse 1 ∧ k'.inUse 1 ∧ (k'.slot 1).parent = getPcbPtr 1 := by
  obtain ⟨k₁, k₂, h⟩ := firstShell_stage.opens_second Image.small_bootable firstShell_waits.2
  have hat₂ := h.second.here
  have hzero : k₂.processes.ids 0 ≠ 0 := h.second.used.mpr (by decide)
  -- The shell of terminal 2 exits.
  obtain ⟨k₃, x, hs₃, hspin, hesp, hview₃, hat₃⟩ :=
    @halt_spins Image.small k₂ (stacksOf [0] [1] []) 1 1 0 0 0 [] (k₂.entry 64) Image.small_bootable hat₂ h.second.mode
    (h.second.fits (by decide)) (by decide) (roomFor_entry hat₂ h.second.roomy (by decide)) rfl (by decide) h.creator
    (by decide) (by
      rw [(hat₂.table.slot 0 0 (List.mem_cons_self ..)).terminalNum]
      decide) rfl
  rw [update_stacksOf_one] at hat₃
  have hcpu₃ : k₃.cpu = x := by
    show k₃.processes.cpu = x
    rw [hview₃]
    rfl
  have hkeys₃ : k₃.keys = k₂.keys := congrArg Input.keys (step_input hs₃)
  have hids₃ : k₃.processes.ids 0 ≠ 0 ∧ k₃.processes.ids 1 = 0 := by
    rw [hview₃]
    show Function.update k₂.processes.ids 1 0 0 ≠ 0 ∧ Function.update k₂.processes.ids 1 0 1 = 0
    exact ⟨by rw [Function.update_of_ne (by decide)]; exact hzero, Function.update_self ..⟩
  have hroom₃ : Roomy k₃ 1 := by
    unfold Roomy Kernel.entryEsp
    rw [hcpu₃, hspin]
    simp only [hesp]
    unfold Kernel.entry Entry.below Kernel.entryEsp
    rw [h.second.mode]
    have htop : k₂.tss.esp0 = stackTop 1 - 4 ∨ k₂.tss.esp0 = stackTop 1 := hat₂.onSlot.esp0
    simp only [stackTop, eightMb, eightKb] at *
    omega
  have hreq₃ : k₃.requests 0x3C = some 1 := by
    unfold Kernel.requests
    rw [hkeys₃, h.pressed]
    decide
  have hfree : k₃.processes.FirstFree 1 := by
    refine ⟨by decide, hids₃.2, fun q hq => ?_⟩
    obtain rfl : q = 0 := by omega
    exact hids₃.1
  -- Alt is still held when F2 arrives again.
  obtain ⟨k₄, eip', hs₄, -, hview₄, -, -⟩ :=
    @key_creates Image.small k₃ (stacksOf [0] [] []) 1 1 1 0x3C (k₃.entry 64) Image.small_bootable hat₃
    (by rw [hcpu₃, hspin]; decide) (fits_entry hat₃ hroom₃ (by decide)) (by decide) (roomToLoad_entry hat₃ hroom₃)
    hreq₃ rfl hfree
  refine ⟨k₃, _, k₄, ?_, hs₄, current_eq hat₃, not_not.mpr hids₃.2, ?_, ?_⟩
  · exact (((Reaches.refl _).tail trivial h.held).tail trivial h.opened).tail trivial hs₃
  · show k₄.processes.ids 1 ≠ 0
    rw [hview₄]
    show Function.update (k₃.preempted (k₃.entry 64)).ids 1 1 1 ≠ 0
    exact used_self _ _
  · rw [← Pcb.info_parent, ← k₄.processes_info (by decide), hview₄, Processes.create_info, if_pos rfl]
    rfl

/-- It does not hold of every run: opened twice, terminal 2 has a shell that is its own parent. -/
theorem running_slot_not_kept :
    ¬ ∀ (img : Image), img.Bootable → ∀ k₀ k, Started img (Image.WellFormed.pointers img) k₀ →
      Reaches (step img (Image.WellFormed.pointers img)) anyStep k₀ k →
      SlotsKept img (Image.WellFormed.pointers img) anyStep k := by
  intro hall
  obtain ⟨k, e, k', hreach, hs, -, -, -, hparent⟩ := slot_handed_out_running
  exact (hall Image.small Image.small_bootable firstShell k' firstShell_started (hreach.tail trivial hs)).parent 1
    (by decide)
    hparent

end Kernel391
