import Kernel391.Process.Transitions

/-! What the functions that move the processor leave alone. Of a PCB they write the
descriptors and the arguments only when they set it up for a new process, and they never
touch the input devices; so a view of the kernel that depends on nothing else is the same
after them. -/
namespace Kernel391
open Kernel391.Foundations
set_option autoImplicit false

/-- What a PCB holds for its process alone. -/
structure Belongings where
  args : ℕ → UInt8
  available : ℕ → ℕ
  fd : ℕ → FileDescriptor

def Pcb.belongings (b : Pcb) : Belongings := ⟨b.args, b.available, b.fd⟩

/-- The view `π` depends at most on the input devices and the belongings in the PCBs outside `W`. -/
structure Ignores {α : Type} (W : ℕ → Prop) (π : Kernel → α) : Prop where
  written : ∀ (k : Kernel) (a : ℕ) (f : Pcb → Pcb), W a → π (k.setPcb a f) = π k
  kept : ∀ (k : Kernel) (a : ℕ) (f : Pcb → Pcb), (∀ b, (f b).belongings = b.belongings) → π (k.setPcb a f) = π k
  rest : ∀ k k' : Kernel, k'.pcb = k.pcb → k'.keyboard = k.keyboard → k'.keys = k.keys → π k' = π k

theorem ignores_belongings (a : ℕ) : Ignores (· ≠ a) fun k => (k.pcb a).belongings where
  written k b f hb := by
    simp only [Kernel.setPcb, Function.update_of_ne hb.symm]
  kept k b f hf := by
    by_cases hba : a = b
    · subst hba
      simp only [Kernel.setPcb, Function.update_self, hf]
    · simp only [Kernel.setPcb, Function.update_of_ne hba]
  rest k k' h _ _ := by rw [h]

/-- The kernel an outcome leaves. -/
def Outcome.kernel : Outcome → Kernel
  | .ret _ k => k
  | .gone k => k
  | .fault k => k

/-! ## Single operations -/

namespace Ignores
variable {α : Type} {W : ℕ → Prop} {π : Kernel → α} (h : Ignores W π) (k : Kernel)
include h

theorem setTerminal (a : ℕ) (f : TerminalInfo → TerminalInfo) : π (k.setTerminal a f) = π k := h.kept k a _ fun _ => rfl
theorem saveRegs (a : ℕ) (r : Regs) : π (k.saveRegs a r) = π k := h.kept k a _ fun _ => rfl
theorem setFrame (a : ℕ) (f : Frame) : π (k.setFrame a f) = π k := h.rest _ _ rfl rfl rfl
theorem setTss (a : ℕ) : π (k.setTss a) = π k := h.rest _ _ rfl rfl rfl
theorem setAttrib (a : UInt8) : π (k.setAttrib a) = π k := h.rest _ _ rfl rfl rfl
theorem setPagerDirEntry (a : ℕ) : π (k.setPagerDirEntry a) = π k := h.rest _ _ rfl rfl rfl
theorem setVideo (a : ℕ) : π (k.setVideo a) = π k := h.rest _ _ rfl rfl rfl
theorem withConsole (f : Console → Console) : π (k.withConsole f) = π k := h.rest _ _ rfl rfl rfl
theorem switchCursor (a b : ℕ) : π (k.switchCursor a b) = π k := h.rest _ _ rfl rfl rfl
theorem freeProcess (p : ℕ) : π (k.freeProcess p) = π k := h.rest _ _ rfl rfl rfl
theorem resume (c : Cpu) : π { k with cpu := c } = π k := h.rest _ _ rfl rfl rfl
theorem phys (m : ℕ → UInt8) : π { k with phys := m } = π k := h.rest _ _ rfl rfl rfl
theorem enter (esp : ℕ) : π (k.enter esp) = π k := h.rest _ _ rfl rfl rfl
theorem initPit : π k.initPit = π k := h.rest _ _ rfl rfl rfl

theorem setupExecStack (eip a frame eax : ℕ) (f : Frame) : π (k.setupExecStack eip a frame f eax) = π k := by
  unfold Kernel.setupExecStack
  rw [h.resume, h.setFrame]
  exact h.kept k a _ fun _ => rfl

theorem inheritTerminal (a b : ℕ) : π (k.inheritTerminal a b) = π k := by
  unfold Kernel.inheritTerminal
  refine (h.kept _ b _ fun _ => ?_).trans ((h.kept _ a _ fun _ => ?_).trans ?_)
  · rfl
  · rfl
  · rw [h.setTerminal, h.setTerminal]

theorem firstTerminal (a : ℕ) : π (k.firstTerminal a) = π k := by
  unfold Kernel.firstTerminal
  refine (h.kept _ a _ fun _ => ?_).trans ?_
  · rfl
  · rw [h.setTerminal, h.initPit]

theorem handBack (a b : ℕ) : π (k.handBack a b) = π k := by
  unfold Kernel.handBack
  simp only [h.setTss, h.setPagerDirEntry, h.freeProcess, h.setTerminal]
  exact h.kept k b _ fun _ => rfl

theorem haltProcess (status haltEbp : ℕ) : π (k.haltProcess status haltEbp) = π k := by
  unfold Kernel.haltProcess
  split <;> exact h.resume k _

theorem doSchedule (next ebp eax : ℕ) : π (k.doSchedule next ebp eax) = π k := by
  unfold Kernel.doSchedule
  split
  · split <;> exact h.resume k _
  · exact h.resume k _
  · exact h.resume k _

theorem loadNext (curr next : ℕ) : π (k.loadNext curr next) = π k := by
  unfold Kernel.loadNext
  simp only [h.setAttrib]
  split
  · exact (h.withConsole _ _).trans (by rw [h.switchCursor, h.setVideo, h.setTss, h.setPagerDirEntry])
  · rw [h.switchCursor, h.setVideo, h.setTss, h.setPagerDirEntry]

theorem getProcessId {p : ℕ} {k' : Kernel} (hid : k.getProcessId = some (p, k')) : π k' = π k := by
  obtain ⟨-, -, -, rfl⟩ := Kernel.getProcessId_some hid
  exact h.rest _ _ rfl rfl rfl

theorem openExecutable {img : Image} {fs : Filesystem} {k' : Kernel} {eip eip' : ℕ → UInt8} {i r : ℤ}
    (ho : openExecutable img fs k eip i = .ok (r, eip', k') ∨ openExecutable img fs k eip i = .error k') :
    π k' = π k := by
  obtain ⟨m, rfl⟩ := openExecutable_phys ho
  exact h.phys k m

theorem showTerminal {k' : Kernel} {o r : ℕ}
    (hs : k.showTerminal o r = .ok k' ∨ k.showTerminal o r = .error k') : π k' = π k := by
  have hswitch : ∀ {a b : ℕ} {c : Prop} [Decidable c] {k₁ : Kernel},
      ((if c then k.switchKernelMemory a b else .ok k) = .ok k₁ ∨
        (if c then k.switchKernelMemory a b else .ok k) = .error k₁) → π k₁ = π k := by
    intro a b c _ k₁ hs
    split at hs
    · obtain ⟨m, rfl⟩ := Kernel.switchKernelMemory_phys hs
      exact h.phys k m
    · rcases hs with hs | hs <;> cases hs
      rfl
  unfold Kernel.showTerminal at hs
  simp only at hs
  split at hs
  · next hc =>
    rcases hs with hs | hs <;> cases hs
    exact hswitch (Or.inr hc)
  · next hc =>
    rcases hs with hs | hs <;> cases hs
    rw [h.setTerminal, h.setTerminal]
    exact hswitch (Or.inl hc)

/-! ## Functions -/

variable {img : Image} {fs : Filesystem} (e : Entry)

theorem execute (hself : ∀ p, k.processes.FirstFree p → W (getPcbPtr p)) (caller : Cpu) (command : List UInt8) :
    π (execute img fs k e caller command).kernel = π k := by
  unfold Kernel391.execute
  split
  · rfl
  · split
    · rfl
    · split
      · rfl
      · next p k₁ hid =>
        have h₁ := h.getProcessId k hid
        have hw := hself p (Kernel.getProcessId_processes hid).1
        simp only
        split
        · next k₂ ho =>
          exact ((@openExecutable α W π h _ img fs _ _ (fun _ => 0) _ 0 (Or.inr ho)).trans
            (h.setPagerDirEntry _ _)).trans h₁
        · next eip k₂ ho =>
          have h₂ : π k₂ = π k := ((h.openExecutable _ (Or.inl ho)).trans (h.setPagerDirEntry _ _)).trans h₁
          simp only [Outcome.kernel, h.setupExecStack, h.setTss]
          rw [h.written _ _ _ hw, h.setFrame, h.saveRegs, h.written _ _ _ hw]
          split
          · exact (h.inheritTerminal _ _ _).trans h₂
          · exact (h.firstTerminal _ _).trans h₂

theorem createTerminal (hself : ∀ p, k.processes.FirstFree p → W (getPcbPtr p)) (o t : ℕ) :
    π (createTerminal img fs k e o t).kernel = π k := by
  unfold Kernel391.createTerminal
  split
  · rfl
  · split
    · rfl
    · split
      · rfl
      · next p k₁ hid =>
        have h₁ := h.getProcessId k hid
        have hw := hself p (Kernel.getProcessId_processes hid).1
        have h₁' : ∀ a c, π ((k₁.setAttrib a).setPagerDirEntry c) = π k := fun a c =>
          (h.setPagerDirEntry _ _).trans ((h.setAttrib _ _).trans h₁)
        simp only
        split
        · next k₂ ho => exact (@openExecutable α W π h _ img fs _ _ (fun _ => 0) _ 0 (Or.inr ho)).trans (h₁' _ _)
        · next eip k₂ ho =>
          have h₂ : π k₂ = π k := (h.openExecutable _ (Or.inl ho)).trans (h₁' _ _)
          split
          · exact h₂
          · have h₃ : ∀ (a b : ℕ) f g v, π (((k₂.setTerminal a f).setTerminal b g).setPcb (getPcbPtr p) v) = π k :=
              fun a b f g v => by rw [h.written _ _ _ hw, h.setTerminal, h.setTerminal, h₂]
            split
            · next k₃ hs => exact (h.showTerminal _ (Or.inr hs)).trans (h₃ _ _ _ _ _)
            · next k₃ hs =>
              simp only [Outcome.kernel, h.setupExecStack]
              refine (h.withConsole _ _).trans ?_
              rw [h.setFrame, h.saveRegs, h.setTss]
              exact (h.showTerminal _ (Or.inl hs)).trans (h₃ _ _ _ _ _)

theorem switchTerminal (hself : ∀ p, k.processes.FirstFree p → W (getPcbPtr p)) (t : ℕ) :
    π (switchTerminal img fs k e t).kernel = π k := by
  unfold Kernel391.switchTerminal
  generalize getPcbPtr (k.findOnscreenTerminalPid.getD 255) = onscreen
  simp only
  split
  · exact h.createTerminal k e hself onscreen t
  · next q _ =>
    generalize getPcbPtr q = requested
    split
    · next k₁ hs => exact (h.showTerminal _ (Or.inr hs)).trans (h.setAttrib _ _)
    · next k₁ hs =>
      have h₁ := (h.showTerminal _ (Or.inl hs)).trans (h.setAttrib _ _)
      split
      · exact h₁
      · exact (h.setVideo _ _).trans h₁

theorem halt (hself : ∀ p, k.processes.FirstFree p → W (getPcbPtr p))
    (hfirst : (k.pcb (getPcb k.cpu.esp)).parent = 0 →
      ∀ p, (k.processes.release (k.pcb (getPcb k.cpu.esp)).processId).FirstFree p → W (getPcbPtr p))
    (caller : Cpu) (status : ℕ) : π (halt img fs k e caller status).kernel = π k := by
  unfold Kernel391.halt
  generalize getPcb k.cpu.esp = self at *
  simp only
  split
  · next h0 =>
    have hx := @execute α W π h (k.freeProcess (k.pcb self).processId) img fs e (hfirst h0) caller shell
    rw [h.freeProcess] at hx
    cases hx' : Kernel391.execute img fs (k.freeProcess (k.pcb self).processId) e caller shell
      <;> rw [hx'] at hx <;> exact hx
  · split
    · generalize hk₁ : (k.setPcb self fun p => { p with isActive := 0 }) = k₁
      have h₁ : π k₁ = π k := by
        rw [← hk₁]
        exact h.kept _ _ _ fun _ => rfl
      have hself₁ : ∀ p, k₁.processes.FirstFree p → W (getPcbPtr p) := fun p hp => by
        rw [← hk₁] at hp
        exact hself p ⟨hp.lt, hp.free, hp.least⟩
      have hx := @switchTerminal α W π h k₁ img fs e hself₁ 0
      rw [h₁] at hx
      cases hx' : Kernel391.switchTerminal img fs k₁ e 0 <;> rw [hx'] at hx
      · refine Eq.trans ?_ hx
        exact h.rest _ _ rfl rfl rfl
      · exact hx
      · exact hx
    · show π (Kernel.haltProcess _ _ _) = π k
      rw [h.haltProcess, h.handBack]
      exact h.kept _ _ _ fun _ => rfl

theorem handleKeyboard (hself : ∀ p, k.processes.FirstFree p → W (getPcbPtr p))
    (hdev : ∀ k k' : Kernel, k'.pcb = k.pcb → π k' = π k)
    (temp : ℕ) : π (handleKeyboard img fs k e temp).kernel = π k := by
  have haccept : ∀ (k : Kernel) (t : ℕ) (c : UInt8), π (k.acceptChar t c) = π k := by
    intro k t c
    unfold Kernel.acceptChar Kernel.delc Kernel.puts Kernel.putc
    simp only
    repeat' split
    all_goals exact hdev _ _ rfl
  have hborrow : ∀ (k : Kernel) t c, π (k.borrowScreen t c) = π k := by
    intro k t c
    unfold Kernel.borrowScreen
    split
    · exact hdev _ _ rfl
    · rfl
  have hreturn : ∀ (k : Kernel) page t c, π (k.returnScreen page t c) = π k := by
    intro k page t c
    unfold Kernel.returnScreen
    split
    · exact hdev _ _ rfl
    · rfl
  have hcombination : ∀ k : Kernel, (∀ p, k.processes.FirstFree p → W (getPcbPtr p)) →
      π (combination img fs k e temp).kernel = π k := by
    intro k hself
    unfold combination
    split
    · next t _ =>
      have hx := @switchTerminal α W π h k img fs e hself t
      cases hs : Kernel391.switchTerminal img fs k e t <;> rw [hs] at hx
      · simp only [Outcome.kernel]
        split
        · exact (h.withConsole _ _).trans hx
        · exact hx
      · exact hx
      · exact hx
    · simp only [Outcome.kernel]
      split
      · exact h.withConsole _ _
      · rfl
  have hscan : ∀ (k : Kernel) c, (∀ p, k.processes.FirstFree p → W (getPcbPtr p)) →
      π (handleScanCode img fs k e c temp).kernel = π k := by
    intro k c hself
    unfold handleScanCode
    split
    · simp only
      generalize hk₁ : ({ k with keys := k.keys.press temp } : Kernel) = k₁
      have h₁ : π k₁ = π k := hdev _ _ (by rw [← hk₁])
      have hx := hcombination k₁ (by rw [← hk₁]; exact hself)
      rw [h₁] at hx
      cases hc : combination img fs k₁ e temp with
      | ret r k₂ =>
        rw [hc] at hx
        refine Eq.trans ?_ ((haccept k₂ c (k₂.keys.currentChar temp)).trans hx)
        exact hdev _ _ rfl
      | gone k₂ =>
        rw [hc] at hx
        exact hx
      | fault k₂ =>
        rw [hc] at hx
        exact hx
    · exact hdev _ _ rfl
  unfold Kernel391.handleKeyboard
  cases k.findOnscreenTerminalNum with
  | none => exact h.setAttrib _ _
  | some t =>
    simp only
    generalize hk₀ : k.setAttrib (color ((some t).getD 255)) = k₀
    have h₀ : π k₀ = π k := by
      rw [← hk₀]
      exact h.setAttrib _ _
    generalize (k₀.pcb (getPcb k₀.cpu.esp)).terminalInfo = info
    have hself₀ : ∀ p, (k₀.borrowScreen info t).processes.FirstFree p → W (getPcbPtr p) := by
      intro p hp
      rw [(borrowScreen_processes k₀ info t).1, ← hk₀, Kernel.processes_setAttrib] at hp
      exact hself p hp
    have hx := hscan (k₀.borrowScreen info t) t hself₀
    rw [hborrow, h₀] at hx
    cases hs : handleScanCode img fs (k₀.borrowScreen info t) e t temp with
    | ret r k₁ =>
      rw [hs] at hx
      exact (hreturn k₁ _ _ _).trans hx
    | gone k₁ =>
      rw [hs] at hx
      exact hx
    | fault k₁ =>
      rw [hs] at hx
      exact hx

theorem pitHandler : π (pitHandler k e).kernel = π k := by
  unfold Kernel391.pitHandler
  generalize getPcb k.cpu.esp = curr
  simp only
  split
  · rfl
  · split
    · exact h.saveRegs k curr e.regs
    · show π (Kernel.doSchedule _ _ _ _) = π k
      rw [h.doSchedule, h.loadNext, h.saveRegs]

end Ignores

theorem setupPcb_belongings {b b' : Pcb} (h : b'.belongings = b.belongings) (p parent : ℕ) :
    (setupPcb p parent b').belongings = (setupPcb p parent b).belongings := by
  unfold Pcb.belongings at h ⊢
  rw [Belongings.mk.injEq] at h ⊢
  obtain ⟨hargs, havailable, hfd⟩ := h
  unfold setupPcb
  simp only [hargs, havailable, hfd, and_self]

/-- **What the new process owns** after `execute`: the table of `setup_pcb` and the copied arguments. -/
theorem execute_belongings {img : Image} {fs : Filesystem} {k k' : Kernel} {e : Entry} {caller : Cpu}
    {command : List UInt8}
    (h : execute img fs k e caller command = .gone k') :
    ∃ p parent, k.processes.FirstFree p ∧ (k'.pcb (getPcbPtr p)).belongings =
      let b := setupPcb p parent (k.pcb (getPcbPtr p))
      ⟨strncpy b.args (parsedCommand e command).argumentBuf (parsedCommand e command).argCount 0,
        b.available, b.fd⟩ := by
  unfold execute at h
  split at h
  · cases h
  · split at h
    · cases h
    · split at h
      · cases h
      · next p k₁ hid =>
        have hff := (Kernel.getProcessId_processes hid).1
        have hπ := ignores_belongings (getPcbPtr p)
        have h₁ := hπ.getProcessId k hid
        simp only at h
        split at h
        · cases h
        · next eip k₂ ho =>
          have h₂ : (k₂.pcb (getPcbPtr p)).belongings = (k.pcb (getPcbPtr p)).belongings :=
            ((hπ.openExecutable _ (Or.inl ho)).trans (hπ.setPagerDirEntry _ _)).trans h₁
          generalize k₂.getParentPcb p = parent at h
          generalize hk₃ : (if parent ≠ 0 then k₂.inheritTerminal (getPcbPtr p) parent
            else k₂.firstTerminal (getPcbPtr p)) = k₃ at h
          have h₃ : (k₃.pcb (getPcbPtr p)).belongings = (k.pcb (getPcbPtr p)).belongings := by
            rw [← hk₃]
            split
            · exact (hπ.inheritTerminal _ _ _).trans h₂
            · exact (hπ.firstTerminal _ _).trans h₂
          generalize hk₄ : ((k₃.setPcb (getPcbPtr p) (setupPcb p parent)).saveRegs
            (getPcbPtr p) e.regs).setFrame e.regs.ebp
            (.execute caller) = k₄ at h
          have h₄ : (k₄.pcb (getPcbPtr p)).belongings = (setupPcb p parent (k.pcb (getPcbPtr p))).belongings := by
            rw [← hk₄, hπ.setFrame, hπ.saveRegs]
            simp only [Kernel.setPcb, Function.update_self]
            exact setupPcb_belongings h₃ p parent
          unfold Pcb.belongings at h₄
          rw [Belongings.mk.injEq] at h₄
          cases h
          refine ⟨p, parent, hff, ?_⟩
          rw [hπ.setupExecStack, hπ.setTss]
          simp only [Kernel.setPcb, Function.update_self, Pcb.belongings, h₄]

end Kernel391
