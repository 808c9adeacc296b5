import Kernel391.Process.FrameConditions
import Kernel391.System.Step

/-! What an event leaves alone, when it is no keystroke: a view that depends on the input
devices and on the belongings of processes that are in use and not on the processor. -/
namespace Kernel391
open Kernel391.Foundations
set_option autoImplicit false

/-- `W` holds of every PCB an event may set up: the free ones, and the one that the PCB of the stack in use
names, which a restart frees first. -/
structure Spares (W : ℕ → Prop) (k : Kernel) (a : ℕ) : Prop where
  free : ∀ p < maxProcesses, k.processIds p = 0 → W (getPcbPtr p)
  named : W (getPcbPtr (k.pcb a).processId)

theorem fits_esp {k : Kernel} {e : Entry} (h : k.fits e = true) : getPcb e.regs.esp = k.current := by
  unfold Kernel.fits Kernel.onStack at h
  simp only [decide_eq_true_eq] at h
  exact h.2.2.1.1

theorem execute_fault_early {img : Image} {fs : Filesystem} {k k' : Kernel} {e : Entry} {caller : Cpu}
    {command : List UInt8} (h : execute img fs k e caller command = .fault k') :
    k'.pcb = k.pcb ∧ k'.cpu = k.cpu ∧ ∀ p, k'.processIds p = 0 → k.processIds p = 0 := by
  unfold execute at h
  split at h
  · cases h
    exact ⟨rfl, rfl, fun _ hp => hp⟩
  · split at h
    · cases h
    · split at h
      · cases h
      · next p k₁ hid =>
        simp only at h
        split at h
        · next k₂ ho =>
          cases h
          obtain ⟨m, hm⟩ := @openExecutable_phys _ _ _ _ _ (fun _ => 0) _ 0 (Or.inr ho)
          obtain ⟨-, hfree, -, rfl⟩ := Kernel.getProcessId_some hid
          subst hm
          refine ⟨rfl, rfl, fun q hq => ?_⟩
          have hq' : Function.update k.processIds p 1 q = 0 := hq
          by_cases hqp : q = p
          · rw [hqp, hfree]
          · rwa [Function.update_of_ne hqp] at hq'
        · cases h

namespace Ignores
variable {α : Type} {W : ℕ → Prop} {π : Kernel → α} (h : Ignores W π) {img : Image} {fs : Filesystem} {k k' : Kernel}
  {e : Entry} {ev : Event}
include h

theorem halted (hw : Spares W k (getPcb k.cpu.esp)) (caller : Cpu) (status : ℕ) :
    π (Kernel391.halt img fs k e caller status).kernel = π k := by
  refine h.halt k e (fun p hp => hw.free p hp.lt hp.free) (fun _ p hp => ?_) caller status
  by_cases hne : p = (k.pcb (getPcb k.cpu.esp)).processId
  · rw [hne]
    exact hw.named
  · have hrel : Function.update k.processIds (k.pcb (getPcb k.cpu.esp)).processId 0 p = 0 := hp.free
    rw [Function.update_of_ne hne] at hrel
    exact hw.free p hp.lt hrel

theorem exceptionHandler (hw : Spares W k (getPcb k.cpu.esp)) (caller : Cpu) (vector : ℕ) :
    π (Kernel391.exceptionHandler img fs k e caller vector).kernel = π k := by
  have hprintf : ∀ (k : Kernel) cs, π (k.printf cs) = π k := fun k cs => h.withConsole k _
  unfold Kernel391.exceptionHandler
  refine (h.halted ?_ caller 255).trans (by rw [hprintf, hprintf, hprintf])
  exact ⟨hw.free, hw.named⟩

theorem afterHalt (o : Outcome) (caller : Cpu) : π (o.afterHalt caller) = π o.kernel := by
  cases o with
  | ret r k => exact h.resume k _
  | gone k => rfl
  | fault k => exact h.resume k _

theorem pageFault (hw : Spares W k (getPcb k.cpu.esp)) (caller : Cpu) :
    π (Kernel391.pageFault img fs k e caller) = π k := by
  unfold Kernel391.pageFault
  rw [h.afterHalt, h.exceptionHandler hw]

theorem afterCall {o : Outcome} (ho : π o.kernel = π k)
    (hfault : ∀ k₁, o = .fault k₁ → Spares W k₁ (getPcb k₁.cpu.esp)) (caller : Cpu) :
    π (o.afterCall img fs e caller) = π k := by
  cases o with
  | ret r k₁ => exact (h.resume k₁ _).trans ho
  | gone k₁ => exact ho
  | fault k₁ => exact (h.pageFault (hfault k₁ rfl) caller).trans ho

theorem afterInterrupt {o : Outcome} (ho : π o.kernel = π k)
    (hfault : ∀ k₁, o = .fault k₁ → Spares W k₁ (getPcb k₁.cpu.esp)) (caller : Cpu) :
    π (o.afterInterrupt img fs e caller) = π k := by
  cases o with
  | ret r k₁ => exact (h.resume k₁ _).trans ho
  | gone k₁ => exact ho
  | fault k₁ => exact (h.pageFault (hfault k₁ rfl) caller).trans ho

theorem tick (hs : step img fs k (.tick e) = some k') : π k' = π k := by
  simp only [step] at hs
  split at hs
  · cases hs
    have ho : π (Kernel391.pitHandler (k.interrupted e) e).kernel = π k :=
      (h.pitHandler _ e).trans ((h.setFrame _ _ _).trans (h.enter _ _))
    refine h.afterInterrupt ho (fun k₁ hk₁ => ?_) k.cpu
    unfold Kernel391.pitHandler at hk₁
    generalize getPcb (k.interrupted e).cpu.esp = curr at hk₁
    simp only at hk₁
    split at hk₁
    · cases hk₁
    · split at hk₁ <;> cases hk₁
  · cases hs

theorem trap {c : Cpu} (hs : step img fs k (.trap c) = some k') : π k' = π k := by
  have hin : ∀ esp, π ((k.enter esp).resume c) = π k := fun esp => (h.resume _ _).trans (h.enter _ _)
  simp only [step] at hs
  split at hs
  · cases hs
    exact h.resume k c
  · cases hs
    exact h.resume k c
  · split at hs
    · cases hs
      exact hin _
    · cases hs
  · split at hs
    · cases hs
      exact hin _
    · cases hs
  · cases hs

theorem output {c : UInt8} (hs : step img fs k (.output c) = some k') : π k' = π k := by
  simp only [step] at hs
  split at hs
  · cases hs
    exact h.withConsole k _
  · cases hs

theorem called (hfree : ∀ p < maxProcesses, k.processIds p = 0 → W (getPcbPtr p)) (e : Entry) (command : List UInt8) :
    π (Kernel391.execute img fs (k.enter e.regs.esp) e k.cpu command).kernel = π k := by
  have ho : π (Kernel391.execute img fs (k.enter e.regs.esp) e k.cpu command).kernel = π (k.enter e.regs.esp) :=
    @Ignores.execute _ W π h (k.enter e.regs.esp) img fs e (fun p hp => hfree p hp.lt hp.free) k.cpu command
  exact ho.trans (h.enter _ _)

/-- **An event** other than a keystroke and the work of a program leaves the view alone. -/
theorem step (hw : k.cpu.mode = .user → Spares W k k.current) (hs : step img fs k ev = some k')
    (hkey : ∀ e scanCode, ev ≠ .key e scanCode)
    (hwork : ∀ w, ev ≠ .work w) : π k' = π k := by
  have hent : ∀ {e : Entry}, k.cpu.mode = .user → k.fits e = true →
      Spares W (k.enter e.regs.esp) (getPcb (k.enter e.regs.esp).cpu.esp) := by
    intro e hm hf
    refine ⟨(hw hm).free, ?_⟩
    show W (getPcbPtr (k.pcb (getPcb e.regs.esp)).processId)
    rw [fits_esp hf]
    exact (hw hm).named
  cases ev with
  | tick e => exact h.tick hs
  | key e scanCode => exact absurd rfl (hkey e scanCode)
  | execute e command =>
    simp only [Kernel391.step] at hs
    split at hs
    · next hc =>
      cases hs
      have hw' := hent hc.1 hc.2.1
      refine h.afterCall (h.called (hw hc.1).free e command) (fun k₁ hk₁ => ?_) k.cpu
      obtain ⟨hpcb, hcpu, hids⟩ := execute_fault_early hk₁
      refine ⟨fun p hp hz => hw'.free p hp (hids p hz), ?_⟩
      rw [hpcb, hcpu]
      exact hw'.named
    · cases hs
  | halt e status =>
    simp only [Kernel391.step] at hs
    split at hs
    · next hc =>
      cases hs
      exact (h.afterHalt _ _).trans ((h.halted (hent hc.1 hc.2.1) k.cpu status).trans (h.enter _ _))
    · cases hs
  | exception e vector =>
    simp only [Kernel391.step] at hs
    split at hs
    · next hc =>
      cases hs
      exact (h.afterHalt _ _).trans ((h.exceptionHandler (hent hc.1 hc.2.1) k.cpu vector).trans (h.enter _ _))
    · cases hs
  | output c => exact h.output hs
  | trap c => exact h.trap hs
  | work w => exact absurd rfl (hwork w)

end Ignores
end Kernel391
