import Kernel391.System.SharedScreen

/-! The frames on the kernel stacks. An event writes on the stack in use only: what a process left on its own stack
stays there until the processor comes back. -/
namespace Kernel391
open Kernel391.Foundations
set_option autoImplicit false

section Frames
variable {img : Image} {fs : Filesystem} {k k' : Kernel} {S S' : Stacks} {c c' a : ℕ} {ev : Event} {e : Entry}

theorem key_outcome (boot : img.Bootable) (h : At k.processes S c) {scanCode : ℕ}
    (hs : step img (Image.WellFormed.pointers img) k (.key e scanCode) = some k') :
    EntryOn c e ∧ (k'.cpu = k.cpu ∧ k'.frames = (k.preempted e).frames ∨
      ∃ o p t eip, k'.processes = (k.preempted e).create c o p t e eip) := by
  simp only [step] at hs
  split at hs
  · next hc =>
    have hent := (entryOn_of_fits h hc.2.1).1
    have hret : ∀ {k₁ : Kernel} {r : ℤ}, handleKeyboard img (Image.WellFormed.pointers img)
      (k.interrupted e) e scanCode = .ret r k₁ →
        k₁.frames = (k.preempted e).frames → EntryOn c e ∧ (k'.cpu = k.cpu ∧ k'.frames = (k.preempted e).frames ∨
          ∃ o p t eip, k'.processes = (k.preempted e).create c o p t e eip) := by
      intro k₁ r hr hframes
      rw [hr] at hs
      cases hs
      exact ⟨hent, Or.inl ⟨rfl, hframes⟩⟩
    rcases @handleKeyboard_cases img (Image.WellFormed.pointers img) (k.interrupted e) e scanCode with
      ⟨-, k₁, hr, hview⟩ | ⟨t, k₀, -, -, hview,
        ⟨r, k₁, k₂, hswitch, hr, hview₂⟩ | ⟨k₁, hswitch, hgone⟩ | ⟨k₁, -, hfault⟩⟩
    · exact hret hr (congrArg Processes.frames hview)
    · have hframes : k₂.frames = k₁.frames := congrArg Processes.frames hview₂
      have hstart : k₀.frames = (k.preempted e).frames := congrArg Processes.frames hview
      refine hret hr (hframes.trans ?_)
      rcases switchTerminal_ret hswitch with ⟨-, -, rfl⟩ | ⟨q, -, -, -, hshow⟩
      · exact hstart
      · exact (congrArg Processes.frames hshow).trans hstart
    · rw [hgone] at hs
      cases hs
      have hstack : getPcb k₀.cpu.esp = getPcbPtr c := by
        rw [show k₀.cpu = (k.interrupted e).cpu from congrArg Processes.cpu hview]
        exact hent.esp
      obtain ⟨-, p, eip, -, -, hcreate⟩ := switchTerminal_gone h.lt hstack hswitch
      rw [hview] at hcreate
      exact ⟨hent, Or.inr ⟨_, p, t, eip, hcreate⟩⟩
    · exact absurd hfault (keyboard_faultless boot h hc.2.1 k₁)
  · cases hs

theorem launch_there {P P₀ : Processes} {F F' : ℕ → Frame} {x y : Frame} (he : Entered P c P.cpu P₀)
    (hent : EntryOn c e)
    (ha : getPcb a ≠ getPcbPtr c) (hF : F = P₀.frames)
    (hF' : F' = Function.update (Function.update F e.regs.ebp x) e.frame y) : F' a = P.frames a := by
  have hframe : a ≠ e.frame := fun hx => ha (by rw [hx]; exact hent.frame.1)
  have hebp : a ≠ e.regs.ebp := fun hx => ha (by rw [hx]; exact hent.ebp.1)
  rw [hF', Function.update_of_ne hframe, Function.update_of_ne hebp, hF]
  exact he.there a ha

theorem doSchedule_frames (P : Processes) (next ebp eax : ℕ) : (P.doSchedule next ebp eax).frames = P.frames := by
  unfold Processes.doSchedule
  split
  · split <;> rfl
  · rfl
  · rfl

theorem switchTo_frames (P : Processes) (c q : ℕ) (e : Entry) : (P.switchTo c q e).frames = P.frames :=
  doSchedule_frames _ _ _ _

theorem haltProcess_frames (P : Processes) (status ebp : ℕ) : (P.haltProcess status ebp).frames = P.frames := by
  unfold Processes.haltProcess
  split <;> rfl

theorem uneventful_frames (boot : img.Bootable) (h : At k.processes S c)
    (quiet : Uneventful img (Image.WellFormed.pointers img) k S ev) (ha : getPcb a ≠ getPcbPtr c)
    (hs : step img (Image.WellFormed.pointers img) k ev = some k') : k'.frames a = k.frames a := by
  have henter : ∀ esp, (k.enter esp).frames a = k.frames a := fun esp => (entered_call h esp).there a ha
  cases ev with
  | tick e => exact absurd rfl (quiet.tick e)
  | key e scanCode =>
    obtain ⟨hent, ⟨-, hframes⟩ | ⟨o, p, t, eip, hview⟩⟩ := key_outcome boot h hs
    · rw [hframes]
      exact (entered_interrupt h hent).there a ha
    · exact launch_there (entered_interrupt h hent) hent ha rfl (congrArg Processes.frames hview)
  | execute e command =>
    simp only [step] at hs
    split at hs
    · cases hs
      cases ho : execute img (Image.WellFormed.pointers img) (k.enter e.regs.esp) e k.cpu command with
      | ret r k₁ =>
        obtain ⟨-, rfl⟩ := execute_ret ho
        exact henter e.regs.esp
      | gone k₁ => exact absurd ho (quiet.execute e command k₁ rfl)
      | fault k₁ => exact absurd (Ending.fault ho) (quiet.going _ _ _)
    · cases hs
  | halt e status => exact absurd (Ending.halt e status) (quiet.going _ _ _)
  | exception e vector => exact absurd (Ending.exception e vector) (quiet.going _ _ _)
  | output b =>
    simp only [step] at hs
    split at hs
    · cases hs
      rfl
    · cases hs
  | trap x =>
    rcases trap_eq hs with rfl | rfl
    · rfl
    · exact henter x.esp
  | work w =>
    simp only [step] at hs
    split at hs
    · cases hs
      rfl
    · cases hs

/-- **The frames of a process that is not on the processor** stay through every event. -/
theorem Move.frames (boot : img.Bootable) (m : Move img (Image.WellFormed.pointers img) k S c k' ev S' c')
    (h : At k.processes S c)
    (ha : getPcb a ≠ getPcbPtr c) (hs : step img (Image.WellFormed.pointers img) k ev = some k') :
    k'.frames a = k.frames a := by
  have hleak : ∀ {e : Entry} {o : Option ℕ}, Entered k.processes c k.cpu (k.called e) →
      ((k.called e).leaked o).frames a = k.frames a := fun he => by
    rw [leaked_frames]
    exact he.there a ha
  have hview : ∀ {P : Processes}, k'.processes = P → P.frames a = k.frames a → k'.frames a = k.frames a := by
    rintro P rfl hP
    exact hP
  cases m with
  | stay quiet => exact uneventful_frames boot h quiet ha hs
  | tick entered top next gone view =>
    refine hview view ?_
    rw [switchTo_frames]
    exact entered.there a ha
  | display entered request stack ret resume view => exact hview view (entered.there a ha)
  | create entered entry request stack slot gone view => exact hview view (launch_there entered entry ha rfl rfl)
  | push entered entry stack slot gone view => exact hview view (launch_there entered entry ha rfl rfl)
  | pop entered ending before leak stack frame gone view => exact hview view (hleak entered)
  | restart entered ending before leak stack gone view =>
    refine hview view ?_
    exact launch_there entered (entryOn_of_ending h hs ending).1 ha (leaked_frames _ _) rfl
  | close entered ending before leak stack other parent elsewhere first spin gone view =>
    exact hview view (hleak entered)
  | lost entered ending before leak stack other parent same gone view wild =>
    refine hview view ?_
    rw [haltProcess_frames]
    exact hleak entered

end Frames
end Kernel391
