import Kernel391.System.CallReturn

/-! The way back from `halt` to `execute`. The frame that `setup_exec_stack` leaves in the caller leads back to it,
however long the child lives; the status is in EAX there, and the last statement of `execute` overwrites it. -/
namespace Kernel391
open Kernel391.Foundations
set_option autoImplicit false

/-! ## What `execute` returns -/

/-- The value that the call of `execute` is meant to return when the event ends the child: the status passed to
`halt`, and for a child killed by an exception none that a program can pass, nor that of a call that failed. -/
def Reports : Event → ℕ → Prop
  | .halt _ status, eax => eax = status
  | _, eax => 256 ≤ eax ∧ eax ≠ uint32 (-1)

def ExitsZero (ev : Event) : Prop := ∃ e, ev = .halt e 0

theorem reports_zero {img : Image} {fs : Filesystem} {k k₁ : Kernel} {ev : Event} {e : Entry} {status : ℕ}
    (hend : Ending img fs k ev k₁ e status) : Reports ev 0 ↔ ExitsZero ev := by
  cases hend with
  | halt =>
    constructor
    · rintro rfl
      exact ⟨e, rfl⟩
    · rintro ⟨e', he⟩
      cases he
      rfl
  | exception =>
    refine ⟨fun hx => absurd hx.1 (by decide), ?_⟩
    rintro ⟨e', he⟩
    cases he
  | fault =>
    refine ⟨fun hx => absurd hx.1 (by decide), ?_⟩
    rintro ⟨e', he⟩
    cases he

section Return
variable {img : Image} {k₀ k k₁ k₂ k₃ k' : Kernel} {e e' : Entry} {command : List UInt8} {ev : Event} {p c status : ℕ}

theorem called_returns (boot : img.Bootable) (h0 : Started img (Image.WellFormed.pointers img) k₀)
    (hrun : Reaches (step img (Image.WellFormed.pointers img)) anyStep k₀ k)
    (hcall : step img (Image.WellFormed.pointers img) k (.execute e command) = some k₁)
    (hgone : execute img (Image.WellFormed.pointers img) (k.enter e.regs.esp) e k.cpu command = .gone k₁)
    (hp : p < maxProcesses) (hcaller : k.current = getPcbPtr p) (hc : c < maxProcesses)
    (hchild : k₁.current = getPcbPtr c)
    (hlife : Reaches (step img (Image.WellFormed.pointers img)) (fun s _ => s.inUse c) k₁ k₂) (halive : k₂.inUse c)
    (hturn : k₂.current = getPcbPtr c) (hend : Ending img (Image.WellFormed.pointers img) k₂ ev k' e' status)
    (hexit : step img (Image.WellFormed.pointers img) k₂ ev = some k₃) : k₃.cpu = { k.cpu with eax := 0 } := by
  obtain ⟨S, hwaits, htop, hframe⟩ :=
    called_waits boot h0 hrun hcall hgone hp hcaller hc hchild hlife halive hturn hend hexit
  obtain ⟨S', d', hmove, -⟩ := step_follows boot hwaits.at_ hexit
  obtain ⟨k₁', e₁, status, u, l, o, y, -, -, -, -, -, -, hback, -, hview⟩ := hwaits.pops htop hend hmove
  obtain rfl : y = k.cpu := Frame.setupExecStack.inj (hback.symm.trans hframe)
  exact congrArg Processes.cpu hview

end Return

/-- **A call of `execute` returns 0** to its caller, whose registers but EAX are those of the call: the exit of the
child is reported exactly when it is a `halt` with status 0. -/
theorem exit_reported (img : Image) (boot : img.Bootable) {k₀ k k₁ k₂ k₃ k' : Kernel} {e e' : Entry}
    {command : List UInt8} {ev : Event} {p c status : ℕ} (h0 : Started img (Image.WellFormed.pointers img) k₀)
    (hrun : Reaches (step img (Image.WellFormed.pointers img)) anyStep k₀ k)
    (hcall : step img (Image.WellFormed.pointers img) k (.execute e command) = some k₁)
    (hgone : execute img (Image.WellFormed.pointers img) (k.enter e.regs.esp) e k.cpu command = .gone k₁)
    (hp : p < maxProcesses) (hcaller : k.current = getPcbPtr p) (hc : c < maxProcesses)
    (hchild : k₁.current = getPcbPtr c)
    (hlife : Reaches (step img (Image.WellFormed.pointers img)) (fun s _ => s.inUse c) k₁ k₂) (halive : k₂.inUse c)
    (hturn : k₂.current = getPcbPtr c) (hend : Ending img (Image.WellFormed.pointers img) k₂ ev k' e' status)
    (hexit : step img (Image.WellFormed.pointers img) k₂ ev = some k₃) :
    k₃.cpu = { k.cpu with eax := 0 } ∧ (Reports ev k₃.cpu.eax ↔ ExitsZero ev) := by
  have hcpu := called_returns boot h0 hrun hcall hgone hp hcaller hc hchild hlife halive hturn hend hexit
  refine ⟨hcpu, ?_⟩
  rw [hcpu]
  exact reports_zero hend

/-- A shell that lost the processor to a tick and printed a letter exits. -/
theorem exit_reported_interlude : ∃ k k₁ a k₂ k₃,
    step Image.small (Image.WellFormed.pointers Image.small) k (.execute (k.entry 64) shell) = some k₁ ∧
    Reaches (step Image.small (Image.WellFormed.pointers Image.small)) (fun s _ => s.inUse 2) k₁ a ∧
      a.current = getPcbPtr 1 ∧
    Reaches (step Image.small (Image.WellFormed.pointers Image.small)) (fun s _ => s.inUse 2) a k₂ ∧
    step Image.small (Image.WellFormed.pointers Image.small) k₂ (.halt (k₂.entry 64) 0) = some k₃ ∧
    k₃.cpu = { k.cpu with eax := 0 } ∧
    (Reports (.halt (k₂.entry 64) 0) k₃.cpu.eax ↔ ExitsZero (.halt (k₂.entry 64) 0)) := by
  obtain ⟨k, hrun, h, hparked, -⟩ := second_terminal
  obtain ⟨k₁, hs₁, hgone, h₁, hparked₁, -⟩ := h.calls Image.small_bootable hparked
  obtain ⟨a, k₂, hs₂, ha, hlife, h₂, hparked₂, -⟩ := h₁.life hparked₁
  obtain ⟨k₃, hs₃, -⟩ := h₂.returns Image.small_bootable hparked₂
  have halive : k₁.inUse 2 := h₁.used.mpr (by decide)
  have hleft := @Reaches.single _ _ (step Image.small (Image.WellFormed.pointers Image.small))
    (fun s _ => s.inUse 2) _ _ _ halive hs₂
  have hback := hlife.mono fun _ _ hok => hok.1
  exact ⟨k, k₁, a, k₂, k₃, hs₁, hleft, current_eq ha.here, hback, hs₃,
    exit_reported Image.small Image.small_bootable firstShell_started
      (hrun.mono fun _ _ _ => trivial) hs₁ hgone (by decide)
      (current_eq h.here) (by decide) (current_eq h₁.here) (hleft.trans hback) (h₂.used.mpr (by decide))
        (current_eq h₂.here)
      (.halt _ 0) hs₃⟩

/-- A program that ends with status 1 is reported like one that ends with 0. -/
theorem exit_not_reported :
    ¬ ∀ (img : Image), img.Bootable → ∀ k₀ k k₁ k₂ k₃ k' e e' command ev p c status,
      Started img (Image.WellFormed.pointers img) k₀ → Reaches (step img (Image.WellFormed.pointers img)) anyStep k₀ k →
      step img (Image.WellFormed.pointers img) k (.execute e command) = some k₁ →
      execute img (Image.WellFormed.pointers img) (k.enter e.regs.esp) e k.cpu command = .gone k₁ →
      p < maxProcesses → k.current = getPcbPtr p → c < maxProcesses → k₁.current = getPcbPtr c →
      Reaches (step img (Image.WellFormed.pointers img)) (fun s _ => s.inUse c) k₁ k₂ → k₂.inUse c →
        k₂.current = getPcbPtr c →
      Ending img (Image.WellFormed.pointers img) k₂ ev k' e' status →
      step img (Image.WellFormed.pointers img) k₂ ev = some k₃ → Reports ev k₃.cpu.eax := by
  intro hall
  obtain ⟨hcall, hgone, hcaller, hchild, halive, hm, hfits, hroom⟩ := firstShell_calls
  have hexit := @step_halt Image.small (Image.WellFormed.pointers Image.small) _ 1 _ hm hfits (by decide) hroom
  have hcpu :=
    called_returns Image.small_bootable firstShell_started (.refl _) hcall hgone (by decide) hcaller (by decide)
    hchild (.refl _) halive hchild (.halt _ 1) hexit
  have hone := hall Image.small Image.small_bootable _ _ _ _ _ _ _ _ _ _ _ _ _ firstShell_started
    (.refl _) hcall hgone (by decide)
    hcaller (by decide) hchild (.refl _) halive hchild (.halt _ 1) hexit
  rw [hcpu] at hone
  cases hone

end Kernel391
