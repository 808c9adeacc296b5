import Kernel391.Process.ProgramStart

/-! The shell of a bootable image. It is found and loaded whenever a slot is free, so
starting it again, or on a new terminal, either finds no slot or succeeds, and a
terminal switch never faults. -/
namespace Kernel391
open Kernel391.Foundations
set_option autoImplicit false

/-- The image holds a shell that can be executed. -/
structure Image.Bootable (img : Image) : Prop extends img.WellFormedDirectory where
  shell : ∃ d, img.firstNamed shell = some d ∧ img.Loadable (img.entryInode d) ∧
    img.fileWord (img.entryInode d) 0 = magic

theorem Image.small_bootable : Image.small.Bootable where
  toWellFormedDirectory := Image.small_wellFormed
  shell := ⟨2, by decide, ⟨by decide, by decide⟩, by decide +kernel⟩

theorem executableName_shell (e : Entry) : executableName e shell = shell := rfl

section Shell
variable {img : Image} {k k₁ : Kernel} {e : Entry} {caller : Cpu} {p t o q : ℕ}

theorem Image.Bootable.check (boot : img.Bootable) (magicNumbers : ℕ → UInt8) :
    ∃ i < img.inodeCount, img.Loadable i ∧
      checkExecutable img (Image.WellFormed.pointers img) magicNumbers Kernel391.shell = some (i : ℤ) := by
  obtain ⟨d, hd, hload, hmagic⟩ := boot.shell
  have hnul : 0 ∉ Kernel391.shell := by decide
  have h28 := hload.1
  have hi := boot.inode_lt d (img.firstNamed_some hd).1
  refine ⟨img.entryInode d, hi, hload, ?_⟩
  rcases checkExecutable_eq boot.toWellFormedDirectory magicNumbers hnul with ⟨d', hd', hc⟩ | ⟨hnone, -⟩
  · obtain rfl : d = d' := Option.some.inj (hd.symm.trans hd')
    rw [hc, readWord_eq (by omega), hmagic, if_neg fun hx => hx rfl]
  · rw [hnone] at hd
    cases hd

/-- **The shell starts** whenever a slot is free. -/
theorem execute_shell (boot : img.Bootable) (e : Entry) (caller : Cpu) (h : k.getProcessId ≠ none) :
    ∃ k', execute img (Image.WellFormed.pointers img) k e caller shell = .gone k' := by
  obtain ⟨i, hi, hload, hc⟩ := boot.check e.magicNumbers
  rw [← executableName_shell e] at hc
  cases hid : k.getProcessId with
  | none => exact absurd hid h
  | some r =>
    obtain ⟨p, k₁⟩ := r
    have hp := (Kernel.getProcessId_some hid).1
    obtain ⟨k', hgone, -⟩ := execute_loaded caller hc (by omega) hid (load_slot boot.toWellFormed k₁ hi hload hp e.eip)
    exact ⟨k', hgone⟩

/-! ## Terminal switches do not fault -/

/-- Where `switch_terminal` can be called: on a kernel stack, with the first page table in place, slot 0
in use and a process on screen that has one of the three pages. -/
structure Switchable (k : Kernel) : Prop where
  stack : getPcb k.cpu.esp ≠ 0
  tables : FixedMap (k.pageDir 0) k.pageTbl
  zero : k.inUse 0
  screen : ∃ o < maxProcesses, k.findOnscreenTerminalPid = some o ∧
    ∃ u < 3, (k.slot o).terminalInfo.fakePageAddr = fakePage u

/-- **A terminal's creation** finds no slot or succeeds. -/
theorem switchTerminal_creates (boot : img.Bootable) (hk : Switchable k) (ht : t < 3)
    (hnone : k.findTerminalPid t = none) (e : Entry) :
    k.getProcessId = none ∧ switchTerminal img (Image.WellFormed.pointers img) k e t = .ret (-1) k ∨
      ∃ k', switchTerminal img (Image.WellFormed.pointers img) k e t = .gone k' := by
  obtain ⟨i, hi, hload, hc⟩ := boot.check e.magicNumbers
  obtain ⟨o, hlt, ho, u, hu, hpage⟩ := hk.screen
  have hused := (Kernel.findOnscreenTerminalPid_some ho).2.1
  rw [switchTerminal_create hnone, ho, Option.getD_some]
  cases hid : k.getProcessId with
  | none =>
    exact Or.inl ⟨rfl, (createTerminal_refused (Or.inr hid)).resolve_right (by rw [hc]; exact Option.some_ne_none _)⟩
  | some r =>
    obtain ⟨p, k₁⟩ := r
    obtain ⟨hp, hfree, -, rfl⟩ := Kernel.getProcessId_some hid
    have hp0 : p ≠ 0 := by
      rintro rfl
      exact hk.zero hfree
    have hptr : getPcbPtr o ≠ getPcbPtr p := by
      intro hx
      rw [(getPcbPtr_inj hlt hp).mp hx] at hused
      exact hused hfree
    obtain ⟨k₃, hgone, -⟩ := createTerminal_displayed t (getPcbPtr o) hc (by omega) hid
      (load_slot boot.toWellFormed
        (({ k with processIds := Function.update k.processIds p 1 } : Kernel).setAttrib (color t)) hi
        hload hp e.eip) hp0 hptr ht hk.stack hk.tables ⟨u, hu, hpage⟩
    exact Or.inr ⟨_, hgone⟩

/-- **A switch to a terminal in use** succeeds. -/
theorem switchTerminal_shows {img : Image} {fs : Filesystem} (hk : Switchable k) (hf : k.findTerminalPid t = some q)
    (hq : ∃ u < 3, (k.slot q).terminalInfo.fakePageAddr = fakePage u) (e : Entry) :
    ∃ k', switchTerminal img fs k e t = .ret 1 k' := by
  obtain ⟨o, -, ho, u, hu, hpage⟩ := hk.screen
  obtain ⟨v, hv, hpage'⟩ := hq
  obtain ⟨k₁, hshow, -⟩ := showTerminal_memory (k := k.setAttrib (color t)) hk.tables hu hv hpage hpage'
  unfold switchTerminal
  rw [ho, hf, Option.getD_some]
  simp only
  unfold Kernel.slot at hpage hpage'
  generalize getPcbPtr o = onscreen at *
  generalize getPcbPtr q = requested at *
  rw [hshow]
  simp only
  split
  · exact ⟨_, rfl⟩
  · exact ⟨_, rfl⟩

end Shell
end Kernel391
