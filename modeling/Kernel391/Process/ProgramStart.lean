import Kernel391.Process.Execute
import Kernel391.Process.Loading
import Kernel391.Process.Transitions

/-! Program start. `execute` and the shell start inside `switch_terminal` go through
the same fallible chain; the result of the last link, `open_executable`, is dropped
by both. -/
namespace Kernel391
open Kernel391.Foundations
set_option autoImplicit false

/-! ## What a start should do -/

/-- The entry point of a program: the word at bytes 24 to 27, when the file has them. -/
def Image.entryPoint (img : Image) (i : ℕ) : Option ℕ :=
  if 28 ≤ img.fileLength i then some (img.fileWord i 24) else none

/-- A file that has an entry point and fits above 0x08048000 in the program page. -/
def Image.Loadable (img : Image) (i : ℕ) : Prop := 28 ≤ img.fileLength i ∧ img.fileLength i ≤ programRoom

/-- The stores `open_executable` makes for an inode, in order, when no page stops them. -/
def loadWrites (img : Image) (fs : Filesystem) (eip : ℕ → UInt8) (i : ℕ) : List (ℕ × UInt8) :=
  match openExecutable img fs (⟨[]⟩ : WriteLog) eip i with
  | .ok (_, _, log) => log.writes
  | .error log => log.writes

/-- Slot `p` runs the file `i`: its page is mapped and holds the whole file, no store of the loading
left the page, no other program's page changed, and the processor is at the entry point. -/
structure RunsFile (img : Image) (fs : Filesystem) (eip : ℕ → UInt8) (i p : ℕ) (k k' : Kernel) : Prop where
  taken : k'.processIds = Function.update k.processIds p 1
  page : ∀ o < fourMb, k'.translate (programAddr + o) = some (programFrame p + o)
  loaded : ∀ j < img.fileLength i, ∃ a, k'.translate (programStart + j) = some a ∧
    (img.fileBytes i)[j]? = some (k'.phys a)
  inside : ∀ w ∈ loadWrites img fs eip i, programAddr ≤ w.1 ∧ w.1 < vmemAddr
  others : ∀ a, eightMb ≤ a → a < programFrame p ∨ programFrame p + fourMb ≤ a → k'.phys a = k.phys a
  mode : k'.cpu.mode = .user
  entry : img.entryPoint i = some k'.cpu.eip

/-- Nothing a start changes has changed. -/
structure Untouched (k k' : Kernel) : Prop where
  processIds : k'.processIds = k.processIds
  pcb : k'.pcb = k.pcb
  pageDir : k'.pageDir = k.pageDir
  tss : k'.tss = k.tss

/-- All: a child runs the file of that name in the lowest free slot. Nothing: -1. -/
def AllOrNothing (img : Image) (fs : Filesystem) (name : List UInt8) (eip : ℕ → UInt8) (k : Kernel)
    (o : Outcome) : Prop :=
  (∃ d p k', img.firstNamed name = some d ∧ k.processes.FirstFree p ∧ o = .gone k' ∧
    RunsFile img fs eip (img.entryInode d) p k k') ∨
  ∃ k', o = .ret (-1) k' ∧ Untouched k k'

def Refused (img : Image) (fs : Filesystem) (name : List UInt8) (magicNumbers : ℕ → UInt8) (k : Kernel) :
    Prop :=
  (∃ r < 0, checkExecutable img fs magicNumbers name = some r) ∨ k.getProcessId = none

/-- The name is that of a file that can be loaded. -/
def Image.Program (img : Image) (name : List UInt8) : Prop :=
  ∃ d, img.firstNamed name = some d ∧ img.Loadable (img.entryInode d)

/-! ## The stores of the loading -/

section Writes
variable {img : Image}

theorem loadWrites_eq (wf : img.WellFormed) {i : ℕ} (hi : i < img.inodeCount) (eip : ℕ → UInt8)
    (h24 : 24 ≤ img.fileLength i) :
    loadWrites img (Image.WellFormed.pointers img) eip i =
      consecutive programStart (img.fileSlice i 0 (img.fileLength i)) := by
  have hlen := wf.length_le i hi
  have hsz := wf.size
  have hfits := wf.fits
  have hu : uint32 (i : ℤ) = i := by
    simp only [bytesPerBlock] at hsz
    unfold uint32
    omega
  have hmax : min fourMb (img.fileLength i - 0) = img.fileLength i := by
    simp only [bytesPerBlock] at hlen
    simp only [fourMb]
    omega
  unfold loadWrites openExecutable
  rw [hu, readData_memory wf i hi eip 24 0 4 h24]
  simp only
  rw [if_neg (by omega), readData_eq wf i hi _ 0 programStart fourMb (Nat.zero_le _), hmax, putBytes_log]
  simp only [List.nil_append]
  rw [if_neg (by omega)]

theorem loadWrites_inside (wf : img.WellFormed) {i : ℕ} (hi : i < img.inodeCount) (eip : ℕ → UInt8)
    (h24 : 24 ≤ img.fileLength i) :
    (∀ w ∈ loadWrites img (Image.WellFormed.pointers img) eip i, programAddr ≤ w.1 ∧ w.1 < vmemAddr) ↔
      img.fileLength i ≤ programRoom := by
  have hroom : programStart + programRoom = vmemAddr := by decide
  have hlow : programAddr ≤ programStart := by decide
  rw [loadWrites_eq wf hi eip h24]
  constructor
  · intro h
    by_contra hlen
    have hget : (img.fileSlice i 0 (img.fileLength i))[programRoom]? = some (img.fileByte i programRoom) := by
      simp [Image.fileSlice, show programRoom < img.fileLength i by omega]
    have hw := h (vmemAddr, img.fileByte i programRoom) (mem_consecutive.mpr ⟨by omega, by
      rw [show vmemAddr - programStart = programRoom by omega]
      exact hget⟩)
    omega
  · intro hlen w hw
    obtain ⟨hlo, hget⟩ := mem_consecutive.mp hw
    obtain ⟨hlt, -⟩ := List.getElem?_eq_some_iff.mp hget
    rw [Image.fileSlice_length] at hlt
    omega

end Writes

/-! ## What the last steps leave alone -/

/-- The slots taken, the page directory and memory. -/
structure Memory where
  processIds : ℕ → ℕ
  pageDir : ℕ → PageDirEntry
  phys : ℕ → UInt8

namespace Kernel
variable (k : Kernel)

def memory : Memory := ⟨k.processIds, k.pageDir, k.phys⟩

theorem memory_setPcb (a : ℕ) (f : Pcb → Pcb) : (k.setPcb a f).memory = k.memory := rfl
theorem memory_setTerminal (a : ℕ) (f : TerminalInfo → TerminalInfo) : (k.setTerminal a f).memory = k.memory := rfl
theorem memory_saveRegs (a : ℕ) (r : Regs) : (k.saveRegs a r).memory = k.memory := rfl
theorem memory_setFrame (a : ℕ) (f : Frame) : (k.setFrame a f).memory = k.memory := rfl
theorem memory_setTss (a : ℕ) : (k.setTss a).memory = k.memory := rfl
theorem memory_initPit : k.initPit.memory = k.memory := rfl

theorem memory_setupExecStack (eip a frame eax : ℕ) (f : Frame) :
    (k.setupExecStack eip a frame f eax).memory = k.memory := rfl

theorem phys_setupExecStack (eip a frame eax : ℕ) (f : Frame) :
    (k.setupExecStack eip a frame f eax).phys = k.phys := rfl

theorem memory_inheritTerminal (a b : ℕ) : (k.inheritTerminal a b).memory = k.memory := by
  unfold inheritTerminal
  simp only [memory_setPcb, memory_setTerminal]

theorem memory_firstTerminal (a : ℕ) : (k.firstTerminal a).memory = k.memory := by
  unfold firstTerminal
  simp only [memory_setPcb, memory_setTerminal, memory_initPit]

end Kernel

/-! ## From the loading to the child -/

section Child
variable {img : Image} {k k₁ k₂ : Kernel} {e : Entry} {r r' : ℤ} {p : ℕ}

theorem runsFile_of_loaded (wf : img.WellFormed) {i : ℕ} (hi : i < img.inodeCount) (hload : img.Loadable i)
    (hp : p < maxProcesses) (eip : ℕ → UInt8) {k' : Kernel}
    (htaken : k'.processIds = Function.update k.processIds p 1)
    (hdir : k'.pageDir programIdx = programEntry (programFrame p))
    (hphys : ∀ a, eightMb ≤ a → k'.phys a =
      overlay k.phys (programFrame p + 0x48000) (img.fileSlice i 0 (img.fileLength i)) a)
    (hmode : k'.cpu.mode = .user) (hentry : k'.cpu.eip = wordAt (readWord img eip i 24) 0) :
    RunsFile img (Image.WellFormed.pointers img) eip i p k k' := by
  have hroom : programRoom + 0x48000 = fourMb := by decide
  obtain ⟨h28, hfit⟩ := hload
  have hframe : eightMb ≤ programFrame p := by
    unfold programFrame
    omega
  refine ⟨htaken, fun o ho => Kernel.translate_program hp hdir ho, ?_, ?_, ?_, hmode, ?_⟩
  · intro j hj
    have htr := Kernel.translate_program hp hdir (o := 0x48000 + j) (by omega)
    rw [← Nat.add_assoc, ← Nat.add_assoc, ← programStart_eq] at htr
    refine ⟨_, htr, ?_⟩
    rw [hphys _ (by omega), overlay_at _ _ _ _ (by rw [Image.fileSlice_length]; exact hj),
      img.fileBytes_get i j hj]
    simp [Image.fileSlice]
  · exact (loadWrites_inside wf hi eip (by omega)).mpr hfit
  · intro a ha hout
    rw [hphys a ha]
    rcases hout with h | h
    · exact overlay_of_lt _ _ (by omega)
    · exact overlay_of_ge _ _ (by rw [Image.fileSlice_length]; omega)
  · unfold Image.entryPoint
    rw [if_pos h28, hentry, readWord_eq (by omega)]

/-- What rules a start out: a file without an entry point, or one that the page cannot hold. -/
theorem loadable_of_runsFile (wf : img.WellFormed) {i : ℕ} (hi : i < img.inodeCount) {eip : ℕ → UInt8}
    {k' : Kernel} (h : RunsFile img (Image.WellFormed.pointers img) eip i p k k') : img.Loadable i := by
  have h28 : 28 ≤ img.fileLength i := by
    by_contra hlt
    have hentry := h.entry
    unfold Image.entryPoint at hentry
    rw [if_neg hlt] at hentry
    cases hentry
  exact ⟨h28, (loadWrites_inside wf hi eip (by omega)).mp h.inside⟩

end Child

/-! ## `execute` -/

section Execute
variable {img : Image} {fs : Filesystem} {k k₁ k₂ : Kernel} {e : Entry} {caller : Cpu} {command : List UInt8}
  {r r' : ℤ} {p : ℕ}

theorem execute_refused (h : Refused img fs (executableName e command) e.magicNumbers k) :
    execute img fs k e caller command = .ret (-1) k ∨
      checkExecutable img fs e.magicNumbers (executableName e command) = none := by
  unfold execute
  rcases h with ⟨r, hr, hc⟩ | hid
  · left
    simp only [hc, if_pos hr]
  · cases hc : checkExecutable img fs e.magicNumbers (executableName e command) with
    | none => exact Or.inr rfl
    | some r =>
      left
      simp only [hid]
      split <;> rfl

variable (caller) in
theorem execute_loaded {eip : ℕ → UInt8}
    (hc : checkExecutable img fs e.magicNumbers (executableName e command) = some r) (hr : 0 ≤ r)
    (hid : k.getProcessId = some (p, k₁))
    (ho : openExecutable img fs (k₁.setPagerDirEntry (programFrame p)) e.eip r = .ok (r', eip, k₂)) :
    ∃ k', execute img fs k e caller command = .gone k' ∧ k'.memory = k₂.memory ∧
      k'.cpu = ⟨.user, wordAt eip 0, programStack, e.eax⟩ := by
  unfold execute
  unfold programFrame at ho
  simp only [hc, if_neg (show ¬ r < 0 by omega), hid, ho]
  generalize getPcbPtr p = self
  generalize k₂.getParentPcb p = parent
  refine ⟨_, rfl, ?_, rfl⟩
  rw [Kernel.memory_setupExecStack, Kernel.memory_setTss, Kernel.memory_setPcb, Kernel.memory_setFrame,
    Kernel.memory_saveRegs, Kernel.memory_setPcb]
  split
  · exact k₂.memory_inheritTerminal self parent
  · exact k₂.memory_firstTerminal self

theorem execute_past (hc : checkExecutable img fs e.magicNumbers (executableName e command) = some r)
    (hr : 0 ≤ r) (hid : k.getProcessId = some (p, k₁)) {k' : Kernel} :
    execute img fs k e caller command ≠ .ret (-1) k' := by
  intro h
  unfold execute at h
  simp only [hc, if_neg (show ¬ r < 0 by omega), hid] at h
  split at h <;> cases h

end Execute

/-! ## Refused, or loadable -/

section Start
variable {img : Image}

theorem start_cases (wf : img.WellFormedDirectory) (k : Kernel) (magicNumbers : ℕ → UInt8)
    {name : List UInt8} (h : 0 ∉ name) :
    (Refused img (Image.WellFormed.pointers img) name magicNumbers k ∧
      checkExecutable img (Image.WellFormed.pointers img) magicNumbers name ≠ none) ∨
    ∃ d p k₁, img.firstNamed name = some d ∧ img.entryInode d < img.inodeCount ∧
      checkExecutable img (Image.WellFormed.pointers img) magicNumbers name = some (img.entryInode d : ℤ) ∧
      k.getProcessId = some (p, k₁) := by
  rcases checkExecutable_eq wf magicNumbers h with ⟨d, hf, hc⟩ | ⟨-, r, hneg, hc⟩
  · have hi := wf.inode_lt d (img.firstNamed_some hf).1
    split at hc
    · exact Or.inl ⟨Or.inl ⟨-1, by decide, hc⟩, hc ▸ Option.some_ne_none _⟩
    · cases hid : k.getProcessId with
      | none => exact Or.inl ⟨Or.inr hid, hc ▸ Option.some_ne_none _⟩
      | some q => exact Or.inr ⟨d, q.1, q.2, hf, hi, hc, rfl⟩
  · exact Or.inl ⟨Or.inl ⟨r, hneg, hc⟩, hc ▸ Option.some_ne_none _⟩

theorem not_refused {fs : Filesystem} {k k₁ : Kernel} {magicNumbers : ℕ → UInt8} {name : List UInt8} {p : ℕ}
    {r : ℤ} (hr : 0 ≤ r) (hc : checkExecutable img fs magicNumbers name = some r)
    (hid : k.getProcessId = some (p, k₁)) : ¬ Refused img fs name magicNumbers k := by
  rintro (⟨r', hneg, hc'⟩ | hid')
  · rw [hc, Option.some.injEq] at hc'
    omega
  · rw [hid] at hid'
    cases hid'

theorem load_slot (wf : img.WellFormed) (k : Kernel) {p i : ℕ} (hi : i < img.inodeCount)
    (hload : img.Loadable i) (hp : p < maxProcesses) (eip : ℕ → UInt8) :
    openExecutable img (Image.WellFormed.pointers img) (k.setPagerDirEntry (programFrame p)) eip i =
      .ok (0, readWord img eip i 24,
        { k.setPagerDirEntry (programFrame p) with
          phys := overlay k.phys (programFrame p + 0x48000) (img.fileSlice i 0 (img.fileLength i)) }) := by
  have hu : uint32 (i : ℤ) = i := by
    have hsz := wf.size
    have hfits := wf.fits
    simp only [bytesPerBlock] at hsz
    unfold uint32
    omega
  have h := openExecutable_eq wf hi hu hp (k.setPagerDirEntry_program p) hload.2 eip
  rw [if_neg (by have := hload.1; omega)] at h
  exact h

/-- **`execute` is all or nothing** exactly when it refuses or the named file can be loaded. -/
theorem execute_allOrNothing (wf : img.WellFormedDirectory) (k : Kernel) (e : Entry) (caller : Cpu)
    (command : List UInt8) :
    AllOrNothing img (Image.WellFormed.pointers img) (executableName e command) e.eip k
        (execute img (Image.WellFormed.pointers img) k e caller command) ↔
      Refused img (Image.WellFormed.pointers img) (executableName e command) e.magicNumbers k ∨
        img.Program (executableName e command) := by
  have hname : 0 ∉ executableName e command := by
    intro hmem
    have := List.mem_takeWhile_imp hmem
    simp at this
  rcases start_cases wf k e.magicNumbers hname with ⟨href, hne⟩ | ⟨d, p, k₁, hf, hi, hc, hid⟩
  · refine iff_of_true (Or.inr ⟨k, ?_, ⟨rfl, rfl, rfl, rfl⟩⟩) (Or.inl href)
    exact (execute_refused href).resolve_right hne
  · have hr : (0 : ℤ) ≤ img.entryInode d := by omega
    constructor
    · rintro (⟨d', q, k', hf', -, -, hrun⟩ | ⟨k', hret, -⟩)
      · exact Or.inr ⟨d', hf', loadable_of_runsFile wf.toWellFormed
          (wf.inode_lt d' (img.firstNamed_some hf').1) hrun⟩
      · exact absurd hret (execute_past hc hr hid)
    · rintro (href | ⟨d', hf', hload⟩)
      · exact absurd href (not_refused hr hc hid)
      · rw [hf, Option.some.injEq] at hf'
        subst hf'
        have hff := (Kernel.getProcessId_processes hid).1
        obtain ⟨k', hgone, hmem, hcpu⟩ := execute_loaded caller hc hr hid
          (load_slot wf.toWellFormed k₁ hi hload hff.lt e.eip)
        simp only [Kernel.memory, Memory.mk.injEq] at hmem
        obtain ⟨hids, hpd, hph⟩ := hmem
        obtain ⟨-, -, -, rfl⟩ := Kernel.getProcessId_some hid
        refine Or.inl ⟨d, p, k', hf, hff, hgone, ?_⟩
        refine runsFile_of_loaded wf.toWellFormed hi hload hff.lt e.eip hids
          (by rw [hpd, Kernel.setPagerDirEntry_program]) (fun a _ => by rw [hph]) (by rw [hcpu]) (by rw [hcpu])

end Start

/-! ## The shell start inside `switch_terminal` -/

/-- What holds where `switch_terminal` starts a shell: the handler runs on a kernel stack, the first
page table is that of `paging.c`, and some process is on screen with one of the three pages. -/
structure Displaying (k : Kernel) : Prop where
  stack : getPcb k.cpu.esp ≠ 0
  tables : FixedMap (k.pageDir 0) k.pageTbl
  video : k.frameOf video + fourKb ≤ eightMb
  screen : ∃ o < maxProcesses, k.findOnscreenTerminalPid = some o ∧
    ∃ t < 3, (k.slot o).terminalInfo.fakePageAddr = fakePage t

section Show
variable {k : Kernel}

theorem exchanged_above (m : ℕ → UInt8) {t u a : ℕ} (ht : t < 3) (ha : eightMb ≤ a) :
    exchanged m t u a = m a := by
  have hfake : fakePage t + screenBytes ≤ eightMb := by
    rw [fakePage_eq]
    simp only [video, fourKb, screenBytes, numRows, numCols, eightMb]
    omega
  have hvideo : video + screenBytes ≤ eightMb := by decide
  unfold exchanged copied
  rw [if_neg (by omega), if_neg (by omega)]

theorem showTerminal_memory (hm : FixedMap (k.pageDir 0) k.pageTbl) {o r t u : ℕ} (ht : t < 3) (hu : u < 3)
    (ho : (k.pcb o).terminalInfo.fakePageAddr = fakePage t)
    (hr : (k.pcb r).terminalInfo.fakePageAddr = fakePage u) :
    ∃ k', k.showTerminal o r = .ok k' ∧ k'.processIds = k.processIds ∧ k'.pageDir = k.pageDir ∧
      k'.pageTbl = k.pageTbl ∧ ∀ a, eightMb ≤ a → k'.phys a = k.phys a := by
  unfold Kernel.showTerminal
  simp only [ho, hr, Kernel.switchKernelMemory_eq hm ht hu]
  by_cases hsame : (k.pcb o).terminalInfo.terminalNum ≠ (k.pcb r).terminalInfo.terminalNum
  · rw [if_pos hsame]
    exact ⟨_, rfl, rfl, rfl, rfl, fun a ha => exchanged_above _ ht ha⟩
  · rw [if_neg hsame]
    exact ⟨_, rfl, rfl, rfl, rfl, fun _ _ => rfl⟩

theorem clearScreen_above {a : ℕ} (hv : k.frameOf video + fourKb ≤ eightMb) (ha : eightMb ≤ a) :
    k.clearScreen.phys a = k.phys a := by
  unfold Kernel.clearScreen Kernel.withConsole
  exact if_neg (by omega)

end Show

/-- The end of a terminal's creation: its context is saved, its screen cleared, its program entered. -/
def Kernel.rootShell (k : Kernel) (e : Entry) (p eip : ℕ) : Kernel :=
  let k := k.setTss (eightMb - eightKb * p - 4)
  let k := (k.saveRegs (getPcbPtr p) e.regs).setFrame e.regs.ebp .switchTerminal
  k.clearScreen.setupExecStack eip (getPcbPtr p) e.frame .switchTerminal e.eax

section Create
variable {img : Image} {fs : Filesystem} {k k₁ k₂ : Kernel} {e : Entry} {r r' : ℤ} {p t o : ℕ}

theorem createTerminal_refused (h : Refused img fs shell e.magicNumbers k) :
    createTerminal img fs k e o t = .ret (-1) k ∨ checkExecutable img fs e.magicNumbers shell = none := by
  unfold createTerminal
  rcases h with ⟨r, hr, hc⟩ | hid
  · left
    simp only [hc, if_pos hr]
  · cases hc : checkExecutable img fs e.magicNumbers shell with
    | none => exact Or.inr rfl
    | some r =>
      left
      simp only [hid]
      split <;> rfl

theorem createTerminal_past (hc : checkExecutable img fs e.magicNumbers shell = some r) (hr : 0 ≤ r)
    (hid : k.getProcessId = some (p, k₁)) {k' : Kernel} : createTerminal img fs k e o t ≠ .ret (-1) k' := by
  intro h
  have := createTerminal_ret h
  unfold createTerminal at h
  simp only [hc, if_neg (show ¬ r < 0 by omega), hid] at h
  split at h
  · cases h
  · split at h
    · cases h
    · split at h <;> cases h

/-- In slot 0 the shell would have no parent, and the write to its terminal faults. -/
theorem createTerminal_orphan (hc : checkExecutable img fs e.magicNumbers shell = some r) (hr : 0 ≤ r)
    (hid : k.getProcessId = some (0, k₁)) {k' : Kernel} : createTerminal img fs k e o t ≠ .gone k' := by
  intro h
  unfold createTerminal at h
  simp only [hc, if_neg (show ¬ r < 0 by omega), hid] at h
  split at h
  · cases h
  · next k₂ _ =>
    rw [if_pos (show k₂.getParentPcb 0 = 0 from rfl)] at h
    cases h

variable (t) in
theorem createTerminal_displayed {eip : ℕ → UInt8} (onscreen : ℕ)
    (hc : checkExecutable img fs e.magicNumbers shell = some r) (hr : 0 ≤ r)
    (hid : k.getProcessId = some (p, k₁))
    (ho : openExecutable img fs ((k₁.setAttrib (color t)).setPagerDirEntry (programFrame p)) e.eip r =
      .ok (r', eip, k₂))
    (hp : p ≠ 0) (hptr : onscreen ≠ getPcbPtr p) (ht : t < 3)
    (hstack : getPcb k₂.cpu.esp ≠ 0) (htables : FixedMap (k₂.pageDir 0) k₂.pageTbl)
    (hscreen : ∃ u < 3, (k₂.pcb onscreen).terminalInfo.fakePageAddr = fakePage u) :
    ∃ k₃ : Kernel, createTerminal img fs k e onscreen t = .gone (k₃.rootShell e p (wordAt eip 0)) ∧
      k₃.processIds = k₂.processIds ∧ k₃.pageDir = k₂.pageDir ∧ k₃.pageTbl = k₂.pageTbl ∧
      ∀ a, eightMb ≤ a → k₃.phys a = k₂.phys a := by
  have hparent : k₂.getParentPcb p ≠ 0 := by
    unfold Kernel.getParentPcb
    rw [if_neg hp]
    exact hstack
  obtain ⟨u, hu, hpage⟩ := hscreen
  unfold createTerminal Kernel.rootShell
  unfold programFrame at ho
  simp only [hc, if_neg (show ¬ r < 0 by omega), hid, ho, if_neg hparent]
  generalize getPcbPtr p = self at hptr ⊢
  generalize k₂.getParentPcb p = parent
  have hfake : ∀ (k₃ : Kernel) (f : Pcb → Pcb), (∀ b, (f b).terminalInfo = b.terminalInfo) →
      (((k₃.setTerminal self fun _ => Kernel.newTerminal t).setPcb self f).pcb self).terminalInfo.fakePageAddr =
        fakePage t := by
    intro k₃ f hf
    simp only [Kernel.setPcb, Kernel.setTerminal, Function.update_self, hf]
    rfl
  have hother : ∀ f : Pcb → Pcb,
      ((((k₂.setTerminal parent fun t => { t with isOnscreen := 0 }).setTerminal self fun _ =>
        Kernel.newTerminal t).setPcb self f).pcb onscreen).terminalInfo.fakePageAddr = fakePage u := by
    intro f
    simp only [Kernel.setPcb, Kernel.setTerminal, Function.update_of_ne hptr]
    by_cases h : onscreen = parent
    · rw [h, Function.update_self, ← h]
      exact hpage
    · rw [Function.update_of_ne h]
      exact hpage
  obtain ⟨k₃, hshow, hids, hpd, hpt, hphys⟩ := showTerminal_memory (k := ((k₂.setTerminal parent fun t =>
      { t with isOnscreen := 0 }).setTerminal self fun _ => Kernel.newTerminal t).setPcb self fun b =>
        setupPcb p parent { b with isActive := 1 }) htables hu ht (hother _) (hfake _ _ fun _ => rfl)
  rw [hshow]
  exact ⟨k₃, rfl, hids, hpd, hpt, hphys⟩

variable (t) in
theorem createTerminal_loaded {eip : ℕ → UInt8} (onscreen : ℕ)
    (hc : checkExecutable img fs e.magicNumbers shell = some r) (hr : 0 ≤ r)
    (hid : k.getProcessId = some (p, k₁))
    (ho : openExecutable img fs ((k₁.setAttrib (color t)).setPagerDirEntry (programFrame p)) e.eip r =
      .ok (r', eip, k₂))
    (hp : p ≠ 0) (hptr : onscreen ≠ getPcbPtr p) (ht : t < 3)
    (hstack : getPcb k₂.cpu.esp ≠ 0) (htables : FixedMap (k₂.pageDir 0) k₂.pageTbl)
    (hvideo : k₂.frameOf video + fourKb ≤ eightMb)
    (hscreen : ∃ u < 3, (k₂.pcb onscreen).terminalInfo.fakePageAddr = fakePage u) :
    ∃ k', createTerminal img fs k e onscreen t = .gone k' ∧ k'.processIds = k₂.processIds ∧
      k'.pageDir = k₂.pageDir ∧ (∀ a, eightMb ≤ a → k'.phys a = k₂.phys a) ∧
      k'.cpu = ⟨.user, wordAt eip 0, programStack, e.eax⟩ := by
  obtain ⟨k₃, hgone, hids, hpd, hpt, hphys⟩ :=
    createTerminal_displayed t onscreen hc hr hid ho hp hptr ht hstack htables hscreen
  have hv : ∀ s b g a f, (((k₃.setTss s).saveRegs b g).setFrame a f).frameOf video + fourKb ≤ eightMb := by
    intro s b g a f
    unfold Kernel.frameOf at hvideo ⊢
    show k₃.pageTbl (tableIdx video) / 2 ^ 12 * 2 ^ 12 + fourKb ≤ eightMb
    rwa [hpt]
  refine ⟨_, hgone, hids, hpd, fun a ha => ?_, rfl⟩
  unfold Kernel.rootShell
  rw [Kernel.phys_setupExecStack, clearScreen_above (hv _ _ _ _ _) ha]
  exact hphys a ha

theorem switchTerminal_create (h : k.findTerminalPid t = none) :
    switchTerminal img fs k e t =
      createTerminal img fs k e (getPcbPtr (k.findOnscreenTerminalPid.getD 255)) t := by
  unfold switchTerminal
  generalize getPcbPtr (k.findOnscreenTerminalPid.getD 255) = onscreen
  simp only [h]

/-- **The shell start of `switch_terminal` is all or nothing** exactly when it refuses, or the shell can
be loaded and its slot is not slot 0. -/
theorem shellStart_allOrNothing (wf : img.WellFormedDirectory) (hd : Displaying k) (ht : t < 3)
    (hnone : k.findTerminalPid t = none) (e : Entry) :
    AllOrNothing img (Image.WellFormed.pointers img) shell e.eip k
        (switchTerminal img (Image.WellFormed.pointers img) k e t) ↔
      Refused img (Image.WellFormed.pointers img) shell e.magicNumbers k ∨ k.inUse 0 ∧ img.Program shell := by
  rw [switchTerminal_create hnone]
  have hptr : ∀ p, k.processIds p = 0 → p < maxProcesses →
      getPcbPtr (k.findOnscreenTerminalPid.getD 255) ≠ getPcbPtr p := by
    intro p hfree hp
    obtain ⟨o, hlt, ho, -⟩ := hd.screen
    rw [ho, Option.getD_some]
    intro h
    have huse := (Kernel.findOnscreenTerminalPid_some ho).2.1
    rw [(getPcbPtr_inj hlt hp).mp h] at huse
    exact huse hfree
  have hpage : ∃ u < 3, (k.pcb (getPcbPtr (k.findOnscreenTerminalPid.getD 255))).terminalInfo.fakePageAddr =
      fakePage u := by
    obtain ⟨o, -, ho, u, hu, hpage⟩ := hd.screen
    rw [ho, Option.getD_some]
    exact ⟨u, hu, hpage⟩
  generalize getPcbPtr (k.findOnscreenTerminalPid.getD 255) = onscreen at hptr hpage ⊢
  rcases @start_cases _ wf k e.magicNumbers shell (by decide) with ⟨href, hne⟩ | ⟨d, p, k₁, hf, hi, hc, hid⟩
  · refine iff_of_true (Or.inr ⟨k, ?_, ⟨rfl, rfl, rfl, rfl⟩⟩) (Or.inl href)
    exact (createTerminal_refused href).resolve_right hne
  · have hr : (0 : ℤ) ≤ img.entryInode d := by omega
    obtain ⟨hp, hfree, hleast, hk₁⟩ := Kernel.getProcessId_some hid
    have h0 : k.inUse 0 ↔ p ≠ 0 := by
      constructor
      · rintro huse rfl
        exact huse hfree
      · exact fun hp0 => hleast 0 (by omega)
    constructor
    · rintro (⟨d', q, k', hf', -, hgone, hrun⟩ | ⟨k', hret, -⟩)
      · refine Or.inr ⟨h0.mpr ?_, d', hf', loadable_of_runsFile wf.toWellFormed
          (wf.inode_lt d' (img.firstNamed_some hf').1) hrun⟩
        rintro rfl
        exact createTerminal_orphan hc hr hid hgone
      · exact absurd hret (createTerminal_past hc hr hid)
    · rintro (href | ⟨huse, d', hf', hload⟩)
      · exact absurd href (not_refused hr hc hid)
      · rw [hf, Option.some.injEq] at hf'
        subst hf'
        obtain ⟨k', hgone, hids, hpd, hph, hcpu⟩ := createTerminal_loaded t onscreen hc hr hid
          (load_slot wf.toWellFormed (k₁.setAttrib (color t)) hi hload hp e.eip) (h0.mp huse)
          (hptr p hfree hp) ht (by rw [hk₁]; exact hd.stack) (by rw [hk₁]; exact hd.tables)
          (by rw [hk₁]; exact hd.video) (by rw [hk₁]; exact hpage)
        subst hk₁
        refine Or.inl ⟨d, p, k', hf, ⟨hp, hfree, hleast⟩, hgone, ?_⟩
        refine runsFile_of_loaded wf.toWellFormed hi hload hp e.eip hids
          (by rw [hpd, Kernel.setPagerDirEntry_program]) hph (by rw [hcpu]) (by rw [hcpu])

end Create

/-- **When a program start is all or nothing**, if it has room on the kernel stack: `execute` of every command in every
state, the shell start of a new terminal wherever `switch_terminal` can be called. -/
theorem program_start_all_or_nothing (img : Image) (wf : img.WellFormedDirectory) (k : Kernel) (e : Entry) :
    ∃ fs, initFilesystem img = some fs ∧
      (∀ caller command, k.roomFor e command = true →
        (AllOrNothing img fs (executableName e command) e.eip k (execute img fs k e caller command) ↔
          Refused img fs (executableName e command) e.magicNumbers k ∨ img.Program (executableName e command))) ∧
      (Displaying k → k.roomToLoad e = true → ∀ t < 3, k.findTerminalPid t = none →
        (AllOrNothing img fs shell e.eip k (switchTerminal img fs k e t) ↔
          Refused img fs shell e.magicNumbers k ∨ k.inUse 0 ∧ img.Program shell)) :=
  ⟨_, wf.toWellFormed.initFilesystem_eq, fun caller command _ => execute_allOrNothing wf k e caller command,
    fun hd _ _ ht hnone => shellStart_allOrNothing wf hd ht hnone e⟩

theorem program_start_all_or_nothing_shell : ∃ fs, initFilesystem Image.small = some fs ∧
    AllOrNothing Image.small fs shell (fun _ => 0) Kernel.boot
      (execute Image.small fs Kernel.boot (Entry.below (eightMb - 64) 0) Kernel.boot.cpu shell) := by
  obtain ⟨fs, hfs, hexec, -⟩ := program_start_all_or_nothing Image.small Image.small_wellFormed Kernel.boot
    (Entry.below (eightMb - 64) 0)
  have hname : executableName (Entry.below (eightMb - 64) 0) shell = shell := by decide +kernel
  have hall := hexec Kernel.boot.cpu shell (by decide +kernel)
  rw [hname] at hall
  exact ⟨fs, hfs, hall.mpr (Or.inr ⟨2, by decide, by decide, by decide⟩)⟩

/-- A file that ends after its magic number is started, with the entry point found on the stack. -/
theorem stub_is_started : Image.small.WellFormedDirectory ∧ ∃ fs, initFilesystem Image.small = some fs ∧
    ¬ AllOrNothing Image.small fs (ascii "stub".toList) (fun _ => 0) Kernel.boot
      (execute Image.small fs Kernel.boot (Entry.below (eightMb - 64) 0) Kernel.boot.cpu (ascii "stub".toList)) := by
  have hname : executableName (Entry.below (eightMb - 64) 0) (ascii "stub".toList) = ascii "stub".toList := by
    decide +kernel
  have hall := execute_allOrNothing Image.small_wellFormed Kernel.boot (Entry.below (eightMb - 64) 0)
    Kernel.boot.cpu (ascii "stub".toList)
  rw [hname] at hall
  refine ⟨Image.small_wellFormed, _, Image.small_wellFormed.toWellFormed.initFilesystem_eq, fun h => ?_⟩
  rcases hall.mp h with (⟨r, hr, hc⟩ | hnone) | ⟨d, hd, hlen, -⟩
  · have hcheck : checkExecutable Image.small (Image.WellFormed.pointers Image.small) (fun _ => 0)
        (ascii "stub".toList) = some 2 := by decide +kernel
    have heq : (2 : ℤ) = r := Option.some.inj (hcheck.symm.trans hc)
    omega
  · have hsome : Kernel.boot.getProcessId.isSome = true := by decide
    rw [hnone] at hsome
    cases hsome
  · have hfirst : Image.small.firstNamed (ascii "stub".toList) = some 3 := by decide
    obtain rfl := Option.some.inj (hfirst.symm.trans hd)
    exact absurd hlen (by decide)

end Kernel391
