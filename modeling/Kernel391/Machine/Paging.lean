import Kernel391.Filesystem.Image
import Kernel391.Machine.State

/-! `paging.c`: the tables as `enable_paging` leaves them, the functions that change
single entries, and memory as the kernel sees it through the two-level walk. -/
namespace Kernel391
open Kernel391.Foundations
set_option autoImplicit false

def fourKb : ℕ := 4096
def tableSz : ℕ := 1024
def pgTblIdx : ℕ := 184
def videoPageFlags : ℕ := 0x000B8003
def kernelPageFlags : ℕ := 0x00400183
def emptyPage : ℕ := 0x02
def programIdx : ℕ := 32
def programAddr : ℕ := 0x08000000
def vmemAddr : ℕ := 0x08400000

/-- The last page of the first 4 MB, a second mapping of the physical video page. -/
def locationOfTheKrabbyPattySecretFormula : ℕ := 0x3FF000

/-! ## The tables at start -/

def setupPagerTable (i : ℕ) : ℕ :=
  if i = pgTblIdx then videoPageFlags
  else if i = pgTblIdx + 1 then videoPageFlags + fourKb
  else if i = pgTblIdx + 2 then videoPageFlags + 2 * fourKb
  else if i = pgTblIdx + 3 then videoPageFlags + 3 * fourKb
  else if i = tableSz - 1 then videoPageFlags
  else emptyPage

def setupPagerDirectory (i : ℕ) : PageDirEntry :=
  if i = 0 then .table .pageTbl 3
  else if i = 1 then .word kernelPageFlags
  else .word emptyPage

/-- A page table entry with the present and write bits, and the user bit where asked for. -/
def pageTableEntry (physical usrSupr : ℕ) : ℕ := physical / 2 ^ 12 % 2 ^ 20 * 2 ^ 12 + 4 * usrSupr + 3

/-- The index of a page inside its table. -/
def tableIdx (vaddr : ℕ) : ℕ := vaddr / 2 ^ 12 % 2 ^ 10

namespace Kernel
variable (k : Kernel)

/-- `set_pager_dir_entry`: present, writable, user, 4 MB. -/
def setPagerDirEntry (pageAddr : ℕ) : Kernel :=
  { k with pageDir := Function.update k.pageDir programIdx (.word (pageAddr / 2 ^ 22 % 2 ^ 10 * 2 ^ 22 + 0x87)) }

def setupPagerVidmapTable (vaddr : ℕ) : Kernel :=
  { k with
    pageTblVmem := fun i => if i = tableIdx vaddr then pageTableEntry video 1 else emptyPage
    pageDir := Function.update k.pageDir (vaddr / 2 ^ 22) (.table .pageTblVmem 7) }

/-- What `enable_paging` and `setup_pager_vidmap_table` leave. -/
def setupPaging : Kernel :=
  setupPagerVidmapTable { k with pageDir := setupPagerDirectory, pageTbl := setupPagerTable } userPage

def updateKernelVmem (physical vaddr : ℕ) : Kernel :=
  { k with pageTbl := Function.update k.pageTbl (tableIdx vaddr) (pageTableEntry physical 0) }

def updateVidmapVmem (physical vaddr : ℕ) : Kernel :=
  { k with pageTblVmem := Function.update k.pageTblVmem (tableIdx vaddr) (pageTableEntry physical 1) }

/-! ## The walk -/

def tableOf : PageTable → ℕ → ℕ
  | .pageTbl => k.pageTbl
  | .pageTblVmem => k.pageTblVmem

/-- The physical address of a virtual one, `none` when it is not present. A large page has bit 7 of
its directory entry set. -/
def translate (a : ℕ) : Option ℕ :=
  match k.pageDir (a / 2 ^ 22) with
  | .word w => if w % 2 = 1 ∧ w / 128 % 2 = 1 then some (w / 2 ^ 22 * 2 ^ 22 + a % 2 ^ 22) else none
  | .table t flags =>
    let e := k.tableOf t (tableIdx a)
    if flags % 2 = 1 ∧ e % 2 = 1 then some (e / 2 ^ 12 * 2 ^ 12 + a % 2 ^ 12) else none

/-- The physical page behind a virtual one of the first 4 MB. -/
def frameOf (vaddr : ℕ) : ℕ := k.pageTbl (tableIdx vaddr) / 2 ^ 12 * 2 ^ 12

end Kernel

/-- Stores of the kernel go through the page tables; a page that is not present faults. -/
instance : ByteStore Kernel where
  put k a b :=
    match k.translate a with
    | some p => .ok { k with phys := Function.update k.phys p b }
    | none => .error k

namespace Kernel

/-- `memcpy` between two virtual ranges, byte by byte. -/
def memcpy (k : Kernel) (dest src : ℕ) : ℕ → Except Kernel Kernel
  | 0 => .ok k
  | n + 1 =>
    match k.translate src with
    | none => .error k
    | some p =>
      match ByteStore.put k dest (k.phys p) with
      | .ok k' => memcpy k' (dest + 1) (src + 1) n
      | .error k' => .error k'

/-- Both arguments are the fake addresses of the two terminals. -/
def switchKernelMemory (k : Kernel) (onScreen offScreen : ℕ) : Except Kernel Kernel :=
  match k.memcpy onScreen locationOfTheKrabbyPattySecretFormula (numRows * numCols * 2) with
  | .ok k => k.memcpy locationOfTheKrabbyPattySecretFormula offScreen (numRows * numCols * 2)
  | .error k => .error k

end Kernel

/-- The kernel before the first shell: tables and variables initialised, the processor on the boot
stack, which is the stack of slot 0. -/
def Kernel.boot : Kernel := Kernel.setupPaging
  { processIds := fun _ => 0
    pcb := fun _ =>
      { processId := 0, isActive := 0, scheduleEsp := 0, scheduleEbp := 0, parent := 0
        terminalInfo := ⟨0, 0, 0, 0⟩, esp0 := 0, haltEbp := 0, args := fun _ => 0, available := fun _ => 0
        fd := fun _ => ⟨none, 0, 0, 0⟩ }
    cpu := ⟨.kernel, 0, eightMb - 64, 0⟩
    frames := fun _ => .lost
    tss := ⟨eightMb, kernelDs⟩
    pageDir := fun _ => .word emptyPage
    pageTbl := fun _ => emptyPage
    pageTblVmem := fun _ => emptyPage
    phys := fun _ => 0
    attrib := 0x07
    screenX := 0
    screenY := 0
    cursor := fun _ => ⟨0, 0⟩
    keyboard := fun _ => ⟨fun _ => 0, 0, 0⟩
    keys := ⟨0, 0, 0, 0, 0, 3⟩
    rtc := ⟨0, 0, 0, fun _ => 0, fun _ => 0, fun _ => 2, fun _ => 0⟩
    ports := [] }

/-! ## Stores change memory only -/

namespace Kernel
variable {k k' : Kernel}

theorem put_phys {a : ℕ} {b : UInt8} (h : ByteStore.put k a b = .ok k' ∨ ByteStore.put k a b = .error k') :
    ∃ m, k' = { k with phys := m } := by
  unfold ByteStore.put instByteStoreKernel at h
  cases ht : k.translate a with
  | some p =>
    simp only [ht, Except.ok.injEq, reduceCtorEq, or_false] at h
    exact ⟨_, h.symm⟩
  | none =>
    simp only [ht, Except.error.injEq, reduceCtorEq, false_or] at h
    exact ⟨k.phys, h.symm⟩

theorem follows_phys : ByteStore.Follows fun k k' : Kernel => ∃ m, k' = { k with phys := m } where
  refl k := ⟨k.phys, rfl⟩
  trans := by
    rintro k _ _ ⟨m₁, rfl⟩ ⟨m₂, rfl⟩
    exact ⟨m₂, rfl⟩
  put := put_phys

theorem memcpy_phys {dest src n : ℕ}
    (h : k.memcpy dest src n = .ok k' ∨ k.memcpy dest src n = .error k') :
    ∃ m, k' = { k with phys := m } := by
  induction n generalizing k dest src with
  | zero =>
    simp only [memcpy, Except.ok.injEq, reduceCtorEq, or_false] at h
    exact ⟨k.phys, h.symm⟩
  | succ n ih =>
    simp only [memcpy] at h
    cases ht : k.translate src with
    | none =>
      simp only [ht, Except.error.injEq, reduceCtorEq, false_or] at h
      exact ⟨k.phys, h.symm⟩
    | some p =>
      simp only [ht] at h
      cases hp : ByteStore.put k dest (k.phys p) with
      | ok k₁ =>
        simp only [hp] at h
        obtain ⟨m₁, rfl⟩ := put_phys (Or.inl hp)
        obtain ⟨m, rfl⟩ := ih h
        exact ⟨m, rfl⟩
      | error k₁ =>
        simp only [hp, Except.error.injEq, reduceCtorEq, false_or] at h
        obtain ⟨m₁, rfl⟩ := put_phys (Or.inr hp)
        exact ⟨m₁, h.symm⟩

theorem switchKernelMemory_phys {a b : ℕ}
    (h : k.switchKernelMemory a b = .ok k' ∨ k.switchKernelMemory a b = .error k') :
    ∃ m, k' = { k with phys := m } := by
  unfold switchKernelMemory at h
  cases hm : k.memcpy a locationOfTheKrabbyPattySecretFormula (numRows * numCols * 2) with
  | ok k₁ =>
    simp only [hm] at h
    obtain ⟨m₁, rfl⟩ := memcpy_phys (Or.inl hm)
    obtain ⟨m, rfl⟩ := memcpy_phys h
    exact ⟨m, rfl⟩
  | error k₁ =>
    simp only [hm, Except.error.injEq, reduceCtorEq, false_or] at h
    obtain ⟨m₁, rfl⟩ := memcpy_phys (Or.inr hm)
    exact ⟨m₁, h.symm⟩

end Kernel
end Kernel391
