import Mathlib.Data.List.Range
import Kernel391.Machine.State

/-! `pcb.c`: the searches over the process table, slot allocation and the set-up of a
PCB. The searches are read back as statements about slots. -/
namespace Kernel391
set_option autoImplicit false

namespace Kernel
variable (k : Kernel)

/-- `find_terminal_pid`, `none` for -1. -/
def findTerminalPid (requested : ℕ) : Option ℕ :=
  (List.range maxProcesses).find? fun i =>
    let traverse := k.pcb (getPcbPtr i)
    k.processIds traverse.processId ≠ 0 ∧ traverse.isActive ≠ 0 ∧
      traverse.terminalInfo.terminalNum = requested

/-- `find_onscreen_terminal_num`, `none` for -1. -/
def findOnscreenTerminalNum : Option ℕ :=
  ((List.range maxProcesses).find? fun i =>
    let traverse := k.pcb (getPcbPtr i)
    k.processIds traverse.processId ≠ 0 ∧ traverse.terminalInfo.isOnscreen ≠ 0).map fun i =>
      (k.pcb (getPcbPtr i)).terminalInfo.terminalNum

/-- `find_onscreen_terminal_pid`: unlike its siblings it indexes `process_ids` by the slot. -/
def findOnscreenTerminalPid : Option ℕ :=
  (List.range maxProcesses).find? fun i =>
    k.processIds i ≠ 0 ∧ (k.pcb (getPcbPtr i)).terminalInfo.isOnscreen ≠ 0

/-- The loop of `find_next_active_pcb`; the number counts the rounds left. -/
def findNextActivePcbLoop : ℕ → ℕ → Option ℕ
  | 0, _ => none
  | n + 1, traverse =>
    let traverse := (if traverse = eightMb - eightKb * maxProcesses then eightMb else traverse) - eightKb
    if k.processIds (k.pcb traverse).processId ≠ 0 ∧ (k.pcb traverse).isActive = 1 then some traverse
    else findNextActivePcbLoop n traverse

/-- `find_next_active_pcb`, `none` for NULL. -/
def findNextActivePcb (currentProcess : ℕ) : Option ℕ :=
  k.findNextActivePcbLoop maxProcesses currentProcess

/-- `get_process_id`: the lowest free slot, taken. -/
def getProcessId : Option (ℕ × Kernel) :=
  match (List.range maxProcesses).find? fun i => k.processIds i = 0 with
  | some i => some (i, { k with processIds := Function.update k.processIds i 1 })
  | none => none

/-- `get_parent_pcb`, with 0 for NULL. -/
def getParentPcb (currentProcess : ℕ) : ℕ := if currentProcess = 0 then 0 else getPcb k.cpu.esp

end Kernel

/-- A descriptor of one of the two standard streams. -/
def standardFd (ops : FileOps) : FileDescriptor := { fileOps := some ops, inode := -1, filePos := 0, flags := 0 }

/-- `setup_pcb`. -/
def setupPcb (myProcessId parentPcb : ℕ) (pcb : Pcb) : Pcb :=
  { pcb with
    processId := myProcessId
    parent := parentPcb
    esp0 := eightMb - eightKb * myProcessId
    fd := Function.update (Function.update pcb.fd 0 (standardFd .stdin)) 1 (standardFd .stdout)
    available := fun i => if i < 2 then 0 else if i < 8 then 1 else pcb.available i }

/-! ## The searches, slot by slot -/

namespace Kernel
variable (k : Kernel)

def slot (p : ℕ) : Pcb := k.pcb (getPcbPtr p)

def inUse (p : ℕ) : Prop := k.processIds p ≠ 0

instance (p : ℕ) : Decidable (k.inUse p) := inferInstanceAs (Decidable (_ ≠ _))

/-- Every slot with a flag set carries its own number, so that the searches, which go through
`process_id`, look at the right entry of `process_ids`. -/
structure Numbered : Prop where
  active : ∀ p < maxProcesses, (k.slot p).isActive ≠ 0 → (k.slot p).processId = p
  onscreen : ∀ p < maxProcesses, (k.slot p).terminalInfo.isOnscreen ≠ 0 → (k.slot p).processId = p

variable {k}

theorem getProcessId_some {p : ℕ} {k' : Kernel} (h : k.getProcessId = some (p, k')) :
    p < maxProcesses ∧ k.processIds p = 0 ∧ (∀ q < p, k.processIds q ≠ 0) ∧
      k' = { k with processIds := Function.update k.processIds p 1 } := by
  unfold getProcessId at h
  cases hf : (List.range maxProcesses).find? fun i => k.processIds i = 0 with
  | none => simp [hf] at h
  | some i =>
    simp only [hf, Option.some.injEq, Prod.mk.injEq] at h
    obtain ⟨rfl, rfl⟩ := h
    rw [List.find?_range_eq_some] at hf
    simp only [decide_eq_true_eq, Bool.not_eq_eq_eq_not, Bool.not_true, decide_eq_false_iff_not] at hf
    obtain ⟨hz, hm, hq⟩ := hf
    exact ⟨List.mem_range.mp hm, hz, hq, rfl⟩

theorem getProcessId_none : k.getProcessId = none ↔ ∀ p < maxProcesses, k.inUse p := by
  unfold getProcessId inUse
  constructor
  · intro h p hp h0
    cases hf : (List.range maxProcesses).find? fun i => k.processIds i = 0 with
    | none =>
      rw [List.find?_eq_none] at hf
      exact absurd h0 (by simpa using hf p (List.mem_range.mpr hp))
    | some i => simp [hf] at h
  · intro h
    have hf : (List.range maxProcesses).find? (fun i => k.processIds i = 0) = none := by
      rw [List.find?_eq_none]
      intro p hp
      simpa using h p (List.mem_range.mp hp)
    rw [hf]

theorem findOnscreenTerminalPid_some {p : ℕ} (h : k.findOnscreenTerminalPid = some p) :
    p < maxProcesses ∧ k.inUse p ∧ (k.slot p).terminalInfo.isOnscreen ≠ 0 := by
  have hp := List.mem_range.mp (List.mem_of_find?_eq_some h)
  have hs := List.find?_some h
  simp only [decide_eq_true_eq] at hs
  exact ⟨hp, hs.1, hs.2⟩

theorem findOnscreenTerminalPid_none (h : k.findOnscreenTerminalPid = none) {p : ℕ}
    (hp : p < maxProcesses) (hu : k.inUse p) : (k.slot p).terminalInfo.isOnscreen = 0 := by
  unfold findOnscreenTerminalPid at h
  rw [List.find?_eq_none] at h
  have := h p (List.mem_range.mpr hp)
  simp only [decide_eq_true_eq] at this
  by_contra hne
  exact this ⟨hu, hne⟩

theorem next_slot {p : ℕ} (hp : p < maxProcesses) :
    (if getPcbPtr p = eightMb - eightKb * maxProcesses then eightMb else getPcbPtr p) - eightKb =
      getPcbPtr ((p + 1) % maxProcesses) := by
  have hcases : p = 0 ∨ p = 1 ∨ p = 2 ∨ p = 3 ∨ p = 4 ∨ p = 5 := by
    simp only [maxProcesses] at hp
    omega
  rcases hcases with rfl | rfl | rfl | rfl | rfl | rfl <;> decide

theorem findNextActivePcbLoop_some {n p a : ℕ} (hp : p < maxProcesses) (hn : k.Numbered)
    (h : k.findNextActivePcbLoop n (getPcbPtr p) = some a) :
    ∃ q < maxProcesses, a = getPcbPtr q ∧ k.inUse q ∧ (k.slot q).isActive = 1 := by
  induction n generalizing p with
  | zero => cases h
  | succ n ih =>
    have hq : (p + 1) % maxProcesses < maxProcesses := Nat.mod_lt _ (by decide)
    simp only [findNextActivePcbLoop, next_slot hp] at h
    split at h
    · next hc =>
      simp only [Option.some.injEq] at h
      refine ⟨_, hq, h.symm, ?_, hc.2⟩
      have hid := hn.active _ hq (by unfold slot; omega)
      unfold slot at hid
      have := hc.1
      rwa [hid] at this
    · exact ih hq h

theorem findNextActivePcb_some {p a : ℕ} (hp : p < maxProcesses) (hn : k.Numbered)
    (h : k.findNextActivePcb (getPcbPtr p) = some a) :
    ∃ q < maxProcesses, a = getPcbPtr q ∧ k.inUse q ∧ (k.slot q).isActive = 1 :=
  findNextActivePcbLoop_some hp hn h

end Kernel
end Kernel391
