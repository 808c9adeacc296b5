import Kernel391.Foundations.Frames
import Kernel391.Foundations.Loops
import Kernel391.Machine.Assembly

/-! The interrupt descriptor table, from `populate_idt` to what the processor makes of its bits. A gate
is found by its vector, and an `int` of a user goes through those alone that are open to users. -/
namespace Kernel391
open Kernel391.Foundations
set_option autoImplicit false

def kernelCs : BitVec 16 := 0x0010
def userCs : BitVec 16 := 0x0023
def userDs : BitVec 16 := 0x002B
def numVec : ℕ := 256

/-- `idt_desc_t`, with its bit fields. -/
structure IdtDesc where
  offset_15_00 : BitVec 16
  segSelector : BitVec 16
  reserved4 : BitVec 8
  reserved3 : BitVec 1
  reserved2 : BitVec 1
  reserved1 : BitVec 1
  size : BitVec 1
  reserved0 : BitVec 1
  dpl : BitVec 2
  present : BitVec 1
  offset_31_16 : BitVec 16
  deriving DecidableEq

namespace IdtDesc

def val (d : IdtDesc) : BitVec 64 :=
  (d.offset_31_16 ++ d.present ++ d.dpl ++ (d.reserved0 ++ d.size ++ d.reserved1 ++ d.reserved2 ++ d.reserved3) ++
    d.reserved4 ++
    d.segSelector ++ d.offset_15_00).cast rfl

/-- `SET_IDT_ENTRY`. -/
def setIdtEntry (d : IdtDesc) (handler : Word) : IdtDesc :=
  { d with
    offset_31_16 := ((handler &&& 0xFFFF0000) >>> 16).setWidth 16
    offset_15_00 := (handler &&& 0xFFFF).setWidth 16 }

end IdtDesc

/-- The vectors with a stub in `isr_stub_table`. -/
def HasStub (n : ℕ) : Prop := n ≤ 19 ∨ n = 32 ∨ n = 33 ∨ n = 40 ∨ n = 128

instance (n : ℕ) : Decidable (HasStub n) := inferInstanceAs (Decidable (_ ∨ _))

/-- The addresses the linker puts into the tables of `idt_entries.S`: `isr_stub_n` at `label n`, the system call
`n` at `call n`, and the words behind `syscall_table`, which are code. -/
structure LinkedTables where
  label : ℕ → Word
  call : ℕ → Word
  behind : ℕ → Word

def isrStubTableLength : ℕ := 157
def syscallTableLength : ℕ := 11

def LinkedTables.syscallTable (l : LinkedTables) (n : ℕ) : Word := if n = 0 then 0 else l.call n

/-- `isr_stub_table[n]`. The table is shorter than the IDT: behind it lies `syscall_table`. -/
def LinkedTables.isrStubTable (l : LinkedTables) (n : ℕ) : Word :=
  if n < isrStubTableLength then if HasStub n then l.label n else 0
  else if n < isrStubTableLength + syscallTableLength then l.syscallTable (n - isrStubTableLength)
  else l.behind (n - (isrStubTableLength + syscallTableLength))

theorem LinkedTables.isrStubTable_stub (l : LinkedTables) {n : ℕ} (h : HasStub n) : l.isrStubTable n = l.label n := by
  have hn : n < isrStubTableLength := by
    unfold HasStub at h
    unfold isrStubTableLength
    omega
  unfold LinkedTables.isrStubTable
  rw [if_pos hn, if_pos h]

/-- The entry for a stub, `0` for none, as the loop of `populate_idt` leaves it. -/
def IdtDesc.populated (d : IdtDesc) (stub : Word) : IdtDesc :=
  let d :=
    if stub ≠ 0 then { d.setIdtEntry stub with present := 1 }
    else { d with present := 0 }
  { d with
    dpl := 0
    segSelector := kernelCs
    size := 1
    reserved0 := 0
    reserved1 := 1
    reserved2 := 1
    reserved3 := 0
    reserved4 := 0 }

/-- `populate_idt`. -/
def populateIdt (stubTable : ℕ → Word) (idt : ℕ → IdtDesc) : ℕ → IdtDesc :=
  let idt := forLoop (fun i idt => Function.update idt i ((idt i).populated (stubTable i))) numVec idt
  Function.update idt 128 { idt 128 with dpl := 3, reserved3 := 1 }

/-! ## What the processor makes of a descriptor -/

/-- The kinds of gates an interrupt can go through. -/
inductive GateKind
  | interrupt | trap
  deriving DecidableEq

structure Gate where
  kind : Option GateKind
  dpl : BitVec 2
  present : Bool
  selector : BitVec 16
  offset : Word

/-- Five bits give the kind: the `S` bit and the type. -/
def gateKind (b : BitVec 5) : Option GateKind :=
  if b = 0b01110 then some .interrupt else if b = 0b01111 then some .trap else none

def decodeGate (v : BitVec 64) : Gate where
  kind := gateKind (v.extractLsb' 40 5)
  dpl := v.extractLsb' 45 2
  present := v.extractLsb' 47 1 = 1
  selector := v.extractLsb' 16 16
  offset := v.extractLsb' 48 16 ++ v.extractLsb' 0 16

section Fields
variable (d : IdtDesc)

theorem val_kind : d.val.extractLsb' 40 5 = d.reserved0 ++ d.size ++ d.reserved1 ++ d.reserved2 ++ d.reserved3 := by
  unfold IdtDesc.val
  rw [BitVec.extractLsb'_cast]
  repeat rw [BitVec.extractLsb'_append_eq_of_le (by omega)]
  exact BitVec.extractLsb'_append_eq_right

theorem val_dpl : d.val.extractLsb' 45 2 = d.dpl := by
  unfold IdtDesc.val
  rw [BitVec.extractLsb'_cast]
  repeat rw [BitVec.extractLsb'_append_eq_of_le (by omega)]
  exact BitVec.extractLsb'_append_eq_right

theorem val_present : d.val.extractLsb' 47 1 = d.present := by
  unfold IdtDesc.val
  rw [BitVec.extractLsb'_cast]
  repeat rw [BitVec.extractLsb'_append_eq_of_le (by omega)]
  exact BitVec.extractLsb'_append_eq_right

theorem val_selector : d.val.extractLsb' 16 16 = d.segSelector := by
  unfold IdtDesc.val
  rw [BitVec.extractLsb'_cast, BitVec.extractLsb'_append_eq_of_le (by omega)]
  exact BitVec.extractLsb'_append_eq_right

theorem val_offset : d.val.extractLsb' 48 16 = d.offset_31_16 ∧ d.val.extractLsb' 0 16 = d.offset_15_00 := by
  unfold IdtDesc.val
  rw [BitVec.extractLsb'_cast, BitVec.extractLsb'_cast]
  constructor
  · repeat rw [BitVec.extractLsb'_append_eq_of_le (by omega)]
    exact BitVec.extractLsb'_eq_self
  · exact BitVec.extractLsb'_append_eq_right

theorem decodeGate_val : decodeGate d.val =
    { kind := gateKind (d.reserved0 ++ d.size ++ d.reserved1 ++ d.reserved2 ++ d.reserved3)
      dpl := d.dpl
      present := d.present = 1
      selector := d.segSelector
      offset := d.offset_31_16 ++ d.offset_15_00 } := by
  unfold decodeGate
  rw [val_kind, val_dpl, val_present, val_selector, (val_offset d).1, (val_offset d).2]

end Fields

theorem setIdtEntry_offset (d : IdtDesc) (handler : Word) :
    (d.setIdtEntry handler).offset_31_16 ++ (d.setIdtEntry handler).offset_15_00 = handler := by
  have hlow : ∀ j < 16, (0xFFFF : Word).getLsbD j = true := by decide
  have hhigh : ∀ j < 16, (0xFFFF0000 : Word).getLsbD (16 + j) = true := by decide
  apply BitVec.eq_of_getLsbD_eq
  intro i hi
  unfold IdtDesc.setIdtEntry
  rw [BitVec.getLsbD_append]
  by_cases h : i < 16
  · rw [if_pos h, BitVec.getLsbD_setWidth, BitVec.getLsbD_and, hlow i h, decide_eq_true h, Bool.and_true, Bool.true_and]
  · rw [if_neg h, BitVec.getLsbD_setWidth, BitVec.getLsbD_ushiftRight, BitVec.getLsbD_and, hhigh _ (by omega),
      decide_eq_true (by omega), Bool.and_true, Bool.true_and, Nat.add_sub_cancel' (by omega)]

section Gates
variable {stubTable : ℕ → Word} {idt : ℕ → IdtDesc} {n : ℕ}

theorem populate_loop (k : ℕ) : forLoop (fun i idt => Function.update idt i ((idt i).populated (stubTable i))) k idt n =
    if n < k then (idt n).populated (stubTable n) else idt n := by
  induction k with
  | zero => rfl
  | succ k ih =>
    rw [forLoop_succ]
    by_cases h : n = k
    · subst h
      rw [Function.update_self, ih, if_neg (Nat.lt_irrefl n), if_pos (Nat.lt_succ_self n)]
    · rw [Function.update_of_ne h, ih]
      simp only [Nat.lt_succ_iff_lt_or_eq, h, or_false]

theorem populateIdt_entry (hn : n < numVec) : populateIdt stubTable idt n =
    { (idt n).populated (stubTable n) with
      dpl := if n = 128 then 3 else 0
      reserved3 := if n = 128 then 1 else 0 } := by
  unfold populateIdt
  by_cases h : n = 128
  · subst h
    simp only [Function.update_self, if_true]
    rw [populate_loop, if_pos hn]
  · simp only [Function.update_of_ne h, if_neg h]
    rw [populate_loop, if_pos hn]
    rfl

theorem decodeGate_populated (hn : n < numVec) : decodeGate (populateIdt stubTable idt n).val =
    { kind := some (if n = 128 then .trap else .interrupt)
      dpl := if n = 128 then 3 else 0
      present := decide (stubTable n ≠ 0)
      selector := kernelCs
      offset := if stubTable n ≠ 0 then stubTable n else (idt n).offset_31_16 ++ (idt n).offset_15_00 } := by
  rw [populateIdt_entry hn, decodeGate_val]
  unfold IdtDesc.populated
  by_cases hstub : stubTable n = 0
  · simp only [hstub, ne_eq, not_true_eq_false, if_false, decide_false]
    by_cases h : n = 128
    · simp only [if_pos h]
      rfl
    · simp only [if_neg h]
      rfl
  · simp only [hstub, ne_eq, not_false_eq_true, if_true, decide_true, setIdtEntry_offset]
    by_cases h : n = 128
    · simp only [if_pos h]
      rfl
    · simp only [if_neg h]
      rfl

end Gates

end Kernel391
