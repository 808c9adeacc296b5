import Kernel391.Foundations.Runs
import Kernel391.Machine.Idt
import Mathlib.Data.List.Find

/-! The two interrupt controllers and `i8259.c`. One hangs on line 2 of the other, and the driver programs
both through their ports. To the kernel they are one controller of 16 lines with an order of urgency. -/
namespace Kernel391
open Kernel391.Foundations
set_option autoImplicit false

/-! ## The chip -/

/-- Where a chip is in its initialisation, by the word it waits for. -/
inductive PicStage
  | ready | icw2 | icw3 | icw4
  deriving DecidableEq

/-- The registers of an 8259: requests, service, mask, the vector of its first line, and its cascade lines. -/
structure Chip8259 where
  irr : BitVec 8
  isr : BitVec 8
  imr : BitVec 8
  base : BitVec 8
  cascade : BitVec 8
  stage : PicStage
  single : Bool
  needsIcw4 : Bool

/-- Line `n` of a register. -/
def picLine (n : ℕ) : BitVec 8 := 1#8 <<< n

namespace Chip8259
variable (c : Chip8259)

/-- A byte for the command port: the first initialisation word, or a specific end of interrupt. The driver sends no
other. -/
def command (b : BitVec 8) : Chip8259 :=
  if b.getLsbD 4 then
    { irr := 0, isr := 0, imr := 0, base := c.base, cascade := c.cascade, stage := .icw2, single := b.getLsbD 1,
      needsIcw4 := b.getLsbD 0 }
  else if b.extractLsb' 3 5 = 0b01100 then { c with isr := c.isr &&& ~~~picLine (b.extractLsb' 0 3).toNat }
  else c

def afterIcw3 : PicStage := if c.needsIcw4 then .icw4 else .ready

def data (b : BitVec 8) : Chip8259 :=
  match c.stage with
  | .icw2 => { c with base := b &&& 0xF8, stage := if c.single then c.afterIcw3 else .icw3 }
  | .icw3 => { c with cascade := b, stage := c.afterIcw3 }
  | .icw4 => { c with stage := .ready }
  | .ready => { c with imr := b }

def request (n : ℕ) : Chip8259 := { c with irr := c.irr ||| picLine n }

/-- The most urgent request that is not masked, unless one as urgent is being served. -/
def pending : Option ℕ :=
  (List.range 8).find? fun n => c.irr.getLsbD n && !c.imr.getLsbD n && !(List.range (n + 1)).any c.isr.getLsbD

def acknowledge (n : ℕ) : Chip8259 := { c with irr := c.irr &&& ~~~picLine n, isr := c.isr ||| picLine n }

end Chip8259

/-! ## The driver -/

def master8259Port : ℕ := 0x20
def slave8259Port : ℕ := 0xA0
def master8259Data : ℕ := 0x21
def slave8259Data : ℕ := 0xA1
def icw1 : BitVec 8 := 0x11
def icw2Master : BitVec 8 := 0x20
def icw2Slave : BitVec 8 := 0x28
def icw3Master : BitVec 8 := 0x04
def icw3Slave : BitVec 8 := 0x02
def icw4 : BitVec 8 := 0x01
def eoi : BitVec 8 := 0x60

/-- Both chips, and `cashed_8259`. -/
structure Pics where
  master : Chip8259
  slave : Chip8259
  cashed21 : BitVec 8
  cashedA1 : BitVec 8

namespace Pics
variable (s : Pics)

def outb (b : BitVec 8) (port : ℕ) : Pics :=
  if port = master8259Port then { s with master := s.master.command b }
  else if port = master8259Data then { s with master := s.master.data b }
  else if port = slave8259Port then { s with slave := s.slave.command b }
  else if port = slave8259Data then { s with slave := s.slave.data b }
  else s

/-- The masks go out. -/
def outMasks : Pics := (s.outb s.cashed21 master8259Data).outb s.cashedA1 slave8259Data

/-- `enable_irq`. -/
def enableIrq (irqNum : ℕ) : Pics :=
  if irqNum < 8 then ({ s with cashed21 := s.cashed21 &&& ~~~picLine irqNum } : Pics).outMasks
  else ({ s with cashedA1 := s.cashedA1 &&& ~~~picLine (irqNum - 8) } : Pics).outMasks

/-- `disable_irq`. -/
def disableIrq (irqNum : ℕ) : Pics :=
  if irqNum < 8 then ({ s with cashed21 := s.cashed21 ||| picLine irqNum } : Pics).outMasks
  else ({ s with cashedA1 := s.cashedA1 ||| picLine (irqNum - 8) } : Pics).outMasks

/-- `send_eoi`. -/
def sendEoi (irqNum : ℕ) : Pics :=
  if irqNum > 15 then s
  else if irqNum ≥ 8 then (s.outb (eoi ||| 2) master8259Port).outb (eoi ||| BitVec.ofNat 8 (irqNum - 8)) slave8259Port
  else s.outb (eoi ||| BitVec.ofNat 8 irqNum) master8259Port

/-- `i8259_init`. -/
def i8259Init : Pics :=
  let s := (((s.outb icw1 master8259Port).outb icw2Master master8259Data).outb icw3Master master8259Data).outb
    icw4 master8259Data
  let s :=
    (((s.outb icw1 slave8259Port).outb icw2Slave slave8259Data).outb icw3Slave slave8259Data).outb icw4 slave8259Data
  let s := (s.outb s.cashed21 master8259Data).outb s.cashedA1 slave8259Data
  s.enableIrq 2

/-! ## The two as one -/

/-- The master sees a request on its cascade lines while the slave has one pending. -/
def wired : Chip8259 :=
  if s.slave.pending.isSome then { s.master with irr := s.master.irr ||| s.master.cascade }
  else { s.master with irr := s.master.irr &&& ~~~s.master.cascade }

/-- What the processor gets when it asks for the vector. -/
def accept : Option (ℕ × Pics) :=
  match s.wired.pending with
  | none => none
  | some n =>
    if s.master.cascade.getLsbD n then
      match s.slave.pending with
      | none => none
      | some k =>
        some (s.slave.base.toNat + k, { s with master := s.wired.acknowledge n, slave := s.slave.acknowledge k })
    else some (s.master.base.toNat + n, { s with master := s.wired.acknowledge n })

end Pics

/-- What happens to the controllers. The driver enables and disables lines below 16. -/
inductive PicEvent
  | request (irq : ℕ)
  | enable (irq : ℕ)
  | disable (irq : ℕ)
  | eoi (irq : ℕ)
  | accept (vector : ℕ)

def picStep (s : Pics) : PicEvent → Option Pics
  | .request irq =>
    if irq = 2 ∨ 16 ≤ irq then none
    else if irq < 8 then some { s with master := s.master.request irq }
    else some { s with slave := s.slave.request (irq - 8) }
  | .enable irq => if irq < 16 then some (s.enableIrq irq) else none
  | .disable irq => if irq < 16 then some (s.disableIrq irq) else none
  | .eoi irq => some (s.sendEoi irq)
  | .accept v =>
    match s.accept with
    | some (w, t) => if w = v then some t else none
    | none => none

/-! ## One controller of 16 lines -/

/-- Line 2 is served with the lines from 8 on. -/
structure IrqLines where
  enabled : ℕ → Bool
  requested : ℕ → Bool
  serving : ℕ → Bool

def urgency : List ℕ := [0, 1] ++ (List.range 8).map (· + 8) ++ [3, 4, 5, 6, 7]

/-- The lines that hold up `n` while they are served. -/
def holdsUp (n : ℕ) : List ℕ := if n < 8 then List.range (n + 1) else [0, 1, 2] ++ (List.range (n - 7)).map (· + 8)

namespace IrqLines
variable (a : IrqLines)

def deliverable (n : ℕ) : Bool := a.requested n && a.enabled n && (n < 8 || a.enabled 2) && !(holdsUp n).any a.serving

def next : Option ℕ := urgency.find? a.deliverable

def serve (n : ℕ) : IrqLines :=
  let serving := if n < 8 then a.serving else Function.update a.serving 2 true
  { a with requested := Function.update a.requested n false, serving := Function.update serving n true }

def step : PicEvent → Option IrqLines
  | .request irq => if irq = 2 ∨ 16 ≤ irq then none
    else some { a with requested := Function.update a.requested irq true }
  | .enable irq => if irq < 16 then some { a with enabled := Function.update a.enabled irq true } else none
  | .disable irq => if irq < 16 then some { a with enabled := Function.update a.enabled irq false } else none
  | .eoi irq =>
    if irq > 15 then some a
    else if irq ≥ 8 then some { a with serving := Function.update (Function.update a.serving 2 false) irq false }
    else some { a with serving := Function.update a.serving irq false }
  | .accept v =>
    match a.next with
    | some n => if 32 + n = v then some (a.serve n) else none
    | none => none

def first : IrqLines where
  enabled n := n = 2
  requested _ := false
  serving _ := false

end IrqLines

/-- The registers of both chips show the lines. What the master has of requests on line 2 does not count. -/
structure ShowsLines (s : Pics) (a : IrqLines) : Prop where
  cashed21 : s.cashed21 = s.master.imr
  cashedA1 : s.cashedA1 = s.slave.imr
  masterMask : ∀ n < 8, s.master.imr.getLsbD n = !a.enabled n
  slaveMask : ∀ n < 8, s.slave.imr.getLsbD n = !a.enabled (n + 8)
  masterService : ∀ n < 8, s.master.isr.getLsbD n = a.serving n
  slaveService : ∀ n < 8, s.slave.isr.getLsbD n = a.serving (n + 8)
  masterRequest : ∀ n < 8, n ≠ 2 → s.master.irr.getLsbD n = a.requested n
  slaveRequest : ∀ n < 8, s.slave.irr.getLsbD n = a.requested (n + 8)
  masterBase : s.master.base = icw2Master
  slaveBase : s.slave.base = icw2Slave
  cascade : s.master.cascade = icw3Master
  masterReady : s.master.stage = .ready
  slaveReady : s.slave.stage = .ready

section Registers
variable {r : BitVec 8} {n m : ℕ}

theorem getLsbD_picLine (hm : m < 8) : (picLine n).getLsbD m = decide (m = n) := by
  unfold picLine
  rw [BitVec.getLsbD_shiftLeft, BitVec.getLsbD_one]
  by_cases h : m < n
  · simp [h]
    omega
  · simp [h, hm]
    omega

theorem raised_line (hm : m < 8) : (r ||| picLine n).getLsbD m = if m = n then true else r.getLsbD m := by
  rw [BitVec.getLsbD_or, getLsbD_picLine hm]
  by_cases h : m = n
  · simp [h]
  · simp [h]

theorem cleared_line (hm : m < 8) : (r &&& ~~~picLine n).getLsbD m = if m = n then false else r.getLsbD m := by
  rw [BitVec.getLsbD_and, BitVec.getLsbD_not, getLsbD_picLine hm]
  by_cases h : m = n
  · simp [h]
  · simp [h, hm]

theorem command_eoi (c : Chip8259) (hn : n < 8) :
    c.command (eoi ||| BitVec.ofNat 8 n) = { c with isr := c.isr &&& ~~~picLine n } := by
  have hbits : ∀ n < 8, (eoi ||| BitVec.ofNat 8 n).getLsbD 4 = false ∧
    (eoi ||| BitVec.ofNat 8 n).extractLsb' 3 5 = 0b01100 ∧
      ((eoi ||| BitVec.ofNat 8 n).extractLsb' 0 3).toNat = n := by decide
  obtain ⟨hinit, heoi, hline⟩ := hbits n hn
  unfold Chip8259.command
  rw [hinit, if_neg (by decide), if_pos heoi, hline]

end Registers

/-! ## The next line to be served -/

section Next
variable {s : Pics} {a : IrqLines}

theorem any_congr_mem {l : List ℕ} {p q : ℕ → Bool} (h : ∀ n ∈ l, p n = q n) : l.any p = l.any q := by
  induction l with
  | nil => rfl
  | cons n l ih =>
    rw [List.any_cons, List.any_cons, h n List.mem_cons_self, ih fun m hm => h m (List.mem_cons_of_mem _ hm)]

/-- What the slave would deliver, on its own. -/
def IrqLines.below (a : IrqLines) (n : ℕ) : Bool :=
  a.requested (n + 8) && a.enabled (n + 8) && !(List.range (n + 1)).any fun m => a.serving (m + 8)

/-- The slave gets through to the processor. -/
def IrqLines.through (a : IrqLines) : Bool := a.enabled 2 && !(List.range 3).any a.serving

theorem slave_pending (h : ShowsLines s a) : s.slave.pending = (List.range 8).find? a.below := by
  unfold Chip8259.pending
  apply List.find?_congr
  intro n hn
  have hlt := List.mem_range.mp hn
  unfold IrqLines.below
  rw [h.slaveRequest n hlt, h.slaveMask n hlt, Bool.not_not]
  congr 2
  apply any_congr_mem
  intro m hm
  have hm' := List.mem_range.mp hm
  exact h.slaveService m (by omega)

theorem deliverable_behind (n : ℕ) : a.deliverable (n + 8) = (a.below n && a.through) := by
  unfold IrqLines.deliverable IrqLines.below IrqLines.through holdsUp
  rw [if_neg (by omega), List.any_append, List.any_map]
  have hrange : n + 8 - 7 = n + 1 := by omega
  have hfalse : decide (n + 8 < 8) = false := decide_eq_false (by omega)
  rw [hrange, hfalse]
  have hthree : [0, 1, 2].any a.serving = (List.range 3).any a.serving := rfl
  have hcomp : (a.serving ∘ fun x => x + 8) = fun m => a.serving (m + 8) := rfl
  rw [hthree, hcomp]
  cases a.requested (n + 8) <;> cases a.enabled (n + 8) <;> cases a.enabled 2 <;> cases (List.range 3).any a.serving <;>
    cases (List.range (n + 1)).any fun m => a.serving (m + 8) <;> rfl

theorem behind_find (h : ShowsLines s a) : ((List.range 8).map (· + 8)).find? a.deliverable =
    if a.through then s.slave.pending.map (· + 8) else none := by
  have hcomp : (a.deliverable ∘ fun n => n + 8) = fun n => a.below n && a.through := by
    funext n
    exact deliverable_behind n
  rw [List.find?_map, hcomp, slave_pending h]
  by_cases ht : a.through = true
  · rw [if_pos ht, ht]
    simp only [Bool.and_true]
  · rw [if_neg ht, Bool.eq_false_iff.mpr ht]
    simp only [Bool.and_false]
    rfl

theorem wired_line (h : ShowsLines s a) {n : ℕ} (hn : n < 8) :
    (s.wired.irr.getLsbD n && !s.wired.imr.getLsbD n && !(List.range (n + 1)).any s.wired.isr.getLsbD) =
      if n = 2 then s.slave.pending.isSome && a.through else a.deliverable n := by
  have himr : s.wired.imr = s.master.imr := by
    unfold Pics.wired
    split <;> rfl
  have hisr : s.wired.isr = s.master.isr := by
    unfold Pics.wired
    split <;> rfl
  have hirr : s.wired.irr.getLsbD n = if n = 2 then s.slave.pending.isSome else s.master.irr.getLsbD n := by
    have hline : icw3Master = picLine 2 := by decide
    unfold Pics.wired
    rw [h.cascade, hline]
    cases s.slave.pending with
    | none =>
      simp only [Option.isSome_none, Bool.false_eq_true, if_false]
      exact cleared_line hn
    | some k =>
      simp only [Option.isSome_some, if_true]
      exact raised_line hn
  have hany : (List.range (n + 1)).any s.master.isr.getLsbD = (List.range (n + 1)).any a.serving := by
    apply any_congr_mem
    intro m hm
    have hm' := List.mem_range.mp hm
    exact h.masterService m (by omega)
  rw [himr, hisr, hirr, hany, h.masterMask n hn, Bool.not_not]
  by_cases htwo : n = 2
  · subst htwo
    simp only [if_true]
    unfold IrqLines.through
    rw [Bool.and_assoc]
  · simp only [if_neg htwo]
    unfold IrqLines.deliverable holdsUp
    rw [if_pos hn, h.masterRequest n hn htwo, decide_eq_true hn, Bool.true_or, Bool.and_true]

/-- The state when line `n` is served. -/
def Pics.served (s : Pics) (n : ℕ) : Pics :=
  if n < 8 then { s with master := s.wired.acknowledge n }
  else { s with master := s.wired.acknowledge 2, slave := s.slave.acknowledge (n - 8) }

theorem pending_split (c : Chip8259) : c.pending = ([0, 1] ++ ([2] ++ [3, 4, 5, 6, 7])).find?
    fun n => c.irr.getLsbD n && !c.imr.getLsbD n && !(List.range (n + 1)).any c.isr.getLsbD := rfl

theorem wired_pending (h : ShowsLines s a) : s.wired.pending = ([0, 1].find? a.deliverable).or
    ((if s.slave.pending.isSome && a.through then some 2 else none).or ([3, 4, 5, 6, 7].find? a.deliverable)) := by
  have hlow : ∀ n ∈ [0, 1], n < 8 ∧ n ≠ 2 := by decide
  have hhigh : ∀ n ∈ [3, 4, 5, 6, 7], n < 8 ∧ n ≠ 2 := by decide
  rw [pending_split s.wired, List.find?_append, List.find?_append]
  congr 1
  · apply List.find?_congr
    intro n hn
    rw [wired_line h (hlow n hn).1, if_neg (hlow n hn).2]
  · congr 1
    · rw [List.find?_singleton, wired_line h (by decide), if_pos rfl]
    · apply List.find?_congr
      intro n hn
      rw [wired_line h (hhigh n hn).1, if_neg (hhigh n hn).2]

theorem next_eq (h : ShowsLines s a) : a.next = ([0, 1].find? a.deliverable).or
    ((if a.through then s.slave.pending.map (· + 8) else none).or ([3, 4, 5, 6, 7].find? a.deliverable)) := by
  unfold IrqLines.next urgency
  rw [List.find?_append, List.find?_append, behind_find h, Option.or_assoc]

theorem accept_own (h : ShowsLines s a) {n : ℕ} (hn : n < 8) (hne : n ≠ 2) (hp : s.wired.pending = some n) :
    s.accept = some (32 + n, s.served n) := by
  have hbits : ∀ n < 8, n ≠ 2 → icw3Master.getLsbD n = false := by decide
  unfold Pics.accept Pics.served
  rw [hp]
  simp only
  rw [h.cascade, hbits n hn hne, h.masterBase, if_neg (by decide), if_pos hn]
  rfl

/-- **Both chips deliver the most urgent line.** -/
theorem accept_eq (h : ShowsLines s a) : s.accept = a.next.map fun n => (32 + n, s.served n) := by
  have hlow : ∀ n ∈ [0, 1], n < 8 ∧ n ≠ 2 := by decide
  have hhigh : ∀ n ∈ [3, 4, 5, 6, 7], n < 8 ∧ n ≠ 2 := by decide
  have hchip := wired_pending h
  rw [next_eq h]
  cases hfirst : [0, 1].find? a.deliverable with
  | some n =>
    rw [hfirst, Option.some_or] at hchip
    have hmem := hlow n (List.mem_of_find?_eq_some hfirst)
    rw [accept_own h hmem.1 hmem.2 hchip, Option.some_or]
    rfl
  | none =>
    rw [hfirst, Option.none_or] at hchip
    rw [Option.none_or]
    by_cases hslave : (s.slave.pending.isSome && a.through) = true
    · obtain ⟨hsome, hthrough⟩ := Bool.and_eq_true_iff.mp hslave
      obtain ⟨k, hk⟩ := Option.isSome_iff_exists.mp hsome
      rw [if_pos hslave, Option.some_or] at hchip
      rw [if_pos hthrough, hk]
      unfold Pics.accept Pics.served
      rw [hchip, hk]
      simp only
      rw [h.cascade, h.slaveBase, if_pos (by decide)]
      simp only [Option.map_some, Option.some_or, Option.some.injEq, Prod.mk.injEq]
      refine ⟨?_, ?_⟩
      · show 40 + k = 32 + (k + 8)
        omega
      · rw [if_neg (by omega), Nat.add_sub_cancel]
    · rw [if_neg hslave, Option.none_or] at hchip
      have hnone : (if a.through then s.slave.pending.map (· + 8) else none) = none := by
        by_cases hthrough : a.through = true
        · rw [if_pos hthrough]
          cases hk : s.slave.pending with
          | none => rfl
          | some k =>
            rw [hk, hthrough] at hslave
            exact absurd rfl hslave
        · rw [if_neg hthrough]
      rw [hnone, Option.none_or]
      cases hlast : [3, 4, 5, 6, 7].find? a.deliverable with
      | some n =>
        rw [hlast] at hchip
        have hmem := hhigh n (List.mem_of_find?_eq_some hlast)
        rw [accept_own h hmem.1 hmem.2 hchip]
        rfl
      | none =>
        rw [hlast] at hchip
        unfold Pics.accept
        rw [hchip]
        rfl

end Next

/-! ## Steps -/

section Steps
variable {s : Pics} {a : IrqLines} {n : ℕ}

theorem outMasks_eq (hm : s.master.stage = .ready) (hs : s.slave.stage = .ready) :
    s.outMasks =
      { s with master := { s.master with imr := s.cashed21 }, slave := { s.slave with imr := s.cashedA1 } } := by
  have hmaster : s.outb s.cashed21 master8259Data = { s with master := s.master.data s.cashed21 } := rfl
  have hslave : ∀ t : Pics, t.outb s.cashedA1 slave8259Data = { t with slave := t.slave.data s.cashedA1 } :=
    fun _ => rfl
  unfold Pics.outMasks
  rw [hmaster, hslave]
  unfold Chip8259.data
  simp only [hm, hs]

theorem shows_masks (h : ShowsLines s a) {mask maskA1 : BitVec 8} {enabled : ℕ → Bool}
    (hm : ∀ m < 8, mask.getLsbD m = !enabled m)
    (hs : ∀ m < 8, maskA1.getLsbD m = !enabled (m + 8)) :
    ShowsLines ({ s with cashed21 := mask, cashedA1 := maskA1 } : Pics).outMasks { a with enabled := enabled } := by
  rw [@outMasks_eq { s with cashed21 := mask, cashedA1 := maskA1 } h.masterReady h.slaveReady]
  exact { h with cashed21 := rfl, cashedA1 := rfl, masterMask := hm, slaveMask := hs }

theorem shows_switched (h : ShowsLines s a) {on : Bool} {mask maskA1 : BitVec 8}
    (hm : ∀ m < 8, mask.getLsbD m = if m = n then !on else s.cashed21.getLsbD m)
    (hs : ∀ m < 8, maskA1.getLsbD m = if m + 8 = n then !on else s.cashedA1.getLsbD m) :
    ShowsLines ({ s with cashed21 := mask, cashedA1 := maskA1 } : Pics).outMasks
      { a with enabled := Function.update a.enabled n on } := by
  apply shows_masks h
  · intro m hlt
    rw [hm m hlt, h.cashed21, h.masterMask m hlt]
    by_cases hmn : m = n
    · rw [if_pos hmn, hmn, Function.update_self]
    · rw [if_neg hmn, Function.update_of_ne hmn]
  · intro m hlt
    rw [hs m hlt, h.cashedA1, h.slaveMask m hlt]
    by_cases hmn : m + 8 = n
    · rw [if_pos hmn, hmn, Function.update_self]
    · rw [if_neg hmn, Function.update_of_ne hmn]

theorem shows_enable (h : ShowsLines s a) (n : ℕ) :
    ShowsLines (s.enableIrq n) { a with enabled := Function.update a.enabled n true } := by
  unfold Pics.enableIrq
  by_cases hlow : n < 8
  · rw [if_pos hlow]
    exact shows_switched h (fun m hm => cleared_line hm) fun m _ => (if_neg (by omega)).symm
  · rw [if_neg hlow]
    refine shows_switched h (fun m _ => (if_neg (by omega)).symm) fun m hm => ?_
    have hline : m = n - 8 ↔ m + 8 = n := by omega
    rw [cleared_line hm]
    simp only [hline]
    rfl

theorem shows_disable (h : ShowsLines s a) (n : ℕ) :
    ShowsLines (s.disableIrq n) { a with enabled := Function.update a.enabled n false } := by
  unfold Pics.disableIrq
  by_cases hlow : n < 8
  · rw [if_pos hlow]
    exact shows_switched h (fun m hm => raised_line hm) fun m _ => (if_neg (by omega)).symm
  · rw [if_neg hlow]
    refine shows_switched h (fun m _ => (if_neg (by omega)).symm) fun m hm => ?_
    have hline : m = n - 8 ↔ m + 8 = n := by omega
    rw [raised_line hm]
    simp only [hline]
    rfl

theorem sendEoi_eq (hn : n < 16) : s.sendEoi n =
    if n ≥ 8 then { s with
      master := { s.master with isr := s.master.isr &&& ~~~picLine 2 }
      slave := { s.slave with isr := s.slave.isr &&& ~~~picLine (n - 8) } }
    else { s with master := { s.master with isr := s.master.isr &&& ~~~picLine n } } := by
  have hmaster : ∀ (t : Pics) b, t.outb b master8259Port = { t with master := t.master.command b } := fun _ _ => rfl
  have hslave : ∀ (t : Pics) b, t.outb b slave8259Port = { t with slave := t.slave.command b } := fun _ _ => rfl
  have htwo : eoi ||| 2 = eoi ||| BitVec.ofNat 8 2 := rfl
  unfold Pics.sendEoi
  rw [if_neg (by omega)]
  by_cases hhigh : n ≥ 8
  · rw [if_pos hhigh, if_pos hhigh, hmaster, hslave, htwo, command_eoi _ (by decide), command_eoi _ (by omega)]
  · rw [if_neg hhigh, if_neg hhigh, hmaster, command_eoi _ (by omega)]

theorem shows_eoi (h : ShowsLines s a) (n : ℕ) : ∃ b, a.step (.eoi n) = some b ∧ ShowsLines (s.sendEoi n) b := by
  unfold IrqLines.step
  simp only
  by_cases hout : n > 15
  · rw [if_pos hout]
    refine ⟨a, rfl, ?_⟩
    unfold Pics.sendEoi
    rw [if_pos hout]
    exact h
  rw [if_neg hout, sendEoi_eq (by omega)]
  by_cases hhigh : n ≥ 8
  · rw [if_pos hhigh, if_pos hhigh]
    refine ⟨_, rfl, { h with masterService := fun m hm => ?_, slaveService := fun m hm => ?_ }⟩
    · simp only
      rw [cleared_line hm, Function.update_of_ne (by omega), h.masterService m hm]
      by_cases htwo : m = 2
      · rw [if_pos htwo, htwo, Function.update_self]
      · rw [if_neg htwo, Function.update_of_ne htwo]
    · simp only
      rw [cleared_line hm, h.slaveService m hm]
      by_cases hmn : m = n - 8
      · rw [if_pos hmn, show m + 8 = n by omega, Function.update_self]
      · rw [if_neg hmn, Function.update_of_ne (by omega), Function.update_of_ne (by omega)]
  · rw [if_neg hhigh, if_neg hhigh]
    refine ⟨_, rfl, { h with masterService := fun m hm => ?_, slaveService := fun m hm => ?_ }⟩
    · simp only
      rw [cleared_line hm, h.masterService m hm]
      by_cases hmn : m = n
      · rw [if_pos hmn, hmn, Function.update_self]
      · rw [if_neg hmn, Function.update_of_ne hmn]
    · simp only
      rw [h.slaveService m hm, Function.update_of_ne (by omega)]

theorem shows_request (h : ShowsLines s a) : Option.Rel ShowsLines (picStep s (.request n)) (a.step (.request n)) := by
  unfold picStep IrqLines.step
  simp only
  by_cases hout : n = 2 ∨ 16 ≤ n
  · rw [if_pos hout, if_pos hout]
    exact .none
  rw [if_neg hout, if_neg hout]
  by_cases hlow : n < 8
  · rw [if_pos hlow]
    refine .some { h with masterRequest := fun m hm hne => ?_, slaveRequest := fun m hm => ?_ }
    · simp only [Chip8259.request]
      rw [raised_line hm, h.masterRequest m hm hne]
      by_cases hmn : m = n
      · rw [if_pos hmn, hmn, Function.update_self]
      · rw [if_neg hmn, Function.update_of_ne hmn]
    · simp only
      rw [h.slaveRequest m hm, Function.update_of_ne (by omega)]
  · rw [if_neg hlow]
    refine .some { h with masterRequest := fun m hm hne => ?_, slaveRequest := fun m hm => ?_ }
    · simp only
      rw [h.masterRequest m hm hne, Function.update_of_ne (by omega)]
    · simp only [Chip8259.request]
      rw [raised_line hm, h.slaveRequest m hm]
      by_cases hmn : m = n - 8
      · rw [if_pos hmn, show m + 8 = n by omega, Function.update_self]
      · rw [if_neg hmn, Function.update_of_ne (by omega)]

theorem wired_irr (h : ShowsLines s a) {m : ℕ} (hm : m < 8) (hne : m ≠ 2) : s.wired.irr.getLsbD m = a.requested m := by
  have hline : icw3Master = picLine 2 := by decide
  rw [← h.masterRequest m hm hne]
  unfold Pics.wired
  rw [h.cascade, hline]
  split
  · exact (raised_line hm).trans (if_neg hne)
  · exact (cleared_line hm).trans (if_neg hne)

theorem shows_served (h : ShowsLines s a) (hn : n < 16) : ShowsLines (s.served n) (a.serve n) := by
  have himr : s.wired.imr = s.master.imr := by
    unfold Pics.wired
    split <;> rfl
  have hisr : s.wired.isr = s.master.isr := by
    unfold Pics.wired
    split <;> rfl
  have hbase : s.wired.base = s.master.base := by
    unfold Pics.wired
    split <;> rfl
  have hcascade : s.wired.cascade = s.master.cascade := by
    unfold Pics.wired
    split <;> rfl
  have hstage : s.wired.stage = s.master.stage := by
    unfold Pics.wired
    split <;> rfl
  unfold Pics.served IrqLines.serve
  by_cases hlow : n < 8
  · simp only [if_pos hlow]
    refine { h with
      cashed21 := h.cashed21.trans himr.symm
      masterMask := fun m hm => himr ▸ h.masterMask m hm
      masterService := fun m hm => ?_
      slaveService := fun m hm => ?_
      masterRequest := fun m hm hm' => ?_
      slaveRequest := fun m hm => ?_
      masterBase := hbase.trans h.masterBase
      cascade := hcascade.trans h.cascade
      masterReady := hstage.trans h.masterReady }
    · simp only [Chip8259.acknowledge, hisr]
      rw [raised_line hm, h.masterService m hm]
      by_cases hmn : m = n
      · rw [if_pos hmn, hmn, Function.update_self]
      · rw [if_neg hmn, Function.update_of_ne hmn]
    · simp only
      rw [h.slaveService m hm, Function.update_of_ne (by omega)]
    · simp only [Chip8259.acknowledge]
      rw [cleared_line hm, wired_irr h hm hm']
      by_cases hmn : m = n
      · rw [if_pos hmn, hmn, Function.update_self]
      · rw [if_neg hmn, Function.update_of_ne hmn]
    · simp only
      rw [h.slaveRequest m hm, Function.update_of_ne (by omega)]
  · simp only [if_neg hlow]
    refine { h with
      cashed21 := h.cashed21.trans himr.symm
      masterMask := fun m hm => himr ▸ h.masterMask m hm
      masterService := fun m hm => ?_
      slaveService := fun m hm => ?_
      masterRequest := fun m hm hm' => ?_
      slaveRequest := fun m hm => ?_
      masterBase := hbase.trans h.masterBase
      cascade := hcascade.trans h.cascade
      masterReady := hstage.trans h.masterReady }
    · simp only [Chip8259.acknowledge, hisr]
      rw [raised_line hm, h.masterService m hm, Function.update_of_ne (by omega)]
      by_cases hmn : m = 2
      · rw [if_pos hmn, hmn, Function.update_self]
      · rw [if_neg hmn, Function.update_of_ne hmn]
    · simp only [Chip8259.acknowledge]
      rw [raised_line hm, h.slaveService m hm]
      by_cases hmn : m = n - 8
      · rw [if_pos hmn, show m + 8 = n by omega, Function.update_self]
      · rw [if_neg hmn, Function.update_of_ne (by omega), Function.update_of_ne (by omega)]
    · simp only [Chip8259.acknowledge]
      rw [cleared_line hm, if_neg hm', wired_irr h hm hm', Function.update_of_ne (by omega)]
    · simp only [Chip8259.acknowledge]
      rw [cleared_line hm, h.slaveRequest m hm]
      by_cases hmn : m = n - 8
      · rw [if_pos hmn, show m + 8 = n by omega, Function.update_self]
      · rw [if_neg hmn, Function.update_of_ne (by omega)]

theorem next_mem (hn : a.next = some n) : n < 16 ∧ n ≠ 2 ∧ a.deliverable n = true := by
  have hall : ∀ m ∈ urgency, m < 16 ∧ m ≠ 2 := by decide
  have hmem := hall n (List.mem_of_find?_eq_some hn)
  exact ⟨hmem.1, hmem.2, List.find?_some hn⟩

/-- **Step by step** the two chips do what the one controller does. -/
theorem shows_step (h : ShowsLines s a) (e : PicEvent) : Option.Rel ShowsLines (picStep s e) (a.step e) := by
  cases e with
  | request n => exact shows_request h
  | enable n =>
    unfold picStep IrqLines.step
    simp only
    split
    · exact .some (shows_enable h n)
    · exact .none
  | disable n =>
    unfold picStep IrqLines.step
    simp only
    split
    · exact .some (shows_disable h n)
    · exact .none
  | eoi n =>
    obtain ⟨b, hb, hshows⟩ := shows_eoi h n
    rw [hb]
    exact .some hshows
  | accept v =>
    unfold picStep IrqLines.step
    rw [accept_eq h]
    cases hn : a.next with
    | none => exact .none
    | some n =>
      simp only [Option.map_some]
      split
      · exact .some (shows_served h (next_mem hn).1)
      · exact .none

end Steps

/-! ## Runs -/

/-- A chip after its four words and its mask. -/
def Chip8259.initialised (w2 w3 mask : BitVec 8) : Chip8259 where
  irr := 0
  isr := 0
  imr := mask
  base := w2 &&& 0xF8
  cascade := w3
  stage := .ready
  single := false
  needsIcw4 := true

theorem i8259Init_eq {s : Pics} (h21 : s.cashed21 = 0xFF) (hA1 : s.cashedA1 = 0xFF) : s.i8259Init =
    { master := .initialised icw2Master icw3Master 0xFB
      slave := .initialised icw2Slave icw3Slave 0xFF
      cashed21 := 0xFB
      cashedA1 := 0xFF } := by
  have hmask : (0xFF : BitVec 8) &&& ~~~picLine 2 = 0xFB := by decide
  have hwords : s.i8259Init = Pics.enableIrq ⟨.initialised icw2Master icw3Master s.cashed21,
    .initialised icw2Slave icw3Slave s.cashedA1,
      s.cashed21, s.cashedA1⟩ 2 := rfl
  rw [hwords, h21, hA1]
  unfold Pics.enableIrq
  rw [if_pos (by decide), hmask, outMasks_eq rfl rfl]
  rfl

theorem shows_init {s : Pics} (h21 : s.cashed21 = 0xFF) (hA1 : s.cashedA1 = 0xFF) :
    ShowsLines s.i8259Init IrqLines.first := by
  rw [i8259Init_eq h21 hA1]
  exact
    { cashed21 := rfl
      cashedA1 := rfl
      masterMask := by decide
      slaveMask := by decide
      masterService := by decide
      slaveService := by decide
      masterRequest := by decide
      slaveRequest := by decide
      masterBase := rfl
      slaveBase := rfl
      cascade := rfl
      masterReady := rfl
      slaveReady := rfl }

section Runs
variable {a b : IrqLines} {es : List PicEvent} {n : ℕ}

theorem enabled_step {e : PicEvent} (h : a.step e = some b) (hn : b.enabled n = true) :
    a.enabled n = true ∨ e = .enable n := by
  cases e with
  | request m =>
    simp only [IrqLines.step] at h
    split at h
    · cases h
    · cases h
      exact .inl hn
  | enable m =>
    simp only [IrqLines.step] at h
    split at h
    · cases h
      by_cases hmn : n = m
      · exact .inr (by rw [hmn])
      · exact .inl ((Function.update_of_ne hmn true a.enabled).symm.trans hn)
    · cases h
  | disable m =>
    simp only [IrqLines.step] at h
    split at h
    · cases h
      by_cases hmn : n = m
      · rw [hmn] at hn
        simp at hn
      · exact .inl ((Function.update_of_ne hmn false a.enabled).symm.trans hn)
    · cases h
  | eoi m =>
    simp only [IrqLines.step] at h
    split at h
    · cases h
      exact .inl hn
    · split at h
      · cases h
        exact .inl hn
      · cases h
        exact .inl hn
  | accept v =>
    simp only [IrqLines.step] at h
    split at h
    · split at h
      · cases h
        exact .inl hn
      · cases h
    · cases h

theorem enabled_run (h : runEvents IrqLines.step a es = some b) (hn : b.enabled n = true) :
    a.enabled n = true ∨ PicEvent.enable n ∈ es := by
  induction es generalizing a with
  | nil =>
    simp only [runEvents, Option.some.injEq] at h
    exact .inl (h ▸ hn)
  | cons e es ih =>
    simp only [runEvents] at h
    split at h
    · next c hc =>
      rcases ih h with hold | hmem
      · rcases enabled_step hc hold with hfirst | rfl
        · exact .inl hfirst
        · exact .inr List.mem_cons_self
      · exact .inr (List.mem_cons_of_mem _ hmem)
    · cases h

theorem next_some (hn : n ∈ urgency) (h : a.deliverable n = true) : a.next ≠ none := by
  intro hnone
  have hnot := List.find?_eq_none.mp hnone n hn
  exact hnot h

end Runs

/-- **The two chips behind the driver are one controller**: every order of requests, interrupts taken, and calls of the
driver has the same outcome on both, from whatever state `i8259_init` finds the chips in. A line is served only if it
was requested and enabled and no line as urgent waits for its end of interrupt. -/
theorem controllers_run (s : Pics) (h21 : s.cashed21 = 0xFF) (hA1 : s.cashedA1 = 0xFF) (es : List PicEvent) :
    Option.Rel ShowsLines (runEvents picStep s.i8259Init es) (runEvents IrqLines.step IrqLines.first es) ∧
      ∀ t a, runEvents picStep s.i8259Init es = some t → runEvents IrqLines.step IrqLines.first es = some a →
        (∀ v u, t.accept = some (v, u) → ∃ n, v = 32 + n ∧ a.deliverable n = true) ∧
        (∀ n ∈ urgency, a.deliverable n = true → t.accept.isSome) ∧
        ((∀ n, PicEvent.enable n ∈ es → n ∈ [0, 1, 8]) → ∀ v u, t.accept = some (v, u) → HasStub v) := by
  have hrel := runEvents_rel (fun _ _ e h => shows_step h e) (shows_init h21 hA1) es
  refine ⟨hrel, ?_⟩
  intro t a ht ha
  rw [ht, ha] at hrel
  have hshows : ShowsLines t a := by
    cases hrel with
    | some h => exact h
  have hserved : ∀ v u, t.accept = some (v, u) → ∃ n, v = 32 + n ∧ a.next = some n := by
    intro v u hv
    rw [accept_eq hshows] at hv
    obtain ⟨n, hn, hpair⟩ := Option.map_eq_some_iff.mp hv
    exact ⟨n, (congrArg Prod.fst hpair).symm, hn⟩
  refine ⟨?_, ?_, ?_⟩
  · intro v u hv
    obtain ⟨n, hvn, hn⟩ := hserved v u hv
    exact ⟨n, hvn, (next_mem hn).2.2⟩
  · intro n hn hdel
    rw [accept_eq hshows, Option.isSome_map]
    exact Option.isSome_iff_ne_none.mpr (next_some hn hdel)
  · intro honly v u hv
    obtain ⟨n, hvn, hn⟩ := hserved v u hv
    obtain ⟨-, hne, hdel⟩ := next_mem hn
    have henabled : a.enabled n = true := by
      unfold IrqLines.deliverable at hdel
      simp only [Bool.and_eq_true] at hdel
      exact hdel.1.1.2
    have hmem : n ∈ [0, 1, 8] := by
      rcases enabled_run ha henabled with hfirst | hevent
      · exact absurd (of_decide_eq_true hfirst) hne
      · exact honly n hevent
    have hall : ∀ n ∈ [0, 1, 8], HasStub (32 + n) := by decide
    rw [hvn]
    exact hall n hmem

/-- Chips in the middle of an initialisation, as a warm start may find them. -/
def halfInitialised : Chip8259 where
  irr := 0xFF
  isr := 0x81
  imr := 0
  base := 8
  cascade := 4
  stage := .icw3
  single := false
  needsIcw4 := true

theorem controllers_run_warm :
    (∀ n, PicEvent.enable n ∈ [.enable 1, .enable 8, .request 8, .request 1, .accept 33] → n ∈ [0, 1, 8]) ∧
    Option.Rel ShowsLines
      (runEvents picStep (Pics.i8259Init ⟨halfInitialised, halfInitialised, 0xFF, 0xFF⟩)
        [.enable 1, .enable 8, .request 8, .request 1, .accept 33])
      (runEvents IrqLines.step IrqLines.first [.enable 1, .enable 8, .request 8, .request 1, .accept 33]) := by
  refine ⟨by simp, (controllers_run ⟨halfInitialised, halfInitialised, 0xFF, 0xFF⟩ rfl rfl _).1⟩

end Kernel391
