import Kernel391.Machine.Idt

/-! Interrupts, exceptions and `int`, from the gate to the stub. The processor changes to the kernel's
stack when it leaves user mode, and what it pushes there is what `iret` takes back. -/
namespace Kernel391
open Kernel391.Foundations
set_option autoImplicit false

/-- The registers with the flags and the selectors of code and stack. Those of data, which no stub saves, are
left out. -/
structure Processor extends X86 where
  eflags : Word
  cs : BitVec 16
  ss : BitVec 16

/-- The entries of the GDT that never change. -/
def gdt (i : ℕ) : BitVec 64 :=
  [0, 0, 0x00CF9A000000FFFF, 0x00CF92000000FFFF, 0x00CFFA000000FFFF, 0x00CFF2000000FFFF].getD i 0

/-- The privilege of the segment a selector names. -/
def segmentDpl (selector : BitVec 16) : BitVec 2 := (gdt (selector >>> 3).toNat).extractLsb' 45 2

/-- The stack for the kernel in the TSS. -/
structure KernelStack where
  esp0 : Word
  ss0 : BitVec 16

def trapFlag : Word := 0x100
def interruptFlag : Word := 0x200
def nestedTask : Word := 0x4000
def resumeFlag : Word := 0x10000
def virtualMode : Word := 0x20000

namespace Processor
variable (p : Processor)

/-- The registers of a program, but for those the processor changes itself. -/
def registers : List Word := [p.eax, p.ebx, p.ecx, p.edx, p.esi, p.edi, p.ebp]

def cpl : BitVec 2 := p.cs.extractLsb' 0 2

def push (v : Word) : Processor := { p with toX86 := p.toX86.push v }

/-- The flags behind a gate: a gate for interrupts turns them off. -/
def gateFlags (kind : GateKind) (flags : Word) : Word :=
  let flags := flags &&& ~~~(trapFlag ||| nestedTask ||| resumeFlag ||| virtualMode)
  match kind with
  | .interrupt => flags &&& ~~~interruptFlag
  | .trap => flags

/-- Through a gate, with the address to come back to and the error code of an exception. -/
def enter (stack : KernelStack) (kind : GateKind) (g : Gate) (back : Word) (code : Option Word) : Processor :=
  let q := if segmentDpl g.selector < p.cpl then
      (({ p with esp := stack.esp0, ss := stack.ss0 } : Processor).push (p.ss.setWidth 32)).push p.esp
    else p
  let q := ((q.push p.eflags).push (p.cs.setWidth 32)).push back
  let q := match code with
    | some c => q.push c
    | none => q
  { q with eip := g.offset, cs := g.selector, eflags := gateFlags kind p.eflags }

end Processor

/-- What makes the processor leave the program: an `int`, a device, or an exception with or without an error code. -/
inductive Cause
  | software (n : ℕ)
  | external (n : ℕ)
  | exception (n : ℕ) (code : Option Word)

def Cause.vector : Cause → ℕ
  | .software n => n
  | .external n => n
  | .exception n _ => n

/-- An `int` takes two bytes. -/
def Cause.back : Cause → Word → Word
  | .software _, eip => eip + 2
  | _, eip => eip

def Cause.code : Cause → Option Word
  | .exception _ c => c
  | _ => none

/-- The error code for a gate: its place in the IDT, and whether the program did not ask for it. -/
def Cause.gateError : Cause → Word
  | .software n => BitVec.ofNat 32 (8 * n + 2)
  | c => BitVec.ofNat 32 (8 * c.vector + 3)

/-- One try to go through the gate of a cause, or the exception it makes instead. -/
def deliver (idt : ℕ → BitVec 64) (stack : KernelStack) (p : Processor) (c : Cause) : Except Cause Processor :=
  let g := decodeGate (idt c.vector)
  match g.kind with
  | none => .error (.exception 13 (some c.gateError))
  | some kind =>
    match c with
    | .software _ =>
      if g.dpl < p.cpl then .error (.exception 13 (some c.gateError))
      else if g.present then .ok (p.enter stack kind g (c.back p.eip) c.code)
      else .error (.exception 11 (some c.gateError))
    | _ =>
      if g.present then .ok (p.enter stack kind g (c.back p.eip) c.code)
      else .error (.exception 11 (some c.gateError))

/-- What a cause leads to. An exception while delivering an exception is a double fault. -/
def interrupt (idt : ℕ → BitVec 64) (stack : KernelStack) (p : Processor) (c : Cause) : Option Processor :=
  match deliver idt stack p c with
  | .ok q => some q
  | .error c' => (deliver idt stack p c').toOption

/-! ## The stubs -/

namespace Processor
variable (p : Processor)

def cli : Processor := { p with eflags := p.eflags &&& ~~~interruptFlag }
def sti : Processor := { p with eflags := p.eflags ||| interruptFlag }

def pushal : Processor :=
  (((((((p.push p.eax).push p.ecx).push p.edx).push p.ebx).push p.esp).push p.ebp).push p.esi).push p.edi

def pushfl : Processor := p.push p.eflags

/-- `popal` passes over the stack pointer. -/
def popal : Processor :=
  let s := p.toX86.popEdi.popEsi.popEbp
  let s := ({ s with esp := s.esp + 4 } : X86).popEbx
  let s := s.pop fun s v => { s with edx := v }
  let s := s.pop fun s v => { s with ecx := v }
  { p with toX86 := s.pop fun s v => { s with eax := v } }

def popfl : Processor := { p with esp := p.esp + 4, eflags := load32 p.mem p.esp }

/-- `iret`, with the stack of the program when that is less privileged. A nested task and virtual mode are left out. -/
def iret : Option Processor :=
  let flags := load32 p.mem (p.esp + 8)
  if p.eflags &&& nestedTask ≠ 0 ∨ flags &&& virtualMode ≠ 0 then none
  else
    let q := { p with
      eip := load32 p.mem p.esp
      cs := (load32 p.mem (p.esp + 4)).setWidth 16
      eflags := flags
      esp := p.esp + 12 }
    if p.cpl < q.cpl then
      some { q with esp := load32 p.mem (p.esp + 12), ss := (load32 p.mem (p.esp + 16)).setWidth 16 }
    else some q

/-- A call of the compiled `handler`, which ends with its `ret`. -/
def call (handler : Processor → Processor) (next : Word) : Processor := handler (p.push next)

/-- `isr_keyboard` and `isr_pit`. No interrupt comes between `sti` and `iret`. -/
def isrDevice (handler : Processor → Processor) (next : Word) : Option Processor :=
  ((p.cli.pushal.pushfl.call handler next).popfl.popal.sti).iret

/-- `isr_rtc`. -/
def isrRtc (handler : Processor → Processor) (next : Word) : Option Processor :=
  ((p.pushal.pushfl.call handler next).popfl.popal).iret

end Processor

/-! ## Frames -/

section Frames
variable {p q : Processor} {ws : List Word} {v : Word}

@[simp] theorem push_eflags : (p.push v).eflags = p.eflags := rfl
@[simp] theorem push_esp : (p.push v).esp = p.esp - 4 := rfl
@[simp] theorem push_cs : (p.push v).cs = p.cs := rfl
@[simp] theorem push_registers : (p.push v).registers = p.registers := rfl
@[simp] theorem push_ss : (p.push v).ss = p.ss := rfl

/-- Nothing but `n` bytes below the stack pointer is another. -/
structure Below (n : ℕ) (p q : Processor) : Prop where
  esp : q.esp = p.esp - BitVec.ofNat 32 n
  mem : ∀ b, Inside p.esp (2 ^ 32 - n) b → q.mem b = p.mem b

theorem Below.push {n : ℕ} (h : Below n p q) (hn : n + 4 < 2 ^ 32) (v : Word) : Below (n + 4) p (q.push v) where
  esp := by
    rw [push_esp, h.esp]
    bv_omega
  mem b hb := by
    have hesp := h.esp
    have hout : ¬ Inside (q.esp - 4) 4 b := by
      rw [hesp]
      unfold Inside at hb ⊢
      bv_omega
    have hin : Inside p.esp (2 ^ 32 - n) b := by
      unfold Inside at hb ⊢
      omega
    exact (store32_outside hout).trans (h.mem b hin)

theorem Below.refl (p : Processor) : Below 0 p p where
  esp := (BitVec.sub_zero _).symm
  mem _ _ := rfl

theorem pushal_eflags : p.pushal.eflags = p.eflags := by
  unfold Processor.pushal
  simp only [push_eflags]

theorem pushal_esp : p.pushal.esp = p.esp - 32 := by
  unfold Processor.pushal
  simp only [push_esp]
  bv_omega

theorem push_frame (h : WordsAt p.mem p.esp ws) (hlen : 4 * ws.length + 4 ≤ 2 ^ 32) :
    WordsAt (p.push v).mem (p.push v).esp (v :: ws) :=
  h.store hlen

theorem pushal_frame (h : WordsAt p.mem p.esp ws) (hlen : 4 * ws.length + 32 ≤ 2 ^ 32) :
    WordsAt p.pushal.mem p.pushal.esp (p.edi :: p.esi :: p.ebp :: p.esp :: p.ebx :: p.edx :: p.ecx :: p.eax :: ws) := by
  have heax := push_frame (v := p.eax) h (by omega)
  have hecx := push_frame (v := p.ecx) heax (by simp only [List.length_cons]; omega)
  have hedx := push_frame (v := p.edx) hecx (by simp only [List.length_cons]; omega)
  have hebx := push_frame (v := p.ebx) hedx (by simp only [List.length_cons]; omega)
  have hesp := push_frame (v := p.esp) hebx (by simp only [List.length_cons]; omega)
  have hebp := push_frame (v := p.ebp) hesp (by simp only [List.length_cons]; omega)
  have hesi := push_frame (v := p.esi) hebp (by simp only [List.length_cons]; omega)
  exact push_frame hesi (by simp only [List.length_cons]; omega)

theorem popal_eq {eax ecx edx ebx esp ebp esi edi : Word}
    (h : WordsAt p.mem p.esp (edi :: esi :: ebp :: esp :: ebx :: edx :: ecx :: eax :: ws)) : p.popal =
      { p with edi := edi, esi := esi, ebp := ebp, ebx := ebx, edx := edx, ecx := ecx, eax := eax, esp := p.esp + 32 } ∧
      WordsAt p.mem (p.esp + 32) ws := by
  obtain ⟨hedi, hesi, hebp, -, hebx, hedx, hecx, heax, hws⟩ := h
  have hesp : p.esp + 32 = p.esp + 4 + 4 + 4 + 4 + 4 + 4 + 4 + 4 := by bv_omega
  rw [hesp]
  refine ⟨?_, hws⟩
  unfold Processor.popal
  simp only [X86.popEdi, X86.popEsi, X86.popEbp, X86.popEbx, X86.pop, hedi, hesi, hebp, hebx, hedx, hecx, heax]

/-- What lies above the return address and the error code when the kernel is entered. -/
def Processor.saved (p : Processor) : List Word :=
  p.cs.setWidth 32 :: p.eflags :: if 0 < p.cpl then [p.esp, p.ss.setWidth 32] else []

variable {stack : KernelStack} {kind : GateKind} {g : Gate} {back : Word}

theorem wordsAt_nil (m : Word → BitVec 8) (a : Word) : WordsAt m a [] := trivial

theorem enter_frame (hdpl : segmentDpl g.selector = 0) (code : Option Word) :
    WordsAt (p.enter stack kind g back code).mem (p.enter stack kind g back code).esp
      (code.toList ++ back :: p.saved) := by
  unfold Processor.enter Processor.saved
  rw [hdpl]
  by_cases huser : 0 < p.cpl
  · simp only [if_pos huser]
    have hss := push_frame (p := { p with esp := stack.esp0, ss := stack.ss0 }) (v := p.ss.setWidth 32)
      (wordsAt_nil _ _) (by simp)
    have hflags := push_frame (v := p.eflags) (push_frame (v := p.esp) hss (by simp)) (by simp)
    have hback := push_frame (v := back) (push_frame (v := p.cs.setWidth 32) hflags (by simp)) (by simp)
    cases code with
    | none => exact hback
    | some c => exact push_frame hback (by simp)
  · simp only [if_neg huser]
    have hflags := push_frame (p := p) (v := p.eflags) (wordsAt_nil _ _) (by simp)
    have hback := push_frame (v := back) (push_frame (v := p.cs.setWidth 32) hflags (by simp)) (by simp)
    cases code with
    | none => exact hback
    | some c => exact push_frame hback (by simp)

end Frames

/-! ## What a stub gives back -/

/-- A handler comes back to the kernel's code, and the `n` bytes above its return address are as they were. -/
structure ComesBack (n : ℕ) (q t : Processor) : Prop where
  esp : t.esp = q.esp
  cs : t.cs = q.cs
  ss : t.ss = q.ss
  mem : ∀ b, Inside q.esp n b → t.mem b = q.mem b

section Stubs
variable {p q t : Processor} {ws : List Word} {back next : Word} {handler : Processor → Processor}

theorem pushed_frame (h : WordsAt q.mem q.esp ws) (hlen : 4 * ws.length + 36 ≤ 2 ^ 32) :
    WordsAt q.pushal.pushfl.mem q.pushal.pushfl.esp
      (q.eflags :: q.edi :: q.esi :: q.ebp :: q.esp :: q.ebx :: q.edx :: q.ecx :: q.eax :: ws) := by
  unfold Processor.pushfl
  rw [pushal_eflags]
  exact push_frame (pushal_frame h (by omega)) (by simp only [List.length_cons]; omega)

theorem pushed_esp : q.pushal.pushfl.esp = q.esp - 36 := by
  unfold Processor.pushfl
  rw [push_esp, pushal_esp]
  bv_omega

theorem pushed_selectors : q.pushal.pushfl.cs = q.cs ∧ q.pushal.pushfl.ss = q.ss := by
  unfold Processor.pushfl Processor.pushal
  simp only [push_cs, push_ss, and_self]

/-- **The pops of a stub** undo its pushes, whatever the handler left in the registers. -/
theorem stub_back {n : ℕ} (h : WordsAt q.mem q.esp ws) (hn : 4 * ws.length + 36 ≤ n) (hlen : n ≤ 2 ^ 32)
    (hback : ComesBack n q.pushal.pushfl t) :
    t.popfl.popal = { q with mem := t.mem, eip := t.eip } ∧ WordsAt t.mem q.esp ws := by
  obtain ⟨hesp, hcs, hss, hmem⟩ := hback
  have hframe := pushed_frame h (by omega)
  have hkept := hframe.congr (by simp only [List.length_cons]; omega) fun b hb => hmem b (by
    simp only [List.length_cons] at hb
    unfold Inside at hb ⊢
    omega)
  obtain ⟨hflags, hregs⟩ := hkept
  rw [pushed_esp] at hflags hregs hesp
  have hpopfl : t.popfl = { t with esp := q.esp - 36 + 4, eflags := q.eflags } := by
    unfold Processor.popfl
    rw [hesp, hflags]
  have htop : q.esp - 36 + 4 + 32 = q.esp := by bv_omega
  rw [hpopfl]
  obtain ⟨hpop, hws⟩ := @popal_eq { t with esp := q.esp - 36 + 4, eflags := q.eflags } ws _ _ _ _ _ _ _ _ hregs
  rw [hpop]
  simp only at hws ⊢
  rw [htop] at hws ⊢
  rw [hcs, hss, pushed_selectors.1, pushed_selectors.2]
  exact ⟨rfl, hws⟩

theorem iret_frame (h : WordsAt t.mem t.esp (back :: p.saved)) (hcpl : t.cpl = 0)
    (hnested : t.eflags &&& nestedTask = 0)
    (hvirtual : p.eflags &&& virtualMode = 0) (hsame : ¬ 0 < p.cpl → t.esp + 12 = p.esp ∧ t.ss = p.ss) :
    t.iret = some { t with eip := back, cs := p.cs, eflags := p.eflags, esp := p.esp, ss := p.ss } := by
  obtain ⟨hback, hcs, hflags, hrest⟩ := h
  have hcs' : (load32 t.mem (t.esp + 4)).setWidth 16 = p.cs := by
    rw [hcs]
    simp
  have hword : t.esp + 4 + 4 = t.esp + 8 := by bv_omega
  rw [hword] at hflags hrest
  unfold Processor.iret
  simp only [hback, hcs', hflags, hnested, hvirtual, ne_eq, not_true_eq_false, or_self, if_false, hcpl]
  by_cases huser : 0 < p.cpl
  · rw [if_pos huser] at hrest
    obtain ⟨hesp, hss, -⟩ := hrest
    have hesp' : t.esp + 8 + 4 = t.esp + 12 := by bv_omega
    have hss' : t.esp + 12 + 4 = t.esp + 16 := by bv_omega
    rw [hesp'] at hesp hss
    rw [hss'] at hss
    refine (if_pos huser).trans ?_
    rw [hesp, hss]
    simp
  · obtain ⟨hesp, hss⟩ := hsame huser
    refine (if_neg huser).trans ?_
    rw [hesp, hss]

end Stubs

/-! ## Flags -/

section Flags
variable (f : Word)

theorem gateFlags_nested (kind : GateKind) : Processor.gateFlags kind f &&& nestedTask = 0 := by
  unfold Processor.gateFlags trapFlag nestedTask resumeFlag virtualMode interruptFlag
  cases kind with
  | interrupt =>
    simp only [BitVec.and_assoc]
    exact BitVec.and_zero
  | trap =>
    simp only [BitVec.and_assoc]
    exact BitVec.and_zero

theorem gateFlags_cli : Processor.gateFlags .interrupt f &&& ~~~interruptFlag = Processor.gateFlags .interrupt f := by
  unfold Processor.gateFlags
  simp only [BitVec.and_assoc, BitVec.and_self]

theorem gateFlags_sti (kind : GateKind) : (Processor.gateFlags kind f ||| interruptFlag) &&& nestedTask = 0 := by
  have hsti : interruptFlag &&& nestedTask = 0 := by decide
  rw [BitVec.and_or_distrib_right, gateFlags_nested, hsti]
  decide

theorem gateFlags_interrupt (kind : GateKind) : Processor.gateFlags kind f &&& interruptFlag =
    if kind = .trap then f &&& interruptFlag else 0 := by
  unfold Processor.gateFlags trapFlag nestedTask resumeFlag virtualMode interruptFlag
  cases kind with
  | interrupt =>
    simp only [BitVec.and_assoc]
    exact BitVec.and_zero
  | trap =>
    simp only [BitVec.and_assoc]
    rfl

end Flags

/-! ## The ways into the kernel -/

/-- The kernel at `stub`: the program's registers, the stack of the kernel, and on it what leads back. -/
structure EntersStub (stack : KernelStack) (p q : Processor) (stub back : Word) (code : Option Word) : Prop where
  eip : q.eip = stub
  cpl : q.cpl = 0
  registers : q.registers = p.registers
  frame : WordsAt q.mem q.esp (code.toList ++ back :: p.saved)
  above : ∀ b, Inside (if 0 < p.cpl then stack.esp0 else p.esp) (2 ^ 32 - 24) b → q.mem b = p.mem b
  same : ¬ 0 < p.cpl → q.ss = p.ss ∧ (code = none → q.esp + 12 = p.esp)

section Entries
variable {p : Processor} {stack : KernelStack} {kind : GateKind} {g : Gate}

theorem entered (hdpl : segmentDpl g.selector = 0) (hcpl : g.selector.extractLsb' 0 2 = 0) (back : Word)
    (code : Option Word) :
    EntersStub stack p (p.enter stack kind g back code) g.offset back code where
  eip := rfl
  cpl := hcpl
  registers := by
    have hrest : ∀ (q : Processor) (eip eflags : Word) (cs : BitVec 16),
        ({ q with eip := eip, eflags := eflags, cs := cs } : Processor).registers = q.registers := fun _ _ _ _ => rfl
    unfold Processor.enter
    simp only [hrest]
    by_cases h : segmentDpl g.selector < p.cpl
    · cases code with
      | none =>
        simp only [if_pos h, push_registers]
        rfl
      | some c =>
        simp only [if_pos h, push_registers]
        rfl
    · cases code with
      | none => simp only [if_neg h, push_registers]
      | some c => simp only [if_neg h, push_registers]
  frame := enter_frame hdpl code
  above := by
    unfold Processor.enter
    rw [hdpl]
    by_cases h : 0 < p.cpl
    · simp only [if_pos h]
      have hback := ((((Below.refl ({ p with esp := stack.esp0, ss := stack.ss0 } : Processor)).push (by decide)
        (p.ss.setWidth 32)).push
        (by decide) p.esp).push (by decide) p.eflags).push (by decide) (p.cs.setWidth 32) |>.push (by decide) back
      cases code with
      | none =>
        refine fun b hb => hback.mem b ?_
        unfold Inside at hb ⊢
        simp only
        omega
      | some c => exact (hback.push (by decide) c).mem
    · simp only [if_neg h]
      have hback :=
        (((Below.refl p).push (by decide) p.eflags).push (by decide) (p.cs.setWidth 32)).push (by decide) back
      cases code with
      | none =>
        refine fun b hb => hback.mem b ?_
        unfold Inside at hb ⊢
        omega
      | some c =>
        refine fun b hb => (hback.push (by decide) c).mem b ?_
        unfold Inside at hb ⊢
        omega
  same h := by
    unfold Processor.enter
    rw [hdpl]
    simp only [if_neg h]
    constructor
    · cases code <;> simp only [push_ss]
    · rintro rfl
      simp only [push_esp]
      bv_omega

theorem kernelCs_privilege : segmentDpl kernelCs = 0 ∧ kernelCs.extractLsb' 0 2 = 0 := by decide

variable {stubTable : ℕ → Word} {idt : ℕ → IdtDesc}

def idtVals (idt : ℕ → IdtDesc) (i : ℕ) : BitVec 64 := (idt i).val

def Cause.Allowed (p : Processor) : Cause → Prop
  | .software n => n = 128 ∨ p.cpl = 0
  | _ => True

/-- A gate of the table, as far as it matters. -/
structure GateOf (n : ℕ) (stub : Word) (g : Gate) : Prop where
  kind : g.kind = some (if n = 128 then .trap else .interrupt)
  dpl : g.dpl = if n = 128 then 3 else 0
  present : g.present = true ↔ stub ≠ 0
  selector : g.selector = kernelCs
  offset : stub ≠ 0 → g.offset = stub

theorem gateOf_populated {n : ℕ} (hn : n < numVec) :
    GateOf n (stubTable n) (decodeGate (populateIdt stubTable idt n).val) := by
  rw [decodeGate_populated hn]
  exact ⟨rfl, rfl, decide_eq_true_iff, rfl, fun h => if_pos h⟩

theorem deliver_eq {vals : ℕ → BitVec 64} {c : Cause} {stub : Word}
    (hg : GateOf c.vector stub (decodeGate (vals c.vector)))
    (hopen : c.Allowed p) : deliver vals stack p c =
      if stub ≠ 0 then
        .ok (p.enter stack (if c.vector = 128 then .trap else .interrupt) (decodeGate (vals c.vector))
          (c.back p.eip) c.code)
      else .error (.exception 11 (some c.gateError)) := by
  have hthree : ∀ l : BitVec 2, ¬ 3 < l := by decide
  unfold deliver
  generalize decodeGate (vals c.vector) = g at hg ⊢
  simp only [hg.kind, hg.present]
  cases c with
  | software n =>
    have hdpl : ¬ g.dpl < p.cpl := by
      have hg : GateOf n stub g := hg
      rw [hg.dpl]
      by_cases h : n = 128
      · rw [if_pos h]
        exact hthree _
      · rw [if_neg h, hopen.resolve_left h]
        decide
    simp only [if_neg hdpl]
  | external n => rfl
  | exception n code => rfl

theorem deliver_stub {vals : ℕ → BitVec 64} {c : Cause} {stub : Word}
    (hg : GateOf c.vector stub (decodeGate (vals c.vector)))
    (hopen : c.Allowed p) (hstub : stub ≠ 0) : ∃ q, deliver vals stack p c = .ok q ∧
      EntersStub stack p q stub (c.back p.eip) c.code ∧
      q.eflags = Processor.gateFlags (if c.vector = 128 then .trap else .interrupt) p.eflags := by
  refine ⟨_, (deliver_eq hg hopen).trans (if_pos hstub), ?_, rfl⟩
  have hin := @entered p stack (if c.vector = 128 then .trap else .interrupt) (decodeGate (vals c.vector))
    (hg.selector ▸ kernelCs_privilege.1) (hg.selector ▸ kernelCs_privilege.2) (c.back p.eip) c.code
  rw [hg.offset hstub] at hin
  exact hin

theorem deliver_refused {vals : ℕ → BitVec 64} {n : ℕ} {stub : Word} (hg : GateOf n stub (decodeGate (vals n)))
    (h : ¬ (Cause.software n).Allowed p) :
    deliver vals stack p (.software n) = .error (.exception 13 (some (Cause.software n).gateError)) := by
  have hzero : ∀ l : BitVec 2, l ≠ 0 → 0 < l := by decide
  obtain ⟨hne, huser⟩ := not_or.mp h
  have hdpl : (decodeGate (vals n)).dpl < p.cpl := by
    rw [hg.dpl, if_neg hne]
    exact hzero _ huser
  unfold deliver
  simp only [Cause.vector, hg.kind]
  exact if_pos hdpl

end Entries

/-- **The ways into the kernel.** A device or an exception comes to what `isr_stub_table` has for its vector, or to
the stub for missing segments where it has nothing; behind the end of the table the system calls are taken for
stubs. An `int` of a user program comes to the stub for system calls by 128, and by every other number to the one
for protection faults. -/
theorem interrupt_entries (l : LinkedTables) (idt : ℕ → IdtDesc) (stack : KernelStack) (p : Processor) (n : ℕ)
    (hlabel : ∀ i, HasStub i → l.label i ≠ 0) (hn : n < numVec) :
    (∀ c : Cause, c.vector = n → c.Allowed p → ∃ q,
      interrupt (idtVals (populateIdt l.isrStubTable idt)) stack p c = some q ∧
      if l.isrStubTable n ≠ 0 then
        EntersStub stack p q (l.isrStubTable n) (c.back p.eip) c.code ∧ (n ≠ 128 → q.eflags &&& interruptFlag = 0)
      else EntersStub stack p q (l.label 11) p.eip (some c.gateError) ∧ q.eflags &&& interruptFlag = 0) ∧
    (p.cpl ≠ 0 → ∃ q, interrupt (idtVals (populateIdt l.isrStubTable idt)) stack p (.software n) = some q ∧
      if n = 128 then EntersStub stack p q (l.label 128) (p.eip + 2) none ∧
        q.eflags &&& interruptFlag = p.eflags &&& interruptFlag
      else EntersStub stack p q (l.label 13) p.eip (some (BitVec.ofNat 32 (8 * n + 2))) ∧
        q.eflags &&& interruptFlag = 0) := by
  have hgate : ∀ i < numVec, GateOf i (l.isrStubTable i) (decodeGate (idtVals (populateIdt l.isrStubTable idt) i)) :=
    fun i hi => gateOf_populated hi
  generalize idtVals (populateIdt l.isrStubTable idt) = vals at hgate ⊢
  have hstub : ∀ i, HasStub i → l.isrStubTable i = l.label i := fun i hi => l.isrStubTable_stub hi
  -- an exception made by a gate finds its own stub
  have hfault : ∀ (i : ℕ) (code : Word), HasStub i → i < 20 → ∃ q,
    deliver vals stack p (.exception i (some code)) = .ok q ∧
      EntersStub stack p q (l.label i) p.eip (some code) ∧ q.eflags &&& interruptFlag = 0 := by
    intro i code hi hlt
    obtain ⟨q, hq, hentered, hflags⟩ := @deliver_stub p stack vals (.exception i (some code)) _
      (hgate i (lt_trans hlt (by decide))) trivial (by rw [hstub i hi]; exact hlabel i hi)
    rw [hstub i hi] at hentered
    refine ⟨q, hq, hentered, ?_⟩
    have hne : (Cause.exception i (some code)).vector ≠ 128 := by
      show i ≠ 128
      omega
    rw [hflags, gateFlags_interrupt, if_neg hne]
    exact if_neg (by decide)
  constructor
  · rintro c rfl hopen
    unfold interrupt
    by_cases h : l.isrStubTable c.vector = 0
    · simp only [if_neg (not_not_intro h)]
      rw [deliver_eq (hgate _ hn) hopen, if_neg (not_not_intro h)]
      obtain ⟨q, hq, hrest⟩ := hfault 11 c.gateError (by decide) (by decide)
      simp only
      rw [hq]
      exact ⟨q, rfl, hrest⟩
    · simp only [if_pos (show l.isrStubTable c.vector ≠ 0 from h)]
      obtain ⟨q, hq, hentered, hflags⟩ := @deliver_stub p stack vals c _ (hgate _ hn) hopen h
      rw [hq]
      refine ⟨q, rfl, hentered, fun hne => ?_⟩
      rw [hflags, gateFlags_interrupt, if_neg hne, if_neg (by decide)]
  · intro huser
    unfold interrupt
    by_cases h : n = 128
    · subst h
      obtain ⟨q, hq, hentered, hflags⟩ := @deliver_stub p stack vals (.software 128) _ (hgate _ hn) (Or.inl rfl)
        (by rw [show (Cause.software 128).vector = 128 from rfl, hstub _ (by decide)]; exact hlabel _ (by decide))
      rw [show (Cause.software 128).vector = 128 from rfl, hstub _ (by decide)] at hentered
      rw [hq]
      refine ⟨q, rfl, ?_⟩
      rw [if_pos rfl]
      refine ⟨hentered, ?_⟩
      rw [hflags, gateFlags_interrupt]
      rfl
    · rw [deliver_refused (hgate n hn) (not_or.mpr ⟨h, huser⟩)]
      obtain ⟨q, hq, hrest⟩ := hfault 13 (Cause.software n).gateError (by decide) (by decide)
      simp only
      rw [hq]
      refine ⟨q, rfl, ?_⟩
      rw [if_neg h]
      exact hrest

theorem put_back {p q : Processor} (h : q.registers = p.registers) (m : Word → BitVec 8) :
    ({ q with mem := m, eip := p.eip, cs := p.cs, eflags := p.eflags, esp := p.esp, ss := p.ss } : Processor) =
      { p with mem := m } := by
  unfold Processor.registers at h
  simp only [List.cons.injEq] at h
  obtain ⟨heax, hebx, hecx, hedx, hesi, hedi, hebp, -⟩ := h
  rw [heax, hebx, hecx, hedx, hesi, hedi, hebp]

/-- Stubs of sixteen bytes each, at the start of the kernel. -/
def stubAt (n : ℕ) : Word := BitVec.ofNat 32 (0x400000 + 16 * n)

/-- The system calls behind them, and no code behind the tables. -/
def smallLinked : LinkedTables where
  label := stubAt
  call n := BitVec.ofNat 32 (0x401000 + 256 * n)
  behind _ := 0

/-- A program at its first instruction, with interrupts on. -/
def firstInstruction : Processor where
  eax := 0
  ebx := 0
  ecx := 0
  edx := 0
  esi := 0
  edi := 0
  ebp := 0
  esp := 0x083FFFFC
  eip := 0x08048100
  mem _ := 0
  eflags := 0x202
  cs := userCs
  ss := userDs

def blankDesc : IdtDesc := ⟨0, 0, 0, 0, 0, 0, 0, 0, 0, 0, 0⟩

def firstKernelStack : KernelStack := ⟨0x7FFFFC, 0x0018⟩

theorem stubAt_ne : ∀ i, HasStub i → smallLinked.label i ≠ 0 := by
  intro i hi h
  unfold HasStub at hi
  have hword := congrArg BitVec.toNat h
  unfold smallLinked stubAt at hword
  simp only [BitVec.toNat_ofNat, BitVec.ofNat_eq_ofNat] at hword
  omega

/-- A program that makes the keyboard's `int` is stopped for it. -/
theorem interrupt_entries_keyboard :
    ∃ q, interrupt (idtVals (populateIdt smallLinked.isrStubTable fun _ => blankDesc)) firstKernelStack
    firstInstruction (.software 33) = some q ∧
      EntersStub firstKernelStack firstInstruction q (stubAt 13) 0x08048100 (some 266) ∧
        q.eflags &&& interruptFlag = 0 := by
  have hall :=
    interrupt_entries smallLinked (fun _ => blankDesc) firstKernelStack firstInstruction 33 stubAt_ne (by decide)
  exact hall.2 (by decide)

def deviceStub (v : ℕ) (handler : Processor → Processor) (next : Word) (q : Processor) : Option Processor :=
  if v = 40 then q.isrRtc handler next else q.isrDevice handler next

/-- **A device's interrupt is not seen by the program** it comes to: whatever its handler leaves in the registers, the
program goes on with all of its own, with its flags and with its stack. -/
theorem device_interrupts_unseen (l : LinkedTables) (idt : ℕ → IdtDesc) (stack : KernelStack) (p : Processor) (v : ℕ)
    (hlabel : ∀ i, HasStub i → l.label i ≠ 0) (hv : v = 32 ∨ v = 33 ∨ v = 40)
    (hvirtual : p.eflags &&& virtualMode = 0) :
    ∃ q, interrupt (idtVals (populateIdt l.isrStubTable idt)) stack p (.external v) = some q ∧ q.eip = l.label v ∧
      ∀ (handler : Processor → Processor) (next : Word),
        ComesBack 56 q.pushal.pushfl (q.pushal.pushfl.call handler next) →
        deviceStub v handler next q = some { p with mem := (q.pushal.pushfl.call handler next).mem } := by
  have hstub : HasStub v := by
    unfold HasStub
    omega
  have hn : v < numVec := by
    unfold numVec
    omega
  have hne : (Cause.external v).vector ≠ 128 := by
    show v ≠ 128
    omega
  have hgate : GateOf v (l.label v) (decodeGate (idtVals (populateIdt l.isrStubTable idt) v)) := by
    have h := @gateOf_populated l.isrStubTable idt v hn
    rwa [l.isrStubTable_stub hstub] at h
  obtain ⟨q, hq, hentered, hflags⟩ := @deliver_stub p stack _ (.external v) _ hgate trivial (hlabel v hstub)
  rw [if_neg hne] at hflags
  refine ⟨q, by unfold interrupt; rw [hq], hentered.eip, fun handler next hback => ?_⟩
  have hcli : q.cli = q := by
    unfold Processor.cli
    rw [hflags, gateFlags_cli, ← hflags]
  have hlen : p.saved.length ≤ 4 := by
    unfold Processor.saved
    split <;> simp
  obtain ⟨hregs, hframe⟩ := stub_back (n := 56) (show WordsAt q.mem q.esp (p.eip :: p.saved) from hentered.frame)
    (by simp only [List.length_cons]; omega) (by decide) hback
  have hsame : ¬ 0 < p.cpl → q.esp + 12 = p.esp ∧ q.ss = p.ss := fun h => ⟨(hentered.same h).2 rfl, (hentered.same h).1⟩
  unfold deviceStub Processor.isrRtc Processor.isrDevice
  rw [hcli]
  generalize q.pushal.pushfl.call handler next = t at hregs hframe ⊢
  rw [hregs]
  by_cases hrtc : v = 40
  · rw [if_pos hrtc, @iret_frame p { q with mem := t.mem, eip := t.eip } p.eip hframe hentered.cpl
      (hflags ▸ gateFlags_nested _ _)
      hvirtual hsame]
    exact congrArg some (put_back hentered.registers t.mem)
  · rw [if_neg hrtc, @iret_frame p ({ q with mem := t.mem, eip := t.eip } : Processor).sti p.eip hframe hentered.cpl
      (hflags ▸ gateFlags_sti _ _) hvirtual hsame]
    exact congrArg some (put_back hentered.registers t.mem)

/-- A handler that leaves its caller none of the registers it used. -/
def carelessHandler (q : Processor) : Processor :=
  { q with eax := 0, ebx := q.edi, edi := q.ebx, ecx := 1, eflags := 0, esp := q.esp + 4 }

theorem carelessHandler_back (next : Word) (q : Processor) : ComesBack 56 q (q.call carelessHandler next) where
  esp := BitVec.sub_add_cancel _ _
  cs := rfl
  ss := rfl
  mem b hb := by
    have hout : ¬ Inside (q.esp - 4) 4 b := by
      unfold Inside at hb ⊢
      bv_omega
    exact store32_outside hout

/-- A key, pressed at the first instruction. -/
theorem device_interrupts_unseen_key :
    ∃ q, interrupt (idtVals (populateIdt smallLinked.isrStubTable fun _ => blankDesc)) firstKernelStack
    firstInstruction (.external 33) = some q ∧ q.eip = stubAt 33 ∧
      deviceStub 33 carelessHandler 0x400300 q =
        some { firstInstruction with mem := (q.pushal.pushfl.call carelessHandler 0x400300).mem } := by
  obtain ⟨q, hq, heip, hback⟩ :=
    device_interrupts_unseen smallLinked (fun _ => blankDesc) firstKernelStack firstInstruction 33 stubAt_ne
    (Or.inr (Or.inl rfl)) (by decide)
  exact ⟨q, hq, heip, hback carelessHandler 0x400300 (carelessHandler_back _ _)⟩

end Kernel391
