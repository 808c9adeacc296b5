import Kernel391.Machine.Assembly
import Kernel391.Machine.Interrupts
import Mathlib.Logic.Relation

/-! The change from one program to another at a tick. `save_regs` leaves in the PCB where the frame of `pit_handler`
is, and `do_schedule` goes back through that frame to the stub and to the program that was stopped there. -/
namespace Kernel391
open Kernel391.Foundations
set_option autoImplicit false

namespace X86

/-- `do_schedule`. The stack pointer it loads is replaced by its `leave`. -/
def doSchedule (s : X86) : X86 :=
  let s := { s with ebp := load32 s.mem (s.esp + 4) }
  let s := { s with esp := load32 s.mem (s.esp + 8) }
  s.leave.ret

end X86

namespace Processor
variable (p : Processor)

def callX86 (f : X86 → X86) (next : Word) : Processor := { p with toX86 := p.toX86.call f next }

/-- `isr_pit` and `isr_keyboard` behind their calls. -/
def isrDeviceEnd : Option Processor := (p.popfl.popal.sti).iret

end Processor

/-! ## What a stopped program leaves -/

/-- The words from the frame of a handler up: its own two, those of the stub, and those of the processor. -/
def contextWords (p : Processor) (next ebp esp flags : Word) : List Word :=
  ebp :: next :: flags :: p.edi :: p.esi :: p.ebp :: esp :: p.ebx :: p.edx :: p.ecx :: p.eax :: p.eip :: p.saved

/-- The program is stopped: `schedule_ebp`, at `slot`, leads to its context. -/
structure Preempted (m : Word → BitVec 8) (slot next : Word) (p : Processor) : Prop where
  context : ∃ ebp esp flags, WordsAt m (load32 m slot) (contextWords p next ebp esp flags) ∧ flags &&& nestedTask = 0
  kernel : ¬ 0 < p.cpl → load32 m slot + 56 = p.esp

/-- A byte of what a stopped program has in memory. -/
def InContext (m : Word → BitVec 8) (slot : Word) (p : Processor) (b : Word) : Prop :=
  Inside slot 4 b ∨ Inside (load32 m slot) (4 * (12 + p.saved.length)) b

section Context
variable {m m' : Word → BitVec 8} {slot next : Word} {p : Processor}

theorem saved_length (p : Processor) : p.saved.length ≤ 4 := by
  unfold Processor.saved
  split <;> simp

theorem contextWords_length {ebp esp flags : Word} :
    (contextWords p next ebp esp flags).length = 12 + p.saved.length := by
  unfold contextWords
  simp only [List.length_cons]
  omega

/-- **A stopped program stays as it is** while nobody writes to its context. -/
theorem Preempted.congr (h : Preempted m slot next p) (hm : ∀ b, InContext m slot p b → m' b = m b) :
    Preempted m' slot next p := by
  obtain ⟨⟨ebp, esp, flags, hwords, hnested⟩, hkernel⟩ := h
  have hslot : load32 m' slot = load32 m slot := load32_congr fun b hb => hm b (Or.inl hb)
  have hlen := saved_length p
  refine ⟨⟨ebp, esp, flags, ?_, hnested⟩, fun hk => hslot ▸ hkernel hk⟩
  rw [hslot]
  refine hwords.congr (by rw [contextWords_length]; omega) fun b hb => hm b (Or.inr ?_)
  rwa [contextWords_length] at hb

end Context

/-! ## Going on -/

section Resume
variable {s : X86} {f ebp back next slot : Word} {ws : List Word} {p b : Processor}

theorem doSchedule_call (harg : load32 s.mem s.esp = f) (hframe : WordsAt s.mem f (ebp :: back :: ws))
    (hlen : 4 * (ebp :: back :: ws).length ≤ 2 ^ 32)
    (hclear : ∀ b, Inside f (4 * (ebp :: back :: ws).length) b → ¬ Inside (s.esp - 4) 4 b) :
    s.call X86.doSchedule next = { s with ebp := ebp, esp := f + 8, eip := back, mem := (s.push next).mem } ∧
      WordsAt (s.push next).mem (f + 8) ws := by
  have hkept : WordsAt (s.push next).mem f (ebp :: back :: ws) :=
    hframe.congr hlen fun b hb => store32_outside (hclear b hb)
  obtain ⟨hebp, hback, hws⟩ := hkept
  have harg' : load32 (s.push next).mem s.esp = f := by
    rw [← harg]
    refine load32_apart ?_
    unfold Apart32
    constructor <;> bv_omega
  have hesp : s.esp - 4 + 4 = s.esp := BitVec.sub_add_cancel _ _
  have htop : f + 4 + 4 = f + 8 := by bv_omega
  rw [htop] at hws
  refine ⟨?_, hws⟩
  have hpush : (s.push next).esp + 4 = s.esp := hesp
  unfold X86.call X86.doSchedule
  simp only [X86.leave, X86.popEbp, X86.ret, X86.pop, hpush, harg', hebp, hback, htop]
  rfl

theorem isrDeviceEnd_frame {t : Processor} {esp flags : Word}
    (h : WordsAt t.mem t.esp
      (flags :: p.edi :: p.esi :: p.ebp :: esp :: p.ebx :: p.edx :: p.ecx :: p.eax :: p.eip :: p.saved))
    (hnested : flags &&& nestedTask = 0) (hcpl : t.cpl = 0) (hvirtual : p.eflags &&& virtualMode = 0)
    (hsame : ¬ 0 < p.cpl → t.esp + 48 = p.esp ∧ t.ss = p.ss) : t.isrDeviceEnd = some { p with mem := t.mem } := by
  obtain ⟨hflags, hregs⟩ := h
  have hpopfl : t.popfl = { t with esp := t.esp + 4, eflags := flags } := by
    unfold Processor.popfl
    rw [hflags]
  obtain ⟨hpopal, hframe⟩ := @popal_eq { t with esp := t.esp + 4, eflags := flags } _ _ _ _ _ _ _ _ _ hregs
  have hsti : (flags ||| interruptFlag) &&& nestedTask = 0 := by
    have hbit : interruptFlag &&& nestedTask = 0 := by decide
    rw [BitVec.and_or_distrib_right, hnested, hbit]
    decide
  unfold Processor.isrDeviceEnd
  rw [hpopfl, hpopal]
  generalize hq : ({ t with
    eax := p.eax, ebx := p.ebx, ecx := p.ecx, edx := p.edx, esi := p.esi, edi := p.edi, ebp :=
      p.ebp, esp := t.esp + 4 + 32,
    eflags := flags } : Processor) = q
  have hregisters : q.sti.registers = p.registers := by
    rw [← hq]
    rfl
  have hback : q.sti.iret = _ := @iret_frame p q.sti p.eip (by rw [← hq]; exact hframe) (by rw [← hq]; exact hcpl)
    (by rw [← hq]; exact hsti) hvirtual fun hk => by
      rw [← hq]
      obtain ⟨hesp, hss⟩ := hsame hk
      refine ⟨?_, hss⟩
      rw [← hesp]
      show t.esp + 4 + 32 + 12 = t.esp + 48
      bv_omega
  have hmem : q.sti.mem = t.mem := by
    rw [← hq]
    rfl
  rw [hback, ← hmem]
  exact congrArg some (put_back hregisters q.sti.mem)

/-- **The program goes on**: whoever calls `do_schedule` with its `schedule_ebp`, the stub it was stopped in gives it
its registers, its flags and its stack back. -/
theorem Preempted.resumes (h : Preempted b.mem slot next p) (harg : load32 b.mem b.esp = load32 b.mem slot)
    (hclear : ∀ x, InContext b.mem slot p x → ¬ Inside (b.esp - 4) 4 x) (hcpl : b.cpl = 0)
    (hss : ¬ 0 < p.cpl → b.ss = p.ss)
    (hvirtual : p.eflags &&& virtualMode = 0) (back : Word) :
    (b.callX86 X86.doSchedule back).eip = next ∧
      (b.callX86 X86.doSchedule back).isrDeviceEnd = some { p with mem := (b.callX86 X86.doSchedule back).mem } := by
  obtain ⟨⟨ebp, esp, flags, hwords, hnested⟩, hkernel⟩ := h
  have hlen := saved_length p
  have hcount := @contextWords_length next p ebp esp flags
  unfold contextWords at hwords hcount
  obtain ⟨hcall, hstub⟩ := @doSchedule_call b.toX86 _ _ _ back _ harg hwords (by rw [hcount]; omega)
    (fun x hx => hclear x (Or.inr (by rwa [hcount] at hx)))
  generalize load32 b.mem slot = f at hcall hstub hkernel
  obtain ⟨hflags, hregs⟩ := hstub
  unfold Processor.callX86
  rw [hcall]
  generalize (b.toX86.push back).mem = m at hflags hregs
  refine ⟨rfl, ?_⟩
  refine isrDeviceEnd_frame ⟨hflags, hregs⟩ hnested hcpl hvirtual fun hk => ⟨?_, hss hk⟩
  rw [← hkernel hk]
  show f + 8 + 48 = f + 56
  bv_omega

end Resume

/-! ## Stopping -/

/-- The word at `w` has no byte among the `n` from `base` on. -/
def OffStack (base : Word) (n : ℕ) (w : Word) : Prop := n ≤ (w - base).toNat ∧ 4 ≤ (base - w).toNat

theorem OffStack.outside {base w b : Word} {n : ℕ} (h : OffStack base n w) (hb : Inside base n b) : ¬ Inside w 4 b := by
  obtain ⟨hlow, hhigh⟩ := h
  unfold Inside at hb ⊢
  have hbw : b - w = (b - base) - (w - base) := by grind
  have hwb : base - w = 0 - (w - base) := by grind
  rw [hbw]
  rw [hwb] at hhigh
  generalize w - base = u at hlow hhigh
  generalize b - base = v at hb
  bv_omega

theorem inside_frame {r a b : Word} (hlow : 16 ≤ (r - a).toNat) (hhigh : (r - a).toNat ≤ eightKb)
    (hb : Inside (r - 8) 64 b) :
    Inside (a - 20) ((r - a).toNat + 76) b ∧ ¬ Inside (a - 20) 20 b := by
  unfold eightKb at hhigh
  unfold Inside at hb ⊢
  have hsum : b - (a - 20) = (b - (r - 8)) + (r - a) + 12 := by grind
  rw [hsum]
  generalize r - a = d at hlow hhigh
  generalize b - (r - 8) = t at hb
  constructor <;> bv_omega

/-- `pit_handler`, called with the stack of `r` and to return to `next`, where it calls `save_regs` for the words at
`pe` and `ps` of a PCB. It is compiled with a frame, and has left what lies above it alone. -/
structure AtSave (r : Processor) (next pe ps : Word) (a : Processor) : Prop where
  ebp : a.ebp = r.esp - 8
  back : load32 a.mem (r.esp - 4) = next
  kept : ∀ b, Inside r.esp 56 b → a.mem b = r.mem b
  depth : 16 ≤ (r.esp - a.esp).toNat ∧ (r.esp - a.esp).toNat ≤ eightKb
  first : load32 a.mem a.esp = pe
  second : load32 a.mem (a.esp + 4) = ps
  apart : Apart32 pe ps
  offEbp : OffStack (a.esp - 20) ((r.esp - a.esp).toNat + 76) pe
  offEsp : OffStack (a.esp - 20) ((r.esp - a.esp).toNat + 76) ps

section Stop
variable {p q r a : Processor} {stack : KernelStack} {next pe ps back : Word}

theorem AtSave.clear (h : AtSave r next pe ps a) : Clear a.toX86 pe ∧ Clear a.toX86 ps := by
  obtain ⟨hpe, hpe'⟩ := h.offEbp
  obtain ⟨hps, hps'⟩ := h.offEsp
  exact ⟨⟨by omega, hpe'⟩, by omega, hps'⟩

theorem AtSave.call (h : AtSave r next pe ps a) : a.callX86 X86.saveRegs back =
    { a with eax := a.ebp, ebx := a.edi, edi := a.ebx, eip := back, mem := savedFrame a.toX86 back pe ps } := by
  unfold Processor.callX86
  rw [saveRegs_call a.toX86 back h.first h.second h.clear.1 h.clear.2]

theorem AtSave.above (h : AtSave r next pe ps a) {b : Word} (hb : Inside (r.esp - 8) 64 b) :
    savedFrame a.toX86 back pe ps b = a.mem b := by
  obtain ⟨hframe, hout⟩ := inside_frame h.depth.1 h.depth.2 hb
  unfold savedFrame
  rw [store32_outside (h.offEsp.outside hframe), store32_outside (h.offEbp.outside hframe)]
  exact helperFrame_outside a.toX86 back hout

theorem preempted_of_frame {m : Word → BitVec 8} {slot : Word} (hslot : load32 m slot = q.esp - 44)
    (hnext : load32 m (q.esp - 40) = next) (hkept : ∀ b, Inside (q.esp - 36) 56 b → m b = q.pushal.pushfl.mem b)
    (hframe : WordsAt q.mem q.esp (p.eip :: p.saved)) (hregs : q.registers = p.registers)
    (hnested : q.eflags &&& nestedTask = 0)
    (hkernel : ¬ 0 < p.cpl → q.esp + 12 = p.esp) : Preempted m slot next p := by
  have hlen := saved_length p
  refine ⟨⟨load32 m (q.esp - 44), q.esp, q.eflags, ?_, hnested⟩, fun hk => ?_⟩
  · have hpushed := pushed_frame hframe (by simp only [List.length_cons]; omega)
    have hstub : WordsAt m _ _ := hpushed.congr (by simp only [List.length_cons]; omega) fun b hb => by
      simp only [List.length_cons, pushed_esp] at hb
      refine hkept b ?_
      unfold Inside at hb ⊢
      omega
    have htop : q.esp - 44 + 4 + 4 = q.esp - 36 := by bv_omega
    have hword : q.esp - 44 + 4 = q.esp - 40 := by bv_omega
    unfold Processor.registers at hregs
    simp only [List.cons.injEq] at hregs
    obtain ⟨heax, hebx, hecx, hedx, hesi, hedi, hebp, -⟩ := hregs
    rw [pushed_esp, heax, hebx, hecx, hedx, hesi, hedi, hebp, ← htop] at hstub
    rw [hslot]
    exact ⟨rfl, hword ▸ hnext, hstub⟩
  · rw [hslot, ← hkernel hk]
    bv_omega

/-- **A tick stops the program**: when `save_regs` is done, its context is on its kernel stack. -/
theorem AtSave.preempted (h : AtSave q.pushal.pushfl next pe ps a) (hframe : WordsAt q.mem q.esp (p.eip :: p.saved))
    (hregs : q.registers = p.registers) (hnested : q.eflags &&& nestedTask = 0)
    (hkernel : ¬ 0 < p.cpl → q.esp + 12 = p.esp) :
    Preempted (a.callX86 X86.saveRegs back).mem pe next p ∧
      load32 (a.callX86 X86.saveRegs back).mem pe = q.esp - 44 := by
  have hesp : q.pushal.pushfl.esp = q.esp - 36 := pushed_esp
  have habove : ∀ b, Inside (q.esp - 36 - 8) 64 b → savedFrame a.toX86 back pe ps b = a.mem b := by
    intro b hb
    rw [← hesp] at hb
    exact h.above hb
  have hmem : (a.callX86 X86.saveRegs back).mem = savedFrame a.toX86 back pe ps := by rw [h.call]
  have hslot : load32 (savedFrame a.toX86 back pe ps) pe = q.esp - 44 := by
    unfold savedFrame
    rw [load32_apart h.apart, load32_store32, h.ebp, hesp]
    bv_omega
  have hnext : load32 (savedFrame a.toX86 back pe ps) (q.esp - 40) = next := by
    rw [← h.back, hesp]
    have hword : q.esp - 40 = q.esp - 36 - 4 := by bv_omega
    rw [hword]
    refine load32_congr fun b hb => habove b ?_
    unfold Inside at hb ⊢
    bv_omega
  rw [hmem]
  refine ⟨preempted_of_frame hslot hnext (fun b hb => ?_) hframe hregs hnested hkernel, hslot⟩
  have hlow : Inside (q.esp - 36 - 8) 64 b := by
    unfold Inside at hb ⊢
    bv_omega
  exact (habove b hlow).trans (h.kept b (by rw [hesp]; exact hb))

end Stop

/-! ## Programs that share the processor -/

def kernelSs : BitVec 16 := 0x0018

/-- No program runs in virtual mode, and in the kernel all have the one stack segment. -/
structure Ordinary (p : Processor) : Prop where
  plain : p.eflags &&& virtualMode = 0
  selector : ¬ 0 < p.cpl → p.ss = kernelSs

/-- The addresses: of the stubs and behind their calls, of the fields of each PCB, and of the bytes that are a program's
own in the kernel, its PCB and its stack. -/
structure Programs (ι : Type) where
  linked : LinkedTables
  idt : ℕ → IdtDesc
  pitNext : Word
  keyboardNext : Word
  scheduleEbp : ι → Word
  scheduleEsp : ι → Word
  stack : ι → KernelStack
  home : ι → Word → Prop
  labels : ∀ i, HasStub i → linked.label i ≠ 0
  apart : ∀ i j b, home i b → home j b → i = j

/-- Behind the call of a handler in one of the two stubs, which end alike. -/
def Programs.Returns {ι : Type} (P : Programs ι) (next : Word) : Prop := next = P.pitNext ∨ next = P.keyboardNext

/-- The program that has the processor, and the programs that were stopped, as they were stopped. -/
structure Shared (ι : Type) where
  current : ι
  cpu : Processor
  stopped : ι → Option Processor

section Sharing
variable {ι : Type} [DecidableEq ι] {P : Programs ι} {s s' : Shared ι} {j l : ι} {p q a b : Processor}
  {back back' : Word}

/-- The programs stopped once the present one is. -/
def Shared.ticked (s : Shared ι) : ι → Option Processor := Function.update s.stopped s.current (some s.cpu)

theorem ticked_current : s.ticked s.current = some s.cpu := Function.update_self ..

theorem ticked_ne (hl : l ≠ s.current) : s.ticked l = s.stopped l := Function.update_of_ne hl ..

theorem stopped_ne {f : ι → Option Processor} {r : Processor} (h : Function.update f j none l = some r) :
    l ≠ j ∧ f l = some r := by
  by_cases hlj : l = j
  · rw [hlj, Function.update_self] at h
    cases h
  · rw [Function.update_of_ne hlj] at h
    exact ⟨hlj, h⟩

/-- The way of a tick through the kernel: the gate, the stub, `pit_handler` up to its call of `save_regs` in `a`,
and on to that of `do_schedule` in `b`, for the program `j` that was stopped as `p`. The bytes of other programs are
left alone, and so is the context just saved. -/
structure TickPath (P : Programs ι) (s : Shared ι) (j : ι) (p q a b : Processor) (back : Word) : Prop where
  ordinary : Ordinary s.cpu
  entry : interrupt (idtVals (populateIdt P.linked.isrStubTable P.idt)) (P.stack s.current) s.cpu
    (.external 32) = some q
  save : AtSave q.cli.pushal.pushfl P.pitNext (P.scheduleEbp s.current) (P.scheduleEsp s.current) a
  within : ∀ x, InContext (a.callX86 X86.saveRegs back).mem (P.scheduleEbp s.current) s.cpu x → P.home s.current x
  others : ∀ l, l ≠ s.current → ∀ x, P.home l x → b.mem x = s.cpu.mem x
  kept : ∀ x, InContext (a.callX86 X86.saveRegs back).mem (P.scheduleEbp s.current) s.cpu x →
    b.mem x = (a.callX86 X86.saveRegs back).mem x
  chosen : s.ticked j = some p
  argument : load32 b.mem b.esp = load32 b.mem (P.scheduleEbp j)
  kernel : b.cpl = 0 ∧ b.ss = kernelSs
  room : ∀ x, Inside (b.esp - 4) 4 x → P.home s.current x ∧ ¬ InContext b.mem (P.scheduleEbp s.current) s.cpu x

/-- The way of a keystroke that opens a terminal, for the program `j` started there: the present one stays behind in
the stub of the keyboard. Nobody saves where. It is stopped if its `schedule_ebp`, left by a tick before, leads to
the frame of the handler. -/
structure OpenPath (P : Programs ι) (s : Shared ι) (j : ι) (q c : Processor) : Prop where
  ordinary : Ordinary s.cpu
  entry : interrupt (idtVals (populateIdt P.linked.isrStubTable P.idt)) (P.stack s.current) s.cpu
    (.external 33) = some q
  slot : load32 c.mem (P.scheduleEbp s.current) = q.esp - 44
  back : load32 c.mem (q.esp - 40) = P.keyboardNext
  kept : ∀ b, Inside (q.esp - 36) 56 b → c.mem b = q.cli.pushal.pushfl.mem b
  within : ∀ x, InContext c.mem (P.scheduleEbp s.current) s.cpu x → P.home s.current x
  others : ∀ l, l ≠ s.current → l ≠ j → ∀ x, P.home l x → c.mem x = s.cpu.mem x

/-- What happens next: the program runs and enters the kernel, it hands the processor on by `execute` or `halt`, a
terminal is opened, or a tick comes. -/
inductive SharedStep (P : Programs ι) (s : Shared ι) : Shared ι → Prop
  | work {c : Processor} (hmem : ∀ l, l ≠ s.current → ∀ x, P.home l x → c.mem x = s.cpu.mem x) :
    SharedStep P s { s with cpu := c }
  | handOver {j : ι} {c : Processor} (hmem : ∀ l, l ≠ s.current → l ≠ j → ∀ x, P.home l x → c.mem x = s.cpu.mem x) :
    SharedStep P s ⟨j, c, Function.update s.stopped j none⟩
  | opens {j : ι} {q c : Processor} (path : OpenPath P s j q c) : SharedStep P s ⟨j, c, Function.update s.ticked j none⟩
  | tick {j : ι} {p q a b c : Processor} {back back' : Word} (path : TickPath P s j p q a b back)
      (resumed : (b.callX86 X86.doSchedule back').isrDeviceEnd = some c) : SharedStep P s
        ⟨j, c, Function.update s.ticked j none⟩

/-- A stopped program is intact: its context is there, and among its own bytes. -/
structure Intact (P : Programs ι) (m : Word → BitVec 8) (j : ι) (p : Processor) : Prop where
  context : ∃ next, P.Returns next ∧ Preempted m (P.scheduleEbp j) next p
  within : ∀ x, InContext m (P.scheduleEbp j) p x → P.home j x
  ordinary : Ordinary p

omit [DecidableEq ι] in
theorem Intact.congr {m m' : Word → BitVec 8} (h : Intact P m j p)
    (hm : ∀ x, InContext m (P.scheduleEbp j) p x → m' x = m x) :
    Intact P m' j p := by
  have hslot : load32 m' (P.scheduleEbp j) = load32 m (P.scheduleEbp j) := load32_congr fun x hx => hm x (Or.inl hx)
  obtain ⟨next, hnext, hcontext⟩ := h.context
  refine ⟨⟨next, hnext, hcontext.congr hm⟩, fun x hx => h.within x ?_, h.ordinary⟩
  unfold InContext at hx ⊢
  rwa [hslot] at hx

/-- All stopped programs are intact, and the one that runs is none of them. -/
structure Shared.Sound (P : Programs ι) (s : Shared ι) : Prop where
  running : s.stopped s.current = none
  intact : ∀ l r, s.stopped l = some r → Intact P s.cpu.mem l r

omit [DecidableEq ι] in
theorem device_enters {v : ℕ} (hv : v = 32 ∨ v = 33)
    (hq : interrupt (idtVals (populateIdt P.linked.isrStubTable P.idt)) (P.stack l) p (.external v) = some q) :
    EntersStub (P.stack l) p q (P.linked.label v) p.eip none ∧ q.cli = q ∧ q.eflags &&& nestedTask = 0 := by
  have hstub : HasStub v := by
    unfold HasStub
    omega
  have hlt : v < numVec := by
    unfold numVec
    omega
  have hgate : GateOf v (P.linked.label v) (decodeGate (idtVals (populateIdt P.linked.isrStubTable P.idt) v)) := by
    have h := @gateOf_populated P.linked.isrStubTable P.idt v hlt
    rwa [P.linked.isrStubTable_stub hstub] at h
  obtain ⟨q', hq', hentered, hflags⟩ := @deliver_stub p (P.stack l) _ (.external v) _ hgate trivial (P.labels v hstub)
  unfold interrupt at hq
  rw [hq'] at hq
  obtain rfl := Option.some.inj hq
  have hne : (Cause.external v).vector ≠ 128 := by
    show v ≠ 128
    omega
  rw [if_neg hne] at hflags
  refine ⟨hentered, ?_, hflags ▸ gateFlags_nested _ _⟩
  unfold Processor.cli
  rw [hflags, gateFlags_cli, ← hflags]

omit [DecidableEq ι] in
/-- **The program left behind in the stub of the keyboard** is stopped. -/
theorem OpenPath.stopped {c : Processor} (h : OpenPath P s j q c) : Intact P c.mem s.current s.cpu := by
  obtain ⟨hentered, hcli, hnested⟩ := device_enters (Or.inr rfl) h.entry
  have hkept := h.kept
  rw [hcli] at hkept
  exact ⟨⟨_, Or.inr rfl, preempted_of_frame h.slot h.back hkept hentered.frame hentered.registers hnested fun hk =>
    (hentered.same hk).2 rfl⟩, h.within, h.ordinary⟩

/-- **Where the tick has come to `do_schedule`** all the stopped programs are intact, the one just stopped among
them. -/
theorem TickPath.intact (h : TickPath P s j p q a b back) (hs : s.Sound P) {r : Processor} (hr : s.ticked l = some r) :
    Intact P b.mem l r := by
  by_cases hl : l = s.current
  · subst hl
    rw [ticked_current, Option.some.injEq] at hr
    subst hr
    obtain ⟨hentered, hcli, hnested⟩ := device_enters (Or.inl rfl) h.entry
    have hsave := h.save
    rw [hcli] at hsave
    have hstop := (@AtSave.preempted s.cpu q a _ _ _ back hsave hentered.frame hentered.registers hnested fun hk =>
      (hentered.same hk).2 rfl).1
    exact Intact.congr ⟨⟨_, Or.inl rfl, hstop⟩, h.within, h.ordinary⟩ h.kept
  · rw [ticked_ne hl] at hr
    have hintact := hs.intact l r hr
    exact hintact.congr fun x hx => h.others l hl x (hintact.within x hx)

theorem TickPath.clear (h : TickPath P s j p q a b back) (hs : s.Sound P) {r : Processor}
    (hr : s.ticked l = some r) {x : Word}
    (hx : InContext b.mem (P.scheduleEbp l) r x) : ¬ Inside (b.esp - 4) 4 x := by
  intro hin
  obtain ⟨hhome, hout⟩ := h.room x hin
  have hl : l = s.current := P.apart l s.current x ((h.intact hs hr).within x hx) hhome
  subst hl
  rw [ticked_current, Option.some.injEq] at hr
  subst hr
  exact hout hx

theorem TickPath.resumes (h : TickPath P s j p q a b back) (hs : s.Sound P) (back' : Word) :
    P.Returns (b.callX86 X86.doSchedule back').eip ∧
      (b.callX86 X86.doSchedule back').isrDeviceEnd = some { p with mem := (b.callX86 X86.doSchedule back').mem } := by
  have hintact := h.intact hs h.chosen
  obtain ⟨next, hnext, hcontext⟩ := hintact.context
  have hresumed := hcontext.resumes h.argument (fun x => h.clear hs h.chosen) h.kernel.1
    (fun hk => h.kernel.2.trans (hintact.ordinary.selector hk).symm) hintact.ordinary.plain back'
  exact ⟨hresumed.1 ▸ hnext, hresumed.2⟩

/-- **Every step keeps the stopped programs intact.** -/
theorem SharedStep.sound (h : SharedStep P s s') (hs : s.Sound P) : s'.Sound P := by
  cases h with
  | work hmem =>
    refine ⟨hs.running, fun l r hr => (hs.intact l r hr).congr fun x hx => hmem l ?_ x ((hs.intact l r hr).within x hx)⟩
    rintro rfl
    cases hs.running.symm.trans hr
  | @handOver j c hmem =>
    refine ⟨Function.update_self .., fun l r hr => ?_⟩
    obtain ⟨hlj, hr⟩ := stopped_ne hr
    refine (hs.intact l r hr).congr fun x hx => hmem l ?_ hlj x ((hs.intact l r hr).within x hx)
    rintro rfl
    cases hs.running.symm.trans hr
  | @opens j q c path =>
    refine ⟨Function.update_self .., fun l r hr => ?_⟩
    obtain ⟨hlj, hr⟩ := stopped_ne hr
    by_cases hl : l = s.current
    · subst hl
      rw [ticked_current, Option.some.injEq] at hr
      subst hr
      exact path.stopped
    · rw [ticked_ne hl] at hr
      have hintact := hs.intact l r hr
      exact hintact.congr fun x hx => path.others l hl hlj x (hintact.within x hx)
  | @tick j p q a b c back back' path resumed =>
    refine ⟨Function.update_self .., fun l r hr => ?_⟩
    obtain ⟨-, hr⟩ := stopped_ne hr
    have hc := Option.some.inj ((path.resumes hs back').2.symm.trans resumed)
    refine (path.intact hs hr).congr fun x hx => ?_
    rw [← hc]
    exact store32_outside (path.clear hs hr hx)

theorem sharedRun_sound {s₀ : Shared ι} (h0 : ∀ i, s₀.stopped i = none)
    (hrun : Relation.ReflTransGen (SharedStep P) s₀ s) :
    s.Sound P := by
  induction hrun with
  | refl =>
    refine ⟨h0 _, fun l r hr => ?_⟩
    cases (h0 l).symm.trans hr
  | tail _ hstep ih => exact hstep.sound ih

end Sharing

/-- **Every program has the processor to itself.** In every run in which a tick only ever chooses a program that was
stopped, the program chosen goes on with the registers, flags, code and stack selectors and stack it was stopped
with. -/
theorem programs_resume {ι : Type} [DecidableEq ι] (P : Programs ι) {s₀ s : Shared ι} {j : ι}
    {p q a b : Processor} {back : Word}
    (h0 : ∀ i, s₀.stopped i = none) (hrun : Relation.ReflTransGen (SharedStep P) s₀ s)
    (path : TickPath P s j p q a b back)
    (back' : Word) : P.Returns (b.callX86 X86.doSchedule back').eip ∧
      (b.callX86 X86.doSchedule back').isrDeviceEnd = some { p with mem := (b.callX86 X86.doSchedule back').mem } := by
  have hsound := sharedRun_sound h0 hrun
  exact path.resumes hsound back'

/-! ## A program on its own -/

section Alone
variable {r : Processor} {next pe ps : Word}

/-- `pit_handler` with nothing in its frame, at its call of `save_regs`. -/
def pitFrame (r : Processor) (next pe ps : Word) : Processor :=
  (({ (r.push next).push r.ebp with ebp := r.esp - 8 } : Processor).push ps).push pe

theorem pitFrame_esp : (pitFrame r next pe ps).esp = r.esp - 16 := by
  show r.esp - 4 - 4 - 4 - 4 = r.esp - 16
  bv_omega

theorem pitFrame_selectors : (pitFrame r next pe ps).cs = r.cs ∧ (pitFrame r next pe ps).ss = r.ss := ⟨rfl, rfl⟩

theorem pitFrame_save (hapart : Apart32 pe ps) (hpe : OffStack (r.esp - 36) 92 pe) (hps : OffStack (r.esp - 36) 92 ps) :
    AtSave r next pe ps (pitFrame r next pe ps) := by
  have hwords : ∀ a : Word, Apart32 a (a - 4) ∧ Apart32 a (a - 4 - 4) ∧ Apart32 a (a - 4 - 4 - 4) := by
    intro a
    unfold Apart32
    refine ⟨⟨?_, ?_⟩, ⟨?_, ?_⟩, ?_, ?_⟩ <;> bv_omega
  have hbase : (pitFrame r next pe ps).esp - 20 = r.esp - 36 := by
    rw [pitFrame_esp]
    bv_omega
  have hdepth : (r.esp - (pitFrame r next pe ps).esp).toNat = 16 := by
    rw [pitFrame_esp]
    bv_omega
  refine ⟨rfl, ?_, fun b hb => ?_, by rw [hdepth]; decide, load32_store32, ?_, hapart, ?_, ?_⟩
  · refine (load32_apart (hwords _).2.2).trans ?_
    exact (load32_apart (hwords _).2.1).trans ((load32_apart (hwords _).1).trans load32_store32)
  · have hbelow : ¬ Inside (r.esp - 4) 4 b ∧ ¬ Inside (r.esp - 4 - 4) 4 b ∧ ¬ Inside (r.esp - 4 - 4 - 4) 4 b ∧
        ¬ Inside (r.esp - 4 - 4 - 4 - 4) 4 b := by
      unfold Inside at hb ⊢
      refine ⟨?_, ?_, ?_, ?_⟩ <;> bv_omega
    obtain ⟨h₁, h₂, h₃, h₄⟩ := hbelow
    exact (store32_outside h₄).trans ((store32_outside h₃).trans ((store32_outside h₂).trans (store32_outside h₁)))
  · have hesp : (pitFrame r next pe ps).esp + 4 = r.esp - 4 - 4 - 4 := BitVec.sub_add_cancel _ _
    rw [hesp]
    exact (load32_apart (hwords _).1).trans load32_store32
  · rw [hbase, hdepth]
    exact hpe
  · rw [hbase, hdepth]
    exact hps

end Alone

/-! ## Two programs -/

section Two

def pcbAt (i : Bool) : Word := if i then 0x007FC000 else 0x007FE000

def twoPrograms : Programs Bool where
  linked := smallLinked
  idt _ := blankDesc
  pitNext := 0x00400310
  keyboardNext := 0x00400330
  scheduleEbp i := pcbAt i + 12
  scheduleEsp i := pcbAt i + 8
  stack i := ⟨pcbAt i + 0x1FFC, kernelSs⟩
  home i := Inside (pcbAt i) 8192
  labels := stubAt_ne
  apart i j b hi hj := by
    unfold Inside pcbAt at hi hj
    cases i with
    | false =>
      cases j with
      | false => rfl
      | true =>
        simp only [if_true, Bool.false_eq_true, if_false] at hi hj
        bv_omega
    | true =>
      cases j with
      | false =>
        simp only [if_true, Bool.false_eq_true, if_false] at hi hj
        bv_omega
      | true => rfl

theorem two_frames (i : Bool) : Apart32 (pcbAt i + 12) (pcbAt i + 8) ∧
    OffStack (pcbAt i + 0x1FFC - 92) 92 (pcbAt i + 12) ∧
    OffStack (pcbAt i + 0x1FFC - 92) 92 (pcbAt i + 8) := by
  unfold Apart32 OffStack
  cases i <;> decide

theorem stub_below {q : Processor} : Below 36 q q.pushal.pushfl :=
  have hsegments := (((Below.refl q).push (by decide) q.eax).push (by decide) q.ecx).push (by decide) q.edx
  have hindices :=
    (((hsegments.push (by decide) q.ebx).push (by decide) q.esp).push (by decide) q.ebp).push (by decide) q.esi
  (hindices.push (by decide) q.edi).push (by decide) q.pushal.eflags

theorem enter_user {p : Processor} {stack : KernelStack} {g : Gate} {back : Word} (hg : g.selector = kernelCs)
    (hu : p.cs = userCs) :
    (p.enter stack .interrupt g back none).esp = stack.esp0 - 20 ∧
      (p.enter stack .interrupt g back none).ss = stack.ss0 := by
  have huser : segmentDpl g.selector < p.cpl := by
    unfold Processor.cpl
    rw [hg, hu]
    decide
  unfold Processor.enter
  simp only [if_pos huser, push_esp, push_ss]
  refine ⟨?_, trivial⟩
  bv_omega

theorem user_entry {v : ℕ} (hv : v = 32 ∨ v = 33) {p : Processor} (stack : KernelStack) (hu : p.cs = userCs) :
    ∃ q, interrupt (idtVals (populateIdt smallLinked.isrStubTable fun _ => blankDesc)) stack p (.external v) = some q ∧
      q.esp = stack.esp0 - 20 ∧ q.ss = stack.ss0 := by
  have hstub : HasStub v := by
    unfold HasStub
    omega
  have hlt : v < numVec := by
    unfold numVec
    omega
  have hne : (Cause.external v).vector ≠ 128 := by
    show v ≠ 128
    omega
  have hgate := @gateOf_populated smallLinked.isrStubTable (fun _ => blankDesc) v hlt
  have hpresent : smallLinked.isrStubTable v ≠ 0 := by
    rw [smallLinked.isrStubTable_stub hstub]
    exact stubAt_ne v hstub
  have hdeliver := @deliver_eq p stack (idtVals (populateIdt smallLinked.isrStubTable fun _ => blankDesc))
    (.external v) _ hgate
    trivial
  rw [if_pos hpresent, if_neg hne] at hdeliver
  refine ⟨p.enter stack .interrupt
    (decodeGate (idtVals (populateIdt smallLinked.isrStubTable fun _ => blankDesc) v)) p.eip none,
    ?_, enter_user hgate.selector hu⟩
  unfold interrupt
  rw [hdeliver]
  rfl

theorem savedFrame_outside {s : X86} {back pe ps x : Word} (hframe : ¬ Inside (s.esp - 20) 20 x) (hpe : ¬ Inside pe 4 x)
    (hps : ¬ Inside ps 4 x) : savedFrame s back pe ps x = s.mem x := by
  unfold savedFrame
  rw [store32_outside hps, store32_outside hpe]
  exact helperFrame_outside s back hframe

theorem pitFrame_outside {r : Processor} {next pe ps x : Word} (h : ¬ Inside (r.esp - 16) 16 x) :
    (pitFrame r next pe ps).mem x = r.mem x := by
  have hout : ¬ Inside (r.esp - 4) 4 x ∧ ¬ Inside (r.esp - 4 - 4) 4 x ∧ ¬ Inside (r.esp - 4 - 4 - 4) 4 x ∧
      ¬ Inside (r.esp - 4 - 4 - 4 - 4) 4 x := by
    unfold Inside at h ⊢
    refine ⟨?_, ?_, ?_, ?_⟩ <;> bv_omega
  obtain ⟨h₁, h₂, h₃, h₄⟩ := hout
  exact (store32_outside h₄).trans ((store32_outside h₃).trans ((store32_outside h₂).trans (store32_outside h₁)))

theorem two_context {i : Bool} {x : Word} (h : Inside (pcbAt i + 12) 4 x ∨ Inside (pcbAt i + 0x1FFC - 64) 64 x) :
    Inside (pcbAt i) 8192 x ∧ ¬ Inside (pcbAt i + 0x1FFC - 72) 4 x ∧ ¬ Inside (pcbAt i + 0x1FFC - 72 - 4) 4 x := by
  unfold Inside pcbAt at h ⊢
  cases i with
  | false =>
    simp only [Bool.false_eq_true, if_false] at h ⊢
    refine ⟨?_, ?_, ?_⟩ <;> bv_omega
  | true =>
    simp only [if_true] at h ⊢
    refine ⟨?_, ?_, ?_⟩ <;> bv_omega

theorem two_room {i : Bool} {x : Word} (h : Inside (pcbAt i + 0x1FFC - 72 - 4) 4 x) : Inside (pcbAt i) 8192 x := by
  unfold Inside pcbAt at h ⊢
  cases i with
  | false =>
    simp only [Bool.false_eq_true, if_false] at h ⊢
    bv_omega
  | true =>
    simp only [if_true] at h ⊢
    bv_omega

theorem two_outside {i : Bool} {x : Word} (h : ¬ Inside (pcbAt i) 8192 x) : Inside (pcbAt i + 0x1FFC) (2 ^ 32 - 24) x ∧
    Inside (pcbAt i + 0x1FFC - 20) (2 ^ 32 - 36) x ∧ ¬ Inside (pcbAt i + 0x1FFC - 72) 16 x ∧
    ¬ Inside (pcbAt i + 0x1FFC - 92) 20 x ∧ ¬ Inside (pcbAt i + 12) 4 x ∧ ¬ Inside (pcbAt i + 8) 4 x := by
  unfold Inside pcbAt at h ⊢
  cases i with
  | false =>
    simp only [Bool.false_eq_true, if_false] at h ⊢
    refine ⟨?_, ?_, ?_, ?_, ?_, ?_⟩ <;> bv_omega
  | true =>
    simp only [if_true] at h ⊢
    refine ⟨?_, ?_, ?_, ?_, ?_, ?_⟩ <;> bv_omega

theorem two_argument (i j : Bool) : Apart32 (pcbAt j + 12) (pcbAt i + 0x1FFC - 72) := by
  unfold Apart32
  cases i <;> cases j <;> decide

variable {s : Shared Bool} {j : Bool} {p : Processor}

/-- **A tick** takes the processor from a program in user mode and gives it to one that was stopped. -/
theorem two_tick (hu : s.cpu.cs = userCs) (hplain : s.cpu.eflags &&& virtualMode = 0) (hchosen : s.ticked j = some p) :
    ∃ q a b, TickPath twoPrograms s j p q a b 0x00401000 := by
  obtain ⟨q, hq, hesp, hss⟩ := @user_entry 32 (Or.inl rfl) s.cpu (twoPrograms.stack s.current) hu
  obtain ⟨hentered, hcli, hnested⟩ := @device_enters Bool twoPrograms s.current s.cpu q 32 (Or.inl rfl) hq
  have huser : 0 < s.cpu.cpl := by
    unfold Processor.cpl
    rw [hu]
    decide
  have htop : (twoPrograms.stack s.current).esp0 = pcbAt s.current + 0x1FFC := rfl
  rw [htop] at hesp
  have habove := hentered.above
  rw [if_pos huser, htop] at habove
  have hstub : q.pushal.pushfl.esp = pcbAt s.current + 0x1FFC - 56 := by
    rw [pushed_esp, hesp]
    bv_omega
  have hlen : s.cpu.saved.length = 4 := by
    unfold Processor.saved
    rw [if_pos huser]
    rfl
  obtain ⟨hapart, hoffEbp, hoffEsp⟩ := two_frames s.current
  have hbase : q.pushal.pushfl.esp - 36 = pcbAt s.current + 0x1FFC - 92 := by
    rw [hstub]
    bv_omega
  rw [← hbase] at hoffEbp hoffEsp
  have hsave := @pitFrame_save q.pushal.pushfl twoPrograms.pitNext _ _ hapart hoffEbp hoffEsp
  have hpit : (pitFrame q.pushal.pushfl twoPrograms.pitNext (pcbAt s.current + 12) (pcbAt s.current + 8)).esp =
      pcbAt s.current + 0x1FFC - 72 := by
    rw [pitFrame_esp, hstub]
    bv_omega
  have hselectors :=
    @pitFrame_selectors q.pushal.pushfl twoPrograms.pitNext (pcbAt s.current + 12) (pcbAt s.current + 8)
  rw [pushed_selectors.1, pushed_selectors.2] at hselectors
  have hpitMem := fun x => @pitFrame_outside q.pushal.pushfl twoPrograms.pitNext (pcbAt s.current + 12)
    (pcbAt s.current + 8) x
  generalize pitFrame q.pushal.pushfl twoPrograms.pitNext (pcbAt s.current + 12) (pcbAt s.current + 8) = a at *
  obtain ⟨-, hslot⟩ :=
    @AtSave.preempted s.cpu q a _ _ _ 0x00401000 hsave hentered.frame hentered.registers hnested fun hk =>
    (hentered.same hk).2 rfl
  have hcall := @AtSave.call q.pushal.pushfl a _ _ _ 0x00401000 hsave
  have hslot' :
    load32 (a.callX86 X86.saveRegs 0x00401000).mem (pcbAt s.current + 12) = pcbAt s.current + 0x1FFC - 64 := by
    rw [hslot, hesp]
    bv_omega
  have hcontext : ∀ {m : Word → BitVec 8}, load32 m (pcbAt s.current + 12) = pcbAt s.current + 0x1FFC - 64 → ∀ {x},
      InContext m (twoPrograms.scheduleEbp s.current) s.cpu x →
        Inside (pcbAt s.current + 12) 4 x ∨ Inside (pcbAt s.current + 0x1FFC - 64) 64 x := by
    intro m hm x hx
    unfold InContext at hx
    rwa [show twoPrograms.scheduleEbp s.current = pcbAt s.current + 12 from rfl, hm, hlen] at hx
  have hsavedEsp : (a.callX86 X86.saveRegs 0x00401000).esp = pcbAt s.current + 0x1FFC - 72 := by
    rw [hcall]
    exact hpit
  have hsavedSelectors : (a.callX86 X86.saveRegs 0x00401000).cs = q.cs ∧
    (a.callX86 X86.saveRegs 0x00401000).ss = q.ss := by
    rw [hcall]
    exact hselectors
  have hsavedMem : ∀ x, ¬ Inside (pcbAt s.current) 8192 x →
    (a.callX86 X86.saveRegs 0x00401000).mem x = s.cpu.mem x := by
    intro x hx
    obtain ⟨hin, hbelow, hframe, hhelper, hpe, hps⟩ := two_outside hx
    have hfirst : q.mem x = s.cpu.mem x := habove x hin
    have hsecond : q.pushal.pushfl.mem x = q.mem x := stub_below.mem x (by rw [hesp]; exact hbelow)
    have hthird : a.mem x = q.pushal.pushfl.mem x := hpitMem x (by
      rw [hstub, show pcbAt s.current + 0x1FFC - 56 - 16 = pcbAt s.current + 0x1FFC - 72 by bv_omega]
      exact hframe)
    rw [hcall]
    show savedFrame a.toX86 0x00401000 (pcbAt s.current + 12) (pcbAt s.current + 8) x = _
    rw [savedFrame_outside (by
      rw [hpit, show pcbAt s.current + 0x1FFC - 72 - 20 = pcbAt s.current + 0x1FFC - 92 by bv_omega]
      exact hhelper) hpe hps, hthird, hsecond, hfirst]
  -- the argument of `do_schedule` is put where the frame of `pit_handler` ends
  refine ⟨q, a, { a.callX86 X86.saveRegs 0x00401000 with
    mem := store32 (a.callX86 X86.saveRegs 0x00401000).mem (a.callX86 X86.saveRegs 0x00401000).esp
      (load32 (a.callX86 X86.saveRegs 0x00401000).mem (twoPrograms.scheduleEbp j)) },
        ⟨hplain, fun hk => absurd huser hk⟩, hq,
    by rw [hcli]; exact hsave, fun x hx => (two_context (hcontext hslot' hx)).1, ?_, fun x hx => ?_,
      hchosen, ?_, ⟨?_, ?_⟩, ?_⟩
  · intro l hl x hx
    have hout : ¬ Inside (pcbAt s.current) 8192 x := fun hin => hl (twoPrograms.apart l s.current x hx hin)
    have hstack : ¬ Inside (pcbAt s.current + 0x1FFC - 72) 4 x := by
      have hframe := (two_outside hout).2.2.1
      unfold Inside at hframe ⊢
      omega
    exact (store32_outside (by rw [hsavedEsp]; exact hstack)).trans (hsavedMem x hout)
  · exact store32_outside (by rw [hsavedEsp]; exact (two_context (hcontext hslot' hx)).2.1)
  · refine load32_store32.trans (load32_apart ?_).symm
    rw [hsavedEsp]
    exact two_argument s.current j
  · unfold Processor.cpl
    rw [hsavedSelectors.1]
    exact hentered.cpl
  · exact hsavedSelectors.2.trans hss
  · intro x hx
    rw [hsavedEsp] at hx
    refine ⟨two_room hx, fun hin => ?_⟩
    have hword := hcontext (by
      rw [load32_apart (by rw [hsavedEsp]; exact two_argument s.current s.current)]
      exact hslot') hin
    exact (two_context hword).2.2 hx

/-- Two programs, the second of them in a terminal that the first one's user opens, and the word an earlier tick
left. -/
def secondInstruction : Processor := { firstInstruction with eip := 0x08048200, eax := 7 }

def firstShared : Shared Bool where
  current := false
  cpu := { firstInstruction with mem := store32 (fun _ => 0) 0x007FE00C 0x007FFFBC }
  stopped _ := none

theorem first_plain : firstInstruction.eflags &&& virtualMode = 0 := by decide

theorem first_user : 0 < firstInstruction.cpl := by decide

/-- **The key** leaves the first program in the stub of the keyboard, and the second one starts. -/
theorem two_opens : ∃ q m, OpenPath twoPrograms firstShared true q { secondInstruction with mem := m } := by
  obtain ⟨q, hq, hesp, -⟩ := @user_entry 33 (Or.inr rfl) firstShared.cpu (twoPrograms.stack false) rfl
  obtain ⟨hentered, hcli, -⟩ := @device_enters Bool twoPrograms false firstShared.cpu q 33 (Or.inr rfl) hq
  have htop : (twoPrograms.stack false).esp0 = 0x007FFFFC := rfl
  have habove := hentered.above
  rw [if_pos (show 0 < firstShared.cpu.cpl from first_user), htop] at habove
  rw [htop] at hesp
  have hword : load32 (store32 q.pushal.pushfl.mem (q.esp - 40) twoPrograms.keyboardNext)
    (twoPrograms.scheduleEbp false) =
      0x007FFFBC := by
    have hfirst : load32 firstShared.cpu.mem 0x007FE00C = 0x007FFFBC := load32_store32
    refine (load32_congr fun x hx => ?_).trans hfirst
    have hx : Inside 0x007FE00C 4 x := hx
    have hout : ¬ Inside (q.esp - 40) 4 x ∧ Inside q.esp (2 ^ 32 - 36) x ∧ Inside 0x007FFFFC (2 ^ 32 - 24) x := by
      rw [hesp]
      unfold Inside at hx ⊢
      refine ⟨?_, ?_, ?_⟩ <;> bv_omega
    rw [store32_outside hout.1, stub_below.mem x hout.2.1, habove x hout.2.2]
  have hkept : ∀ b, Inside (q.esp - 36) 56 b →
      store32 q.pushal.pushfl.mem (q.esp - 40) twoPrograms.keyboardNext b = q.cli.pushal.pushfl.mem b := by
    intro b hb
    rw [hcli]
    refine store32_outside ?_
    unfold Inside at hb ⊢
    bv_omega
  have hcontext : ∀ x, InContext (store32 q.pushal.pushfl.mem (q.esp - 40) twoPrograms.keyboardNext)
      (twoPrograms.scheduleEbp false) firstShared.cpu x → Inside (pcbAt false) 8192 x := by
    intro x hx
    unfold InContext at hx
    rw [hword] at hx
    exact (@two_context false x hx).1
  have hslot : load32 (store32 q.pushal.pushfl.mem (q.esp - 40) twoPrograms.keyboardNext)
    (twoPrograms.scheduleEbp false) =
      q.esp - 44 := by
    rw [hword, hesp]
    decide
  generalize hm : store32 q.pushal.pushfl.mem (q.esp - 40) twoPrograms.keyboardNext = m at *
  refine ⟨q, m, ⟨first_plain, fun hk => absurd first_user hk⟩, hq, hslot, ?_, hkept, hcontext, fun l hl hl' => ?_⟩
  · rw [← hm]
    exact load32_store32
  · cases l with
    | false => exact absurd rfl hl
    | true => exact absurd rfl hl'

/-- The second program is started over the first, a tick gives the processor back, and the next one resumes the
second. -/
theorem programs_resume_two : ∃ s m q a b, Relation.ReflTransGen (SharedStep twoPrograms) firstShared s ∧
    s.current = false ∧
    TickPath twoPrograms s true { secondInstruction with mem := m } q a b 0x00401000 ∧
    (b.callX86 X86.doSchedule 0x00401100).isrDeviceEnd =
      some { secondInstruction with mem := (b.callX86 X86.doSchedule 0x00401100).mem } := by
  obtain ⟨q, m, hopens⟩ := two_opens
  have hrun := Relation.ReflTransGen.single (SharedStep.opens hopens)
  have hsound := sharedRun_sound (fun _ => rfl) hrun
  generalize hs : (⟨true, { secondInstruction with mem := m },
    Function.update firstShared.ticked true none⟩ : Shared Bool) = s at *
  obtain ⟨q₁, a₁, b₁, path₁⟩ := @two_tick s false firstShared.cpu (by subst hs; rfl) (by subst hs; exact first_plain)
    (by subst hs; rfl)
  have hresumed := (path₁.resumes hsound 0x00401100).2
  have hrun₂ := hrun.tail (SharedStep.tick path₁ hresumed)
  obtain ⟨q₂, a₂, b₂, path₂⟩ := @two_tick
    ⟨false, { firstShared.cpu with mem := (b₁.callX86 X86.doSchedule 0x00401100).mem },
      Function.update s.ticked false none⟩ true
    { secondInstruction with mem := m } rfl first_plain (by subst hs; rfl)
  exact ⟨_, m, q₂, a₂, b₂, hrun₂, rfl, path₂, (programs_resume twoPrograms (fun _ => rfl) hrun₂ path₂ 0x00401100).2⟩

end Two

end Kernel391
