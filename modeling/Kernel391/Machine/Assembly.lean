import Kernel391.Foundations.X86
import Kernel391.Machine.State
import Mathlib.Algebra.Group.Nat.Even

/-! The assembly functions `get_pcb` and `save_regs`, and the way of a system call through `isr_stub_128`. Both
functions pop what they pushed in the order they pushed it, so that EBX and EDI change places. -/
namespace Kernel391
open Kernel391.Foundations
set_option autoImplicit false

namespace X86

/-- `get_pcb`. -/
def getPcb (s : X86) : X86 :=
  let s := s.push s.ebp
  let s := { s with ebp := s.esp }
  let s := s.push s.ebx
  let s := s.push s.esi
  let s := s.push s.edi
  let s := { s with eax := s.esp }
  let s := { s with eax := s.eax &&& 0xFFFFE000 }
  s.popEbx.popEsi.popEdi.leave.ret

/-- `save_regs`. -/
def saveRegs (s : X86) : X86 :=
  let s := { s with eax := s.ebp }
  let s := s.push s.ebp
  let s := { s with ebp := s.esp }
  let s := s.push s.ebx
  let s := s.push s.esi
  let s := s.push s.edi
  let s := { s with edi := load32 s.mem (s.ebp + 8) }
  let s := { s with mem := store32 s.mem s.edi s.eax }
  let s := { s with edi := load32 s.mem (s.ebp + 12) }
  let s := { s with mem := store32 s.mem s.edi s.esp }
  s.popEbx.popEsi.popEdi.leave.ret

end X86

/-! ## What the functions do -/

section Helpers
variable (s : X86) (next : Word)

/-- The memory under a helper: the return address, EBP and the three registers. -/
def helperFrame : Word → BitVec 8 := (((((s.push next).push s.ebp).push s.ebx).push s.esi).push s.edi).mem

theorem helperFrame_outside {b : Word} (h : ¬ Inside (s.esp - 20) 20 b) : helperFrame s next b = s.mem b := by
  unfold Inside at h
  unfold helperFrame X86.push
  simp only
  rw [store32_outside, store32_outside, store32_outside, store32_outside, store32_outside]
  all_goals
    unfold Inside
    bv_omega

/-- The words of a helper's frame, in the memory `m`. -/
def Framed (m : Word → BitVec 8) : Prop :=
  load32 m (s.esp - 4 - 4 - 4 - 4 - 4) = s.edi ∧ load32 m (s.esp - 4 - 4 - 4 - 4) = s.esi ∧
    load32 m (s.esp - 4 - 4 - 4) = s.ebx ∧ load32 m (s.esp - 4 - 4) = s.ebp ∧ load32 m (s.esp - 4) = next

theorem helperFrame_words : Framed s next (helperFrame s next) := by
  have hapart : ∀ a : Word, Apart32 a (a - 4) ∧ Apart32 a (a - 4 - 4) ∧ Apart32 a (a - 4 - 4 - 4) ∧
    Apart32 a (a - 4 - 4 - 4 - 4) := by
    intro a
    unfold Apart32
    refine ⟨⟨?_, ?_⟩, ⟨?_, ?_⟩, ⟨?_, ?_⟩, ?_, ?_⟩ <;> bv_omega
  unfold Framed helperFrame X86.push
  simp only
  refine ⟨load32_store32, ?_, ?_, ?_, ?_⟩
  · rw [load32_apart (hapart _).1, load32_store32]
  · rw [load32_apart (hapart _).2.1, load32_apart (hapart _).1, load32_store32]
  · rw [load32_apart (hapart _).2.2.1, load32_apart (hapart _).2.1, load32_apart (hapart _).1, load32_store32]
  · rw [load32_apart (hapart _).2.2.2, load32_apart (hapart _).2.2.1, load32_apart (hapart _).2.1,
      load32_apart (hapart _).1,
      load32_store32]

/-- The state with the frame made. -/
def helperState : X86 :=
  { s with
    ebp := s.esp - 4 - 4
    esp := s.esp - 4 - 4 - 4 - 4 - 4
    mem := helperFrame s next }

theorem pops_frame {t : X86} (hesp : t.esp = s.esp - 4 - 4 - 4 - 4 - 4) (hebp : t.ebp = s.esp - 4 - 4)
    (hmem : Framed s next t.mem) : t.popEbx.popEsi.popEdi.leave.ret =
      { t with ebx := s.edi, esi := s.esi, edi := s.ebx, ebp := s.ebp, esp := s.esp, eip := next } := by
  obtain ⟨hedi, hesi, hebx, hsebp, hnext⟩ := hmem
  simp only [X86.popEbx, X86.popEsi, X86.popEdi, X86.popEbp, X86.leave, X86.ret, X86.pop, hesp, hebp,
    BitVec.sub_add_cancel,
    hedi, hesi, hebx, hsebp, hnext]

theorem getPcb_call : s.call X86.getPcb next =
    { s with eax := (s.esp - 20) &&& 0xFFFFE000, ebx := s.edi, edi := s.ebx, eip := next, mem :=
      helperFrame s next } := by
  have hesp : s.esp - 20 = s.esp - 4 - 4 - 4 - 4 - 4 := by bv_omega
  have hcall : s.call X86.getPcb next =
      ({ helperState s next with eax := (s.esp - 4 - 4 - 4 - 4 - 4) &&& 0xFFFFE000
        } : X86).popEbx.popEsi.popEdi.leave.ret := by
    unfold X86.call X86.getPcb helperState helperFrame X86.push
    rfl
  rw [hcall, hesp]
  exact @pops_frame s next { helperState s next with eax := _ } rfl rfl (helperFrame_words s next)

/-- A word clear of what `save_regs` works in: its frame, its return address and its two arguments. -/
def Clear (p : Word) : Prop := 28 ≤ (p - (s.esp - 20)).toNat ∧ 4 ≤ ((s.esp - 20) - p).toNat

/-- The memory behind `save_regs`: EBP and its own stack pointer in the words at `p` and `q`. -/
def savedFrame (p q : Word) : Word → BitVec 8 := store32 (store32 (helperFrame s next) p s.ebp) q (s.esp - 20)

theorem savedFrame_window {p q : Word} (hp : Clear s p) (hq : Clear s q) :
    ∀ b, Inside (s.esp - 20) 28 b → savedFrame s next p q b = helperFrame s next b := by
  intro b hb
  unfold Clear at hp hq
  unfold Inside at hb
  unfold savedFrame
  rw [store32_outside, store32_outside]
  all_goals
    unfold Inside
    bv_omega

theorem savedFrame_words {p q : Word} (hp : Clear s p) (hq : Clear s q) : Framed s next (savedFrame s next p q) := by
  have hword : ∀ a : Word, (a - (s.esp - 20)).toNat ≤ 24 →
      load32 (savedFrame s next p q) a = load32 (helperFrame s next) a := by
    intro a ha
    refine load32_congr fun b hb => savedFrame_window s next hp hq b ?_
    unfold Inside at hb ⊢
    bv_omega
  have hframe := helperFrame_words s next
  unfold Framed at hframe ⊢
  rw [hword _ (by bv_omega), hword _ (by bv_omega), hword _ (by bv_omega), hword _ (by bv_omega), hword _ (by bv_omega)]
  exact hframe

/-- `save_regs` between its pushes and its pops. -/
def saveWords (t : X86) : X86 :=
  let t := { t with edi := load32 t.mem (t.ebp + 8) }
  let t := { t with mem := store32 t.mem t.edi t.eax }
  let t := { t with edi := load32 t.mem (t.ebp + 12) }
  { t with mem := store32 t.mem t.edi t.esp }

theorem saveWords_eq {t : X86} {p q : Word} (hp : load32 t.mem (t.ebp + 8) = p)
    (hq : load32 (store32 t.mem p t.eax) (t.ebp + 12) = q) :
    saveWords t = { t with edi := q, mem := store32 (store32 t.mem p t.eax) q t.esp } := by
  unfold saveWords
  simp only [hp, hq]

theorem saveRegs_call {p q : Word} (hp : load32 s.mem s.esp = p) (hq : load32 s.mem (s.esp + 4) = q) (hpc : Clear s p)
    (hqc : Clear s q) : s.call X86.saveRegs next =
      { s with eax := s.ebp, ebx := s.edi, edi := s.ebx, eip := next, mem := savedFrame s next p q } := by
  have harg : ∀ a : Word, 20 ≤ (a - (s.esp - 20)).toNat → (a - (s.esp - 20)).toNat ≤ 24 →
      load32 (helperFrame s next) a = load32 s.mem a := by
    intro a ha ha'
    refine load32_congr fun b hb => helperFrame_outside s next ?_
    unfold Inside at hb ⊢
    bv_omega
  have hp' : load32 (helperFrame s next) (s.esp - 4 - 4 + 8) = p := by
    have ha : s.esp - 4 - 4 + 8 = s.esp := by bv_omega
    rw [ha]
    exact (harg s.esp (by bv_omega) (by bv_omega)).trans hp
  have hq' : load32 (store32 (helperFrame s next) p s.ebp) (s.esp - 4 - 4 + 12) = q := by
    have ha : s.esp - 4 - 4 + 12 = s.esp + 4 := by bv_omega
    have hapart : Apart32 (s.esp + 4) p := by
      unfold Clear at hpc
      unfold Apart32
      bv_omega
    rw [ha, load32_apart hapart]
    exact (harg (s.esp + 4) (by bv_omega) (by bv_omega)).trans hq
  have hesp : s.esp - 20 = s.esp - 4 - 4 - 4 - 4 - 4 := by bv_omega
  have hmem := savedFrame_words s next hpc hqc
  have hcall : s.call X86.saveRegs next =
    (saveWords { helperState s next with eax := s.ebp }).popEbx.popEsi.popEdi.leave.ret := rfl
  have hwords := @saveWords_eq { helperState s next with eax := s.ebp } p q hp' hq'
  rw [hcall, hwords]
  have hpops :=
    @pops_frame s next { helperState s next with eax := s.ebp, edi := q, mem := savedFrame s next p q } rfl rfl hmem
  unfold savedFrame at hpops ⊢
  rw [hesp] at hpops ⊢
  exact hpops

/-! ## The calling convention -/

theorem honours_swapped {words : List Word} {v : Word} {m : Word → BitVec 8}
    (hmem : ∀ b, ¬ Inside (s.esp - 20) 20 b → (∀ w ∈ words, ¬ Inside w 4 b) → m b = s.mem b) :
    Honours 20 words next s { s with eax := v, ebx := s.edi, edi := s.ebx, eip := next, mem := m } ↔ s.ebx = s.edi := by
  constructor
  · intro h
    exact h.ebx.symm
  · intro h
    exact
      { eip := rfl
        ebx := h.symm
        esi := rfl
        edi := h
        ebp := rfl
        esp := rfl
        mem := hmem }

theorem getPcb_honours : Honours 20 [] next s (s.call X86.getPcb next) ↔ s.ebx = s.edi := by
  rw [getPcb_call]
  exact honours_swapped s next fun b hb _ => helperFrame_outside s next hb

theorem saveRegs_honours {p q : Word} (hp : load32 s.mem s.esp = p)
    (hq : load32 s.mem (s.esp + 4) = q) (hpc : Clear s p)
    (hqc : Clear s q) : Honours 20 [p, q] next s (s.call X86.saveRegs next) ↔ s.ebx = s.edi := by
  rw [saveRegs_call s next hp hq hpc hqc]
  refine honours_swapped s next fun b hb hw => ?_
  unfold savedFrame
  rw [store32_outside (hw q (by simp)), store32_outside (hw p (by simp))]
  exact helperFrame_outside s next hb

end Helpers

/-! ## System calls -/

namespace X86

/-- `halt_process`. -/
def haltProcess (s : X86) : X86 :=
  let s := { s with eax := s.eax &&& 0x000000FF }
  let s := { s with eax := s.eax.extractLsb' 8 24 ++ s.mem (s.esp + 4) }
  let s := { s with eax := (s.eax.extractLsb' 0 8).signExtend 32 }
  let s := { s with ebp := load32 s.mem (s.esp + 8) }
  s.leave.ret

/-- `isr_stub_128` up to its `iret`, with the compiled system calls of `syscall_table`. -/
def isrStub128 (syscallTable : Word → X86 → X86) (next : Word) (s : X86) : X86 :=
  let s := s.push s.ebp
  let s := s.push s.edi
  let s := s.push s.esi
  -- `jle` is signed and `ja` is not
  let s :=
    if s.eax.toInt ≤ 0 ∨ 10 < s.eax.toNat then { s with eax := -1 }
    else
      let s := s.push s.edx
      let s := s.push s.ecx
      let s := s.push s.ebx
      let s := s.call (syscallTable s.eax) next
      { s with esp := s.esp + 12 }
  s.popEsi.popEdi.popEbp

end X86

/-- What the run of a system call does to EBX and EDI: it calls one of the two helpers, or it is an `execute` to which
the program it started comes back through `halt_process`, with the registers as that program's `halt` had them. -/
inductive CallEvent
  | helper
  | child (ebx edi : Word)

def CallEvent.after : Word × Word → CallEvent → Word × Word
  | (ebx, edi), .helper => (edi, ebx)
  | _, .child ebx edi => (ebx, edi)

/-- EBX and EDI behind these events. -/
def registers (events : List CallEvent) (r : Word × Word) : Word × Word := events.foldl CallEvent.after r

/-- The bytes above a system call's return address at `top` that are not its own: the three words the stub saved and
the frame of `iret` behind them. The arguments it may overwrite. -/
def CallerByte (top b : Word) : Prop := Inside top 4 b ∨ Inside (top + 16) 32 b

/-- Runs of the compiled code of a system call, called with the stack pointer at `top`: stretches that leave EBX, EDI
and the stack above as they found them, and the events. Both helpers are called from within the kernel stack, and
`save_regs` with words in a PCB, clear of the stack. -/
inductive Run (top : Word) : X86 → List CallEvent → X86 → Prop
  | done (s : X86) : Run top s [] s
  | code {s s₁ s' : X86} {events : List CallEvent} (hebx : s₁.ebx = s.ebx) (hedi : s₁.edi = s.edi)
      (hmem : ∀ b, CallerByte top b → s₁.mem b = s.mem b) (hrun : Run top s₁ events s') : Run top s events s'
  | getPcb {s s' : X86} {events : List CallEvent} (next : Word) (hstack : (top - s.esp).toNat ≤ eightKb)
      (hrun : Run top (s.call X86.getPcb next) events s') : Run top s (.helper :: events) s'
  | saveRegs {s s' : X86} {events : List CallEvent} (next p q : Word) (hstack : (top - s.esp).toNat ≤ eightKb)
      (hp : load32 s.mem s.esp = p) (hq : load32 s.mem (s.esp + 4) = q) (hpc : Clear s p) (hqc : Clear s q)
      (hpa : ∀ b, CallerByte top b → ¬ Inside p 4 b) (hqa : ∀ b, CallerByte top b → ¬ Inside q 4 b)
      (hrun : Run top (s.call X86.saveRegs next) events s') : Run top s (.helper :: events) s'
  | child {s s₁ s' : X86} {events : List CallEvent} (hmem : ∀ b, CallerByte top b → s₁.mem b = s.mem b)
      (hrun : Run top (X86.haltProcess s₁) events s') : Run top s (.child s₁.ebx s₁.edi :: events) s'

/-- A system call from its first instruction to behind its `ret`. -/
def Returns (events : List CallEvent) (s s' : X86) : Prop :=
  ∃ s₁, Run s.esp s events s₁ ∧ s₁.esp = s.esp ∧ s' = s₁.ret

theorem helperFrame_above {s : X86} {top : Word} (next : Word) (hstack : (top - s.esp).toNat ≤ eightKb) :
    ∀ b, CallerByte top b → helperFrame s next b = s.mem b := by
  intro b hb
  refine helperFrame_outside s next ?_
  unfold eightKb at hstack
  unfold CallerByte Inside at hb
  unfold Inside
  bv_omega

theorem run_registers {top : Word} {s s' : X86} {events : List CallEvent} (h : Run top s events s') :
    (s'.ebx, s'.edi) = registers events (s.ebx, s.edi) ∧ ∀ b, CallerByte top b → s'.mem b = s.mem b := by
  induction h with
  | done s => exact ⟨rfl, fun _ _ => rfl⟩
  | code hebx hedi hmem _ ih =>
    rw [hebx, hedi] at ih
    exact ⟨ih.1, fun b hb => (ih.2 b hb).trans (hmem b hb)⟩
  | getPcb next hstack _ ih =>
    rw [getPcb_call] at ih
    exact ⟨ih.1, fun b hb => (ih.2 b hb).trans (helperFrame_above next hstack b hb)⟩
  | saveRegs next p q hstack hp hq hpc hqc hpa hqa _ ih =>
    rw [saveRegs_call _ next hp hq hpc hqc] at ih
    refine ⟨ih.1, fun b hb => (ih.2 b hb).trans ?_⟩
    simp only
    unfold savedFrame
    rw [store32_outside (hqa b hb), store32_outside (hpa b hb)]
    exact helperFrame_above next hstack b hb
  | child hmem _ ih => exact ⟨ih.1, fun b hb => (ih.2 b hb).trans (hmem b hb)⟩

/-- What a system call's caller gets back: its registers, its kernel stack pointer and the frame of `iret`. -/
structure GivesBack (s s' : X86) : Prop where
  ebx : s'.ebx = s.ebx
  esi : s'.esi = s.esi
  edi : s'.edi = s.edi
  ebp : s'.ebp = s.ebp
  esp : s'.esp = s.esp
  frame : ∀ b, Inside s.esp 20 b → s'.mem b = s.mem b

section Stub
variable (s : X86) (next : Word)

/-- The stub behind its own three pushes. -/
def stubState : X86 := ((s.push s.ebp).push s.edi).push s.esi

/-- The state in which a system call starts. -/
def callState : X86 := ((((stubState s).push s.edx).push s.ecx).push s.ebx).push next

theorem stubState_frame {b : Word} (h : Inside s.esp 20 b) : (stubState s).mem b = s.mem b := by
  unfold Inside at h
  unfold stubState X86.push
  simp only
  rw [store32_outside, store32_outside, store32_outside]
  all_goals
    unfold Inside
    bv_omega

theorem stubState_words : load32 (stubState s).mem (s.esp - 4 - 4 - 4) = s.esi ∧
    load32 (stubState s).mem (s.esp - 4 - 4) = s.edi ∧ load32 (stubState s).mem (s.esp - 4) = s.ebp := by
  have hapart : ∀ a : Word, Apart32 a (a - 4) ∧ Apart32 a (a - 4 - 4) := by
    intro a
    unfold Apart32
    refine ⟨⟨?_, ?_⟩, ?_, ?_⟩ <;> bv_omega
  unfold stubState X86.push
  simp only
  refine ⟨load32_store32, ?_, ?_⟩
  · rw [load32_apart (hapart _).1, load32_store32]
  · rw [load32_apart (hapart _).2, load32_apart (hapart _).1, load32_store32]

theorem callState_above {b : Word} (h : Inside (s.esp - 12) 32 b) : (callState s next).mem b = (stubState s).mem b := by
  have hesp : (stubState s).esp = s.esp - 4 - 4 - 4 := rfl
  unfold Inside at h
  unfold callState X86.push
  simp only [hesp]
  rw [store32_outside, store32_outside, store32_outside, store32_outside]
  all_goals
    unfold Inside
    bv_omega

theorem stub_gives_back {t : X86} (hesp : t.esp = s.esp - 4 - 4 - 4)
    (hmem : ∀ b, Inside (s.esp - 12) 32 b → t.mem b = (stubState s).mem b) :
    GivesBack s t.popEsi.popEdi.popEbp ↔ t.ebx = s.ebx := by
  obtain ⟨hesi, hedi, hebp⟩ := stubState_words s
  have hword : ∀ a : Word, (a - (s.esp - 12)).toNat ≤ 8 → load32 t.mem a = load32 (stubState s).mem a := by
    intro a ha
    refine load32_congr fun b hb => hmem b ?_
    unfold Inside at hb ⊢
    bv_omega
  rw [← hword _ (by bv_omega)] at hesi hedi hebp
  have hpops : t.popEsi.popEdi.popEbp = { t with esi := s.esi, edi := s.edi, ebp := s.ebp, esp := s.esp } := by
    simp only [X86.popEsi, X86.popEdi, X86.popEbp, X86.pop, hesp, BitVec.sub_add_cancel, hesi, hedi, hebp]
  rw [hpops]
  constructor
  · intro h
    exact h.ebx
  · intro h
    refine ⟨h, rfl, rfl, rfl, rfl, fun b hb => ?_⟩
    have hkept : Inside (s.esp - 12) 32 b := by
      unfold Inside at hb ⊢
      bv_omega
    exact (hmem b hkept).trans (stubState_frame s hb)

variable {s next} {syscallTable : Word → X86 → X86}

/-- Where the stub stands before its own pops. -/
def servedState (syscallTable : Word → X86 → X86) (next : Word) (s : X86) : X86 :=
  if s.eax.toInt ≤ 0 ∨ 10 < s.eax.toNat then { stubState s with eax := -1 }
  else { syscallTable s.eax (callState s next) with esp := (syscallTable s.eax (callState s next)).esp + 12 }

theorem isrStub128_eq :
    X86.isrStub128 syscallTable next s = (servedState syscallTable next s).popEsi.popEdi.popEbp := by
  unfold X86.isrStub128 servedState callState stubState X86.call X86.push
  rfl

theorem stub_invalid (h : s.eax.toInt ≤ 0 ∨ 10 < s.eax.toNat) : GivesBack s (X86.isrStub128 syscallTable next s) := by
  have hserved : servedState syscallTable next s = { stubState s with eax := -1 } := if_pos h
  rw [isrStub128_eq, hserved]
  exact (@stub_gives_back s { stubState s with eax := -1 } rfl fun _ _ => rfl).mpr rfl

theorem stub_valid (h : ¬ (s.eax.toInt ≤ 0 ∨ 10 < s.eax.toNat)) {events : List CallEvent}
    (hcall : Returns events (callState s next) (syscallTable s.eax (callState s next))) :
    GivesBack s (X86.isrStub128 syscallTable next s) ↔ (registers events (s.ebx, s.edi)).1 = s.ebx := by
  obtain ⟨t, hrun, hesp, hret⟩ := hcall
  obtain ⟨hregs, hmem⟩ := run_registers hrun
  have htop : (callState s next).esp = s.esp - 4 - 4 - 4 - 4 - 4 - 4 - 4 := by
    unfold callState stubState X86.push
    rfl
  have hserved : servedState syscallTable next s = { t.ret with esp := t.ret.esp + 12 } := by
    unfold servedState
    rw [if_neg h, hret]
  have hback : ∀ b, Inside (s.esp - 12) 32 b → t.mem b = (stubState s).mem b := by
    intro b hb
    have habove : CallerByte (callState s next).esp b := by
      unfold Inside at hb
      unfold CallerByte Inside
      rw [htop]
      right
      bv_omega
    exact (hmem b habove).trans (callState_above s next hb)
  have hpops : t.ret.esp + 12 = s.esp - 4 - 4 - 4 := by
    have hpop : t.ret.esp = t.esp + 4 := rfl
    rw [hpop, hesp, htop]
    bv_omega
  simp only [callState, stubState, X86.push] at hregs
  have hebx : t.ebx = (registers events (s.ebx, s.edi)).1 := congrArg Prod.fst hregs
  have hgives := @stub_gives_back s { t.ret with esp := t.ret.esp + 12 } hpops hback
  rw [isrStub128_eq, hserved, ← hebx]
  exact hgives

end Stub

theorem registers_helpers (n : ℕ) (ebx edi : Word) :
    registers (List.replicate n .helper) (ebx, edi) = if Even n then (ebx, edi) else (edi, ebx) := by
  induction n generalizing ebx edi with
  | zero => rfl
  | succ n ih =>
    have hstep :
      registers (List.replicate (n + 1) .helper) (ebx, edi) = registers (List.replicate n .helper) (edi, ebx) := rfl
    rw [hstep, ih]
    by_cases hn : Even n
    · rw [if_pos hn, if_neg (Nat.even_add_one.not.mpr (not_not.mpr hn))]
    · rw [if_neg hn, if_pos (Nat.even_add_one.mpr hn)]

/-! ## When the convention is honoured -/

/-- Both helpers exchange EBX and EDI and are right in everything else: they honour the convention exactly when the two
registers are equal. The stub puts EDI, ESI and EBP right itself. A system call's caller gets back its EBX exactly when
that is what the helpers and the program of an `execute` leave in it; with helpers alone, when they were called an even
number of times or the two registers are equal. -/
theorem helpers_honour (s : X86) (next : Word) :
    ((s.call X86.getPcb next).eax = (s.esp - 20) &&& 0xFFFFE000 ∧
      (Honours 20 [] next s (s.call X86.getPcb next) ↔ s.ebx = s.edi)) ∧
    (∀ p q, load32 s.mem s.esp = p → load32 s.mem (s.esp + 4) = q → Clear s p → Clear s q →
      (Honours 20 [p, q] next s (s.call X86.saveRegs next) ↔ s.ebx = s.edi)) ∧
    ∀ syscallTable : Word → X86 → X86,
      (s.eax.toInt ≤ 0 ∨ 10 < s.eax.toNat → GivesBack s (X86.isrStub128 syscallTable next s)) ∧
      (¬ (s.eax.toInt ≤ 0 ∨ 10 < s.eax.toNat) →
        (∀ events, Returns events (callState s next) (syscallTable s.eax (callState s next)) →
          (GivesBack s (X86.isrStub128 syscallTable next s) ↔ (registers events (s.ebx, s.edi)).1 = s.ebx)) ∧
        ∀ n, Returns (List.replicate n .helper) (callState s next) (syscallTable s.eax (callState s next)) →
          (GivesBack s (X86.isrStub128 syscallTable next s) ↔ Even n ∨ s.ebx = s.edi)) := by
  refine ⟨⟨?_, getPcb_honours s next⟩, ?_, ?_⟩
  · rw [getPcb_call]
  · intro p q hp hq hpc hqc
    exact saveRegs_honours s next hp hq hpc hqc
  · intro syscallTable
    refine ⟨stub_invalid, fun hvalid => ⟨fun events => stub_valid hvalid, fun n hcall => ?_⟩⟩
    rw [stub_valid hvalid hcall, registers_helpers]
    by_cases hn : Even n
    · rw [if_pos hn]
      exact iff_of_true rfl (Or.inl hn)
    · rw [if_neg hn]
      exact ⟨fun h => Or.inr h.symm, fun h => (h.resolve_left hn).symm⟩

/-- `getargs` called by a program with 1 in EBX and 2 in EDI. -/
def getargsCall : X86 :=
  { eax := 7
    ebx := 1
    ecx := 64
    edx := 0
    esi := 3
    edi := 2
    ebp := 0x083FFFE0
    esp := 0x007FDFE8
    eip := 0x0804817A
    mem := fun _ => 0 }

/-- A system call that calls `get_pcb` and returns. -/
def callsOnce (_ : Word) (s : X86) : X86 := (s.call X86.getPcb 0x00400A10).ret

theorem callsOnce_returns (s : X86) (eax : Word) : Returns (List.replicate 1 .helper) s (callsOnce eax s) := by
  refine ⟨s.call X86.getPcb 0x00400A10, Run.getPcb 0x00400A10 ?_ (Run.done _), ?_, rfl⟩
  · rw [BitVec.sub_self]
    exact Nat.zero_le _
  · rw [getPcb_call]

theorem getargsCall_valid : ¬ (getargsCall.eax.toInt ≤ 0 ∨ 10 < getargsCall.eax.toNat) := by decide

theorem helpers_honour_getargs : ¬ Honours 20 [] 0x00400100 getargsCall (getargsCall.call X86.getPcb 0x00400100) ∧
    ¬ Honours 20 [0, 0] 0x00400100 getargsCall (getargsCall.call X86.saveRegs 0x00400100) ∧
    ¬ GivesBack getargsCall (X86.isrStub128 callsOnce 0x00400100 getargsCall) := by
  have hall := helpers_honour getargsCall 0x00400100
  have hne : getargsCall.ebx ≠ getargsCall.edi := by decide
  refine ⟨hall.1.2.not.mpr hne,
    (hall.2.1 0 0 rfl rfl (by unfold Clear; decide) (by unfold Clear; decide)).not.mpr hne, ?_⟩
  have hcalls := (hall.2.2 callsOnce).2 getargsCall_valid
  rw [hcalls.2 1 (callsOnce_returns _ _)]
  exact not_or.mpr ⟨Nat.not_even_one, hne⟩

/-- The convention is not honoured from every state, nor does every caller get its registers back. -/
theorem helpers_exchange : ¬ (∀ (s : X86) (next : Word), Honours 20 [] next s (s.call X86.getPcb next)) ∧
    ¬ (∀ (s : X86) (next : Word), GivesBack s (X86.isrStub128 callsOnce next s)) := by
  refine ⟨fun h => ?_, fun h => ?_⟩
  · have hebx := (getPcb_honours getargsCall 0x00400100).mp (h getargsCall 0x00400100)
    revert hebx
    decide
  · have hebx := (stub_valid getargsCall_valid (callsOnce_returns _ _)).mp (h getargsCall 0x00400100)
    revert hebx
    decide

end Kernel391
