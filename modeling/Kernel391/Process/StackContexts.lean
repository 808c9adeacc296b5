import Kernel391.Process.Stacks

/-! The contexts of the processes on the stacks: where the frames on the kernel stacks
lead. A process suspended in `execute` is found through the frame its child names; a
scheduled one through its saved pair; a slot on no stack leads nowhere. -/
namespace Kernel391
open Kernel391.Foundations
set_option autoImplicit false

/-- A context process `p` can be in: user code, or a system call on its own stack. -/
def Resumable (p : ℕ) (c : Cpu) : Prop :=
  c.mode = .user ∨ c.mode = .kernel ∧ getPcb c.esp = getPcbPtr p ∧ getPcb (c.esp - 4) = getPcbPtr p

/-- The processor is on the stack of slot `p`, or enters the kernel on it. -/
structure OnSlot (P : Processes) (p : ℕ) : Prop where
  lt : p < maxProcesses
  current : P.current = getPcbPtr p
  esp0 : P.esp0 = stackTop p - 4 ∨ P.esp0 = stackTop p

/-- The contexts, with slot `c` on the processor: its own frames do not count, the next entry finds
none of them. -/
structure Contexts (P : Processes) (S : Stacks) (c : ℕ) : Prop where
  inside : ∀ a, P.frames a ≠ .lost → ∃ p < maxProcesses, getPcb a = getPcbPtr p ∧ a + 12 ≤ stackTop p
  callers : ∀ a y, getPcb a ≠ getPcbPtr c → P.frames a = .execute y ∨ P.frames a = .setupExecStack y → y.mode = .user
  suspended : ∀ t, (S t).IsChain fun p q =>
    getPcb (P.info p).haltEbp = getPcbPtr q ∧ ∃ c, P.frames (P.info p).haltEbp = .setupExecStack c
  orphaned : ∀ t p, t ≠ 0 → (S t).getLast? = some p →
    ∃ y < maxProcesses, (P.info p).parent = getPcbPtr y ∧ getPcb (P.info p).haltEbp = getPcbPtr y
  dead : ∀ p < maxProcesses, ¬ Stacked S p → ∀ a c, getPcb a = getPcbPtr p → P.frames a ≠ .setupExecStack c
  resumable : ∀ p c, Stacked S p → getPcb (P.info p).scheduleEbp = getPcbPtr p →
    P.frames (P.info p).scheduleEbp = .interrupt c → Resumable p c

/-- The process on the processor: the top of a stack, or a root shell that has been freed and spins. -/
def Running (P : Processes) (S : Stacks) (p : ℕ) : Prop :=
  OnSlot P p ∧ (IsTop S p ∧ Resumable p P.cpu ∨
    P.cpu.mode = .spin ∧ getPcb P.cpu.esp = getPcbPtr p ∧ ¬ Stacked S p ∧ P.ids p = 0)

/-! ## Slots and addresses -/

theorem stackTop_pos {p : ℕ} (hp : p < maxProcesses) : eightKb ≤ stackTop p := by
  simp only [stackTop, maxProcesses, eightMb, eightKb] at *
  omega

theorem getPcb_below_top {p d : ℕ} (hp : p < maxProcesses) (hd : 0 < d) (hd' : d ≤ eightKb) :
    getPcb (stackTop p - d) = getPcbPtr p := by
  rw [getPcb_slot hp]
  simp only [stackTop, maxProcesses, eightMb, eightKb] at *
  omega

theorem ptr_ne {p q : ℕ} (hp : p < maxProcesses) (hq : q < maxProcesses) (h : p ≠ q) : getPcbPtr p ≠ getPcbPtr q :=
  fun hx => h ((getPcbPtr_inj hp hq).mp hx)

theorem onSlot_of_resumable {P : Processes} {p : ℕ} (hp : p < maxProcesses) (h : Resumable p P.cpu)
    (he : P.esp0 = stackTop p - 4 ∨ P.esp0 = stackTop p) : OnSlot P p := by
  refine ⟨hp, ?_, he⟩
  unfold Processes.current Processes.entryEsp
  rcases h with hm | ⟨hm, -, hesp⟩
  · rw [hm]
    simp only
    rcases he with he | he
    · rw [he, Nat.sub_sub]
      exact getPcb_below_top hp (by omega) (by simp only [eightKb]; omega)
    · rw [he]
      exact getPcb_below_top hp (by omega) (by simp only [eightKb]; omega)
  · rw [hm]
    exact hesp

/-! ## Entering the kernel -/

/-- The addresses of an entry on the stack of slot `c`. -/
structure EntryOn (c : ℕ) (e : Entry) : Prop where
  handler : getPcb e.handler = getPcbPtr c ∧ e.handler + 12 ≤ stackTop c
  ebp : getPcb e.regs.ebp = getPcbPtr c ∧ e.regs.ebp + 12 ≤ stackTop c
  esp : getPcb e.regs.esp = getPcbPtr c
  frame : getPcb e.frame = getPcbPtr c ∧ e.frame + 12 ≤ stackTop c
  order : e.frame < e.regs.ebp

/-- The kernel has been entered on slot `c`: of the frames on its stack at most one is left, and it
leads back to the interrupted context `x`. -/
structure Entered (P : Processes) (c : ℕ) (x : Cpu) (P₀ : Processes) : Prop where
  ids : P₀.ids = P.ids
  info : P₀.info = P.info
  fixed : P₀.fixed = P.fixed
  esp0 : P₀.esp0 = P.esp0
  there : ∀ a, getPcb a ≠ getPcbPtr c → P₀.frames a = P.frames a
  here : ∀ a, getPcb a = getPcbPtr c → P₀.frames a = .lost ∨ a + 12 ≤ stackTop c ∧ P₀.frames a = .interrupt x

/-- A function wrote frames on the stack of slot `c` only. -/
structure Overwrites (F F' : ℕ → Frame) (c : ℕ) (x : Cpu) : Prop where
  there : ∀ a, getPcb a ≠ getPcbPtr c → F' a = F a
  inside : ∀ a, getPcb a = getPcbPtr c → F' a ≠ .lost → a + 12 ≤ stackTop c
  interrupts : ∀ a y, getPcb a = getPcbPtr c → F' a = .interrupt y → y = x
  callers : ∀ a y, getPcb a = getPcbPtr c → F' a = .execute y ∨ F' a = .setupExecStack y → y.mode = .user

section Enter
variable {P P₀ : Processes} {S : Stacks} {c a : ℕ} {x : Cpu}

theorem enter_lost (h : Contexts P S c) (hc : OnSlot P c) (esp : ℕ) (ha : getPcb a = getPcbPtr c) :
    (P.enter esp).frames a = .lost := by
  show (if getPcb a = P.current ∧ a < P.esp0 then Frame.lost else P.frames a) = .lost
  split
  · rfl
  · next hne =>
    by_contra hf
    obtain ⟨p, hp, hpa, hle⟩ := h.inside a hf
    have hpc : p = c := (getPcbPtr_inj hp hc.lt).mp (hpa.symm.trans ha)
    subst hpc
    refine hne ⟨ha.trans hc.current.symm, ?_⟩
    have hpos := stackTop_pos hp
    simp only [eightKb] at hpos
    rcases hc.esp0 with he | he <;> omega

theorem entered_enter (h : Contexts P S c) (hc : OnSlot P c) (x : Cpu) (esp : ℕ) : Entered P c x (P.enter esp) where
  ids := rfl
  info := rfl
  fixed := rfl
  esp0 := rfl
  there _ ha := if_neg fun hx => ha (hx.1.trans hc.current)
  here _ ha := Or.inl (enter_lost h hc esp ha)

theorem entered_interrupted (h : Contexts P S c) (hc : OnSlot P c) (esp handler : ℕ)
    (hh : getPcb handler = getPcbPtr c ∧ handler + 12 ≤ stackTop c) :
    Entered P c x ((P.enter esp).setFrame handler (.interrupt x)) where
  ids := rfl
  info := rfl
  fixed := rfl
  esp0 := rfl
  there a ha := by
    have hne : a ≠ handler := fun hx => ha (hx ▸ hh.1)
    exact (Function.update_of_ne hne _ _).trans ((entered_enter h hc x esp).there a ha)
  here a ha := by
    by_cases hx : a = handler
    · subst hx
      exact Or.inr ⟨hh.2, Function.update_self _ _ _⟩
    · exact Or.inl ((Function.update_of_ne hx _ _).trans (enter_lost h hc esp ha))

theorem Entered.overwrites (he : Entered P c x P₀) : Overwrites P.frames P₀.frames c x where
  there := he.there
  inside a ha hf := ((he.here a ha).resolve_left hf).1
  interrupts a y ha hf := by
    rcases he.here a ha with hl | ⟨-, hi⟩
    · rw [hl] at hf
      cases hf
    · rw [hi] at hf
      cases hf
      rfl
  callers a y ha hf := by
    rcases he.here a ha with hl | ⟨-, hi⟩
    · rw [hl] at hf
      rcases hf with hf | hf <;> cases hf
    · rw [hi] at hf
      rcases hf with hf | hf <;> cases hf

theorem Entered.no_setupExecStack (he : Entered P c x P₀) (ha : getPcb a = getPcbPtr c) (y : Cpu) :
    P₀.frames a ≠ .setupExecStack y := by
  intro hf
  rcases he.here a ha with hl | ⟨-, hi⟩
  · rw [hl] at hf
    cases hf
  · rw [hi] at hf
    cases hf

theorem Entered.firstFree (he : Entered P c x P₀) {p : ℕ} (hp : P₀.FirstFree p) : P.FirstFree p := by
  refine ⟨hp.lt, ?_, fun q hq => ?_⟩
  · rw [← he.ids]
    exact hp.free
  · rw [← he.ids]
    exact hp.least q hq

theorem Overwrites.setFrame {F F' : ℕ → Frame} {f : Frame} (h : Overwrites F F' c x) (ha : getPcb a = getPcbPtr c)
    (hle : a + 12 ≤ stackTop c) (hi : ∀ y, f = .interrupt y → y = x)
    (hf : ∀ y, f = .execute y ∨ f = .setupExecStack y → y.mode = .user) :
    Overwrites F (Function.update F' a f) c x where
  there b hb := by
    have hba : b ≠ a := fun hx => hb (by rw [hx]; exact ha)
    rw [Function.update_of_ne hba]
    exact h.there b hb
  inside b hb hl := by
    by_cases hba : b = a
    · rw [hba]
      exact hle
    · rw [Function.update_of_ne hba] at hl
      exact h.inside b hb hl
  interrupts b y hb hl := by
    by_cases hba : b = a
    · rw [hba, Function.update_self] at hl
      exact hi y hl
    · rw [Function.update_of_ne hba] at hl
      exact h.interrupts b y hb hl
  callers b y hb hl := by
    by_cases hba : b = a
    · rw [hba, Function.update_self] at hl
      exact hf y hl
    · rw [Function.update_of_ne hba] at hl
      exact h.callers b y hb hl

end Enter

/-! ## Contexts after a change -/

namespace Contexts
variable {P P' : Processes} {S : Stacks} {c d t : ℕ} {x : Cpu} {l : List ℕ}

/-- The slot on the processor is no suspended caller. -/
def Idle (S : Stacks) (c : ℕ) (x : Cpu) : Prop := IsTop S c ∧ Resumable c x ∨ ¬ Stacked S c

theorem Idle.ne (hi : Idle S c x) {b : ℕ} (hb : Stacked S b) (hnt : ¬ IsTop S b) : b ≠ c := by
  rintro rfl
  rcases hi with hi | hi
  · exact hnt hi.1
  · exact hi hb

section Keep
variable (h : Contexts P S c) (hc : c < maxProcesses) (ho : Overwrites P.frames P'.frames c x)
include hc ho

include h in
theorem frames_keep : (∀ a, P'.frames a ≠ .lost → ∃ p < maxProcesses, getPcb a = getPcbPtr p ∧ a + 12 ≤ stackTop p) ∧
    ∀ a y, P'.frames a = .execute y ∨ P'.frames a = .setupExecStack y → y.mode = .user := by
  refine ⟨fun a hf => ?_, fun a y hf => ?_⟩
  · by_cases ha : getPcb a = getPcbPtr c
    · exact ⟨c, hc, ha, ho.inside a ha hf⟩
    · rw [ho.there a ha] at hf
      exact h.inside a hf
  · by_cases ha : getPcb a = getPcbPtr c
    · exact ho.callers a y ha hf
    · rw [ho.there a ha] at hf
      exact h.callers a y ha hf

theorem suspended_keep (hT : Table P S) (hi : Idle S c x) {a b : ℕ} (hb : Stacked S b) (hnt : ¬ IsTop S b)
    (hebp : (P'.info a).haltEbp = (P.info a).haltEbp)
    (hab : getPcb (P.info a).haltEbp = getPcbPtr b ∧ ∃ y, P.frames (P.info a).haltEbp = .setupExecStack y) :
    getPcb (P'.info a).haltEbp = getPcbPtr b ∧ ∃ y, P'.frames (P'.info a).haltEbp = .setupExecStack y := by
  obtain ⟨hptr, y, hf⟩ := hab
  have hne := ptr_ne (hT.slot_lt hb) hc (hi.ne hb hnt)
  rw [hebp]
  refine ⟨hptr, y, ?_⟩
  rw [ho.there _ (by rw [hptr]; exact hne)]
  exact hf

include h in
theorem resumable_keep (hT : Table P S) (hi : Idle S c x) {p : ℕ} (hp : Stacked S p)
    (hsched : p ≠ c → (P'.info p).scheduleEbp = (P.info p).scheduleEbp) {y : Cpu}
    (ha : getPcb (P'.info p).scheduleEbp = getPcbPtr p) (hf : P'.frames (P'.info p).scheduleEbp = .interrupt y) :
    Resumable p y := by
  by_cases hpc : p = c
  · subst hpc
    rw [ho.interrupts _ y ha hf]
    rcases hi with hi | hi
    · exact hi.2
    · exact absurd hp hi
  · rw [hsched hpc] at ha hf
    rw [ho.there _ (by rw [ha]; exact ptr_ne (hT.slot_lt hp) hc hpc)] at hf
    exact h.resumable p y hp ha hf

include h in
theorem dead_keep {p : ℕ} (hp : p < maxProcesses) (hpc : p ≠ c) (hs : ¬ Stacked S p) (a : ℕ) (y : Cpu)
    (ha : getPcb a = getPcbPtr p) : P'.frames a ≠ .setupExecStack y := by
  rw [ho.there a (by rw [ha]; exact ptr_ne hp hc hpc)]
  exact h.dead p hp hs a y ha

end Keep

variable (hT : Table P S) (h : Contexts P S c) (hc : c < maxProcesses) (hi : Idle S c x)
  (ho : Overwrites P.frames P'.frames c x)
include hT h hc hi ho

theorem still (hno : ∀ a y, getPcb a = getPcbPtr c → P'.frames a ≠ .setupExecStack y)
    (hebp : ∀ r, (P'.info r).haltEbp = (P.info r).haltEbp) (hparent : ∀ r, (P'.info r).parent = (P.info r).parent)
    (hsched : ∀ r, r ≠ c → (P'.info r).scheduleEbp = (P.info r).scheduleEbp) : Contexts P' S d where
  inside := (frames_keep h hc ho).1
  callers a y _ := (frames_keep h hc ho).2 a y
  suspended t := hT.apart.chain_keep (h.suspended t) fun a _ _ hb hnt hab =>
    suspended_keep hc ho hT hi hb hnt (hebp a) hab
  orphaned t p ht hl := by
    rw [hparent p, hebp p]
    exact h.orphaned t p ht hl
  dead p hp hs a y ha := by
    by_cases hpc : p = c
    · subst hpc
      exact hno a y ha
    · exact dead_keep h hc ho hp hpc hs a y ha
  resumable p y hp ha hf := resumable_keep h hc ho hT hi hp (hsched p) ha hf

theorem update
    (hkeep : ∀ r, Stacked S r → r ∉ S t → (P'.info r).haltEbp = (P.info r).haltEbp ∧
      (P'.info r).parent = (P.info r).parent ∧ (P'.info r).scheduleEbp = (P.info r).scheduleEbp)
    (hl : l.IsChain fun p q =>
      getPcb (P'.info p).haltEbp = getPcbPtr q ∧ ∃ y, P'.frames (P'.info p).haltEbp = .setupExecStack y)
    (horph : t ≠ 0 → ∀ p, l.getLast? = some p →
      ∃ y < maxProcesses, (P'.info p).parent = getPcbPtr y ∧ getPcb (P'.info p).haltEbp = getPcbPtr y)
    (hres : ∀ p ∈ l, ∀ y, getPcb (P'.info p).scheduleEbp = getPcbPtr p →
      P'.frames (P'.info p).scheduleEbp = .interrupt y → Resumable p y)
    (hout : ∀ p, ¬ Stacked (Function.update S t l) p → p ≠ c → ¬ Stacked S p)
    (hdead : ¬ Stacked (Function.update S t l) c → ∀ a y, getPcb a = getPcbPtr c → P'.frames a ≠ .setupExecStack y) :
    Contexts P' (Function.update S t l) d := by
  have helse : ∀ {u r}, u ≠ t → r ∈ S u → r ∉ S t := fun hut hu ht => hut (hT.apart.disjoint hu ht)
  refine ⟨(frames_keep h hc ho).1, fun a y _ => (frames_keep h hc ho).2 a y, fun u => ?_, fun u p hu hp => ?_,
    fun p hp hs a y ha => ?_, fun p y hp ha hf => ?_⟩
  · by_cases hut : u = t
    · subst hut
      rwa [Function.update_self]
    · rw [Function.update_of_ne hut]
      refine (h.suspended u).imp_of_mem_tail_imp fun a b ha hb hab => ?_
      exact suspended_keep hc ho hT hi ⟨u, List.mem_of_mem_tail hb⟩ (hT.apart.not_isTop_tail hb)
        (hkeep a ⟨u, ha⟩ (helse hut ha)).1 hab
  · by_cases hut : u = t
    · subst hut
      rw [Function.update_self] at hp
      exact horph hu p hp
    · rw [Function.update_of_ne hut] at hp
      have hmem := List.mem_of_getLast? hp
      obtain ⟨h₁, h₂, -⟩ := hkeep p ⟨u, hmem⟩ (helse hut hmem)
      rw [h₁, h₂]
      exact h.orphaned u p hu hp
  · by_cases hpc : p = c
    · subst hpc
      exact hdead hs a y ha
    · exact dead_keep h hc ho hp hpc (hout p hs hpc) a y ha
  · rcases stacked_update.mp hp with hmem | ⟨u, hut, hu⟩
    · exact hres p hmem y ha hf
    · exact resumable_keep h hc ho hT hi ⟨u, hu⟩ (fun _ => (hkeep p ⟨u, hu⟩ (helse hut hu)).2.2) ha hf

end Contexts
end Kernel391
