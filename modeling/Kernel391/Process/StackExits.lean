import Kernel391.Process.StackMoves

/-! The exits of the process on the processor, over the stacks. A process with a caller
below it hands its terminal back; the root shell of the first terminal starts over;
the root shell of another terminal ends its stack, or is lost when the slot it would
return to is dead. -/
namespace Kernel391
open Kernel391.Foundations
set_option autoImplicit false

/-- The exit of slot `c` into slot `q` of its terminal, up to the jump. -/
def Processes.exitTo (P : Processes) (c q : ℕ) : Processes := (P.setInfo c (Info.setActive 0)).handBack c q

/-- The exit of slot `c` to the last loop of `halt`, slot `q` displayed in place of slot `o`. -/
def Processes.exitToSpin (P : Processes) (c o q : ℕ) : Processes :=
  ((P.setInfo c (Info.setActive 0)).display o q).release c

namespace At
variable {P P₀ : Processes} {S : Stacks} {c p q t o : ℕ} {l : List ℕ} {e : Entry} {eip : ℕ}

theorem take (h : At P S c) (htop : IsTop S c) (p : ℕ) : At (P.take p) S c where
  table := h.table.take p
  contexts := h.contexts.congr rfl rfl
  shown := h.shown.congr rfl
  running := by
    refine ⟨⟨h.lt, h.onSlot.current, h.onSlot.esp0⟩, Or.inl ⟨htop, ?_⟩⟩
    rcases h.running.2 with hi | ⟨-, -, hs, -⟩
    · exact hi.2
    · exact absurd htop.stacked hs

theorem entered_take (he : Entered P c P.cpu P₀) (p : ℕ) : Entered (P.take p) c P.cpu (P₀.take p) where
  ids := by
    show Function.update P₀.ids p 1 = Function.update P.ids p 1
    rw [he.ids]
  info := he.info
  fixed := he.fixed
  esp0 := he.esp0
  there := he.there
  here := he.here

variable (h : At P S c) (he : Entered P c P.cpu P₀)
include h he

/-- **`halt`** into the caller below pops the slot; the caller continues after its system call, where
`execute` returns 0. -/
theorem pop (hS : S t = c :: q :: l) (status : ℕ) :
    ∃ y, P.frames (P.info c).haltEbp = .setupExecStack y ∧
      (P₀.exitTo c q).haltProcess status (P.info c).haltEbp = (P₀.exitTo c q).resume { y with eax := 0 } ∧
      At ((P₀.exitTo c q).resume { y with eax := 0 }) (Function.update S t (q :: l)) q := by
  have hT := h.table_entered he
  have hc : c ∈ S t := by
    rw [hS]
    exact List.mem_cons_self ..
  have hmem : ∀ {r}, r ∈ q :: l → r ∈ S t := fun hr => by
    rw [hS]
    exact List.mem_cons_of_mem c hr
  have hq : q ∈ S t := hmem (List.mem_cons_self ..)
  have hnd := h.table.apart.nodup t
  rw [hS] at hnd
  have hnc : c ∉ q :: l := (List.nodup_cons.mp hnd).1
  have hcq : c ≠ q := fun hx => hnc (hx ▸ List.mem_cons_self ..)
  have hqlt := (h.table.lt t q hq).2
  have hcinfo : (P₀.exitTo c q).info c = ((P.info c).setActive 0).setOnscreen 0 := by
    rw [← he.info]
    exact (P₀.handBack_info hcq).trans (if_pos rfl)
  have hqinfo : (P₀.exitTo c q).info q = ((P.info q).setActive 1).setOnscreen (P.info c).isOnscreen := by
    rw [← he.info]
    exact (P₀.handBack_info hcq).trans ((if_neg hcq.symm).trans (if_pos rfl))
  have hinfo : ∀ r, r ≠ c → r ≠ q → (P₀.exitTo c q).info r = P.info r := by
    intro r hrc hrq
    rw [← he.info]
    exact (P₀.handBack_info hcq).trans ((if_neg hrc).trans (if_neg hrq))
  have hflag : ∀ r, (P.info r).Flagged ((P₀.exitTo c q).info r) := by
    intro r
    by_cases hrc : r = c
    · rw [hrc, hcinfo]
      exact ⟨0, 0, rfl⟩
    by_cases hrq : r = q
    · rw [hrq, hqinfo]
      exact ⟨1, _, rfl⟩
    rw [hinfo r hrc hrq]
    exact Info.Flagged.refl _
  have hkept : ∀ r, ((P₀.exitTo c q).info r).haltEbp = (P.info r).haltEbp ∧
      ((P₀.exitTo c q).info r).parent = (P.info r).parent ∧
      ((P₀.exitTo c q).info r).scheduleEbp = (P.info r).scheduleEbp ∧
      ((P₀.exitTo c q).info r).fakePageAddr = (P.info r).fakePageAddr ∧
      ((P₀.exitTo c q).info r).esp0 = (P.info r).esp0 := by
    intro r
    obtain ⟨x, y, hxy⟩ := hflag r
    rw [hxy]
    exact ⟨rfl, rfl, rfl, rfl, rfl⟩
  have hesp0 : (P₀.exitTo c q).esp0 = stackTop q := by
    show (((((P₀.setInfo c (Info.setActive 0)).setInfo q (Info.setActive 1)).setInfo q (Info.setOnscreen _)).setInfo c
      (Info.setOnscreen 0)).info q).esp0 = stackTop q
    rw [Processes.setInfo_field _ Info.esp0 _ _ (Info.setOnscreen 0) fun _ => rfl,
      Processes.setInfo_field _ Info.esp0 _ _ (Info.setOnscreen _) fun _ => rfl,
      Processes.setInfo_field _ Info.esp0 _ _ (Info.setActive 1) fun _ => rfl,
      Processes.setInfo_field _ Info.esp0 _ _ (Info.setActive 0) fun _ => rfl, he.info]
    exact (h.table.slot t q hq).esp0
  have hstacked : ∀ {r}, Stacked (Function.update S t (q :: l)) r ↔ Stacked S r ∧ r ≠ c := h.table.apart.stacked_pop hS
  have htops : ∀ {r}, IsTop (Function.update S t (q :: l)) r ↔ r = q ∨ IsTop S r ∧ r ≠ c :=
    h.table.apart.isTop_replace hS
  -- The frame the child names is on the stack of its caller, which was not entered.
  have hsuspended := h.contexts.suspended t
  rw [hS, List.isChain_cons_cons] at hsuspended
  obtain ⟨⟨hptr, y, hy⟩, hchain⟩ := hsuspended
  have hframe : (P₀.exitTo c q).frames (P.info c).haltEbp = .setupExecStack y := by
    refine (he.there _ ?_).trans hy
    rw [hptr]
    exact ptr_ne hqlt h.lt hcq.symm
  refine ⟨y, hy, ?_, ?_⟩
  · unfold Processes.haltProcess
    rw [hframe]
  · have htable : Table (P₀.exitTo c q) (Function.update S t (q :: l)) := hT.pop hS
    refine ⟨htable.congr rfl rfl rfl, ?_, ⟨fun r hr hon => ?_, fun r hr hon => ?_, ?_⟩, ?_⟩
    · have ho : Overwrites P.frames ((P₀.exitTo c q).resume { y with eax := 0 }).frames c P.cpu := he.overwrites
      refine h.contexts.update h.table h.lt h.idle ho (fun r _ _ => ⟨(hkept r).1, (hkept r).2.1, (hkept r).2.2.1⟩) ?_
        (fun ht r hr => ?_) (fun r hr y ha hf => ?_) (fun r hr hrc hs => hr (hstacked.mpr ⟨hs, hrc⟩))
        fun _ a y ha => he.no_setupExecStack ha y
      · refine hchain.imp_of_mem_tail_imp fun a b ha hb hab => ?_
        refine Contexts.suspended_keep h.lt ho h.table h.idle ⟨t, hmem (List.mem_of_mem_tail hb)⟩ ?_ (hkept a).1 hab
        refine h.table.apart.not_isTop hS (List.mem_of_mem_tail hb)
      · have hlast : (S t).getLast? = some r := by rwa [hS, List.getLast?_cons_cons]
        obtain ⟨z, hz, h₁, h₂⟩ := h.contexts.orphaned t r ht hlast
        exact ⟨z, hz, (hkept r).2.1.trans h₁, (congrArg getPcb (hkept r).1).trans h₂⟩
      · exact Contexts.resumable_keep h.contexts h.lt ho h.table h.idle ⟨t, hmem hr⟩ (fun _ => (hkept r).2.2.1) ha hf
    · show ∃ t < 3, ((P₀.exitTo c q).info r).fakePageAddr = fakePage t
      rw [(hkept r).2.2.2.1]
      by_cases hrq : r = q
      · rw [hrq]
        exact ⟨t, (h.table.lt t q hq).1, (h.table.slot t q hq).fakePageAddr⟩
      by_cases hrc : r = c
      · have hon' : ((P₀.exitTo c q).info r).isOnscreen ≠ 0 := hon
        rw [hrc, hcinfo] at hon'
        exact absurd rfl hon'
      · have hon' : ((P₀.exitTo c q).info r).isOnscreen ≠ 0 := hon
        rw [hinfo r hrc hrq] at hon'
        exact h.shown.page r hr hon'
    · have hon' : ((P₀.exitTo c q).info r).isOnscreen ≠ 0 := hon
      rw [htops]
      by_cases hrq : r = q
      · exact Or.inl hrq
      obtain ⟨hs, hrc⟩ := hstacked.mp hr
      rw [hinfo r hrc hrq] at hon'
      exact Or.inr ⟨h.shown.top r hs hon', hrc⟩
    · obtain ⟨r, hr, hon⟩ := h.shown.some
      show ∃ p, IsTop (Function.update S t (q :: l)) p ∧ ((P₀.exitTo c q).info p).isOnscreen ≠ 0
      by_cases hrc : r = c
      · refine ⟨q, htops.mpr (Or.inl rfl), ?_⟩
        rw [hqinfo]
        rwa [hrc] at hon
      · have hrq : r ≠ q := by
          rintro rfl
          exact h.table.apart.not_isTop hS (List.mem_cons_self ..) hr
        refine ⟨r, htops.mpr (Or.inr ⟨hr, hrc⟩), ?_⟩
        rwa [hinfo r hrc hrq]
    · have hres : Resumable q ((P₀.exitTo c q).resume { y with eax := 0 }).cpu :=
        Or.inl (h.contexts.callers _ y (by rw [hptr]; exact ptr_ne hqlt h.lt hcq.symm) (Or.inr hy))
      exact ⟨onSlot_of_resumable hqlt hres (Or.inr hesp0), Or.inl ⟨htops.mpr (Or.inl rfl), hres⟩⟩

/-- **The exit of a root shell** of terminal 1 or 2 ends its stack; the processor spins in its slot. -/
theorem close (hS : S t = [c]) (ht : t ≠ 0) (hq : IsTop S q) (hqc : q ≠ c) {y : Cpu} (hm : y.mode = .spin)
    (hin : getPcb y.esp = getPcbPtr c) (hesp : getPcb (y.esp - 4) = getPcbPtr c) :
    At ((P₀.exitToSpin c o q).resume y) (Function.update S t []) c := by
  have hT := h.table_entered he
  have hc : c ∈ S t := by
    rw [hS]
    exact List.mem_cons_self ..
  have hkept : ∀ {α : Type} (field : Info → α), (∀ i b, field (i.setOnscreen b) = field i) →
      (∀ i, field (i.setActive 0) = field i) → ∀ r, field ((P₀.exitToSpin c o q).info r) = field (P.info r) := by
    intro α field hon hact r
    show field (((P₀.setInfo c (Info.setActive 0)).display o q).info r) = field (P.info r)
    rw [display_field field hon, Processes.setInfo_field P₀ field c r (Info.setActive 0) hact, he.info]
  have hstacked : ∀ {r}, Stacked (Function.update S t []) r ↔ Stacked S r ∧ r ≠ c := h.table.apart.stacked_pop hS
  have htops : ∀ {r}, IsTop (Function.update S t []) r ↔ IsTop S r ∧ r ≠ c := h.table.apart.isTop_close hS
  have hflag : ∀ r, r ≠ q → ((P₀.exitToSpin c o q).info r).isOnscreen ≠ 0 → (P.info r).isOnscreen ≠ 0 := by
    intro r hrq hon
    have hon' : (((P₀.setInfo c (Info.setActive 0)).display o q).info r).isOnscreen ≠ 0 := hon
    rw [(P₀.setInfo c (Info.setActive 0)).display_info, if_neg hrq] at hon'
    split at hon'
    · exact absurd rfl hon'
    · rwa [Processes.setInfo_field P₀ Info.isOnscreen c r (Info.setActive 0) fun _ => rfl, he.info] at hon'
  have hids : (P₀.exitToSpin c o q).ids c = 0 := Function.update_self _ _ _
  have hclosed : Table (P₀.exitToSpin c o q) (Function.update S t []) := hT.close hS ht o hq
  refine ⟨hclosed.congr rfl rfl rfl, ?_, ⟨fun r hr hon => ?_, fun r hr hon => ?_, q, htops.mpr ⟨hq, hqc⟩, ?_⟩, ?_⟩
  · have ho : Overwrites P.frames ((P₀.exitToSpin c o q).resume y).frames c P.cpu := he.overwrites
    refine h.contexts.update h.table h.lt h.idle ho (fun r _ _ => ?_) List.isChain_nil (fun _ r hr => by cases hr)
      (fun r hr => absurd hr List.not_mem_nil) (fun r hr hrc hs => hr (hstacked.mpr ⟨hs, hrc⟩))
      fun _ a y ha => he.no_setupExecStack ha y
    exact ⟨hkept Info.haltEbp (fun _ _ => rfl) (fun _ => rfl) r, hkept Info.parent (fun _ _ => rfl) (fun _ => rfl) r,
      hkept Info.scheduleEbp (fun _ _ => rfl) (fun _ => rfl) r⟩
  · show ∃ t < 3, ((P₀.exitToSpin c o q).info r).fakePageAddr = fakePage t
    rw [hkept Info.fakePageAddr (fun _ _ => rfl) (fun _ => rfl) r]
    by_cases hrq : r = q
    · obtain ⟨u, hu⟩ := hq.stacked
      rw [hrq]
      exact ⟨u, (h.table.lt u q hu).1, (h.table.slot u q hu).fakePageAddr⟩
    · exact h.shown.page r hr (hflag r hrq hon)
  · rw [htops]
    obtain ⟨hs, hrc⟩ := hstacked.mp hr
    refine ⟨?_, hrc⟩
    by_cases hrq : r = q
    · rwa [hrq]
    · exact h.shown.top r hs (hflag r hrq hon)
  · show (((P₀.setInfo c (Info.setActive 0)).display o q).info q).isOnscreen ≠ 0
    rw [(P₀.setInfo c (Info.setActive 0)).display_info, if_pos rfl]
    exact Nat.one_ne_zero
  · have hcur : ((P₀.exitToSpin c o q).resume y).current = getPcbPtr c := by
      unfold Processes.current Processes.entryEsp Processes.resume
      simp only [hm]
      exact hesp
    have hesp0 : ((P₀.exitToSpin c o q).resume y).esp0 = P.esp0 := he.esp0
    refine ⟨⟨h.lt, hcur, ?_⟩, Or.inr ⟨hm, hin, fun hs => (hstacked.mp hs).2 rfl, hids⟩⟩
    rw [hesp0]
    exact h.onSlot.esp0

/-- **The exit of the first shell** starts it again in its slot. -/
theorem restart (hS : S 0 = [c]) (hent : EntryOn c e) (hm : P.cpu.mode = .user) :
    At ((P₀.release c).start e P.cpu eip) S c := by
  have hc0 : c = 0 := by
    have hfirst := h.table.first
    rw [hS, List.getLast?_singleton, Option.some.injEq] at hfirst
    exact hfirst
  subst hc0
  have hT := h.table_entered he
  have hself : Function.update S 0 [0] = S := by
    rw [← hS]
    exact Function.update_eq_self 0 S
  have htop : IsTop S 0 := isTop_of_cons hS
  have hinfo : ∀ r, r ≠ 0 → ((P₀.release 0).start e P.cpu eip).info r = P.info r := by
    intro r hr
    rw [(P₀.release 0).start_info, if_neg hr, ← he.info]
    rfl
  have hzero : ((P₀.release 0).start e P.cpu eip).info 0 = Info.root 0 0 0 e := by
    rw [(P₀.release 0).start_info, if_pos rfl]
  have hframes := launch_overwrites he hent hm rfl rfl
  have ho : Overwrites P.frames ((P₀.release 0).start e P.cpu eip).frames 0 P.cpu := hframes
  have hcontexts : Contexts ((P₀.release 0).start e P.cpu eip) (Function.update S 0 [0]) 0 := by
    refine h.contexts.update h.table h.lt h.idle ho (fun r _ hrt => ?_) (List.isChain_singleton 0)
      (fun ht => absurd rfl ht) (fun r hr y ha hf => ?_) (fun r hr _ hs => hr (by rwa [hself])) fun hx => ?_
    · rw [hinfo r fun hx => hrt (by rw [hx, hS]; exact List.mem_cons_self ..)]
      exact ⟨rfl, rfl, rfl⟩
    · rw [List.mem_singleton.mp hr, hzero] at hf
      have hne : e.regs.ebp ≠ e.frame := by
        have := hent.order
        omega
      have hframe : ((P₀.release 0).start e P.cpu eip).frames e.regs.ebp = .execute P.cpu :=
        (Function.update_of_ne hne _ _).trans (Function.update_self _ _ _)
      cases hframe.symm.trans hf
    · rw [hself] at hx
      exact absurd htop.stacked hx
  rw [hself] at hcontexts
  refine ⟨hT.restart hS, hcontexts, ⟨fun r hr hon => ?_, fun r hr hon => ?_, 0, htop, ?_⟩, ?_⟩
  · by_cases hr0 : r = 0
    · rw [hr0, hzero]
      exact ⟨0, by decide, rfl⟩
    · rw [hinfo r hr0] at hon ⊢
      exact h.shown.page r hr hon
  · by_cases hr0 : r = 0
    · rwa [hr0]
    · rw [hinfo r hr0] at hon
      exact h.shown.top r hr hon
  · rw [hzero]
    exact Nat.one_ne_zero
  · have hres : Resumable 0 ((P₀.release 0).start e P.cpu eip).cpu := Or.inl rfl
    exact ⟨onSlot_of_resumable h.lt hres (Or.inl rfl), Or.inl ⟨htop, hres⟩⟩

/-- **The exit of a root shell into a dead slot**, or into itself, goes through a frame that is gone. -/
theorem lost (hS : S t = [c]) (ht : t ≠ 0) (hq : q < maxProcesses) (hpar : (P.info c).parent = getPcbPtr q)
    (hterm : (P.info q).terminalNum = t) (status : ℕ) :
    ((P₀.exitTo c q).haltProcess status (P.info c).haltEbp).cpu.mode = .wild := by
  obtain ⟨y, hy, hparent, hptr⟩ := h.contexts.orphaned t c ht (by rw [hS]; rfl)
  obtain rfl : y = q := (getPcbPtr_inj hy hq).mp (hparent.symm.trans hpar)
  have hnone : ∀ x, P₀.frames (P.info c).haltEbp ≠ .setupExecStack x := by
    intro x
    by_cases hyc : y = c
    · exact he.no_setupExecStack (by rw [hptr, hyc]) x
    · have hns : ¬ Stacked S y := by
        intro hs
        have hmem := h.table.mem_terminal hs
        rw [hterm, hS] at hmem
        exact hyc (List.mem_singleton.mp hmem)
      rw [he.there _ (by rw [hptr]; exact ptr_ne hy h.lt hyc)]
      exact h.contexts.dead y hy hns _ x hptr
  have hframes : (P₀.exitTo c y).frames = P₀.frames := rfl
  unfold Processes.haltProcess
  rw [hframes]
  cases hf : P₀.frames (P.info c).haltEbp with
  | setupExecStack x => exact absurd hf (hnone x)
  | _ => rfl

end At
end Kernel391
