import Kernel391.Foundations.Stacks
import Kernel391.Process.Transitions

/-! The process table as three stacks, one for each terminal: on top the process that
is scheduled, below it the processes suspended in `execute`, at the bottom the root
shell. The table represents such stacks when every PCB says what its place says. -/
namespace Kernel391
open Kernel391.Foundations
set_option autoImplicit false

/-- The stacks, terminal by terminal, the top first. -/
abbrev Stacks : Type := ℕ → List ℕ

/-- What the PCB of a slot on the stack of terminal `t` says. -/
structure SlotOf (P : Processes) (t p : ℕ) : Prop where
  used : P.inUse p
  processId : (P.info p).processId = p
  terminalNum : (P.info p).terminalNum = t
  fakePageAddr : (P.info p).fakePageAddr = fakePage t
  esp0 : (P.info p).esp0 = stackTop p

structure Table (P : Processes) (S : Stacks) : Prop where
  apart : Apart S
  lt : ∀ t p, p ∈ S t → t < 3 ∧ p < maxProcesses
  first : (S 0).getLast? = some 0
  slot : ∀ t p, p ∈ S t → SlotOf P t p
  numbered : P.Numbered
  active : ∀ p < maxProcesses, IsTop S p → (P.info p).isActive = 1
  idle : ∀ p < maxProcesses, ¬ IsTop S p → (P.info p).isActive = 0
  calls : ∀ t, (S t).IsChain fun p q => (P.info p).parent = getPcbPtr q
  root : (P.info 0).parent = 0
  roots : ∀ t p, t ≠ 0 → (S t).getLast? = some p → ∃ y < maxProcesses, (P.info p).parent = getPcbPtr y
  fixed : FixedMap P.fixed.directory P.fixed.table

/-- Two PCBs that differ in the saved context and the screen flag at most. -/
structure Info.Alike (i j : Info) : Prop where
  processId : j.processId = i.processId
  isActive : j.isActive = i.isActive
  parent : j.parent = i.parent
  terminalNum : j.terminalNum = i.terminalNum
  fakePageAddr : j.fakePageAddr = i.fakePageAddr
  esp0 : j.esp0 = i.esp0
  haltEbp : j.haltEbp = i.haltEbp

/-- Two PCBs that differ in the two flags at most. -/
def Info.Flagged (i j : Info) : Prop := ∃ a o, j = (i.setActive a).setOnscreen o

theorem Info.Flagged.refl (i : Info) : i.Flagged i := ⟨i.isActive, i.isOnscreen, rfl⟩

theorem Info.Flagged.parent {i j : Info} (h : i.Flagged j) : j.parent = i.parent := by
  obtain ⟨a, o, rfl⟩ := h
  rfl

theorem SlotOf.flagged {P P' : Processes} {t p : ℕ} (h : SlotOf P t p) (hu : P'.inUse p)
    (hf : (P.info p).Flagged (P'.info p)) : SlotOf P' t p := by
  obtain ⟨a, o, hi⟩ := hf
  exact ⟨hu, by rw [hi]; exact h.processId, by rw [hi]; exact h.terminalNum, by rw [hi]; exact h.fakePageAddr,
    by rw [hi]; exact h.esp0⟩

theorem Info.Alike.refl (i : Info) : i.Alike i := ⟨rfl, rfl, rfl, rfl, rfl, rfl, rfl⟩

/-! ## Places -/

namespace Table
variable {P : Processes} {S : Stacks} (h : Table P S) {t p q : ℕ} {l : List ℕ}
include h

theorem slot_lt (hp : Stacked S p) : p < maxProcesses := by
  obtain ⟨t, ht⟩ := hp
  exact (h.lt t p ht).2

theorem used (hp : Stacked S p) : P.inUse p := by
  obtain ⟨t, ht⟩ := hp
  exact (h.slot t p ht).used

theorem processId (hp : Stacked S p) : (P.info p).processId = p := by
  obtain ⟨t, ht⟩ := hp
  exact (h.slot t p ht).processId

theorem mem_terminal (hp : Stacked S p) : p ∈ S (P.info p).terminalNum := by
  obtain ⟨t, ht⟩ := hp
  rwa [(h.slot t p ht).terminalNum]

theorem isTop_of_active (hp : p < maxProcesses) (ha : (P.info p).isActive ≠ 0) : IsTop S p := by
  by_contra ht
  exact ha (h.idle p hp ht)

theorem zero_stacked : Stacked S 0 := ⟨0, List.mem_of_getLast? h.first⟩

theorem first_cons : ∃ p l, S 0 = p :: l := by
  cases hS : S 0 with
  | nil =>
    have := h.first
    rw [hS] at this
    cases this
  | cons p l => exact ⟨p, l, rfl⟩

theorem firstFree (hp : P.FirstFree p) : ¬ Stacked S p := fun hs => h.used hs hp.free

theorem firstFree_ne_zero (hp : P.FirstFree p) : p ≠ 0 := by
  rintro rfl
  exact h.firstFree hp h.zero_stacked

theorem findTerminalPid_some (hf : P.findTerminalPid t = some p) : p < maxProcesses ∧ ∃ l, S t = p :: l := by
  have hp := List.mem_range.mp (List.mem_of_find?_eq_some hf)
  have hs := List.find?_some hf
  simp only [decide_eq_true_eq] at hs
  have htop := h.isTop_of_active hp hs.2.1
  have hmem := h.mem_terminal htop.stacked
  rw [hs.2.2] at hmem
  exact ⟨hp, h.apart.top_of_mem htop hmem⟩

theorem findTerminalPid_none (hf : P.findTerminalPid t = none) : S t = [] := by
  cases hS : S t with
  | nil => rfl
  | cons p l =>
    have hmem : p ∈ S t := by
      rw [hS]
      exact List.mem_cons_self ..
    have hslot := h.slot t p hmem
    have hlt := (h.lt t p hmem).2
    unfold Processes.findTerminalPid at hf
    rw [List.find?_eq_none] at hf
    refine absurd (decide_eq_true ?_) (hf p (List.mem_range.mpr hlt))
    rw [hslot.processId, h.active p hlt (isTop_of_cons hS)]
    exact ⟨hslot.used, by decide, hslot.terminalNum⟩

theorem findTerminalPid_eq (hS : S t = p :: l) : P.findTerminalPid t = some p := by
  cases hf : P.findTerminalPid t with
  | none =>
    rw [h.findTerminalPid_none hf] at hS
    cases hS
  | some q =>
    obtain ⟨-, l', hq⟩ := h.findTerminalPid_some hf
    rw [hS] at hq
    rw [(List.cons.inj hq).1]

/-! ## Operations -/

theorem alike {P' : Processes} (hids : ∀ p, Stacked S p → P'.inUse p) (hn : P'.Numbered)
    (hinfo : ∀ p, (P.info p).Alike (P'.info p)) (hfixed : P'.fixed = P.fixed) : Table P' S where
  apart := h.apart
  lt := h.lt
  first := h.first
  slot t p hp := by
    have hs := h.slot t p hp
    have hi := hinfo p
    exact ⟨hids p ⟨t, hp⟩, hi.processId.trans hs.processId, hi.terminalNum.trans hs.terminalNum,
      hi.fakePageAddr.trans hs.fakePageAddr, hi.esp0.trans hs.esp0⟩
  numbered := hn
  active p hp ht := (hinfo p).isActive.trans (h.active p hp ht)
  idle p hp ht := (hinfo p).isActive.trans (h.idle p hp ht)
  calls t := (h.calls t).imp fun p q hpq => (hinfo p).parent.trans hpq
  root := (hinfo 0).parent.trans h.root
  roots t p ht hl := by
    rw [(hinfo p).parent]
    exact h.roots t p ht hl
  fixed := by
    rw [hfixed]
    exact h.fixed

/-- A slot taken for a program that then cannot be loaded stays outside the stacks. -/
theorem take (p : ℕ) : Table (P.take p) S := by
  refine h.alike (fun q hq => ?_) h.numbered (fun q => Info.Alike.refl _) rfl
  show Function.update P.ids p 1 q ≠ 0
  by_cases hqp : q = p
  · rw [hqp, Function.update_self]
    decide
  · rw [Function.update_of_ne hqp]
    exact h.used hq

theorem update {P' : Processes} (hnd : l.Nodup) (hl : ∀ r ∈ l, r ∈ S t ∨ ¬ Stacked S r)
    (hlt : ∀ r ∈ l, t < 3 ∧ r < maxProcesses) (hfirst : t = 0 → l.getLast? = some 0)
    (hslot : ∀ r ∈ l, SlotOf P' t r)
    (hother : ∀ r, Stacked S r → r ∉ S t → P'.inUse r ∧ (P.info r).Alike (P'.info r)) (hn : P'.Numbered)
    (htop : ∀ r < maxProcesses, r ∈ S t ∨ ¬ Stacked S r →
      (l.head? = some r → (P'.info r).isActive = 1) ∧ (l.head? ≠ some r → (P'.info r).isActive = 0))
    (hcalls : l.IsChain fun p q => (P'.info p).parent = getPcbPtr q) (hroot : (P'.info 0).parent = 0)
    (hroots : t ≠ 0 → ∀ r, l.getLast? = some r → ∃ y < maxProcesses, (P'.info r).parent = getPcbPtr y)
    (hfixed : P'.fixed = P.fixed) : Table P' (Function.update S t l) := by
  have helse : ∀ {u r}, u ≠ t → r ∈ S u → r ∉ S t := fun hut hu ht => hut (h.apart.disjoint hu ht)
  refine ⟨h.apart.update hnd hl, fun u r hr => ?_, ?_, fun u r hr => ?_, hn, fun r hr ht => ?_, fun r hr ht => ?_,
    fun u => ?_, hroot, fun u r hu hr => ?_, by rw [hfixed]; exact h.fixed⟩
  · by_cases hut : u = t
    · subst hut
      rw [Function.update_self] at hr
      exact hlt r hr
    · rw [Function.update_of_ne hut] at hr
      exact h.lt u r hr
  · by_cases h0 : t = 0
    · subst h0
      rw [Function.update_self]
      exact hfirst rfl
    · rw [Function.update_of_ne (Ne.symm h0)]
      exact h.first
  · by_cases hut : u = t
    · subst hut
      rw [Function.update_self] at hr
      exact hslot r hr
    · rw [Function.update_of_ne hut] at hr
      obtain ⟨hused, hi⟩ := hother r ⟨u, hr⟩ (helse hut hr)
      have hs := h.slot u r hr
      exact ⟨hused, hi.processId.trans hs.processId, hi.terminalNum.trans hs.terminalNum,
        hi.fakePageAddr.trans hs.fakePageAddr, hi.esp0.trans hs.esp0⟩
  · rcases isTop_update.mp ht with hh | ⟨u, hut, hh⟩
    · exact (htop r hr (hl r (List.mem_of_head? hh))).1 hh
    · have hu := List.mem_of_head? hh
      rw [(hother r ⟨u, hu⟩ (helse hut hu)).2.isActive]
      exact h.active r hr ⟨u, hh⟩
  · have hhead : l.head? ≠ some r := fun hh => ht (isTop_update.mpr (Or.inl hh))
    by_cases hs : Stacked S r
    · by_cases hmem : r ∈ S t
      · exact (htop r hr (Or.inl hmem)).2 hhead
      · rw [(hother r hs hmem).2.isActive]
        refine h.idle r hr fun hx => ht (isTop_update.mpr (Or.inr ?_))
        exact h.apart.isTop_elsewhere.mpr ⟨hx, hmem⟩
    · exact (htop r hr (Or.inr hs)).2 hhead
  · by_cases hut : u = t
    · subst hut
      rwa [Function.update_self]
    · rw [Function.update_of_ne hut]
      refine (h.calls u).imp_of_mem_tail_imp fun a b ha _ hab => ?_
      rw [(hother a ⟨u, ha⟩ (helse hut ha)).2.parent]
      exact hab
  · by_cases hut : u = t
    · subst hut
      rw [Function.update_self] at hr
      exact hroots hu r hr
    · rw [Function.update_of_ne hut] at hr
      have hmem := List.mem_of_getLast? hr
      rw [(hother r ⟨u, hmem⟩ (helse hut hmem)).2.parent]
      exact h.roots u r hu hr

end Table

/-! ## What the operations write -/

namespace Processes
variable (P : Processes) {c o p q t : ℕ} {e : Entry} {caller : Cpu} {eip : ℕ}

theorem push_info (hcp : p ≠ c) : (P.push c p e caller eip).info q =
    if q = p then (P.info c).child p (getPcbPtr c) e
    else if q = c then ((P.info c).setOnscreen 0).setActive 0
    else P.info q := by
  by_cases hqp : q = p
  · subst hqp
    rw [if_pos rfl]
    exact Function.update_self _ _ _
  · rw [if_neg hqp]
    refine (Function.update_of_ne hqp _ _).trans ?_
    by_cases hqc : q = c
    · subst hqc
      rw [if_pos rfl]
      exact Function.update_self _ _ _
    · rw [if_neg hqc]
      exact Function.update_of_ne hqc _ _

theorem display_info : (P.display o p).info q =
    if q = p then (P.info p).setOnscreen 1 else if q = o then (P.info o).setOnscreen 0 else P.info q := by
  unfold display
  by_cases hqp : q = p
  · subst hqp
    rw [if_pos rfl, setInfo_self]
    by_cases hqo : q = o
    · subst hqo
      rw [setInfo_self]
      rfl
    · rw [setInfo_ne _ hqo]
  · rw [if_neg hqp, setInfo_ne _ hqp]
    by_cases hqo : q = o
    · subst hqo
      rw [if_pos rfl, setInfo_self]
    · rw [if_neg hqo, setInfo_ne _ hqo]

theorem create_info : (P.create c o p t e eip).info q =
    if q = p then Info.root p (getPcbPtr c) t e
    else if q = c ∨ q = o then (P.info q).setOnscreen 0
    else P.info q := by
  by_cases hqp : q = p
  · subst hqp
    rw [if_pos rfl]
    exact Function.update_self _ _ _
  · rw [if_neg hqp]
    refine (Function.update_of_ne hqp _ _).trans ?_
    by_cases hqo : q = o
    · subst hqo
      rw [if_pos (Or.inr rfl)]
      refine (Function.update_self _ _ _).trans ?_
      by_cases hqc : q = c
      · subst hqc
        rw [setInfo_self]
        rfl
      · rw [setInfo_ne _ hqc]
        rfl
    · refine (Function.update_of_ne hqo _ _).trans ?_
      by_cases hqc : q = c
      · subst hqc
        rw [if_pos (Or.inl rfl)]
        exact Function.update_self _ _ _
      · rw [if_neg (fun hx => hx.elim hqc hqo)]
        exact Function.update_of_ne hqc _ _

theorem start_info : (P.start e caller eip).info q = if q = 0 then Info.root 0 0 0 e else P.info q := by
  by_cases hq : q = 0
  · rw [if_pos hq, hq]
    exact Function.update_self 0 (Info.root 0 0 0 e) P.info
  · rw [if_neg hq]
    exact Function.update_of_ne hq (Info.root 0 0 0 e) P.info

theorem handBack_info (hcp : c ≠ p) : ((P.setInfo c (Info.setActive 0)).handBack c p).info q =
    if q = c then ((P.info c).setActive 0).setOnscreen 0
    else if q = p then ((P.info p).setActive 1).setOnscreen (P.info c).isOnscreen
    else P.info q := by
  unfold handBack
  simp only [release, setEsp0]
  by_cases hqc : q = c
  · subst hqc
    rw [if_pos rfl, setInfo_self, setInfo_ne _ hcp, setInfo_ne _ hcp, setInfo_self]
  · rw [if_neg hqc, setInfo_ne _ hqc]
    by_cases hqp : q = p
    · subst hqp
      rw [if_pos rfl, setInfo_self, setInfo_self, setInfo_ne _ hqc, setInfo_ne _ hcp, setInfo_self]
      rfl
    · rw [if_neg hqp, setInfo_ne _ hqp, setInfo_ne _ hqp, setInfo_ne _ hqc]

end Processes

/-! ## The five changes of a stack -/

namespace Table
variable {P : Processes} {S : Stacks} (h : Table P S) {t c o p q : ℕ} {l : List ℕ} {e : Entry} {caller : Cpu}
  {eip : ℕ}
include h

theorem congr {P' : Processes} (hids : P'.ids = P.ids) (hinfo : P'.info = P.info) (hfixed : P'.fixed = P.fixed) :
    Table P' S := by
  refine h.alike (fun p hp => ?_) (fun p hp hf => ?_) (fun p => by rw [hinfo]; exact Info.Alike.refl _) hfixed
  · unfold Processes.inUse
    rw [hids]
    exact h.used hp
  · rw [hinfo] at hf ⊢
    exact h.numbered p hp hf

theorem inUse_take {r : ℕ} (hr : Stacked S r) : Function.update P.ids p 1 r ≠ 0 := by
  by_cases hrp : r = p
  · rw [hrp, Function.update_self]
    decide
  · rw [Function.update_of_ne hrp]
    exact h.used hr

/-- **`execute`** pushes the new slot on its caller's stack. -/
theorem push (hS : S t = c :: l) (hp : P.FirstFree p) :
    Table (P.push c p e caller eip) (Function.update S t (p :: c :: l)) := by
  have hfresh := h.firstFree hp
  have hc : c ∈ S t := by
    rw [hS]
    exact List.mem_cons_self ..
  have hmem : ∀ {r}, r ∈ c :: l → r ∈ S t := fun hr => by rwa [hS]
  have hpc : p ≠ c := fun hx => hfresh ⟨t, hx ▸ hc⟩
  have hslot := h.slot t c hc
  have hinfo : ∀ r, r ≠ p → r ≠ c → (P.push c p e caller eip).info r = P.info r := by
    intro r hrp hrc
    rw [P.push_info hpc, if_neg hrp, if_neg hrc]
  have hcinfo : (P.push c p e caller eip).info c = ((P.info c).setOnscreen 0).setActive 0 := by
    rw [P.push_info hpc, if_neg hpc.symm, if_pos rfl]
  have hpinfo : (P.push c p e caller eip).info p = (P.info c).child p (getPcbPtr c) e := by
    rw [P.push_info hpc, if_pos rfl]
  have hflag : ∀ r, r ≠ p → (P.info r).Flagged ((P.push c p e caller eip).info r) := by
    intro r hrp
    by_cases hrc : r = c
    · rw [hrc, hcinfo]
      exact ⟨0, 0, rfl⟩
    · rw [hinfo r hrp hrc]
      exact Info.Flagged.refl _
  have hne : ∀ {r}, Stacked S r → r ≠ p := fun hr hx => hfresh (hx ▸ hr)
  refine h.update ?_ ?_ ?_ ?_ ?_ ?_ ?_ ?_ ?_ ?_ ?_ rfl
  · rw [List.nodup_cons, ← hS]
    exact ⟨fun hx => hfresh ⟨t, hx⟩, h.apart.nodup t⟩
  · rintro r hr
    rcases List.mem_cons.mp hr with rfl | hr
    · exact Or.inr hfresh
    · exact Or.inl (hmem hr)
  · rintro r hr
    rcases List.mem_cons.mp hr with rfl | hr
    · exact ⟨(h.lt t c hc).1, hp.lt⟩
    · exact h.lt t r (hmem hr)
  · rintro rfl
    have hfirst := h.first
    rwa [hS] at hfirst
  · rintro r hr
    rcases List.mem_cons.mp hr with rfl | hr
    · refine ⟨?_, by rw [hpinfo]; rfl, by rw [hpinfo]; exact hslot.terminalNum,
        by rw [hpinfo]; exact hslot.fakePageAddr,
        by rw [hpinfo]; rfl⟩
      show Function.update P.ids r 1 r ≠ 0
      rw [Function.update_self]
      decide
    · exact (h.slot t r (hmem hr)).flagged (h.inUse_take ⟨t, hmem hr⟩) (hflag r (hne ⟨t, hmem hr⟩))
  · intro r hr hrt
    refine ⟨h.inUse_take hr, ?_⟩
    rw [hinfo r (hne hr) fun hx => hrt (hx ▸ hc)]
    exact Info.Alike.refl _
  · intro r hr hf
    by_cases hrp : r = p
    · rw [hrp, hpinfo]
      rfl
    by_cases hrc : r = c
    · rw [hrc, hcinfo]
      exact hslot.processId
    rw [hinfo r hrp hrc] at hf ⊢
    exact h.numbered r hr hf
  · intro r hr hrt
    rw [List.head?_cons, ne_eq, Option.some.injEq]
    refine ⟨?_, fun hrp => ?_⟩
    · rintro rfl
      rw [hpinfo]
      exact h.active c (h.lt t c hc).2 (isTop_of_cons hS)
    · by_cases hrc : r = c
      · rw [hrc, hcinfo]
        rfl
      · rw [hinfo r (Ne.symm hrp) hrc]
        refine h.idle r hr fun htop => ?_
        rcases hrt with hrt | hrt
        · obtain ⟨l', hl'⟩ := h.apart.top_of_mem htop hrt
          rw [hS] at hl'
          exact hrc (List.cons.inj hl').1.symm
        · exact hrt htop.stacked
  · rw [List.isChain_cons_cons]
    refine ⟨by rw [hpinfo]; rfl, ?_⟩
    have hcalls := h.calls t
    rw [hS] at hcalls
    refine hcalls.imp_of_mem_imp fun a b ha _ hab => ?_
    rw [(hflag a (hne ⟨t, hmem ha⟩)).parent]
    exact hab
  · rw [(hflag 0 (h.firstFree_ne_zero hp).symm).parent]
    exact h.root
  · intro ht r hr
    rw [List.getLast?_cons_cons, ← hS] at hr
    rw [(hflag r (hne ⟨t, List.mem_of_getLast? hr⟩)).parent]
    exact h.roots t r ht hr

/-- **`halt`** into the caller pops the halted slot. -/
theorem pop (hS : S t = c :: q :: l) :
    Table ((P.setInfo c (Info.setActive 0)).handBack c q) (Function.update S t (q :: l)) := by
  have hc : c ∈ S t := by
    rw [hS]
    exact List.mem_cons_self ..
  have hmem : ∀ {r}, r ∈ q :: l → r ∈ S t := fun hr => by
    rw [hS]
    exact List.mem_cons_of_mem c hr
  have hq : q ∈ S t := hmem (List.mem_cons_self ..)
  have hnd := h.apart.nodup t
  rw [hS] at hnd
  have hnc : c ∉ q :: l := (List.nodup_cons.mp hnd).1
  have hcq : c ≠ q := fun hx => hnc (hx ▸ List.mem_cons_self ..)
  have hids : ((P.setInfo c (Info.setActive 0)).handBack c q).ids = Function.update P.ids c 0 := by
    have hid : (((((P.setInfo c (Info.setActive 0)).setInfo q (Info.setActive 1)).setInfo q
        (Info.setOnscreen
          (((P.setInfo c (Info.setActive 0)).setInfo q (Info.setActive 1)).info c).isOnscreen)).setInfo c
        (Info.setOnscreen 0)).info c).processId = c := by
      rw [Processes.setInfo_self, Processes.setInfo_ne _ hcq, Processes.setInfo_ne _ hcq, Processes.setInfo_self]
      exact (h.slot t c hc).processId
    unfold Processes.handBack
    simp only [Processes.setEsp0, Processes.release, hid]
    rfl
  have hused : ∀ {r}, Stacked S r → r ≠ c → ((P.setInfo c (Info.setActive 0)).handBack c q).inUse r := by
    intro r hr hrc
    unfold Processes.inUse
    rw [hids, Function.update_of_ne hrc]
    exact h.used hr
  have hcinfo : ((P.setInfo c (Info.setActive 0)).handBack c q).info c =
      ((P.info c).setActive 0).setOnscreen 0 := by rw [P.handBack_info hcq, if_pos rfl]
  have hqinfo : ((P.setInfo c (Info.setActive 0)).handBack c q).info q =
      ((P.info q).setActive 1).setOnscreen (P.info c).isOnscreen := by
    rw [P.handBack_info hcq, if_neg hcq.symm, if_pos rfl]
  have hinfo : ∀ r, r ≠ c → r ≠ q → ((P.setInfo c (Info.setActive 0)).handBack c q).info r = P.info r := by
    intro r hrc hrq
    rw [P.handBack_info hcq, if_neg hrc, if_neg hrq]
  have hflag : ∀ r, (P.info r).Flagged (((P.setInfo c (Info.setActive 0)).handBack c q).info r) := by
    intro r
    by_cases hrc : r = c
    · rw [hrc, hcinfo]
      exact ⟨0, 0, rfl⟩
    by_cases hrq : r = q
    · rw [hrq, hqinfo]
      exact ⟨1, _, rfl⟩
    rw [hinfo r hrc hrq]
    exact Info.Flagged.refl _
  refine h.update (List.nodup_cons.mp hnd).2 (fun r hr => Or.inl (hmem hr)) (fun r hr => h.lt t r (hmem hr)) ?_ ?_ ?_ ?_
    ?_ ?_ ?_ ?_ ?_
  · rintro rfl
    have hfirst := h.first
    rwa [hS, List.getLast?_cons_cons] at hfirst
  · intro r hr
    have hrc : r ≠ c := fun hx => hnc (hx ▸ hr)
    exact (h.slot t r (hmem hr)).flagged (hused ⟨t, hmem hr⟩ hrc) (hflag r)
  · intro r hr hrt
    have hrc : r ≠ c := fun hx => hrt (hx ▸ hc)
    refine ⟨hused hr hrc, ?_⟩
    rw [hinfo r hrc fun hx => hrt (hx ▸ hq)]
    exact Info.Alike.refl _
  · intro r hr hf
    by_cases hrc : r = c
    · rw [hrc, hcinfo]
      exact (h.slot t c hc).processId
    by_cases hrq : r = q
    · rw [hrq, hqinfo]
      exact (h.slot t q hq).processId
    rw [hinfo r hrc hrq] at hf ⊢
    exact h.numbered r hr hf
  · intro r hr hrt
    rw [List.head?_cons, ne_eq, Option.some.injEq]
    refine ⟨?_, fun hrq => ?_⟩
    · rintro rfl
      rw [hqinfo]
      rfl
    · by_cases hrc : r = c
      · rw [hrc, hcinfo]
        rfl
      · rw [hinfo r hrc (Ne.symm hrq)]
        refine h.idle r hr fun htop => ?_
        rcases hrt with hrt | hrt
        · obtain ⟨l', hl'⟩ := h.apart.top_of_mem htop hrt
          rw [hS] at hl'
          exact hrc (List.cons.inj hl').1.symm
        · exact hrt htop.stacked
  · have hcalls := h.calls t
    rw [hS, List.isChain_cons_cons] at hcalls
    refine hcalls.2.imp fun a b hab => ?_
    rw [(hflag a).parent]
    exact hab
  · rw [(hflag 0).parent]
    exact h.root
  · intro ht r hr
    rw [(hflag r).parent]
    refine h.roots t r ht ?_
    rwa [hS, List.getLast?_cons_cons]
  · rfl

theorem display (o : ℕ) (hq : IsTop S q) : Table (P.display o q) S := by
  have hinfo : ∀ r, ∃ f, (P.display o q).info r = (P.info r).setOnscreen f := by
    intro r
    rw [P.display_info]
    split
    · next hrq => exact ⟨1, by rw [hrq]⟩
    · split
      · next hro => exact ⟨0, by rw [hro]⟩
      · exact ⟨_, rfl⟩
  refine h.alike (fun r hr => h.used hr) (fun r hr hf => ?_) (fun r => ?_) rfl
  · have hid : ((P.display o q).info r).processId = (P.info r).processId := by
      obtain ⟨f, hf⟩ := hinfo r
      rw [hf]
      rfl
    rw [hid]
    by_cases hrq : r = q
    · rw [hrq]
      exact h.processId hq.stacked
    · rw [P.display_info, if_neg hrq] at hf
      by_cases hro : r = o
      · subst hro
        rw [if_pos rfl] at hf
        exact h.numbered r hr (Or.inl (hf.resolve_right (fun hx => hx rfl)))
      · rw [if_neg hro] at hf
        exact h.numbered r hr hf
  · obtain ⟨f, hf⟩ := hinfo r
    rw [hf]
    exact ⟨rfl, rfl, rfl, rfl, rfl, rfl, rfl⟩

theorem save (c : ℕ) (r : Regs) : Table (P.setInfo c (Info.saveRegs r)) S := by
  have hinfo : ∀ q, ∃ j, (P.setInfo c (Info.saveRegs r)).info q = (P.info q).saveRegs j := by
    intro q
    by_cases hqc : q = c
    · rw [hqc, Processes.setInfo_self]
      exact ⟨r, rfl⟩
    · rw [Processes.setInfo_ne _ hqc]
      exact ⟨⟨(P.info q).scheduleEbp, (P.info q).scheduleEsp⟩, rfl⟩
  refine h.alike (fun q hq => h.used hq) (fun q hq hf => ?_) (fun q => ?_) rfl
  · obtain ⟨j, hj⟩ := hinfo q
    rw [hj] at hf ⊢
    exact h.numbered q hq hf
  · obtain ⟨j, hj⟩ := hinfo q
    rw [hj]
    exact ⟨rfl, rfl, rfl, rfl, rfl, rfl, rfl⟩

/-- **The creation of a terminal** starts its stack. -/
theorem create (hS : S t = []) (ht : t < 3) (hp : P.FirstFree p) (hc : c < maxProcesses) :
    Table (P.create c o p t e eip) (Function.update S t [p]) := by
  have hfresh := h.firstFree hp
  have ht0 : t ≠ 0 := by
    rintro rfl
    obtain ⟨q, l, hq⟩ := h.first_cons
    rw [hS] at hq
    cases hq
  have hpinfo : (P.create c o p t e eip).info p = Info.root p (getPcbPtr c) t e := by
    rw [P.create_info, if_pos rfl]
  have hinfo : ∀ r, r ≠ p → ∃ f, (P.create c o p t e eip).info r = (P.info r).setOnscreen f ∧
      (f ≠ 0 → f = (P.info r).isOnscreen) := by
    intro r hrp
    rw [P.create_info, if_neg hrp]
    split
    · exact ⟨0, rfl, fun hx => absurd rfl hx⟩
    · exact ⟨_, rfl, fun _ => rfl⟩
  have hne : ∀ {r}, Stacked S r → r ≠ p := fun hr hx => hfresh (hx ▸ hr)
  have hroot : ((P.create c o p t e eip).info p).parent = getPcbPtr c := by
    rw [hpinfo]
    rfl
  refine h.update (List.nodup_singleton p) ?_ ?_ (fun hx => absurd hx ht0) ?_ ?_ ?_ ?_
    (List.isChain_singleton p) ?_ ?_ rfl
  · intro r hr
    rw [List.mem_singleton.mp hr]
    exact Or.inr hfresh
  · intro r hr
    rw [List.mem_singleton.mp hr]
    exact ⟨ht, hp.lt⟩
  · intro r hr
    rw [List.mem_singleton.mp hr]
    refine ⟨?_, by rw [hpinfo]; rfl, by rw [hpinfo]; rfl, by rw [hpinfo]; rfl, by rw [hpinfo]; rfl⟩
    show Function.update P.ids p 1 p ≠ 0
    rw [Function.update_self]
    decide
  · intro r hr _
    refine ⟨h.inUse_take hr, ?_⟩
    obtain ⟨f, hf, -⟩ := hinfo r (hne hr)
    rw [hf]
    exact ⟨rfl, rfl, rfl, rfl, rfl, rfl, rfl⟩
  · intro r hr hflag
    by_cases hrp : r = p
    · rw [hrp, hpinfo]
      rfl
    obtain ⟨f, hf, hon⟩ := hinfo r hrp
    rw [hf] at hflag ⊢
    refine h.numbered r hr (hflag.imp_right fun hx => ?_)
    rw [← hon hx]
    exact hx
  · intro r hr hrt
    rw [List.head?_cons, ne_eq, Option.some.injEq]
    refine ⟨?_, fun hrp => ?_⟩
    · rintro rfl
      rw [hpinfo]
      rfl
    · obtain ⟨f, hf, -⟩ := hinfo r (Ne.symm hrp)
      rw [hf]
      refine h.idle r hr fun htop => ?_
      rcases hrt with hrt | hrt
      · rw [hS] at hrt
        exact absurd hrt List.not_mem_nil
      · exact hrt htop.stacked
  · obtain ⟨f, hf, -⟩ := hinfo 0 (h.firstFree_ne_zero hp).symm
    rw [hf]
    exact h.root
  · intro _ r hr
    rw [List.getLast?_singleton, Option.some.injEq] at hr
    exact ⟨c, hc, hr ▸ hroot⟩

/-- **The exit of a root shell** of terminal 1 or 2 ends its stack. -/
theorem close (hS : S t = [c]) (ht : t ≠ 0) (o : ℕ) (hq : IsTop S q) :
    Table (((P.setInfo c (Info.setActive 0)).display o q).release c) (Function.update S t []) := by
  have hc : c ∈ S t := by
    rw [hS]
    exact List.mem_cons_self ..
  have hslot := h.slot t c hc
  have hinfo : ∀ r, ∃ f, (((P.setInfo c (Info.setActive 0)).display o q).release c).info r =
      (((P.setInfo c (Info.setActive 0)).info r).setOnscreen f) ∧
      (f ≠ 0 → r = q ∨ f = (P.info r).isOnscreen) := by
    intro r
    have hon : ((P.setInfo c (Info.setActive 0)).info r).isOnscreen = (P.info r).isOnscreen :=
      Processes.setInfo_field P Info.isOnscreen c r (Info.setActive 0) fun _ => rfl
    show ∃ f, ((P.setInfo c (Info.setActive 0)).display o q).info r = _ ∧ _
    rw [(P.setInfo c (Info.setActive 0)).display_info]
    split
    · next hrq => exact ⟨1, by rw [hrq], fun _ => Or.inl hrq⟩
    · split
      · next hro => exact ⟨0, by rw [hro], fun hx => absurd rfl hx⟩
      · exact ⟨_, rfl, fun _ => Or.inr hon⟩
  have hflag : ∀ r, (P.info r).Flagged ((((P.setInfo c (Info.setActive 0)).display o q).release c).info r) := by
    intro r
    obtain ⟨f, hf, -⟩ := hinfo r
    rw [hf]
    by_cases hrc : r = c
    · rw [hrc, Processes.setInfo_self]
      exact ⟨0, f, rfl⟩
    · rw [Processes.setInfo_ne _ hrc]
      exact ⟨_, f, rfl⟩
  have hactive : ∀ r, r ≠ c →
      (((((P.setInfo c (Info.setActive 0)).display o q).release c).info r)).isActive = (P.info r).isActive := by
    intro r hrc
    obtain ⟨f, hf, -⟩ := hinfo r
    rw [hf, Processes.setInfo_ne _ hrc]
    rfl
  have hid : ∀ r, ((((P.setInfo c (Info.setActive 0)).display o q).release c).info r).processId =
      (P.info r).processId := by
    intro r
    obtain ⟨a, f, hf⟩ := hflag r
    rw [hf]
    rfl
  refine h.update List.nodup_nil (fun r hr => absurd hr List.not_mem_nil) (fun r hr => absurd hr List.not_mem_nil)
    (fun hx => absurd hx ht) (fun r hr => absurd hr List.not_mem_nil) ?_ ?_ ?_ List.isChain_nil ?_ ?_ rfl
  · intro r hr hrt
    have hrc : r ≠ c := fun hx => hrt (hx ▸ hc)
    refine ⟨?_, ?_⟩
    · show Function.update P.ids c 0 r ≠ 0
      rw [Function.update_of_ne hrc]
      exact h.used hr
    · obtain ⟨a, f, hf⟩ := hflag r
      have ha := hactive r hrc
      rw [hf] at ha ⊢
      exact ⟨rfl, ha, rfl, rfl, rfl, rfl, rfl⟩
  · intro r hr hf
    rw [hid r]
    by_cases hrq : r = q
    · rw [hrq]
      exact h.processId hq.stacked
    by_cases hrc : r = c
    · rw [hrc]
      exact hslot.processId
    rw [hactive r hrc] at hf
    refine h.numbered r hr (hf.imp_right fun hx => ?_)
    obtain ⟨f, hf', hon⟩ := hinfo r
    rw [hf'] at hx
    rw [← (hon hx).resolve_left hrq]
    exact hx
  · intro r hr hrt
    refine ⟨fun hx => absurd hx (by simp), fun _ => ?_⟩
    by_cases hrc : r = c
    · obtain ⟨f, hf, -⟩ := hinfo r
      rw [hf, hrc, Processes.setInfo_self]
      rfl
    · rw [hactive r hrc]
      refine h.idle r hr fun htop => ?_
      rcases hrt with hrt | hrt
      · rw [hS] at hrt
        exact hrc (List.mem_singleton.mp hrt)
      · exact hrt htop.stacked
  · rw [(hflag 0).parent]
    exact h.root
  · exact fun _ r hr => by cases hr

/-- **The restart of the first shell** leaves the stacks as they are. -/
theorem restart (hS : S 0 = [0]) : Table ((P.release 0).start e caller eip) S := by
  have hself : Function.update S 0 [0] = S := by
    rw [← hS]
    exact Function.update_eq_self 0 S
  have hinfo : ∀ r, r ≠ 0 → ((P.release 0).start e caller eip).info r = P.info r := by
    intro r hr
    rw [(P.release 0).start_info, if_neg hr]
    rfl
  have hzero : ((P.release 0).start e caller eip).info 0 = Info.root 0 0 0 e := by
    rw [(P.release 0).start_info, if_pos rfl]
  have hids : ((P.release 0).start e caller eip).ids = Function.update P.ids 0 1 := by
    show Function.update (Function.update P.ids 0 0) 0 1 = Function.update P.ids 0 1
    rw [Function.update_idem]
  have h0 : (0 : ℕ) ∈ S 0 := by
    rw [hS]
    exact List.mem_cons_self ..
  rw [← hself]
  refine h.update (List.nodup_singleton 0) (fun r hr => Or.inl (List.mem_singleton.mp hr ▸ h0))
    (fun r hr => h.lt 0 r (List.mem_singleton.mp hr ▸ h0)) (fun _ => rfl) ?_ ?_ ?_ ?_ (List.isChain_singleton 0) ?_
    (fun hx => absurd rfl hx) rfl
  · intro r hr
    rw [List.mem_singleton.mp hr]
    refine ⟨?_, by rw [hzero]; rfl, by rw [hzero]; rfl, by rw [hzero]; rfl, by rw [hzero]; rfl⟩
    unfold Processes.inUse
    rw [hids, Function.update_self]
    decide
  · intro r hr hrt
    have hr0 : r ≠ 0 := fun hx => hrt (hx ▸ h0)
    refine ⟨?_, by rw [hinfo r hr0]; exact Info.Alike.refl _⟩
    unfold Processes.inUse
    rw [hids, Function.update_of_ne hr0]
    exact h.used hr
  · intro r hr hf
    by_cases hr0 : r = 0
    · rw [hr0, hzero]
      rfl
    rw [hinfo r hr0] at hf ⊢
    exact h.numbered r hr hf
  · intro r hr hrt
    rw [List.head?_cons, ne_eq, Option.some.injEq]
    refine ⟨?_, fun hr0 => ?_⟩
    · rintro rfl
      rw [hzero]
      rfl
    · rw [hinfo r (Ne.symm hr0)]
      refine h.idle r hr fun htop => ?_
      rcases hrt with hrt | hrt
      · rw [hS] at hrt
        exact hr0 (List.mem_singleton.mp hrt).symm
      · exact hrt htop.stacked
  · rw [hzero]
    rfl

end Table
end Kernel391
