import Kernel391.Process.StackContexts

/-! The moves of the processor over the stacks. From a state that represents the stacks,
entered on the slot in use, every way a kernel function can end represents the stacks
of one move: nothing moved, another top resumed, a push, a pop, a stack started, a
stack ended. Only a switch to a top, or an exit to a slot that is dead, can miss. -/
namespace Kernel391
open Kernel391.Foundations
set_option autoImplicit false

/-- What is on screen: a PCB with the screen flag has one of the three pages, on the stacks only tops
have the flag, and some top has it. -/
structure Shown (P : Processes) (S : Stacks) : Prop where
  page : ∀ p < maxProcesses, (P.info p).isOnscreen ≠ 0 → ∃ t < 3, (P.info p).fakePageAddr = fakePage t
  top : ∀ p, Stacked S p → (P.info p).isOnscreen ≠ 0 → IsTop S p
  some : ∃ p, IsTop S p ∧ (P.info p).isOnscreen ≠ 0

/-- The processes are those of the stacks, and slot `c` has the processor. -/
structure At (P : Processes) (S : Stacks) (c : ℕ) : Prop where
  table : Table P S
  contexts : Contexts P S c
  shown : Shown P S
  running : Running P S c

/-! ## What the parts depend on -/

section Congr
variable {P P' : Processes} {S : Stacks} {c : ℕ}

theorem Contexts.congr (h : Contexts P S c) (hframes : P'.frames = P.frames) (hinfo : P'.info = P.info) :
    Contexts P' S c := by
  obtain ⟨h₁, h₂, h₃, h₄, h₅, h₆⟩ := h
  refine ⟨?_, ?_, ?_, ?_, ?_, ?_⟩
  all_goals
    first
      | rw [hframes, hinfo]
      | rw [hframes]
      | rw [hinfo]
    assumption

theorem Shown.congr (h : Shown P S) (hinfo : P'.info = P.info) : Shown P' S := by
  obtain ⟨h₁, h₂, h₃⟩ := h
  refine ⟨?_, ?_, ?_⟩
  all_goals
    rw [hinfo]
    assumption

theorem Shown.alike (h : Shown P S) (hinfo : ∀ p, (P'.info p).isOnscreen = (P.info p).isOnscreen ∧
    (P'.info p).fakePageAddr = (P.info p).fakePageAddr) : Shown P' S where
  page p hp ho := by
    rw [(hinfo p).2]
    rw [(hinfo p).1] at ho
    exact h.page p hp ho
  top p hp ho := by
    rw [(hinfo p).1] at ho
    exact h.top p hp ho
  some := by
    obtain ⟨p, hp, ho⟩ := h.some
    refine ⟨p, hp, ?_⟩
    rw [(hinfo p).1]
    exact ho

end Congr

namespace At
variable {P P₀ P₁ : Processes} {S : Stacks} {c : ℕ} (h : At P S c)
include h

theorem onSlot : OnSlot P c := h.running.1

theorem lt : c < maxProcesses := h.running.1.lt

theorem idle : Contexts.Idle S c P.cpu := by
  rcases h.running.2 with hi | ⟨-, -, hi, -⟩
  · exact Or.inl hi
  · exact Or.inr hi

theorem isTop (hm : P.cpu.mode ≠ .spin) : IsTop S c := by
  rcases h.running.2 with hi | ⟨hs, -⟩
  · exact hi.1
  · exact absurd hs hm

theorem table_entered (he : Entered P c P.cpu P₀) : Table P₀ S := h.table.congr he.ids he.info he.fixed

theorem contexts_entered (he : Entered P c P.cpu P₀) (d : ℕ) : Contexts P₀ S d :=
  h.contexts.still h.table h.lt h.idle he.overwrites (fun _ y ha => he.no_setupExecStack ha y)
    (fun _ => by rw [he.info])
    (fun _ => by rw [he.info]) fun _ _ => by rw [he.info]

theorem shown_entered (he : Entered P c P.cpu P₀) : Shown P₀ S := h.shown.congr he.info

theorem back (hT : Table P₁ S) (hC : Contexts P₁ S c) (hS : Shown P₁ S) (hids : P₁.ids = P.ids)
    (hesp0 : P₁.esp0 = P.esp0) : At (P₁.resume P.cpu) S c where
  table := hT.congr rfl rfl rfl
  contexts := hC.congr rfl rfl
  shown := hS.congr rfl
  running := by
    have hcur : (P₁.resume P.cpu).current = P.current := by
      unfold Processes.current Processes.entryEsp Processes.resume
      rw [hesp0]
    refine ⟨⟨h.lt, hcur.trans h.onSlot.current, ?_⟩, ?_⟩
    · show P₁.esp0 = _ ∨ P₁.esp0 = _
      rw [hesp0]
      exact h.onSlot.esp0
    · rcases h.running.2 with hi | ⟨hm, hesp, hs, hz⟩
      · exact Or.inl hi
      · refine Or.inr ⟨hm, hesp, hs, ?_⟩
        show P₁.ids c = 0
        rw [hids]
        exact hz

theorem back_to (hT : Table P₁ S) (hC : Contexts P₁ S c) (hS : Shown P₁ S) (hesp0 : P₁.esp0 = P.esp0)
    (htop : IsTop S c) {y : Cpu} (hy : Resumable c y) : At (P₁.resume y) S c where
  table := hT.congr rfl rfl rfl
  contexts := hC.congr rfl rfl
  shown := hS.congr rfl
  running := by
    refine ⟨onSlot_of_resumable h.lt hy ?_, Or.inl ⟨htop, hy⟩⟩
    show P₁.esp0 = _ ∨ P₁.esp0 = _
    rw [hesp0]
    exact h.onSlot.esp0

end At

/-! ## Another terminal displayed -/

section Display
variable {P : Processes} {S : Stacks} {c o q r : ℕ}

theorem display_field {α : Type} (field : Info → α) (hf : ∀ i b, field (i.setOnscreen b) = field i) :
    field ((P.display o q).info r) = field (P.info r) := by
  rw [P.display_info]
  split
  · next hrq => rw [hf, hrq]
  · split
    · next hro => rw [hf, hro]
    · rfl

theorem Contexts.display (h : Contexts P S c) (o q : ℕ) : Contexts (P.display o q) S c := by
  have hebp : ∀ r, ((P.display o q).info r).haltEbp = (P.info r).haltEbp := fun r =>
    display_field Info.haltEbp fun _ _ => rfl
  have hsched : ∀ r, ((P.display o q).info r).scheduleEbp = (P.info r).scheduleEbp := fun r =>
    display_field Info.scheduleEbp fun _ _ => rfl
  have hparent : ∀ r, ((P.display o q).info r).parent = (P.info r).parent := fun r =>
    display_field Info.parent fun _ _ => rfl
  refine ⟨h.inside, h.callers, fun t => ?_, fun t p ht hl => ?_, h.dead, fun p y hp ha hf => ?_⟩
  · refine (h.suspended t).imp fun a b hab => ?_
    rw [hebp a]
    exact hab
  · rw [hebp p, hparent p]
    exact h.orphaned t p ht hl
  · rw [hsched p] at ha hf
    exact h.resumable p y hp ha hf

theorem Shown.display (h : Shown P S) (hT : Table P S) (hq : IsTop S q) : Shown (P.display o q) S := by
  have hpage : ∀ r, ((P.display o q).info r).fakePageAddr = (P.info r).fakePageAddr := fun r =>
    display_field Info.fakePageAddr fun _ _ => rfl
  have hflag : ∀ r, r ≠ q → ((P.display o q).info r).isOnscreen ≠ 0 → (P.info r).isOnscreen ≠ 0 := by
    intro r hrq ho
    rw [P.display_info, if_neg hrq] at ho
    split at ho
    · exact absurd rfl ho
    · exact ho
  refine ⟨fun p hp ho => ?_, fun p hp ho => ?_, q, hq, ?_⟩
  · rw [hpage p]
    by_cases hpq : p = q
    · subst hpq
      obtain ⟨t, ht⟩ := hq.stacked
      exact ⟨t, (hT.lt t p ht).1, (hT.slot t p ht).fakePageAddr⟩
    · exact h.page p hp (hflag p hpq ho)
  · by_cases hpq : p = q
    · rwa [hpq]
    · exact h.top p hp (hflag p hpq ho)
  · rw [P.display_info, if_pos rfl]
    exact Nat.one_ne_zero

end Display

namespace At
variable {P P₀ : Processes} {S : Stacks} {c p q t o : ℕ} {l : List ℕ} {e : Entry} {eip : ℕ} (h : At P S c)
  (he : Entered P c P.cpu P₀)
include h he

/-- **A terminal switch** comes back to the code it interrupted. -/
theorem display (hq : IsTop S q) : At ((P₀.display o q).resume P.cpu) S c :=
  h.back ((h.table_entered he).display o hq) ((h.contexts_entered he c).display o q)
    ((h.shown_entered he).display (h.table_entered he) hq) he.ids he.esp0

/-! ## A tick -/

/-- **A tick** resumes the top it chooses, unless the frame at its saved EBP is gone. -/
theorem switch (hq : IsTop S q) :
    (P₀.switchTo c q e).cpu.mode = .wild ∨ At (P₀.switchTo c q e) S q := by
  have hqlt := h.table.slot_lt hq.stacked
  have hid : ((P₀.setInfo c (Info.saveRegs e.regs)).info q).processId = q := by
    rw [Processes.setInfo_field P₀ Info.processId c q (Info.saveRegs e.regs) fun _ => rfl, he.info]
    exact h.table.processId hq.stacked
  have hmod : q % 256 = q := by
    simp only [maxProcesses] at hqlt
    omega
  have hT := (h.table_entered he).save c e.regs
  have hC : Contexts (P₀.setInfo c (Info.saveRegs e.regs)) S q := by
    refine h.contexts.still h.table h.lt h.idle he.overwrites (fun _ y ha => he.no_setupExecStack ha y) (fun r => ?_)
      (fun r => ?_) fun r hr => ?_
    · rw [Processes.setInfo_field P₀ Info.haltEbp c r (Info.saveRegs e.regs) fun _ => rfl, he.info]
    · rw [Processes.setInfo_field P₀ Info.parent c r (Info.saveRegs e.regs) fun _ => rfl, he.info]
    · rw [Processes.setInfo_ne _ hr, he.info]
  have hS : Shown (P₀.setInfo c (Info.saveRegs e.regs)) S := (h.shown_entered he).alike fun r =>
    ⟨Processes.setInfo_field P₀ Info.isOnscreen c r (Info.saveRegs e.regs) fun _ => rfl,
      Processes.setInfo_field P₀ Info.fakePageAddr c r (Info.saveRegs e.regs) fun _ => rfl⟩
  have hcallers : ∀ a y, (P₀.setInfo c (Info.saveRegs e.regs)).frames a = .execute y → y.mode = .user := fun a y hf =>
    (@Contexts.frames_keep _ P₀ _ _ _ h.contexts h.lt he.overwrites).2 a y (Or.inl hf)
  unfold Processes.switchTo
  simp only [hid, hmod]
  generalize P₀.setInfo c (Info.saveRegs e.regs) = P₁ at hT hC hS hcallers
  have hat : ∀ y, Resumable q y → At ((P₁.setEsp0 (stackTop q - 4)).resume y) S q := fun y hy =>
    ⟨hT.congr rfl rfl rfl, hC.congr rfl rfl, hS.congr rfl, onSlot_of_resumable hqlt hy (Or.inl rfl), Or.inl ⟨hq, hy⟩⟩
  unfold Processes.doSchedule
  -- The frame at the saved EBP decides.
  have hframes : (P₁.setEsp0 (stackTop q - 4)).frames = P₁.frames := rfl
  rw [hframes]
  cases hf : P₁.frames (P₁.info q).scheduleEbp with
  | interrupt y =>
    simp only
    split
    · next hptr => exact Or.inr (hat y (hC.resumable q y hq.stacked hptr hf))
    · exact Or.inl rfl
  | execute y => exact Or.inr (hat _ (Or.inl (hcallers _ y hf)))
  | lost => exact Or.inl rfl
  | setupExecStack y => exact Or.inl rfl
  | switchTerminal => exact Or.inl rfl


end At

/-! ## A program started -/

section Launch
variable {P P₀ : Processes} {c : ℕ} {e : Entry} {outer inner : Frame}

theorem launch_overwrites (he : Entered P c P.cpu P₀) (hent : EntryOn c e) (hm : P.cpu.mode = .user)
    (hout : outer = .execute P.cpu) (hin : inner = .setupExecStack P.cpu) :
    Overwrites P.frames (Function.update (Function.update P₀.frames e.regs.ebp outer) e.frame inner) c P.cpu := by
  subst hout hin
  refine (he.overwrites.setFrame hent.ebp.1 hent.ebp.2 (fun y hy => by cases hy) fun y hy => ?_).setFrame hent.frame.1
    hent.frame.2 (fun y hy => by cases hy) fun y hy => ?_
  · rcases hy with hy | hy
    · cases hy
      exact hm
    · cases hy
  · rcases hy with hy | hy
    · cases hy
    · cases hy
      exact hm

theorem create_overwrites (he : Entered P c P.cpu P₀) (hent : EntryOn c e) :
    Overwrites P.frames (Function.update (Function.update P₀.frames e.regs.ebp .switchTerminal) e.frame .switchTerminal)
      c P.cpu := by
  refine (he.overwrites.setFrame hent.ebp.1 hent.ebp.2 (fun y hy => by cases hy) fun y hy => ?_).setFrame hent.frame.1
    hent.frame.2 (fun y hy => by cases hy) fun y hy => ?_
  all_goals rcases hy with hy | hy <;> cases hy

end Launch

namespace At
variable {P P₀ : Processes} {S : Stacks} {c p q t o : ℕ} {l : List ℕ} {e : Entry} {eip : ℕ} (h : At P S c)
  (he : Entered P c P.cpu P₀)
include h he

/-- **`execute`** pushes the child, which has the processor. -/
theorem push (hS : S t = c :: l) (hp : P₀.FirstFree p) (hent : EntryOn c e) (hm : P.cpu.mode = .user) :
    At (P₀.push c p e P.cpu eip) (Function.update S t (p :: c :: l)) p := by
  have hT := h.table_entered he
  have hfresh := hT.firstFree hp
  have hc : c ∈ S t := by
    rw [hS]
    exact List.mem_cons_self ..
  have hpc : p ≠ c := fun hx => hfresh ⟨t, hx ▸ hc⟩
  have hslot := h.table.slot t c hc
  have hinfo : ∀ r, r ≠ p → r ≠ c → (P₀.push c p e P.cpu eip).info r = P.info r := by
    intro r hrp hrc
    rw [P₀.push_info hpc, if_neg hrp, if_neg hrc, he.info]
  have hcinfo : (P₀.push c p e P.cpu eip).info c = ((P.info c).setOnscreen 0).setActive 0 := by
    rw [P₀.push_info hpc, if_neg hpc.symm, if_pos rfl, he.info]
  have hpinfo : (P₀.push c p e P.cpu eip).info p = (P.info c).child p (getPcbPtr c) e := by
    rw [P₀.push_info hpc, if_pos rfl, he.info]
  have hflag : ∀ r, r ≠ p → (P.info r).Flagged ((P₀.push c p e P.cpu eip).info r) := by
    intro r hrp
    by_cases hrc : r = c
    · rw [hrc, hcinfo]
      exact ⟨0, 0, rfl⟩
    · rw [hinfo r hrp hrc]
      exact Info.Flagged.refl _
  have hne : ∀ {r}, Stacked S r → r ≠ p := fun hr hx => hfresh (hx ▸ hr)
  have hframes := launch_overwrites he hent hm rfl rfl
  have ho : Overwrites P.frames (P₀.push c p e P.cpu eip).frames c P.cpu := hframes
  have hstacked : ∀ {r}, Stacked (Function.update S t (p :: c :: l)) r ↔ r = p ∨ Stacked S r :=
    h.table.apart.stacked_push hS
  have htops : ∀ {r}, IsTop (Function.update S t (p :: c :: l)) r ↔ r = p ∨ IsTop S r ∧ r ≠ c :=
    h.table.apart.isTop_replace hS
  refine ⟨hT.push hS hp, ?_, ⟨fun r hr hon => ?_, fun r hr hon => ?_, ?_⟩, ?_⟩
  · refine h.contexts.update h.table h.lt h.idle ho (fun r hr hrt => ?_) ?_ (fun ht r hr => ?_) (fun r hr y ha hf => ?_)
      (fun r hr _ hs => hr (hstacked.mpr (Or.inr hs))) fun hx => absurd (hstacked.mpr (Or.inr ⟨t, hc⟩)) hx
    · have hrc : r ≠ c := fun hx => hrt (hx ▸ hc)
      rw [hinfo r (hne hr) hrc]
      exact ⟨rfl, rfl, rfl⟩
    · -- The child names the new frame; below it every caller's frame is where it was.
      rw [List.isChain_cons_cons]
      refine ⟨?_, ?_⟩
      · rw [hpinfo]
        exact ⟨hent.frame.1, P.cpu, Function.update_self _ _ _⟩
      · have hchain := h.contexts.suspended t
        rw [hS] at hchain
        refine hchain.imp_of_mem_tail_imp fun a b ha hb hab => ?_
        have hmem : ∀ {r}, r ∈ c :: l → Stacked S r := fun hr => ⟨t, by rwa [hS]⟩
        refine Contexts.suspended_keep h.lt ho h.table h.idle (hmem (List.mem_of_mem_tail hb))
          (h.table.apart.not_isTop hS hb) ?_ hab
        obtain ⟨x, y, hxy⟩ := hflag a (hne (hmem ha))
        rw [hxy]
        rfl
    · rw [List.getLast?_cons_cons, ← hS] at hr
      obtain ⟨x, y, hxy⟩ := hflag r (hne ⟨t, List.mem_of_getLast? hr⟩)
      rw [hxy]
      exact h.contexts.orphaned t r ht hr
    · rcases List.mem_cons.mp hr with rfl | hr
      · rw [hpinfo] at ha
        exact absurd (hent.ebp.1.symm.trans ha).symm (ptr_ne hp.lt h.lt hpc)
      · have hs : Stacked S r := ⟨t, by rwa [hS]⟩
        refine Contexts.resumable_keep h.contexts h.lt ho h.table h.idle hs (fun hrc => ?_) ha hf
        rw [hinfo r (hne hs) hrc]
  · by_cases hrp : r = p
    · rw [hrp, hpinfo]
      exact ⟨t, (h.table.lt t c hc).1, hslot.fakePageAddr⟩
    by_cases hrc : r = c
    · rw [hrc, hcinfo] at hon
      exact absurd rfl hon
    rw [hinfo r hrp hrc] at hon ⊢
    exact h.shown.page r hr hon
  · rw [htops]
    by_cases hrp : r = p
    · exact Or.inl hrp
    by_cases hrc : r = c
    · rw [hrc, hcinfo] at hon
      exact absurd rfl hon
    rw [hinfo r hrp hrc] at hon
    exact Or.inr ⟨h.shown.top r ((hstacked.mp hr).resolve_left hrp) hon, hrc⟩
  · obtain ⟨r, hr, hon⟩ := h.shown.some
    by_cases hrc : r = c
    · refine ⟨p, htops.mpr (Or.inl rfl), ?_⟩
      rw [hpinfo]
      rwa [hrc] at hon
    · refine ⟨r, htops.mpr (Or.inr ⟨hr, hrc⟩), ?_⟩
      rwa [hinfo r (hne hr.stacked) hrc]
  · have hres : Resumable p (P₀.push c p e P.cpu eip).cpu := Or.inl rfl
    exact ⟨onSlot_of_resumable hp.lt hres (Or.inl rfl), Or.inl ⟨htops.mpr (Or.inl rfl), hres⟩⟩

/-- **The creation of a terminal** starts a stack, whose root shell has the processor. Its slot may be
the one the processor spins in. -/
theorem create (hS : S t = []) (ht : t < 3) (hp : P₀.FirstFree p) (hent : EntryOn c e) :
    At (P₀.create c o p t e eip) (Function.update S t [p]) p := by
  have hT := h.table_entered he
  have hfresh := hT.firstFree hp
  have hpinfo : (P₀.create c o p t e eip).info p = Info.root p (getPcbPtr c) t e := by
    rw [P₀.create_info, if_pos rfl]
  have hinfo : ∀ r, r ≠ p → (P₀.create c o p t e eip).info r = P.info r ∨
      (P₀.create c o p t e eip).info r = (P.info r).setOnscreen 0 := by
    intro r hrp
    rw [P₀.create_info, if_neg hrp, he.info]
    split
    · exact Or.inr rfl
    · exact Or.inl rfl
  have hflag : ∀ r, r ≠ p → (P.info r).Flagged ((P₀.create c o p t e eip).info r) := by
    intro r hrp
    rcases hinfo r hrp with hi | hi
    · rw [hi]
      exact Info.Flagged.refl _
    · rw [hi]
      exact ⟨_, 0, rfl⟩
  have hon_ne : ∀ r, r ≠ p → ((P₀.create c o p t e eip).info r).isOnscreen ≠ 0 →
      (P₀.create c o p t e eip).info r = P.info r := by
    intro r hrp hon
    rcases hinfo r hrp with hi | hi
    · exact hi
    · rw [hi] at hon
      exact absurd rfl hon
  have hne : ∀ {r}, Stacked S r → r ≠ p := fun hr hx => hfresh (hx ▸ hr)
  have hframes := create_overwrites he hent
  have ho : Overwrites P.frames (P₀.create c o p t e eip).frames c P.cpu := hframes
  have hstacked : ∀ {r}, Stacked (Function.update S t [p]) r ↔ r = p ∨ Stacked S r := h.table.apart.stacked_new hS
  have htops : ∀ {r}, IsTop (Function.update S t [p]) r ↔ r = p ∨ IsTop S r := h.table.apart.isTop_new hS
  refine ⟨hT.create hS ht hp h.lt, ?_, ⟨fun r hr hon => ?_, fun r hr hon => ?_, p, htops.mpr (Or.inl rfl), ?_⟩, ?_⟩
  · refine h.contexts.update h.table h.lt h.idle ho (fun r hr _ => ?_) (List.isChain_singleton p) (fun _ r hr => ?_)
      (fun r hr y ha hf => ?_) (fun r hr _ hs => hr (hstacked.mpr (Or.inr hs))) fun _ a y ha hf => ?_
    · obtain ⟨x, y, hxy⟩ := hflag r (hne hr)
      rw [hxy]
      exact ⟨rfl, rfl, rfl⟩
    · rw [List.getLast?_singleton, Option.some.injEq] at hr
      subst hr
      rw [hpinfo]
      exact ⟨c, h.lt, rfl, hent.frame.1⟩
    · rw [List.mem_singleton.mp hr, hpinfo] at hf
      have hne : e.regs.ebp ≠ e.frame := by
        have := hent.order
        omega
      have hframe : (P₀.create c o p t e eip).frames e.regs.ebp = .switchTerminal :=
        (Function.update_of_ne hne _ _).trans (Function.update_self _ _ _)
      cases hframe.symm.trans hf
    · by_cases hfr : a = e.frame
      · rw [hfr] at hf
        cases (Function.update_self (f := Function.update P₀.frames e.regs.ebp .switchTerminal) e.frame _).symm.trans hf
      by_cases heb : a = e.regs.ebp
      · have hframe : (P₀.create c o p t e eip).frames a = .switchTerminal := by
          refine (Function.update_of_ne hfr _ _).trans ?_
          rw [heb]
          exact Function.update_self _ _ _
        cases hframe.symm.trans hf
      · have hframe : (P₀.create c o p t e eip).frames a = P₀.frames a :=
          (Function.update_of_ne hfr _ _).trans (Function.update_of_ne heb _ _)
        exact he.no_setupExecStack ha y (hframe.symm.trans hf)
  · by_cases hrp : r = p
    · rw [hrp, hpinfo]
      exact ⟨t, ht, rfl⟩
    have hsame := hon_ne r hrp hon
    rw [hsame] at hon ⊢
    exact h.shown.page r hr hon
  · rw [htops]
    by_cases hrp : r = p
    · exact Or.inl hrp
    rw [hon_ne r hrp hon] at hon
    exact Or.inr (h.shown.top r ((hstacked.mp hr).resolve_left hrp) hon)
  · rw [hpinfo]
    exact Nat.one_ne_zero
  · have hres : Resumable p (P₀.create c o p t e eip).cpu := Or.inl rfl
    exact ⟨onSlot_of_resumable hp.lt hres (Or.inl rfl), Or.inl ⟨htops.mpr (Or.inl rfl), hres⟩⟩

end At
end Kernel391
