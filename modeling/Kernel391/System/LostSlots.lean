import Kernel391.System.Sessions
import Mathlib.Data.Finset.Card

/-! What becomes of the six slots: each is free, has a program on some terminal, or was taken for a program that
could not be loaded. The last kind is never given back. -/
namespace Kernel391
open Kernel391.Foundations
set_option autoImplicit false

namespace Sessions

def used (s : Sessions) : Finset ℕ := (Finset.range maxProcesses).filter fun p => s.taken p = true

def programs (s : Sessions) : ℕ := (s.calls 0).length + (s.calls 1).length + (s.calls 2).length

/-- Every program has a slot of its own. -/
structure Sound (s : Sessions) : Prop where
  apart : Apart s.calls
  lt : ∀ t p, p ∈ s.calls t → t < 3 ∧ p < maxProcesses
  taken : ∀ p, Stacked s.calls p → s.taken p = true

section Count
variable {s s' : Sessions} {t p c : ℕ} {l : List ℕ} {a : SessionEvent}

theorem mem_used : p ∈ s.used ↔ p < maxProcesses ∧ s.taken p = true := by
  unfold used
  rw [Finset.mem_filter, Finset.mem_range]

theorem freeSlot_some (h : s.freeSlot = some p) : p < maxProcesses ∧ s.taken p = false := by
  unfold freeSlot at h
  obtain ⟨hfree, hmem, -⟩ := List.find?_range_eq_some.mp h
  exact ⟨List.mem_range.mp hmem, by simpa using hfree⟩

theorem terminal_some (h : s.terminal = some t) : t < 3 ∧ (s.calls t).head? = some s.running := by
  unfold terminal at h
  obtain ⟨hhead, hmem, -⟩ := List.find?_range_eq_some.mp h
  exact ⟨List.mem_range.mp hmem, by simpa using hhead⟩

theorem used_take (hp : p < maxProcesses) (hfree : s.taken p = false)
    (htaken : s'.taken = Function.update s.taken p true) :
    s'.used.card = s.used.card + 1 := by
  have hinsert : s'.used = insert p s.used := by
    ext q
    rw [Finset.mem_insert, mem_used, mem_used, htaken]
    by_cases hqp : q = p
    · simp [hqp, hp]
    · simp [hqp]
  have hnot : p ∉ s.used := fun h => by
    have htrue := (mem_used.mp h).2
    rw [hfree] at htrue
    cases htrue
  rw [hinsert, Finset.card_insert_of_notMem hnot]

theorem used_release (hp : p < maxProcesses) (hused : s.taken p = true)
    (htaken : s'.taken = Function.update s.taken p false) :
    s'.used.card + 1 = s.used.card := by
  have herase : s'.used = s.used.erase p := by
    ext q
    rw [Finset.mem_erase, mem_used, mem_used, htaken]
    by_cases hqp : q = p
    · simp [hqp]
    · simp [hqp]
  rw [herase, Finset.card_erase_add_one (mem_used.mpr ⟨hp, hused⟩)]

theorem programs_update (ht : t < 3) (hcalls : s'.calls = Function.update s.calls t l) :
    s'.programs + (s.calls t).length = s.programs + l.length := by
  unfold programs
  rw [hcalls]
  obtain rfl | rfl | rfl : t = 0 ∨ t = 1 ∨ t = 2 := by omega
  all_goals
    simp [Function.update_of_ne]
    omega

theorem Sound.start (h : s.Sound) (ht : t < 3) (hs : s.start t = some s') :
    s'.Sound ∧ s'.programs = s.programs + 1 ∧ s'.used.card = s.used.card + 1 := by
  unfold Sessions.start at hs
  obtain ⟨p, hp, hs⟩ := Option.map_eq_some_iff.mp hs
  have hcalls : s'.calls = Function.update s.calls t (p :: s.calls t) := by rw [← hs]
  have htaken : s'.taken = Function.update s.taken p true := by rw [← hs]
  obtain ⟨hlt, hfree⟩ := freeSlot_some hp
  have hnot : ¬ Stacked s.calls p := fun hx => by
    have hused := h.taken p hx
    rw [hfree] at hused
    cases hused
  refine ⟨⟨?_, ?_, ?_⟩, ?_, used_take hlt hfree htaken⟩
  · rw [hcalls]
    refine h.apart.update (List.nodup_cons.mpr ⟨fun hx => hnot ⟨t, hx⟩, h.apart.nodup t⟩) fun r hr => ?_
    rcases List.mem_cons.mp hr with rfl | hr
    · exact Or.inr hnot
    · exact Or.inl hr
  · intro u r hr
    rw [hcalls] at hr
    by_cases hut : u = t
    · subst hut
      rw [Function.update_self, List.mem_cons] at hr
      rcases hr with rfl | hr
      · exact ⟨ht, hlt⟩
      · exact h.lt u r hr
    · rw [Function.update_of_ne hut] at hr
      exact h.lt u r hr
  · intro r hr
    rw [hcalls] at hr
    rw [htaken]
    by_cases hrp : r = p
    · rw [hrp, Function.update_self]
    · rw [Function.update_of_ne hrp]
      refine h.taken r ?_
      rcases stacked_update.mp hr with hr | ⟨u, -, hr⟩
      · exact ⟨t, (List.mem_cons.mp hr).resolve_left hrp⟩
      · exact ⟨u, hr⟩
  · have hcount := programs_update ht hcalls
    rw [List.length_cons] at hcount
    omega

theorem Sound.pop (h : s.Sound) (hstack : s.calls t = c :: l) (hcalls : s'.calls = Function.update s.calls t l)
    (htaken : s'.taken = Function.update s.taken c false) :
    s'.Sound ∧ s'.programs + 1 = s.programs ∧ s'.used.card + 1 = s.used.card := by
  have hc : c ∈ s.calls t := by
    rw [hstack]
    exact List.mem_cons_self
  have hnodup := h.apart.nodup t
  rw [hstack] at hnodup
  refine ⟨⟨?_, ?_, ?_⟩, ?_, used_release (h.lt t c hc).2 (h.taken c ⟨t, hc⟩) htaken⟩
  · rw [hcalls]
    refine h.apart.update (List.nodup_cons.mp hnodup).2 fun r hr => Or.inl ?_
    rw [hstack]
    exact List.mem_cons_of_mem c hr
  · intro u r hr
    rw [hcalls] at hr
    by_cases hut : u = t
    · subst hut
      rw [Function.update_self] at hr
      exact h.lt u r (by rw [hstack]; exact List.mem_cons_of_mem c hr)
    · rw [Function.update_of_ne hut] at hr
      exact h.lt u r hr
  · intro r hr
    rw [hcalls] at hr
    obtain ⟨hr, hrc⟩ := (h.apart.stacked_pop hstack).mp hr
    rw [htaken, Function.update_of_ne hrc]
    exact h.taken r hr
  · have hcount := programs_update (h.lt t c hc).1 hcalls
    rw [hstack, List.length_cons] at hcount
    omega

theorem Sound.loseSlot (h : s.Sound) (hs : s.loseSlot = some s') :
    s'.Sound ∧ s'.programs = s.programs ∧ s'.used.card = s.used.card + 1 := by
  unfold Sessions.loseSlot at hs
  obtain ⟨p, hp, rfl⟩ := Option.map_eq_some_iff.mp hs
  obtain ⟨hlt, hfree⟩ := freeSlot_some hp
  refine ⟨⟨h.apart, h.lt, fun r hr => ?_⟩, rfl, used_take hlt hfree rfl⟩
  by_cases hrp : r = p
  · rw [hrp]
    exact Function.update_self ..
  · simp only [Function.update_of_ne hrp]
    exact h.taken r hr

theorem Sound.leave (h : s.Sound) (hs : s.leave t = some s') :
    s'.Sound ∧ s'.used.card + s.programs = s.used.card + s'.programs := by
  unfold Sessions.leave at hs
  split at hs
  · cases hs
  · next c hstack =>
    split at hs
    · obtain rfl := Option.some.inj hs
      exact ⟨h, rfl⟩
    · have hcalls : s'.calls = Function.update s.calls t [] := by rw [← Option.some.inj hs]
      have htaken : s'.taken = Function.update s.taken c false := by rw [← Option.some.inj hs]
      obtain ⟨hsound, hprograms, hused⟩ := h.pop hstack hcalls htaken
      exact ⟨hsound, by omega⟩
  · next c q l hstack =>
    have hcalls : s'.calls = Function.update s.calls t (q :: l) := by rw [← Option.some.inj hs]
    have htaken : s'.taken = Function.update s.taken c false := by rw [← Option.some.inj hs]
    obtain ⟨hsound, hprograms, hused⟩ := h.pop hstack hcalls htaken
    exact ⟨hsound, by omega⟩

theorem Sound.step (h : s.Sound) (hs : s.step a = some s') :
    s'.Sound ∧ s'.used.card + s.programs = s.used.card + s'.programs + if a = .finish true then 1 else 0 := by
  cases a with
  | idle =>
    obtain rfl := Option.some.inj hs
    exact ⟨h, rfl⟩
  | tick =>
    obtain ⟨q, -, rfl⟩ := Option.map_eq_some_iff.mp hs
    exact ⟨⟨h.apart, h.lt, h.taken⟩, rfl⟩
  | openShell t =>
    unfold Sessions.step at hs
    simp only at hs
    split at hs
    · next ht =>
      obtain ⟨hsound, hprograms, hused⟩ := h.start ht.1 hs
      exact ⟨hsound, by simp only [hprograms, hused, reduceCtorEq, if_false]; omega⟩
    · cases hs
  | call =>
    obtain ⟨t, ht, hs⟩ := Option.bind_eq_some_iff.mp hs
    obtain ⟨hsound, hprograms, hused⟩ := h.start (terminal_some ht).1 hs
    exact ⟨hsound, by simp only [hprograms, hused, reduceCtorEq, if_false]; omega⟩
  | finish lost =>
    obtain ⟨s₁, hlost, hend⟩ := Option.bind_eq_some_iff.mp hs
    obtain ⟨t, -, hleave⟩ := Option.bind_eq_some_iff.mp hend
    cases lost with
    | false =>
      obtain rfl := Option.some.inj hlost
      exact h.leave hleave
    | true =>
      obtain ⟨hsound, hprograms, hused⟩ := h.loseSlot hlost
      obtain ⟨hsound', hleft⟩ := hsound.leave hleave
      refine ⟨hsound', ?_⟩
      simp only [if_true]
      omega

theorem Sound.run {acts : List SessionEvent} (h : s.Sound) (hrun : runEvents Sessions.step s acts = some s') :
    s'.Sound ∧ s'.used.card + s.programs = s.used.card + s'.programs + acts.count (.finish true) := by
  induction acts generalizing s with
  | nil =>
    simp only [runEvents, Option.some.injEq] at hrun
    subst hrun
    exact ⟨h, rfl⟩
  | cons a acts ih =>
    simp only [runEvents] at hrun
    split at hrun
    · next s₁ hs =>
      obtain ⟨hsound, hone⟩ := h.step hs
      obtain ⟨hsound', hrest⟩ := ih hsound hrun
      refine ⟨hsound', ?_⟩
      rw [List.count_cons]
      simp only [beq_iff_eq]
      omega
    · cases hrun

theorem first_sound : first.Sound := by
  have hmem : ∀ {t p}, p ∈ first.calls t ↔ t = 0 ∧ p = 0 := firstStacks_mem
  refine ⟨⟨fun t => ?_, fun {t u p} ht hu => ?_⟩, fun t p hp => ?_, fun p hp => ?_⟩
  · unfold first
    simp only
    split
    · exact List.nodup_singleton 0
    · exact List.nodup_nil
  · rw [(hmem.mp ht).1, (hmem.mp hu).1]
  · obtain ⟨rfl, rfl⟩ := hmem.mp hp
    exact ⟨by decide, by decide⟩
  · obtain ⟨t, ht⟩ := hp
    rw [(hmem.mp ht).2]
    rfl

end Count
end Sessions

/-! ## A load that fails -/

/-- A copy that comes to an address that is not present does not get to its end. -/
theorem Kernel.putBytes_faults {k : Kernel} {a j : ℕ} {bs : List UInt8} (hj : j < bs.length)
    (h : k.translate (a + j) = none) : ∃ k', ByteStore.putBytes k a bs = .error k' ∧ k'.processIds = k.processIds := by
  induction bs generalizing k a j with
  | nil => cases hj
  | cons b bs ih =>
    cases ht : k.translate a with
    | none =>
      refine ⟨k, ByteStore.putBytes_cons_error bs ?_, rfl⟩
      unfold ByteStore.put instByteStoreKernel
      simp only [ht]
    | some x =>
      have hput : ByteStore.put k a b = .ok { k with phys := Function.update k.phys x b } := by
        unfold ByteStore.put instByteStoreKernel
        simp only [ht]
      cases j with
      | zero =>
        rw [Nat.add_zero, ht] at h
        cases h
      | succ j =>
        rw [ByteStore.putBytes_cons_ok bs hput]
        exact ih (k := { k with phys := Function.update k.phys x b }) (Nat.lt_of_succ_lt_succ hj)
          (by rw [Nat.add_right_comm, Nat.add_assoc]; exact h)

section Overlong
variable {img : Image} {k : Kernel} {i j : ℕ}

theorem openExecutable_faults (wf : img.WellFormed) (hi : i < img.inodeCount) (hi' : i < 2 ^ 31)
    (hj : j < img.fileLength i)
    (h24 : 24 ≤ img.fileLength i) (hroom : j < fourMb) (h : k.translate (programStart + j) = none) (eip : ℕ → UInt8) :
    ∃ k', openExecutable img (Image.WellFormed.pointers img) k eip i = .error k' ∧ k'.processIds = k.processIds := by
  have hinode : uint32 (i : ℤ) = i := by
    unfold uint32
    omega
  obtain ⟨k', herror, hids⟩ := @Kernel.putBytes_faults k programStart j
    (img.fileSlice i 0 (min fourMb (img.fileLength i - 0))) (by rw [Image.fileSlice_length]; omega) h
  refine ⟨k', ?_, hids⟩
  unfold openExecutable
  rw [hinode, readData_memory wf i hi eip 24 0 4 h24]
  simp only
  rw [if_neg (by omega), readData_eq wf i hi k 0 programStart fourMb (Nat.zero_le _), herror]

theorem execute_faults {e : Entry} {caller : Cpu} {command : List UInt8} {p : ℕ} {k₁ : Kernel}
    (hcheck : checkExecutable img (Image.WellFormed.pointers img) e.magicNumbers
      (executableName e command) = some (i : ℤ))
    (hid : k.getProcessId = some (p, k₁))
    (hopen : ∃ k', openExecutable img (Image.WellFormed.pointers img)
      (k₁.setPagerDirEntry (eightMb + fourMb * p)) e.eip i =
      .error k' ∧ k'.processIds = k₁.processIds) :
    ∃ k', execute img (Image.WellFormed.pointers img) k e caller command = .fault k' ∧
      k'.processIds = k₁.processIds := by
  obtain ⟨k', herror, hids⟩ := hopen
  refine ⟨k', ?_, hids⟩
  unfold execute
  rw [hcheck]
  simp only
  rw [if_neg (by omega), hid]
  simp only [herror]

theorem load_lost (boot : img.Bootable) {k' kf : Kernel} {S : Stacks} {c q p t : ℕ} {l : List ℕ} {e : Entry}
    {command : List UInt8}
    (h : At k.processes S c) (hS : S t = c :: q :: l)
    (hs : step img (Image.WellFormed.pointers img) k (.execute e command) = some k')
    (hfault : execute img (Image.WellFormed.pointers img) (k.enter e.regs.esp) e k.cpu command = .fault kf)
    (htaken : kf.processIds p = 1) (hpc : p ≠ c) : k'.cpu.mode ≠ .wild ∧ k'.inUse p ∧ ¬ k'.inUse c := by
  have hmem : c ∈ S t := by
    rw [hS]
    exact List.mem_cons_self ..
  have hterminal : ∀ {u l'}, S u = c :: l' → l' = q :: l := by
    intro u l' hu
    obtain rfl : u = t := h.table.apart.disjoint (by rw [hu]; exact List.mem_cons_self ..) hmem
    exact (List.cons.inj (hu.symm.trans hS)).2
  have hchain := h.contexts.suspended t
  rw [hS] at hchain
  have hwait := (List.isChain_cons_cons.mp hchain).1.1
  have hqc : q ≠ c := by
    have hnodup := h.table.apart.nodup t
    rw [hS, List.nodup_cons] at hnodup
    exact fun hx => hnodup.1 (hx ▸ List.mem_cons_self ..)
  have hq := (h.table.lt t q (by rw [hS]; simp)).2
  obtain ⟨S', c', hmove, -⟩ := step_follows boot h hs
  cases hmove with
  | stay quiet => exact absurd (Ending.fault hfault) (quiet.going _ _ _)
  | push entered entry stack slot gone => exact absurd (hfault.symm.trans gone) (by simp)
  | restart entered ending before leak stack => cases hterminal stack
  | close entered ending before leak stack => cases hterminal stack
  | lost entered ending before leak stack => cases hterminal stack
  | @pop _ e' status u q' l' k₁ o y entered ending before leak stack frame gone view =>
    obtain ⟨rfl, rfl⟩ := List.cons.inj (hterminal stack)
    have hid : (((k.called e').leaked o).info c).processId = c := by
      rw [leaked_info, entered.info]
      exact h.table.processId ⟨t, hmem⟩
    have hids : k'.processIds = Function.update ((k.called e').leaked o).ids c 0 :=
      (congrArg Processes.ids view).trans (exitTo_ids hid)
    have hmode : k'.cpu.mode = y.mode := congrArg (fun P => P.cpu.mode) view
    cases ending with
    | fault hf =>
      obtain rfl := Outcome.fault.inj (hfault.symm.trans hf)
      have hleft := congrFun (congrArg Processes.ids before) p
      rw [announce_processes] at hleft
      refine ⟨?_, ?_, ?_⟩
      · rw [hmode,
          h.contexts.callers _ y (by rw [hwait]; exact fun hx => hqc ((getPcbPtr_inj hq h.lt).mp hx)) (Or.inr frame)]
        decide
      · show k'.processIds p ≠ 0
        rw [hids, Function.update_of_ne hpc, ← hleft]
        show kf.processIds p ≠ 0
        rw [htaken]
        decide
      · show ¬ k'.processIds c ≠ 0
        rw [hids, Function.update_self]
        decide

end Overlong

/-- The small image with more bytes in its stub than are mapped behind 0x08048000. -/
def Image.overlong : Image := { Image.small with byte := overlay Image.small.byte 12288 [0x01, 0x90, 0x3B] }

namespace Image

theorem overlong_zero {a : ℕ} (h : 12296 ≤ a) (h' : a < 16384) : overlong.byte a = 0 := by
  unfold overlong small
  simp only
  rw [overlay_of_ge _ _ (le_trans (by decide) h), overlay_of_lt _ _ (by omega), overlay_of_lt _ _ h', overlay_of_ge,
    overlay_of_ge, overlay_of_ge, overlay_of_ge, overlay_of_ge, overlay_of_ge, overlay_of_ge]
  all_goals
    simp [smallEntry, filenameLen]
    omega

theorem overlong_blocks : ∀ i < overlong.inodeCount, ∀ j < overlong.fileBlocks i,
    overlong.blockNum i j < overlong.dataCount := by
  have hcounts : overlong.inodeCount = 3 ∧ overlong.dataCount = 2 := by decide +kernel
  have hfiles : ∀ i < 3, overlong.fileBlocks i ≤ 954 ∧ (i = 2 ∨ overlong.fileBlocks i ≤ 1) ∧
    overlong.blockNum i 0 < 2 := by
    decide +kernel
  have hinode : overlong.inodeAddr 2 = 12288 := by decide
  rw [hcounts.1, hcounts.2]
  intro i hi j hj
  obtain ⟨hle, hstub, hzero⟩ := hfiles i hi
  cases j with
  | zero => exact hzero
  | succ j =>
    obtain rfl : i = 2 := by omega
    have hbyte : ∀ a, 12296 ≤ a → a < 12296 + 4 * 954 → overlong.byte a = 0 := fun a h h' => overlong_zero h (by omega)
    unfold blockNum word wordAt
    rw [hinode, hbyte _ (by omega) (by omega), hbyte _ (by omega) (by omega), hbyte _ (by omega) (by omega),
      hbyte _ (by omega) (by omega)]
    decide

theorem overlong_bootable : overlong.Bootable where
  size := by decide
  fits := by decide
  length_le := by decide +kernel
  blocks := overlong_blocks
  dir_le := by decide +kernel
  inode_lt := by decide +kernel
  shell := ⟨2, by decide +kernel, ⟨by decide +kernel, by decide +kernel⟩, by decide +kernel⟩

end Image

/-- A shell executed by the first one, which then executes the stub. -/
def overlongShell : Kernel :=
  (execute Image.overlong (Image.WellFormed.pointers Image.overlong) (Kernel.boot.enter bootEntry.regs.esp) bootEntry
    Kernel.boot.cpu shell).kernel

def stubName : List UInt8 := [0x73, 0x74, 0x75, 0x62]

theorem overlongShell_started : Started Image.overlong (Image.WellFormed.pointers Image.overlong) overlongShell := by
  have hgone : (execute Image.overlong (Image.WellFormed.pointers Image.overlong) (Kernel.boot.enter bootEntry.regs.esp)
      bootEntry Kernel.boot.cpu shell).isGone = true := by decide +kernel
  have hfits : Kernel.boot.fits bootEntry = true ∧ Kernel.boot.roomFor bootEntry shell = true := by decide +kernel
  exact ⟨Kernel.boot, bootEntry, boot_booted, hfits, Outcome.eq_gone hgone⟩

/-- Its child. -/
def overlongChild : Kernel :=
  (execute Image.overlong (Image.WellFormed.pointers Image.overlong)
    (overlongShell.enter (overlongShell.entry 64).regs.esp)
    (overlongShell.entry 64) overlongShell.cpu shell).kernel

theorem overlongShell_calls : step Image.overlong (Image.WellFormed.pointers Image.overlong) overlongShell
    (.execute (overlongShell.entry 64) shell) = some overlongChild := by
  have hgone : (execute Image.overlong (Image.WellFormed.pointers Image.overlong)
      (overlongShell.enter (overlongShell.entry 64).regs.esp)
        (overlongShell.entry 64) overlongShell.cpu shell).isGone = true := by
    decide +kernel
  have hfits : overlongShell.cpu.mode = .user ∧ overlongShell.fits (overlongShell.entry 64) = true ∧
      overlongShell.roomFor (overlongShell.entry 64) shell = true := by decide +kernel
  have ho := Outcome.eq_gone hgone
  rw [step_execute hfits.1 hfits.2.1 hfits.2.2 (by rw [ho]; rfl), ho]
  rfl

theorem overlongChild_faults : ∃ k', execute Image.overlong (Image.WellFormed.pointers Image.overlong)
    (overlongChild.enter (overlongChild.entry 64).regs.esp)
      (overlongChild.entry 64) overlongChild.cpu stubName = .fault k' ∧
    k'.processIds 2 = 1 := by
  have hcheck :
    checkExecutable Image.overlong (Image.WellFormed.pointers Image.overlong) (overlongChild.entry 64).magicNumbers
      (executableName (overlongChild.entry 64) stubName) = some (2 : ℕ) := by decide +kernel
  have hslot : ((overlongChild.enter (overlongChild.entry 64).regs.esp).getProcessId.map fun r =>
      (r.1, r.2.processIds 2, (r.2.setPagerDirEntry (eightMb + fourMb * r.1)).translate (programStart + 0x3B9000))) =
      some (2, 1, none) := by decide +kernel
  have hfile : 2 < Image.overlong.inodeCount ∧ 0x3B9000 < Image.overlong.fileLength 2 := by decide +kernel
  obtain ⟨⟨p, k₁⟩, hid, hk₁⟩ := Option.map_eq_some_iff.mp hslot
  simp only [Prod.mk.injEq] at hk₁
  obtain ⟨rfl, htaken, htranslate⟩ := hk₁
  obtain ⟨k', hfault, hids⟩ := @execute_faults _ _ _ _ overlongChild.cpu _ _ _ hcheck hid
    (openExecutable_faults Image.overlong_bootable.toWellFormed hfile.1 (by decide) hfile.2 (by omega)
      (by decide) htranslate _)
  exact ⟨k', hfault, by rw [hids, htaken]⟩

theorem overlongChild_at : At overlongChild.processes (Function.update Sessions.first.calls 0 [1, 0]) 1 := by
  have hnow : overlongChild.cpu.mode = .user ∧ overlongChild.current = getPcbPtr 1 := by decide +kernel
  rcases step_represents Image.overlong_bootable (started_represents overlongShell_started)
    (started_marked overlongShell_started) overlongShell_calls with hw | ⟨a, s, hmeans, hstep, hrep, -⟩
  · rw [hnow.1] at hw
    cases hw
  have hrunning : s.running = 1 := (getPcbPtr_inj hrep.at_.lt (by decide)).mp ((current_eq hrep.at_).symm.trans hnow.2)
  cases hmeans with
  | refused =>
    obtain rfl := Option.some.inj hstep
    cases hrunning
  | call =>
    obtain rfl := Option.some.inj hstep
    exact hrep.at_
  | fault _ _ lost =>
    have hzero : (Sessions.first.step (.finish lost)).map Sessions.running = some 0 := by
      cases lost <;> decide
    rw [hstep, Option.map_some, hrunning] at hzero
    cases hzero

theorem overlongChild_ends : ∃ k', step Image.overlong (Image.WellFormed.pointers Image.overlong) overlongChild
      (.execute (overlongChild.entry 64) stubName) = some k' ∧
    k'.cpu.mode ≠ .wild ∧ k'.inUse 2 ∧ ¬ k'.inUse 1 := by
  obtain ⟨kf, hfault, htwo⟩ := overlongChild_faults
  have hnow : overlongChild.cpu.mode = .user ∧ overlongChild.fits (overlongChild.entry 64) = true ∧
      overlongChild.roomFor (overlongChild.entry 64) stubName = true ∧
      (overlongChild.pcb overlongChild.current).parent ≠ 0 := by decide +kernel
  obtain ⟨hm, hfits, hroom, hparent⟩ := hnow
  have hs := step_execute hm hfits hroom (by rw [hfault]; exact decide_eq_true hparent)
  exact ⟨_, hs, load_lost Image.overlong_bootable overlongChild_at (Function.update_self ..) hs hfault htwo (by decide)⟩

/-- **Where the slots are**: with the programs on the terminals, and one for every load that failed. The shell of
terminal 0 keeps the last. -/
theorem slots_accounted (img : Image) (boot : img.Bootable) {k₀ k : Kernel} {es : List Event}
    (h0 : Started img (Image.WellFormed.pointers img) k₀)
    (hrun : runEvents (step img (Image.WellFormed.pointers img)) k₀ es = some k) :
    k.cpu.mode = .wild ∨ ∃ acts s, List.Forall₂ Means es acts ∧ runEvents Sessions.step Sessions.first acts = some s ∧
      k.Represents s ∧ ((Finset.range maxProcesses).filter k.inUse).card = s.programs + acts.count (.finish true) ∧
      acts.count (.finish true) < maxProcesses := by
  rcases represents_run boot (started_represents h0) (started_marked h0) hrun with hw | ⟨acts, s, hmeans, hacts, hrep⟩
  · exact Or.inl hw
  have hfilter : (Finset.range maxProcesses).filter k.inUse = s.used := by
    ext p
    rw [Sessions.mem_used, Finset.mem_filter, Finset.mem_range]
    constructor
    · exact fun ⟨hp, hused⟩ => ⟨hp, (hrep.taken p hp).mpr hused⟩
    · exact fun ⟨hp, hused⟩ => ⟨hp, (hrep.taken p hp).mp hused⟩
  have hcount := (Sessions.first_sound.run hacts).2
  have hfirst : Sessions.first.used.card = 1 ∧ Sessions.first.programs = 1 := by decide
  have hslots : s.used.card ≤ maxProcesses := (Finset.card_filter_le _ _).trans_eq (Finset.card_range _)
  have hshell : 0 < s.programs := by
    have hmem : 0 ∈ s.calls 0 := List.mem_of_getLast? hrep.at_.table.first
    have hpos := List.length_pos_of_mem hmem
    unfold Sessions.programs
    omega
  refine Or.inr ⟨acts, s, hmeans, hacts, hrep, ?_, by omega⟩
  rw [hfilter]
  omega

theorem call_lost {e e' : Entry} {command command' : List UInt8} {a b : SessionEvent}
    (ha : Means (.execute e command) a)
    (hb : Means (.execute e' command') b)
    (h : (runEvents Sessions.step Sessions.first [a, b]).map (fun s => (s.taken 1, s.taken 2)) = some (false, true)) :
    a = .call ∧ b = .finish true := by
  have hall : ∀ x ∈ [SessionEvent.idle, .call, .finish false, .finish true],
      ∀ y ∈ [SessionEvent.idle, .call, .finish false, .finish true],
        (runEvents Sessions.step Sessions.first [x, y]).map (fun s => (s.taken 1, s.taken 2)) = some (false, true) →
          x = .call ∧ y = .finish true := by decide
  refine hall a ?_ b ?_ h
  · cases ha with
    | refused => simp
    | call => simp
    | fault _ _ lost => cases lost <;> simp
  · cases hb with
    | refused => simp
    | call => simp
    | fault _ _ lost => cases lost <;> simp

/-- The first shell runs a second one, which executes the stub: of the two slots in use one is lost. -/
theorem slots_accounted_lost :
    ∃ k' s, runEvents (step Image.overlong (Image.WellFormed.pointers Image.overlong)) overlongShell
      [.execute (overlongShell.entry 64) shell, .execute (overlongChild.entry 64) stubName] = some k' ∧
    k'.Represents s ∧ runEvents Sessions.step Sessions.first [.call, .finish true] = some s ∧
    ((Finset.range maxProcesses).filter k'.inUse).card = s.programs + 1 := by
  obtain ⟨k', hs, hm, htwo, hone⟩ := overlongChild_ends
  have hrun : runEvents (step Image.overlong (Image.WellFormed.pointers Image.overlong)) overlongShell
      [.execute (overlongShell.entry 64) shell, .execute (overlongChild.entry 64) stubName] = some k' := by
    rw [runEvents_cons overlongShell_calls, runEvents_cons hs]
    rfl
  rcases slots_accounted Image.overlong Image.overlong_bootable overlongShell_started hrun with
    hw | ⟨acts, s, hmeans, hacts, hrep, hcard, -⟩
  · exact absurd hw hm
  obtain _ | @⟨_, a, _, _, ha, _ | @⟨_, b, _, _, hb, _ | _⟩⟩ := hmeans
  have hslots : (runEvents Sessions.step Sessions.first [a, b]).map (fun s => (s.taken 1, s.taken 2)) =
    some (false, true) := by
    rw [hacts, Option.map_some, (hrep.taken 2 (by decide)).mpr htwo,
      Bool.eq_false_iff.mpr fun ht => hone ((hrep.taken 1 (by decide)).mp ht)]
  obtain ⟨rfl, rfl⟩ := call_lost ha hb hslots
  exact ⟨k', s, hrun, hrep, hacts, hcard⟩

end Kernel391
