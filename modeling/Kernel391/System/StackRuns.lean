import Kernel391.System.StackSteps

/-! Runs over the stacks. The first shell stands alone on the stack of terminal 0, and from
there every event of a run is a move, until control is lost. -/
namespace Kernel391
open Kernel391.Foundations
set_option autoImplicit false

/-! ## A keystroke -/

section Key
variable {img : Image} {k k₀ k' : Kernel} {S : Stacks} {c : ℕ} {P : Processes} {e : Entry}

theorem switchable_of (hk : k₀.processes = P) (hstack : getPcb k₀.cpu.esp = getPcbPtr c) (hc : c < maxProcesses)
    (hfixed : FixedMap P.fixed.directory P.fixed.table) (hzero : P.inUse 0)
    (hpage : ∀ p < maxProcesses, (P.info p).isOnscreen ≠ 0 → ∃ t < 3, (P.info p).fakePageAddr = fakePage t)
    (hsome : ∃ p < maxProcesses, P.inUse p ∧ (P.info p).isOnscreen ≠ 0) : Switchable k₀ where
  stack := by
    rw [hstack]
    exact getPcbPtr_ne_zero hc
  tables := by
    rw [← hk] at hfixed
    refine ⟨hfixed.directory, fun t ht => ?_, ?_⟩
    · have hne : pgTblIdx + 1 + t ≠ pgTblIdx := by omega
      exact (if_neg hne).symm.trans (hfixed.fake t ht)
    · have hlast := hfixed.last
      have hne : tableSz - 1 ≠ pgTblIdx := by decide
      unfold Kernel.processes at hlast
      simp only [if_neg hne] at hlast
      exact hlast
  zero := by
    rw [← hk] at hzero
    exact hzero
  screen := by
    subst hk
    obtain ⟨p, hp, hu, hon⟩ := hsome
    cases ho : k₀.findOnscreenTerminalPid with
    | none =>
      rw [k₀.processes_info hp, Pcb.info_isOnscreen] at hon
      exact absurd (Kernel.findOnscreenTerminalPid_none ho hp hu) hon
    | some o =>
      obtain ⟨hlt, -, hon'⟩ := Kernel.findOnscreenTerminalPid_some ho
      have := hpage o hlt (by rwa [k₀.processes_info hlt, Pcb.info_isOnscreen])
      rw [k₀.processes_info hlt, Pcb.info_fakePageAddr] at this
      exact ⟨o, hlt, rfl, this⟩

theorem switchable_at (hT : Table P S) (hS : Shown P S) (hk : k₀.processes = P)
    (hstack : getPcb k₀.cpu.esp = getPcbPtr c) (hc : c < maxProcesses) : Switchable k₀ := by
  refine switchable_of hk hstack hc hT.fixed (hT.used hT.zero_stacked) hS.page ?_
  obtain ⟨p, hp, hon⟩ := hS.some
  exact ⟨p, hT.slot_lt hp.stacked, hT.used hp.stacked, hon⟩

theorem onscreenNum_some (hT : Table P S) (hS : Shown P S) : P.findOnscreenTerminalNum ≠ none := by
  obtain ⟨p, hp, hon⟩ := hS.some
  have hlt := hT.slot_lt hp.stacked
  intro hx
  unfold Processes.findOnscreenTerminalNum at hx
  rw [Option.map_eq_none_iff, List.find?_eq_none] at hx
  refine hx p (List.mem_range.mpr hlt) (decide_eq_true ?_)
  rw [hT.processId hp.stacked]
  exact ⟨hT.used hp.stacked, hon⟩

theorem slot_page (hT : Table P S) (hk : k₀.processes = P) {q : ℕ} (hq : Stacked S q) :
    ∃ u < 3, (k₀.slot q).terminalInfo.fakePageAddr = fakePage u := by
  subst hk
  obtain ⟨t, ht⟩ := hq
  have hpage := (hT.slot t q ht).fakePageAddr
  rw [k₀.processes_info (hT.lt t q ht).2, Pcb.info_fakePageAddr] at hpage
  exact ⟨t, (hT.lt t q ht).1, hpage⟩

theorem switch_faultless (boot : img.Bootable) (hT : Table P S) (hS : Shown P S) (hview : k₀.processes = P)
    (hstack : getPcb k₀.cpu.esp = getPcbPtr c) (hc : c < maxProcesses) {t : ℕ} (ht : t < 3) (k₁ : Kernel) :
    switchTerminal img (Image.WellFormed.pointers img) k₀ e t ≠ .fault k₁ := by
  intro hswitch
  have hsw₀ := switchable_at hT hS hview hstack hc
  cases hf : k₀.findTerminalPid t with
  | none =>
    rcases switchTerminal_creates boot hsw₀ ht hf e with ⟨-, hx⟩ | ⟨_, hx⟩
    · rw [hx] at hswitch
      cases hswitch
    · rw [hx] at hswitch
      cases hswitch
  | some q =>
    have hf' : P.findTerminalPid t = some q := by
      rw [← hview, Kernel.processes_findTerminalPid, hf]
    obtain ⟨hq, l, hl⟩ := hT.findTerminalPid_some hf'
    obtain ⟨_, hx⟩ := @switchTerminal_shows k₀ t q img (Image.WellFormed.pointers img) hsw₀ hf
      (slot_page hT hview (isTop_of_cons hl).stacked) e
    rw [hx] at hswitch
    cases hswitch

theorem keyboard_faultless (boot : img.Bootable) (h : At k.processes S c) {scanCode : ℕ}
    (hf : k.fits e = true) (k₁ : Kernel) :
    handleKeyboard img (Image.WellFormed.pointers img) (k.interrupted e) e scanCode ≠ .fault k₁ := by
  have hent := (entryOn_of_fits h hf).1
  have he := entered_interrupt h hent
  intro hx
  rcases @handleKeyboard_cases img (Image.WellFormed.pointers img) (k.interrupted e) e scanCode with
    ⟨-, k₂, hret, -⟩ | ⟨t, k₀, hreq, -, hview, ⟨_, _, _, -, hret, -⟩ | ⟨_, -, hgone⟩ | ⟨k₂, hswitch, -⟩⟩
  · cases hx.symm.trans hret
  · cases hx.symm.trans hret
  · cases hx.symm.trans hgone
  · refine switch_faultless boot (h.table_entered he) (h.shown_entered he) hview ?_ h.lt
      (Kernel.requests_lt hreq) k₂ hswitch
    rw [show k₀.cpu = (k.interrupted e).cpu from congrArg Processes.cpu hview]
    exact hent.esp

theorem interrupted_remapped (h : At k.processes S c) (hent : EntryOn c e) {k₁ : Kernel}
    (hr : (k.interrupted e).Remaps k₁) :
    Paging.Remapped (k.processes.info c).fakePageAddr k.paging k₁.paging := by
  have hp := hr.paging
  rwa [show getPcb (k.interrupted e).cpu.esp = getPcbPtr c from hent.esp,
    show ((k.interrupted e).pcb (getPcbPtr c)).terminalInfo.fakePageAddr = (k.processes.info c).fakePageAddr by
      rw [k.processes_info h.lt]
      rfl] at hp

theorem key_follows (boot : img.Bootable) (h : At k.processes S c) {scanCode : ℕ}
    (hs : step img (Image.WellFormed.pointers img) k (.key e scanCode) = some k') :
    Follows img (Image.WellFormed.pointers img) k S c (.key e scanCode) k' := by
  simp only [step] at hs
  split at hs
  · next hc =>
    obtain ⟨hent, -⟩ := entryOn_of_fits h hc.2.1
    have he := entered_interrupt h hent
    have hT := h.table_entered he
    have hC := h.contexts_entered he c
    have hS := h.shown_entered he
    have hstay :
      ∀ k₁ : Kernel, handleKeyboard img (Image.WellFormed.pointers img) (k.interrupted e) e scanCode = .ret 0 k₁ →
        k₁.processes = (k.interrupted e).processes → (∀ t, k.requests scanCode = some t →
          S t = [] ∧ ∀ p < maxProcesses, k.processes.ids p ≠ 0) →
        Follows img (Image.WellFormed.pointers img) k S c (.key e scanCode) (k₁.resume k.cpu) := by
      intro k₁ hret hview hvain
      have hres : (k₁.resume k.cpu).processes = (k.interrupted e).processes.resume k.cpu := by
        rw [← hview]
        rfl
      refine ⟨S, c, .stay ⟨fun _ _ _ hx => (by cases hx), fun _ hx => (by cases hx), fun e' sc t hx => ?_,
        fun _ _ _ hx => (by cases hx)⟩ ?_ ?_ ?_, Or.inr ?_⟩
      · cases hx
        exact hvain t
      · rw [hres]
        exact he.ids
      · rw [hres]
        exact he.info
      · have hr := interrupted_remapped h hent (handleKeyboard_remaps hret)
        exact hr
      · rw [hres]
        exact h.back hT hC hS he.ids he.esp0
    rcases @handleKeyboard_cases img (Image.WellFormed.pointers img) (k.interrupted e) e scanCode with
      ⟨hnone, k₁, hret, hview⟩ | ⟨t, k₀, hreq, -, hview, hsw⟩
    · rw [hret] at hs
      cases hs
      refine hstay k₁ hret hview fun t ht => ?_
      rcases hnone with hnone | hnone
      · cases ht.symm.trans hnone
      · exact absurd hnone (onscreenNum_some hT hS)
    · have hcpu : k₀.cpu = (k.interrupted e).cpu := congrArg Processes.cpu hview
      have hstack : getPcb k₀.cpu.esp = getPcbPtr c := by
        rw [hcpu]
        exact hent.esp
      have hsw₀ := switchable_at hT hS hview hstack h.lt
      rcases hsw with ⟨r, k₁, k₂, hswitch, hret, hview₂⟩ | ⟨k₁, hswitch, hgone⟩ | ⟨k₁, hswitch, -⟩
      · rw [hret] at hs
        cases hs
        rcases switchTerminal_ret hswitch with ⟨hnone, -, rfl⟩ | ⟨q, hq, hfind, -, hshow⟩
        · refine hstay k₂ hret (hview₂.trans hview) fun u hu => ?_
          obtain rfl : t = u := Option.some.inj (hreq.symm.trans hu)
          rw [Kernel.processes_findTerminalPid] at hnone
          rcases switchTerminal_creates boot hsw₀ (Kernel.requests_lt hreq) hnone e with ⟨hfull, -⟩ | ⟨_, hx⟩
          · rw [← Kernel.processes_findTerminalPid, hview] at hnone
            refine ⟨hT.findTerminalPid_none hnone, fun p hp => ?_⟩
            have hused := Kernel.getProcessId_none.mp hfull p hp
            rw [← he.ids]
            show (k.interrupted e).processes.ids p ≠ 0
            rw [← hview]
            exact hused
          · rw [hx] at hswitch
            cases hswitch
        · rw [hview] at hfind hshow
          obtain ⟨-, l, hl⟩ := hT.findTerminalPid_some hfind
          have hres : (k₂.resume k.cpu).processes =
              ((k.interrupted e).processes.display ((k.interrupted e).processes.onscreen q) q).resume k.cpu := by
            show k₂.processes.resume k.cpu = _
            rw [hview₂, hshow]
            rfl
          refine ⟨S, c, .display he hreq hl hret rfl hres, Or.inr ?_⟩
          show At (k₂.resume k.cpu).processes S c
          rw [hres]
          exact h.display he (isTop_of_cons hl)
      · rw [hgone] at hs
        cases hs
        obtain ⟨hnone, p, eip, hp, hp0, hcreate⟩ := switchTerminal_gone h.lt hstack hswitch
        rw [hview] at hnone hp hcreate
        have hempty := hT.findTerminalPid_none hnone
        have hfree := he.firstFree hp
        have hres :
          k₁.processes = (k.interrupted e).processes.create c ((k.interrupted e).processes.onscreen c) p t e eip :=
          hcreate
        refine ⟨_, p, .create he hent hreq hempty hfree hgone hres, Or.inr ?_⟩
        show At k₁.processes _ p
        rw [hres]
        exact h.create he hempty (Kernel.requests_lt hreq) hp hent
      · exact absurd hswitch (switch_faultless boot hT hS hview hstack h.lt (Kernel.requests_lt hreq) k₁)
  · cases hs

end Key
/-! ## The end of a process -/

section Ending
variable {img : Image} {k k₁ k₂ k' : Kernel} {S : Stacks} {c status : ℕ} {P P₀ : Processes} {e : Entry} {caller : Cpu}

theorem findTerminalPid_inactive (hT : Table P S) {q t : ℕ} {l : List ℕ} (hS : S t = q :: l) (hqc : q ≠ c) :
    (P.setInfo c (Info.setActive 0)).findTerminalPid t = some q := by
  have hmem : q ∈ S t := by
    rw [hS]
    exact List.mem_cons_self ..
  have hslot := hT.slot t q hmem
  have hlt := (hT.lt t q hmem).2
  cases hf : (P.setInfo c (Info.setActive 0)).findTerminalPid t with
  | none =>
    unfold Processes.findTerminalPid at hf
    rw [List.find?_eq_none] at hf
    refine absurd (decide_eq_true ?_) (hf q (List.mem_range.mpr hlt))
    rw [Processes.setInfo_ne _ hqc, hslot.processId, hT.active q hlt (isTop_of_cons hS)]
    exact ⟨hslot.used, by decide, hslot.terminalNum⟩
  | some p =>
    have hp := List.mem_range.mp (List.mem_of_find?_eq_some hf)
    have hs := List.find?_some hf
    simp only [decide_eq_true_eq] at hs
    have hpc : p ≠ c := by
      rintro rfl
      rw [Processes.setInfo_self] at hs
      exact hs.2.1 rfl
    rw [Processes.setInfo_ne _ hpc] at hs
    have htop := hT.isTop_of_active hp hs.2.1
    have hmem := hT.mem_terminal htop.stacked
    rw [hs.2.2] at hmem
    obtain ⟨l', hl'⟩ := hT.apart.top_of_mem htop hmem
    rw [hS] at hl'
    rw [(List.cons.inj hl').1]

theorem onscreen_inactive (P : Processes) (c : ℕ) :
    (P.setInfo c (Info.setActive 0)).findOnscreenTerminalPid = P.findOnscreenTerminalPid := by
  refine Kernel.find_range_congr fun i _ => ?_
  rw [Processes.setInfo_field P Info.isOnscreen c i (Info.setActive 0) fun _ => rfl]
  rfl

/-- **The exit of a root shell** of another terminal shows terminal 0 and spins. -/
theorem halt_closes {fs : Filesystem} (h : At P S c) (he : Entered P c P.cpu P₀) (hk : k₁.processes = P₀)
    (hstack : getPcb k₁.cpu.esp = getPcbPtr c) {t q y : ℕ} {l : List ℕ} (hS : S t = [c]) (ht : t ≠ 0)
    (hS0 : S 0 = q :: l)
    (hy : y < maxProcesses) (hpar : (P.info c).parent = getPcbPtr y) (hterm : (P.info y).terminalNum ≠ t) :
    ∃ k₂, halt img fs k₁ e caller status = .gone k₂ ∧
      k₂.processes = (P₀.exitToSpin c (P₀.onscreen q) q).resume { k₁.cpu with mode := .spin } := by
  have hT := h.table_entered he
  have hSh := h.shown_entered he
  have hc : c ∈ S t := by
    rw [hS]
    exact List.mem_cons_self ..
  have hqc : q ≠ c := by
    rintro rfl
    have hq : q ∈ S 0 := by
      rw [hS0]
      exact List.mem_cons_self ..
    exact ht (h.table.apart.disjoint hc hq)
  have hfind := @findTerminalPid_inactive S c P₀ hT q 0 l hS0 hqc
  have hinfo : ∀ r, k₁.processes.info r = P.info r := fun r => by rw [hk, he.info]
  obtain ⟨k₂, -, hview, hhalt⟩ := @halt_cross img fs k₁ e caller status c y h.lt hy hstack (by rw [hinfo, hpar]) (by
    rw [hinfo, hinfo, (h.table.slot t c hc).terminalNum]
    exact hterm)
  rw [hk] at hview
  have hfield : ∀ {α : Type} (field : Info → α), (∀ i, field (i.setActive 0) = field i) → ∀ r,
      field ((P₀.setInfo c (Info.setActive 0)).info r) = field (P₀.info r) := fun field hf r =>
    Processes.setInfo_field P₀ field c r (Info.setActive 0) hf
  have hstack₂ : getPcb k₂.cpu.esp = getPcbPtr c := by
    have hcpu : k₂.cpu = k₁.cpu := (congrArg Processes.cpu hview).trans (congrArg Processes.cpu hk).symm
    rw [hcpu]
    exact hstack
  have hsw : Switchable k₂ := by
    refine switchable_of hview hstack₂ h.lt hT.fixed (hT.used hT.zero_stacked) (fun p hp hon => ?_) ?_
    · rw [hfield Info.isOnscreen (fun _ => rfl)] at hon
      rw [hfield Info.fakePageAddr fun _ => rfl]
      exact hSh.page p hp hon
    · obtain ⟨p, hp, hon⟩ := hSh.some
      refine ⟨p, hT.slot_lt hp.stacked, hT.used hp.stacked, ?_⟩
      rw [hfield Info.isOnscreen fun _ => rfl]
      exact hon
  have hfind₂ : k₂.findTerminalPid 0 = some q := by
    rw [← Kernel.processes_findTerminalPid, hview]
    exact hfind
  have hqlt := h.table.slot_lt ⟨0, by rw [hS0]; exact List.mem_cons_self ..⟩
  obtain ⟨k₃, hshow⟩ := @switchTerminal_shows k₂ 0 q img fs hsw hfind₂ (by
    have hpage := (h.table.slot 0 q (by rw [hS0]; exact List.mem_cons_self ..)).fakePageAddr
    rw [← he.info, ← hfield Info.fakePageAddr fun _ => rfl, ← hview, k₂.processes_info hqlt] at hpage
    exact ⟨0, by decide, hpage⟩) e
  rcases switchTerminal_ret hshow with ⟨-, hx, -⟩ | ⟨q', hq', hfind', -, hview₃⟩
  · cases hx
  · rw [hview, hfind, Option.some.injEq] at hfind'
    subst hfind'
    rw [hview, onscreen_inactive] at hview₃
    refine ⟨_, by rw [hhalt, hshow]; rfl, ?_⟩
    have hid : (k₃.pcb (getPcbPtr c)).processId = c := by
      rw [← Pcb.info_processId, slot_info h.lt, hview₃, display_field Info.processId fun _ _ => rfl,
        hfield Info.processId fun _ => rfl, he.info]
      exact h.table.processId ⟨t, hc⟩
    have hcpu : k₃.cpu = k₁.cpu := (congrArg Processes.cpu hview₃).trans (congrArg Processes.cpu hk).symm
    rw [hid, hcpu]
    show (k₃.processes.release c).resume { k₁.cpu with mode := .spin } = _
    rw [hview₃]
    rfl

/-- **The exit of the first shell** is its start. -/
theorem halt_restarts (boot : img.Bootable) (h : At P S c) (he : Entered P c P.cpu P₀) (hk : k₁.processes = P₀)
    (hstack : getPcb k₁.cpu.esp = getPcbPtr c) (hS : S 0 = [c]) :
    ∃ k₂ eip, halt img (Image.WellFormed.pointers img) k₁ e caller status = .gone k₂ ∧
      k₂.processes = (P₀.release c).start e caller eip := by
  have hc0 : c = 0 := by
    have hfirst := h.table.first
    rw [hS, List.getLast?_singleton, Option.some.injEq] at hfirst
    exact hfirst
  subst hc0
  have hinfo : ∀ r, k₁.processes.info r = P.info r := fun r => by rw [hk, he.info]
  have hid : (k₁.processes.info 0).processId = 0 := by
    rw [hinfo]
    exact h.table.processId h.table.zero_stacked
  have hview : (k₁.freeProcess 0).processes = P₀.release 0 := by
    rw [Kernel.processes_freeProcess, hk]
  have hfree : (k₁.freeProcess 0).processIds 0 = 0 := Function.update_self 0 0 k₁.processIds
  have hslot : (k₁.freeProcess 0).getProcessId ≠ none := fun hx => Kernel.getProcessId_none.mp hx 0 (by decide) hfree
  obtain ⟨k₂, hgone⟩ := execute_shell boot e caller hslot
  have hhalt : halt img (Image.WellFormed.pointers img) k₁ e caller status = .gone k₂ := by
    rw [halt_root h.lt hstack (by rw [hinfo]; exact h.table.root), hid, hgone]
    rfl
  obtain ⟨p, eip, hp, hstart, -⟩ := execute_gone (k := k₁.freeProcess 0) (c := 0) (by decide) hstack hgone
  rw [hview] at hp hstart
  have hp0 : p = 0 := by
    by_contra hne
    exact hp.least 0 (by omega) (Function.update_self 0 0 P₀.ids)
  exact ⟨k₂, eip, hhalt, hstart hp0⟩

theorem leaked_info (P : Processes) (o : Option ℕ) : (P.leaked o).info = P.info := by
  cases o <;> rfl

theorem leaked_frames (P : Processes) (o : Option ℕ) : (P.leaked o).frames = P.frames := by
  cases o <;> rfl

theorem leaked_cpu (P : Processes) (o : Option ℕ) : (P.leaked o).cpu = P.cpu := by
  cases o <;> rfl

/-- **A process that ends** hands its terminal back, starts over, ends its stack, or is lost. -/
theorem ending_follows (boot : img.Bootable) (h : At k.processes S c) (hm : k.cpu.mode = .user) (hent : EntryOn c e)
    (hroom : getPcb (e.regs.esp - 4) = getPcbPtr c) {ev : Event} {o : Option ℕ}
    (hend : Ending img (Image.WellFormed.pointers img) k ev k₁ e status)
    (hbefore : k₁.processes = (k.called e).leaked o)
    (hleak : ∀ p ∈ o, k.processes.FirstFree p) :
    Follows img (Image.WellFormed.pointers img) k S c ev
      ((halt img (Image.WellFormed.pointers img) k₁ e k.cpu status).afterHalt k.cpu) := by
  have he : Entered k.processes c k.cpu (k.called e) := entered_call h e.regs.esp
  have htop : IsTop S c := h.isTop (by rw [show k.processes.cpu.mode = .user from hm]; decide)
  have hB : At (k.processes.leaked o) S c := by
    cases o with
    | none => exact h
    | some p => exact h.take htop p
  have heB : Entered (k.processes.leaked o) c (k.processes.leaked o).cpu ((k.called e).leaked o) := by
    cases o with
    | none => exact he
    | some p => exact At.entered_take he p
  have hcpuB : (k.processes.leaked o).cpu = k.cpu := leaked_cpu _ o
  have hmB : (k.processes.leaked o).cpu.mode = .user := by
    rw [hcpuB]
    exact hm
  have hesp : k₁.cpu.esp = e.regs.esp := by
    have hk₁ : k₁.cpu = (k.called e).cpu := (congrArg Processes.cpu hbefore).trans (leaked_cpu (k.called e) o)
    rw [hk₁]
    rfl
  have hstack : getPcb k₁.cpu.esp = getPcbPtr c := by
    rw [hesp]
    exact hent.esp
  have hinfo : ∀ r, k₁.processes.info r = (k.processes.leaked o).info r := fun r => by rw [hbefore, heB.info]
  obtain ⟨t, l, hS⟩ := htop.cons
  have hmem : c ∈ S t := by
    rw [hS]
    exact List.mem_cons_self ..
  cases l with
  | cons q l =>
    have hq : q ∈ S t := by
      rw [hS]
      exact List.mem_cons_of_mem c (List.mem_cons_self ..)
    have hpar := hB.table.calls t
    rw [hS, List.isChain_cons_cons] at hpar
    have hterm : (k₁.processes.info q).terminalNum = (k₁.processes.info c).terminalNum := by
      rw [hinfo, hinfo, (hB.table.slot t q hq).terminalNum, (hB.table.slot t c hmem).terminalNum]
    obtain ⟨k₂, hgone, hview⟩ := @halt_same img (Image.WellFormed.pointers img) k₁ e k.cpu status c q h.lt
      (h.table.lt t q hq).2 hstack (by rw [hinfo]; exact hpar.1) hterm
    obtain ⟨y, hframe, heq, hat⟩ := hB.pop heB hS status
    rw [hinfo, hbefore] at hview
    have hres : k₂.processes = (((k.called e).leaked o).exitTo c q).resume { y with eax := 0 } := hview.trans heq
    rw [leaked_frames, leaked_info] at hframe
    rw [hgone]
    show Follows img (Image.WellFormed.pointers img) k S c ev k₂
    refine ⟨_, q, .pop he hend hbefore hleak hS hframe hgone hres, Or.inr ?_⟩
    rw [hres]
    exact hat
  | nil =>
    by_cases ht : t = 0
    · subst ht
      obtain ⟨k₂, eip, hgone, hview⟩ :=
        @halt_restarts img k₁ S c status (k.processes.leaked o) ((k.called e).leaked o) e k.cpu boot hB heB
        hbefore hstack hS
      rw [hgone]
      show Follows img (Image.WellFormed.pointers img) k S c ev k₂
      refine ⟨S, c, .restart he hend hbefore hleak hS hgone hview, Or.inr ?_⟩
      rw [hview, ← hcpuB]
      exact hB.restart heB hS hent hmB
    · obtain ⟨y, hy, hpar⟩ := hB.table.roots t c ht (by rw [hS]; rfl)
      by_cases hterm : ((k.processes.leaked o).info y).terminalNum = t
      · have hsame : (k₁.processes.info y).terminalNum = (k₁.processes.info c).terminalNum := by
          rw [hinfo, hinfo, hterm, (hB.table.slot t c hmem).terminalNum]
        obtain ⟨k₂, hgone, hview⟩ := @halt_same img (Image.WellFormed.pointers img) k₁ e k.cpu status c y h.lt hy hstack
          (by rw [hinfo]; exact hpar) hsame
        rw [hinfo, hbefore, leaked_info] at hview
        have hwild := hB.lost heB hS ht hy hpar hterm status
        rw [leaked_info] at hwild
        have hwild₂ : k₂.cpu.mode = .wild := (congrArg (fun P => P.cpu.mode) hview).trans hwild
        rw [leaked_info] at hpar
        rw [hgone]
        exact ⟨S, c, .lost he hend hbefore hleak hS ht ⟨hy, hpar⟩ (by rwa [leaked_info] at hterm) hgone hview hwild₂,
          Or.inl hwild₂⟩
      · obtain ⟨q, l, hS0⟩ := hB.table.first_cons
        obtain ⟨k₂, hgone, hview⟩ :=
          @halt_closes img k₁ S c status (k.processes.leaked o) ((k.called e).leaked o) e k.cpu
          (Image.WellFormed.pointers img) hB heB hbefore hstack t q y l hS ht hS0 hy hpar hterm
        have hqc : q ≠ c := by
          rintro rfl
          have hq : q ∈ S 0 := by
            rw [hS0]
            exact List.mem_cons_self ..
          exact ht (h.table.apart.disjoint hmem hq)
        rw [hgone]
        show Follows img (Image.WellFormed.pointers img) k S c ev k₂
        refine ⟨_, c, .close he hend hbefore hleak hS ht ⟨hy, by rwa [leaked_info] at hpar⟩
          (by rwa [leaked_info] at hterm) hS0 (x := { k₁.cpu with mode := .spin }) ⟨rfl, hesp⟩ hgone hview, Or.inr ?_⟩
        rw [hview]
        exact hB.close heB hS ht (isTop_of_cons hS0) hqc rfl hstack (by
          show getPcb (k₁.cpu.esp - 4) = getPcbPtr c
          rw [hesp]
          exact hroom)

end Ending
/-! ## Every event -/

section Step
variable {img : Image} {k k' k₁ : Kernel} {S : Stacks} {c status : ℕ} {ev : Event} {e : Entry}

theorem announce_processes (k : Kernel) (vector : ℕ) : (k.announce vector).processes = k.processes := by
  unfold Kernel.announce Kernel.printf
  rw [Kernel.processes_withConsole, Kernel.processes_withConsole, Kernel.processes_withConsole]

theorem execute_follows (boot : img.Bootable) (h : At k.processes S c) {e : Entry} {command : List UInt8}
    (hs : step img (Image.WellFormed.pointers img) k (.execute e command) = some k') :
    Follows img (Image.WellFormed.pointers img) k S c (.execute e command) k' := by
  simp only [step] at hs
  split at hs
  · next hc =>
    obtain ⟨hm, hf, -⟩ := hc
    obtain ⟨hent, hroom⟩ := entryOn_of_fits h hf
    have he := entered_call h e.regs.esp
    have hT := h.table_entered he
    have htop : IsTop S c := h.isTop (by rw [show k.processes.cpu.mode = .user from hm]; decide)
    obtain ⟨t, l, hS⟩ := htop.cons
    cases ho : execute img (Image.WellFormed.pointers img) (k.enter e.regs.esp) e k.cpu command with
    | ret r k₁ =>
      obtain ⟨rfl, rfl⟩ := execute_ret ho
      rw [ho] at hs
      cases hs
      refine ⟨S, c, .stay ⟨fun _ _ _ hx => ?_, fun _ hx => (by cases hx), fun _ _ _ hx => (by cases hx),
        fun e' command' k₁ hx hgone => ?_⟩ rfl rfl (Or.inl rfl), Or.inr ?_⟩
      · cases hx with
        | fault hf =>
          rw [ho] at hf
          cases hf
      · cases hx
        cases ho.symm.trans hgone
      exact h.back_to hT (h.contexts_entered he c) (h.shown_entered he) he.esp0 htop (Or.inl hm)
    | gone k₁ =>
      rw [ho] at hs
      cases hs
      obtain ⟨p, eip, hp, -, hpush⟩ := execute_gone (k := k.enter e.regs.esp) (c := c) h.lt hent.esp ho
      have hp0 := hT.firstFree_ne_zero hp
      have hpc : p ≠ c := fun hx => hT.firstFree hp (hx ▸ htop.stacked)
      have hview := hpush hp0 hpc
      refine ⟨_, p, .push he hent hS (he.firstFree hp) ho hview, Or.inr ?_⟩
      show At k₁.processes _ p
      rw [hview]
      exact h.push he hS hp hent hm
    | fault k₁ =>
      rw [ho] at hs
      cases hs
      have hend : Ending img (Image.WellFormed.pointers img) k (.execute e command) (k₁.announce 14) e 255 := .fault ho
      rcases execute_fault ho with hsame | ⟨p, hp, htake⟩
      · exact ending_follows (o := none) boot h hm hent hroom hend ((announce_processes _ _).trans hsame)
          fun p hp => by cases hp
      · exact ending_follows (o := some p) boot h hm hent hroom hend ((announce_processes _ _).trans htake)
          fun q hq => by
            cases hq
            exact he.firstFree hp
  · cases hs

theorem entryOn_of_tick {fs : Filesystem} (h : At k.processes S c)
    (hs : step img fs k (.tick e) = some k') : EntryOn c e := by
  simp only [step] at hs
  split at hs
  · next hc => exact (entryOn_of_fits h hc.2.1).1
  · cases hs

theorem entryOn_of_key {fs : Filesystem} {scanCode : ℕ} (h : At k.processes S c)
    (hs : step img fs k (.key e scanCode) = some k') : EntryOn c e := by
  simp only [step] at hs
  split at hs
  · next hc => exact (entryOn_of_fits h hc.2.1).1
  · cases hs

theorem entryOn_of_ending {fs : Filesystem} (h : At k.processes S c) (hs : step img fs k ev = some k')
    (hend : Ending img fs k ev k₁ e status) : EntryOn c e ∧ k.cpu.mode = .user := by
  cases hend with
  | halt =>
    simp only [step] at hs
    split at hs
    · next hc => exact ⟨(entryOn_of_fits h hc.2.1).1, hc.1⟩
    · cases hs
  | exception =>
    simp only [step] at hs
    split at hs
    · next hc => exact ⟨(entryOn_of_fits h hc.2.1).1, hc.1⟩
    · cases hs
  | fault =>
    simp only [step] at hs
    split at hs
    · next hc => exact ⟨(entryOn_of_fits h hc.2.1).1, hc.1⟩
    · cases hs

/-- **Every event is a move**, or control is lost. -/
theorem step_follows (boot : img.Bootable) (h : At k.processes S c)
    (hs : step img (Image.WellFormed.pointers img) k ev = some k') :
    Follows img (Image.WellFormed.pointers img) k S c ev k' := by
  cases ev with
  | tick e => exact tick_follows h hs
  | key e scanCode => exact key_follows boot h hs
  | execute e command => exact execute_follows boot h hs
  | halt e status =>
    simp only [step] at hs
    split at hs
    · next hc =>
      cases hs
      obtain ⟨hent, hroom⟩ := entryOn_of_fits h hc.2.1
      exact ending_follows (o := none) boot h hc.1 hent hroom (.halt e status) rfl
        fun p hp => by cases hp
    · cases hs
  | exception e vector =>
    simp only [step] at hs
    split at hs
    · next hc =>
      cases hs
      obtain ⟨hent, hroom⟩ := entryOn_of_fits h hc.2.1
      exact ending_follows (o := none) boot h hc.1 hent hroom (.exception e vector)
        (announce_processes _ _) fun p hp => by cases hp
    · cases hs
  | output b => exact output_follows h hs
  | trap x => exact trap_follows h hs
  | work w => exact work_follows h hs

theorem step_wild {fs : Filesystem} (hm : k.cpu.mode = .wild) : step img fs k ev = none := by
  cases ev <;> simp [step, hm]

/-! ## The start -/

def firstStacks : Stacks := fun t => if t = 0 then [0] else []

theorem firstStacks_mem {t p : ℕ} : p ∈ firstStacks t ↔ t = 0 ∧ p = 0 := by
  unfold firstStacks
  split
  · next ht => simp only [List.mem_singleton, ht, true_and]
  · next ht => simp only [List.not_mem_nil, ht, false_and]

theorem firstStacks_stacked {p : ℕ} : Stacked firstStacks p ↔ p = 0 := by
  constructor
  · rintro ⟨t, ht⟩
    exact (firstStacks_mem.mp ht).2
  · rintro rfl
    exact ⟨0, firstStacks_mem.mpr ⟨rfl, rfl⟩⟩

theorem firstStacks_top {p : ℕ} : IsTop firstStacks p ↔ p = 0 := by
  constructor
  · intro h
    exact firstStacks_stacked.mp h.stacked
  · rintro rfl
    exact ⟨0, rfl⟩

theorem started_start {fs : Filesystem} (h : Started img fs k) :
    ∃ k₀ e eip, Booted k₀ ∧ k₀.current = getPcbPtr 0 ∧ k₀.entryEsp ≤ stackTop 0 ∧ k₀.fits e = true ∧
      execute img fs (k₀.enter e.regs.esp) e k₀.cpu shell = .gone k ∧
      k.processes = (k₀.enter e.regs.esp).processes.start e k₀.cpu eip := by
  obtain ⟨k₀, e, hb, ⟨hfits, -⟩, hexec⟩ := h
  have hcur : k₀.current = getPcbPtr 0 := by
    unfold Kernel.current Kernel.entryEsp
    rw [hb.mode]
    exact hb.stack.2
  have hesp : k₀.entryEsp ≤ stackTop 0 := by
    have hslot := (getPcb_slot (by decide)).mp hb.stack.1
    unfold Kernel.entryEsp
    rw [hb.mode]
    simp only [stackTop]
    omega
  have hstack : getPcb (k₀.enter e.regs.esp).cpu.esp = getPcbPtr 0 := by
    unfold Kernel.fits Kernel.onStack at hfits
    simp only [decide_eq_true_eq, hcur] at hfits
    exact hfits.2.2.1.1
  obtain ⟨p, eip, hp, hstart, -⟩ := execute_gone (k := k₀.enter e.regs.esp) (c := 0) (by decide) hstack hexec
  have hp0 : p = 0 := by
    by_contra hne
    exact hp.least 0 (by omega) (hb.processIds 0)
  exact ⟨k₀, e, eip, hb, hcur, hesp, hfits, hexec, hstart hp0⟩

/-- **Where runs start**: the first shell has the processor. -/
theorem started_at {fs : Filesystem} (h : Started img fs k) : At k.processes firstStacks 0 := by
  obtain ⟨k₀, e, eip, hb, hcur, hesp, hfits, -, hview⟩ := started_start h
  unfold Kernel.fits Kernel.onStack at hfits
  simp only [decide_eq_true_eq, hcur] at hfits
  obtain ⟨-, ⟨h₂, h₂'⟩, ⟨h₃, -⟩, ⟨h₄, h₄'⟩, -⟩ := hfits
  have hinfo : ∀ r < maxProcesses, r ≠ 0 → (k.processes.info r).isActive = 0 ∧ (k.processes.info r).isOnscreen = 0 := by
    intro r hr hr0
    rw [hview, Processes.start_info, if_neg hr0]
    show (k₀.processes.info r).isActive = 0 ∧ (k₀.processes.info r).isOnscreen = 0
    rw [k₀.processes_info hr]
    obtain ⟨-, hact, hon, -⟩ := hb.pcb r hr
    exact ⟨hact, hon⟩
  have hzero : k.processes.info 0 = Info.root 0 0 0 e := by
    rw [hview, Processes.start_info, if_pos rfl]
  have hframes : k.processes.frames = Function.update (Function.update (fun _ => .lost) e.regs.ebp (.execute k₀.cpu))
      e.frame (.setupExecStack k₀.cpu) := by
    have hlost : (k₀.enter e.regs.esp).processes.frames = fun _ => .lost := by
      funext a
      show (if getPcb a = k₀.current ∧ a < k₀.tss.esp0 then Frame.lost else k₀.frames a) = .lost
      rw [hb.frames, ite_self]
    rw [← hlost, hview]
    rfl
  have hframe : ∀ a, k.processes.frames a ≠ .lost → getPcb a = getPcbPtr 0 ∧ a + 12 ≤ stackTop 0 := by
    intro a hf
    rw [hframes] at hf
    by_cases hfr : a = e.frame
    · rw [hfr]
      exact ⟨h₄, by omega⟩
    by_cases heb : a = e.regs.ebp
    · rw [heb]
      exact ⟨h₂, by omega⟩
    · rw [Function.update_of_ne hfr, Function.update_of_ne heb] at hf
      exact absurd rfl hf
  have hcpu : k.processes.cpu.mode = .user ∧ k.processes.esp0 = stackTop 0 - 4 := by
    rw [hview]
    exact ⟨rfl, rfl⟩
  have hlast : ∀ t p, (firstStacks t).getLast? = some p → t = 0 := by
    intro t p ht
    exact (firstStacks_mem.mp (List.mem_of_getLast? ht)).1
  have hchain : ∀ (R : ℕ → ℕ → Prop) t, (firstStacks t).IsChain R := by
    intro R t
    unfold firstStacks
    split
    · exact List.isChain_singleton 0
    · exact List.isChain_nil
  refine ⟨?_, ?_, ?_, ?_⟩
  · refine ⟨⟨fun t => ?_, fun hu hv => ?_⟩, fun t p ht => ?_, rfl, fun t p ht => ?_, fun p hp hset => ?_,
      fun p _ ht => ?_, fun p hp ht => ?_, fun t => hchain _ t, ?_, fun t p ht hl => absurd (hlast t p hl) ht, ?_⟩
    · unfold firstStacks
      split
      · exact List.nodup_singleton 0
      · exact List.nodup_nil
    · rw [(firstStacks_mem.mp hu).1, (firstStacks_mem.mp hv).1]
    · obtain ⟨rfl, rfl⟩ := firstStacks_mem.mp ht
      exact ⟨by decide, by decide⟩
    · obtain ⟨rfl, rfl⟩ := firstStacks_mem.mp ht
      refine ⟨?_, by rw [hzero]; rfl, by rw [hzero]; rfl, by rw [hzero]; rfl, by rw [hzero]; rfl⟩
      rw [hview]
      show Function.update k₀.processIds 0 1 0 ≠ 0
      rw [Function.update_self]
      decide
    · by_cases hp0 : p = 0
      · rw [hp0, hzero]
        rfl
      · obtain ⟨hact, hon⟩ := hinfo p hp hp0
        rw [hact, hon] at hset
        exact absurd hset (by decide)
    · rw [firstStacks_top.mp ht, hzero]
      rfl
    · exact (hinfo p hp fun hx => ht (firstStacks_top.mpr hx)).1
    · rw [hzero]
      rfl
    · rw [hview]
      show FixedMap (k₀.pageDir 0) fun i => if i = pgTblIdx then 0 else k₀.pageTbl i
      rw [hb.pageDir, hb.pageTbl]
      refine ⟨rfl, fun t ht => ?_, rfl⟩
      obtain rfl | rfl | rfl : t = 0 ∨ t = 1 ∨ t = 2 := by omega
      all_goals rfl
  · refine ⟨fun a hf => ⟨0, by decide, hframe a hf⟩, fun a y ha hf => ?_, fun t => hchain _ t,
      fun t p ht hl => absurd (hlast t p hl) ht, fun p hp hs a y ha hf => ?_, fun p y hp ha hf => ?_⟩
    · exact absurd (hframe a (by rcases hf with hf | hf <;> rw [hf] <;> exact Frame.noConfusion)).1 ha
    · have hp0 : getPcbPtr p = getPcbPtr 0 := ha.symm.trans (hframe a (by rw [hf]; exact Frame.noConfusion)).1
      exact absurd (firstStacks_stacked.mpr ((getPcbPtr_inj hp (by decide)).mp hp0)) hs
    · rw [hframes] at hf
      by_cases hfr : (k.processes.info p).scheduleEbp = e.frame
      · rw [hfr, Function.update_self] at hf
        cases hf
      by_cases heb : (k.processes.info p).scheduleEbp = e.regs.ebp
      · rw [Function.update_of_ne hfr, heb, Function.update_self] at hf
        cases hf
      · rw [Function.update_of_ne hfr, Function.update_of_ne heb] at hf
        cases hf
  · refine ⟨fun p hp hon => ?_, fun p hp _ => firstStacks_top.mpr (firstStacks_stacked.mp hp), 0,
      firstStacks_top.mpr rfl, ?_⟩
    · by_cases hp0 : p = 0
      · rw [hp0, hzero]
        exact ⟨0, by decide, rfl⟩
      · exact absurd (hinfo p hp hp0).2 hon
    · rw [hzero]
      exact Nat.one_ne_zero
  · have hres : Resumable 0 k.processes.cpu := Or.inl hcpu.1
    exact ⟨onSlot_of_resumable (by decide) hres (Or.inl hcpu.2), Or.inl ⟨firstStacks_top.mpr rfl, hres⟩⟩

/-- **Every state a run reaches** represents stacks, or control is lost there. -/
theorem reached_at (boot : img.Bootable) {k₀ : Kernel} (h0 : Started img (Image.WellFormed.pointers img) k₀)
    {ok : Kernel → Event → Prop} (h : Reaches (step img (Image.WellFormed.pointers img)) ok k₀ k) :
    k.cpu.mode = .wild ∨ ∃ S c, At k.processes S c := by
  refine h.invariant (P := fun k => k.cpu.mode = .wild ∨ ∃ S c, At k.processes S c) (Or.inr ⟨_, _, started_at h0⟩) ?_
  rintro s ev u (hw | ⟨S, c, hat⟩) - hs
  · rw [step_wild hw] at hs
    cases hs
  · obtain ⟨S', c', -, hw | hat'⟩ := step_follows boot hat hs
    · exact Or.inl hw
    · exact Or.inr ⟨S', c', hat'⟩

end Step
end Kernel391
