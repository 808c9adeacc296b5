import Kernel391.System.HardwareCursor
import Kernel391.System.VideoMapping

/-! The virtual screens. What each terminal's own output and echo make of its screen is a ghost of
the run; the physical screen and the fake pages have to hold it, and the running process has to
print on the right one. -/
namespace Kernel391
open Kernel391.Foundations
set_option autoImplicit false

namespace Kernel
variable (k : Kernel)

/-- The page of the terminal of the running process. -/
def ownPage : ℕ :=
  if k.findOnscreenTerminalNum = some k.terminal.terminalNum then video else fakePage k.terminal.terminalNum

/-- Both mappings of video memory, the kernel's and that of `vidmap`, lead to `page`. -/
def MapsVideo (page : ℕ) : Prop :=
  ∀ o < fourKb, k.translate (video + o) = some (page + o) ∧ k.userTranslate (userPage + o) = some (page + o)

/-- The physical screen holds the screen of the terminal displayed, the fake pages hold those of the others, and
what the running process prints goes to the screen of its terminal. -/
structure KeepsScreens (screens : ℕ → LogicalScreen) : Prop where
  texts : ∃ t, k.findOnscreenTerminalNum = some t ∧ k.textAt video = (screens t).text ∧
    ∀ u, u ≠ t → k.textAt (fakePage u) = (screens u).text
  mapped : k.cpu.mode ≠ .wild → k.MapsVideo k.ownPage

/-- What an event prints on the screens of the terminals, in the colour it prints in. -/
def draws (ev : Event) (screens : ℕ → LogicalScreen) : ℕ → LogicalScreen :=
  match ev with
  | .output c =>
    Function.update screens k.terminal.terminalNum ((screens k.terminal.terminalNum).draw k.attrib fun s => s.putc c)
  | .key _ scanCode =>
    match k.findOnscreenTerminalNum with
    | none => screens
    | some t =>
      match k.requests scanCode with
      | none => Function.update screens t (k.typedScreen t scanCode (color t) (screens t))
      | some u =>
        match k.findTerminalPid u with
        | some _ => screens
        | none => Function.update screens t ((screens t).draw (color t) fun s => s.printf (cannotOpen u))
  | _ => screens

/-- The screens at the start of a run. -/
def screens (t : ℕ) : LogicalScreen :=
  ⟨if k.findOnscreenTerminalNum = some t then k.textAt video else k.textAt (fakePage t), k.positions t⟩

end Kernel

/-- One event, with the screens that the terminals' own output has led to. -/
def drawStep (img : Image) (fs : Filesystem) : Ghosted Kernel (ℕ → LogicalScreen) → Event →
    Option (Ghosted Kernel (ℕ → LogicalScreen)) :=
  ghostStep (step img fs) Kernel.draws

/-! ## The mapping -/

section Mapping
variable {k : Kernel} {S : Stacks} {c p t page n a : ℕ}

theorem mapsVideo_of (h : k.paging = Paging.of (programFrame c) page) (hpage : VideoPage page) : k.MapsVideo page := by
  have haligned : ∃ n < 2 ^ 20, page = n * fourKb := by
    rcases hpage with rfl | ⟨u, hu, rfl⟩
    · exact ⟨pgTblIdx, by decide, rfl⟩
    · rw [fakePage_eq]
      refine ⟨pgTblIdx + (u + 1), ?_, ?_⟩
      · simp only [pgTblIdx]
        omega
      · simp only [video, fourKb, pgTblIdx]
        omega
  obtain ⟨n, hn, rfl⟩ := haligned
  have hdir : k.pageDir 0 = .table .pageTbl 3 := by
    rw [directory_of h, if_neg (by decide), if_neg (by decide)]
    rfl
  have htbl : k.pageTbl = Function.update setupPagerTable (tableIdx video) (pageTableEntry (n * fourKb) 0) :=
    congrArg Paging.table h
  have hentry : k.pageTbl pgTblIdx = n * fourKb + 3 := by
    rw [htbl, show pgTblIdx = tableIdx video from rfl, Function.update_self]
    unfold pageTableEntry
    simp only [fourKb]
    omega
  intro o ho
  have hidx : (userPage + o) / 2 ^ 22 = vmemAddr / 2 ^ 22 := by
    simp only [userPage, vmemAddr, fourKb] at ho ⊢
    omega
  have htable : tableIdx (userPage + o) = tableIdx vmemAddr := by
    unfold tableIdx
    simp only [userPage, vmemAddr, fourKb] at ho ⊢
    omega
  have hoff : (userPage + o) % 2 ^ 12 = o := by
    simp only [userPage, fourKb] at ho ⊢
    omega
  have hwalk := walk_vidmap h (by simp only [fourKb]; omega) (by simp only [fourKb]; omega) hidx
  refine ⟨Kernel.translate_first hdir (by decide) hentry ho, ?_⟩
  rw [hwalk.2, hwalk.1, if_pos htable, hoff]

theorem frameOf_mapped (h : k.paging = Paging.of a page) (hpage : VideoPage page) : k.frameOf video = page := by
  have hentry : k.pageTbl (tableIdx video) = pageTableEntry page 0 := by
    have htbl : k.pageTbl = Function.update setupPagerTable (tableIdx video) (pageTableEntry page 0) :=
      congrArg Paging.table h
    rw [htbl, Function.update_self]
  unfold Kernel.frameOf
  rw [hentry]
  rcases hpage with rfl | ⟨u, hu, rfl⟩
  · rfl
  · exact frame_fakePage hu

theorem onlyShown_of (h : k.processes.Displays p) : k.processes.OnlyShown p := by
  refine ⟨h.used, h.shown, fun q _ hon => h.only ?_ hon⟩
  by_contra hq
  have hblank : k.processes.info q = Info.blank := if_neg hq
  rw [hblank] at hon
  exact hon rfl

theorem InPlace.scene (h : InPlace k S c p) (hm : k.cpu.mode ≠ .spin) : Scene k S c p :=
  ⟨h.here, h.here.isTop hm, onlyShown_of h.displays⟩

theorem InPlace.paging (h : InPlace k S c p) (hm : k.cpu.mode ≠ .spin) :
    k.paging = Paging.of (programFrame c) (k.processes.info c).page ∧ VideoPage (k.processes.info c).page := by
  obtain ⟨a, hof⟩ := h.directed hm
  obtain ⟨page, hown, hpage⟩ := h.mapped.own hm
  have hvideo : VideoPage (k.processes.info c).page := by
    unfold Info.page
    split
    · exact Or.inl rfl
    · exact h.mapped.page
  have hvideo' : VideoPage page := by
    rcases hpage with rfl | rfl
    · exact Or.inl rfl
    · exact h.mapped.page
  have hentry : pageTableEntry page 1 = pageTableEntry (k.processes.info c).page 1 := by
    have hvid := congrArg (fun P : Paging => P.vidmap (tableIdx userPage)) (hown.symm.trans hof)
    unfold Paging.of at hvid
    simp only [Function.update_self] at hvid
    exact hvid
  refine ⟨?_, hvideo⟩
  rw [hown, hvideo'.entry_inj hvideo hentry]

theorem InPlace.ownPage (h : InPlace k S c p) (hm : k.cpu.mode ≠ .spin) : (k.processes.info c).page = k.ownPage := by
  have hsc := h.scene hm
  obtain ⟨t, l, hl, ht⟩ := hsc.onscreen
  obtain ⟨hflag, hpage⟩ := terminal_info h.here
  obtain ⟨v, hv⟩ := hsc.top.stacked
  obtain ⟨hnum, hfake, -⟩ := terminal_of_mem h.here hv
  unfold Kernel.ownPage
  rw [ht]
  by_cases hoff : k.terminal.isOnscreen = 0
  · rw [if_neg fun hx => hsc.apart hoff ht (Option.some.inj hx).symm, Info.page_off (by rw [← hflag]; exact hoff),
      ← hpage, hfake, hnum]
  · rw [if_pos (by rw [hsc.flagged hoff ht]), Info.page_on (by rw [← hflag]; exact hoff)]

theorem InPlace.mapsVideo (h : InPlace k S c p) (hm : k.cpu.mode ≠ .spin) :
    k.MapsVideo k.ownPage ∧ k.frameOf video = k.ownPage := by
  obtain ⟨hof, hpage⟩ := h.paging hm
  rw [h.ownPage hm] at hof hpage
  exact ⟨mapsVideo_of hof hpage, frameOf_mapped hof hpage⟩

end Mapping
/-! ## What one event prints -/

section Texts
variable {img : Image} {fs : Filesystem} {k k' k₁ : Kernel} {S : Stacks} {c p t u scanCode : ℕ} {e : Entry} {r : ℤ}
  {screens : ℕ → LogicalScreen} {x : LogicalScreen}

def texts (screens : ℕ → LogicalScreen) : ℕ → Fin screenBytes → UInt8 := fun t => (screens t).text

def cursors (screens : ℕ → LogicalScreen) : ℕ → CursorPos := fun t => (screens t).cursor

theorem texts_update : texts (Function.update screens t x) = Function.update (texts screens) t x.text :=
  Function.comp_update LogicalScreen.text screens t x

theorem cursors_update : cursors (Function.update screens t x) = Function.update (cursors screens) t x.cursor :=
  Function.comp_update LogicalScreen.cursor screens t x

/-- The physical screen holds the text of the terminal displayed, the fake pages hold the others. -/
def Kernel.Pictures (k : Kernel) (screens : ℕ → LogicalScreen) : Prop :=
  ∃ t, k.findOnscreenTerminalNum = some t ∧ k.pages.Holds (texts screens) t

theorem Kernel.Pictures.keeps (h : k.Pictures screens) (hm : k.cpu.mode ≠ .wild → k.MapsVideo k.ownPage) :
    k.KeepsScreens screens := by
  obtain ⟨t, ht, hholds⟩ := h
  exact ⟨⟨t, ht, hholds.live, hholds.saved⟩, hm⟩

theorem Kernel.Pictures.congr (h : k.Pictures screens) (hpages : k'.pages = k.pages)
    (hon : k'.findOnscreenTerminalNum = k.findOnscreenTerminalNum) : k'.Pictures screens := by
  obtain ⟨t, ht, hholds⟩ := h
  refine ⟨t, hon.trans ht, ?_⟩
  rw [hpages]
  exact hholds

theorem logical_own (hin : InPlace k S c p) (hm : k.cpu.mode ≠ .spin) (h : k.Pictures screens)
    (hpos : k.cursors.Holds (cursors screens) k.terminal.terminalNum) : k.logical = screens k.terminal.terminalNum := by
  obtain ⟨t, ht, hholds⟩ := h
  have hframe := (hin.mapsVideo hm).2
  have htext : k.logical.text = (screens k.terminal.terminalNum).text := by
    show k.textAt (k.frameOf video) = texts screens k.terminal.terminalNum
    rw [hframe]
    unfold Kernel.ownPage
    rw [ht]
    by_cases hown : t = k.terminal.terminalNum
    · rw [if_pos (congrArg some hown), ← hown]
      exact hholds.live
    · rw [if_neg fun hx => hown (Option.some.inj hx)]
      exact hholds.saved _ (Ne.symm hown)
  have hcursor : k.logical.cursor = (screens k.terminal.terminalNum).cursor := hpos.live
  exact LogicalScreen.ext htext hcursor

/-- **Output** goes to the screen of its own terminal. -/
theorem output_pictures {b : UInt8} (hin : InPlace k S c p) (hm : k.cpu.mode ≠ .spin) (h : k.Pictures screens)
    (hpos : k.cursors.Holds (cursors screens) k.terminal.terminalNum) (hs : step img fs k (.output b) = some k') :
    k'.Pictures (k.draws (.output b) screens) := by
  have hk' : k' = k.putc b := by
    simp only [step] at hs
    split at hs
    · exact (Option.some.inj hs).symm
    · cases hs
  have hdrawn : (k.putc b).logical = (screens k.terminal.terminalNum).draw k.attrib fun s => s.putc b := by
    rw [← logical_own hin hm h hpos]
    exact k.logical_withConsole (Console.draws_putc b)
  have htext :
    (k.putc b).textAt k.ownPage = ((screens k.terminal.terminalNum).draw k.attrib fun s => s.putc b).text := by
    rw [← hdrawn, ← (hin.mapsVideo hm).2]
    rfl
  have hphys : ∀ a, ¬ (k.ownPage ≤ a ∧ a < k.ownPage + fourKb) → (k.putc b).phys a = k.phys a := by
    intro a ha
    rw [← (hin.mapsVideo hm).2] at ha
    exact (echoed_withConsole k fun s => s.putc b).phys a ha
  obtain ⟨t, ht, hholds⟩ := h
  have hon : k'.findOnscreenTerminalNum = some t := by
    rw [hk', ← ht]
    rfl
  refine ⟨t, hon, ?_⟩
  unfold Kernel.draws
  simp only
  rw [texts_update, hk', ← htext]
  unfold Kernel.ownPage at hphys ⊢
  rw [ht] at hphys ⊢
  by_cases hown : t = k.terminal.terminalNum
  · rw [if_pos (congrArg some hown)] at hphys ⊢
    rw [pages_of_video hphys, ← hown]
    exact hholds.write _
  · rw [if_neg fun hx => hown (Option.some.inj hx)] at hphys ⊢
    rw [pages_of_fake hphys]
    exact hholds.store hown _

theorem onscreenNum_congr (hids : k'.processIds = k.processIds)
    (hpcb : ∀ a, (k'.pcb a).processId = (k.pcb a).processId ∧ (k'.pcb a).terminalInfo = (k.pcb a).terminalInfo) :
    k'.findOnscreenTerminalNum = k.findOnscreenTerminalNum := by
  unfold Kernel.findOnscreenTerminalNum
  simp only [hids, hpcb]

theorem processId_ticked (k : Kernel) (e : Entry) (c q a : ℕ) :
    ((k.ticked e c q).pcb a).processId = (k.pcb a).processId := by
  rw [pcb_ticked]
  exact (k.interrupted e).pcb_field Pcb.processId
    (f := fun p => { p with scheduleEbp := e.regs.ebp, scheduleEsp := e.regs.esp })
    (fun _ => rfl) _ a

theorem tick_pictures (hin : InPlace k S c p) (h : k.Pictures screens) (hs : step img fs k (.tick e) = some k') :
    k'.Pictures (k.draws (.tick e) screens) := by
  obtain ⟨q, -, -, hk', -⟩ := tick_next hin.here hs
  refine h.congr ?_ ?_
  · rw [hk']
    exact pages_congr (phys_ticked k e c q)
  · rw [hk']
    exact onscreenNum_congr (processIds_ticked k e c q) fun a =>
      ⟨processId_ticked k e c q a, terminalInfo_ticked k e c q a⟩

theorem trap_pictures {y : Cpu} (h : k.Pictures screens) (hs : step img fs k (.trap y) = some k') :
    k'.Pictures (k.draws (.trap y) screens) := by
  rcases trap_eq hs with rfl | rfl
  · exact h.congr rfl rfl
  · exact h.congr rfl rfl

theorem shown_screen (hsc : Scene k S c p) (hf : k.fits e = true) (ht : k.findOnscreenTerminalNum = some t)
    (h : k.pages.Holds (texts screens) t) (hpos : k.cursors.Holds (cursors screens) k.terminal.terminalNum) :
    (k.interrupted e).lentScreen t = screens t := by
  obtain ⟨hnow, hflag, -⟩ := interrupted_scene hsc hf ht
  have hlent := @lent_holds (k.interrupted e) t (cursors screens) (by rw [hnow]; exact hpos) hflag
  exact LogicalScreen.ext h.live hlent.live

theorem frame_interrupted (hin : InPlace k S c p) (hm : k.cpu.mode ≠ .spin) (hf : k.fits e = true)
    (ht : k.findOnscreenTerminalNum = some t) :
    (k.interrupted e).terminalNow.isOnscreen ≠ 0 → (k.interrupted e).frameOf video = video := by
  intro hon
  rw [terminalNow_interrupted hf] at hon
  have hframe := (hin.mapsVideo hm).2
  unfold Kernel.ownPage at hframe
  rw [ht, (hin.scene hm).flagged hon ht, if_pos rfl] at hframe
  exact hframe

/-- **A keystroke that asks for no terminal in use** is echoed, or answered, on the screen of the terminal displayed. -/
theorem echo_pictures (hin : InPlace k S c p) (hm : k.cpu.mode ≠ .spin) (h : k.Pictures screens)
    (hpos : k.cursors.Holds (cursors screens) k.terminal.terminalNum) (hf : k.fits e = true)
    (hret : handleKeyboard img fs (k.interrupted e) e scanCode = .ret r k₁)
    (hreq : ∀ u, k.requests scanCode = some u → k.findTerminalPid u = none)
    (hon : k₁.findOnscreenTerminalNum = k.findOnscreenTerminalNum) :
    k₁.Pictures (k.draws (.key e scanCode) screens) := by
  obtain ⟨t, ht, hholds⟩ := h
  have hshown := shown_screen (hin.scene hm) hf ht hholds hpos
  have hframe := frame_interrupted hin hm hf ht
  have hpages : (k.interrupted e).pages = k.pages := rfl
  refine ⟨t, hon.trans ht, ?_⟩
  unfold Kernel.draws
  simp only [ht]
  cases hr : k.requests scanCode with
  | none =>
    have htyped := @pages_typed (k.interrupted e) t scanCode hframe
    rw [@handleKeyboard_quiet img fs (k.interrupted e) e t scanCode ht hr, Outcome.ret.injEq] at hret
    have hecho : k₁ = (k.interrupted e).echoed t scanCode := hret.2.symm
    have hsame : (k.interrupted e).typedScreen t scanCode (color t) (screens t) = k.typedScreen t scanCode
      (color t) (screens t) :=
      typedScreen_congr rfl rfl
    rw [hshown, hpages, hsame] at htyped
    simp only
    rw [texts_update, hecho, htyped]
    exact hholds.write _
  | some u =>
    have hpid := hreq u hr
    have hvain := pages_vain (k := k.interrupted e) ht hr hpid hframe hret
    rw [hshown, hpages] at hvain
    simp only [hpid]
    rw [texts_update, hvain]
    exact hholds.write _

/-- **A keystroke that displays a terminal in use** prints nothing. -/
theorem display_pictures {q : ℕ} {l : List ℕ} (hin : InPlace k S c p) (hm : k.cpu.mode ≠ .spin) (h : k.Pictures screens)
    (hf : k.fits e = true) (hret : handleKeyboard img fs (k.interrupted e) e scanCode = .ret r k₁)
    (hreq : k.requests scanCode = some u) (hS : S u = q :: l) (hon : k₁.findOnscreenTerminalNum = some u) :
    k₁.Pictures (k.draws (.key e scanCode) screens) := by
  obtain ⟨t, m, hl, ht⟩ := (hin.scene hm).onscreen
  obtain ⟨t', ht', hholds⟩ := h
  obtain rfl : t = t' := Option.some.inj (ht.symm.trans ht')
  obtain ⟨a, hof⟩ := hin.directed hm
  have hpages := (key_displays hin.here hin.displays (by rw [hl]; exact List.mem_cons_self ..) hS hof hf hreq hret).1
  have hdraws : k.draws (.key e scanCode) screens = screens := by
    unfold Kernel.draws
    simp only [ht, hreq, findTerminalPid_of_cons hin.here hS]
  rw [hdraws]
  refine ⟨u, hon, ?_⟩
  rw [hpages]
  unfold Kernel.displayed
  by_cases htu : t = u
  · subst htu
    rw [if_pos rfl]
    exact hholds
  · rw [if_neg htu]
    exact hholds.handOn u

/-- **A keystroke** that creates no terminal. -/
theorem key_pictures (boot : img.Bootable) (hin : InPlace k S c p) (hm : k.cpu.mode ≠ .spin) (h : k.Pictures screens)
    (hpos : k.cursors.Holds (cursors screens) k.terminal.terminalNum)
    (hs : step img (Image.WellFormed.pointers img) k (.key e scanCode) = some k')
    (hret : handleKeyboard img (Image.WellFormed.pointers img) (k.interrupted e) e scanCode = .ret r k₁) :
    k'.Pictures (k.draws (.key e scanCode) screens) := by
  obtain ⟨hf, -⟩ := key_fits hs
  obtain ⟨hk', hat, -⟩ := key_returns boot hin.here hs hret
  have hback : k₁.Pictures (k.draws (.key e scanCode) screens) → k'.Pictures (k.draws (.key e scanCode) screens) := by
    intro hk₁
    rw [hk']
    exact hk₁.congr rfl rfl
  have hon : k₁.findOnscreenTerminalNum = k'.findOnscreenTerminalNum := by
    rw [hk']
    rfl
  obtain ⟨S', c', hmove, -⟩ := step_follows boot hin.here hs
  apply hback
  cases hmove with
  | stay quiet ids info =>
    refine echo_pictures hin hm h hpos hf hret
      (fun u hu => findTerminalPid_of_nil hin.here (quiet.key e scanCode u rfl hu).1) ?_
    rw [hon, ← k'.processes_findOnscreenTerminalNum, ← k.processes_findOnscreenTerminalNum]
    unfold Processes.findOnscreenTerminalNum
    rw [ids, info]
  | @display _ _ u q l k₂ entered request stack ret resume view =>
    have hq : q ∈ S u := by
      rw [stack]
      exact List.mem_cons_self ..
    have hdisplays : k'.processes.Displays q := by
      have hinside : (k.preempted e).Displays p := hin.displays.congr entered.ids entered.info
      rw [view, hinside.onscreen]
      refine (hinside.display (hin.here.table.lt u q hq).2 ?_).congr rfl rfl
      rw [entered.ids]
      exact hin.here.table.used ⟨u, hq⟩
    refine display_pictures hin hm h hf hret request stack ?_
    rw [hon, ← k'.processes_findOnscreenTerminalNum, (hat.owned hdisplays).searches.2.1,
      (hat.table.slot u q hq).terminalNum]
  | create _ _ _ _ _ gone => cases hret.symm.trans gone
  | pop _ ending => cases ending
  | restart _ ending => cases ending
  | close _ ending => cases ending
  | lost _ ending => cases ending

end Texts
/-! ## One event -/

section Events
variable {img : Image} {k k' : Kernel} {S : Stacks} {c p scanCode : ℕ} {e : Entry} {ev : Event}
  {screens : ℕ → LogicalScreen}

theorem key_rets (boot : img.Bootable) (h : At k.processes S c) (hnone : k.CreatesNone (.key e scanCode))
    (hs : step img (Image.WellFormed.pointers img) k (.key e scanCode) = some k') :
    ∃ r k₁, handleKeyboard img (Image.WellFormed.pointers img) (k.interrupted e) e scanCode = .ret r k₁ := by
  cases hout : handleKeyboard img (Image.WellFormed.pointers img) (k.interrupted e) e scanCode with
  | ret r k₁ => exact ⟨r, k₁, rfl⟩
  | gone k₁ =>
    obtain ⟨-, u, q, hreq, hS, hq, hfree, -⟩ := key_leaves boot h hs hout
    exact absurd (hnone u hreq (findTerminalPid_of_nil h hS) q hq) hfree
  | fault k₁ => exact absurd hout (keyboard_faultless boot h (key_fits hs).1 k₁)

theorem cursors_draws (boot : img.Bootable) (h : At k.processes S c) (hnone : k.CreatesNone ev)
    (hs : step img (Image.WellFormed.pointers img) k ev = some k') :
    cursors (k.draws ev screens) = k.outputs img (Image.WellFormed.pointers img) ev (cursors screens) := by
  cases ev with
  | output b => exact cursors_update.trans (congrArg _ ((screens k.terminal.terminalNum).cursor_putc k.attrib b))
  | key e scanCode =>
    obtain ⟨r, k₁, hret⟩ := key_rets boot h hnone hs
    unfold Kernel.draws Kernel.outputs
    cases k.findOnscreenTerminalNum with
    | none => rfl
    | some t =>
      simp only
      cases k.requests scanCode with
      | none => exact cursors_update.trans (congrArg _ cursor_typed)
      | some u =>
        simp only
        cases k.findTerminalPid u with
        | some q => rfl
        | none =>
          simp only [hret]
          exact cursors_update.trans (congrArg _ ((screens t).cursor_printf (color t) (cannotOpen u)))
  | _ => rfl

theorem keepsDisplay_of_takesTurns {fs : Filesystem} (h : ev.TakesTurns) : KeepsDisplay img fs k ev := by
  have hgoing : ∀ k₁ e status, ¬ Ending img fs k ev k₁ e status := by
    intro k₁ e status hend
    cases hend <;> exact h
  exact ⟨fun k₁ e status hend => absurd hend (hgoing k₁ e status), fun k₁ e status hend =>
    absurd hend (hgoing k₁ e status)⟩

/-- The screens are in memory, the cursors where they belong, and the mapping in place, unless control is lost. -/
structure Kernel.Depicts (k : Kernel) (screens : ℕ → LogicalScreen) : Prop where
  texts : k.Pictures screens
  cursors : k.KeepsPositions (Kernel391.cursors screens)
  place : k.cpu.mode = .wild ∨ k.cpu.mode ≠ .spin ∧ ∃ S c p, InPlace k S c p

theorem Kernel.Depicts.keeps (h : k.Depicts screens) : k.KeepsScreens screens := by
  refine h.texts.keeps fun hm => ?_
  obtain ⟨hns, S, c, p, hin⟩ := h.place.resolve_left hm
  exact (hin.mapsVideo hns).1

theorem Kernel.Depicts.going {fs : Filesystem} (h : k.Depicts screens) (hs : step img fs k ev = some k') :
    k.cpu.mode ≠ .spin ∧ (∃ S c p, InPlace k S c p) ∧
      k.cursors.Holds (Kernel391.cursors screens) k.terminal.terminalNum := by
  have hm := not_wild_of_step hs
  obtain ⟨hns, hplace⟩ := h.place.resolve_left hm
  obtain ⟨i, hi, hnum⟩ := h.cursors
  rw [hnum hm] at hi
  exact ⟨hns, hplace, hi⟩

/-- **What an event prints** is on the screens in memory, wherever the mapping leads afterwards. -/
theorem pictures_next (boot : img.Bootable) (hin : InPlace k S c p) (hns : k.cpu.mode ≠ .spin) (h : k.Pictures screens)
    (hpos : k.cursors.Holds (cursors screens) k.terminal.terminalNum) (hev : ev.TakesTurns) (hnone : k.CreatesNone ev)
    (hs : step img (Image.WellFormed.pointers img) k ev = some k') : k'.Pictures (k.draws ev screens) := by
  cases ev with
  | output b => exact output_pictures hin hns h hpos hs
  | tick e => exact tick_pictures hin h hs
  | trap y => exact trap_pictures h hs
  | key e scanCode =>
    obtain ⟨r, k₁, hret⟩ := key_rets boot hin.here hnone hs
    exact key_pictures boot hin hns h hpos hs hret
  | execute => exact absurd hev id
  | halt => exact absurd hev id
  | exception => exact absurd hev id
  | work => exact absurd hev id

theorem Kernel.Depicts.next (boot : img.Bootable) (h : k.Depicts screens) (hev : ev.TakesTurns)
    (hnone : k.CreatesNone ev)
    (hask : k.AsksElsewhere ev) (hs : step img (Image.WellFormed.pointers img) k ev = some k') :
    k'.Depicts (k.draws ev screens) := by
  obtain ⟨hns, ⟨S, c, p, hin⟩, hpos⟩ := h.going hs
  have hsc := hin.scene hns
  refine ⟨pictures_next boot hin hns h.texts hpos hev hnone hs, ?_, ?_⟩
  · rw [cursors_draws boot hin.here hnone hs]
    exact (keeps_iff boot hsc hpos hev hs).mpr (leavesSaved_of_createsNone hnone)
  · rcases hin.step boot (keepsDisplay_of_takesTurns hev) hask hs with hw | hplace
    · exact Or.inl hw
    · rcases hsc.step boot hev hs with hw | ⟨S', c', p', hsc'⟩
      · exact Or.inl hw
      · exact Or.inr ⟨not_spin_of_top hsc'.here hsc'.top, hplace⟩

theorem own_terminal_misplaced (boot : img.Bootable) (hin : InPlace k S c p) (hns : k.cpu.mode ≠ .spin)
    (hnone : k.CreatesNone (.key e scanCode)) (hreq : k.requests scanCode = some k.terminal.terminalNum)
    (hoff : k.terminal.isOnscreen = 0) (hs : step img (Image.WellFormed.pointers img) k (.key e scanCode) = some k')
    (hk' : k'.KeepsScreens screens) : False := by
  obtain ⟨hf, -⟩ := key_fits hs
  obtain ⟨r, k₁, hret⟩ := key_rets boot hin.here hnone hs
  obtain ⟨hk₁, hat, -⟩ := key_returns boot hin.here hs hret
  have hsc := hin.scene hns
  obtain ⟨v, hv⟩ := hsc.top.stacked
  obtain ⟨hnum, hfake, -⟩ := terminal_of_mem hin.here hv
  have hback := key_offscreen hin.here hf hret hsc.top hoff
  have hpaging : k'.paging = Paging.of (programFrame c) (fakePage v) := by
    have hsame : k'.paging = k₁.paging := by
      rw [hk₁]
      rfl
    rw [hsame, hback, (hin.paging hns).1, Paging.of_setVideo, hfake]
  have hmaps := mapsVideo_of hpaging (Or.inr ⟨v, (hin.here.table.lt v c hv).1, rfl⟩)
  have hon : k'.findOnscreenTerminalNum = some k'.terminal.terminalNum := by
    rw [terminalNum_kept hsc hat]
    obtain ⟨w, l, hl⟩ := hsc.top.cons
    obtain ⟨S', c', hmove, -⟩ := step_follows boot hin.here hs
    cases hmove with
    | stay quiet =>
      have hmem : c ∈ S w := by
        rw [hl]
        exact List.mem_cons_self ..
      have hnil := (quiet.key e scanCode _ rfl hreq).1
      rw [(terminal_of_mem hin.here hmem).1, hl] at hnil
      cases hnil
    | @display _ _ u q m k₂ entered request stack ret resume view =>
      have hq : q ∈ S u := by
        rw [stack]
        exact List.mem_cons_self ..
      have hdisplays : k'.processes.Displays q := by
        have hinside : (k.preempted e).Displays p := hin.displays.congr entered.ids entered.info
        rw [view, hinside.onscreen]
        refine (hinside.display (hin.here.table.lt u q hq).2 ?_).congr rfl rfl
        rw [entered.ids]
        exact hin.here.table.used ⟨u, hq⟩
      rw [← k'.processes_findOnscreenTerminalNum, (hat.owned hdisplays).searches.2.1,
        (hat.table.slot u q hq).terminalNum,
        ← Option.some.inj (hreq.symm.trans request)]
    | create _ _ _ _ _ gone => cases hret.symm.trans gone
    | pop _ ending => cases ending
    | restart _ ending => cases ending
    | close _ ending => cases ending
    | lost _ ending => cases ending
  have hmode : k'.cpu.mode ≠ .wild := not_wild hat
  have hown := hk'.mapped hmode
  unfold Kernel.ownPage at hown
  rw [if_pos hon] at hown
  have hboth := (hown 0 (by decide)).1.symm.trans (hmaps 0 (by decide)).1
  exact video_ne_fakePage (Option.some.inj hboth)

/-- **One event** keeps the screens exactly when it asks for no terminal off screen of the process it interrupts. -/
theorem keepsScreens_iff (boot : img.Bootable) (h : k.Depicts screens) (hev : ev.TakesTurns) (hnone : k.CreatesNone ev)
    (hs : step img (Image.WellFormed.pointers img) k ev = some k') : k'.KeepsScreens (k.draws ev screens) ↔
      k.AsksElsewhere ev := by
  refine ⟨fun hk' => ?_, fun hask => (h.next boot hev hnone hask hs).keeps⟩
  obtain ⟨hns, ⟨S, c, p, hin⟩, -⟩ := h.going hs
  cases ev with
  | key e scanCode => exact fun hreq hoff => own_terminal_misplaced boot hin hns hnone hreq hoff hs hk'
  | _ => exact trivial

end Events
/-! ## A run -/

section Runs
variable {img : Image} {k₀ k k' : Kernel} {S : Stacks} {c p : ℕ} {s : Ghosted Kernel (ℕ → LogicalScreen)}

theorem depicts_start (hin : InPlace k S c p) (hns : k.cpu.mode ≠ .spin) : k.Depicts k.screens := by
  obtain ⟨t, -, -, ht⟩ := (hin.scene hns).onscreen
  refine ⟨⟨t, ht, ?_⟩, ⟨_, k.cursors.holds_values _, fun _ => rfl⟩, Or.inr ⟨hns, S, c, p, hin⟩⟩
  constructor
  · exact (if_pos ht).symm
  · intro u hu
    exact (if_neg fun hx => hu (Option.some.inj (hx.symm.trans ht))).symm

theorem depicts_run (boot : img.Bootable) (h : k.Depicts k.screens)
    (hrun : Reaches (drawStep img (Image.WellFormed.pointers img))
      (fun s ev => (ev.TakesTurns ∧ s.state.CreatesNone ev) ∧ s.state.AsksElsewhere ev)
        ⟨k, k.screens⟩ s) : s.state.Depicts s.ghost := by
  refine hrun.invariant (P := fun s => s.state.Depicts s.ghost) h ?_
  intro s ev s' hs hok hst
  obtain ⟨hstep, hghost⟩ := ghostStep_some hst
  rw [hghost]
  exact hs.next boot hok.1.1 hok.1.2 hok.2 hstep

/-- **The virtual screens** neither bleed nor lose output as long as no keystroke asks for the terminal, off screen,
of the process it interrupts, and one that does ask for it leaves that process on the wrong page. -/
theorem screens_kept (img : Image) (boot : img.Bootable) {k₀ k : Kernel}
    (h0 : Started img (Image.WellFormed.pointers img) k₀)
    (h : Reaches (step img (Image.WellFormed.pointers img))
      (fun k ev => KeepsDisplay img (Image.WellFormed.pointers img) k ev ∧ k.AsksElsewhere ev) k₀ k)
    (hm : k.cpu.mode = .user ∨ k.cpu.mode = .kernel) {s : Ghosted Kernel (ℕ → LogicalScreen)}
    (hrun : Reaches (drawStep img (Image.WellFormed.pointers img))
      (fun s ev => (ev.TakesTurns ∧ s.state.CreatesNone ev) ∧ s.state.AsksElsewhere ev) ⟨k, k.screens⟩ s) :
    s.state.KeepsScreens s.ghost ∧
      ∀ ev k', ev.TakesTurns → s.state.CreatesNone ev → step img (Image.WellFormed.pointers img) s.state ev = some k' →
        (k'.KeepsScreens (s.state.draws ev s.ghost) ↔ s.state.AsksElsewhere ev) := by
  have hmodes : k.cpu.mode ≠ .wild ∧ k.cpu.mode ≠ .spin := by
    rcases hm with hm | hm <;> rw [hm] <;> decide
  obtain ⟨S, c, p, hin⟩ := (orderly_run boot h0 h).resolve_left hmodes.1
  have hdepicts := depicts_run boot (depicts_start hin hmodes.2) hrun
  exact ⟨hdepicts.keeps, fun ev k' hev hnone hs => keepsScreens_iff boot hdepicts hev hnone hs⟩

theorem plain_asksElsewhere (k : Kernel) (ev : Event) (h : k.plain ev = true) : (ev.TakesTurns ∧ k.CreatesNone ev) ∧
    k.AsksElsewhere ev := by
  have hturns := (plain_leaves k ev h).1
  cases ev with
  | key e scanCode =>
    have hnone := Option.isNone_iff_eq_none.mp h
    exact ⟨⟨hturns, fun u hreq => by cases hnone.symm.trans hreq⟩, fun hreq => by cases hnone.symm.trans hreq⟩
  | _ => exact ⟨⟨hturns, trivial⟩, trivial⟩

theorem SecondTerminal.elsewhere {a b c k : Kernel} (h : SecondTerminal a b c k) :
    Reaches (step Image.small (Image.WellFormed.pointers Image.small))
      (fun k ev => KeepsDisplay Image.small (Image.WellFormed.pointers Image.small) k ev ∧
        k.AsksElsewhere ev) firstShell k := by
  have hkeeps : ∀ (k : Kernel) ev, ev.TakesTurns →
    KeepsDisplay Image.small (Image.WellFormed.pointers Image.small) k ev :=
    fun _ _ hev => keepsDisplay_of_takesTurns hev
  have hon : b.terminal.isOnscreen ≠ 0 := by
    rw [(terminal_of_mem h.first.here (t := 0) (by decide)).2.2]
    exact h.first.shown.shown
  refine Reaches.tail ?_ ⟨hkeeps c (.tick (c.entry 0)) trivial, trivial⟩ h.back
  refine Reaches.tail ?_ ⟨hkeeps b (.key (b.entry 64) 0x3C) trivial, fun _ => hon⟩ h.opened
  refine Reaches.tail ?_ ⟨hkeeps a (.key (a.entry 64) 0x38) trivial, fun hreq => by cases h.alt.symm.trans hreq⟩ h.held
  exact Reaches.single ⟨hkeeps firstShell (.tick (firstShell.entry 0)) trivial, trivial⟩ h.ticked

/-- The first shell prints while the second terminal is displayed, and then its own is. -/
theorem screens_kept_switched : ∃ k x y s, Reaches (step Image.small (Image.WellFormed.pointers Image.small))
      (fun k ev => KeepsDisplay Image.small (Image.WellFormed.pointers Image.small) k ev ∧
        k.AsksElsewhere ev) firstShell k ∧
    Stage k (stacksOf [0] [1] []) 0 1 ∧ Reaches (drawStep Image.small (Image.WellFormed.pointers Image.small))
      (fun s ev => (ev.TakesTurns ∧ s.state.CreatesNone ev) ∧ s.state.AsksElsewhere ev) ⟨k, k.screens⟩ x ∧
    drawStep Image.small (Image.WellFormed.pointers Image.small) x (.output 0x61) = some y ∧
    Reaches (drawStep Image.small (Image.WellFormed.pointers Image.small))
      (fun s ev => (ev.TakesTurns ∧ s.state.CreatesNone ev) ∧ s.state.AsksElsewhere ev) y s ∧
    Stage s.state (stacksOf [0] [1] []) 0 0 ∧ s.state.KeepsScreens s.ghost := by
  obtain ⟨a, b, c, k, h⟩ := second_terminal_opens
  obtain ⟨k₁, k₂, k₃, d, e, s, hs₁, hs₂, hs₃, hs₄, hs₅, hs₆, hd, hreq, hs⟩ :=
    @SecondTerminal.shown a b c k h 0x61 (by decide)
  have hnone : d.CreatesNone (.key (d.entry 64) 0x3B) := by
    intro u hu hpid
    obtain rfl : 0 = u := Option.some.inj (hreq.symm.trans hu)
    rw [findTerminalPid_of_cons hd.here (q := 0) (l := []) rfl] at hpid
    cases hpid
  have hon : d.terminal.isOnscreen ≠ 0 := by
    rw [(terminal_of_mem hd.here (t := 1) (by decide)).2.2]
    exact hd.shown.shown
  have hentry : Reaches (step Image.small (Image.WellFormed.pointers Image.small))
      (fun s ev => (ev.TakesTurns ∧ s.CreatesNone ev) ∧ s.AsksElsewhere ev) k k₁ :=
        Reaches.single (plain_asksElsewhere k (.trap _) rfl) hs₁
  have hrest : Reaches (step Image.small (Image.WellFormed.pointers Image.small))
      (fun s ev => (ev.TakesTurns ∧ s.CreatesNone ev) ∧ s.AsksElsewhere ev) k₂ s := by
    refine Reaches.tail ?_ (plain_asksElsewhere e (.tick (e.entry 0)) rfl) hs₆
    refine Reaches.tail ?_ ⟨⟨show (Event.key (d.entry 64) 0x3B).TakesTurns from trivial, hnone⟩, fun _ => hon⟩ hs₅
    refine Reaches.tail ?_ (plain_asksElsewhere k₃ (.tick (k₃.entry 0)) rfl) hs₄
    exact Reaches.single (plain_asksElsewhere k₂ (.trap k.cpu) rfl) hs₃
  obtain ⟨g₁, hrun₁⟩ := @Reaches.ghosted _ _ _ _ Kernel.draws _ _ _ hentry k.screens
  obtain ⟨g, hrun⟩ := @Reaches.ghosted _ _ _ _ Kernel.draws _ _ _ hrest (k₁.draws (.output 0x61) g₁)
  have hdraw := ghostStep_of hs₂ Kernel.draws g₁
  have hall := (hrun₁.tail (plain_asksElsewhere k₁ (.output 0x61) rfl) hdraw).trans hrun
  exact ⟨k, ⟨k₁, g₁⟩, ⟨k₂, _⟩, ⟨s, g⟩, h.elsewhere, h.stage, hrun₁, hdraw, hrun, hs,
    (screens_kept Image.small Image.small_bootable firstShell_started h.elsewhere (Or.inl h.stage.mode) hall).1⟩

/-- Alt and F1 display the terminal of the first shell while it runs off screen, and leave it on its fake page. -/
theorem screens_not_kept :
    ¬ ∀ (img : Image), img.Bootable → ∀ (k₀ k : Kernel) (s : Ghosted Kernel (ℕ → LogicalScreen)),
      Started img (Image.WellFormed.pointers img) k₀ →
      Reaches (step img (Image.WellFormed.pointers img))
        (fun k ev => KeepsDisplay img (Image.WellFormed.pointers img) k ev ∧ k.AsksElsewhere ev) k₀ k →
      k.cpu.mode = .user ∨ k.cpu.mode = .kernel →
      Reaches (drawStep img (Image.WellFormed.pointers img)) (fun s ev => ev.TakesTurns ∧ s.state.CreatesNone ev)
        ⟨k, k.screens⟩ s →
      s.state.KeepsScreens s.ghost := by
  intro hall
  obtain ⟨a, b, c, k, h⟩ := second_terminal_opens
  have hrun := h.elsewhere
  have hat := h.stage.here
  have hm := h.stage.mode
  have hmodes : k.cpu.mode ≠ .wild ∧ k.cpu.mode ≠ .spin := by
    rw [hm]
    decide
  obtain ⟨S, c, p, hin⟩ := (orderly_run Image.small_bootable firstShell_started hrun).resolve_left hmodes.1
  obtain ⟨hnum, -, hflag⟩ := terminal_of_mem hat (t := 0) (by decide)
  have hoff : k.terminal.isOnscreen = 0 := by
    by_contra hon
    rw [hflag] at hon
    exact absurd (h.stage.shown.only 0 (h.stage.used.mpr (by decide)) hon) (by decide)
  have hreq : k.requests 0x3B = some k.terminal.terminalNum := by
    rw [hnum]
    unfold Kernel.requests
    rw [h.keys]
    decide
  have hnone : k.CreatesNone (.key (k.entry 64) 0x3B) := by
    intro u hu hpid
    obtain rfl : k.terminal.terminalNum = u := Option.some.inj (hreq.symm.trans hu)
    rw [hnum, findTerminalPid_of_cons hat (q := 0) (l := []) rfl] at hpid
    cases hpid
  have hkey : (Event.key (k.entry 64) 0x3B).TakesTurns := trivial
  obtain ⟨k', hs, -⟩ := h.stage.shows Image.small_bootable (by decide) (hreq.trans (congrArg some hnum)) rfl
  have hdraw : drawStep Image.small (Image.WellFormed.pointers Image.small) ⟨k, k.screens⟩ (.key (k.entry 64) 0x3B) =
      some ⟨k', k.draws (.key (k.entry 64) 0x3B) k.screens⟩ := by
    unfold drawStep ghostStep
    simp only
    rw [hs]
    rfl
  have hkept := hall Image.small Image.small_bootable firstShell k _ firstShell_started hrun (Or.inl hm)
    (Reaches.single ⟨hkey, hnone⟩ hdraw)
  exact (keepsScreens_iff Image.small_bootable (depicts_start hin hmodes.2) hkey hnone hs).mp hkept hreq hoff

end Runs
end Kernel391
