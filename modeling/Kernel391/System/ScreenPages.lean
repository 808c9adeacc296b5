import Kernel391.Console.LogicalScreen
import Kernel391.System.BackgroundTyping
import Kernel391.System.TypedCursor

/-! The screens in memory. The physical screen holds the text of the terminal displayed, the fake
pages hold those of the others; what is printed goes to the page mapped, and to display another
terminal hands the physical screen on. -/
namespace Kernel391
open Kernel391.Foundations
set_option autoImplicit false

def Kernel.textAt (k : Kernel) (a : ℕ) : Fin screenBytes → UInt8 := fun o => k.phys (a + o)

/-- The text on the physical screen, and the texts on the fake pages. -/
def Kernel.pages (k : Kernel) : TimeShared ℕ (Fin screenBytes → UInt8) :=
  ⟨fun t => k.textAt (fakePage t), k.textAt video⟩

section Pages
variable {k k₁ k' : Kernel} {t u : ℕ}

theorem screen_lt (o : Fin screenBytes) : (o : ℕ) < fourKb := Nat.lt_of_lt_of_le o.isLt (by decide)

theorem fake_apart {o : ℕ} (htu : t ≠ u) (ho : o < fourKb) :
    ¬ (fakePage u ≤ fakePage t + o ∧ fakePage t + o < fakePage u + fourKb) := by
  simp only [fakePage_eq, fourKb] at *
  omega

theorem video_apart_fake {o : ℕ} (ho : o < fourKb) : ¬ (fakePage u ≤ video + o ∧ video + o < fakePage u + fourKb) := by
  simp only [fakePage_eq, fourKb] at *
  omega

theorem pages_congr (h : ∀ x, k'.phys x = k.phys x) : k'.pages = k.pages := by
  unfold Kernel.pages Kernel.textAt
  simp only [h]

theorem pages_of_video (h : ∀ a, ¬ (video ≤ a ∧ a < video + fourKb) → k'.phys a = k.phys a) :
    k'.pages = k.pages.write (k'.textAt video) := by
  refine congrArg (fun f => TimeShared.mk f _) (funext fun t => funext fun o => ?_)
  exact h _ video_apart

theorem pages_of_fake (h : ∀ a, ¬ (fakePage t ≤ a ∧ a < fakePage t + fourKb) → k'.phys a = k.phys a) :
    k'.pages = k.pages.store t (k'.textAt (fakePage t)) := by
  have hlive : k'.textAt video = k.textAt video := funext fun o => h _ (video_apart_fake (screen_lt o))
  have hsaved : (fun u => k'.textAt (fakePage u)) = Function.update (fun u => k.textAt (fakePage u)) t
    (k'.textAt (fakePage t)) := by
    funext u
    by_cases hu : u = t
    · rw [hu, Function.update_self]
    · rw [Function.update_of_ne hu]
      exact funext fun o => h _ (fake_apart hu (screen_lt o))
  unfold Kernel.pages TimeShared.store
  rw [hlive, hsaved]

/-- **The exchange of screens** hands the physical screen on. -/
theorem pages_exchanged (k : Kernel) (t u : ℕ) :
    ({ k with phys := exchanged k.phys t u } : Kernel).pages = k.pages.handOn t u := by
  have hlt : screenBytes ≤ fourKb := by decide
  have hsave : ∀ j (o : Fin screenBytes), copied k.phys (fakePage t) video screenBytes (fakePage j + o) =
      Function.update k.pages.saved t k.pages.live j o := by
    intro j o
    have ho := o.isLt
    unfold copied
    by_cases hj : j = t
    · rw [hj, Function.update_self, if_pos ⟨Nat.le_add_right _ _, Nat.add_lt_add_left ho _⟩, Nat.add_sub_cancel_left]
      rfl
    · have hapart := fake_apart hj (screen_lt o)
      rw [Function.update_of_ne hj, if_neg (by omega)]
      rfl
  refine congrArg₂ TimeShared.mk (funext fun j => funext fun o => ?_) (funext fun o => ?_)
  · have hapart := @video_apart j o
    rw [← hsave]
    show copied (copied k.phys (fakePage t) video screenBytes) video (fakePage u) screenBytes (fakePage j + o) = _
    generalize copied k.phys (fakePage t) video screenBytes = m
    unfold copied
    rw [if_neg (by omega)]
  · show copied (copied k.phys (fakePage t) video screenBytes) video (fakePage u) screenBytes (video + o) = _
    rw [← hsave]
    generalize copied k.phys (fakePage t) video screenBytes = m
    unfold copied
    rw [if_pos ⟨Nat.le_add_right _ _, Nat.add_lt_add_left o.isLt _⟩, Nat.add_sub_cancel_left]

end Pages

/-! ## What is typed -/

/-- What a code that asks for no terminal makes of the screen of terminal `t`. -/
def Kernel.typedScreen (k : Kernel) (t temp : ℕ) (attrib : UInt8) (s : LogicalScreen) : LogicalScreen :=
  if k.keys.handled temp then
    (if (k.keys.press temp).clears temp then s.draw attrib Console.clearScreen else s).draw attrib
      ((k.keyboard t).echo ((k.keys.press temp).currentChar temp)).run
  else s

section Typed
variable {k k₁ : Kernel} {t temp : ℕ} {c : UInt8} {attrib : UInt8} {s : LogicalScreen}

theorem typedScreen_congr (hkeys : k₁.keys = k.keys) (hkeyboard : k₁.keyboard = k.keyboard) :
    k₁.typedScreen t temp attrib s = k.typedScreen t temp attrib s := by
  unfold Kernel.typedScreen
  rw [hkeys, hkeyboard]

theorem cursor_echoed (x : Echo) : (s.draw attrib x.run).cursor = x.move s.cursor := x.cursorPos_run (s.console attrib)

theorem cursor_typed : (k.typedScreen t temp attrib s).cursor = k.typedPos t temp s.cursor := by
  unfold Kernel.typedScreen Kernel.typedPos
  by_cases hh : k.keys.handled temp = true
  · rw [if_pos hh, if_pos hh, cursor_echoed]
    by_cases hclears : (k.keys.press temp).clears temp
    · rw [if_pos hclears, if_pos hclears]
      rfl
    · rw [if_neg hclears, if_neg hclears]
  · rw [if_neg hh, if_neg hh]

theorem logical_acceptChar (k : Kernel) (t : ℕ) (c : UInt8) :
    (k.acceptChar t c).logical = k.logical.draw k.attrib ((k.keyboard t).echo c).run := by
  have hlock : ∀ {s : LogicalScreen} {k₁ : Kernel}, k₁.logical = s →
      (if c = 0x0A then k₁.setKeyboard t fun kb => { kb with enterLock := 1 } else k₁).logical = s := by
    intro s k₁ h
    split
    · exact h
    · exact h
  have hset : ∀ (k₁ : Kernel) g, (k₁.setKeyboard t g).logical = k₁.logical := fun _ _ => rfl
  have hnothing : k.logical = k.logical.draw k.attrib Echo.nothing.run := Console.draws_id.logical k.console
  have herase : k.delc.logical = k.logical.draw k.attrib Echo.erase.run := k.logical_withConsole Console.draws_delc
  have hprint : ∀ cs, (k.puts cs).logical = k.logical.draw k.attrib (Echo.print cs).run := fun cs =>
    k.logical_withConsole (Console.draws_puts cs)
  have hputc : (k.putc c).logical = k.logical.draw k.attrib (Echo.print [c]).run := hprint [c]
  unfold Kernel.acceptChar
  apply hlock
  unfold KeyboardStruct.echo
  by_cases hlive : c ≠ 0 ∧ (k.keyboard t).enterLock = 0
  · rw [if_pos hlive, if_pos hlive]
    by_cases hesc : c = esc
    · rw [if_pos hesc, if_pos hesc]
      exact hnothing
    rw [if_neg hesc, if_neg hesc]
    by_cases hback : c = 0x08 ∧ (k.keyboard t).top > 0
    · rw [if_pos hback, if_pos hback, hset]
      exact herase
    rw [if_neg hback, if_neg hback]
    by_cases htab : c = 0x09 ∧ (k.keyboard t).top < 124
    · rw [if_pos htab, if_pos htab, hset]
      exact hprint _
    rw [if_neg htab, if_neg htab]
    by_cases hroom : c ≠ 0x08 ∧ (k.keyboard t).top < 128 ∧ c ≠ 0x09
    · rw [if_pos hroom, if_pos hroom]
      by_cases hfull : (k.keyboard t).top = 127
      · rw [if_pos hfull, if_pos hfull]
        by_cases henter : c = 0x0A
        · rw [if_pos henter, if_pos henter, hset]
          exact hputc
        · rw [if_neg henter, if_neg henter]
          exact hnothing
      · rw [if_neg hfull, if_neg hfull, hset]
        exact hputc
    · rw [if_neg hroom, if_neg hroom]
      exact hnothing
  · rw [if_neg hlive, if_neg hlive]
    exact hnothing

theorem logical_pressed (k : Kernel) (temp : ℕ) : (k.pressed temp).logical =
    (if (k.keys.press temp).clears temp then k.logical.draw k.attrib Console.clearScreen else k.logical) ∧
      (k.pressed temp).attrib = k.attrib := by
  unfold Kernel.pressed
  split
  · exact ⟨({ k with keys := k.keys.press temp } : Kernel).logical_withConsole Console.draws_clearScreen, rfl⟩
  · exact ⟨rfl, rfl⟩

theorem logical_setOldData (k : Kernel) (temp : ℕ) : (k.setOldData temp).logical = k.logical := rfl

theorem logical_printf (k : Kernel) (cs : List UInt8) :
    (k.printf cs).logical = k.logical.draw k.attrib fun s => s.printf cs :=
  k.logical_withConsole (Console.draws_printf cs)

/-- **What is typed** on the screen behind the mapping. -/
theorem logical_typeCode (k : Kernel) (t temp : ℕ) :
    (k.typeCode t temp).logical = k.typedScreen t temp k.attrib k.logical := by
  by_cases hh : k.keys.handled temp = true
  · obtain ⟨-, hkeys, hkeyboard⟩ := went_pressed k temp
    obtain ⟨hpressed, hattrib⟩ := logical_pressed k temp
    rw [typeCode_handled hh, logical_setOldData, logical_acceptChar, hkeys, hkeyboard, hattrib, hpressed]
    unfold Kernel.typedScreen
    rw [if_pos hh]
  · unfold Kernel.typeCode Kernel.typedScreen
    rw [if_neg hh, if_neg hh]
    rfl

end Typed
/-! ## What the handler draws -/

section Handler
variable {img : Image} {fs : Filesystem} {k k₁ k' : Kernel} {e : Entry} {t temp u : ℕ} {r : ℤ}

theorem phys_lent (k : Kernel) (t x : ℕ) : (k.lent t).phys x = k.phys x := by
  unfold Kernel.lent Kernel.borrowScreen
  split
  · exact phys_moved (k.setAttrib (color t)) _ _ _ x
  · rfl

theorem phys_returned (k : Kernel) (page : ℕ) (info : TerminalInfo) (t x : ℕ) :
    (k.returnScreen page info t).phys x = k.phys x := by
  unfold Kernel.returnScreen
  split
  · exact phys_moved k _ _ _ x
  · rfl

theorem attrib_lent (k : Kernel) (t : ℕ) : (k.lent t).attrib = color t := by
  have hmoved : ∀ (k : Kernel) (page a b : ℕ), ((k.setVideo page).switchCursor a b).updateCursor.attrib = k.attrib :=
    fun _ _ _ _ => rfl
  unfold Kernel.lent Kernel.borrowScreen
  split
  · exact hmoved (k.setAttrib (color t)) _ _ _
  · rfl

theorem frameOf_lent (hframe : k.terminalNow.isOnscreen ≠ 0 → k.frameOf video = video) :
    (k.lent t).frameOf video = video := by
  unfold Kernel.lent Kernel.borrowScreen
  split
  · exact frameOf_borrowed _ _ _
  · next hon => exact hframe hon

def Kernel.lentScreen (k : Kernel) (t : ℕ) : LogicalScreen := ⟨k.pages.live, (k.lent t).cursors.live⟩

theorem logical_lent (hframe : k.terminalNow.isOnscreen ≠ 0 → k.frameOf video = video) :
    (k.lent t).logical = k.lentScreen t := by
  refine congrArg (fun f => LogicalScreen.mk f _) (funext fun o => ?_)
  show (k.lent t).phys ((k.lent t).frameOf video + o) = k.phys (video + o)
  rw [frameOf_lent hframe, phys_lent]

theorem pages_echoed (h : Echoed (k.lent t) k₁) (hframe : k.terminalNow.isOnscreen ≠ 0 → k.frameOf video = video) :
    k₁.pages = k.pages.write k₁.logical.text := by
  have hlent := frameOf_lent (t := t) hframe
  have hpages := pages_of_video fun a ha => (h.phys a (by rw [hlent]; exact ha)).trans (phys_lent k t a)
  rw [hpages]
  show _ = k.pages.write (k₁.textAt (k₁.frameOf video))
  rw [h.frameOf, hlent]

/-- **A code that asks for no terminal** is echoed on the screen of the terminal displayed. -/
theorem pages_typed (hframe : k.terminalNow.isOnscreen ≠ 0 → k.frameOf video = video) :
    (k.echoed t temp).pages = k.pages.write (k.typedScreen t temp (color t) (k.lentScreen t)).text := by
  unfold Kernel.echoed
  rw [pages_congr (phys_returned _ _ _ _), pages_echoed (echoed_typeCode (k.lent t) t temp) hframe,
    logical_typeCode, attrib_lent,
    logical_lent hframe, typedScreen_congr (keys_lent k t) (keyboard_lent k t)]

/-- **A request in vain** is answered there. -/
theorem pages_vain (hon : k.findOnscreenTerminalNum = some t) (hreq : k.requests temp = some u)
    (hpid : k.findTerminalPid u = none)
    (hframe : k.terminalNow.isOnscreen ≠ 0 → k.frameOf video = video) (h : handleKeyboard img fs k e temp = .ret r k') :
    k'.pages = k.pages.write ((k.lentScreen t).draw (color t) fun s => s.printf (cannotOpen u)).text := by
  rw [handleKeyboard_request hon hreq] at h
  cases hs : switchTerminal img fs (k.asked t temp) e u with
  | ret r' k₁ =>
    rw [hs] at h
    simp only [Outcome.ret.injEq] at h
    obtain ⟨rfl, rfl⟩ := switchTerminal_vain ((findTerminalPid_asked k t temp).trans hpid) hs
    have hanswered :
      (k.asked t temp).answered u temp (-1) = ((k.asked t temp).printf (cannotOpen u)).setOldData temp := by
      unfold Kernel.answered
      rw [if_pos (by decide)]
    have hasked : Echoed (k.lent t) (k.asked t temp) := echoed_keys _ _
    have hecho : Echoed (k.lent t) (((k.asked t temp).printf (cannotOpen u)).setOldData temp) :=
      (hasked.trans (echoed_withConsole _ _)).trans (echoed_setOldData _ temp)
    have hlogical : (k.asked t temp).logical = k.lentScreen t := logical_lent hframe
    have hattrib : (k.asked t temp).attrib = color t := attrib_lent k t
    have hdrawn : (((k.asked t temp).printf (cannotOpen u)).setOldData temp).logical =
        (k.lentScreen t).draw (color t) fun s => s.printf (cannotOpen u) := by
      rw [logical_setOldData, logical_printf, hlogical, hattrib]
    rw [← h.2, pages_congr (phys_returned _ _ _ _), hanswered, pages_echoed hecho hframe, hdrawn]
  | gone k₁ =>
    rw [hs] at h
    cases h
  | fault k₁ =>
    rw [hs] at h
    cases h

end Handler
/-! ## Another terminal is displayed -/

theorem fixedMap_of {k : Kernel} {a page : ℕ} (h : k.paging = Paging.of a page) : FixedMap (k.pageDir 0) k.pageTbl := by
  have hdir : k.pageDir = (Paging.of a page).directory := congrArg Paging.directory h
  have htbl : k.pageTbl = (Paging.of a page).table := congrArg Paging.table h
  have hentry : ∀ i, i ≠ tableIdx video → (Paging.of a page).table i = setupPagerTable i :=
    fun i hi => Function.update_of_ne hi ..
  rw [hdir, htbl]
  refine ⟨rfl, fun t ht => ?_, ?_⟩
  · obtain rfl | rfl | rfl : t = 0 ∨ t = 1 ∨ t = 2 := by omega
    all_goals exact hentry _ (by decide)
  · exact hentry _ (by decide)

structure TerminalInfo.IsOf (i : TerminalInfo) (t : ℕ) : Prop where
  terminalNum : i.terminalNum = t
  fakePageAddr : i.fakePageAddr = fakePage t
  lt : t < 3

section Shown
variable {img : Image} {fs : Filesystem} {k k₁ k' : Kernel} {e : Entry} {t temp u a b o q page : ℕ} {r : ℤ}

/-- What changes hands when terminal `u` is displayed in the place of `t`. -/
def Kernel.displayed (k : Kernel) (t u : ℕ) : TimeShared ℕ (Fin screenBytes → UInt8) :=
  if t = u then k.pages else k.pages.handOn t u

theorem pages_showTerminal (hm : FixedMap (k.pageDir 0) k.pageTbl) (ht : (k.pcb a).terminalInfo.IsOf t)
    (hu : (k.pcb b).terminalInfo.IsOf u) (h : k.showTerminal a b = .ok k₁) : k₁.pages = k.displayed t u := by
  have hset : ∀ (k : Kernel) f g, ((k.setTerminal a f).setTerminal b g).pages = k.pages := fun _ _ _ => rfl
  unfold Kernel.showTerminal at h
  simp only [ht.terminalNum, hu.terminalNum, ht.fakePageAddr, hu.fakePageAddr] at h
  unfold Kernel.displayed
  by_cases htu : t = u
  · rw [if_neg (not_not.mpr htu)] at h
    cases h
    rw [if_pos htu, hset]
  · rw [if_pos htu, Kernel.switchKernelMemory_eq hm ht.lt hu.lt] at h
    cases h
    rw [if_neg htu, hset, pages_exchanged]

/-- **A terminal in use is displayed.** -/
theorem switchTerminal_shown (hof : k.paging = Paging.of a page) (ho : k.findOnscreenTerminalPid = some o)
    (ht : (k.slot o).terminalInfo.IsOf t) (hpid : k.findTerminalPid u = some q) (hu : (k.slot q).terminalInfo.IsOf u)
    (h : switchTerminal img fs k e u = .ret r k₁) : k₁.pages = k.displayed t u ∧
      k₁.paging = if t = u then k.paging
        else k.paging.setVideo (Kernel.videoPage (k₁.pcb (getPcb k.cpu.esp)).terminalInfo) := by
  unfold switchTerminal at h
  simp only [hpid, ho, Option.getD_some] at h
  unfold Kernel.slot at ht hu
  generalize getPcbPtr o = x at h ht
  generalize getPcbPtr q = y at h hu
  have hpages : ∀ k₂, (k.setAttrib (color u)).showTerminal x y = .ok k₂ → k₂.pages = k.displayed t u ∧
    k₂.paging = k.paging ∧ k₂.cpu = k.cpu := by
    intro k₂ hk₂
    have hshow := @pages_showTerminal (k.setAttrib (color u)) k₂ t u x y (fixedMap_of hof) ht hu hk₂
    obtain ⟨hpaging, hcpu, -⟩ := paging_showTerminal hk₂
    exact ⟨hshow, hpaging, hcpu⟩
  have hset : ∀ (k : Kernel) page, (k.setVideo page).pages = k.pages ∧ (k.setVideo page).pcb = k.pcb :=
    fun _ _ => ⟨rfl, rfl⟩
  split at h
  · cases h
  · next k₂ hk₂ =>
    obtain ⟨hshow, hpaging, hcpu⟩ := hpages k₂ hk₂
    have hsame : ((k.setAttrib (color u)).pcb x).terminalInfo.terminalNum =
      ((k.setAttrib (color u)).pcb y).terminalInfo.terminalNum ↔ t = u := by
      rw [← ht.terminalNum, ← hu.terminalNum]
      rfl
    by_cases htu : t = u
    · rw [if_pos (hsame.mpr htu), Outcome.ret.injEq] at h
      rw [if_pos htu, ← h.2]
      exact ⟨hshow, hpaging⟩
    · rw [if_neg fun hx => htu (hsame.mp hx), Outcome.ret.injEq] at h
      rw [if_neg htu, ← h.2, (hset _ _).1, (hset _ _).2, Kernel.paging_setVideo, hpaging, hcpu]
      exact ⟨hshow, rfl⟩

theorem findOnscreenTerminalPid_asked (k : Kernel) (t temp : ℕ) :
    (k.asked t temp).findOnscreenTerminalPid = k.findOnscreenTerminalPid := by
  have hsame := same_asked k t temp
  unfold Kernel.findOnscreenTerminalPid
  rw [hsame.pcb, hsame.ids]

theorem pages_asked (k : Kernel) (t temp : ℕ) : (k.asked t temp).pages = k.pages := pages_congr (phys_lent k t)

theorem paging_lent (k : Kernel) (t : ℕ) :
    (k.lent t).paging = if k.terminalNow.isOnscreen = 0 then k.paging.setVideo video else k.paging := by
  unfold Kernel.lent Kernel.borrowScreen
  split
  · rfl
  · rfl

/-- **A request for a terminal in use** hands the physical screen on, and a process on screen has its mapping moved
with it. -/
theorem handleKeyboard_displays (hof : k.paging = Paging.of a page) (hon : k.findOnscreenTerminalNum = some t)
    (ho : k.findOnscreenTerminalPid = some o) (ht : (k.slot o).terminalInfo.IsOf t) (hreq : k.requests temp = some u)
    (hpid : k.findTerminalPid u = some q) (hu : (k.slot q).terminalInfo.IsOf u)
    (h : handleKeyboard img fs k e temp = .ret r k') :
    k'.pages = k.displayed t u ∧ (k.terminalNow.isOnscreen ≠ 0 → k'.paging =
      if t = u then k.paging else k.paging.setVideo (Kernel.videoPage (k'.pcb (getPcb k.cpu.esp)).terminalInfo)) := by
  have hsame := same_asked k t temp
  have hasked : ∃ page', (k.asked t temp).paging = Paging.of a page' := by
    have hlent : (k.asked t temp).paging = (k.lent t).paging := rfl
    rw [hlent, paging_lent, hof]
    split
    · exact ⟨video, Paging.of_setVideo a page video⟩
    · exact ⟨page, rfl⟩
  obtain ⟨page', hof'⟩ := hasked
  have hslot : ∀ p, (k.asked t temp).slot p = k.slot p := fun p => congrFun hsame.pcb _
  rw [handleKeyboard_request hon hreq] at h
  cases hs : switchTerminal img fs (k.asked t temp) e u with
  | ret r' k₁ =>
    rw [hs] at h
    simp only [Outcome.ret.injEq] at h
    obtain ⟨hpages, hpaging⟩ := switchTerminal_shown hof' ((findOnscreenTerminalPid_asked k t temp).trans ho)
      (by rw [hslot]; exact ht) ((findTerminalPid_asked k t temp).trans hpid) (by rw [hslot]; exact hu) hs
    obtain ⟨rfl, -⟩ := sameCursors_switchTerminal ((findTerminalPid_asked k t temp).trans hpid) hs
    have hdone : k₁.answered u temp 1 = k₁.setOldData temp := by
      unfold Kernel.answered
      rw [if_neg (by decide)]
    have hold : ∀ k : Kernel, (k.setOldData temp).pages = k.pages ∧ (k.setOldData temp).paging = k.paging ∧
      (k.setOldData temp).pcb = k.pcb :=
      fun _ => ⟨rfl, rfl, rfl⟩
    have hdisplayed : (k.asked t temp).displayed t u = k.displayed t u := by
      unfold Kernel.displayed
      rw [pages_asked]
    rw [hdone] at h
    refine ⟨?_, fun hscreen => ?_⟩
    · rw [← h.2, pages_congr (phys_returned _ _ _ _), (hold k₁).1, hpages, hdisplayed]
    · have hkept : ∀ (k₁ : Kernel) info, k₁.returnScreen k.oldPage info t = k₁ := fun k₁ info => by
        unfold Kernel.oldPage Kernel.returnScreen
        rw [if_neg hscreen, if_neg (by decide)]
      have hlent : (k.asked t temp).paging = k.paging := by
        have hlent : (k.asked t temp).paging = (k.lent t).paging := rfl
        rw [hlent, paging_lent, if_neg hscreen]
      rw [hlent, hsame.cpu] at hpaging
      rw [← h.2, hkept, (hold k₁).2.1, (hold k₁).2.2]
      exact hpaging
  | gone k₁ =>
    rw [hs] at h
    cases h
  | fault k₁ =>
    rw [hs] at h
    cases h

end Shown
end Kernel391
