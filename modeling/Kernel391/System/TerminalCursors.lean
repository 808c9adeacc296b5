import Kernel391.Foundations.Ghosts
import Kernel391.System.Isolation
import Kernel391.System.TypedCursor

/-! Each terminal's cursor. The position its own output has reached is a ghost of the run;
the one live cursor and the saved ones have to hold it, whoever is running. -/
namespace Kernel391
open Kernel391.Foundations
set_option autoImplicit false

/-- Output, ticks, system calls entered and left, and keystrokes. -/
def Event.TakesTurns : Event → Prop
  | .output _ => True
  | .tick _ => True
  | .trap _ => True
  | .key _ _ => True
  | _ => False

/-- A process on top of its stack has the processor, and slot `p` alone is on screen. -/
structure Scene (k : Kernel) (S : Stacks) (c p : ℕ) : Prop where
  here : At k.processes S c
  top : IsTop S c
  shown : k.processes.OnlyShown p

section Scene
variable {img : Image} {k k' : Kernel} {S : Stacks} {c p t u : ℕ} {ev : Event}

theorem Stage.scene (h : Stage k S c p) : Scene k S c p := ⟨h.here, h.top, h.shown⟩

theorem Scene.onscreen (h : Scene k S c p) : ∃ t l, S t = p :: l ∧ k.findOnscreenTerminalNum = some t := by
  obtain ⟨q, hq, hon⟩ := h.here.shown.some
  obtain rfl := h.shown.only q (h.here.table.used hq.stacked) hon
  obtain ⟨t, l, hl⟩ := hq.cons
  refine ⟨t, l, hl, onscreen_of_onlyShown h.here h.shown ?_⟩
  rw [hl]
  exact List.mem_cons_self ..

theorem Scene.flagged (h : Scene k S c p) (hon : k.terminal.isOnscreen ≠ 0) (ht : k.findOnscreenTerminalNum = some t) :
    k.terminal.terminalNum = t := by
  obtain ⟨v, l, hl⟩ := h.top.cons
  have hmem : c ∈ S v := by
    rw [hl]
    exact List.mem_cons_self ..
  obtain ⟨hnum, -, hflag⟩ := terminal_of_mem h.here hmem
  rw [hflag] at hon
  obtain rfl := h.shown.only c (h.here.table.used ⟨v, hmem⟩) hon
  rw [onscreen_of_onlyShown h.here h.shown hmem, Option.some.injEq] at ht
  rw [hnum, ht]

theorem Scene.apart (h : Scene k S c p) (hoff : k.terminal.isOnscreen = 0) (ht : k.findOnscreenTerminalNum = some t) :
    k.terminal.terminalNum ≠ t := by
  intro hnum
  obtain ⟨v, l, hl⟩ := h.top.cons
  obtain ⟨w, m, hm, hw⟩ := h.onscreen
  rw [hw, Option.some.injEq] at ht
  subst ht
  have hmem : c ∈ S v := by
    rw [hl]
    exact List.mem_cons_self ..
  obtain ⟨hnum', -, hflag⟩ := terminal_of_mem h.here hmem
  rw [← hnum, hnum', hl, List.cons.injEq] at hm
  have hon := h.shown.shown
  rw [← hm.1, ← hflag] at hon
  exact hon hoff

theorem started_scene (h : Started img (Image.WellFormed.pointers img) k) : Scene k firstStacks 0 0 :=
  ⟨started_at h, firstStacks_top.mpr rfl, started_onlyShown h⟩

theorem onlyShown_switchTo {P : Processes} {q : ℕ} {e : Entry} (h : P.OnlyShown p) :
    (P.switchTo c q e).OnlyShown p := by
  refine h.flags (switchTo_ids _ _ _ _) fun r => ?_
  rw [switchTo_info]
  by_cases hr : r = c
  · rw [hr, Processes.setInfo_self]
    rfl
  · rw [Processes.setInfo_ne _ hr]

theorem Scene.step (boot : img.Bootable) (h : Scene k S c p) (hev : ev.TakesTurns)
    (hs : step img (Image.WellFormed.pointers img) k ev = some k') : k'.cpu.mode = .wild ∨ ∃ S' c' p',
      Scene k' S' c' p' := by
  obtain ⟨S', c', hmove, hafter⟩ := step_follows boot h.here hs
  refine hafter.imp_right fun hat => ?_
  obtain ⟨t, l, hl, -⟩ := h.onscreen
  have hp : p < maxProcesses := h.here.table.slot_lt (isTop_of_cons hl).stacked
  cases hmove with
  | stay _ ids info => exact ⟨S, c, p, hat, h.top, h.shown.congr ids info⟩
  | tick entered top _ _ view =>
    refine ⟨S, _, p, hat, top, ?_⟩
    rw [view]
    exact onlyShown_switchTo (h.shown.congr entered.ids entered.info)
  | @display _ _ _ q _ _ entered _ stack _ _ view =>
    refine ⟨S, c, q, hat, h.top, ?_⟩
    have hinside := h.shown.congr entered.ids entered.info
    rw [view, hinside.onscreen hp]
    refine (hinside.display ?_).resume _
    rw [entered.ids]
    exact h.here.table.used (isTop_of_cons stack).stacked
  | create entered _ _ _ _ _ view =>
    refine ⟨_, c', c', hat, isTop_update.mpr (Or.inl rfl), ?_⟩
    have hinside := h.shown.congr entered.ids entered.info
    rw [view, hinside.onscreen hp]
    exact hinside.create
  | push => exact absurd hev id
  | pop _ ending => cases ending <;> exact absurd hev id
  | restart _ ending => cases ending <;> exact absurd hev id
  | close _ ending => cases ending <;> exact absurd hev id
  | lost _ ending => cases ending <;> exact absurd hev id

end Scene
/-! ## The positions reached -/

/-- What an event prints, seen from the terminals' cursors. -/
def Kernel.outputs (img : Image) (fs : Filesystem) (k : Kernel) (ev : Event)
    (positions : ℕ → CursorPos) : ℕ → CursorPos :=
  match ev with
  | .output c => Function.update positions k.terminal.terminalNum ((positions k.terminal.terminalNum).putc c)
  | .key e scanCode =>
    match k.findOnscreenTerminalNum with
    | none => positions
    | some t =>
      match k.requests scanCode with
      | none => Function.update positions t (k.typedPos t scanCode (positions t))
      | some u =>
        match k.findTerminalPid u with
        | some _ => positions
        | none =>
          match handleKeyboard img fs (k.interrupted e) e scanCode with
          | .gone _ => Function.update positions u ⟨0, 0⟩
          | _ => Function.update positions t ((positions t).puts (cannotOpen u))
  | _ => positions

/-- One event, with the positions the terminals' own output has reached. -/
def cursorStep (img : Image) (fs : Filesystem) : Ghosted Kernel (ℕ → CursorPos) → Event →
    Option (Ghosted Kernel (ℕ → CursorPos)) :=
  ghostStep (step img fs) (Kernel.outputs img fs)

/-- Where the cursors of the terminals are at the start of a run. -/
def Kernel.positions (k : Kernel) : ℕ → CursorPos := k.cursors.values k.terminal.terminalNum

/-- One terminal has the live cursor, the one of the process on the processor, and every cursor is at the position
reached. -/
def Kernel.KeepsPositions (k : Kernel) (positions : ℕ → CursorPos) : Prop :=
  ∃ i, k.cursors.Holds positions i ∧ (k.cpu.mode ≠ .wild → i = k.terminal.terminalNum)

/-- A keystroke that creates a terminal interrupts a process off screen, or one whose cursor happens to be saved. -/
def Kernel.LeavesSaved (k : Kernel) : Event → Prop
  | .key _ scanCode => ∀ u, k.requests scanCode = some u → k.findTerminalPid u = none →
      (∃ p < maxProcesses, ¬ k.inUse p) → k.terminal.isOnscreen = 0 ∨
        k.cursors.saved k.terminal.terminalNum = k.cursors.live
  | _ => True

def Kernel.plain (k : Kernel) : Event → Bool
  | .output _ => true
  | .tick _ => true
  | .trap _ => true
  | .key _ scanCode => (k.requests scanCode).isNone
  | _ => false

theorem plain_leaves (k : Kernel) (ev : Event) (h : k.plain ev = true) : ev.TakesTurns ∧ k.LeavesSaved ev := by
  cases ev with
  | output => exact ⟨trivial, trivial⟩
  | tick => exact ⟨trivial, trivial⟩
  | trap => exact ⟨trivial, trivial⟩
  | key e scanCode =>
    refine ⟨trivial, fun u hreq _ _ => ?_⟩
    cases (Option.isNone_iff_eq_none.mp h).symm.trans hreq
  | execute => cases h
  | halt => cases h
  | exception => cases h
  | work => cases h

section Lend
variable {k : Kernel} {t : ℕ} {p : CursorPos} {positions : ℕ → CursorPos}

theorem lent_holds (h : k.cursors.Holds positions k.terminalNow.terminalNum)
    (hflag : k.terminalNow.isOnscreen ≠ 0 → k.terminalNow.terminalNum = t) : (k.lent t).cursors.Holds positions t := by
  by_cases hoff : k.terminalNow.isOnscreen = 0
  · rw [(lent_offscreen hoff).1]
    exact h.handOn t
  · rw [(lent_onscreen hoff).1]
    rw [hflag hoff] at h
    exact h

theorem givenBack_holds (h : k.cursors.Holds positions k.terminalNow.terminalNum)
    (hflag : k.terminalNow.isOnscreen ≠ 0 → k.terminalNow.terminalNum = t) (p : CursorPos) :
    (k.givenBack t p).Holds (Function.update positions t p) k.terminalNow.terminalNum := by
  unfold Kernel.givenBack
  split
  · exact ((h.handOn t).write p).handOn _
  · next hon =>
    rw [hflag hon] at h ⊢
    exact h.write p

end Lend
/-! ## One event -/

section Events
variable {img : Image} {k k' k₁ : Kernel} {S : Stacks} {c p q scanCode t u : ℕ} {e : Entry} {r : ℤ}
  {positions : ℕ → CursorPos}

theorem terminalNum_kept (h : Scene k S c p) (hat : At k'.processes S c) :
    k'.terminal.terminalNum = k.terminal.terminalNum := by
  obtain ⟨t, ht⟩ := h.top.stacked
  exact (terminal_of_mem hat ht).1.trans (terminal_of_mem h.here ht).1.symm

theorem key_fits {fs : Filesystem} (hs : step img fs k (.key e scanCode) = some k') : k.fits e = true ∧
    k' = (handleKeyboard img fs (k.interrupted e) e scanCode).afterInterrupt img fs e k.cpu := by
  simp only [step] at hs
  split at hs
  · next hc => exact ⟨hc.2.1, (Option.some.inj hs).symm⟩
  · cases hs

theorem key_returns (boot : img.Bootable) (h : At k.processes S c)
    (hs : step img (Image.WellFormed.pointers img) k (.key e scanCode) = some k')
    (hret : handleKeyboard img (Image.WellFormed.pointers img) (k.interrupted e) e scanCode = .ret r k₁) :
    k' = k₁.resume k.cpu ∧ At k'.processes S c ∧
      ∀ u, k.requests scanCode = some u → k.findTerminalPid u = none → ∀ q < maxProcesses, k.inUse q := by
  obtain ⟨-, hk'⟩ := key_fits hs
  rw [hret] at hk'
  have hk' : k' = k₁.resume k.cpu := hk'
  have hm : k'.cpu.mode ≠ .wild := by
    rw [hk']
    show k.cpu.mode ≠ .wild
    exact not_wild h
  obtain ⟨S', c', hmove, hafter⟩ := step_follows boot h hs
  cases hmove with
  | stay uneventful =>
    exact ⟨hk', hafter.resolve_left hm, fun u hreq _ => (uneventful.key e scanCode u rfl hreq).2⟩
  | display _ request stack =>
    refine ⟨hk', hafter.resolve_left hm, fun u hreq hpid => ?_⟩
    obtain rfl := Option.some.inj (request.symm.trans hreq)
    cases hpid.symm.trans (findTerminalPid_of_cons h stack)
  | create _ _ _ _ _ gone => cases hret.symm.trans gone
  | pop _ ending => cases ending
  | restart _ ending => cases ending
  | close _ ending => cases ending
  | lost _ ending => cases ending

theorem key_leaves (boot : img.Bootable) (h : At k.processes S c)
    (hs : step img (Image.WellFormed.pointers img) k (.key e scanCode) = some k')
    (hgone : handleKeyboard img (Image.WellFormed.pointers img) (k.interrupted e) e scanCode = .gone k₁) :
    k' = k₁ ∧ ∃ u q, k.requests scanCode = some u ∧ S u = [] ∧ q < maxProcesses ∧ ¬ k.inUse q ∧
      At k'.processes (Function.update S u [q]) q := by
  obtain ⟨-, hk'⟩ := key_fits hs
  rw [hgone] at hk'
  have hon : (k.interrupted e).findOnscreenTerminalNum ≠ none := onscreenNum_interrupted h (key_fits hs).1
  obtain ⟨S', c', hmove, hafter⟩ := step_follows boot h hs
  cases hmove with
  | stay uneventful =>
    exfalso
    cases hreq : k.requests scanCode with
    | none =>
      obtain ⟨t, ht⟩ := Option.ne_none_iff_exists'.mp hon
      cases hgone.symm.trans (@handleKeyboard_quiet img _ (k.interrupted e) e t scanCode ht hreq)
    | some u =>
      obtain ⟨q, hq, -⟩ := paging_handleKeyboard_gone hgone
      exact (uneventful.key e scanCode u rfl hreq).2 q hq.lt hq.free
  | display _ _ _ ret => cases hgone.symm.trans ret
  | @create _ _ u _ _ _ _ request stack slot _ view =>
    have hm : k'.processes.cpu.mode = .user := by
      rw [view]
      rfl
    exact ⟨hk', u, _, request, stack, slot.lt, not_not.mpr slot.free, hafter.resolve_left fun hwild =>
      Mode.noConfusion (hm.symm.trans hwild)⟩
  | pop _ ending => cases ending
  | restart _ ending => cases ending
  | close _ ending => cases ending
  | lost _ ending => cases ending

theorem output_keeps {fs : Filesystem} {x : UInt8} (h : k.cursors.Holds positions k.terminal.terminalNum)
    (hs : step img fs k (.output x) = some k') : k'.KeepsPositions (k.outputs img fs (.output x) positions) := by
  simp only [step] at hs
  split at hs
  · cases hs
    have hpos := congrArg k.cursors.write (k.console.cursorPos_putc x)
    refine ⟨k.terminal.terminalNum, ?_, fun _ => rfl⟩
    show ((k.putc x).cursors).Holds (Function.update positions k.terminal.terminalNum _) _
    rw [show (k.putc x).cursors = k.cursors.write (k.console.cursorPos.putc x) from hpos, ← h.live]
    exact h.write _
  · cases hs

theorem tick_keeps {fs : Filesystem} (hsc : Scene k S c p) (h : k.cursors.Holds positions k.terminal.terminalNum)
    (hs : step img fs k (.tick e) = some k') : k'.KeepsPositions (k.outputs img fs (.tick e) positions) := by
  obtain ⟨q, hq, -, hk', -, hafter⟩ := tick_next hsc.here hs
  have hcursors : k'.cursors = k.cursors.handOn k.terminal.terminalNum (k.slot q).terminalInfo.terminalNum := by
    rw [hk', cursors_ticked, terminal_eq hsc.here]
  have hinfo : (k'.slot q).terminalInfo = (k.slot q).terminalInfo := by
    rw [hk', slot_ticked]
  refine ⟨(k.slot q).terminalInfo.terminalNum, ?_, fun hm => ?_⟩
  · rw [hcursors]
    exact h.handOn _
  · rw [terminal_eq (hafter.resolve_left hm), hinfo]

theorem trap_keeps {fs : Filesystem} {x : Cpu} (hsc : Scene k S c p)
    (h : k.cursors.Holds positions k.terminal.terminalNum)
    (hs : step img fs k (.trap x) = some k') : k'.KeepsPositions (k.outputs img fs (.trap x) positions) := by
  have hcursors : k'.cursors = k.cursors := by
    rcases trap_eq hs with rfl | rfl
    · rfl
    · rfl
  obtain ⟨S', c', hmove, hafter⟩ := trap_follows hsc.here hs
  refine ⟨k.terminal.terminalNum, ?_, fun hm => ?_⟩
  · rw [hcursors]
    exact h
  · cases hmove with
    | stay => exact (terminalNum_kept hsc (hafter.resolve_left hm)).symm
    | pop _ ending => cases ending
    | restart _ ending => cases ending
    | close _ ending => cases ending
    | lost _ ending => cases ending

theorem interrupted_scene (h : Scene k S c p) (hf : k.fits e = true) (ht : k.findOnscreenTerminalNum = some t) :
    (k.interrupted e).terminalNow = k.terminal ∧
      ((k.interrupted e).terminalNow.isOnscreen ≠ 0 → (k.interrupted e).terminalNow.terminalNum = t) ∧
      ((k.interrupted e).terminalNow.isOnscreen = 0 → (k.interrupted e).terminalNow.fakePageAddr ≠ 0) := by
  have hnow := terminalNow_interrupted hf
  rw [hnow]
  exact ⟨rfl, fun hon => h.flagged hon ht, fun _ => terminal_page_ne_zero h.here h.top⟩

theorem moved_keeps (hsc : Scene k S c p) (h : k.cursors.Holds positions k.terminal.terminalNum) (hf : k.fits e = true)
    (ht : k.findOnscreenTerminalNum = some t) (hat : At k'.processes S c) {x : CursorPos}
    (hcursors : k'.cursors = (k.interrupted e).givenBack t x) : k'.KeepsPositions (Function.update positions t x) := by
  obtain ⟨hnow, hflag, -⟩ := interrupted_scene hsc hf ht
  have hback := @givenBack_holds (k.interrupted e) t positions (by rw [hnow]; exact h) hflag x
  refine ⟨k.terminal.terminalNum, ?_, fun _ => (terminalNum_kept hsc hat).symm⟩
  rw [hcursors, ← hnow]
  exact hback

/-- **A keystroke** that creates no terminal. -/
theorem key_keeps (boot : img.Bootable) (hsc : Scene k S c p) (h : k.cursors.Holds positions k.terminal.terminalNum)
    (hs : step img (Image.WellFormed.pointers img) k (.key e scanCode) = some k')
    (hret : handleKeyboard img (Image.WellFormed.pointers img) (k.interrupted e) e scanCode = .ret r k₁) :
    k'.KeepsPositions (k.outputs img (Image.WellFormed.pointers img) (.key e scanCode) positions) := by
  obtain ⟨t, -, -, ht⟩ := hsc.onscreen
  obtain ⟨hf, -⟩ := key_fits hs
  obtain ⟨hk', hat, -⟩ := key_returns boot hsc.here hs hret
  obtain ⟨hnow, hflag, hpage⟩ := interrupted_scene hsc hf ht
  have hlent : ((k.interrupted e).lent t).cursors.live = positions t :=
    (@lent_holds (k.interrupted e) t positions (by rw [hnow]; exact h) hflag).live
  have hcursors : k'.cursors = k₁.cursors := by
    rw [hk']
    rfl
  unfold Kernel.outputs
  simp only [ht]
  cases hreq : k.requests scanCode with
  | none =>
    simp only
    have hquiet := @handleKeyboard_quiet img (Image.WellFormed.pointers img) (k.interrupted e) e t scanCode ht hreq
    rw [hret, Outcome.ret.injEq] at hquiet
    have hecho := @cursors_echoed (k.interrupted e) t scanCode hpage
    rw [hlent, (@typedPos_congr k (k.interrupted e) t scanCode true (positions t) rfl rfl).1] at hecho
    exact moved_keeps hsc h hf ht hat (hcursors.trans ((congrArg Kernel.cursors hquiet.2).trans hecho))
  | some u =>
    simp only
    cases hpid : k.findTerminalPid u with
    | some q =>
      simp only
      have hshows := handleKeyboard_shows (k := k.interrupted e) ht hreq hpid hpage hret
      rw [hlent] at hshows
      have hkeeps := moved_keeps hsc h hf ht hat (hcursors.trans hshows)
      rwa [Function.update_eq_self] at hkeeps
    | none =>
      simp only [hret]
      have hvain := handleKeyboard_vain (k := k.interrupted e) ht hreq hpid hpage hret
      rw [hlent] at hvain
      exact moved_keeps hsc h hf ht hat (hcursors.trans hvain)

/-- **A keystroke that creates a terminal** keeps the positions exactly when the one it takes the cursor from is
saved. -/
theorem create_keeps_iff (boot : img.Bootable) (hsc : Scene k S c p)
    (h : k.cursors.Holds positions k.terminal.terminalNum)
    (hs : step img (Image.WellFormed.pointers img) k (.key e scanCode) = some k')
    (hgone : handleKeyboard img (Image.WellFormed.pointers img) (k.interrupted e) e scanCode = .gone k₁) :
    k'.KeepsPositions (k.outputs img (Image.WellFormed.pointers img) (.key e scanCode) positions) ↔
      k.LeavesSaved (.key e scanCode) := by
  obtain ⟨t, l, hl, ht⟩ := hsc.onscreen
  obtain ⟨hf, -⟩ := key_fits hs
  obtain ⟨hk', u, q, hreq, hS, hq, hfree, hat⟩ := key_leaves boot hsc.here hs hgone
  obtain ⟨hnow, hflag, -⟩ := interrupted_scene hsc hf ht
  obtain ⟨hpid, hcursors⟩ := handleKeyboard_creates (k := k.interrupted e) ht hreq hgone
  have houtputs : k.outputs img (Image.WellFormed.pointers img) (.key e scanCode) positions =
    Function.update positions u ⟨0, 0⟩ := by
    have hpid' : k.findTerminalPid u = none := hpid
    unfold Kernel.outputs
    simp only [ht, hreq, hpid', hgone]
  have hlent := @lent_holds (k.interrupted e) t positions (by rw [hnow]; exact h) hflag
  have hmem : q ∈ Function.update S u [q] u := by
    rw [Function.update_self]
    exact List.mem_cons_self ..
  have howner : k'.terminal.terminalNum = u := (terminal_of_mem hat hmem).1
  have htu : t ≠ u := by
    intro htu
    rw [htu, hS] at hl
    cases hl
  have hkeeps : k'.KeepsPositions (Function.update positions u ⟨0, 0⟩) ↔
    ((k.interrupted e).lent t).cursors.saved t = positions t := by
    have hreplace := @TimeShared.Holds.replace_iff ℕ CursorPos _ _ _ t u ⟨0, 0⟩ hlent
    rw [← hcursors, ← hk'] at hreplace
    constructor
    · rintro ⟨i, hi, hnum⟩
      rw [hnum (not_wild hat), howner] at hi
      exact (hreplace.mp hi).resolve_left htu
    · intro hsaved
      exact ⟨u, hreplace.mpr (Or.inr hsaved), fun _ => howner.symm⟩
  rw [houtputs, hkeeps]
  by_cases hoff : k.terminal.isOnscreen = 0
  · have hown : k.terminal.terminalNum ≠ t := hsc.apart hoff ht
    rw [(lent_offscreen (by rw [hnow]; exact hoff)).1, hnow, TimeShared.handOn_saved hown.symm]
    exact iff_of_true (h.saved t hown.symm) fun _ _ _ _ => Or.inl hoff
  · have hown : k.terminal.terminalNum = t := hsc.flagged hoff ht
    rw [(lent_onscreen (by rw [hnow]; exact hoff)).1]
    constructor
    · intro hsaved v hv _ _
      right
      rw [h.live, hown]
      exact hsaved
    · intro hleaves
      have hsaved := (hleaves u hreq hpid ⟨q, hq, hfree⟩).resolve_left hoff
      rw [h.live, hown] at hsaved
      exact hsaved

/-- **One event** keeps the positions exactly when it leaves no position unsaved. -/
theorem keeps_iff (boot : img.Bootable) (hsc : Scene k S c p)
    (h : k.cursors.Holds positions k.terminal.terminalNum) {ev : Event}
    (hev : ev.TakesTurns) (hs : step img (Image.WellFormed.pointers img) k ev = some k') :
    k'.KeepsPositions (k.outputs img (Image.WellFormed.pointers img) ev positions) ↔ k.LeavesSaved ev := by
  cases ev with
  | output x => exact iff_of_true (output_keeps h hs) trivial
  | tick e => exact iff_of_true (tick_keeps hsc h hs) trivial
  | trap x => exact iff_of_true (trap_keeps hsc h hs) trivial
  | key e scanCode =>
    obtain ⟨hf, -⟩ := key_fits hs
    cases hout : handleKeyboard img (Image.WellFormed.pointers img) (k.interrupted e) e scanCode with
    | ret r k₁ =>
      obtain ⟨-, -, hfull⟩ := key_returns boot hsc.here hs hout
      refine iff_of_true (key_keeps boot hsc h hs hout) fun u hreq hpid hfree => ?_
      obtain ⟨q, hq, hne⟩ := hfree
      exact absurd (hfull u hreq hpid q hq) hne
    | gone k₁ => exact create_keeps_iff boot hsc h hs hout
    | fault k₁ => exact absurd hout (keyboard_faultless boot hsc.here hf k₁)
  | execute => exact absurd hev id
  | halt => exact absurd hev id
  | exception => exact absurd hev id
  | work => exact absurd hev id

end Events
/-! ## A run -/

section Runs
variable {img : Image} {k₀ k k' : Kernel} {ev : Event} {positions : ℕ → CursorPos} {s : Ghosted Kernel (ℕ → CursorPos)}

def Attended (k : Kernel) (positions : ℕ → CursorPos) : Prop :=
  k.KeepsPositions positions ∧ (k.cpu.mode = .wild ∨ ∃ S c p, Scene k S c p)

theorem not_wild_of_step {fs : Filesystem} (hs : step img fs k ev = some k') : k.cpu.mode ≠ .wild := by
  intro hm
  cases ev <;> simp [step, hm] at hs

theorem Attended.going {fs : Filesystem} (h : Attended k positions) (hs : step img fs k ev = some k') :
    ∃ S c p, Scene k S c p ∧ k.cursors.Holds positions k.terminal.terminalNum := by
  have hm := not_wild_of_step hs
  obtain ⟨⟨i, hi, hnum⟩, hscene⟩ := h
  obtain ⟨S, c, p, hsc⟩ := hscene.resolve_left hm
  rw [hnum hm] at hi
  exact ⟨S, c, p, hsc, hi⟩

theorem attended_start (h : k.cpu.mode = .wild ∨ ∃ S c p, Scene k S c p) : Attended k k.positions :=
  ⟨⟨_, k.cursors.holds_values _, fun _ => rfl⟩, h⟩

theorem Attended.next (boot : img.Bootable) (h : Attended k positions) (hev : ev.TakesTurns) (hsaved : k.LeavesSaved ev)
    (hs : step img (Image.WellFormed.pointers img) k ev = some k') :
    Attended k' (k.outputs img (Image.WellFormed.pointers img) ev positions) := by
  obtain ⟨S, c, p, hsc, hi⟩ := h.going hs
  exact ⟨(keeps_iff boot hsc hi hev hs).mpr hsaved, hsc.step boot hev hs⟩

theorem attended_run (boot : img.Bootable) (h0 : Started img (Image.WellFormed.pointers img) k₀)
    (h : Reaches (cursorStep img (Image.WellFormed.pointers img))
      (fun s ev => ev.TakesTurns ∧ s.state.LeavesSaved ev) ⟨k₀, k₀.positions⟩ s) :
    Attended s.state s.ghost := by
  refine h.invariant (P := fun s => Attended s.state s.ghost) (attended_start (Or.inr ⟨_, _, _, started_scene h0⟩)) ?_
  intro s ev s' hs hok hst
  obtain ⟨hstep, hghost⟩ := ghostStep_some hst
  rw [hghost]
  exact hs.next boot hok.1 hok.2 hstep

/-- **Each terminal keeps its own cursor** as long as no terminal is created while a process on screen runs whose cursor
is not saved, and a keystroke that does so loses it. -/
theorem terminals_keep_cursors (img : Image) (boot : img.Bootable) {k₀ : Kernel}
    (h0 : Started img (Image.WellFormed.pointers img) k₀)
    {s : Ghosted Kernel (ℕ → CursorPos)}
    (h : Reaches (cursorStep img (Image.WellFormed.pointers img))
      (fun s ev => ev.TakesTurns ∧ s.state.LeavesSaved ev) ⟨k₀, k₀.positions⟩ s) :
    s.state.KeepsPositions s.ghost ∧
      (∀ ev k', ev.TakesTurns → step img (Image.WellFormed.pointers img) s.state ev = some k' →
        (k'.KeepsPositions (s.state.outputs img (Image.WellFormed.pointers img) ev s.ghost) ↔ s.state.LeavesSaved ev)) ∧
      ∀ e scanCode k' t, step img (Image.WellFormed.pointers img) s.state (.key e scanCode) = some k' →
        s.state.findOnscreenTerminalNum = some t → ((s.state.interrupted e).lent t).cursors.Holds s.ghost t := by
  have hattended := attended_run boot h0 h
  refine ⟨hattended.1, fun ev k' hev hs => ?_, fun e scanCode k' t hs ht => ?_⟩
  · obtain ⟨S, c, p, hsc, hi⟩ := hattended.going hs
    exact keeps_iff boot hsc hi hev hs
  · obtain ⟨S, c, p, hsc, hi⟩ := hattended.going hs
    obtain ⟨hnow, hflag, -⟩ := interrupted_scene hsc (key_fits hs).1 ht
    exact @lent_holds (s.state.interrupted e) t s.ghost (by rw [hnow]; exact hi) hflag

theorem firstShell_prints : ∃ k positions, Reaches (cursorStep Image.small (Image.WellFormed.pointers Image.small))
      (fun s ev => ev.TakesTurns ∧ s.state.LeavesSaved ev) ⟨firstShell, firstShell.positions⟩ ⟨k, positions⟩ ∧
        k.cpu.mode = .user ∧ k.requests 0x3C = some 1 ∧
    k.findTerminalPid 1 = none ∧ ¬ k.inUse 1 ∧ k.terminal.isOnscreen ≠ 0 ∧
      k.cursors.saved k.terminal.terminalNum ≠ k.cursors.live := by
  have hobs : (runEvents (guarded (step Image.small (Image.WellFormed.pointers Image.small)) Kernel.plain) firstShell
      [.trap { firstShell.cpu with mode := .kernel, esp := firstShell.entryEsp - 64 }, .output 0x61,
        .trap firstShell.cpu,
        .key (firstShell.entry 64) 0x38]).map
      (fun k => (k.cpu.mode, k.requests 0x3C, k.findTerminalPid 1, k.processIds 1, k.terminal.isOnscreen,
        decide (k.cursors.saved k.terminal.terminalNum = k.cursors.live))) =
          some (.user, some 1, none, 0, 1, false) := by
    decide +kernel
  obtain ⟨k, hs, hk⟩ := Option.map_eq_some_iff.mp hobs
  simp only [Prod.mk.injEq, decide_eq_false_iff_not] at hk
  obtain ⟨hm, hreq, hpid, hfree, hon, hsaved⟩ := hk
  have hrun : Reaches (step Image.small (Image.WellFormed.pointers Image.small))
    (fun k ev => ev.TakesTurns ∧ k.LeavesSaved ev) firstShell k :=
    reaches_of_guarded plain_leaves (reaches_of_runEvents hs)
  obtain ⟨positions, hghost⟩ := hrun.ghosted firstShell.positions
  refine ⟨k, positions, hghost, hm, hreq, hpid, ?_, ?_, hsaved⟩
  · unfold Kernel.inUse
    rw [hfree]
    decide
  · rw [hon]
    decide

theorem firstShell_saved :
    ((step Image.small (Image.WellFormed.pointers Image.small) firstShell (.tick (firstShell.entry 0))).bind
    fun a => (step Image.small (Image.WellFormed.pointers Image.small) a (.key (a.entry 64) 0x38)).map fun b =>
      decide (b.cursors.saved b.terminal.terminalNum = b.cursors.live)) = some true := by
  decide +kernel

/-- The second terminal is opened, the first shell prints while it is displayed, and then its own is. -/
theorem terminals_keep_cursors_switched :
    ∃ w x y s, Reaches (cursorStep Image.small (Image.WellFormed.pointers Image.small))
      (fun s ev => ev.TakesTurns ∧ s.state.LeavesSaved ev) ⟨firstShell, firstShell.positions⟩ w ∧
    Stage w.state (stacksOf [0] [1] []) 0 1 ∧ Reaches (cursorStep Image.small (Image.WellFormed.pointers Image.small))
      (fun s ev => ev.TakesTurns ∧ s.state.LeavesSaved ev) w x ∧
    cursorStep Image.small (Image.WellFormed.pointers Image.small) x (.output 0x61) = some y ∧
    Reaches (cursorStep Image.small (Image.WellFormed.pointers Image.small))
      (fun s ev => ev.TakesTurns ∧ s.state.LeavesSaved ev) y s ∧
    Stage s.state (stacksOf [0] [1] []) 0 0 ∧ s.state.KeepsPositions s.ghost := by
  obtain ⟨a, b, c, k, h⟩ := second_terminal_opens
  obtain ⟨k₁, k₂, k₃, d, e, s, hs₁, hs₂, hs₃, hs₄, hs₅, hs₆, hd, hreq, hs⟩ :=
    @SecondTerminal.shown a b c k h 0x61 (by decide)
  have hsaved := firstShell_saved
  rw [h.ticked, Option.bind_some, h.held, Option.map_some, Option.some.injEq, decide_eq_true_eq] at hsaved
  have hshown : d.LeavesSaved (.key (d.entry 64) 0x3B) := by
    intro u hu hpid
    obtain rfl : 0 = u := Option.some.inj (hreq.symm.trans hu)
    rw [findTerminalPid_of_cons hd.here (q := 0) (l := []) rfl] at hpid
    cases hpid
  have hopening :
    Reaches (step Image.small (Image.WellFormed.pointers Image.small)) (fun s ev => ev.TakesTurns ∧ s.LeavesSaved ev)
      firstShell k := by
    refine Reaches.tail ?_ (plain_leaves c (.tick (c.entry 0)) rfl) h.back
    refine Reaches.tail ?_ ⟨show (Event.key (b.entry 64) 0x3C).TakesTurns from trivial, fun _ _ _ _ =>
      Or.inr hsaved⟩ h.opened
    refine Reaches.tail ?_ (plain_leaves a (.key (a.entry 64) 0x38) (Option.isNone_iff_eq_none.mpr h.alt)) h.held
    exact Reaches.single (plain_leaves firstShell (.tick (firstShell.entry 0)) rfl) h.ticked
  have hrest :
    Reaches (step Image.small (Image.WellFormed.pointers Image.small)) (fun s ev => ev.TakesTurns ∧ s.LeavesSaved ev)
      k₂ s := by
    refine Reaches.tail ?_ (plain_leaves e (.tick (e.entry 0)) rfl) hs₆
    refine Reaches.tail ?_ ⟨show (Event.key (d.entry 64) 0x3B).TakesTurns from trivial, hshown⟩ hs₅
    refine Reaches.tail ?_ (plain_leaves k₃ (.tick (k₃.entry 0)) rfl) hs₄
    exact Reaches.single (plain_leaves k₂ (.trap k.cpu) rfl) hs₃
  obtain ⟨g₀, hrun₀⟩ :=
    @Reaches.ghosted _ _ _ _ (Kernel.outputs Image.small (Image.WellFormed.pointers Image.small)) _ _ _ hopening
    firstShell.positions
  have hentry :
    Reaches (step Image.small (Image.WellFormed.pointers Image.small)) (fun s ev => ev.TakesTurns ∧ s.LeavesSaved ev)
      k k₁ := Reaches.single (plain_leaves k (.trap _) rfl) hs₁
  obtain ⟨g₁, hrun₁⟩ :=
    @Reaches.ghosted _ _ _ _ (Kernel.outputs Image.small (Image.WellFormed.pointers Image.small)) _ _ _ hentry g₀
  have hdraw := ghostStep_of hs₂ (Kernel.outputs Image.small (Image.WellFormed.pointers Image.small)) g₁
  obtain ⟨g, hrun⟩ :=
    @Reaches.ghosted _ _ _ _ (Kernel.outputs Image.small (Image.WellFormed.pointers Image.small)) _ _ _ hrest
    (k₁.outputs Image.small (Image.WellFormed.pointers Image.small) (.output 0x61) g₁)
  have hall := ((hrun₀.trans hrun₁).tail (plain_leaves k₁ (.output 0x61) rfl) hdraw).trans hrun
  exact ⟨⟨k, g₀⟩, ⟨k₁, g₁⟩, ⟨k₂, _⟩, ⟨s, g⟩, hrun₀, h.stage, hrun₁, hdraw, hrun, hs,
    (terminals_keep_cursors Image.small Image.small_bootable firstShell_started hall).1⟩

/-- Alt and F2 take the cursor of the first shell away. -/
theorem new_terminal_loses_cursor :
    ¬ ∀ (img : Image), img.Bootable → ∀ (k₀ : Kernel) (s : Ghosted Kernel (ℕ → CursorPos)),
      Started img (Image.WellFormed.pointers img) k₀ →
      Reaches (cursorStep img (Image.WellFormed.pointers img)) (fun _ ev => ev.TakesTurns) ⟨k₀, k₀.positions⟩ s →
        s.state.KeepsPositions s.ghost := by
  intro hall
  obtain ⟨k, positions, hghost, hm, hreq, hpid, hfree, hon, hsaved⟩ := firstShell_prints
  obtain ⟨⟨i, hi, hnum⟩, hscene⟩ := attended_run Image.small_bootable firstShell_started hghost
  have hm' : k.cpu.mode ≠ .wild := by
    rw [hm]
    decide
  obtain ⟨S, c, p, hsc⟩ := hscene.resolve_left hm'
  rw [show i = _ from hnum hm'] at hi
  have hfit := @fits_entry k S c 64 hsc.here (roomy_user hsc.here hm) (by decide)
  have hs := @step_key Image.small (Image.WellFormed.pointers Image.small) k 0x3C (k.entry 64) hm' hfit (by decide)
    (Or.inr (roomToLoad_entry hsc.here (roomy_user hsc.here hm)))
  generalize (handleKeyboard Image.small (Image.WellFormed.pointers Image.small) (k.interrupted (k.entry 64))
    (k.entry 64) 0x3C).afterInterrupt
    Image.small (Image.WellFormed.pointers Image.small) (k.entry 64) k.cpu = k' at hs
  have hkey : (Event.key (k.entry 64) 0x3C).TakesTurns := trivial
  have hnext : cursorStep Image.small (Image.WellFormed.pointers Image.small) ⟨k, positions⟩ (.key (k.entry 64) 0x3C) =
      some ⟨k', k.outputs Image.small (Image.WellFormed.pointers Image.small) (.key (k.entry 64) 0x3C) positions⟩ := by
    unfold cursorStep ghostStep
    simp only
    rw [hs]
    rfl
  have hkeeps := hall Image.small Image.small_bootable firstShell _ firstShell_started
    ((hghost.mono fun _ _ hok => hok.1).tail hkey hnext)
  have hleaves := (keeps_iff Image.small_bootable hsc hi hkey hs).mp hkeeps
  exact (hleaves 1 hreq hpid ⟨1, by decide, hfree⟩).elim hon hsaved

end Runs
end Kernel391
