import Kernel391.System.TerminalCursors

/-! The cursor registers. What every event writes to them, and the positions of the terminal
on screen that it should write there. -/
namespace Kernel391
open Kernel391.Foundations
set_option autoImplicit false

/-! ## What is on screen -/

namespace Kernel
variable (k : Kernel)

/-- The terminal shown once the handler of a key has returned to a kernel that shows `t`. -/
def shownNext (t scanCode : ℕ) : ℕ :=
  match k.requests scanCode with
  | none => t
  | some u => if (k.findTerminalPid u).isSome then u else t

/-- Where the cursor of terminal `t` is at each update while a key is handled, the last one first. -/
def keyStops (t scanCode : ℕ) (p : CursorPos) : List CursorPos :=
  match k.requests scanCode with
  | none => k.typedStops t scanCode (k.terminal.isOnscreen ≠ 0) p
  | some u =>
    if (k.findTerminalPid u).isSome then []
    else p.puts (cannotOpen u) :: if k.terminal.isOnscreen ≠ 0 then p.putsStops (cannotOpen u) else []

/-- The position of the terminal on screen at each `update_cursor` of an event, the last one first. A process that has
the screen updates at every character; a tick and the two ends of a key update for whom they hand the cursor on to. -/
def shownAt (img : Image) (fs : Filesystem) (ev : Event) (positions : ℕ → CursorPos) : List CursorPos :=
  match k.findOnscreenTerminalNum with
  | none => []
  | some t =>
    match ev with
    | .output c => if k.terminal.isOnscreen ≠ 0 then (positions t).putcStops c else []
    | .tick _ =>
      match k.findNextActivePcb k.current with
      | none => []
      | some a => if (k.pcb a).terminalInfo.isOnscreen ≠ 0 then [positions t] else []
    | .key _ scanCode =>
      if k.terminal.isOnscreen ≠ 0 then k.keyStops t scanCode (positions t)
      else k.outputs img fs ev positions
        (k.shownNext t scanCode) :: (k.keyStops t scanCode (positions t) ++ [positions t])
    | _ => []

def Tells (k : Kernel) (l : List CursorPos) (k' : Kernel) : Prop := k'.ports = l.flatMap CursorPos.writes ++ k.ports

/-- A keystroke interrupts a process on screen, or asks for the terminal of that process, or leaves a terminal
on screen whose cursor is at the same place. -/
def FollowsShown (img : Image) (fs : Filesystem) (ev : Event) : Prop :=
  match ev with
  | .key _ scanCode => k.terminal.isOnscreen ≠ 0 ∨ k.requests scanCode = some k.terminal.terminalNum ∨
      ∀ t, k.findOnscreenTerminalNum = some t →
        (k.outputs img fs ev k.positions (k.shownNext t scanCode)).writes = (k.positions k.terminal.terminalNum).writes
  | _ => True

def CreatesNone : Event → Prop
  | .key _ scanCode => ∀ u, k.requests scanCode = some u → k.findTerminalPid u = none → ∀ p < maxProcesses, k.inUse p
  | _ => True

end Kernel
/-! ## What an event writes -/

section Writes
variable {img : Image} {fs : Filesystem} {k k' k₁ : Kernel} {t u temp : ℕ} {p : CursorPos} {l l' : List CursorPos}
  {e : Entry} {r : ℤ}

theorem tells_refl (k : Kernel) : k.Tells [] k := rfl

theorem Kernel.Tells.trans (h : k.Tells l k₁) (h' : k₁.Tells l' k') : k.Tells (l' ++ l) k' := by
  unfold Kernel.Tells at h h' ⊢
  rw [h', h, List.flatMap_append, List.append_assoc]

theorem tells_last_iff (h : k.Tells (p :: l) k') (q : CursorPos) : k.Tells (q :: l) k' ↔ q.writes = p.writes := by
  unfold Kernel.Tells at h ⊢
  rw [h, List.flatMap_cons, List.flatMap_cons, List.append_assoc, List.append_assoc, List.append_cancel_right_eq]
  exact eq_comm

theorem tells_loadNext (k : Kernel) (curr next : ℕ) :
    k.Tells (if (k.pcb next).terminalInfo.isOnscreen ≠ 0 then
      [(k.cursors.handOn (k.pcb curr).terminalInfo.terminalNum (k.pcb next).terminalInfo.terminalNum).live] else [])
      (k.loadNext curr next) := by
  have hupdate : ∀ (k : Kernel) (a b : ℕ) (x : UInt8), (((k.switchCursor a b).updateCursor).setAttrib x).ports =
      (k.cursors.handOn a b).live.writes ++ k.ports := fun _ _ _ _ => rfl
  have hskip : ∀ (k : Kernel) (a b : ℕ) (x : UInt8), ((k.switchCursor a b).setAttrib x).ports = k.ports :=
    fun _ _ _ _ => rfl
  unfold Kernel.Tells Kernel.loadNext
  simp only
  split
  · rw [hupdate, List.flatMap_cons, List.flatMap_nil, List.append_nil]
    rfl
  · rw [hskip]
    rfl

theorem tells_ticked (k : Kernel) (e : Entry) (c q : ℕ) :
    k.Tells (if (k.slot q).terminalInfo.isOnscreen ≠ 0 then
      [(k.cursors.handOn (k.slot c).terminalInfo.terminalNum (k.slot q).terminalInfo.terminalNum).live] else [])
      (k.ticked e c q) := by
  have hsaved : ∀ a r, ((k.interrupted e).saveRegs a r).ports = k.ports := fun _ _ => rfl
  have hschedule : ∀ (k : Kernel) next ebp eax, (k.doSchedule next ebp eax).ports = k.ports :=
    fun k next ebp eax => Kernel.field_doSchedule k Kernel.ports (fun _ _ => rfl) next ebp eax
  unfold Kernel.slot
  rw [ticked_eq]
  generalize getPcbPtr c = a
  generalize getPcbPtr q = b
  have hload := tells_loadNext ((k.interrupted e).saveRegs a e.regs) a b
  unfold Kernel.Tells at hload ⊢
  rw [terminalInfo_saved, terminalInfo_saved, cursors_saved, hsaved] at hload
  rw [hschedule, hload]

theorem tells_printf (k : Kernel) (cs : List UInt8) :
    k.Tells (k.cursors.live.puts cs :: k.console.stops (k.cursors.live.putsStops cs)) (k.printf cs) := by
  have hports : ∀ (k : Kernel) (f : Console → Console), (k.withConsole f).ports = (f k.console).ports := fun _ _ => rfl
  have hupdate : ∀ s : Console, s.updateCursor.ports = s.cursorPos.writes ++ s.ports := fun _ => rfl
  unfold Kernel.Tells Kernel.printf
  rw [hports, Console.printf, hupdate, Console.cursorPos_puts, (Console.wrote_puts k.console cs).ports,
    List.flatMap_cons, List.append_assoc]
  rfl

theorem tells_answered (k : Kernel) (u temp : ℕ) :
    k.Tells (k.cursors.live.puts (cannotOpen u) :: k.console.stops (k.cursors.live.putsStops (cannotOpen u)))
      (k.answered u temp (-1)) := by
  have hvain : k.answered u temp (-1) = (k.printf (cannotOpen u)).setOldData temp := by
    unfold Kernel.answered
    rw [if_pos (by decide)]
  have hold : ∀ k : Kernel, (k.setOldData temp).ports = k.ports := fun _ => rfl
  have hprint := tells_printf k (cannotOpen u)
  unfold Kernel.Tells at hprint ⊢
  rw [hvain, hold, hprint]

def Kernel.handed (k : Kernel) (t : ℕ) (p : CursorPos) (l : List CursorPos) : List CursorPos :=
  if k.terminalNow.isOnscreen = 0 then (k.givenBack t p).live :: (l ++ [(k.lent t).cursors.live]) else l

theorem tells_returned {info : TerminalInfo} (hnum : info.terminalNum = k.terminalNow.terminalNum)
    (hpage : k.terminalNow.isOnscreen = 0 → k.terminalNow.fakePageAddr ≠ 0)
    (hcursors : k₁.cursors = (k.lent t).cursors.write p)
    (hports : (k.lent t).Tells l k₁) : k.Tells (k.handed t p l) (k₁.returnScreen k.oldPage info t) := by
  unfold Kernel.Tells at hports ⊢
  unfold Kernel.handed Kernel.givenBack Kernel.oldPage
  by_cases hoff : k.terminalNow.isOnscreen = 0
  · rw [if_pos hoff, if_pos hoff, if_pos hoff, (returnScreen_back (hpage hoff)).2, hports, hcursors, hnum,
      (lent_offscreen hoff).1, (lent_offscreen hoff).2, List.flatMap_cons, List.flatMap_append, List.flatMap_cons,
      List.flatMap_nil, List.append_nil, List.append_assoc, List.append_assoc]
  · rw [if_neg hoff, if_neg hoff, returnScreen_kept.2, hports, (lent_onscreen hoff).2]

/-- **A code that asks for no terminal.** -/
theorem tells_echoed (hpage : k.terminalNow.isOnscreen = 0 → k.terminalNow.fakePageAddr ≠ 0) :
    k.Tells (k.handed t (k.typedPos t temp (k.lent t).cursors.live)
      (k.typedStops t temp (k.terminalNow.isOnscreen ≠ 0) (k.lent t).cursors.live)) (k.echoed t temp) := by
  have hwent := went_typeCode (k.lent t) t temp
  obtain ⟨hpos, hstops⟩ := @typedPos_congr k (k.lent t) t temp k.console.isOnscreen (k.lent t).cursors.live
    (keys_lent k t) (keyboard_lent k t)
  rw [console_lent, hpos, hstops] at hwent
  exact tells_returned rfl hpage hwent.cursors hwent.ports

/-- **A request for a terminal in use.** -/
theorem tells_shows {q : ℕ} (hon : k.findOnscreenTerminalNum = some t) (hreq : k.requests temp = some u)
    (hpid : k.findTerminalPid u = some q) (hpage : k.terminalNow.isOnscreen = 0 → k.terminalNow.fakePageAddr ≠ 0)
    (h : handleKeyboard img fs k e temp = .ret r k') : k.Tells (k.handed t (k.lent t).cursors.live []) k' := by
  rw [handleKeyboard_request hon hreq] at h
  cases hs : switchTerminal img fs (k.asked t temp) e u with
  | ret r' k₁ =>
    rw [hs] at h
    simp only [Outcome.ret.injEq] at h
    obtain ⟨rfl, hsame⟩ := sameCursors_switchTerminal ((findTerminalPid_asked k t temp).trans hpid) hs
    obtain ⟨hcursors, hports, -⟩ := cursors_answered k₁ u temp
    have hnum : (k₁.pcb (getPcb k.cpu.esp)).terminalInfo.terminalNum = k.terminalNow.terminalNum := by
      rw [hsame.terminalNum, (same_asked k t temp).pcb]
      rfl
    rw [← h.2]
    exact tells_returned hnum hpage (hcursors.trans hsame.cursors) (hports.trans hsame.ports)
  | gone k₁ =>
    rw [hs] at h
    cases h
  | fault k₁ =>
    rw [hs] at h
    cases h

theorem tells_vain (hon : k.findOnscreenTerminalNum = some t) (hreq : k.requests temp = some u)
    (hpid : k.findTerminalPid u = none) (hpage : k.terminalNow.isOnscreen = 0 → k.terminalNow.fakePageAddr ≠ 0)
    (h : handleKeyboard img fs k e temp = .ret r k') :
    k.Tells (k.handed t ((k.lent t).cursors.live.puts (cannotOpen u)) ((k.lent t).cursors.live.puts (cannotOpen u) ::
      k.console.stops ((k.lent t).cursors.live.putsStops (cannotOpen u)))) k' := by
  rw [handleKeyboard_request hon hreq] at h
  cases hs : switchTerminal img fs (k.asked t temp) e u with
  | ret r' k₁ =>
    rw [hs] at h
    simp only [Outcome.ret.injEq] at h
    obtain ⟨rfl, rfl⟩ := switchTerminal_vain ((findTerminalPid_asked k t temp).trans hpid) hs
    have hports := tells_answered (k.asked t temp) u temp
    have hconsole : (k.asked t temp).console.isOnscreen = k.console.isOnscreen := console_lent k t
    have hnum : ((k.asked t temp).pcb (getPcb k.cpu.esp)).terminalInfo.terminalNum = k.terminalNow.terminalNum := by
      rw [(same_asked k t temp).pcb]
      rfl
    unfold Console.stops at hports ⊢
    rw [hconsole] at hports
    rw [← h.2]
    exact tells_returned hnum hpage (cursors_answered (k.asked t temp) u temp).2.2 hports
  | gone k₁ =>
    rw [hs] at h
    cases h
  | fault k₁ =>
    rw [hs] at h
    cases h

end Writes
/-! ## One event -/

section Events
variable {img : Image} {k k' k₁ : Kernel} {S : Stacks} {c p scanCode t : ℕ} {e : Entry} {r : ℤ}
  {positions : ℕ → CursorPos}

theorem terminalNow_kernel (h : At k.processes S c) (hm : k.cpu.mode = .kernel) : k.terminalNow = k.terminal := by
  have hrun : IsTop S c ∧ Resumable c k.cpu ∨
      k.cpu.mode = .spin ∧ getPcb k.cpu.esp = getPcbPtr c ∧ ¬ Stacked S c ∧ k.processIds c = 0 := h.running.2
  have hesp : getPcb k.cpu.esp = getPcbPtr c := by
    rcases hrun with ⟨-, hu | ⟨-, hesp, -⟩⟩ | ⟨-, hesp, -⟩
    · cases hm.symm.trans hu
    · exact hesp
    · exact hesp
  unfold Kernel.terminalNow Kernel.terminal
  rw [hesp, current_eq h]

theorem positions_eq (h : k.cursors.Holds positions k.terminal.terminalNum) : k.positions = positions := h.values

/-- **Output** tells where the terminal on screen is. -/
theorem output_tells {fs : Filesystem} {x : UInt8} (hsc : Scene k S c p)
    (h : k.cursors.Holds positions k.terminal.terminalNum)
    (hs : step img fs k (.output x) = some k') : k.Tells (k.shownAt img fs (.output x) positions) k' := by
  obtain ⟨t, -, -, ht⟩ := hsc.onscreen
  have hports := (Console.wrote_putc k.console x).ports
  simp only [step] at hs
  split at hs
  · next hc =>
    cases hs
    have hconsole : k.console.isOnscreen = decide (k.terminal.isOnscreen ≠ 0) := by
      rw [console_isOnscreen, terminalNow_kernel hsc.here hc.1]
    unfold Console.stops at hports
    unfold Kernel.shownAt
    rw [hconsole] at hports
    simp only [ht]
    by_cases hon : k.terminal.isOnscreen ≠ 0
    · rw [if_pos (decide_eq_true hon)] at hports
      rw [if_pos hon, ← hsc.flagged hon ht, ← h.live]
      exact hports
    · rw [if_neg (by rw [decide_eq_false hon]; decide)] at hports
      rw [if_neg hon]
      exact hports
  · cases hs

theorem tick_tells {fs : Filesystem} (hsc : Scene k S c p) (h : k.cursors.Holds positions k.terminal.terminalNum)
    (hs : step img fs k (.tick e) = some k') : k.Tells (k.shownAt img fs (.tick e) positions) k' := by
  obtain ⟨t, l, hl, ht⟩ := hsc.onscreen
  obtain ⟨q, hq, hnext, hk', -⟩ := tick_next hsc.here hs
  have htells := tells_ticked k e c q
  rw [← hk', ← terminal_eq hsc.here] at htells
  unfold Kernel.shownAt
  simp only [ht, current_eq hsc.here, hnext]
  show k.Tells (if (k.slot q).terminalInfo.isOnscreen ≠ 0 then [positions t] else []) k'
  by_cases hon : (k.slot q).terminalInfo.isOnscreen ≠ 0
  · have hslot := k.processes_info (hsc.here.table.slot_lt hq.stacked)
    have hflag : (k.processes.info q).isOnscreen ≠ 0 := by
      rw [hslot]
      exact hon
    obtain rfl := hsc.shown.only q (hsc.here.table.used hq.stacked) hflag
    have hnum := (hsc.here.table.slot t q (by rw [hl]; exact List.mem_cons_self ..)).terminalNum
    rw [hslot, Pcb.info_terminalNum] at hnum
    rw [if_pos hon, hnum, (h.handOn t).live] at htells
    rw [if_pos hon]
    exact htells
  · rw [if_neg hon] at htells
    rw [if_neg hon]
    exact htells

theorem trap_tells {fs : Filesystem} {x : Cpu} (hs : step img fs k (.trap x) = some k') :
    k.Tells (k.shownAt img fs (.trap x) positions) k' := by
  have hports : k'.ports = k.ports := by
    rcases trap_eq hs with rfl | rfl
    · rfl
    · rfl
  unfold Kernel.shownAt
  cases k.findOnscreenTerminalNum with
  | none => exact hports
  | some t => exact hports

theorem handed_tells (hsc : Scene k S c p) (h : k.cursors.Holds positions k.terminal.terminalNum) (hf : k.fits e = true)
    (ht : k.findOnscreenTerminalNum = some t) {x : CursorPos} {l : List CursorPos}
    (htells : (k.interrupted e).Tells ((k.interrupted e).handed t x l) k₁) :
    k.Tells (if k.terminal.isOnscreen ≠ 0 then l else positions k.terminal.terminalNum :: (l ++ [positions t])) k₁ := by
  obtain ⟨hnow, hflag, -⟩ := interrupted_scene hsc hf ht
  have hlent := (@lent_holds (k.interrupted e) t positions (by rw [hnow]; exact h) hflag).live
  have hback := (@givenBack_holds (k.interrupted e) t positions (by rw [hnow]; exact h) hflag x).live
  unfold Kernel.handed at htells
  rw [hlent, hback, hnow] at htells
  by_cases hoff : k.terminal.isOnscreen = 0
  · rw [if_pos hoff, Function.update_of_ne (hsc.apart hoff ht)] at htells
    rw [if_neg (not_not.mpr hoff)]
    exact htells
  · rw [if_neg hoff] at htells
    rw [if_pos hoff]
    exact htells

/-- **A keystroke** that creates no terminal. -/
theorem key_tells (boot : img.Bootable) (hsc : Scene k S c p) (h : k.cursors.Holds positions k.terminal.terminalNum)
    (hs : step img (Image.WellFormed.pointers img) k (.key e scanCode) = some k')
    (hret : handleKeyboard img (Image.WellFormed.pointers img) (k.interrupted e) e scanCode = .ret r k₁)
    (ht : k.findOnscreenTerminalNum = some t) :
    k.Tells (if k.terminal.isOnscreen ≠ 0 then k.keyStops t scanCode (positions t)
      else positions k.terminal.terminalNum :: (k.keyStops t scanCode (positions t) ++ [positions t])) k' := by
  obtain ⟨hf, -⟩ := key_fits hs
  obtain ⟨hk', -, -⟩ := key_returns boot hsc.here hs hret
  obtain ⟨hnow, hflag, hpage⟩ := interrupted_scene hsc hf ht
  have hlent : ((k.interrupted e).lent t).cursors.live = positions t :=
    (@lent_holds (k.interrupted e) t positions (by rw [hnow]; exact h) hflag).live
  suffices htells :
    ∃ x, (k.interrupted e).Tells ((k.interrupted e).handed t x (k.keyStops t scanCode (positions t))) k₁ by
    obtain ⟨x, hx⟩ := htells
    rw [hk']
    exact handed_tells hsc h hf ht hx
  unfold Kernel.keyStops
  cases hreq : k.requests scanCode with
  | none =>
    have hquiet := @handleKeyboard_quiet img (Image.WellFormed.pointers img) (k.interrupted e) e t scanCode ht hreq
    rw [hret, Outcome.ret.injEq] at hquiet
    have hecho := @tells_echoed (k.interrupted e) t scanCode hpage
    rw [hlent, (@typedPos_congr k (k.interrupted e) t scanCode _ (positions t) rfl rfl).2, hnow] at hecho
    rw [hquiet.2]
    exact ⟨_, hecho⟩
  | some u =>
    cases hpid : k.findTerminalPid u with
    | some q =>
      have hshows := tells_shows (k := k.interrupted e) ht hreq hpid hpage hret
      simp only [hpid, Option.isSome_some, if_true]
      exact ⟨_, hshows⟩
    | none =>
      have hvain := tells_vain (k := k.interrupted e) ht hreq hpid hpage hret
      have hconsole : (k.interrupted e).console.isOnscreen = decide (k.terminal.isOnscreen ≠ 0) := by
        rw [console_isOnscreen, hnow]
      unfold Console.stops at hvain
      rw [hlent, hconsole] at hvain
      simp only [decide_eq_true_eq] at hvain
      simp only [hpid, Option.isSome_none, Bool.false_eq_true, if_false]
      exact ⟨_, hvain⟩

/-- To ask for the terminal of the running process is to have it on screen afterwards, with its cursor where it is. -/
theorem outputs_own {fs : Filesystem} (hsc : Scene k S c p) (ht : k.findOnscreenTerminalNum = some t)
    (hreq : k.requests scanCode = some k.terminal.terminalNum) :
    k.shownNext t scanCode = k.terminal.terminalNum ∧ k.outputs img fs (.key e scanCode) positions = positions := by
  obtain ⟨v, l, hl⟩ := hsc.top.cons
  have hmem : c ∈ S v := by
    rw [hl]
    exact List.mem_cons_self ..
  have hpid : k.findTerminalPid k.terminal.terminalNum = some c := by
    rw [(terminal_of_mem hsc.here hmem).1]
    exact findTerminalPid_of_cons hsc.here hl
  unfold Kernel.shownNext Kernel.outputs
  simp only [ht, hreq, hpid, Option.isSome_some, if_true]
  exact ⟨trivial, trivial⟩

/-- **One event** tells the registers where the terminal on screen is exactly when it follows that terminal. -/
theorem tells_iff (boot : img.Bootable) (hsc : Scene k S c p)
    (h : k.cursors.Holds positions k.terminal.terminalNum) {ev : Event}
    (hev : ev.TakesTurns) (hnone : k.CreatesNone ev) (hs : step img (Image.WellFormed.pointers img) k ev = some k') :
    k.Tells (k.shownAt img (Image.WellFormed.pointers img) ev positions) k' ↔
      k.FollowsShown img (Image.WellFormed.pointers img) ev := by
  cases ev with
  | output x => exact iff_of_true (output_tells hsc h hs) trivial
  | tick e => exact iff_of_true (tick_tells hsc h hs) trivial
  | trap x => exact iff_of_true (trap_tells hs) trivial
  | key e scanCode =>
    obtain ⟨t, -, -, ht⟩ := hsc.onscreen
    obtain ⟨hf, -⟩ := key_fits hs
    cases hout : handleKeyboard img (Image.WellFormed.pointers img) (k.interrupted e) e scanCode with
    | ret r k₁ =>
      have htells := key_tells boot hsc h hs hout ht
      unfold Kernel.shownAt Kernel.FollowsShown
      simp only [ht]
      rw [positions_eq h]
      by_cases hon : k.terminal.isOnscreen ≠ 0
      · rw [if_pos hon] at htells ⊢
        exact iff_of_true htells (Or.inl hon)
      · rw [if_neg hon] at htells ⊢
        rw [tells_last_iff htells]
        constructor
        · intro hwrites
          refine Or.inr (Or.inr fun t' ht' => ?_)
          rw [← Option.some.inj ht']
          exact hwrites
        · intro hfollows
          rcases hfollows.resolve_left hon with hreq | hwrites
          · obtain ⟨hnext, houtputs⟩ :=
              @outputs_own img k S c p scanCode t e positions (Image.WellFormed.pointers img) hsc ht hreq
            rw [hnext, houtputs]
          · exact hwrites t rfl
    | gone k₁ =>
      obtain ⟨-, u, q, hreq, hS, hq, hfree, -⟩ := key_leaves boot hsc.here hs hout
      exact absurd (hnone u hreq (findTerminalPid_of_nil hsc.here hS) q hq) hfree
    | fault k₁ => exact absurd hout (keyboard_faultless boot hsc.here hf k₁)
  | execute => exact absurd hev id
  | halt => exact absurd hev id
  | exception => exact absurd hev id
  | work => exact absurd hev id

end Events
/-! ## A run -/

/-- The positions reached, and the ones of the terminal on screen at every update so far, the last one first. -/
structure Screened where
  positions : ℕ → CursorPos
  told : List CursorPos

def screenStep (img : Image) (fs : Filesystem) : Ghosted Kernel Screened → Event → Option (Ghosted Kernel Screened) :=
  ghostStep (step img fs) fun k ev g => ⟨k.outputs img fs ev g.positions, k.shownAt img fs ev g.positions ++ g.told⟩

def Kernel.screened (k : Kernel) : Ghosted Kernel Screened := ⟨k, ⟨k.positions, []⟩⟩

section Runs
variable {img : Image} {k₀ k : Kernel} {s : Ghosted Kernel Screened}

theorem scene_run (boot : img.Bootable) (h0 : Started img (Image.WellFormed.pointers img) k₀)
    (h : Reaches (step img (Image.WellFormed.pointers img)) (fun _ ev => ev.TakesTurns) k₀ k) :
    k.cpu.mode = .wild ∨ ∃ S c p, Scene k S c p := by
  refine h.invariant (P := fun k => k.cpu.mode = .wild ∨ ∃ S c p, Scene k S c p) (Or.inr ⟨_, _, _, started_scene h0⟩) ?_
  intro k ev k' hk hok hs
  obtain ⟨S, c, p, hsc⟩ := hk.resolve_left (not_wild_of_step hs)
  exact hsc.step boot hok hs

theorem leavesSaved_of_createsNone {ev : Event} (h : k.CreatesNone ev) : k.LeavesSaved ev := by
  cases ev with
  | key e scanCode =>
    intro u hreq hpid hfree
    obtain ⟨q, hq, hne⟩ := hfree
    exact absurd (h u hreq hpid q hq) hne
  | _ => exact trivial

theorem attended_screened (boot : img.Bootable) (h : k.cpu.mode = .wild ∨ ∃ S c p, Scene k S c p)
    (hrun : Reaches (screenStep img (Image.WellFormed.pointers img))
      (fun s ev => ev.TakesTurns ∧ s.state.CreatesNone ev) k.screened s) :
    Attended s.state s.ghost.positions := by
  refine hrun.invariant (P := fun s => Attended s.state s.ghost.positions) (attended_start h) ?_
  intro s ev s' hs hok hst
  obtain ⟨hstep, hghost⟩ := ghostStep_some hst
  rw [hghost]
  exact hs.next boot hok.1 (leavesSaved_of_createsNone hok.2) hstep

theorem told_run (boot : img.Bootable) (h : k.cpu.mode = .wild ∨ ∃ S c p, Scene k S c p)
    (hrun : Reaches (screenStep img (Image.WellFormed.pointers img))
      (fun s ev => (ev.TakesTurns ∧ s.state.CreatesNone ev) ∧
        s.state.FollowsShown img (Image.WellFormed.pointers img) ev) k.screened s) :
    k.Tells s.ghost.told s.state := by
  have hboth : Attended s.state s.ghost.positions ∧ k.Tells s.ghost.told s.state := by
    refine hrun.invariant (P := fun s => Attended s.state s.ghost.positions ∧ k.Tells s.ghost.told s.state)
      ⟨attended_start h, tells_refl k⟩ ?_
    intro s ev s' hs hok hst
    obtain ⟨hstep, hghost⟩ := ghostStep_some hst
    obtain ⟨S, c, p, hsc, hi⟩ := hs.1.going hstep
    rw [hghost]
    exact ⟨hs.1.next boot hok.1.1 (leavesSaved_of_createsNone hok.1.2) hstep,
      hs.2.trans ((tells_iff boot hsc hi hok.1.1 hok.1.2 hstep).mpr hok.2)⟩
  exact hboth.2

/-- **The hardware cursor follows the terminal on screen** in a run whose keystrokes, when they interrupt a process
off screen, ask for its terminal or leave the terminal on screen at the same position; one that does neither writes
another position. -/
theorem registers_follow_screen (img : Image) (boot : img.Bootable) {k₀ k : Kernel}
    (h0 : Started img (Image.WellFormed.pointers img) k₀)
    (h : Reaches (step img (Image.WellFormed.pointers img)) (fun _ ev => ev.TakesTurns) k₀ k)
    (s : Ghosted Kernel Screened) :
    (Reaches (screenStep img (Image.WellFormed.pointers img))
      (fun s ev => (ev.TakesTurns ∧ s.state.CreatesNone ev) ∧
        s.state.FollowsShown img (Image.WellFormed.pointers img) ev) k.screened s →
      k.Tells s.ghost.told s.state) ∧
    (Reaches (screenStep img (Image.WellFormed.pointers img))
      (fun s ev => ev.TakesTurns ∧ s.state.CreatesNone ev) k.screened s →
      s.state.KeepsPositions s.ghost.positions ∧
        ∀ ev k', ev.TakesTurns → s.state.CreatesNone ev →
          step img (Image.WellFormed.pointers img) s.state ev = some k' →
          (s.state.Tells (s.state.shownAt img (Image.WellFormed.pointers img) ev s.ghost.positions) k' ↔
            s.state.FollowsShown img (Image.WellFormed.pointers img) ev)) := by
  have hscene := scene_run boot h0 h
  refine ⟨told_run boot hscene, fun hrun => ?_⟩
  have hattended := attended_screened boot hscene hrun
  refine ⟨hattended.1, fun ev k' hev hnone hs => ?_⟩
  obtain ⟨S, c, p, hsc, hi⟩ := hattended.going hs
  exact tells_iff boot hsc hi hev hnone hs

theorem plain_follows (img : Image) (fs : Filesystem) (k : Kernel) (ev : Event)
    (h : (k.plain ev && decide (k.terminal.isOnscreen ≠ 0)) = true) :
    (ev.TakesTurns ∧ k.CreatesNone ev) ∧ k.FollowsShown img fs ev := by
  rw [Bool.and_eq_true, decide_eq_true_eq] at h
  have hturns := (plain_leaves k ev h.1).1
  cases ev with
  | key e scanCode =>
    refine ⟨⟨hturns, fun u hreq => ?_⟩, Or.inl h.2⟩
    cases (Option.isNone_iff_eq_none.mp h.1).symm.trans hreq
  | _ => exact ⟨⟨hturns, trivial⟩, trivial⟩

/-- The first shell prints a letter, another one is typed, and the shell goes on after a tick. -/
theorem registers_follow_screen_typed : ∃ s, Reaches (screenStep Image.small (Image.WellFormed.pointers Image.small))
      (fun s ev => (ev.TakesTurns ∧ s.state.CreatesNone ev) ∧
        s.state.FollowsShown Image.small (Image.WellFormed.pointers Image.small) ev)
      firstShell.screened s ∧ s.ghost.told = [⟨2, 0⟩, ⟨2, 0⟩, ⟨1, 0⟩] ∧ firstShell.Tells s.ghost.told s.state := by
  have hobs : (runEvents (guarded (screenStep Image.small (Image.WellFormed.pointers Image.small)) fun s ev =>
      s.state.plain ev && decide (s.state.terminal.isOnscreen ≠ 0)) firstShell.screened
      [.trap { firstShell.cpu with mode := .kernel, esp := firstShell.entryEsp - 64 }, .output 0x61,
        .trap firstShell.cpu,
        .key (firstShell.entry 64) 0x1E, .tick (firstShell.entry 0)]).map (fun s => s.ghost.told) =
          some [⟨2, 0⟩, ⟨2, 0⟩, ⟨1, 0⟩] := by
    decide +kernel
  obtain ⟨s, hs, htold⟩ := Option.map_eq_some_iff.mp hobs
  have hrun := reaches_of_guarded (fun s ev h =>
    plain_follows Image.small (Image.WellFormed.pointers Image.small) s.state ev h) (reaches_of_runEvents hs)
  exact ⟨s, hrun, htold,
    (registers_follow_screen Image.small Image.small_bootable firstShell_started (.refl _) s).1 hrun⟩

end Runs
/-! ## The first shell off screen -/

section Offscreen
variable {img : Image} {k k' : Kernel} {S : Stacks} {c p : ℕ} {ev : Event}

/-- The first shell prints a letter and is interrupted by a tick. -/
theorem firstShell_interrupted :
    ∃ k, Reaches (step Image.small (Image.WellFormed.pointers Image.small)) (fun _ ev => ev.TakesTurns) firstShell k ∧
      Stage k (stacksOf [0] [] []) 0 0 ∧ k.keys = ⟨0, 0, 0, 0, 0, 3⟩ ∧
      (k.processes.info 0).scheduleEbp = (k.entry 64).handler ∧ k.cursors.saved 0 = ⟨1, 0⟩ := by
  obtain ⟨k₁, k₂, k₃, hs₁, hs₂, hs₃, -, -, h₃, -, hkeys₃⟩ := @Stage.prints Image.small firstShell _ 0 0
    (Image.WellFormed.pointers Image.small) firstShell_stage 0x61 (by decide)
  obtain ⟨k, hs, h, -, -, hkeys⟩ := @Stage.tick Image.small k₃ _ 0 0 0 h₃ (firstAfter_iff_head.mp (by decide))
    fun hne => absurd rfl hne
  have hobs : ((step Image.small (Image.WellFormed.pointers Image.small) firstShell
      (.trap { firstShell.cpu with mode := .kernel, esp := (firstShell.entry 64).regs.esp })).bind fun k₁ =>
      (step Image.small (Image.WellFormed.pointers Image.small) k₁ (.output 0x61)).bind fun k₂ =>
      (step Image.small (Image.WellFormed.pointers Image.small) k₂ (.trap firstShell.cpu)).bind fun k₃ =>
      (step Image.small (Image.WellFormed.pointers Image.small) k₃ (.tick (k₃.entry 0))).map fun k =>
        decide ((k.processes.info 0).scheduleEbp = (k.entry 64).handler ∧ k.cursors.saved 0 = ⟨1, 0⟩)) = some true := by
    decide +kernel
  rw [hs₁, Option.bind_some, hs₂, Option.bind_some, hs₃, Option.bind_some, hs, Option.map_some, Option.some.injEq,
    decide_eq_true_eq] at hobs
  refine ⟨k, ?_, h, (hkeys.trans hkeys₃).trans firstShell_waits.2, hobs⟩
  have hplain : Reaches (step Image.small (Image.WellFormed.pointers Image.small)) (fun k ev => k.plain ev = true)
      firstShell k := by
    refine Reaches.tail (Reaches.tail (Reaches.tail ?_ ?_ hs₂) ?_ hs₃) ?_ hs
    · exact Reaches.single (by exact rfl) hs₁
    all_goals rfl
  exact hplain.mono fun k ev hok => (plain_leaves k ev hok).1

theorem saved_quiet (hsc : Scene k S c p) {e : Entry} {scanCode : ℕ} (hon : k.terminal.isOnscreen ≠ 0)
    (hreq : k.requests scanCode = none)
    {fs : Filesystem} (hs : step img fs k (.key e scanCode) = some k') : k'.cursors.saved = k.cursors.saved := by
  obtain ⟨t, -, -, ht⟩ := hsc.onscreen
  obtain ⟨hf, hk'⟩ := key_quiet hs ht hreq
  have hnow := terminalNow_interrupted hf
  have hecho := (@went_echoed (k.interrupted e) t scanCode (by rw [hnow]; exact hon)).1
  have hcursors : k'.cursors = ((k.interrupted e).echoed t scanCode).cursors := by
    rw [hk']
    rfl
  rw [hcursors, hecho]
  rfl

theorem cursors_created (hsc : Scene k S c p) {e : Entry} {scanCode u : ℕ} {fs : Filesystem} (hf : k.fits e = true)
    (hon : k.terminal.isOnscreen ≠ 0) (hreq : k.requests scanCode = some u)
    (hgone : handleKeyboard img fs (k.interrupted e) e scanCode = .gone k') : k'.cursors = k.cursors.write ⟨0, 0⟩ := by
  obtain ⟨t, -, -, ht⟩ := hsc.onscreen
  have hnow := terminalNow_interrupted hf
  have hcursors := (handleKeyboard_creates (k := k.interrupted e) ht hreq hgone).2
  rw [(lent_onscreen (by rw [hnow]; exact hon)).1] at hcursors
  exact hcursors

/-- The first shell prints a letter, terminal 2 is opened, and the first shell runs on off screen. -/
theorem first_offscreen_printed :
    ∃ k, Reaches (step Image.small (Image.WellFormed.pointers Image.small)) (fun _ ev => ev.TakesTurns) firstShell k ∧
      Stage k (stacksOf [0] [1] []) 0 1 ∧ k.keys = ⟨0x38, 0, 0, 1, 0, 3⟩ ∧ k.cursors.live = ⟨1, 0⟩ ∧
      k.cursors.saved 1 = ⟨0, 0⟩ := by
  obtain ⟨k₀, hrun, h₀, hkeys₀, hebp₀, hsaved₀⟩ := firstShell_interrupted
  obtain ⟨k₁, k₂, h⟩ := h₀.opens_second Image.small_bootable hkeys₀
  obtain ⟨k, hs, hk, -, -, hkeys⟩ := @Stage.tick Image.small k₂ _ 1 1 0 h.second (firstAfter_iff_head.mp (by decide))
    fun _ => h.parks hebp₀
  have hticked := h.second.ticked hs hk
  have hfirst : ∀ {k : Kernel}, Stage k (stacksOf [0] [] []) 0 0 → k.terminal.isOnscreen ≠ 0 := by
    intro k hk
    rw [(terminal_of_mem hk.here (t := 0) (by decide)).2.2]
    exact hk.shown.shown
  have hsaved₁ := saved_quiet h₀.scene (hfirst h₀) h.alt h.held
  have hcursors₂ := cursors_created h.first.scene (key_fits h.opened).1 (hfirst h.first) h.request h.gone
  have hslot : ∀ t q, q ∈ stacksOf [0] [1] [] t → (k₂.slot q).terminalInfo.terminalNum = t := by
    intro t q hq
    have hnum := (hk.here.table.slot t q hq).terminalNum
    rw [k.processes_info (hk.here.table.lt t q hq).2, Pcb.info_terminalNum, hticked, slot_ticked] at hnum
    exact hnum
  have hcursors : k.cursors = (k₁.cursors.write ⟨0, 0⟩).handOn 1 0 := by
    rw [hticked, cursors_ticked, hslot 0 0 (by decide), hslot 1 1 (by decide), hcursors₂]
  have hkey : ∀ e scanCode, (Event.key e scanCode).TakesTurns := fun _ _ => trivial
  have htick : ∀ e, (Event.tick e).TakesTurns := fun _ => trivial
  refine ⟨k, ?_, hk, hkeys.trans h.pressed, ?_, ?_⟩
  · exact ((hrun.tail (hkey _ _) h.held).tail (hkey _ _) h.opened).tail (htick _) hs
  · rw [hcursors, ← hsaved₀, ← hsaved₁]
    rfl
  · rw [hcursors]
    rfl

theorem typedPos_release (hkeys : k.keys = ⟨0x38, 0, 0, 1, 0, 3⟩) (t : ℕ) (p : CursorPos) :
    k.typedPos t 0xB8 p = p := by
  have hchar : ((⟨0x38, 0, 0, 1, 0, 3⟩ : KeyState).press 0xB8).currentChar 0xB8 = 0 := by decide
  have hclears : ¬ ((⟨0x38, 0, 0, 1, 0, 3⟩ : KeyState).press 0xB8).clears 0xB8 := by decide
  unfold Kernel.typedPos
  rw [hkeys, hchar, KeyboardStruct.echo_zero, if_neg hclears, ite_eq_right_iff]
  intro _
  rfl

theorem screened_single {fs : Filesystem} {ok : Ghosted Kernel Screened → Event → Prop} (hok : ok k.screened ev)
    (hs : step img fs k ev = some k') : Reaches (screenStep img fs) ok k.screened
      ⟨k', ⟨k.outputs img fs ev k.positions, k.shownAt img fs ev k.positions ++ []⟩⟩ := by
  refine Reaches.single hok ?_
  unfold screenStep ghostStep Kernel.screened
  simp only
  rw [hs]
  rfl

/-- The release of Alt while the first shell runs off screen tells the registers where its own cursor is. -/
theorem registers_leave_screen :
    ¬ ∀ (img : Image), img.Bootable → ∀ (k₀ k : Kernel) (s : Ghosted Kernel Screened),
      Started img (Image.WellFormed.pointers img) k₀ →
      Reaches (step img (Image.WellFormed.pointers img)) (fun _ ev => ev.TakesTurns) k₀ k →
      Reaches (screenStep img (Image.WellFormed.pointers img))
        (fun s ev => ev.TakesTurns ∧ s.state.CreatesNone ev) k.screened s →
      k.Tells s.ghost.told s.state := by
  intro hall
  obtain ⟨k, hrun, h, hkeys, hlive, hsaved⟩ := first_offscreen_printed
  have ht := onscreen_of_onlyShown h.here h.shown (t := 1) (by decide)
  obtain ⟨hnum, -, hflag⟩ := terminal_of_mem h.here (t := 0) (by decide)
  have hreq : k.requests 0xB8 = none := by
    unfold Kernel.requests
    rw [hkeys]
    decide
  have hkey : (Event.key (k.entry 64) 0xB8).TakesTurns := trivial
  have hnone : k.CreatesNone (.key (k.entry 64) 0xB8) := fun u hu => by cases hreq.symm.trans hu
  obtain ⟨k', hs, -⟩ := @Stage.types Image.small k _ 0 1 0xB8 (Image.WellFormed.pointers Image.small) h (by decide)
    hreq (by rw [hkeys]; decide)
  have htells :=
    hall Image.small Image.small_bootable firstShell k _ firstShell_started hrun (screened_single ⟨hkey, hnone⟩ hs)
  simp only [List.append_nil] at htells
  have hfollows := (tells_iff Image.small_bootable h.scene (k.cursors.holds_values _) hkey hnone hs).mp htells
  rcases hfollows with hon | hown | hsame
  · rw [hflag] at hon
    exact absurd (h.shown.only 0 (h.used.mpr (by decide)) hon) (by decide)
  · cases hreq.symm.trans hown
  · have hwrites := hsame 1 ht
    have hshown : k.shownNext 1 0xB8 = 1 := by
      unfold Kernel.shownNext
      rw [hreq]
    have hpos₁ : k.positions 1 = ⟨0, 0⟩ := by
      rw [← hsaved]
      unfold Kernel.positions TimeShared.values
      rw [hnum, if_neg (by decide)]
    have hpos₀ : k.positions 0 = ⟨1, 0⟩ := by
      rw [← hlive]
      unfold Kernel.positions TimeShared.values
      rw [hnum, if_pos rfl]
    unfold Kernel.outputs at hwrites
    simp only [ht, hreq] at hwrites
    rw [hshown, Function.update_self, typedPos_release hkeys, hpos₁, hnum, hpos₀] at hwrites
    exact absurd hwrites (by decide)

end Offscreen
end Kernel391
