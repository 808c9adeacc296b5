import Kernel391.Console.CursorPorts
import Kernel391.System.SharedScreen

/-! Where a keystroke takes the cursor, and what it writes to the cursor registers on the
way: the echo of a character, the codes that ask for no terminal, and those that do. -/
namespace Kernel391
open Kernel391.Foundations
set_option autoImplicit false

/-! ## The echo of a character -/

/-- What a character that goes to the line buffer does to the screen. -/
inductive Echo
  | nothing
  | erase
  | print (cs : List UInt8)

namespace Echo

def run (s : Console) : Echo → Console
  | nothing => s
  | erase => s.delc
  | print cs => s.puts cs

def move (p : CursorPos) : Echo → CursorPos
  | nothing => p
  | erase => p.delc
  | print cs => p.puts cs

def stops (p : CursorPos) : Echo → List CursorPos
  | nothing => []
  | erase => p.delcStops
  | print cs => p.putsStops cs

theorem cursorPos_run (s : Console) (x : Echo) : (x.run s).cursorPos = x.move s.cursorPos := by
  cases x with
  | nothing => rfl
  | erase => exact s.cursorPos_delc
  | print cs => exact s.cursorPos_puts cs

theorem wrote_run (s : Console) (x : Echo) : s.Wrote (x.stops s.cursorPos) (x.run s) := by
  cases x with
  | nothing => exact .of_eq rfl rfl
  | erase => exact Console.wrote_delc s
  | print cs => exact Console.wrote_puts s cs

end Echo

def KeyboardStruct.echo (kb : KeyboardStruct) (c : UInt8) : Echo :=
  if c ≠ 0 ∧ kb.enterLock = 0 then
    if c = esc then .nothing
    else if c = 0x08 ∧ kb.top > 0 then .erase
    else if c = 0x09 ∧ kb.top < 124 then .print (ascii "    ".toList)
    else if c ≠ 0x08 ∧ kb.top < 128 ∧ c ≠ 0x09 then
      if kb.top = 127 then if c = 0x0A then .print [c] else .nothing else .print [c]
    else .nothing
  else .nothing

theorem KeyboardStruct.echo_zero (kb : KeyboardStruct) : kb.echo 0 = .nothing := if_neg fun h => h.1 rfl

/-- The cursor has gone to `p`, and the registers through the positions `l`. -/
structure Kernel.Went (k : Kernel) (p : CursorPos) (l : List CursorPos) (k' : Kernel) : Prop where
  cursors : k'.cursors = k.cursors.write p
  ports : k'.ports = l.flatMap CursorPos.writes ++ k.ports
  isOnscreen : k'.console.isOnscreen = k.console.isOnscreen

section Went
variable {k k₁ k₂ : Kernel} {p q : CursorPos} {l l' : List CursorPos} {t temp : ℕ} {c : UInt8}

theorem Kernel.Went.trans (h : k.Went p l k₁) (h' : k₁.Went q l' k₂) : k.Went q (l' ++ l) k₂ where
  cursors := by
    rw [h'.cursors, h.cursors]
    rfl
  ports := by rw [h'.ports, h.ports, List.flatMap_append, List.append_assoc]
  isOnscreen := h'.isOnscreen.trans h.isOnscreen

theorem went_refl (k : Kernel) : k.Went k.cursors.live [] k := ⟨rfl, rfl, rfl⟩

theorem Kernel.Went.still (h : k.Went p l k₁) (hcursors : k₂.cursors = k₁.cursors) (hports : k₂.ports = k₁.ports)
    (hon : k₂.console.isOnscreen = k₁.console.isOnscreen) : k.Went p l k₂ :=
  ⟨hcursors.trans h.cursors, hports.trans h.ports, hon.trans h.isOnscreen⟩

theorem went_echo (k : Kernel) (x : Echo) :
    k.Went (x.move k.cursors.live) (k.console.stops (x.stops k.cursors.live)) (k.withConsole x.run) where
  cursors := (k.cursors_withConsole x.run).trans (congrArg k.cursors.write (x.cursorPos_run k.console))
  ports := (x.wrote_run k.console).ports
  isOnscreen := rfl

theorem went_clearScreen (k : Kernel) : k.Went ⟨0, 0⟩ [⟨0, 0⟩] k.clearScreen where
  cursors := rfl
  ports := (Console.ports_clearScreen k.console).1
  isOnscreen := rfl

theorem went_acceptChar (k : Kernel) (t : ℕ) (c : UInt8) :
    k.Went (((k.keyboard t).echo c).move k.cursors.live)
      (k.console.stops (((k.keyboard t).echo c).stops k.cursors.live))
      (k.acceptChar t c) := by
  have hlock : ∀ {p l} {k₁ : Kernel}, k.Went p l k₁ →
      k.Went p l (if c = 0x0A then k₁.setKeyboard t fun kb => { kb with enterLock := 1 } else k₁) := by
    intro p l k₁ h
    split
    · exact h.still rfl rfl rfl
    · exact h
  have hnothing : k.Went (Echo.nothing.move k.cursors.live) (k.console.stops (Echo.nothing.stops k.cursors.live)) k :=
    (went_echo k .nothing).still rfl rfl rfl
  have herase : ∀ g, k.Went (Echo.erase.move k.cursors.live) (k.console.stops (Echo.erase.stops k.cursors.live))
      (k.delc.setKeyboard t g) := fun g => (went_echo k .erase).still rfl rfl rfl
  have hprint :
    ∀ cs g, k.Went ((Echo.print cs).move k.cursors.live) (k.console.stops ((Echo.print cs).stops k.cursors.live))
      ((k.puts cs).setKeyboard t g) := fun cs g => (went_echo k (.print cs)).still rfl rfl rfl
  unfold Kernel.acceptChar
  apply hlock
  unfold KeyboardStruct.echo
  repeat' split
  all_goals
    first
      | exact hnothing
      | exact herase _
      | exact hprint _ _

end Went
/-! ## A scan code -/

/-- Ctrl and L clear the screen. -/
def KeyState.clears (s : KeyState) (temp : ℕ) : Prop := temp < 62 ∧ s.ctrl = 1 ∧ temp = 0x26

instance (s : KeyState) (temp : ℕ) : Decidable (s.clears temp) := inferInstanceAs (Decidable (_ ∧ _))

namespace Kernel
variable (k : Kernel) (t temp : ℕ)

/-- Where a code that asks for no terminal takes the cursor of terminal `t`. -/
def typedPos (p : CursorPos) : CursorPos :=
  if k.keys.handled temp then
    ((k.keyboard t).echo ((k.keys.press temp).currentChar temp)).move
      (if (k.keys.press temp).clears temp then ⟨0, 0⟩ else p)
  else p

/-- What it writes to the registers on the way. -/
def typedStops (on : Bool) (p : CursorPos) : List CursorPos :=
  if k.keys.handled temp then
    (if on then ((k.keyboard t).echo ((k.keys.press temp).currentChar temp)).stops
      (if (k.keys.press temp).clears temp then ⟨0, 0⟩ else p) else []) ++
        if (k.keys.press temp).clears temp then [⟨0, 0⟩] else []
  else []

end Kernel

section Code
variable {k k₁ : Kernel} {t temp : ℕ} {on : Bool} {p : CursorPos}

theorem typedPos_congr (hkeys : k₁.keys = k.keys) (hkeyboard : k₁.keyboard = k.keyboard) :
    k₁.typedPos t temp p = k.typedPos t temp p ∧ k₁.typedStops t temp on p = k.typedStops t temp on p := by
  unfold Kernel.typedPos Kernel.typedStops
  rw [hkeys, hkeyboard]
  exact ⟨rfl, rfl⟩

/-- The kernel once the modifiers are noted and the screen is cleared, if it is. -/
def Kernel.pressed (k : Kernel) (temp : ℕ) : Kernel :=
  if (k.keys.press temp).clears temp then ({ k with keys := k.keys.press temp } : Kernel).clearScreen
  else { k with keys := k.keys.press temp }

theorem typeCode_handled (hh : k.keys.handled temp = true) : k.typeCode t temp =
    ((k.pressed temp).acceptChar t ((k.pressed temp).keys.currentChar temp)).setOldData temp := if_pos hh

theorem went_pressed (k : Kernel) (temp : ℕ) :
    k.Went (if (k.keys.press temp).clears temp then ⟨0, 0⟩ else k.cursors.live)
      (if (k.keys.press temp).clears temp then [⟨0, 0⟩] else []) (k.pressed temp) ∧
    (k.pressed temp).keys = k.keys.press temp ∧ (k.pressed temp).keyboard = k.keyboard := by
  have hpress : k.Went k.cursors.live [] { k with keys := k.keys.press temp } := (went_refl k).still rfl rfl rfl
  unfold Kernel.pressed
  by_cases hclears : (k.keys.press temp).clears temp
  · rw [if_pos hclears, if_pos hclears, if_pos hclears]
    exact ⟨hpress.trans (went_clearScreen _), rfl, rfl⟩
  · rw [if_neg hclears, if_neg hclears, if_neg hclears]
    exact ⟨hpress, rfl, rfl⟩

theorem went_typeCode (k : Kernel) (t temp : ℕ) :
    k.Went (k.typedPos t temp k.cursors.live) (k.typedStops t temp k.console.isOnscreen k.cursors.live)
      (k.typeCode t temp) := by
  by_cases hh : k.keys.handled temp = true
  · obtain ⟨hpressed, hkeys, hkeyboard⟩ := went_pressed k temp
    have haccept := went_acceptChar (k.pressed temp) t ((k.pressed temp).keys.currentChar temp)
    have hlive := congrArg TimeShared.live hpressed.cursors
    have hon := hpressed.isOnscreen
    rw [typeCode_handled hh]
    unfold Kernel.typedPos Kernel.typedStops
    rw [if_pos hh, if_pos hh]
    generalize k.pressed temp = k₁ at hpressed hkeys hkeyboard haccept hlive hon ⊢
    unfold Console.stops at haccept
    rw [hkeys, hkeyboard, hlive, hon] at haccept
    have hold : ∀ {p l} {k₂ : Kernel}, k.Went p l k₂ → k.Went p l (k₂.setOldData temp) := fun h => h.still rfl rfl rfl
    have hboth := hold (hpressed.trans haccept)
    rw [hkeys]
    exact hboth
  · unfold Kernel.typeCode Kernel.typedPos Kernel.typedStops
    rw [if_neg hh, if_neg hh, if_neg hh]
    exact (went_refl k).still rfl rfl rfl

end Code
/-! ## The handler -/

section Handler
variable {img : Image} {fs : Filesystem} {k k' k₁ : Kernel} {e : Entry} {t temp u : ℕ} {r : ℤ}

theorem lent_onscreen (hon : k.terminalNow.isOnscreen ≠ 0) : (k.lent t).cursors = k.cursors ∧
    (k.lent t).ports = k.ports := by
  unfold Kernel.lent Kernel.borrowScreen
  rw [if_neg hon]
  exact ⟨rfl, rfl⟩

theorem lent_offscreen (hoff : k.terminalNow.isOnscreen = 0) :
    (k.lent t).cursors = k.cursors.handOn k.terminalNow.terminalNum t ∧
      (k.lent t).ports = (k.cursors.handOn k.terminalNow.terminalNum t).live.writes ++ k.ports := by
  have hmoved : ∀ (k : Kernel) (page a b : ℕ), ((k.setVideo page).switchCursor a b).updateCursor.cursors =
    k.cursors.handOn a b ∧
      ((k.setVideo page).switchCursor a b).updateCursor.ports = (k.cursors.handOn a b).live.writes ++ k.ports :=
    fun _ _ _ _ => ⟨rfl, rfl⟩
  unfold Kernel.lent Kernel.borrowScreen
  rw [if_pos hoff]
  exact hmoved (k.setAttrib (color t)) _ _ _

/-- The cursors once the cursor of terminal `t` has moved to `p` and the process has its own again. -/
def Kernel.givenBack (k : Kernel) (t : ℕ) (p : CursorPos) : TimeShared ℕ CursorPos :=
  if k.terminalNow.isOnscreen = 0 then ((k.cursors.handOn k.terminalNow.terminalNum t).write p).handOn t
    k.terminalNow.terminalNum
  else k.cursors.write p

theorem returnScreen_kept {info : TerminalInfo} :
    (k.returnScreen 0 info t).cursors = k.cursors ∧ (k.returnScreen 0 info t).ports = k.ports := by
  unfold Kernel.returnScreen
  rw [if_neg (by decide)]
  exact ⟨rfl, rfl⟩

theorem returnScreen_back {info : TerminalInfo} {page : ℕ} (hpage : page ≠ 0) :
    (k.returnScreen page info t).cursors = k.cursors.handOn t info.terminalNum ∧
      (k.returnScreen page info t).ports = (k.cursors.handOn t info.terminalNum).live.writes ++ k.ports := by
  unfold Kernel.returnScreen
  rw [if_pos hpage]
  exact ⟨rfl, rfl⟩

theorem console_lent (k : Kernel) (t : ℕ) : (k.lent t).console.isOnscreen = k.console.isOnscreen := by
  have hsame := (same_lent k t).terminalNow
  unfold Kernel.terminalNow at hsame
  unfold Kernel.console
  simp only [hsame]

theorem console_isOnscreen (k : Kernel) : k.console.isOnscreen = decide (k.terminalNow.isOnscreen ≠ 0) := rfl

/-- **A code that asks for no terminal**, typed while a process on screen runs. -/
theorem went_echoed (hon : k.terminalNow.isOnscreen ≠ 0) :
    (k.echoed t temp).cursors = k.cursors.write (k.typedPos t temp k.cursors.live) ∧
      (k.echoed t temp).ports = (k.typedStops t temp true k.cursors.live).flatMap CursorPos.writes ++ k.ports := by
  have hwent := went_typeCode (k.lent t) t temp
  have hold : k.oldPage = 0 := if_neg hon
  obtain ⟨hcursors, hports⟩ := lent_onscreen (t := t) hon
  obtain ⟨hpos, hstops⟩ := @typedPos_congr k (k.lent t) t temp k.console.isOnscreen k.cursors.live (keys_lent k t)
    (keyboard_lent k t)
  rw [console_lent, hcursors, hpos, hstops, console_isOnscreen, decide_eq_true hon] at hwent
  have hback := @returnScreen_kept ((k.lent t).typeCode t temp) t k.terminalNow
  unfold Kernel.echoed
  rw [hold]
  exact ⟨hback.1.trans (hwent.cursors.trans (by rw [hcursors])), hback.2.trans (hwent.ports.trans (by rw [hports]))⟩

theorem went_echoed_borrowed (hoff : k.terminalNow.isOnscreen = 0) (hpage : k.terminalNow.fakePageAddr ≠ 0)
    {s : TimeShared ℕ CursorPos}
    (hs : s = k.cursors.handOn k.terminalNow.terminalNum t) :
    (k.echoed t temp).cursors = (s.write (k.typedPos t temp s.live)).handOn t k.terminalNow.terminalNum ∧
      (k.echoed t temp).ports = ((s.write (k.typedPos t temp s.live)).handOn t k.terminalNow.terminalNum).live.writes ++
        ((k.typedStops t temp false s.live).flatMap CursorPos.writes ++ (s.live.writes ++ k.ports)) := by
  have hwent := went_typeCode (k.lent t) t temp
  have hold : k.oldPage = k.terminalNow.fakePageAddr := if_pos hoff
  obtain ⟨hcursors, hports⟩ := lent_offscreen (t := t) hoff
  rw [← hs] at hcursors hports
  obtain ⟨hpos, hstops⟩ :=
    @typedPos_congr k (k.lent t) t temp k.console.isOnscreen s.live (keys_lent k t) (keyboard_lent k t)
  have hdark : k.console.isOnscreen = false := by
    rw [console_isOnscreen, hoff]
    rfl
  rw [console_lent, hcursors, hpos, hstops, hdark] at hwent
  obtain ⟨hback, hback'⟩ := @returnScreen_back ((k.lent t).typeCode t temp) t k.terminalNow _ hpage
  unfold Kernel.echoed
  rw [hold, hback', hback, hwent.cursors, hwent.ports, hcursors, hports]
  exact ⟨rfl, rfl⟩

theorem cursors_echoed (hpage : k.terminalNow.isOnscreen = 0 → k.terminalNow.fakePageAddr ≠ 0) :
    (k.echoed t temp).cursors = k.givenBack t (k.typedPos t temp (k.lent t).cursors.live) := by
  unfold Kernel.givenBack
  split
  · next hoff =>
    rw [(went_echoed_borrowed hoff (hpage hoff) rfl).1, (lent_offscreen hoff).1]
  · next hon => rw [(went_echoed hon).1, (lent_onscreen hon).1]

/-! A code that asks for a terminal. -/

theorem acceptChar_zero (k : Kernel) (t : ℕ) : k.acceptChar t 0 = k := by
  unfold Kernel.acceptChar
  simp only [ne_eq, not_true_eq_false, false_and, if_false]
  exact if_neg (by decide)

/-- What the kernel does once `switch_terminal` has returned. -/
def Kernel.answered (k : Kernel) (u temp : ℕ) (r : ℤ) : Kernel :=
  (if r < 0 then k.printf (cannotOpen u) else k).setOldData temp

theorem handleScanCode_request (hreq : k.requests temp = some u) :
    handleScanCode img fs k e t temp =
      match switchTerminal img fs { k with keys := k.keys.press temp } e u with
      | .ret r k₁ => .ret 0 (k₁.answered u temp r)
      | o => o := by
  have hh := handled_of_requests hreq
  unfold Kernel.requests at hreq
  rw [if_pos hh] at hreq
  have hsilent := requested_silent hreq
  have hinput := @input_switchTerminal img fs { k with keys := k.keys.press temp } e u
  unfold handleScanCode
  rw [if_pos hh]
  unfold combination
  simp only [hreq]
  cases hs : switchTerminal img fs { k with keys := k.keys.press temp } e u with
  | gone k₁ => rfl
  | fault k₁ => rfl
  | ret r k₁ =>
    rw [hs] at hinput
    have hkeys : k₁.keys = k.keys.press temp := congrArg Input.keys hinput
    have hanswer : (if r < 0 then k₁.printf (cannotOpen u) else k₁).keys = k.keys.press temp := by
      split
      · exact hkeys
      · exact hkeys
    simp only
    rw [hanswer, hsilent, acceptChar_zero]
    rfl

/-- The cursors, the registers and whose terminal is whose stay as they are. -/
structure Kernel.SameCursors (k k' : Kernel) : Prop where
  cursors : k'.cursors = k.cursors
  ports : k'.ports = k.ports
  terminalNum : ∀ a, (k'.pcb a).terminalInfo.terminalNum = (k.pcb a).terminalInfo.terminalNum
  fakePageAddr : ∀ a, (k'.pcb a).terminalInfo.fakePageAddr = (k.pcb a).terminalInfo.fakePageAddr
  cpu : k'.cpu = k.cpu

theorem Kernel.SameCursors.trans (h : k.SameCursors k₁) (h' : k₁.SameCursors k') : k.SameCursors k' where
  cursors := h'.cursors.trans h.cursors
  ports := h'.ports.trans h.ports
  terminalNum a := (h'.terminalNum a).trans (h.terminalNum a)
  fakePageAddr a := (h'.fakePageAddr a).trans (h.fakePageAddr a)
  cpu := h'.cpu.trans h.cpu

theorem sameCursors_setTerminal (k : Kernel) (a x : ℕ) :
    k.SameCursors (k.setTerminal a fun t => { t with isOnscreen := x }) where
  cursors := rfl
  ports := rfl
  terminalNum b := k.pcb_field (fun p => p.terminalInfo.terminalNum)
    (f := fun p => { p with terminalInfo := { p.terminalInfo with isOnscreen := x } }) (fun _ => rfl) a b
  fakePageAddr b := k.pcb_field (fun p => p.terminalInfo.fakePageAddr)
    (f := fun p => { p with terminalInfo := { p.terminalInfo with isOnscreen := x } }) (fun _ => rfl) a b
  cpu := rfl

theorem sameCursors_showTerminal {o q : ℕ} (h : k.showTerminal o q = .ok k₁) : k.SameCursors k₁ := by
  unfold Kernel.showTerminal at h
  simp only at h
  split at h
  · cases h
  · next k₂ hk₂ =>
    have hsame : k.SameCursors k₂ := by
      split at hk₂
      · obtain ⟨m, rfl⟩ := Kernel.switchKernelMemory_phys (Or.inl hk₂)
        exact ⟨rfl, rfl, fun _ => rfl, fun _ => rfl, rfl⟩
      · cases hk₂
        exact ⟨rfl, rfl, fun _ => rfl, fun _ => rfl, rfl⟩
    cases h
    exact (hsame.trans (sameCursors_setTerminal _ _ _)).trans (sameCursors_setTerminal _ _ _)

theorem sameCursors_switchTerminal {q : ℕ} (hpid : k.findTerminalPid u = some q)
    (h : switchTerminal img fs k e u = .ret r k₁) :
    r = 1 ∧ k.SameCursors k₁ := by
  unfold switchTerminal at h
  simp only [hpid] at h
  have hattrib : k.SameCursors (k.setAttrib (color u)) := ⟨rfl, rfl, fun _ => rfl, fun _ => rfl, rfl⟩
  split at h
  · cases h
  · next k₂ hk₂ =>
    have hsame := hattrib.trans (sameCursors_showTerminal hk₂)
    split at h
    · cases h
      exact ⟨rfl, hsame⟩
    · cases h
      exact ⟨rfl, hsame.trans ⟨rfl, rfl, fun _ => rfl, fun _ => rfl, rfl⟩⟩

theorem cursors_createTerminal {o : ℕ} (h : createTerminal img fs k e o u = .gone k₁) :
    k₁.cursors = k.cursors.write ⟨0, 0⟩ := by
  have hend : ∀ (k₃ : Kernel) a self x frame f eip frame' f' eax,
      ((((((k₃.setTss a).saveRegs self x).setFrame frame f).clearScreen).setupExecStack eip self
        frame' f' eax).cursors =
        k₃.cursors.write ⟨0, 0⟩) := fun _ _ _ _ _ _ _ _ _ _ => rfl
  have hset : ∀ (k₂ : Kernel) a f b g d v, (((k₂.setTerminal a f).setTerminal b g).setPcb d v).cursors = k₂.cursors :=
    fun _ _ _ _ _ _ _ => rfl
  unfold createTerminal at h
  split at h
  · cases h
  · split at h
    · cases h
    · split at h
      · cases h
      · next p k₁' hid =>
        obtain ⟨-, -, -, rfl⟩ := Kernel.getProcessId_some hid
        simp only at h
        split at h
        · cases h
        · next eip k₂ ho =>
          obtain ⟨m, rfl⟩ := openExecutable_phys (Or.inl ho)
          split at h
          · cases h
          · split at h
            · cases h
            · next k₃ hs =>
              cases h
              rw [hend, (sameCursors_showTerminal hs).cursors, hset]
              rfl

theorem cursors_switchTerminal_gone (h : switchTerminal img fs k e u = .gone k₁) :
    k.findTerminalPid u = none ∧ k₁.cursors = k.cursors.write ⟨0, 0⟩ := by
  unfold switchTerminal at h
  simp only at h
  split at h
  · next hpid => exact ⟨hpid, cursors_createTerminal h⟩
  · split at h
    · cases h
    · split at h <;> cases h

theorem switchTerminal_vain (hpid : k.findTerminalPid u = none) (h : switchTerminal img fs k e u = .ret r k₁) :
    r = -1 ∧ k₁ = k := by
  unfold switchTerminal at h
  simp only [hpid] at h
  exact createTerminal_ret h

/-! What the handler leaves, by how it ends. -/

theorem handleKeyboard_eq (hon : k.findOnscreenTerminalNum = some t) :
    handleKeyboard img fs k e temp =
      match handleScanCode img fs (k.lent t) e t temp with
      | .ret _ k₁ => .ret 0 (k₁.returnScreen k.oldPage (k₁.pcb (getPcb k.cpu.esp)).terminalInfo t)
      | o => o := by
  unfold handleKeyboard
  rw [hon]
  rfl

/-- The kernel inside the handler, once the modifiers are noted. -/
def Kernel.asked (k : Kernel) (t temp : ℕ) : Kernel := { k.lent t with keys := k.keys.press temp }

theorem same_asked (k : Kernel) (t temp : ℕ) : SameProcesses k (k.asked t temp) :=
  (same_lent k t).trans ⟨rfl, rfl, rfl⟩

theorem handleKeyboard_request (hon : k.findOnscreenTerminalNum = some t) (hreq : k.requests temp = some u) :
    handleKeyboard img fs k e temp =
      match switchTerminal img fs (k.asked t temp) e u with
      | .ret r k₁ => .ret 0 ((k₁.answered u temp r).returnScreen k.oldPage (k₁.pcb (getPcb k.cpu.esp)).terminalInfo t)
      | o => o := by
  have hreq' : (k.lent t).requests temp = some u := by
    unfold Kernel.requests at hreq ⊢
    rw [keys_lent]
    exact hreq
  rw [handleKeyboard_eq hon, handleScanCode_request hreq', keys_lent]
  show (match (match switchTerminal img fs
    (k.asked t temp) e u with | .ret r k₁ => Outcome.ret 0 (k₁.answered u temp r) | o => o) with
    | .ret _ k₁ => Outcome.ret 0 (k₁.returnScreen k.oldPage (k₁.pcb (getPcb k.cpu.esp)).terminalInfo t)
    | o => o) = _
  cases switchTerminal img fs (k.asked t temp) e u with
  | ret r k₁ =>
    have hpcb : (k₁.answered u temp r).pcb = k₁.pcb := by
      unfold Kernel.answered
      split <;> rfl
    simp only [hpcb]
  | gone k₁ => rfl
  | fault k₁ => rfl

theorem findTerminalPid_asked (k : Kernel) (t temp : ℕ) : (k.asked t temp).findTerminalPid u = k.findTerminalPid u := by
  have hsame := same_asked k t temp
  unfold Kernel.findTerminalPid
  rw [hsame.pcb, hsame.ids]

theorem cursors_printf (k : Kernel) (cs : List UInt8) :
    (k.printf cs).cursors = k.cursors.write (k.cursors.live.puts cs) :=
  (k.cursors_withConsole fun s => s.printf cs).trans (congrArg k.cursors.write (k.console.cursorPos_puts cs))

theorem cursors_answered (k : Kernel) (u temp : ℕ) :
    (k.answered u temp 1).cursors = k.cursors ∧ (k.answered u temp 1).ports = k.ports ∧
      (k.answered u temp (-1)).cursors = k.cursors.write (k.cursors.live.puts (cannotOpen u)) := by
  have hdone : k.answered u temp 1 = k.setOldData temp := by
    unfold Kernel.answered
    rw [if_neg (by decide)]
  have hvain : k.answered u temp (-1) = (k.printf (cannotOpen u)).setOldData temp := by
    unfold Kernel.answered
    rw [if_pos (by decide)]
  have hold : ∀ k : Kernel, (k.setOldData temp).cursors = k.cursors ∧ (k.setOldData temp).ports = k.ports :=
    fun _ => ⟨rfl, rfl⟩
  rw [hdone, hvain, ← cursors_printf]
  exact ⟨(hold k).1, (hold k).2, (hold _).1⟩

theorem cursors_returned {info : TerminalInfo} {p : CursorPos} (hnum : info.terminalNum = k.terminalNow.terminalNum)
    (hpage : k.terminalNow.isOnscreen = 0 → k.terminalNow.fakePageAddr ≠ 0)
    (hk₁ : k₁.cursors = (k.lent t).cursors.write p) :
    (k₁.returnScreen k.oldPage info t).cursors = k.givenBack t p := by
  unfold Kernel.oldPage Kernel.givenBack
  split
  · next hoff =>
    rw [(returnScreen_back (hpage hoff)).1, hk₁, (lent_offscreen hoff).1, hnum]
  · next hon => rw [returnScreen_kept.1, hk₁, (lent_onscreen hon).1]

/-- **A request for a terminal in use.** -/
theorem handleKeyboard_shows {q : ℕ} (hon : k.findOnscreenTerminalNum = some t) (hreq : k.requests temp = some u)
    (hpid : k.findTerminalPid u = some q) (hpage : k.terminalNow.isOnscreen = 0 → k.terminalNow.fakePageAddr ≠ 0)
    (h : handleKeyboard img fs k e temp = .ret r k') : k'.cursors = k.givenBack t (k.lent t).cursors.live := by
  rw [handleKeyboard_request hon hreq] at h
  cases hs : switchTerminal img fs (k.asked t temp) e u with
  | ret r' k₁ =>
    rw [hs] at h
    simp only [Outcome.ret.injEq] at h
    obtain ⟨rfl, hsame⟩ := sameCursors_switchTerminal ((findTerminalPid_asked k t temp).trans hpid) hs
    have hcursors : (k₁.answered u temp 1).cursors = (k.lent t).cursors.write (k.lent t).cursors.live :=
      (cursors_answered k₁ u temp).1.trans hsame.cursors
    have hnum : (k₁.pcb (getPcb k.cpu.esp)).terminalInfo.terminalNum = k.terminalNow.terminalNum := by
      rw [hsame.terminalNum, (same_asked k t temp).pcb]
      rfl
    rw [← h.2]
    exact cursors_returned hnum hpage hcursors
  | gone k₁ =>
    rw [hs] at h
    cases h
  | fault k₁ =>
    rw [hs] at h
    cases h

theorem handleKeyboard_vain (hon : k.findOnscreenTerminalNum = some t) (hreq : k.requests temp = some u)
    (hpid : k.findTerminalPid u = none) (hpage : k.terminalNow.isOnscreen = 0 → k.terminalNow.fakePageAddr ≠ 0)
    (h : handleKeyboard img fs k e temp = .ret r k') :
    k'.cursors = k.givenBack t ((k.lent t).cursors.live.puts (cannotOpen u)) := by
  rw [handleKeyboard_request hon hreq] at h
  cases hswitch : switchTerminal img fs (k.asked t temp) e u with
  | ret r' k₁ =>
    rw [hswitch] at h
    simp only [Outcome.ret.injEq] at h
    obtain ⟨rfl, rfl⟩ := switchTerminal_vain ((findTerminalPid_asked k t temp).trans hpid) hswitch
    have hcursors := (cursors_answered (k.asked t temp) u temp).2.2
    have hnum : ((k.asked t temp).pcb (getPcb k.cpu.esp)).terminalInfo.terminalNum = k.terminalNow.terminalNum := by
      rw [(same_asked k t temp).pcb]
      rfl
    rw [← h.2]
    exact cursors_returned hnum hpage hcursors
  | gone k₁ =>
    rw [hswitch] at h
    cases h
  | fault k₁ =>
    rw [hswitch] at h
    cases h

/-- **A request that creates a terminal.** -/
theorem handleKeyboard_creates (hon : k.findOnscreenTerminalNum = some t) (hreq : k.requests temp = some u)
    (h : handleKeyboard img fs k e temp = .gone k') :
    k.findTerminalPid u = none ∧ k'.cursors = (k.lent t).cursors.write ⟨0, 0⟩ := by
  rw [handleKeyboard_request hon hreq] at h
  cases hswitch : switchTerminal img fs (k.asked t temp) e u with
  | ret r' k₁ =>
    rw [hswitch] at h
    cases h
  | gone k₁ =>
    rw [hswitch] at h
    simp only [Outcome.gone.injEq] at h
    obtain ⟨hpid, hcursors⟩ := cursors_switchTerminal_gone hswitch
    rw [findTerminalPid_asked] at hpid
    rw [← h]
    exact ⟨hpid, hcursors⟩
  | fault k₁ =>
    rw [hswitch] at h
    cases h

end Handler
end Kernel391
