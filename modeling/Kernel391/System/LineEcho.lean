import Kernel391.Console.Cells
import Kernel391.System.Keystroke

/-! The echo of a line. What is typed stands on the screen from the cell where the line
began up to the cursor, wherever rows end and however far the screen has scrolled. -/
namespace Kernel391
open Kernel391.Foundations
set_option autoImplicit false

/-- The line in the buffer stands on the screen `s`, which showed `s₀` when it began and has scrolled `n` rows since;
`reach` is the most characters it has had. -/
structure LineShown (s₀ s : Console) (kb : KeyboardStruct) (reach n : ℕ) : Prop where
  inRange : s.InRange
  start : numCols * n ≤ s₀.pos
  cursor : s.pos + numCols * n = s₀.pos + kb.top
  line : ∀ i < kb.top, s.cell (s₀.pos + i - numCols * n) = kb.buffer i
  vacated : ∀ i, kb.top ≤ i → i < reach → s.cell (s₀.pos + i - numCols * n) = 0x20
  before : ∀ q, numCols * n ≤ q → q < s₀.pos → s.cell (q - numCols * n) = s₀.cell q
  room : kb.top ≤ reach ∧ reach ≤ 127 ∧ s₀.pos + reach < numCells + numCols * n

section Console
open Console
variable {s₀ s s' : Console} {kb : KeyboardStruct} {c : UInt8} {reach n : ℕ}

theorem LineShown.congr (h : LineShown s₀ s kb reach n) (hs : s.SameText s') : LineShown s₀ s' kb reach n where
  inRange := hs.inRange h.inRange
  start := h.start
  cursor := by rw [hs.pos]; exact h.cursor
  line i hi := (hs.cells _ (by have := h.room; have := h.start; omega)).trans (h.line i hi)
  vacated i hi hr := (hs.cells _ (by have := h.room; have := h.start; omega)).trans (h.vacated i hi hr)
  before q hq hlt := (hs.cells _ (by have := h.room; have := h.start; omega)).trans (h.before q hq hlt)
  room := h.room

theorem lineShown_start (h : s.InRange) (htop : kb.top = 0) : LineShown s s kb 0 0 where
  inRange := h
  start := Nat.zero_le _
  cursor := by rw [htop]; rfl
  line i hi := by omega
  vacated i _ hi := by omega
  before q _ _ := rfl
  room := ⟨htop.le, Nat.zero_le _, h.pos_lt⟩

theorem push_lt {i : ℕ} (h : i < kb.top) : (kb.push c).buffer i = kb.buffer i :=
  Function.update_of_ne (Nat.ne_of_lt h) _ _

theorem push_top_self : (kb.push c).buffer kb.top = c := Function.update_self _ _ _

theorem LineShown.push (h : LineShown s₀ s kb reach n) (htop : kb.top < 127) (hc : ¬ (c = 0x0A ∨ c = 0x0D)) :
    ∃ n', LineShown s₀ (s.putc c) (kb.push c) (max reach (kb.top + 1)) n' := by
  have hput := putc_putAt h.inRange hc
  have hlt := h.inRange.pos_lt
  have hcursor := h.cursor
  have hstart := h.start
  obtain ⟨hreach, hreach', hroom⟩ := h.room
  by_cases hlast : s.pos + 1 = numCells
  · obtain ⟨hpos, hcells⟩ := hput.scrolled hlast
    have hrows : numCols * (n + 1) = numCols * n + numCols := Nat.mul_succ _ _
    have hcols : 0 < numCols ∧ numCols < numCells - 127 := by decide
    -- the line is shorter than the screen, so its start is still there
    have hup : ∀ q, numCols * (n + 1) ≤ q → q < s₀.pos + kb.top →
        (s.putc c).cell (q - numCols * (n + 1)) = s.cell (q - numCols * n) := by
      intro q hq hlt
      rw [hcells _ (by omega), if_pos (by omega), if_neg (by omega)]
      congr 1
      omega
    refine ⟨n + 1, hput.inRange, by omega, ?_, fun i hi => ?_, fun i hi hr => ?_, fun q hq hlt => ?_,
      by rw [KeyboardStruct.push_top]; omega⟩
    · rw [KeyboardStruct.push_top]
      omega
    · rw [KeyboardStruct.push_top] at hi
      rcases Nat.lt_or_ge i kb.top with hi' | hi'
      · rw [push_lt hi', hup _ (by omega) (by omega)]
        exact h.line i hi'
      · obtain rfl : i = kb.top := by omega
        rw [push_top_self, hcells _ (by omega), if_pos (by omega), if_pos (by omega)]
    · rw [KeyboardStruct.push_top] at hi
      omega
    · rw [hup q hq (by omega)]
      exact h.before q (by omega) hlt
  · obtain ⟨hpos, hcells⟩ := hput.here (by omega)
    have hsame : ∀ q, numCols * n ≤ q → q < numCells + numCols * n → q ≠ s₀.pos + kb.top →
        (s.putc c).cell (q - numCols * n) = s.cell (q - numCols * n) := by
      intro q hq hlt hne
      rw [hcells _ (by omega), if_neg (by omega)]
    refine ⟨n, hput.inRange, hstart, ?_, fun i hi => ?_, fun i hi hr => ?_, fun q hq hlt => ?_,
      by rw [KeyboardStruct.push_top]; omega⟩
    · rw [KeyboardStruct.push_top]
      omega
    · rw [KeyboardStruct.push_top] at hi
      rcases Nat.lt_or_ge i kb.top with hi' | hi'
      · rw [push_lt hi', hsame _ (by omega) (by omega) (by omega)]
        exact h.line i hi'
      · obtain rfl : i = kb.top := by omega
        rw [push_top_self, hcells _ (by omega), if_pos (by omega)]
    · rw [KeyboardStruct.push_top] at hi
      rw [hsame _ (by omega) (by omega) (by omega)]
      exact h.vacated i (by omega) (by omega)
    · rw [hsame q hq (by omega) (by omega)]
      exact h.before q hq hlt

theorem LineShown.drop (h : LineShown s₀ s kb reach n) (htop : 0 < kb.top) :
    LineShown s₀ s.delc { kb with top := kb.top - 1 } reach n := by
  have hcursor := h.cursor
  have hstart := h.start
  obtain ⟨hreach, hreach', hroom⟩ := h.room
  have hdel := delc_deletedAt h.inRange (by omega)
  have hpos := hdel.pos
  have hsame : ∀ q, numCols * n ≤ q → q < numCells + numCols * n → q + 1 ≠ s₀.pos + kb.top →
      s.delc.cell (q - numCols * n) = s.cell (q - numCols * n) := by
    intro q hq hlt hne
    rw [hdel.cells _ (by omega), if_neg (by omega)]
  refine ⟨hdel.inRange, hstart, ?_, fun i hi => ?_, fun i hi hr => ?_, fun q hq hlt => ?_, ?_⟩
  · show s.delc.pos + numCols * n = s₀.pos + (kb.top - 1)
    omega
  · replace hi : i < kb.top - 1 := hi
    rw [hsame _ (by omega) (by omega) (by omega)]
    exact h.line i (by omega)
  · replace hi : kb.top - 1 ≤ i := hi
    rcases Nat.lt_or_ge i kb.top with hi' | hi'
    · rw [hdel.cells _ (by omega), if_pos (by omega)]
    · rw [hsame _ (by omega) (by omega) (by omega)]
      exact h.vacated i hi' hr
  · rw [hsame q hq (by omega) (by omega)]
    exact h.before q hq hlt
  · show kb.top - 1 ≤ reach ∧ reach ≤ 127 ∧ s₀.pos + reach < numCells + numCols * n
    omega

end Console

/-- The echo of a character that goes to the buffer `kb`. -/
def Console.echo (s : Console) (kb : KeyboardStruct) (c : UInt8) : Console :=
  if c ≠ 0 ∧ kb.enterLock = 0 then
    if c = esc then s
    else if c = 0x08 ∧ kb.top > 0 then s.delc
    else if c = 0x09 ∧ kb.top < 124 then s.puts (ascii "    ".toList)
    else if c ≠ 0x08 ∧ kb.top < 128 ∧ c ≠ 0x09 then
      if kb.top = 127 then if c = 0x0A then s.putc c else s else s.putc c
    else s
  else s

section Echo
open Console
variable {s₀ s s' : Console} {kb : KeyboardStruct} {c : UInt8} {reach n : ℕ}

theorem LineShown.typed (h : LineShown s₀ s kb reach n) (hc : ¬ (c = 0x0A ∨ c = 0x0D)) :
    ∃ n', LineShown s₀ (s.echo kb c) (kb.typed c) (max reach (kb.typed c).top) n' := by
  have hkeep : ∃ n', LineShown s₀ s kb (max reach kb.top) n' := by
    rw [Nat.max_eq_left h.room.1]
    exact ⟨n, h⟩
  have hnewline : c ≠ 0x0A := fun hx => hc (Or.inl hx)
  unfold Console.echo KeyboardStruct.typed
  simp only [if_neg hnewline]
  split
  · split
    · exact hkeep
    · split
      · next hback =>
        have hdrop := h.drop hback.2
        refine ⟨n, ?_⟩
        rw [Nat.max_eq_left hdrop.room.1]
        exact hdrop
      · split
        · next htab =>
          have htop := htab.2
          have hblank : ¬ ((0x20 : UInt8) = 0x0A ∨ (0x20 : UInt8) = 0x0D) := by decide
          obtain ⟨n₁, h₁⟩ := h.push (by omega) hblank
          obtain ⟨n₂, h₂⟩ := h₁.push (by rw [KeyboardStruct.push_top]; omega) hblank
          obtain ⟨n₃, h₃⟩ := h₂.push (by rw [KeyboardStruct.push_top, KeyboardStruct.push_top]; omega) hblank
          obtain ⟨n₄, h₄⟩ := h₃.push
            (by rw [KeyboardStruct.push_top, KeyboardStruct.push_top, KeyboardStruct.push_top]; omega) hblank
          refine ⟨n₄, ?_⟩
          have hreach : max (max (max (max reach (kb.top + 1)) ((kb.push 0x20).top + 1))
              (((kb.push 0x20).push 0x20).top + 1)) ((((kb.push 0x20).push 0x20).push 0x20).top + 1) =
              max reach ((((kb.push 0x20).push 0x20).push 0x20).push 0x20).top := by
            simp only [KeyboardStruct.push_top]
            omega
          rw [← hreach]
          exact h₄
        · split
          · split
            · exact hkeep
            · exact h.push (by have := h.room; omega) hc
          · exact hkeep
  · exact hkeep

end Echo

/-! ## The handler -/

/-- What the handler echoes to: the screen and cursor in force, or those that the process of a terminal off screen
lends to terminal `t`. -/
def Kernel.shown (k : Kernel) (t : ℕ) : Console := (k.borrowScreen k.terminalNow t).console

/-- The code asks for no terminal, does not clear the screen and is not Enter. -/
def Kernel.EditsOnly (k : Kernel) (temp : ℕ) : Prop :=
  k.requests temp = none ∧ (k.keys.handled temp = true →
    ¬ (temp < 62 ∧ (k.keys.press temp).ctrl = 1 ∧ temp = 0x26) ∧ (k.keys.press temp).currentChar temp ≠ 0x0A)

section Screen
variable {k k' : Kernel} {t temp : ℕ} {c : UInt8} {s₀ : Console} {reach n : ℕ}

theorem withConsole_sameText (k : Kernel) (f : Console → Console) :
    (f k.console).SameText (k.withConsole f).console := by
  refine ⟨fun q hq => ?_, rfl, rfl⟩
  have hin : k.frameOf video ≤ k.frameOf video + 2 * q ∧ k.frameOf video + 2 * q < k.frameOf video + fourKb := by
    simp only [numCells, numCols, numRows] at hq
    simp only [fourKb]
    omega
  show (if k.frameOf video ≤ k.frameOf video + 2 * q ∧ k.frameOf video + 2 * q < k.frameOf video + fourKb then
    (f k.console).videoMem (k.frameOf video + 2 * q - k.frameOf video) else _) = (f k.console).videoMem (2 * q)
  rw [if_pos hin, Nat.add_sub_cancel_left]

theorem acceptChar_sameText (k : Kernel) (t : ℕ) (c : UInt8) :
    (k.console.echo (k.keyboard t) c).SameText (k.acceptChar t c).console := by
  have hlock : ∀ k₁ : Kernel, (k.console.echo (k.keyboard t) c).SameText k₁.console →
      (k.console.echo (k.keyboard t) c).SameText
        (if c = 0x0A then k₁.setKeyboard t fun kb => { kb with enterLock := 1 } else k₁).console := by
    intro k₁ h
    split
    · exact h
    · exact h
  unfold Kernel.acceptChar
  apply hlock
  unfold Console.echo
  repeat' split
  all_goals
    first
      | exact Console.SameText.refl _
      | exact withConsole_sameText k Console.delc
      | exact withConsole_sameText k fun s => s.puts _
      | exact withConsole_sameText k fun s => s.putc c

theorem currentChar_noReturn (s : KeyState) (temp : ℕ) : s.currentChar temp ≠ 0x0D := by
  have htable : ∀ l : List UInt8, 0x0D ∉ l → l.getD temp 0 ≠ 0x0D := by
    intro l hl hx
    rw [List.getD_eq_getElem?_getD] at hx
    cases hget : l[temp]? with
    | none =>
      rw [hget] at hx
      cases hx
    | some b =>
      rw [hget, Option.getD_some] at hx
      exact hl (hx ▸ List.mem_of_getElem? hget)
  unfold KeyState.currentChar
  repeat' split
  · decide
  · decide
  · exact htable _ (by decide)
  · exact htable _ (by decide)
  · exact htable _ (by decide)
  · exact htable _ (by decide)
  · decide

theorem console_sameText (hframe : k'.frameOf video = k.frameOf video)
    (hphys : ∀ o, k'.phys (k.frameOf video + o) = k.phys (k.frameOf video + o))
    (hx : k'.screenX = k.screenX) (hy : k'.screenY = k.screenY) : k.console.SameText k'.console := by
  refine ⟨fun q _ => ?_, hx, hy⟩
  show k'.phys (k'.frameOf video + 2 * q) = k.phys (k.frameOf video + 2 * q)
  rw [hframe, hphys]

theorem cursor_back (cursor : ℕ → CursorPos) (live : CursorPos) (t u : ℕ) :
    Function.update (Function.update cursor t live) u (Function.update cursor t live u) t = live := by
  by_cases htu : t = u
  · rw [htu, Function.update_self, Function.update_self]
  · rw [Function.update_of_ne htu, Function.update_self]

/-- **What is given back can be borrowed again**: the screen and the cursor of the terminal shown are as the handler
left them. -/
theorem returned_shown {k₁ : Kernel} (hpage : k₁.terminalNow.isOnscreen = 0 → k₁.terminalNow.fakePageAddr ≠ 0)
    (hframe : k₁.terminalNow.isOnscreen = 0 → k₁.frameOf video = video) :
    k₁.console.SameText ((k₁.returnScreen k₁.oldPage k₁.terminalNow t).shown t) := by
  have hsame := same_returnScreen k₁ k₁.oldPage k₁.terminalNow t
  unfold Kernel.shown
  rw [hsame.terminalNow]
  unfold Kernel.oldPage
  generalize k₁.terminalNow = info at *
  unfold Kernel.returnScreen Kernel.borrowScreen
  by_cases hoff : info.isOnscreen = 0
  · simp only [hoff, if_true, ne_eq, hpage hoff, not_false_eq_true]
    have hback := cursor_back k₁.cursor ⟨k₁.screenX, k₁.screenY⟩ t info.terminalNum
    refine console_sameText ?_ (fun o => ?_) ?_ ?_
    · rw [frameOf_borrowed, hframe hoff]
    · rw [phys_moved, phys_moved]
    · exact congrArg CursorPos.screenX hback
    · exact congrArg CursorPos.screenY hback
  · simp only [hoff, if_false, ne_eq, not_true_eq_false]
    exact Console.SameText.refl _

theorem lent_shown (k : Kernel) (t : ℕ) : (k.shown t).SameText (k.lent t).console := by
  unfold Kernel.shown Kernel.lent Kernel.borrowScreen
  split
  · refine console_sameText rfl (fun o => ?_) rfl rfl
    rw [phys_moved, phys_moved]
    rfl
  · exact console_sameText rfl (fun _ => rfl) rfl rfl

theorem typeCode_lineShown (h : LineShown s₀ k.console (k.keyboard t) reach n)
    (hplain : k.keys.handled temp = true →
      ¬ (temp < 62 ∧ (k.keys.press temp).ctrl = 1 ∧ temp = 0x26) ∧ (k.keys.press temp).currentChar temp ≠ 0x0A) :
    ∃ n', LineShown s₀ (k.typeCode t temp).console ((k.typeCode t temp).keyboard t)
      (max reach ((k.typeCode t temp).keyboard t).top) n' := by
  unfold Kernel.typeCode
  by_cases hh : k.keys.handled temp = true
  · obtain ⟨hclear, hnewline⟩ := hplain hh
    rw [if_pos hh]
    simp only [if_neg hclear]
    have hecho := acceptChar_sameText { k with keys := k.keys.press temp } t ((k.keys.press temp).currentChar temp)
    have hkb := (keyboard_acceptChar { k with keys := k.keys.press temp } t ((k.keys.press temp).currentChar temp)).1
    generalize ({ k with keys := k.keys.press temp } : Kernel).acceptChar t ((k.keys.press temp).currentChar temp) = k₁
      at hecho hkb ⊢
    obtain ⟨n', hline⟩ := h.typed fun hx => hx.elim hnewline (currentChar_noReturn _ _)
    have hbuffer : (k₁.setOldData temp).keyboard t = (k.keyboard t).typed ((k.keys.press temp).currentChar temp) := by
      show k₁.keyboard t = _
      rw [hkb, Function.update_self]
    rw [hbuffer]
    exact ⟨n', hline.congr hecho⟩
  · rw [if_neg hh, Nat.max_eq_left h.room.1]
    exact ⟨n, h⟩

end Screen

/-! ## Runs of keys -/

structure Typing where
  kernel : Kernel
  reach : ℕ

/-- The handler reads a code; the reach of the line is recorded. -/
def echoStep (img : Image) (fs : Filesystem) (t : ℕ) (s : Typing) (code : Entry × ℕ) : Option Typing :=
  match handleKeyboard img fs s.kernel code.1 code.2 with
  | .ret _ k => some ⟨k, max s.reach (k.keyboard t).top⟩
  | _ => none

def editsOnly (s : Typing) (code : Entry × ℕ) : Prop := s.kernel.EditsOnly code.2

instance (s : Typing) (code : Entry × ℕ) : Decidable (editsOnly s code) :=
  inferInstanceAs (Decidable (_ ∧ (_ → ¬ _ ∧ _)))

structure EchoState (s₀ : Console) (t : ℕ) (s : Typing) : Prop where
  onscreen : s.kernel.findOnscreenTerminalNum = some t
  page : s.kernel.terminalNow.isOnscreen = 0 → s.kernel.terminalNow.fakePageAddr ≠ 0
  shown : ∃ n, LineShown s₀ (s.kernel.shown t) (s.kernel.keyboard t) s.reach n

section Run
variable {img : Image} {fs : Filesystem} {t : ℕ} {s s' : Typing} {s₀ : Console} {code : Entry × ℕ}

theorem echoStep_echoState (h : EchoState s₀ t s) (hok : editsOnly s code) (hs : echoStep img fs t s code = some s') :
    EchoState s₀ t s' := by
  obtain ⟨k, reach⟩ := s
  obtain ⟨hon, hpage, n, hshown⟩ := h
  obtain ⟨hreq, hplain⟩ := hok
  have hret := @handleKeyboard_quiet img fs k code.1 t code.2 hon hreq
  have hecho := echoed_typeCode (k.lent t) t code.2
  have hsame := (same_lent k t).trans hecho.sameProcesses
  have hline : ∃ n', LineShown s₀ ((k.lent t).typeCode t code.2).console (((k.lent t).typeCode t code.2).keyboard t)
      (max reach (((k.lent t).typeCode t code.2).keyboard t).top) n' := by
    have hlent := (hshown.congr (lent_shown k t))
    rw [← keyboard_lent k t] at hlent
    refine typeCode_lineShown hlent fun hh => ?_
    rw [keys_lent] at hh ⊢
    exact hplain hh
  have hframe : ((k.lent t).typeCode t code.2).terminalNow.isOnscreen = 0 →
      ((k.lent t).typeCode t code.2).frameOf video = video := by
    intro hoff
    rw [hsame.terminalNow] at hoff
    rw [hecho.frameOf]
    unfold Kernel.lent Kernel.borrowScreen
    rw [if_pos hoff]
    exact frameOf_borrowed (k.setAttrib (color t)) k.terminalNow.terminalNum t
  unfold echoStep at hs
  rw [hret] at hs
  simp only [Option.some.injEq] at hs
  subst hs
  generalize (k.lent t).typeCode t code.2 = k₁ at hsame hline hframe ⊢
  have hinfo := hsame.terminalNow
  have hold : k.oldPage = k₁.oldPage := by
    unfold Kernel.oldPage
    rw [hinfo]
  have hback := same_returnScreen k₁ k₁.oldPage k₁.terminalNow t
  have hreturned := @returned_shown t k₁ (by rw [hinfo]; exact hpage) hframe
  have hkb : (k₁.returnScreen k₁.oldPage k₁.terminalNow t).keyboard = k₁.keyboard :=
    congrArg Input.keyboard (input_returnScreen k₁ k₁.oldPage k₁.terminalNow t)
  rw [hold, ← hinfo]
  refine ⟨?_, ?_, ?_⟩
  · exact (hsame.trans hback).onscreenNum.trans hon
  · show (k₁.returnScreen k₁.oldPage k₁.terminalNow t).terminalNow.isOnscreen = 0 →
      (k₁.returnScreen k₁.oldPage k₁.terminalNow t).terminalNow.fakePageAddr ≠ 0
    rw [hback.terminalNow, hinfo]
    exact hpage
  · obtain ⟨n', hl⟩ := hline
    refine ⟨n', ?_⟩
    simp only [hkb]
    exact hl.congr hreturned

end Run

/-- **The echo matches the buffer**: after every key the line stands on the screen from the cell where it began. -/
theorem echo_matches_buffer (img : Image) (fs : Filesystem) (k : Kernel) (t : ℕ)
    (hon : k.findOnscreenTerminalNum = some t)
    (hpage : k.terminalNow.isOnscreen = 0 → k.terminalNow.fakePageAddr ≠ 0)
    (hempty : (k.keyboard t).top = 0) (hstart : (k.shown t).InRange) (s : Typing)
    (h : Reaches (echoStep img fs t) editsOnly ⟨k, 0⟩ s) :
    ∃ n, LineShown (k.shown t) (s.kernel.shown t) (s.kernel.keyboard t) s.reach n := by
  have hbegin : EchoState (k.shown t) t ⟨k, 0⟩ := ⟨hon, hpage, 0, lineShown_start hstart hempty⟩
  exact (h.invariant hbegin fun _ _ _ hs hok hstep => echoStep_echoState hs hok hstep).shown

/-- `a`, Tab and Backspace, typed while the first shell runs. -/
theorem echo_matches_buffer_typed :
    ∃ s, Reaches (echoStep Image.small (Image.WellFormed.pointers Image.small) 0) editsOnly
    ⟨firstShell.interrupted (Entry.below eightMb 64), 0⟩ s ∧ (s.kernel.keyboard 0).contents = [0x61, 0x20, 0x20, 0x20] ∧
    ∃ n, LineShown ((firstShell.interrupted (Entry.below eightMb 64)).shown 0) (s.kernel.shown 0)
      (s.kernel.keyboard 0) s.reach n := by
  let codes : List (Entry × ℕ) := [0x1E, 0x0F, 0x0E].map fun code => (Entry.below eightMb 64, code)
  have hobs : (runEvents
    (guarded (echoStep Image.small (Image.WellFormed.pointers Image.small) 0) fun s code => editsOnly s code)
      ⟨firstShell.interrupted (Entry.below eightMb 64), 0⟩ codes).map (fun s => (s.kernel.keyboard 0).contents) =
        some [0x61, 0x20, 0x20, 0x20] := by decide +kernel
  obtain ⟨s, hs, hline⟩ := Option.map_eq_some_iff.mp hobs
  have hok : ∀ (s : Typing) (code : Entry × ℕ), decide (editsOnly s code) = true → editsOnly s code :=
    fun _ _ htest => of_decide_eq_true htest
  have hrun := reaches_of_guarded hok (reaches_of_runEvents hs)
  have hstart : (firstShell.interrupted (Entry.below eightMb 64)).terminalNow.isOnscreen = 1 ∧
      ((firstShell.interrupted (Entry.below eightMb 64)).shown 0).screenX < numCols ∧
      ((firstShell.interrupted (Entry.below eightMb 64)).shown 0).screenY < numRows := by decide +kernel
  refine ⟨s, hrun, hline, echo_matches_buffer _ _ _ 0 rfl (fun hx => ?_) rfl ⟨hstart.2.1, hstart.2.2⟩ s hrun⟩
  rw [hstart.1] at hx
  cases hx
end Kernel391
