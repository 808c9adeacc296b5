import Kernel391.Console.CursorPath

/-! What the console functions write to the cursor registers: the positions the cursor
passes through where `update_cursor` is called, the last one first. -/
namespace Kernel391
open Kernel391.Foundations
set_option autoImplicit false

namespace CursorPos
variable (p : CursorPos)

/-- The four port writes that set the registers to this position, the last one first. -/
def writes : List (ℕ × ℕ) :=
  let pos := (p.screenY * numCols + p.screenX) % 2 ^ 16
  [(0x3D5, pos / 256 % 256), (0x3D4, 0x0E), (0x3D5, pos % 256), (0x3D4, 0x0F)]

/-- Where `putc` leaves the cursor before it scrolls. -/
def advanced (c : UInt8) : CursorPos :=
  if c = 0x0A ∨ c = 0x0D then ⟨0, p.screenY + 1⟩
  else ⟨(p.screenX + 1) % numCols, p.screenY + (p.screenX + 1) / numCols⟩

/-- `vid_scroll_up` updates the cursor, and so does `putc` at its end. -/
def putcStops (c : UInt8) : List CursorPos :=
  let q := p.advanced c
  if q.screenY = numRows then [q.scrolled, q] else [q.scrolled]

def putsStops : CursorPos → List UInt8 → List CursorPos
  | _, [] => []
  | p, c :: cs => putsStops (p.putc c) cs ++ p.putcStops c

def delcStops : List CursorPos :=
  if p.screenX > 0 then p.delc :: putcStops ⟨p.screenX - 1, p.screenY⟩ 0x20
  else if p.screenY > 0 then p.delc :: putcStops ⟨numCols - 1, p.screenY - 1⟩ 0x20
  else [p.delc]

end CursorPos

namespace Console
variable (s : Console)

/-- What `is_onscreen` lets through to the registers. -/
def stops (l : List CursorPos) : List CursorPos := if s.isOnscreen then l else []

/-- The registers have gone through the positions `l`. -/
structure Wrote (l : List CursorPos) (s' : Console) : Prop where
  isOnscreen : s'.isOnscreen = s.isOnscreen
  ports : s'.ports = (s.stops l).flatMap CursorPos.writes ++ s.ports

variable {s} {s' t : Console} {l l' : List CursorPos} {c : UInt8}

theorem Wrote.trans (h : s.Wrote l t) (h' : t.Wrote l' s') : s.Wrote (l' ++ l) s' := by
  refine ⟨h'.isOnscreen.trans h.isOnscreen, ?_⟩
  have hports := h.ports
  have hports' := h'.ports
  unfold stops at hports hports' ⊢
  rw [h.isOnscreen] at hports'
  rw [hports', hports]
  split
  · rw [List.flatMap_append, List.append_assoc]
  · rfl

theorem Wrote.of_eq (hon : s'.isOnscreen = s.isOnscreen) (hports : s'.ports = s.ports) : s.Wrote [] s' := by
  refine ⟨hon, ?_⟩
  unfold stops
  rw [hports, ite_self]
  rfl

theorem Wrote.moved (h : s.Wrote l t) (hon : s'.isOnscreen = t.isOnscreen)
    (hports : s'.ports = t.ports) : s.Wrote l s' :=
  h.trans (.of_eq hon hports)

theorem wrote_updateCursorOnscreen (s : Console) : s.Wrote [s.cursorPos] s.updateCursorOnscreen := by
  unfold updateCursorOnscreen
  by_cases h : s.isOnscreen = true
  · rw [if_pos h]
    refine ⟨rfl, ?_⟩
    unfold stops
    rw [if_pos h]
    rfl
  · rw [if_neg h]
    refine ⟨rfl, ?_⟩
    unfold stops
    rw [if_neg h]
    rfl

theorem wrote_vidScrollUp (s : Console) : s.Wrote [s.cursorPos] s.vidScrollUp := by
  have hrows : ∀ (f : ℕ → Console → Console),
      (∀ i t, (f i t).cursorPos = t.cursorPos ∧ (f i t).isOnscreen = t.isOnscreen ∧ (f i t).ports = t.ports) → ∀ n t,
      (forLoop f n t).cursorPos = t.cursorPos ∧ (forLoop f n t).isOnscreen = t.isOnscreen ∧
        (forLoop f n t).ports = t.ports := by
    intro f hf n t
    refine forLoop_invariant (P := fun u : Console => u.cursorPos = t.cursorPos ∧ u.isOnscreen = t.isOnscreen ∧
      u.ports = t.ports)
      ⟨rfl, rfl, rfl⟩ fun i _ u hu => ?_
    obtain ⟨hpos, hon, hports⟩ := hf i u
    exact ⟨hpos.trans hu.1, hon.trans hu.2.1, hports.trans hu.2.2⟩
  unfold vidScrollUp
  simp only
  generalize numCols = cols, numRows - 1 = rows
  have hcols :=
    hrows (fun i s => forLoop (fun j s => s.setCell (cols * j + i) (s.videoMem (2 * (cols * (j + 1) + i)))) rows s)
    (fun i t => hrows (fun j s => s.setCell (cols * j + i) (s.videoMem (2 * (cols * (j + 1) + i))))
      (fun _ _ => ⟨rfl, rfl, rfl⟩) rows t)
    cols s
  generalize forLoop (fun i s =>
    forLoop (fun j s => s.setCell (cols * j + i) (s.videoMem (2 * (cols * (j + 1) + i)))) rows s) cols s = s₁
    at hcols
  obtain ⟨hpos, hon, hports⟩ := hrows (fun i s => s.setCell (cols * rows + i) 0x20) (fun _ _ => ⟨rfl, rfl, rfl⟩) cols s₁
  generalize forLoop (fun i s => s.setCell (cols * rows + i) 0x20) cols s₁ = s₂ at hpos hon hports
  have hwrote := wrote_updateCursorOnscreen s₂
  rw [hpos, hcols.1] at hwrote
  exact (Wrote.of_eq (hon.trans hcols.2.1) (hports.trans hcols.2.2)).trans hwrote

theorem wrote_putc (s : Console) (c : UInt8) : s.Wrote (s.cursorPos.putcStops c) (s.putc c) := by
  generalize hs₁ : (if c = 0x0A ∨ c = 0x0D then { s with screenY := s.screenY + 1, screenX := 0 }
    else
      let s := s.setCell (numCols * s.screenY + s.screenX) c
      { s with screenY := s.screenY + (s.screenX + 1) / numCols, screenX := (s.screenX + 1) % numCols }) = s₁
  have hbegin : s.Wrote [] s₁ := by
    rw [← hs₁]
    split
    · exact .of_eq rfl rfl
    · exact .of_eq rfl rfl
  have hpos : s₁.cursorPos = s.cursorPos.advanced c := by
    rw [← hs₁]
    unfold CursorPos.advanced
    split <;> rfl
  have hputc : s.putc c =
      (if s₁.screenY = numRows then { s₁.vidScrollUp with screenY := numRows - 1, screenX := 0 }
        else s₁).updateCursorOnscreen := by
    unfold putc
    rw [hs₁]
  rw [hputc]
  unfold CursorPos.putcStops
  rw [← hpos]
  show s.Wrote (if s₁.screenY = numRows then [s₁.cursorPos.scrolled, s₁.cursorPos] else [s₁.cursorPos.scrolled]) _
  have hscrolled : s₁.cursorPos.scrolled = if s₁.screenY = numRows then ⟨0, numRows - 1⟩ else s₁.cursorPos := rfl
  rw [hscrolled]
  split
  · have hscroll := wrote_vidScrollUp s₁
    generalize s₁.vidScrollUp = s₂ at hscroll
    have hmoved : s₂.Wrote [] { s₂ with screenY := numRows - 1, screenX := 0 } := .of_eq rfl rfl
    exact ((hbegin.trans hscroll).trans hmoved).trans (wrote_updateCursorOnscreen _)
  · exact hbegin.trans (wrote_updateCursorOnscreen s₁)

theorem wrote_puts (s : Console) (cs : List UInt8) : s.Wrote (s.cursorPos.putsStops cs) (s.puts cs) := by
  induction cs generalizing s with
  | nil => exact .of_eq rfl rfl
  | cons c cs ih =>
    have hrest := ih (s.putc c)
    rw [cursorPos_putc] at hrest
    exact (wrote_putc s c).trans hrest

theorem wrote_delc (s : Console) : s.Wrote s.cursorPos.delcStops s.delc := by
  have hend : ∀ {l} {t : Console}, s.delc = t.updateCursorOnscreen → s.Wrote l t →
    s.Wrote (s.cursorPos.delc :: l) s.delc := by
    intro l t hdelc ht
    have hpos := cursorPos_delc s
    rw [hdelc, cursorPos_updateCursorOnscreen] at hpos
    have hupdate := wrote_updateCursorOnscreen t
    rw [hpos] at hupdate
    rw [hdelc]
    exact ht.trans hupdate
  have hmove : ∀ a b,
    s.Wrote (CursorPos.putcStops ⟨a, b⟩ 0x20) (({ s with screenX := a, screenY := b } : Console).putc 0x20) := by
    intro a b
    have hfirst : s.Wrote [] { s with screenX := a, screenY := b } := .of_eq rfl rfl
    have hboth := hfirst.trans (wrote_putc { s with screenX := a, screenY := b } 0x20)
    rwa [List.append_nil] at hboth
  by_cases hx : s.screenX > 0
  · have hstops : s.cursorPos.delcStops = s.cursorPos.delc :: CursorPos.putcStops ⟨s.screenX - 1, s.screenY⟩ 0x20 :=
      if_pos hx
    have hput := hmove (s.screenX - 1) s.screenY
    have hdelc : s.delc = ({ ({ s with screenX := s.screenX - 1 } : Console).putc 0x20 with
        screenX := (({ s with screenX := s.screenX - 1 } : Console).putc 0x20).screenX - 1
          } : Console).updateCursorOnscreen := by
      unfold delc
      rw [if_pos hx]
    rw [hstops]
    exact hend hdelc (hput.moved rfl rfl)
  · by_cases hy : s.screenY > 0
    · have hstops : s.cursorPos.delcStops = s.cursorPos.delc :: CursorPos.putcStops ⟨numCols - 1, s.screenY - 1⟩ 0x20 :=
        (if_neg hx).trans (if_pos hy)
      have hput := hmove (numCols - 1) (s.screenY - 1)
      have hdelc : s.delc = ({ ({ s with screenX := numCols - 1, screenY := s.screenY - 1 } : Console).putc 0x20 with
          screenX := numCols - 1
          screenY := (({ s with screenX := numCols - 1, screenY := s.screenY - 1 } : Console).putc 0x20).screenY - 1 } :
            Console).updateCursorOnscreen := by
        unfold delc
        rw [if_neg hx, if_pos hy]
      rw [hstops]
      exact hend hdelc (hput.moved rfl rfl)
    · have hstops : s.cursorPos.delcStops = [s.cursorPos.delc] := (if_neg hx).trans (if_neg hy)
      rw [hstops]
      refine hend ?_ (.of_eq rfl rfl)
      unfold delc
      rw [if_neg hx, if_neg hy]

theorem ports_clearScreen (s : Console) :
    s.clearScreen.ports = CursorPos.writes ⟨0, 0⟩ ++ s.ports ∧ s.clearScreen.isOnscreen = s.isOnscreen := by
  have hclear : ∀ n (t : Console), (forLoop (fun i s => s.setCell i 0x20) n t).ports = t.ports ∧
      (forLoop (fun i s => s.setCell i 0x20) n t).isOnscreen = t.isOnscreen := fun n t =>
    forLoop_invariant (P := fun u : Console => u.ports = t.ports ∧ u.isOnscreen = t.isOnscreen)
      ⟨rfl, rfl⟩ fun _ _ _ hu => hu
  have hset : ∀ t : Console, t.screenSetXy 0 0 = { t with screenX := 0, screenY := 0 } := by
    intro t
    unfold screenSetXy
    rw [if_neg (by decide), if_neg (by decide)]
  obtain ⟨hports, hon⟩ := hclear (numRows * numCols) s
  have hcleared : s.clearScreen =
      ({ forLoop (fun i s => s.setCell i 0x20) (numRows * numCols) s with screenX := 0, screenY :=
        0 } : Console).cursorPorts
        ((0 * numCols + 0) % 2 ^ 16) := by
    unfold clearScreen updateCursorPos
    rw [if_neg (by decide), hset]
    rfl
  generalize forLoop (fun i s => s.setCell i 0x20) (numRows * numCols) s = t at hports hon hcleared
  rw [hcleared, ← hports, ← hon]
  exact ⟨rfl, rfl⟩

end Console
end Kernel391
