import Kernel391.Console.Cells
import Kernel391.Console.Screen

/-! Where the cursor goes. The console functions move it by the characters alone, whatever
is on the page; and pages that agree still agree after them. -/
namespace Kernel391
open Kernel391.Foundations
set_option autoImplicit false

namespace CursorPos
variable (p : CursorPos)

/-- `screen_y = NUM_ROWS-1; screen_x = 0;` after a scroll. -/
def scrolled : CursorPos := if p.screenY = numRows then ⟨0, numRows - 1⟩ else p

def putc (c : UInt8) : CursorPos :=
  if c = 0x0A ∨ c = 0x0D then scrolled ⟨0, p.screenY + 1⟩
  else scrolled ⟨(p.screenX + 1) % numCols, p.screenY + (p.screenX + 1) / numCols⟩

def puts (cs : List UInt8) : CursorPos := cs.foldl putc p

def delc : CursorPos :=
  if p.screenX > 0 then
    let p := putc ⟨p.screenX - 1, p.screenY⟩ 0x20
    ⟨p.screenX - 1, p.screenY⟩
  else if p.screenY > 0 then
    let p := putc ⟨numCols - 1, p.screenY - 1⟩ 0x20
    ⟨numCols - 1, p.screenY - 1⟩
  else p

end CursorPos

namespace Console
variable (s : Console)

def cursorPos : CursorPos := ⟨s.screenX, s.screenY⟩

theorem cursorPos_updateCursorOnscreen : s.updateCursorOnscreen.cursorPos = s.cursorPos := by
  unfold updateCursorOnscreen
  split <;> rfl

theorem cursorPos_putc (c : UInt8) : (s.putc c).cursorPos = s.cursorPos.putc c := by
  have hscroll : ∀ t : Console,
      (if t.screenY = numRows then { t.vidScrollUp with screenY := numRows - 1, screenX := 0 } else t).cursorPos =
        t.cursorPos.scrolled := by
    intro t
    unfold CursorPos.scrolled cursorPos
    split <;> rfl
  unfold putc CursorPos.putc
  rw [cursorPos_updateCursorOnscreen, hscroll]
  split <;> rfl

theorem cursorPos_puts (cs : List UInt8) : (s.puts cs).cursorPos = s.cursorPos.puts cs := by
  induction cs generalizing s with
  | nil => rfl
  | cons c cs ih => exact (ih (s.putc c)).trans (congrArg (fun p => CursorPos.puts p cs) (cursorPos_putc s c))

theorem cursorPos_delc : s.delc.cursorPos = s.cursorPos.delc := by
  have hx : ∀ (a b : ℕ), (({ s with screenX := a, screenY := b } : Console).putc 0x20).cursorPos =
    CursorPos.putc ⟨a, b⟩ 0x20 :=
    fun a b => cursorPos_putc _ _
  unfold delc CursorPos.delc
  rw [cursorPos_updateCursorOnscreen]
  show _ = if s.screenX > 0 then _ else if s.screenY > 0 then _ else _
  split
  · next h =>
    rw [← hx]
    rfl
  · split
    · rw [← hx]
      rfl
    · rfl

/-! ## Pages that agree -/

/-- The same page and cursor, written in the same colour. -/
structure SamePage (s' : Console) : Prop where
  bytes : ∀ o < fourKb, s'.videoMem o = s.videoMem o
  screenX : s'.screenX = s.screenX
  screenY : s'.screenY = s.screenY
  attrib : s'.attrib = s.attrib

/-- The same first `n` bytes of the page. -/
structure SameBytes (n : ℕ) (s' : Console) : Prop where
  bytes : ∀ o < n, s'.videoMem o = s.videoMem o
  screenX : s'.screenX = s.screenX
  screenY : s'.screenY = s.screenY
  attrib : s'.attrib = s.attrib

variable {s} {s' s'' : Console} {c : UInt8} {n : ℕ}

namespace SameBytes

theorem trans (h : s.SameBytes n s') (h' : s'.SameBytes n s'') : s.SameBytes n s'' :=
  ⟨fun o ho => (h'.bytes o ho).trans (h.bytes o ho), h'.screenX.trans h.screenX, h'.screenY.trans h.screenY,
    h'.attrib.trans h.attrib⟩

theorem setCell (h : s.SameBytes n s') (q : ℕ) (c : UInt8) : (s.setCell q c).SameBytes n (s'.setCell q c) where
  bytes o ho := by
    have hupdate : ∀ (f g : ℕ → UInt8) a v, f o = g o → Function.update f a v o = Function.update g a v o := by
      intro f g a v hfg
      simp only [Function.update_apply, hfg]
    unfold Console.setCell
    simp only [h.attrib]
    exact hupdate _ _ _ _ (hupdate _ _ _ _ (h.bytes o ho))
  screenX := h.screenX
  screenY := h.screenY
  attrib := h.attrib

theorem cursorPorts (h : s.SameBytes n s') (a b : ℕ) : (s.cursorPorts a).SameBytes n (s'.cursorPorts b) :=
  ⟨h.bytes, h.screenX, h.screenY, h.attrib⟩

theorem updateCursorOnscreen (h : s.SameBytes n s') : s.updateCursorOnscreen.SameBytes n s'.updateCursorOnscreen := by
  have hcursor : ∀ t : Console, t.SameBytes n t.updateCursorOnscreen ∧ t.updateCursorOnscreen.SameBytes n t := by
    intro t
    unfold Console.updateCursorOnscreen
    split
    · exact ⟨⟨fun _ _ => rfl, rfl, rfl, rfl⟩, ⟨fun _ _ => rfl, rfl, rfl, rfl⟩⟩
    · exact ⟨⟨fun _ _ => rfl, rfl, rfl, rfl⟩, ⟨fun _ _ => rfl, rfl, rfl, rfl⟩⟩
  exact ((hcursor s).2.trans h).trans (hcursor s').1

theorem move (h : s.SameBytes n s') (a b : ℕ) :
    ({ s with screenX := a, screenY := b } : Console).SameBytes n { s' with screenX := a, screenY := b } :=
  ⟨h.bytes, rfl, rfl, h.attrib⟩

theorem vidScrollUp (hn : 2 * numCells ≤ n) (h : s.SameBytes n s') : s.vidScrollUp.SameBytes n s'.vidScrollUp := by
  unfold Console.vidScrollUp
  apply SameBytes.updateCursorOnscreen
  apply forLoop_relation (R := fun u v : Console => u.SameBytes n v)
  · apply forLoop_relation (R := fun u v : Console => u.SameBytes n v) h
    intro i hi u v huv
    apply forLoop_relation (R := fun u v : Console => u.SameBytes n v) huv
    intro j hj u v huv
    rw [huv.bytes]
    · exact huv.setCell _ _
    · simp only [numCells, numCols, numRows] at *
      omega
  · intro i _ u v huv
    exact huv.setCell _ _

theorem putc (hn : 2 * numCells ≤ n) (h : s.SameBytes n s') (c : UInt8) : (s.putc c).SameBytes n (s'.putc c) := by
  have hscroll : ∀ t t' : Console, t.SameBytes n t' →
      (if t.screenY = numRows then { t.vidScrollUp with screenY := numRows - 1, screenX := 0 } else t).SameBytes n
        (if t'.screenY = numRows then { t'.vidScrollUp with screenY := numRows - 1, screenX := 0 } else t') := by
    intro t t' ht
    rw [ht.screenY]
    split
    · exact (ht.vidScrollUp hn).move _ _
    · exact ht
  unfold Console.putc
  apply SameBytes.updateCursorOnscreen
  apply hscroll
  split
  · rw [h.screenY]
    exact h.move _ _
  · have hcell := h.setCell (numCols * s.screenY + s.screenX) c
    simp only [h.screenX, h.screenY, hcell.screenX, hcell.screenY]
    exact hcell.move _ _

theorem puts (hn : 2 * numCells ≤ n) (h : s.SameBytes n s') (cs : List UInt8) :
    (s.puts cs).SameBytes n (s'.puts cs) := by
  induction cs generalizing s s' with
  | nil => exact h
  | cons c cs ih => exact ih (h.putc hn c)

theorem printf (hn : 2 * numCells ≤ n) (h : s.SameBytes n s') (cs : List UInt8) :
    (s.printf cs).SameBytes n (s'.printf cs) :=
  (h.puts hn cs).cursorPorts _ _

theorem delc (hn : 2 * numCells ≤ n) (h : s.SameBytes n s') : s.delc.SameBytes n s'.delc := by
  unfold Console.delc
  apply SameBytes.updateCursorOnscreen
  by_cases hx : s.screenX > 0
  · have hx' : s'.screenX > 0 := by
      rw [h.screenX]
      exact hx
    have hleft : ({ s with screenX := s.screenX - 1 } : Console).SameBytes n { s' with screenX := s'.screenX - 1 } :=
      ⟨h.bytes, congrArg (· - 1) h.screenX, h.screenY, h.attrib⟩
    have hput := hleft.putc hn 0x20
    rw [if_pos hx, if_pos hx']
    exact ⟨hput.bytes, congrArg (· - 1) hput.screenX, hput.screenY, hput.attrib⟩
  · have hx' : ¬ s'.screenX > 0 := by
      rw [h.screenX]
      exact hx
    rw [if_neg hx, if_neg hx']
    by_cases hy : s.screenY > 0
    · have hy' : s'.screenY > 0 := by
        rw [h.screenY]
        exact hy
      have hup : ({ s with screenX := numCols - 1, screenY := s.screenY - 1 } : Console).SameBytes n
          { s' with screenX := numCols - 1, screenY := s'.screenY - 1 } :=
            ⟨h.bytes, rfl, congrArg (· - 1) h.screenY, h.attrib⟩
      have hput := hup.putc hn 0x20
      rw [if_pos hy, if_pos hy']
      exact ⟨hput.bytes, rfl, congrArg (· - 1) hput.screenY, hput.attrib⟩
    · have hy' : ¬ s'.screenY > 0 := by
        rw [h.screenY]
        exact hy
      rw [if_neg hy, if_neg hy']
      exact h

theorem clearScreen (h : s.SameBytes n s') : s.clearScreen.SameBytes n s'.clearScreen := by
  have hclear : s.clear.SameBytes n s'.clear := by
    apply forLoop_relation (R := fun u v : Console => u.SameBytes n v) h
    intro i _ u v huv
    exact huv.setCell i 0x20
  exact (hclear.move 0 0).cursorPorts _ _

end SameBytes

theorem SamePage.putc (h : s.SamePage s') (c : UInt8) : (s.putc c).SamePage (s'.putc c) := by
  have hbytes : s.SameBytes fourKb s' := ⟨h.bytes, h.screenX, h.screenY, h.attrib⟩
  have hput := hbytes.putc (by decide) c
  exact ⟨hput.bytes, hput.screenX, hput.screenY, hput.attrib⟩

end Console
end Kernel391
