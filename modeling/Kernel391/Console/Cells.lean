import Kernel391.Console.TextRows

/-! The screen as one stretch of cells, row after row: where the cursor goes and what
`putc` and `delc` leave in the cells, across the ends of rows and the scroll. -/
namespace Kernel391
open Kernel391.Foundations
set_option autoImplicit false

def numCells : ℕ := numRows * numCols

namespace Console
variable (s : Console)

def cell (q : ℕ) : UInt8 := s.videoMem (2 * q)

def pos : ℕ := numCols * s.screenY + s.screenX

structure InRange : Prop where
  screenX_lt : s.screenX < numCols
  screenY_lt : s.screenY < numRows

/-- The same characters and the same cursor. -/
structure SameText (s' : Console) : Prop where
  cells : ∀ q < numCells, s'.cell q = s.cell q
  screenX : s'.screenX = s.screenX
  screenY : s'.screenY = s.screenY

section Cells
variable {s} {s' : Console} {c : UInt8} {q n : ℕ}

theorem InRange.pos_lt (h : s.InRange) : s.pos < numCells := by
  have hx := h.screenX_lt
  have hy := h.screenY_lt
  unfold pos numCells
  simp only [numCols, numRows] at *
  omega

theorem SameText.refl (s : Console) : s.SameText s := ⟨fun _ _ => rfl, rfl, rfl⟩

theorem SameText.pos (h : s.SameText s') : s'.pos = s.pos := by
  unfold Console.pos
  rw [h.screenX, h.screenY]

theorem SameText.inRange (h : s.SameText s') (hr : s.InRange) : s'.InRange :=
  ⟨h.screenX ▸ hr.screenX_lt, h.screenY ▸ hr.screenY_lt⟩

theorem moved_cell (t : Console) (a b : ℕ) : ({ t with screenX := a, screenY := b } : Console).cell q = t.cell q := rfl

theorem cell_eq_char (q : ℕ) : s.cell q = s.char (q / numCols) (q % numCols) := by
  unfold cell char
  rw [Nat.div_add_mod]

theorem cell_setCell : (s.setCell n c).cell q = if q = n then c else s.cell q := by
  unfold cell setCell
  simp only
  rw [Function.update_of_ne (by omega)]
  by_cases h : q = n
  · rw [if_pos h, h, Function.update_self]
  · rw [if_neg h, Function.update_of_ne (by omega)]

theorem cell_vidScrollUp (hq : q < numCells) :
    s.vidScrollUp.cell q = if q + numCols < numCells then s.cell (q + numCols) else 0x20 := by
  have hy : q / numCols < numRows := Nat.div_lt_of_lt_mul (by rw [Nat.mul_comm]; exact hq)
  have hx : q % numCols < numCols := Nat.mod_lt _ (by decide)
  rw [cell_eq_char, vidScrollUp_char hy hx]
  by_cases hlast : q / numCols = numRows - 1
  · rw [if_pos hlast, if_neg]
    simp only [numCells, numCols, numRows] at *
    omega
  · rw [if_neg hlast, if_pos]
    · rw [cell_eq_char, Nat.add_div_right _ (by decide), Nat.add_mod_right]
    · simp only [numCells, numCols, numRows] at *
      omega

theorem lineFeed_cells (h : s.InRange) : s.lineFeed.InRange ∧
    (s.screenY + 1 < numRows → s.lineFeed.pos = numCols * (s.screenY + 1) ∧ ∀ q, s.lineFeed.cell q = s.cell q) ∧
    (s.screenY + 1 = numRows → s.lineFeed.pos + numCols = numCells ∧
      ∀ q < numCells, s.lineFeed.cell q = if q + numCols < numCells then s.cell (q + numCols) else 0x20) := by
  have hy := h.screenY_lt
  unfold lineFeed
  by_cases hfull : s.screenY + 1 = numRows
  · simp only [if_pos hfull]
    refine ⟨⟨?_, ?_⟩, fun hx => by omega, fun _ => ⟨?_, fun q hq => ?_⟩⟩
    · show 0 < numCols
      decide
    · show numRows - 1 < numRows
      decide
    · show numCols * (numRows - 1) + 0 + numCols = numCells
      simp only [numCells, numCols, numRows]
    · rw [moved_cell, cell_vidScrollUp hq, moved_cell]
  · simp only [if_neg hfull]
    refine ⟨⟨?_, ?_⟩, fun _ => ⟨rfl, fun _ => rfl⟩, fun hx => absurd hx hfull⟩
    · show 0 < numCols
      decide
    · show s.screenY + 1 < numRows
      omega

theorem sameText_updateCursorOnscreen (s : Console) : s.SameText s.updateCursorOnscreen := by
  obtain ⟨hm, hx, hy⟩ := updateCursorOnscreen_cells s
  refine ⟨fun q _ => ?_, hx, hy⟩
  unfold cell
  rw [hm]

/-- A character is put into the cell at the cursor; after the last cell the screen scrolls. -/
structure PutAt (s s' : Console) (c : UInt8) : Prop where
  inRange : s'.InRange
  here : s.pos + 1 < numCells → s'.pos = s.pos + 1 ∧ ∀ q < numCells, s'.cell q = if q = s.pos then c else s.cell q
  scrolled : s.pos + 1 = numCells → s'.pos + numCols = s.pos + 1 ∧
    ∀ q < numCells, s'.cell q =
      if q + numCols < numCells then if q + numCols = s.pos then c else s.cell (q + numCols) else 0x20

theorem PutAt.congr {t : Console} (h : PutAt s t c) (hs : t.SameText s') : PutAt s s' c where
  inRange := hs.inRange h.inRange
  here hlt := ⟨hs.pos.trans (h.here hlt).1, fun q hq => (hs.cells q hq).trans ((h.here hlt).2 q hq)⟩
  scrolled hlast := by
    rw [hs.pos]
    exact ⟨(h.scrolled hlast).1, fun q hq => (hs.cells q hq).trans ((h.scrolled hlast).2 q hq)⟩

/-- **`putc`** of a character that is no line break. -/
theorem putc_putAt (h : s.InRange) (hc : ¬ (c = 0x0A ∨ c = 0x0D)) : PutAt s (s.putc c) c := by
  have hx := h.screenX_lt
  have hy := h.screenY_lt
  rw [putc_eq hx hy, if_neg hc]
  refine PutAt.congr ?_ (sameText_updateCursorOnscreen _)
  have hset : (s.setCell (numCols * s.screenY + s.screenX) c).InRange := ⟨hx, hy⟩
  by_cases hwrap : s.screenX + 1 = numCols
  · rw [if_pos hwrap]
    obtain ⟨hin, hnext, hscroll⟩ := lineFeed_cells hset
    have hpos : s.pos + 1 = numCols * (s.screenY + 1) := by
      unfold pos
      rw [Nat.mul_succ, ← hwrap]
      omega
    refine ⟨hin, fun hlt => ?_, fun hlast => ?_⟩
    · have hroom : s.screenY + 1 < numRows := by
        simp only [numCells, numCols, numRows] at *
        omega
      obtain ⟨hp, hcells⟩ := hnext hroom
      refine ⟨by rw [hpos]; exact hp, fun q _ => ?_⟩
      rw [hcells, cell_setCell]
      rfl
    · have hfull : s.screenY + 1 = numRows := by
        simp only [numCells, numCols, numRows] at *
        omega
      obtain ⟨hp, hcells⟩ := hscroll hfull
      refine ⟨by rw [hlast]; exact hp, fun q hq => ?_⟩
      rw [hcells q hq, cell_setCell]
      rfl
  · rw [if_neg hwrap]
    refine ⟨⟨?_, hy⟩, fun _ => ⟨rfl, fun q _ => cell_setCell⟩, fun hlast => ?_⟩
    · show s.screenX + 1 < numCols
      omega
    · unfold pos at hlast
      simp only [numCells, numCols, numRows] at *
      omega

/-- The cell before the cursor is blanked and the cursor goes there. -/
structure DeletedAt (s s' : Console) : Prop where
  inRange : s'.InRange
  pos : s'.pos + 1 = s.pos
  cells : ∀ q < numCells, s'.cell q = if q + 1 = s.pos then 0x20 else s.cell q

theorem blank_before (h : s.InRange) (hr : s'.InRange) (hpos : s'.pos + 1 = s.pos) (hcell : ∀ q, s'.cell q = s.cell q) :
    (s'.putc 0x20).InRange ∧ (s'.putc 0x20).pos = s.pos ∧
      ∀ q < numCells, (s'.putc 0x20).cell q = if q + 1 = s.pos then 0x20 else s.cell q := by
  have hlt := h.pos_lt
  have hput := putc_putAt hr (show ¬ ((0x20 : UInt8) = 0x0A ∨ (0x20 : UInt8) = 0x0D) by decide)
  obtain ⟨hp, hcells⟩ := hput.here (by omega)
  refine ⟨hput.inRange, hp.trans hpos, fun q hq => ?_⟩
  rw [hcells q hq, hcell]
  by_cases hq' : q + 1 = s.pos
  · rw [if_pos hq', if_pos (by omega)]
  · rw [if_neg hq', if_neg (by omega)]

/-- **`delc`** behind at least one cell. -/
theorem delc_deletedAt (h : s.InRange) (hpos : 0 < s.pos) : DeletedAt s s.delc := by
  have hx := h.screenX_lt
  have hy := h.screenY_lt
  have hcongr : ∀ t : Console, DeletedAt s t → DeletedAt s t.updateCursorOnscreen := fun t ht => by
    have hs := sameText_updateCursorOnscreen t
    exact ⟨hs.inRange ht.inRange, by rw [hs.pos]; exact ht.pos, fun q hq => (hs.cells q hq).trans (ht.cells q hq)⟩
  unfold delc
  refine hcongr _ ?_
  by_cases hx0 : s.screenX > 0
  · rw [if_pos hx0]
    generalize hs' : ({ s with screenX := s.screenX - 1 } : Console) = s'
    have hr : s'.InRange := by
      rw [← hs']
      exact ⟨Nat.lt_of_le_of_lt (Nat.sub_le _ _) hx, hy⟩
    have hbefore : s'.pos + 1 = s.pos := by
      rw [← hs']
      show numCols * s.screenY + (s.screenX - 1) + 1 = numCols * s.screenY + s.screenX
      omega
    obtain ⟨hin, hback, hcells⟩ := blank_before h hr hbefore fun q => by rw [← hs']; rfl
    have hrow := hin.screenY_lt
    have hcol := hin.screenX_lt
    refine ⟨⟨Nat.lt_of_le_of_lt (Nat.sub_le _ _) hcol, hrow⟩, ?_, hcells⟩
    unfold pos at hback ⊢
    simp only [numCols] at *
    omega
  · rw [if_neg hx0]
    have hy0 : s.screenY > 0 := by
      unfold pos at hpos
      simp only [numCols] at *
      omega
    rw [if_pos hy0]
    generalize hs' : ({ s with screenX := numCols - 1, screenY := s.screenY - 1 } : Console) = s'
    have hr : s'.InRange := by
      rw [← hs']
      exact ⟨by show numCols - 1 < numCols; decide, Nat.lt_of_le_of_lt (Nat.sub_le _ _) hy⟩
    have hbefore : s'.pos + 1 = s.pos := by
      rw [← hs']
      show numCols * (s.screenY - 1) + (numCols - 1) + 1 = numCols * s.screenY + s.screenX
      simp only [numCols]
      omega
    obtain ⟨hin, hback, hcells⟩ := blank_before h hr hbefore fun q => by rw [← hs']; rfl
    have hrow := hin.screenY_lt
    have hcol := hin.screenX_lt
    refine ⟨⟨by show numCols - 1 < numCols; decide, Nat.lt_of_le_of_lt (Nat.sub_le _ _) hrow⟩, ?_, hcells⟩
    unfold pos at hback ⊢
    simp only [numCols] at *
    omega

end Cells
end Console
end Kernel391
