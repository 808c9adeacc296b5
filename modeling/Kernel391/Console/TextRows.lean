import Kernel391.Console.Console

/-! What the console shows: a reference that appends to an unbounded list of rows, of
which the screen is the last 25. The scroll is read column by column, as the two
nested loops write it. -/
namespace Kernel391
open Kernel391.Foundations
set_option autoImplicit false

/-- Rows of text, the top first, and the place of the next character. -/
structure TextRows where
  rows : List (ℕ → UInt8)
  row : ℕ
  col : ℕ

def blankRow : ℕ → UInt8 := fun _ => 0x20

namespace TextRows
variable (r : TextRows)

/-- To the start of the next row, which is new when there is none. -/
def newRow : TextRows where
  rows := if r.row + 1 < r.rows.length then r.rows else r.rows ++ [blankRow]
  row := r.row + 1
  col := 0

def place (c : UInt8) : TextRows := { r with rows := r.rows.modify r.row fun row => Function.update row r.col c }

/-- A newline or carriage return starts a row; any other character is written and wraps eagerly. -/
def append (c : UInt8) : TextRows :=
  if c = 0x0A ∨ c = 0x0D then r.newRow
  else if r.col + 1 = numCols then (r.place c).newRow
  else { r.place c with col := r.col + 1 }

def appendAll (cs : List UInt8) : TextRows := cs.foldl append r

/-- Row `y` of the last 25. -/
def shown (y : ℕ) : ℕ → UInt8 := (r.rows[r.rows.length - numRows + y]?).getD blankRow

end TextRows

namespace Console
variable (s : Console)

def char (y x : ℕ) : UInt8 := s.videoMem (2 * (numCols * y + x))

def textRows : TextRows := ⟨(List.range numRows).map s.char, s.screenY, s.screenX⟩

/-- The screen and the cursor are those of the last 25 rows. -/
structure Displays (r : TextRows) : Prop where
  length : numRows ≤ r.rows.length
  cells : ∀ y < numRows, ∀ x < numCols, s.char y x = r.shown y x
  row : r.row = r.rows.length - numRows + s.screenY
  col : r.col = s.screenX
  screenY_lt : s.screenY < numRows
  screenX_lt : s.screenX < numCols

/-! ## Cells -/

section Cells
variable {s} {y x y' x' i n : ℕ}

theorem char_setCell (hx : x < numCols) (hx' : x' < numCols) (c : UInt8) :
    (s.setCell (numCols * y' + x') c).char y x = if y = y' ∧ x = x' then c else s.char y x := by
  simp only [char, setCell]
  rw [Function.update_of_ne (by omega)]
  by_cases h : y = y' ∧ x = x'
  · rw [if_pos h, h.1, h.2, Function.update_self]
  · simp only [numCols] at hx hx' ⊢
    rw [if_neg h, Function.update_of_ne (by omega)]

theorem moved_char (t : Console) (a b : ℕ) :
    ({ t with screenX := a, screenY := b } : Console).char y x = t.char y x := rfl

theorem setCell_above {cell a : ℕ} (hc : cell < numRows * numCols) (ha : 2 * (numRows * numCols) ≤ a) (c : UInt8) :
    (s.setCell cell c).videoMem a = s.videoMem a := by
  simp only [setCell]
  rw [Function.update_of_ne (by omega), Function.update_of_ne (by omega)]

theorem column_char (hi : i < numCols) (hx : x < numCols) :
    (forLoop (fun j s => s.setCell (numCols * j + i) (s.videoMem (2 * (numCols * (j + 1) + i)))) n s).char y x =
      if x = i ∧ y < n then s.char (y + 1) x else s.char y x := by
  induction n generalizing y with
  | zero => rw [forLoop_zero, if_neg (by omega)]
  | succ n ih =>
    rw [forLoop_succ, char_setCell hx hi]
    by_cases h : y = n ∧ x = i
    · have hnext := @ih (n + 1)
      rw [if_neg (by omega)] at hnext
      rw [if_pos h, if_pos (by omega), h.1]
      rw [h.2] at hnext ⊢
      exact hnext
    · rw [if_neg h, ih]
      by_cases hyn : x = i ∧ y < n
      · rw [if_pos hyn, if_pos (by omega)]
      · rw [if_neg hyn, if_neg (by omega)]

theorem columns_char (hn : n ≤ numCols) (hx : x < numCols) :
    (forLoop (fun i s =>
        forLoop (fun j s => s.setCell (numCols * j + i) (s.videoMem (2 * (numCols * (j + 1) + i)))) (numRows - 1) s)
      n s).char y x = if x < n ∧ y < numRows - 1 then s.char (y + 1) x else s.char y x := by
  induction n generalizing y with
  | zero => rw [forLoop_zero, if_neg (by omega)]
  | succ n ih =>
    rw [forLoop_succ, column_char (by omega) hx]
    by_cases h : x = n ∧ y < numRows - 1
    · rw [if_pos h, ih (by omega), if_neg (by omega), if_pos (by omega)]
    · rw [if_neg h, ih (by omega)]
      by_cases hxn : x < n ∧ y < numRows - 1
      · rw [if_pos hxn, if_pos (by omega)]
      · rw [if_neg hxn, if_neg (by omega)]

theorem lastRow_char (hn : n ≤ numCols) (hx : x < numCols) :
    (forLoop (fun i s => s.setCell (numCols * (numRows - 1) + i) 0x20) n s).char y x =
      if y = numRows - 1 ∧ x < n then 0x20 else s.char y x := by
  induction n with
  | zero => rw [forLoop_zero, if_neg (by omega)]
  | succ n ih =>
    rw [forLoop_succ, char_setCell hx (by omega), ih (by omega)]
    by_cases h : y = numRows - 1 ∧ x = n
    · rw [if_pos h, if_pos (by omega)]
    · rw [if_neg h]
      by_cases hxn : y = numRows - 1 ∧ x < n
      · rw [if_pos hxn, if_pos (by omega)]
      · rw [if_neg hxn, if_neg (by omega)]

theorem updateCursorOnscreen_cells (s : Console) : s.updateCursorOnscreen.videoMem = s.videoMem ∧
    s.updateCursorOnscreen.screenX = s.screenX ∧ s.updateCursorOnscreen.screenY = s.screenY := by
  unfold updateCursorOnscreen
  split
  · exact ⟨rfl, rfl, rfl⟩
  · exact ⟨rfl, rfl, rfl⟩

/-- **The scroll** moves every row up by one and blanks the last. -/
theorem vidScrollUp_char (hy : y < numRows) (hx : x < numCols) :
    s.vidScrollUp.char y x = if y = numRows - 1 then 0x20 else s.char (y + 1) x := by
  unfold vidScrollUp
  simp only [char]
  rw [(updateCursorOnscreen_cells _).1]
  refine (lastRow_char (Nat.le_refl _) hx).trans ?_
  by_cases h : y = numRows - 1
  · rw [if_pos ⟨h, hx⟩, if_pos h]
  · rw [if_neg (fun hc => h hc.1), if_neg h]
    refine (columns_char (Nat.le_refl _) hx).trans (if_pos ⟨hx, ?_⟩)
    simp only [numRows] at hy h ⊢
    omega

theorem vidScrollUp_above {a : ℕ} (ha : 2 * (numRows * numCols) ≤ a) : s.vidScrollUp.videoMem a = s.videoMem a := by
  unfold vidScrollUp
  simp only
  rw [(updateCursorOnscreen_cells _).1]
  refine forLoop_invariant (P := fun t : Console => t.videoMem a = s.videoMem a) ?_ fun i hi t ht => ?_
  · refine forLoop_invariant (P := fun t : Console => t.videoMem a = s.videoMem a) rfl fun i hi t ht => ?_
    refine forLoop_invariant (P := fun t : Console => t.videoMem a = s.videoMem a) ht fun j hj t ht => ?_
    rw [setCell_above (by simp only [numRows, numCols] at hi hj ⊢; omega) ha]
    exact ht
  · rw [setCell_above (by simp only [numRows, numCols] at hi ⊢; omega) ha]
    exact ht

end Cells

/-! ## One character -/

section Character
variable {s} {r : TextRows}

theorem textRows_shown {y : ℕ} (hy : y < numRows) : s.textRows.shown y = s.char y := by
  unfold TextRows.shown textRows
  rw [List.length_map, List.length_range, Nat.sub_self, Nat.zero_add, List.getElem?_map,
    List.getElem?_range hy, Option.map_some, Option.getD_some]

theorem displays_start (hx : s.screenX < numCols) (hy : s.screenY < numRows) : s.Displays s.textRows := by
  have hlen : s.textRows.rows.length = numRows := by
    unfold textRows
    rw [List.length_map, List.length_range]
  refine ⟨hlen.ge, fun y hy x _ => ?_, ?_, rfl, hy, hx⟩
  · rw [textRows_shown hy]
  · rw [hlen, Nat.sub_self, Nat.zero_add]
    rfl

theorem Displays.congr {s' : Console} (h : s.Displays r) (hm : s'.videoMem = s.videoMem)
    (hx : s'.screenX = s.screenX) (hy : s'.screenY = s.screenY) : s'.Displays r := by
  refine ⟨h.length, fun y hy x hx => ?_, by rw [hy]; exact h.row, by rw [hx]; exact h.col,
    by rw [hy]; exact h.screenY_lt,
    by rw [hx]; exact h.screenX_lt⟩
  unfold char
  rw [hm]
  exact h.cells y hy x hx

theorem displays_place (h : s.Displays r) (c : UInt8) :
    (s.setCell (numCols * s.screenY + s.screenX) c).Displays (r.place c) := by
  have hlen : (r.place c).rows.length = r.rows.length := List.length_modify _ _ _
  have hfits := h.length
  have hrow := h.row
  have hscreen := h.screenY_lt
  refine ⟨by rw [hlen]; exact h.length, fun y hy x hx => ?_, by rw [hlen]; exact h.row, h.col,
    h.screenY_lt, h.screenX_lt⟩
  rw [char_setCell hx h.screenX_lt]
  unfold TextRows.shown
  rw [hlen]
  simp only [TextRows.place, List.getElem?_modify]
  by_cases hys : y = s.screenY
  · have hat : r.row = r.rows.length - numRows + y := by rw [hys]; exact h.row
    have hget : r.rows.length - numRows + y < r.rows.length := by omega
    have hold := h.cells y hy x hx
    unfold TextRows.shown at hold
    rw [List.getElem?_eq_getElem hget] at hold ⊢
    simp only [if_pos hat, Option.map_eq_map, Option.map_some, Option.getD_some] at hold ⊢
    by_cases hxs : x = s.screenX
    · rw [if_pos ⟨hys, hxs⟩, h.col, hxs, Function.update_self]
    · rw [if_neg (fun hc => hxs hc.2), h.col, Function.update_of_ne hxs]
      exact hold
  · have hoff : ¬ r.row = r.rows.length - numRows + y := by omega
    rw [if_neg (fun hc => hys hc.1)]
    simp only [if_neg hoff, Option.map_eq_map, Option.map_id']
    exact h.cells y hy x hx

/-- The start of the next row, with the scroll when the screen is full. -/
def lineFeed (s : Console) : Console :=
  let t : Console := { s with screenY := s.screenY + 1, screenX := 0 }
  if t.screenY = numRows then { t.vidScrollUp with screenY := numRows - 1, screenX := 0 } else t

theorem displays_lineFeed (h : s.Displays r) : s.lineFeed.Displays r.newRow := by
  have hfits := h.length
  have hrow := h.row
  have hscreen := h.screenY_lt
  unfold lineFeed
  by_cases hfull : s.screenY + 1 = numRows
  · have hlast : ¬ r.row + 1 < r.rows.length := by omega
    have hrows : r.newRow.rows = r.rows ++ [blankRow] := if_neg hlast
    have hlen : r.newRow.rows.length = r.rows.length + 1 := by rw [hrows, List.length_append, List.length_singleton]
    simp only [if_pos hfull]
    refine ⟨by omega, fun y hy x hx => ?_, ?_, rfl, ?_, ?_⟩
    · rw [moved_char, vidScrollUp_char hy hx, moved_char]
      unfold TextRows.shown
      rw [hlen, hrows]
      by_cases hy' : y = numRows - 1
      · rw [if_pos hy', List.getElem?_append_right (by omega),
          show r.rows.length + 1 - numRows + y - r.rows.length = 0 by simp only [numRows] at *; omega]
        rfl
      · rw [if_neg hy', List.getElem?_append_left (by simp only [numRows] at *; omega)]
        have hup := h.cells (y + 1) (by omega) x hx
        unfold TextRows.shown at hup
        rw [show r.rows.length + 1 - numRows + y = r.rows.length - numRows + (y + 1) by omega]
        exact hup
    · rw [hlen]
      have hnext : r.newRow.row = r.row + 1 := rfl
      rw [hnext]
      simp only [numRows] at *
      omega
    · show numRows - 1 < numRows
      decide
    · show 0 < numCols
      decide
  · have hlt : s.screenY + 1 < numRows := by omega
    have hroom : r.row + 1 < r.rows.length := by omega
    have hrows : r.newRow.rows = r.rows := if_pos hroom
    simp only [if_neg hfull]
    refine ⟨by rw [hrows]; exact h.length, fun y hy x hx => ?_, ?_, rfl, hlt, ?_⟩
    · unfold TextRows.shown
      rw [hrows]
      exact h.cells y hy x hx
    · have hnext : r.newRow.row = r.row + 1 := rfl
      rw [hrows, hnext, hrow, Nat.add_assoc]
    · show 0 < numCols
      decide

/-- A character other than a line break moves the cursor on, with a line feed after the last column. -/
theorem putc_eq (hx : s.screenX < numCols) (hy : s.screenY < numRows) (c : UInt8) :
    s.putc c = updateCursorOnscreen (if c = 0x0A ∨ c = 0x0D then s.lineFeed
      else if s.screenX + 1 = numCols then (s.setCell (numCols * s.screenY + s.screenX) c).lineFeed
      else { s.setCell (numCols * s.screenY + s.screenX) c with screenX := s.screenX + 1 }) := by
  unfold putc
  by_cases hc : c = 0x0A ∨ c = 0x0D
  · simp only [if_pos hc]
    rfl
  simp only [if_neg hc]
  by_cases hwrap : s.screenX + 1 = numCols
  · have hdiv : (s.screenX + 1) / numCols = 1 := by rw [hwrap]; decide
    have hmod : (s.screenX + 1) % numCols = 0 := by rw [hwrap]; decide
    simp only [if_pos hwrap, setCell, hdiv, hmod]
    rfl
  · have hdiv : (s.screenX + 1) / numCols = 0 := Nat.div_eq_of_lt (by omega)
    have hmod : (s.screenX + 1) % numCols = s.screenX + 1 := Nat.mod_eq_of_lt (by omega)
    have hroom : ¬ s.screenY = numRows := by omega
    simp only [if_neg hwrap, setCell, hdiv, hmod, Nat.add_zero, if_neg hroom]

theorem putc_displays (h : s.Displays r) (c : UInt8) : (s.putc c).Displays (r.append c) := by
  have hplace := displays_place h c
  have hlt := h.screenX_lt
  have hcol := h.col
  rw [putc_eq hlt h.screenY_lt]
  obtain ⟨hm, hx, hy⟩ := updateCursorOnscreen_cells (if c = 0x0A ∨ c = 0x0D then s.lineFeed
    else if s.screenX + 1 = numCols then (s.setCell (numCols * s.screenY + s.screenX) c).lineFeed
    else { s.setCell (numCols * s.screenY + s.screenX) c with screenX := s.screenX + 1 })
  refine Displays.congr ?_ hm hx hy
  unfold TextRows.append
  rw [hcol]
  by_cases hc : c = 0x0A ∨ c = 0x0D
  · rw [if_pos hc, if_pos hc]
    exact displays_lineFeed h
  rw [if_neg hc, if_neg hc]
  by_cases hwrap : s.screenX + 1 = numCols
  · rw [if_pos hwrap, if_pos hwrap]
    exact displays_lineFeed hplace
  · rw [if_neg hwrap, if_neg hwrap]
    have hroom : s.screenX + 1 < numCols := by omega
    exact ⟨hplace.length, hplace.cells, hplace.row, rfl, hplace.screenY_lt, hroom⟩

theorem putc_above (hx : s.screenX < numCols) (hy : s.screenY < numRows) (c : UInt8) {a : ℕ}
    (ha : 2 * (numRows * numCols) ≤ a) : (s.putc c).videoMem a = s.videoMem a := by
  have hcell : numCols * s.screenY + s.screenX < numRows * numCols := by
    simp only [numCols, numRows] at *
    omega
  unfold putc
  simp only
  rw [(updateCursorOnscreen_cells _).1]
  have hstep : ∀ t : Console, t.videoMem a = s.videoMem a →
      (if t.screenY = numRows then { t.vidScrollUp with screenY := numRows - 1, screenX := 0 }
        else t : Console).videoMem
        a = s.videoMem a := by
    intro t ht
    split
    · simp only
      rw [vidScrollUp_above ha]
      exact ht
    · exact ht
  apply hstep
  split
  · rfl
  · exact setCell_above hcell ha c

end Character
end Console

/-! ## A text -/

theorem filter_nonNul {cs : List UInt8} (h : 0 ∉ cs) : cs.filter (· ≠ 0) = cs := by
  rw [List.filter_eq_self]
  intro c hc
  have hne : c ≠ 0 := fun h0 => h (h0 ▸ hc)
  exact decide_eq_true hne

/-- **The console shows the last 25 rows of the wrapped text**, after every character of it, and writes
inside its page area only. -/
theorem console_shows_last_rows (s : Console) (hx : s.screenX < numCols) (hy : s.screenY < numRows) (cs : List UInt8)
    (h : 0 ∉ cs) : (s.puts cs).Displays (s.textRows.appendAll cs) ∧ s.terminalWrite cs = s.puts cs ∧
      ∀ a, 2 * (numRows * numCols) ≤ a → (s.puts cs).videoMem a = s.videoMem a := by
  refine ⟨?_, ?_, ?_⟩
  · have hstart := Console.displays_start hx hy
    generalize s.textRows = r at hstart
    clear hx hy h
    induction cs generalizing s r with
    | nil => exact hstart
    | cons c cs ih => exact ih _ _ (Console.putc_displays hstart c)
  · unfold Console.terminalWrite
    rw [filter_nonNul h]
  · have hstart := Console.displays_start hx hy
    generalize s.textRows = r at hstart
    clear hx hy h
    induction cs generalizing s r with
    | nil => exact fun _ _ => rfl
    | cons c cs ih =>
      intro a ha
      refine (ih _ _ (Console.putc_displays hstart c) a ha).trans ?_
      exact Console.putc_above hstart.screenX_lt hstart.screenY_lt c ha

/-- The last cell of a full screen: the wrap and the newline right after it scroll twice. -/
theorem console_shows_last_rows_corner :
    let s : Console := ⟨fun _ => 0x20, 79, 24, 0x07, true, []⟩
    let cs : List UInt8 := [0x61, 0x0A, 0x62]
    (s.puts cs).Displays (s.textRows.appendAll cs) ∧ s.terminalWrite cs = s.puts cs ∧
      ∀ a, 2 * (numRows * numCols) ≤ a → (s.puts cs).videoMem a = s.videoMem a :=
  console_shows_last_rows ⟨fun _ => 0x20, 79, 24, 0x07, true, []⟩ (by decide) (by decide) [0x61, 0x0A, 0x62] (by decide)

end Kernel391
