import Kernel391.User.ProgramRuns
import Mathlib.Data.List.Infix

/-! `ece391grep.c`, one buffer at a time. The lines of the buffer are searched where they stand;
what follows the last newline is moved to its front for the next read. -/
namespace Kernel391
open Kernel391.Foundations
set_option autoImplicit false

namespace Grep

def noArgument : List UInt8 := ascii "could not read argument\n".toList
def directoryFailed : List UInt8 := ascii "directory open failed\n".toList
def entryFailed : List UInt8 := ascii "directory entry read failed\n".toList
def openFailed : List UInt8 := ascii "file open failed\n".toList
def readFailed : List UInt8 := ascii "file read failed\n".toList
def closeFailed : List UInt8 := ascii "file close failed\n".toList
def colon : List UInt8 := ascii ":".toList
def newline : List UInt8 := ascii "\n".toList

def texts : List (List UInt8) :=
  [dotName, noArgument, directoryFailed, entryFailed, openFailed, readFailed, closeFailed, colon, newline]

section File
variable (h : Host) (lit : List UInt8 → ℕ) (data fuel : ℕ)

/-- The loop that looks for the end of a line. -/
def lineEnd (last lineStart : ℕ) : User ℕ :=
  loop .unfinished (fun e =>
    if e < last then do
      let c ← loadByte (data + e)
      if c ≠ 0x0A then pure (.inl (e + 1)) else pure (.inr e)
    else pure (.inr e)) fuel lineStart

/-- The loop over `check`. `s[0]` is a `char` and `data[check]` a byte. The first match prints the line and leaves
it. -/
def searchLine (s sLen fname lineStart lineEnd : ℕ) : User Unit :=
  loop .unfinished (fun check =>
    if check < lineEnd then do
      let c ← loadByte s
      let d ← loadByte (data + check)
      if c.toInt8.toInt = d.toNat then do
        let r ← ece391Strncmp fuel (data + check) s sLen
        if r = 0 then do
          ece391Fdputs h fuel 1 fname
          ece391Fdputs h fuel 1 (lit colon)
          ece391Fdputs h fuel 1 (data + lineStart)
          ece391Fdputs h fuel 1 (lit newline)
          pure (.inr ())
        else pure (.inl (check + 1))
      else pure (.inl (check + 1))
    else pure (.inr ())) fuel lineStart

/-- The loop over the lines of the buffer, with the new value of `last`. -/
def searchBuffer (s sLen fname : ℕ) (cnt : ℤ) (last : ℕ) : User ℕ :=
  loop .unfinished (fun lineStart => do
    let e ← lineEnd data fuel last lineStart
    let c ← loadByte (data + e)
    if c ≠ 0x0A ∧ cnt ≠ 0 ∧ lineStart ≠ 0 then do
      storeByte (data + e) 0
      ece391Strcpy fuel data (data + lineStart)
      pure (.inr (last - lineStart))
    else do
      storeByte (data + e) 0
      searchLine h lit data fuel s sLen fname lineStart e
      if e + 1 ≥ last then pure (.inr 0) else pure (.inl (e + 1))) fuel 0

/-- `do_one_file`. The inner loops leave it with a result, or go on to the `close`. -/
def doOneFile (s fname : ℕ) : User ℤ := do
  localArray h data 1025
  let sLen ← ece391Strlen fuel s
  let fd ← ece391Open h fname
  if fd = -1 then do
    ece391Fdputs h fuel 1 (lit openFailed)
    pure (-1)
  else do
    let failed ← loop .unfinished (fun last => do
      let cnt ← ece391Read h (uint32 fd) (data + last) (1024 - last)
      if cnt = -1 then do
        ece391Fdputs h fuel 1 (lit readFailed)
        pure (.inr true)
      else do
        let last ← searchBuffer h lit data fuel s sLen fname cnt (last + uint32 cnt)
        if cnt = 0 then pure (.inr false) else pure (.inl last)) fuel 0
    if failed then pure (-1)
    else do
      let r ← ece391Close h (uint32 fd)
      if r = -1 then do
        ece391Fdputs h fuel 1 (lit closeFailed)
        pure (-1)
      else pure 0

variable (buf search : ℕ)

/-- One round of the loop of `main`. An entry whose name begins with a dot is passed over. -/
def round (fd : ℤ) (_ : Unit) : User (Unit ⊕ ℤ) := do
  let cnt ← ece391Read h (uint32 fd) buf 32
  if cnt = 0 then pure (.inr 0)
  else if cnt = -1 then do
    ece391Fdputs h fuel 1 (lit entryFailed)
    pure (.inr 3)
  else do
    let c ← loadByte buf
    if c = 0x2E then pure (.inl ())
    else do
      storeByte (buf + uint32 cnt) 0
      let r ← doOneFile h lit data fuel search buf
      if r ≠ 0 then pure (.inr 3) else pure (.inl ())

def main : User ℤ := do
  let r ← ece391Getargs h search 1024
  if r ≠ 0 then do
    ece391Fdputs h fuel 1 (lit noArgument)
    pure 3
  else do
    let fd ← ece391Open h (lit dotName)
    if fd = -1 then do
      ece391Fdputs h fuel 1 (lit directoryFailed)
      pure 2
    else loop .unfinished (round h lit data fuel buf search fd) fuel ()

end File

/-! ## What it prints -/

/-- A first character that equals a byte. One from 128 on is negative as a `char` and equals none. -/
def Matchable (pat : List UInt8) : Prop := ∀ c ∈ pat.head?, c < 0x80

instance (pat : List UInt8) : Decidable (Matchable pat) := inferInstanceAs (Decidable (∀ _ ∈ _, _))

/-- The output for one line: it is printed up to a NUL, if it has one. -/
def matchLine (pat fname line : List UInt8) : List UInt8 :=
  if Matchable pat ∧ pat <:+: line then fname ++ colon ++ line.takeWhile (· ≠ 0) ++ newline else []

/-- The output for a text: its lines that contain the pattern. -/
def matchLines (pat fname text : List UInt8) : List UInt8 := (text.splitOn 0x0A).flatMap (matchLine pat fname)

section Lines
variable {pat fname line text : List UInt8}

theorem matchLines_cons (h : 0x0A ∉ line) : matchLines pat fname (line ++ 0x0A :: text) =
    matchLine pat fname line ++ matchLines pat fname text := by
  unfold matchLines
  rw [List.splitOn_append_cons_self_of_not_mem h, List.flatMap_cons]

theorem matchLines_single (h : 0x0A ∉ line) : matchLines pat fname line = matchLine pat fname line := by
  unfold matchLines
  rw [List.splitOn_eq_singleton h, List.flatMap_singleton]

theorem matchLine_nil (h : pat ≠ []) : matchLine pat fname [] = [] := by
  unfold matchLine
  rw [if_neg fun hx => h (List.infix_nil.mp hx.2)]

theorem toInt8_eq_iff {c d : UInt8} : c.toInt8.toInt = d.toNat ↔ c < 0x80 ∧ c = d := by
  have hc : c.toInt8.toInt = if 2 * c.toNat < 256 then (c.toNat : ℤ) else c.toNat - 256 := BitVec.toInt_eq_toNat_cond _
  have hlt := d.toNat_lt
  have hlt' := c.toNat_lt
  rw [hc, UInt8.lt_iff_toNat_lt, ← UInt8.toNat_inj]
  show _ ↔ c.toNat < 128 ∧ _
  split
  · omega
  · omega

theorem infix_iff_drop (h : pat ≠ []) : pat <:+: line ↔ ∃ i < line.length, pat <+: line.drop i := by
  rw [List.infix_iff_prefix_suffix]
  constructor
  · rintro ⟨t, hpat, hsuf⟩
    refine ⟨line.length - t.length, ?_, ?_⟩
    · have hne : t ≠ [] := by
        rintro rfl
        exact h (List.prefix_nil.mp hpat)
      have hpos := List.length_pos_iff.mpr hne
      have hle := hsuf.length_le
      omega
    · rw [← List.suffix_iff_eq_drop.mp hsuf]
      exact hpat
  · rintro ⟨i, -, hi⟩
    exact ⟨line.drop i, hi, List.drop_suffix i line⟩

end Lines

/-! ## One line -/

section Line
variable {h : Host} {p : ℕ} {lit : List UInt8 → ℕ} {data fuel last lineStart e sA fA : ℕ} {t : UserState}
  {pat fname : List UInt8}

theorem chunk_add (m : ℕ → UInt8) (a n k : ℕ) : chunk m a (n + k) = chunk m a n ++ chunk m (a + n) k := by
  unfold chunk
  rw [List.range_add, List.map_append, List.map_map]
  congr 2
  funext j
  rw [Function.comp_apply, Nat.add_assoc]

theorem chunk_length (m : ℕ → UInt8) (a n : ℕ) : (chunk m a n).length = n := by
  unfold chunk
  rw [List.length_map, List.length_range]

theorem mem_chunk {m : ℕ → UInt8} {a n : ℕ} {c : UInt8} : c ∈ chunk m a n ↔ ∃ j < n, m (a + j) = c := by
  unfold chunk
  simp

theorem stringIn_window {m : ℕ → UInt8} {a n : ℕ} (hnul : m (a + n) = 0) (hin : ∀ i ≤ n, InPage (a + i)) :
    StringIn m a (window m n a) where
  holds := by
    refine ⟨fun j hj => (window_getElem hj).symm, ?_⟩
    clear hin
    induction n generalizing a with
    | zero => exact hnul
    | succ n ih =>
      rw [window_succ]
      by_cases hzero : m a = 0
      · rw [if_pos hzero]
        exact hzero
      · rw [if_neg hzero, List.length_cons, Nat.add_comm _ 1, ← Nat.add_assoc]
        exact ih (by rwa [Nat.add_assoc, Nat.add_comm 1 n])
  noNul := window_noNul
  inside i hi := hin i (hi.trans window_length_le)

theorem begins_takeWhile {l : List UInt8} (hpat : 0 ∉ pat) : pat <+: l.takeWhile (· ≠ 0) ↔ pat <+: l := by
  constructor
  · exact fun hx => hx.trans (List.takeWhile_prefix _)
  · rintro ⟨r, rfl⟩
    have hall : ∀ c ∈ pat, decide (c ≠ 0) = true := fun c hc => decide_eq_true fun hx => hpat (hx ▸ hc)
    rw [List.takeWhile_append_of_pos hall]
    exact List.prefix_append _ _

/-- **The end of a line** is its newline, or the end of what was read. -/
theorem ends_lineEnd (hin : ∀ i ≤ 1024, InPage (data + i)) (hlast : last ≤ 1024) (hle : lineStart ≤ last)
    (hfuel : 1024 < fuel) :
    Ends (lineEnd data fuel last lineStart) t fun e t' => t' = t ∧ lineStart ≤ e ∧ e ≤ last ∧
      0x0A ∉ chunk t.memory (data + lineStart) (e - lineStart) ∧ (e < last → t.memory (data + e) = 0x0A) := by
  refine ends_loop (I := fun n e t' => t' = t ∧ lineStart ≤ e ∧ e ≤ last ∧
    0x0A ∉ chunk t.memory (data + lineStart) (e - lineStart) ∧ n = last - e) ?_
    ⟨rfl, Nat.le_refl _, hle, by simp [chunk], rfl⟩ (show last - lineStart < fuel by omega)
  rintro n e t' ⟨rfl, hlo, hhi, hnone, rfl⟩
  by_cases hlt : e < last
  · rw [if_pos hlt, ends_bind, ends_loadByte (hin e (by omega))]
    by_cases hc : t'.memory (data + e) ≠ 0x0A
    · rw [if_pos hc, ends_pure]
      refine ⟨last - (e + 1), by omega, rfl, by omega, hlt, ?_, rfl⟩
      rw [show e + 1 - lineStart = e - lineStart + 1 by omega, chunk_add, List.mem_append]
      rintro (hx | hx)
      · exact hnone hx
      · obtain ⟨j, hj, hx⟩ := mem_chunk.mp hx
        refine hc ?_
        rwa [show data + lineStart + (e - lineStart) + j = data + e by omega] at hx
    · rw [if_neg hc, ends_pure]
      exact ⟨rfl, hlo, hhi, hnone, fun _ => not_not.mp hc⟩
  · rw [if_neg hlt, ends_pure]
    exact ⟨rfl, hlo, hhi, hnone, fun hx => absurd hx hlt⟩

structure Search (lit : List UInt8 → ℕ) (sA fA fuel : ℕ) (pat fname : List UInt8) (m : ℕ → UInt8) : Prop where
  patAt : StringIn m sA pat
  fnameAt : StringIn m fA fname
  colonAt : StringIn m (lit colon) colon
  newlineAt : StringIn m (lit newline) newline
  nonempty : pat ≠ []
  patRounds : pat.length < fuel
  fnameRounds : fname.length < fuel
  rounds : 1024 < fuel

/-- **A line is printed** behind the name of its file when a pattern that can be matched occurs in it. -/
theorem ends_searchLine (hs : t.Running p) (hsp : h.Spares p) (hstr : Search lit sA fA fuel pat fname t.memory)
    (hin : ∀ i ≤ 1024, InPage (data + i)) (hle : lineStart ≤ e) (he : e ≤ 1024) (hnul : t.memory (data + e) = 0) :
    Ends (searchLine h lit data fuel sA pat.length fA lineStart e) t fun _ t' =>
      Prints p t t' (matchLine pat fname (chunk t.memory (data + lineStart) (e - lineStart))) := by
  have hfuel := hstr.rounds
  have hpos := List.length_pos_iff.mpr hstr.nonempty
  generalize hline : chunk t.memory (data + lineStart) (e - lineStart) = line
  have hlen : line.length = e - lineStart := by rw [← hline, chunk_length]
  have hdrop : ∀ i, line.drop i = chunk t.memory (data + (lineStart + i)) (e - (lineStart + i)) := by
    intro i
    by_cases hi : lineStart + i ≤ e
    · rw [← hline, show e - lineStart = i + (e - (lineStart + i)) by omega, chunk_add,
        List.drop_left' (chunk_length _ _ _), Nat.add_assoc]
    · rw [List.drop_eq_nil_of_le (by omega), show e - (lineStart + i) = 0 by omega]
      rfl
  -- no rest of the line up to here begins with the pattern
  refine ends_loop (I := fun n check t' => t' = t ∧ ∃ i, check = lineStart + i ∧ i ≤ line.length ∧ n = line.length - i ∧
    ∀ j < i, ¬ (Matchable pat ∧ pat <+: line.drop j)) ?_ ⟨rfl, 0, rfl, Nat.zero_le _, rfl, by omega⟩
      (show line.length - 0 < fuel by omega)
  rintro n _ t' ⟨rfl, i, rfl, hi, rfl, hnone⟩
  by_cases hend : i = line.length
  · rw [if_neg (by omega), ends_pure]
    have hno : matchLine pat fname line = [] := by
      refine if_neg fun hx => ?_
      obtain ⟨j, hj, hjp⟩ := (infix_iff_drop hstr.nonempty).mp hx.2
      exact hnone j (by omega) ⟨hx.1, hjp⟩
    show Prints p t' t' _
    rw [hno]
    exact ⟨hs, rfl, (List.append_nil _).symm, rfl⟩
  have hilt : i < line.length := by omega
  rw [if_pos (by omega), ends_bind, ends_loadByte hstr.patAt.inPage, ends_bind, ends_loadByte (hin _ (by omega))]
  have hnext : ¬ (Matchable pat ∧ pat <+: line.drop i) →
    Round (fun n check t'' => t'' = t' ∧ ∃ i, check = lineStart + i ∧ i ≤ line.length ∧
      n = line.length - i ∧ ∀ j < i, ¬ (Matchable pat ∧ pat <+: line.drop j))
        (fun (_ : Unit) t'' => Prints p t' t'' (matchLine pat fname line))
      (line.length - i) (.inl (lineStart + i + 1)) t' := by
    intro hno
    refine ⟨line.length - (i + 1), by omega, rfl, i + 1, rfl, hilt, rfl, fun j hj => ?_⟩
    rcases Nat.lt_succ_iff_lt_or_eq.mp hj with hlt | rfl
    · exact hnone j hlt
    · exact hno
  have hpatChar := hstr.patAt.holds.chars 0 hpos
  rw [Nat.add_zero] at hpatChar
  have hplain : Matchable pat ↔ t'.memory sA < 0x80 := by
    unfold Matchable
    rw [hpatChar, List.head?_eq_getElem?, List.getElem?_eq_getElem hpos]
    simp
  have hfirst : pat <+: line.drop i → t'.memory sA = t'.memory (data + (lineStart + i)) := by
    rintro ⟨r, hr⟩
    have hget := congrArg (fun l : List UInt8 => l[0]?) hr
    simp only [List.getElem?_append_left hpos, List.getElem?_eq_getElem hpos, hdrop] at hget
    unfold chunk at hget
    rw [List.getElem?_map, List.getElem?_range (by omega), Option.map_some, Option.some.injEq] at hget
    rw [Nat.add_zero] at hget
    rw [hpatChar, hget]
  by_cases hc : (t'.memory sA).toInt8.toInt = (t'.memory (data + (lineStart + i))).toNat
  · rw [if_pos hc]
    have hmatchable := hplain.mpr (toInt8_eq_iff.mp hc).1
    have hrest :
      StringIn t'.memory (data + (lineStart + i)) (window t'.memory (e - (lineStart + i)) (data + (lineStart + i))) :=
      stringIn_window (by rw [show data + (lineStart + i) + (e - (lineStart + i)) = data + e by omega]; exact hnul)
        fun j hj => by
          rw [Nat.add_assoc]
          exact hin _ (by omega)
    refine (ends_strncmp hrest hstr.patAt hpos hstr.patRounds).bind ?_
    rintro r t'' ⟨hr, rfl⟩
    have hmatch : r = 0 ↔ pat <+: line.drop i := by
      rw [hr, List.take_length, hdrop i, ← begins_takeWhile hstr.patAt.noNul, List.prefix_iff_eq_take]
      exact eq_comm
    by_cases hzero : r = 0
    · rw [if_pos hzero]
      have hline' : StringIn t''.memory (data + lineStart) (line.takeWhile (· ≠ 0)) := by
        rw [← hline]
        refine stringIn_window
          (by rw [show data + lineStart + (e - lineStart) = data + e by omega]; exact hnul) fun j hj => ?_
        rw [Nat.add_assoc]
        exact hin _ (by omega)
      have hshort : (line.takeWhile (· ≠ 0)).length < fuel := by
        have := (List.takeWhile_prefix (· ≠ (0 : UInt8)) (l := line)).length_le
        omega
      refine (ends_fdputs hs hsp hstr.fnameAt hstr.fnameRounds).bind ?_
      rintro _ t₁ h₁
      refine (ends_fdputs h₁.running hsp (h₁.memory ▸ hstr.colonAt) (lt_trans (by decide) hfuel)).bind ?_
      rintro _ t₂ h₂
      refine (ends_fdputs h₂.running hsp (h₂.memory ▸ h₁.memory ▸ hline') hshort).bind ?_
      rintro _ t₃ h₃
      refine (ends_fdputs h₃.running hsp (h₃.memory ▸ h₂.memory ▸ h₁.memory ▸ hstr.newlineAt)
        (lt_trans (by decide) hfuel)).bind ?_
      rintro _ t₄ h₄
      rw [ends_pure]
      have hyes : matchLine pat fname line = fname ++ colon ++ line.takeWhile (· ≠ 0) ++ newline :=
        if_pos ⟨hmatchable, (infix_iff_drop hstr.nonempty).mpr ⟨i, hilt, hmatch.mp hzero⟩⟩
      show Prints p t'' t₄ _
      rw [hyes]
      exact ((h₁.trans h₂).trans h₃).trans h₄
    · rw [if_neg hzero, ends_pure]
      exact hnext fun hx => hzero (hmatch.mpr hx.2)
  · rw [if_neg hc, ends_pure]
    exact hnext fun hx => hc (toInt8_eq_iff.mpr ⟨hplain.mp hx.1, hfirst hx.2⟩)

end Line

end Grep

end Kernel391
