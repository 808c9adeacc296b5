import Kernel391.Process.Arguments

/-! What `parse_arguments` reads and writes. Its three loops share one index; the third one
tests for a newline and the bound, not for the terminator, so it runs past the end of a
command that has no newline, into whatever lies behind it. -/
namespace Kernel391
open Kernel391.Foundations
set_option autoImplicit false

/-- The indices a loop reads that goes on while the character passes the test. -/
def readsWhile (c : ℕ → UInt8) (test : UInt8 → Bool) : ℕ → ℕ → List ℕ
  | 0, _ => []
  | n + 1, t => t :: if test (c t) then readsWhile c test n (t + 1) else []

/-- The indices of `command` that `parse_arguments` reads, loop by loop. -/
def parseReads (length : ℕ) (command executableBuf : ℕ → UInt8) : List ℕ :=
  let traverse := (parseExecutable command 32 0 executableBuf).1
  let start := skipSpaces command (length + 1) traverse
  readsWhile command (fun b => b ≠ 0 ∧ b ≠ 0x20 ∧ b ≠ 0x0A) 32 0 ++
    readsWhile command (fun b => b = 0x20) (length + 1) traverse ++
    readsWhile command (fun b => b ≠ 0x0A) (128 - start) start

/-- The command is split at its first word, inside the string. `c` is the memory it stands in. -/
structure ParsesInside (text : List UInt8) (c executableBuf argumentBuf : ℕ → UInt8) : Prop where
  reads : ∀ j ∈ parseReads text.length c executableBuf, j ≤ text.length
  spaces : c (skipSpaces c (text.length + 1) (parseExecutable c 32 0 executableBuf).1) ≠ 0x20
  executable : ∀ j > 32, (parseArguments text.length c executableBuf argumentBuf).executableBuf j = executableBuf j
  arguments : ∀ j ≥ 128, (parseArguments text.length c executableBuf argumentBuf).argumentBuf j = argumentBuf j
  word : (firstWord text).length ≤ 32 →
    window (parseArguments text.length c executableBuf argumentBuf).executableBuf 33 0 = firstWord text
  cut : 32 < (firstWord text).length →
    ¬ (window (parseArguments text.length c executableBuf argumentBuf).executableBuf 33 0 = (firstWord text).take 32 ∧
      ((firstWord text).drop 32).take 96 <+: window (parseArguments text.length c executableBuf argumentBuf).argumentBuf
        (parseArguments text.length c executableBuf argumentBuf).argCount 0)

/-- No word is cut, and the third loop meets a newline before the terminator or the bound right behind it. -/
def StopsInside (text : List UInt8) : Prop := (firstWord text).length ≤ 32 ∧ (0x0A ∈ text ∨ 127 ≤ text.length)

instance (text : List UInt8) : Decidable (StopsInside text) := inferInstanceAs (Decidable (_ ∧ _))

section Parse
variable {c buf exe arg : ℕ → UInt8} {test : UInt8 → Bool} {text : List UInt8} {n t j : ℕ}

theorem mem_readsWhile : j ∈ readsWhile c test n t ↔ t ≤ j ∧ j < t + n ∧ ∀ i, t ≤ i → i < j → test (c i) = true := by
  induction n generalizing t with
  | zero =>
    refine iff_of_false List.not_mem_nil ?_
    rintro ⟨h₁, h₂, -⟩
    omega
  | succ n ih =>
    rw [readsWhile, List.mem_cons]
    constructor
    · rintro (rfl | h)
      · exact ⟨Nat.le_refl _, by omega, fun i h₁ h₂ => by omega⟩
      · split at h
        · next ht =>
          obtain ⟨h₁, h₂, hall⟩ := ih.mp h
          refine ⟨by omega, by omega, fun i hi hij => ?_⟩
          rcases Nat.eq_or_lt_of_le hi with rfl | hlt
          · exact ht
          · exact hall i hlt hij
        · cases h
    · rintro ⟨h₁, h₂, hall⟩
      rcases Nat.eq_or_lt_of_le h₁ with rfl | hlt
      · exact Or.inl rfl
      · right
        rw [if_pos (hall t (Nat.le_refl t) hlt)]
        exact ih.mpr ⟨hlt, by omega, fun i hi hij => hall i (by omega) hij⟩

theorem readsWhile_inside (h : Holds c 0 text) (hnul : test 0 = false) (ht : t ≤ text.length) :
    ∀ j ∈ readsWhile c test n t, j ≤ text.length := by
  intro j hj
  by_contra hlt
  obtain ⟨-, -, hall⟩ := mem_readsWhile.mp hj
  have hend := hall text.length ht (by omega)
  have h0 := h.nul
  rw [Nat.zero_add] at h0
  rw [h0, hnul] at hend
  cases hend

theorem skipSpaces_ends (h : Holds c t text) (hn : text.length < n) : c (skipSpaces c n t) ≠ 0x20 := by
  induction n generalizing t text with
  | zero => exact absurd hn (Nat.not_lt_zero _)
  | succ n ih =>
    unfold skipSpaces
    split
    · next hspace =>
      cases text with
      | nil =>
        have hnul : c t = 0 := h.nul
        rw [hnul] at hspace
        cases hspace
      | cons b text =>
        rw [List.length_cons] at hn
        exact ih h.tail.2 (by omega)
    · next hspace => exact hspace

theorem parseRest_outside {a : ℕ} (hj : a + n ≤ j) : (parseRest c n t a buf).2 j = buf j := by
  induction n generalizing t a buf with
  | zero => rfl
  | succ n ih =>
    unfold parseRest
    split
    · rw [ih (by omega), Function.update_of_ne (by omega)]
    · rfl

theorem parseExecutable_buf : (parseExecutable c n t buf).1 ≤ t + n ∧ t ≤ (parseExecutable c n t buf).1 ∧
    ∀ j, (parseExecutable c n t buf).2 j = if t ≤ j ∧ j < (parseExecutable c n t buf).1 then c j else buf j := by
  induction n generalizing t buf with
  | zero =>
    refine ⟨Nat.le_refl t, Nat.le_refl t, fun j => ?_⟩
    rw [if_neg fun hx => Nat.not_lt.mpr hx.1 hx.2]
    rfl
  | succ n ih =>
    unfold parseExecutable
    split
    · obtain ⟨h₁, h₂, hbuf⟩ := @ih (Function.update buf t (c t)) (t + 1)
      refine ⟨by omega, by omega, fun j => ?_⟩
      rw [hbuf]
      by_cases hj : t + 1 ≤ j ∧ j < (parseExecutable c n (t + 1) (Function.update buf t (c t))).1
      · rw [if_pos hj, if_pos ⟨by omega, hj.2⟩]
      · rw [if_neg hj]
        by_cases hjt : j = t
        · rw [hjt, Function.update_self, if_pos ⟨Nat.le_refl t, by omega⟩]
        · rw [Function.update_of_ne hjt, if_neg fun hx => hj ⟨by omega, hx.2⟩]
    · refine ⟨by omega, Nat.le_refl t, fun j => ?_⟩
      rw [if_neg fun hx => Nat.not_lt.mpr hx.1 hx.2]

end Parse

section Split
variable {c exe arg : ℕ → UInt8} {text : List UInt8} (hold : Holds c 0 text) (h0 : 0 ∉ text)

theorem mem_firstWord {b : UInt8} (h : b ∈ firstWord text) : b ≠ 0x20 ∧ b ≠ 0x0A := by
  have hb := List.mem_takeWhile_imp h
  exact of_decide_eq_true hb

theorem newline_behind_start : 0x0A ∈ text → 0x0A ∈ text.drop (argumentStart text) := by
  intro h
  have hword : (0x0A : UInt8) ∉ firstWord text := fun hx => (mem_firstWord hx).2 rfl
  have hsplit : firstWord text ++ text.drop (firstWord text).length = text :=
    List.prefix_iff_eq_append.mp (List.takeWhile_prefix _)
  unfold argumentStart
  split
  · rw [← hsplit, List.mem_append] at h
    have hrest := h.resolve_left hword
    rw [← List.takeWhile_append_dropWhile (p := fun b : UInt8 => decide (b = 0x20))
      (l := text.drop (firstWord text).length),
      List.mem_append] at hrest
    have hspaces := hrest.resolve_left fun hx => by
      have hspace := List.mem_takeWhile_imp hx
      simp at hspace
    rwa [dropWhile_eq_drop, List.drop_drop] at hspaces
  · next hcut =>
    rw [← List.take_append_drop 32 text, List.mem_append] at h
    refine h.resolve_left fun hx => hword ?_
    have hpre : text.take 32 <+: firstWord text := by
      refine List.prefix_of_prefix_length_le (List.take_prefix _ _) (List.takeWhile_prefix _) ?_
      rw [List.length_take]
      exact Nat.le_trans (Nat.min_le_left _ _) (Nat.le_of_lt (Nat.lt_of_not_le hcut))
    exact hpre.subset hx

include hold h0

theorem words_inside : ∀ j ∈ readsWhile c (fun b => b ≠ 0 ∧ b ≠ 0x20 ∧ b ≠ 0x0A) 32 0 ++
    readsWhile c (fun b => b = 0x20) (text.length + 1) (parseExecutable c 32 0 exe).1, j ≤ text.length := by
  intro j hj
  rcases List.mem_append.mp hj with hj | hj
  · exact readsWhile_inside hold (by decide) (Nat.zero_le _) j hj
  · refine readsWhile_inside hold (by decide) ?_ j hj
    have hword := @firstWord_le text
    rw [parseExecutable_traverse hold h0]
    omega

omit h0 in
theorem rest_inside :
    (∀ j ∈ readsWhile c (fun b => b ≠ 0x0A) (128 - argumentStart text) (argumentStart text), j ≤ text.length) ↔
      0x0A ∈ text ∨ 127 ≤ text.length := by
  have hle := @argumentStart_le text
  constructor
  · intro h
    by_contra hnot
    rw [not_or] at hnot
    have hread := h (text.length + 1) (mem_readsWhile.mpr ⟨by omega, by omega, fun i _ hi => decide_eq_true ?_⟩)
    · omega
    · intro hnl
      rcases Nat.lt_or_ge i text.length with hlt | hge
      · refine hnot.1 ?_
        rw [← hnl, ← Nat.zero_add i, hold.chars i hlt]
        exact List.getElem_mem hlt
      · have hend := hold.nul
        rw [Nat.zero_add, show text.length = i by omega, hnl] at hend
        cases hend
  · rintro (hnl | hlong) j hj
    · obtain ⟨h₁, -, hall⟩ := mem_readsWhile.mp hj
      obtain ⟨i, hi, hget⟩ := List.getElem_of_mem (newline_behind_start hnl)
      rw [List.length_drop] at hi
      rw [List.getElem_drop] at hget
      by_contra hlt
      have hpass := of_decide_eq_true (hall (argumentStart text + i) (by omega) (by omega))
      rw [← Nat.zero_add (argumentStart text + i), hold.chars _ (by omega)] at hpass
      exact hpass hget
    · obtain ⟨h₁, h₂, -⟩ := mem_readsWhile.mp hj
      omega

theorem parsed_executable :
    window (parseArguments text.length c exe arg).executableBuf 33 0 = (firstWord text).take 32 := by
  obtain ⟨h₁, -, hbuf⟩ := @parseExecutable_buf c exe 32 0
  have htraverse := @parseExecutable_traverse _ exe _ 32 _ hold h0
  have hword := @firstWord_le text
  rw [Nat.zero_add] at htraverse
  have hno : 0 ∉ (firstWord text).take 32 := fun hx =>
    h0 ((List.takeWhile_prefix _).subset ((List.take_subset 32 _) hx))
  have hheld : Holds (parseArguments text.length c exe arg).executableBuf 0 ((firstWord text).take 32) := by
    refine ⟨fun j hj => ?_, ?_⟩
    · rw [List.length_take] at hj
      show Function.update (parseExecutable c 32 0 exe).2 (parseExecutable c 32 0 exe).1 0 (0 + j) = _
      rw [Nat.zero_add, Function.update_of_ne (by omega), hbuf, if_pos ⟨Nat.zero_le j, by omega⟩, List.getElem_take]
      have hj' : j < (firstWord text).length := by omega
      have hget : (firstWord text)[j] = text[j] := (List.takeWhile_prefix _).getElem hj'
      rw [hget, ← hold.chars j (by omega), Nat.zero_add]
    · show Function.update (parseExecutable c 32 0 exe).2 (parseExecutable c 32 0 exe).1 0 _ = 0
      rw [Nat.zero_add, List.length_take, htraverse, Function.update_self]
  rw [hheld.window hno, List.take_of_length_le (by rw [List.length_take]; omega)]

theorem parsed_rest (hcut : 32 < (firstWord text).length) :
    ((firstWord text).drop 32).take 96 <+: window (parseArguments text.length c exe arg).argumentBuf
      (parseArguments text.length c exe arg).argCount 0 := by
  have hstart : argumentStart text = 32 := if_neg (Nat.not_le.mpr hcut)
  have hpast : skipSpaces c (text.length + 1) (parseExecutable c 32 0 exe).1 = 32 := (parse_start h0 hold).trans hstart
  have hdrop : 0 ∉ text.drop 32 := fun hx => h0 (List.mem_of_mem_drop hx)
  have hrest := hold.drop (i := 32) (by have := @firstWord_le text; omega)
  rw [Nat.zero_add] at hrest
  have hparsed : (parseArguments text.length c exe arg).argCount = (parseRest c 96 32 0 arg).1 ∧
      (parseArguments text.length c exe arg).argumentBuf = (parseRest c 96 32 0 arg).2 := by
    unfold parseArguments
    simp only [hpast, Nat.reduceSub, and_self]
  rw [hparsed.1, hparsed.2, (parseRest_window hrest hdrop).1]
  have hword : (firstWord text).drop 32 ++ (text.drop (firstWord text).length) = text.drop 32 := by
    have hsplit : firstWord text ++ text.drop (firstWord text).length = text :=
      List.prefix_iff_eq_append.mp (List.takeWhile_prefix _)
    conv_rhs => rw [← hsplit, List.drop_append_of_le_length hcut.le]
  rw [← hword, List.take_append, List.takeWhile_append_of_pos]
  · exact List.prefix_append _ _
  · intro b hb
    have hmem := List.mem_of_mem_drop (List.mem_of_mem_take hb)
    exact decide_eq_true (mem_firstWord hmem).2

/-- **Command parsing** stays inside the string and splits it at the first word exactly when no word is
cut and something stops the third loop. -/
theorem command_parsing : ParsesInside text c exe arg ↔ StopsInside text := by
  have hstart : skipSpaces c (text.length + 1) (parseExecutable c 32 0 exe).1 = argumentStart text :=
    parse_start h0 hold
  have hreads : (∀ j ∈ parseReads text.length c exe, j ≤ text.length) ↔ 0x0A ∈ text ∨ 127 ≤ text.length := by
    unfold parseReads
    rw [← rest_inside hold]
    simp only [hstart, List.mem_append, or_imp, forall_and]
    have hwords := @words_inside _ exe _ hold h0
    simp only [List.mem_append, or_imp, forall_and] at hwords
    exact ⟨fun h => h.2, fun h => ⟨hwords, h⟩⟩
  constructor
  · intro h
    refine ⟨?_, hreads.mp h.reads⟩
    by_contra hcut
    exact h.cut (Nat.lt_of_not_le hcut) ⟨parsed_executable hold h0, parsed_rest hold h0 (Nat.lt_of_not_le hcut)⟩
  · rintro ⟨hword, hstop⟩
    refine ⟨hreads.mpr hstop, ?_, fun j hj => ?_, fun j hj => ?_, fun _ => ?_, fun hcut =>
      absurd hword (Nat.not_le.mpr hcut)⟩
    · rw [parseExecutable_traverse hold h0, Nat.zero_add]
      have hrest := hold.drop (i := min 32 (firstWord text).length) (by have := @firstWord_le text; omega)
      rw [Nat.zero_add] at hrest
      exact skipSpaces_ends hrest (by rw [List.length_drop]; omega)
    · obtain ⟨h₁, -, hbuf⟩ := @parseExecutable_buf c exe 32 0
      show Function.update (parseExecutable c 32 0 exe).2 (parseExecutable c 32 0 exe).1 0 j = exe j
      rw [Function.update_of_ne (by omega), hbuf, if_neg (by omega)]
    · exact parseRest_outside (by omega)
    · rw [parsed_executable hold h0, List.take_of_length_le hword]

omit hold h0 in
theorem command_parsing_newline : Holds (copyCmd [0x6C, 0x73, 0x0A] fun _ => 0) 0 [0x6C, 0x73, 0x0A] ∧
    (ParsesInside [0x6C, 0x73, 0x0A] (copyCmd [0x6C, 0x73, 0x0A] fun _ => 0) (fun _ => 0) (fun _ => 0) ↔
      StopsInside [0x6C, 0x73, 0x0A]) ∧ StopsInside [0x6C, 0x73, 0x0A] :=
  ⟨copyCmd_holds (by decide) _, command_parsing (copyCmd_holds (by decide) _) (by decide), by decide⟩

omit hold h0 in
/-- Without it the third loop reads behind the terminator. -/
theorem command_overread :
    Holds (copyCmd [0x6C, 0x73] fun _ => 0) 0 [0x6C, 0x73] ∧
      3 ∈ parseReads 2 (copyCmd [0x6C, 0x73] fun _ => 0) (fun _ => 0) ∧
      ¬ ParsesInside [0x6C, 0x73] (copyCmd [0x6C, 0x73] fun _ => 0) (fun _ => 0) (fun _ => 0) := by
  have hread : 3 ∈ parseReads 2 (copyCmd [0x6C, 0x73] fun _ => 0) (fun _ => 0) := by decide +kernel
  refine ⟨copyCmd_holds (by decide) _, hread, fun h => ?_⟩
  have hinside := h.reads 3 hread
  exact absurd hinside (by decide)

end Split
end Kernel391
