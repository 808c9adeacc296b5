import Kernel391.Process.Descriptors
import Kernel391.Process.Execute

/-! The arguments of a command: what `parse_arguments` cuts out of it, what `execute`
copies into the PCB, and what `getargs` hands to the program. The copy ends in a
terminator only when the terminator of the command was copied with it. -/
namespace Kernel391
open Kernel391.Foundations
set_option autoImplicit false

/-! ## `getargs` -/

/-- The bytes from `args` on: the array, then the words of `available`. -/
def Pcb.argsBytes (b : Pcb) : ℕ → UInt8 := fun j =>
  if j < 128 then b.args j else UInt8.ofNat (b.available ((j - 128) / 4) / 256 ^ ((j - 128) % 4))

/-- The string at `args`. It runs on into `available`, whose words are 0 or 1, and ends there at the latest. -/
def Pcb.arguments (b : Pcb) : List UInt8 := window b.argsBytes 160 0

/-- `getargs`. -/
def getargs {σ : Type} [ByteStore σ] (k : Kernel) (m : σ) (buf nbytes : ℕ) : Except σ (ℤ × σ) :=
  let arguments := k.getPcbNow.arguments
  if buf = 0 ∨ arguments.length = 0 ∨ nbytes < arguments.length + 1 then .ok (-1, m)
  else
    match strncpyTo m buf k.getPcbNow.argsBytes arguments.length with
    | .error m => .error m
    | .ok m =>
      match ByteStore.put m (buf + arguments.length) 0 with
      | .error m => .error m
      | .ok m => .ok (0, m)

/-! ## The text of a command -/

section Text
variable (command : List UInt8)

def firstWord : List UInt8 := command.takeWhile fun c => c ≠ 0x20 ∧ c ≠ 0x0A

/-- What follows it, up to the first newline, without the leading spaces. -/
def argumentText : List UInt8 :=
  ((command.drop (firstWord command).length).dropWhile (· = 0x20)).takeWhile (· ≠ 0x0A)

/-- Where the third loop of `parse_arguments` starts. A word of more than 32 characters is cut there. -/
def argumentStart : ℕ :=
  if (firstWord command).length ≤ 32 then
    (firstWord command).length + ((command.drop (firstWord command).length).takeWhile (· = 0x20)).length
  else 32

/-- The characters that loop copies, up to a newline, the terminator or index 128. -/
def copiedText : List UInt8 := ((command.take 128).drop (argumentStart command)).takeWhile (· ≠ 0x0A)

/-- The loop reaches the terminator and copies it too. -/
def Terminated : Prop := 0x0A ∉ command.drop (argumentStart command) ∧ command.length < 128

instance : Decidable (Terminated command) := inferInstanceAs (Decidable (_ ∧ _))

end Text

/-- `getargs` gives the program the text `text`, or -1 when it is empty or does not fit. -/
def GivesArguments (k : Kernel) (text : List UInt8) : Prop :=
  ∀ (m : ℕ → UInt8) (buf nbytes : ℕ), buf ≠ 0 → nbytes < 2 ^ 32 →
    getargs k m buf nbytes =
      .ok (if text ≠ [] ∧ text.length + 1 ≤ nbytes then (0, overlay m buf (text ++ [0])) else (-1, m))

/-! ## Windows -/

section Windows
variable {s s' dest : ℕ → UInt8} {l : List UInt8} {n i t : ℕ}

theorem strncpyPad_eq : strncpyPad dest n i = overlay dest i (List.replicate n 0) := by
  induction n generalizing dest i with
  | zero => exact (overlay_nil dest i).symm
  | succ n ih =>
    rw [List.replicate_succ, ← overlay_cons, ← ih]
    rfl

/-- **`strncpy`** lays down the window over its source, padded with zeros. -/
theorem strncpy_eq :
    strncpy dest s n i = overlay dest i (window s n i ++ List.replicate (n - (window s n i).length) 0) := by
  induction n generalizing dest i with
  | zero => exact (overlay_nil dest i).symm
  | succ n ih =>
    rw [window_succ]
    by_cases h : s i = 0
    · simp only [strncpy, h, ne_eq, not_true_eq_false, ↓reduceIte, List.nil_append, List.length_nil, Nat.sub_zero]
      exact strncpyPad_eq
    · simp only [strncpy, ne_eq, h, not_false_eq_true, ↓reduceIte]
      rw [ih, overlay_cons, List.cons_append, List.length_cons, Nat.add_sub_add_right]

theorem window_append (a b : ℕ) (h : (window s a i).length = a) :
    window s (a + b) i = window s a i ++ window s b (i + a) := by
  induction a generalizing i with
  | zero => rw [Nat.zero_add, Nat.add_zero, List.length_eq_zero_iff.mp h, List.nil_append]
  | succ a ih =>
    rw [window_succ] at h ⊢
    rw [Nat.succ_add, window_succ]
    by_cases h0 : s i = 0
    · rw [if_pos h0] at h
      cases h
    · rw [if_neg h0, List.length_cons, Nat.add_right_cancel_iff] at h
      rw [if_neg h0, if_neg h0, ih h, List.cons_append, Nat.add_assoc, Nat.add_comm 1 a]

theorem window_chars (hl : 0 ∉ l) (h : ∀ j (hj : j < l.length), s (t + j) = l[j]) : window s l.length t = l := by
  have hs : window s l.length t = window (cstr l) l.length 0 := by
    refine window_congr fun j hj => ?_
    rw [h j hj, Nat.zero_add, cstr_lt l hj]
  rw [hs, window_cstr hl, List.take_length]

theorem window_stop (h : s (i + n) = 0) (b : ℕ) : window s (n + b) i = window s n i := by
  induction n generalizing i with
  | zero =>
    cases b with
    | zero => rfl
    | succ b =>
      have hnul : s i = 0 := h
      rw [Nat.zero_add, window_succ, if_pos hnul]
      rfl
  | succ n ih =>
    rw [Nat.succ_add, window_succ, window_succ, ih (by rwa [Nat.add_assoc, Nat.add_comm 1 n])]

theorem window_getElem {j : ℕ} (h : j < (window s n i).length) : (window s n i)[j] = s (i + j) := by
  unfold window at h ⊢
  rw [(List.takeWhile_prefix _).getElem h, List.getElem_map, List.getElem_range]

theorem window_self : window s (window s n i).length i = window s n i :=
  window_chars window_noNul fun _ hj => (window_getElem hj).symm

theorem window_overlay (hl : 0 ∉ l) (h : l.length ≤ n) :
    window (overlay dest i l) n i = l ++ window dest (n - l.length) (i + l.length) := by
  have hchars : window (overlay dest i l) l.length i = l := window_chars hl fun j hj => overlay_at dest i j l hj
  have hsplit := @window_append (overlay dest i l) i l.length (n - l.length) (by rw [hchars])
  rw [Nat.add_sub_cancel' h, hchars] at hsplit
  rw [hsplit]
  congr 1
  exact window_congr fun j _ => overlay_of_ge dest l (by omega)

theorem window_overlay_nul (hl : 0 ∉ l) (h : l.length < n) (bs : List UInt8) :
    window (overlay dest i (l ++ 0 :: bs)) n i = l := by
  have hchars : window (overlay dest i (l ++ 0 :: bs)) l.length i = l := by
    refine window_chars hl fun j hj => ?_
    have hlen : j < (l ++ 0 :: bs).length := by
      rw [List.length_append]
      omega
    rw [overlay_at dest i j (l ++ 0 :: bs) hlen, List.getElem_append_left hj]
  have hnul : overlay dest i (l ++ 0 :: bs) (i + l.length) = 0 := by
    have hlen : l.length < (l ++ 0 :: bs).length := by
      rw [List.length_append, List.length_cons]
      omega
    rw [overlay_at dest i l.length (l ++ 0 :: bs) hlen, List.getElem_append_right (Nat.le_refl _)]
    simp only [Nat.sub_self, List.getElem_cons_zero]
  have hstop := window_stop hnul (n - l.length)
  rwa [Nat.add_sub_cancel' h.le, hchars] at hstop

end Windows

/-! ## The loops of `parse_arguments` -/

section Loops
variable {c buf : ℕ → UInt8} {l : List UInt8} {n t a : ℕ}

theorem parseExecutable_traverse (h : Holds c t l) (hl : 0 ∉ l) :
    (parseExecutable c n t buf).1 = t + min n (firstWord l).length := by
  unfold firstWord
  induction n generalizing t l buf with
  | zero => rw [Nat.zero_min]; rfl
  | succ n ih =>
    unfold parseExecutable
    cases l with
    | nil =>
      have hnul : c t = 0 := h.nul
      rw [if_neg fun hx => hx.1 hnul, List.takeWhile_nil, List.length_nil, Nat.min_zero]
      rfl
    | cons b l =>
      obtain ⟨hb, htail⟩ := h.tail
      have hb0 : b ≠ 0 := fun hx => hl (hx ▸ List.mem_cons_self ..)
      by_cases hword : b ≠ 0x20 ∧ b ≠ 0x0A
      · rw [hb, if_pos ⟨hb0, hword⟩, List.takeWhile_cons, if_pos (decide_eq_true hword),
          ih htail fun hx => hl (List.mem_cons_of_mem _ hx), List.length_cons, Nat.add_min_add_right]
        omega
      · rw [hb, if_neg fun hx => hword hx.2, List.takeWhile_cons, if_neg fun hx => hword (of_decide_eq_true hx),
          List.length_nil, Nat.min_zero]
        rfl

theorem skipSpaces_traverse (h : Holds c t l) (hn : l.length < n) :
    skipSpaces c n t = t + (l.takeWhile (· = 0x20)).length := by
  induction n generalizing t l with
  | zero => exact absurd hn (Nat.not_lt_zero _)
  | succ n ih =>
    unfold skipSpaces
    cases l with
    | nil =>
      have hnul : c t = 0 := h.nul
      rw [hnul, if_neg (by decide)]
      rfl
    | cons b l =>
      obtain ⟨hb, htail⟩ := h.tail
      rw [List.length_cons] at hn
      by_cases hspace : b = 0x20
      · rw [hb, if_pos hspace, List.takeWhile_cons, if_pos (decide_eq_true hspace),
          ih htail (by omega), List.length_cons]
        omega
      · rw [hb, if_neg hspace, List.takeWhile_cons, if_neg fun hx => hspace (of_decide_eq_true hx)]
        rfl

/-- The third loop copies characters up to a newline, or as many as it is allowed. -/
theorem parseRest_spec : ∃ r ≤ n, (parseRest c n t a buf).1 = a + r ∧
    (∀ j < r, (parseRest c n t a buf).2 (a + j) = c (t + j) ∧ c (t + j) ≠ 0x0A) ∧ (r < n → c (t + r) = 0x0A) ∧
    ∀ j < a, (parseRest c n t a buf).2 j = buf j := by
  induction n generalizing t a buf with
  | zero => exact ⟨0, Nat.le_refl 0, rfl, fun j hj => absurd hj (Nat.not_lt_zero j), fun h =>
    absurd h (Nat.lt_irrefl 0),
      fun _ _ => rfl⟩
  | succ n ih =>
    unfold parseRest
    by_cases hnl : c t = 0x0A
    · rw [if_neg (fun hx => hx hnl)]
      exact ⟨0, Nat.zero_le _, rfl, fun j hj => absurd hj (Nat.not_lt_zero j), fun _ => hnl, fun _ _ => rfl⟩
    · rw [if_pos hnl]
      obtain ⟨r, hr, hcount, hchars, hstop, hbefore⟩ := @ih (Function.update buf a (c t)) (t + 1) (a + 1)
      refine ⟨r + 1, by omega, by rw [hcount]; omega, fun j hj => ?_, fun h => ?_, fun j hj => ?_⟩
      · cases j with
        | zero =>
          refine ⟨?_, hnl⟩
          rw [hbefore (a + 0) (by omega), Nat.add_zero, Nat.add_zero, Function.update_self]
        | succ j =>
          rw [show a + (j + 1) = a + 1 + j by omega, show t + (j + 1) = t + 1 + j by omega]
          exact hchars j (by omega)
      · rw [show t + (r + 1) = t + 1 + r by omega]
        exact hstop (by omega)
      · rw [hbefore j (by omega), Function.update_of_ne (by omega)]

theorem takeWhile_take {r : ℕ} (hr : r ≤ n) (hrl : r ≤ l.length)
    (hbefore : ∀ j (_ : j < r) (hj : j < l.length), l[j] ≠ 0x0A)
    (hstop : r < n → ∀ h : r < l.length, l[r] = 0x0A) : (l.take n).takeWhile (· ≠ 0x0A) = l.take r := by
  have hsplit : l.take n = l.take r ++ (l.drop r).take (n - r) := by
    rw [← List.take_add, Nat.add_sub_cancel' hr]
  have hgood : ∀ b ∈ l.take r, decide (b ≠ 0x0A) = true := by
    intro b hb
    obtain ⟨j, hj, rfl⟩ := List.getElem_of_mem hb
    rw [List.length_take] at hj
    rw [List.getElem_take]
    exact decide_eq_true (hbefore j (by omega) (by omega))
  have hend : ((l.drop r).take (n - r)).takeWhile (· ≠ 0x0A) = [] := by
    rcases Nat.lt_or_ge r l.length with hlt | hge
    · rcases Nat.lt_or_ge r n with hrn | hrn
      · rw [List.drop_eq_getElem_cons hlt, hstop hrn hlt, show n - r = (n - r - 1) + 1 by omega, List.take_succ_cons,
          List.takeWhile_cons]
        rfl
      · rw [show n - r = 0 by omega, List.take_zero, List.takeWhile_nil]
    · rw [List.drop_eq_nil_of_le hge, List.take_nil, List.takeWhile_nil]
  rw [hsplit, List.takeWhile_append_of_pos hgood, hend, List.append_nil]

/-- **What the third loop leaves**: the text up to a newline, the end of the string or the bound, and
whether the terminator is among the characters counted. -/
theorem parseRest_window (h : Holds c t l) (hl : 0 ∉ l) :
    window (parseRest c n t 0 buf).2 (parseRest c n t 0 buf).1 0 = (l.take n).takeWhile (· ≠ 0x0A) ∧
      (((l.take n).takeWhile (· ≠ 0x0A)).length < (parseRest c n t 0 buf).1 ↔ 0x0A ∉ l ∧ l.length < n) := by
  obtain ⟨r, hr, hcount, hchars, hstop, -⟩ := @parseRest_spec c buf n t 0
  rw [hcount, Nat.zero_add]
  have hwin : window (parseRest c n t 0 buf).2 r 0 = l.take r := by
    rw [← h.window hl]
    exact window_congr fun j hj => (hchars j hj).1
  have hat : ∀ j (hj : j < l.length), j < r → l[j] ≠ 0x0A := fun j hj hjr => by
    rw [← h.chars j hj]
    exact (hchars j hjr).2
  have hnl : r < n → ∀ hlt : r < l.length, l[r] = 0x0A := fun hrn hlt => by
    rw [← h.chars r hlt]
    exact hstop hrn
  have hnul : r < n → r ≠ l.length := by
    rintro hrn rfl
    have h0 := h.nul
    rw [hstop hrn] at h0
    cases h0
  rw [hwin]
  rcases Nat.lt_or_ge l.length r with hlong | hshort
  · have hno : 0x0A ∉ l := by
      intro hmem
      obtain ⟨j, hj, hjl⟩ := List.getElem_of_mem hmem
      exact hat j hj (by omega) hjl
    have hall : (l.take n).takeWhile (· ≠ 0x0A) = l := by
      rw [List.take_of_length_le (by omega), List.takeWhile_eq_self_iff]
      exact fun b hb => decide_eq_true fun hx => hno (hx ▸ hb)
    rw [hall, List.take_of_length_le hlong.le]
    exact ⟨rfl, fun _ => ⟨hno, by omega⟩, fun _ => hlong⟩
  · have htake := takeWhile_take hr hshort (fun j hj hjl => hat j hjl hj) hnl
    rw [htake, List.length_take, Nat.min_eq_left hshort]
    refine ⟨rfl, fun hlt => absurd hlt (Nat.lt_irrefl r), fun ⟨hno, hlen⟩ => ?_⟩
    rcases Nat.lt_or_ge r l.length with hlt | hge
    · exact absurd (hnl (by omega) hlt) fun hx => hno (hx ▸ List.getElem_mem hlt)
    · exact absurd (by omega) (hnul (by omega))

end Loops

/-! ## What `execute` leaves in `args` -/

section Args
variable {command : List UInt8} (h0 : 0 ∉ command)
include h0

theorem copyCmd_holds (tail : ℕ → UInt8) : Holds (copyCmd command tail) 0 command := by
  have hcopy : copyCmd command tail = overlay (Function.update tail command.length 0) 0 command := by
    unfold copyCmd
    rw [strncpy_eq, strlen_noNul h0, window_cstr h0, List.take_length, Nat.sub_self,
      List.replicate_zero, List.append_nil]
  rw [hcopy]
  refine ⟨fun j hj => overlay_at _ 0 j command hj, ?_⟩
  rw [overlay_of_ge _ _ (Nat.le_refl _), Nat.zero_add, Function.update_self]

omit h0 in
theorem firstWord_le : (firstWord command).length ≤ command.length := (List.takeWhile_prefix _).length_le

omit h0 in
theorem argumentStart_le : argumentStart command ≤ command.length := by
  have hword := @firstWord_le command
  unfold argumentStart
  split
  · have hspaces :=
      (List.takeWhile_prefix (l := command.drop (firstWord command).length) (fun c => decide (c = 0x20))).length_le
    rw [List.length_drop] at hspaces
    omega
  · omega

omit h0 in
theorem spaces_of_cut (h : 32 < (firstWord command).length) : (command.drop 32).takeWhile (· = 0x20) = [] := by
  have hlt : 32 < command.length := Nat.lt_of_lt_of_le h firstWord_le
  have hmem : command[32] ∈ firstWord command := by
    have hget : (firstWord command)[32] = command[32] := (List.takeWhile_prefix _).getElem h
    rw [← hget]
    exact List.getElem_mem h
  have hne := List.mem_takeWhile_imp hmem
  rw [List.drop_eq_getElem_cons hlt, List.takeWhile_cons, if_neg]
  intro hx
  have := (of_decide_eq_true hne).1
  exact this (of_decide_eq_true hx)

theorem parse_start {c buf : ℕ → UInt8} (hold : Holds c 0 command) :
    skipSpaces c (command.length + 1) (parseExecutable c 32 0 buf).1 = argumentStart command := by
  have hword := @firstWord_le command
  rw [parseExecutable_traverse hold h0, Nat.zero_add]
  have hrest := hold.drop (i := min 32 (firstWord command).length) (by omega)
  rw [Nat.zero_add] at hrest
  rw [skipSpaces_traverse hrest (by rw [List.length_drop]; omega)]
  unfold argumentStart
  split
  · next hle => rw [Nat.min_eq_right hle]
  · next hlt => rw [Nat.min_eq_left (by omega), spaces_of_cut (by omega), List.length_nil]

theorem parsedCommand_start (e : Entry) :
    skipSpaces (copyCmd command e.tail) (strlen command + 1)
      (parseExecutable (copyCmd command e.tail) 32 0 e.executableBuf).1 = argumentStart command := by
  rw [strlen_noNul h0]
  exact parse_start h0 (copyCmd_holds h0 e.tail)

theorem parsedCommand_arguments (e : Entry) :
    window (parsedCommand e command).argumentBuf (parsedCommand e command).argCount 0 = copiedText command ∧
      ((copiedText command).length < (parsedCommand e command).argCount ↔ Terminated command) ∧
      (parsedCommand e command).argCount ≤ 128 := by
  have hold := (copyCmd_holds h0 e.tail).drop (@argumentStart_le command)
  have hdrop : 0 ∉ command.drop (argumentStart command) := fun hx => h0 (List.mem_of_mem_drop hx)
  rw [Nat.zero_add] at hold
  have hparsed : (parsedCommand e command).argCount =
      (parseRest (copyCmd command e.tail) (128 - argumentStart command) (argumentStart command) 0 e.argumentBuf).1 ∧
      (parsedCommand e command).argumentBuf =
        (parseRest (copyCmd command e.tail) (128 - argumentStart command)
          (argumentStart command) 0 e.argumentBuf).2 := by
    unfold parsedCommand parseArguments
    simp only [parsedCommand_start h0]
    exact ⟨trivial, trivial⟩
  have hcopied : copiedText command =
      ((command.drop (argumentStart command)).take (128 - argumentStart command)).takeWhile (· ≠ 0x0A) := by
    unfold copiedText
    rw [List.drop_take]
  obtain ⟨hwin, hterm⟩ := @parseRest_window _ e.argumentBuf _ (128 - argumentStart command) _ hold hdrop
  obtain ⟨r, hr, hcount, -⟩ := @parseRest_spec (copyCmd command e.tail) e.argumentBuf (128 - argumentStart command)
    (argumentStart command) 0
  rw [hparsed.1, hparsed.2, hcopied]
  refine ⟨hwin, hterm.trans ?_, by omega⟩
  unfold Terminated
  rw [List.length_drop]
  have hle := @argumentStart_le command
  constructor
  · rintro ⟨hno, hlen⟩
    exact ⟨hno, by omega⟩
  · rintro ⟨hno, hlen⟩
    exact ⟨hno, by omega⟩

/-- **The string in `args`** after `execute`: the copied text, which the previous contents continue
when the terminator was not copied. -/
theorem strncpy_arguments (e : Entry) (old : ℕ → UInt8) :
    window (strncpy old (parsedCommand e command).argumentBuf (parsedCommand e command).argCount 0) 128 0 =
      if Terminated command then copiedText command
      else copiedText command ++ window old (128 - (copiedText command).length) (copiedText command).length := by
  obtain ⟨hwin, hterm, hcount⟩ := parsedCommand_arguments h0 e
  have hlen : (copiedText command).length ≤ (parsedCommand e command).argCount := by
    rw [← hwin]
    exact window_length_le
  have hno : 0 ∉ copiedText command := by
    rw [← hwin]
    exact window_noNul
  rw [strncpy_eq, hwin]
  split
  · next ht =>
    have hlt := hterm.mpr ht
    rw [show (parsedCommand e command).argCount - (copiedText command).length =
      ((parsedCommand e command).argCount - (copiedText command).length - 1) + 1 by omega, List.replicate_succ]
    exact window_overlay_nul hno (by omega) _
  · next ht =>
    have hge : (parsedCommand e command).argCount ≤ (copiedText command).length :=
      Nat.le_of_not_lt fun hx => ht (hterm.mp hx)
    rw [show (parsedCommand e command).argCount - (copiedText command).length = 0 by omega, List.replicate_zero,
      List.append_nil, window_overlay hno (by omega), Nat.zero_add]

end Args

/-! ## When the arguments come through -/

/-- The arguments come through: the terminator was copied behind them, or what the slot held before
happens to complete them. -/
def ArgumentsPass (command : List UInt8) (old : ℕ → UInt8) : Prop :=
  (firstWord command).length ≤ 32 ∧ Terminated command ∨
    copiedText command <+: argumentText command ∧
      window old (128 - (copiedText command).length) (copiedText command).length =
        (argumentText command).drop (copiedText command).length

section Pass
variable {command : List UInt8}

theorem dropWhile_eq_drop (p : UInt8 → Bool) (l : List UInt8) : l.dropWhile p = l.drop (l.takeWhile p).length := by
  have h := congrArg (List.drop (l.takeWhile p).length) (List.takeWhile_append_dropWhile (p := p) (l := l))
  rwa [List.drop_left] at h

theorem argumentText_eq (h : (firstWord command).length ≤ 32) :
    argumentText command = (command.drop (argumentStart command)).takeWhile (· ≠ 0x0A) := by
  unfold argumentText argumentStart
  rw [if_pos h, ← List.drop_drop, dropWhile_eq_drop]

theorem copiedText_terminated (h : Terminated command) : copiedText command = command.drop (argumentStart command) := by
  unfold copiedText
  rw [List.take_of_length_le h.2.le, List.takeWhile_eq_self_iff]
  exact fun c hc => decide_eq_true fun hx => h.1 (hx ▸ hc)

theorem copiedText_eq (h : (firstWord command).length ≤ 32) (ht : Terminated command) :
    copiedText command = argumentText command := by
  rw [copiedText_terminated ht, argumentText_eq h, eq_comm, List.takeWhile_eq_self_iff]
  exact fun c hc => decide_eq_true fun hx => ht.1 (hx ▸ hc)

theorem copiedText_longer (h : ¬ (firstWord command).length ≤ 32) (ht : Terminated command) :
    (argumentText command).length < (copiedText command).length := by
  have hword := @firstWord_le command
  have hstart : argumentStart command = 32 := if_neg h
  have htext : (argumentText command).length ≤ command.length - (firstWord command).length := by
    rw [← List.length_drop]
    exact (List.takeWhile_prefix _).length_le.trans (List.dropWhile_suffix _).length_le
  rw [copiedText_terminated ht, hstart, List.length_drop]
  omega

theorem arguments_eq_iff (h0 : 0 ∉ command) (e : Entry) (old : ℕ → UInt8) :
    window (strncpy old (parsedCommand e command).argumentBuf (parsedCommand e command).argCount 0) 128 0 =
      argumentText command ↔ ArgumentsPass command old := by
  rw [strncpy_arguments h0]
  unfold ArgumentsPass
  by_cases ht : Terminated command
  · rw [if_pos ht]
    by_cases hw : (firstWord command).length ≤ 32
    · exact iff_of_true (copiedText_eq hw ht) (Or.inl ⟨hw, ht⟩)
    · have hlonger := copiedText_longer hw ht
      refine iff_of_false (fun hx => by rw [hx] at hlonger; omega) ?_
      rintro (hx | hx)
      · exact hw hx.1
      · have := hx.1.length_le
        omega
  · rw [if_neg ht]
    constructor
    · intro hx
      refine Or.inr ⟨⟨_, hx⟩, ?_⟩
      rw [← hx, List.drop_left]
    · rintro (hx | ⟨⟨rest, hx⟩, hold⟩)
      · exact absurd hx.2 ht
      · rw [hold, ← hx, List.drop_left]

end Pass

/-! ## What `getargs` gives -/

section Getargs
variable {k : Kernel} {text : List UInt8}

theorem arguments_window {b : Pcb} (h : b.available 0 = 0) : b.arguments = window b.args 128 0 := by
  have hend : b.argsBytes (0 + 128) = 0 := by
    unfold Pcb.argsBytes
    rw [if_neg (by decide)]
    show UInt8.ofNat (b.available 0 / 256 ^ 0) = 0
    rw [h]
    rfl
  unfold Pcb.arguments
  rw [show (160 : ℕ) = 128 + 32 from rfl, window_stop hend]
  refine window_congr fun j hj => ?_
  unfold Pcb.argsBytes
  rw [if_pos (by omega)]

/-- **`getargs`** gives the string in `args`. -/
theorem givesArguments_arguments (k : Kernel) : GivesArguments k k.getPcbNow.arguments := by
  intro m buf nbytes hbuf _
  unfold getargs
  simp only
  by_cases hempty : k.getPcbNow.arguments.length = 0
  · rw [if_pos (Or.inr (Or.inl hempty)), if_neg fun hx => hx.1 (List.length_eq_zero_iff.mp hempty)]
  by_cases hroom : nbytes < k.getPcbNow.arguments.length + 1
  · rw [if_pos (Or.inr (Or.inr hroom)), if_neg fun hx => absurd hx.2 (by omega)]
  · have hself : window k.getPcbNow.argsBytes k.getPcbNow.arguments.length 0 = k.getPcbNow.arguments := window_self
    rw [if_neg fun hx => hx.elim hbuf fun hx => hx.elim hempty hroom,
      if_pos ⟨fun hx => hempty (List.length_eq_zero_iff.mpr hx), by omega⟩]
    unfold strncpyTo
    rw [hself, Nat.sub_self, List.replicate_zero, List.append_nil, putBytes_function, overlay_append]
    have hput : ByteStore.put (overlay m buf k.getPcbNow.arguments) (buf + k.getPcbNow.arguments.length) 0 =
        .ok (overlay (overlay m buf k.getPcbNow.arguments) (buf + k.getPcbNow.arguments.length) [0]) := by
      rw [← overlay_cons, overlay_nil]
      rfl
    simp only [hput]

theorem givesArguments_iff (h0 : 0 ∉ text) (hlen : text.length < 128) :
    GivesArguments k text ↔ k.getPcbNow.arguments = text := by
  constructor
  · intro h
    have hstring : k.getPcbNow.arguments.length ≤ 160 := window_length_le
    have hno : 0 ∉ k.getPcbNow.arguments := window_noNul
    have hg := givesArguments_arguments k (fun _ => 1) 1 (k.getPcbNow.arguments.length + text.length + 1)
      (by decide) (by omega)
    rw [h (fun _ => 1) 1 (k.getPcbNow.arguments.length + text.length + 1) (by decide) (by omega)] at hg
    by_cases ht : text = []
    · rw [if_neg fun hx => hx.1 ht] at hg
      by_contra hne
      rw [if_pos ⟨fun hx => hne (hx.trans ht.symm), by omega⟩] at hg
      simp at hg
    · rw [if_pos ⟨ht, by omega⟩] at hg
      by_cases hs : k.getPcbNow.arguments = []
      · rw [if_neg fun hx => hx.1 hs] at hg
        simp at hg
      · rw [if_pos ⟨hs, by omega⟩, Except.ok.injEq, Prod.mk.injEq] at hg
        have hwin := congrArg (fun m => window m 161 1) hg.2
        simp only [window_overlay_nul h0 (show text.length < 161 by omega) [],
          window_overlay_nul hno (show k.getPcbNow.arguments.length < 161 by omega) []] at hwin
        exact hwin.symm
  · rintro rfl
    exact givesArguments_arguments k

end Getargs
end Kernel391
