import Mathlib.Data.Nat.Digits.Lemmas
import Kernel391.Foundations.Loops
import Kernel391.Foundations.Stores
import Kernel391.Lib.Strings

/-! `itoa` and `strrev` of `lib.c`, and the conversions of `printf` that go through them. The digits come lowest
place first and are reversed where they stand. A loop that may not end counts its rounds. -/
namespace Kernel391
open Kernel391.Foundations
set_option autoImplicit false

def lookup : List UInt8 := ascii "0123456789ABCDEFGHIJKLMNOPQRSTUVWXYZ".toList

/-- `strlen` on a memory. The first number counts the rounds. -/
def strlenAt (m : ℕ → UInt8) : ℕ → ℕ → Option ℕ
  | 0, _ => none
  | n + 1, s => if m s = 0 then some 0 else (strlenAt m n (s + 1)).map (· + 1)

/-- The characters `puts` prints of the string at an address. -/
def putsAt (m : ℕ → UInt8) : ℕ → ℕ → Option (List UInt8)
  | 0, _ => none
  | n + 1, s => if m s = 0 then some [] else (putsAt m n (s + 1)).map (m s :: ·)

/-- The swap in the loop of `strrev`. -/
def swapBytes (m : ℕ → UInt8) (a b : ℕ) : ℕ → UInt8 := Function.update (Function.update m b (m a)) a (m b)

/-- The loop of `strrev`; the number is `end - beg`. -/
def strrevLoop (s : ℕ) : (ℕ → UInt8) → ℕ → ℕ → ℕ → UInt8
  | m, _, 0 => m
  | m, beg, 1 => swapBytes m (s + beg) (s + (beg + 1))
  | m, beg, d + 2 => strrevLoop s (swapBytes m (s + beg) (s + (beg + (d + 2)))) (beg + 1) d

def strrev (rounds : ℕ) (m : ℕ → UInt8) (s : ℕ) : Option (ℕ → UInt8) :=
  match strlenAt m rounds s with
  | none => none
  | some 0 => some m
  | some (n + 1) => some (strrevLoop s m 0 n)

/-- The loop of `itoa`: the memory and the place behind the last digit. -/
def itoaLoop (radix : ℕ) : ℕ → (ℕ → UInt8) → ℕ → ℕ → Option ((ℕ → UInt8) × ℕ)
  | 0, _, _, _ => none
  | n + 1, m, newbuf, newval =>
    if newval > 0 then
      let i := newval % radix
      itoaLoop radix n (Function.update m newbuf (lookup.getD i 0)) (newbuf + 1) (newval / radix)
    else some (m, newbuf)

/-- `itoa`, the memory after it. -/
def itoa (rounds : ℕ) (m : ℕ → UInt8) (value buf radix : ℕ) : Option (ℕ → UInt8) :=
  if value = 0 then some (Function.update (Function.update m buf 0x30) (buf + 1) 0)
  else
    match itoaLoop radix rounds m buf value with
    | none => none
    | some (m, newbuf) => strrev rounds (Function.update m newbuf 0) buf

/-! ## Numerals -/

def digitChar (d : ℕ) : UInt8 := lookup.getD d 0

def digitValue (c : UInt8) : ℕ := lookup.idxOf c

/-- The numeral of a value, the highest place first. -/
def numeral (radix value : ℕ) : List UInt8 :=
  if value = 0 then [0x30] else ((Nat.digits radix value).map digitChar).reverse

/-- A numeral of a value: digits of the radix, none too many, that stand for it. -/
structure IsNumeral (radix value : ℕ) (s : List UInt8) : Prop where
  digits : ∀ c ∈ s, c ∈ lookup ∧ digitValue c < radix
  nonempty : s ≠ []
  length : s.length ≤ 32
  leading : s.head? = some 0x30 → s = [0x30]
  value : Nat.ofDigits radix (s.reverse.map digitValue) = value

section Digits
variable {radix value d : ℕ}

theorem digit_char : ∀ d < 36, digitChar d ∈ lookup ∧ digitChar d ≠ 0 ∧ digitValue (digitChar d) = d ∧
    (digitChar d = 0x30 → d = 0) := by
  decide

theorem digits_lt (hr : 2 ≤ radix) (hr' : radix ≤ 36) : ∀ d ∈ Nat.digits radix value, d < 36 := fun _ hd =>
  (Nat.digits_lt_base hr hd).trans_le hr'

theorem digits_length (hr : 2 ≤ radix) (hv : value < 2 ^ 32) : (Nat.digits radix value).length ≤ 32 :=
  (Nat.digits_length_le_iff hr value).mpr (hv.trans_le (Nat.pow_le_pow_left hr 32))

theorem numeral_length (hr : 2 ≤ radix) (hv : value < 2 ^ 32) : (numeral radix value).length ≤ 32 := by
  unfold numeral
  split
  · decide
  · rw [List.length_reverse, List.length_map]
    exact digits_length hr hv

theorem numeral_noNul (hr : 2 ≤ radix) (hr' : radix ≤ 36) : 0 ∉ numeral radix value := by
  unfold numeral
  split
  · decide
  · rw [List.mem_reverse, List.mem_map]
    rintro ⟨d, hd, hzero⟩
    exact (digit_char d (digits_lt hr hr' d hd)).2.1 hzero

theorem numeral_isNumeral (hr : 2 ≤ radix) (hr' : radix ≤ 36) (hv : value < 2 ^ 32) :
    IsNumeral radix value (numeral radix value) := by
  refine ⟨?_, ?_, numeral_length hr hv, ?_, ?_⟩
  · intro c hc
    unfold numeral at hc
    split at hc
    · obtain rfl := List.mem_singleton.mp hc
      exact ⟨by decide, by rw [show digitValue 0x30 = 0 by decide]; omega⟩
    · rw [List.mem_reverse, List.mem_map] at hc
      obtain ⟨d, hd, rfl⟩ := hc
      obtain ⟨hmem, -, hvalue, -⟩ := digit_char d (digits_lt hr hr' d hd)
      exact ⟨hmem, by rw [hvalue]; exact Nat.digits_lt_base hr hd⟩
  · unfold numeral
    split
    · exact List.cons_ne_nil _ _
    · next hzero =>
      rw [Ne, List.reverse_eq_nil_iff, List.map_eq_nil_iff, Nat.digits_eq_nil_iff_eq_zero]
      exact hzero
  · unfold numeral
    split
    · exact fun _ => rfl
    · next hzero =>
      -- the highest place is not zero
      intro hhead
      rw [List.head?_reverse, List.getLast?_map] at hhead
      have hne : Nat.digits radix value ≠ [] := Nat.digits_ne_nil_iff_ne_zero.mpr hzero
      rw [List.getLast?_eq_some_getLast hne, Option.map_some, Option.some_inj] at hhead
      have hlast := (digit_char _ (digits_lt hr hr' _ (List.getLast_mem hne))).2.2.2 hhead
      exact absurd hlast (Nat.getLast_digit_ne_zero radix hzero)
  · unfold numeral
    split
    · next hzero =>
      rw [hzero]
      rfl
    · rw [List.reverse_reverse, List.map_map]
      have hid : (Nat.digits radix value).map (digitValue ∘ digitChar) = (Nat.digits radix value).map id :=
        List.map_congr_left fun d hd => (digit_char d (digits_lt hr hr' d hd)).2.2.1
      rw [hid, List.map_id]
      exact Nat.ofDigits_digits radix value

end Digits

/-! ## The functions -/

section Functions
variable {m : ℕ → UInt8} {l : List UInt8} {n s buf radix value rounds : ℕ}

theorem overlay_holds (m : ℕ → UInt8) (a : ℕ) (l : List UInt8) : Holds (overlay m a (l ++ [0])) a l where
  chars j hj := by
    rw [overlay_at _ _ _ _ (by rw [List.length_append]; omega), List.getElem_append_left hj]
  nul := by
    rw [overlay_at _ _ _ _ (by rw [List.length_append, List.length_singleton]; omega),
      List.getElem_append_right (Nat.le_refl _)]
    simp

theorem strlenAt_eq (h : Holds m s l) (hl : 0 ∉ l) (hn : l.length < n) : strlenAt m n s = some l.length := by
  induction l generalizing n s with
  | nil =>
    cases n with
    | zero => cases hn
    | succ n => exact if_pos h.nul
  | cons c l ih =>
    cases n with
    | zero => cases hn
    | succ n =>
      obtain ⟨hc, htail⟩ := h.tail
      have hc0 : m s ≠ 0 := fun hx => hl (by rw [← hx, hc]; exact List.mem_cons_self ..)
      rw [strlenAt, if_neg hc0, ih htail (fun hx => hl (List.mem_cons_of_mem _ hx)) (Nat.lt_of_succ_lt_succ hn)]
      rfl

theorem putsAt_eq (h : Holds m s l) (hl : 0 ∉ l) (hn : l.length < n) : putsAt m n s = some l := by
  induction l generalizing n s with
  | nil =>
    cases n with
    | zero => cases hn
    | succ n => exact if_pos h.nul
  | cons c l ih =>
    cases n with
    | zero => cases hn
    | succ n =>
      obtain ⟨hc, htail⟩ := h.tail
      have hc0 : m s ≠ 0 := fun hx => hl (by rw [← hx, hc]; exact List.mem_cons_self ..)
      rw [putsAt, if_neg hc0, ih htail (fun hx => hl (List.mem_cons_of_mem _ hx)) (Nat.lt_of_succ_lt_succ hn), hc]
      rfl

theorem strrevLoop_eq (s beg d : ℕ) : strrevLoop s m beg d =
    fun a => if s + beg ≤ a ∧ a ≤ s + beg + d then m (2 * (s + beg) + d - a) else m a := by
  induction d using Nat.twoStepInduction generalizing m beg with
  | zero =>
    funext a
    by_cases ha : s + beg ≤ a ∧ a ≤ s + beg + 0
    · rw [if_pos ha]
      exact congrArg m (by omega)
    · exact (if_neg ha).symm
  | one =>
    funext a
    simp only [strrevLoop, swapBytes]
    by_cases hlow : a = s + beg
    · rw [hlow, Function.update_self, if_pos (by omega)]
      exact congrArg m (by omega)
    · rw [Function.update_of_ne hlow]
      by_cases hhigh : a = s + (beg + 1)
      · rw [hhigh, Function.update_self, if_pos (by omega)]
        exact congrArg m (by omega)
      · rw [Function.update_of_ne hhigh, if_neg (by omega)]
  | more d ih _ =>
    funext a
    rw [strrevLoop, ih]
    simp only [swapBytes]
    by_cases hin : s + (beg + 1) ≤ a ∧ a ≤ s + (beg + 1) + d
    · rw [if_pos hin, if_pos (by omega), Function.update_of_ne (by omega), Function.update_of_ne (by omega)]
      exact congrArg m (by omega)
    · rw [if_neg hin]
      by_cases hlow : a = s + beg
      · rw [hlow, Function.update_self, if_pos (by omega)]
        exact congrArg m (by omega)
      · rw [Function.update_of_ne hlow]
        by_cases hhigh : a = s + (beg + (d + 2))
        · rw [hhigh, Function.update_self, if_pos (by omega)]
          exact congrArg m (by omega)
        · rw [Function.update_of_ne hhigh, if_neg (by omega)]

/-- **`strrev`** reverses the string where it stands. -/
theorem strrev_eq (hl : 0 ∉ l) (hn : l.length < n) :
    strrev n (overlay m s (l ++ [0])) s = some (overlay m s (l.reverse ++ [0])) := by
  unfold strrev
  rw [strlenAt_eq (overlay_holds m s l) hl hn]
  cases hlen : l.length with
  | zero =>
    rw [List.eq_nil_of_length_eq_zero hlen]
    rfl
  | succ d =>
    have hstring := overlay_holds m s l
    have hmirror := overlay_holds m s l.reverse
    refine congrArg some ?_
    rw [strrevLoop_eq]
    funext a
    simp only [Nat.add_zero]
    by_cases hin : s ≤ a ∧ a ≤ s + d
    · obtain ⟨j, rfl⟩ := Nat.exists_eq_add_of_le hin.1
      rw [if_pos hin, show 2 * s + d - (s + j) = s + (d - j) by omega, hstring.chars (d - j) (by omega),
        hmirror.chars j (by rw [List.length_reverse]; omega), List.getElem_reverse]
      congr 1
      omega
    · rw [if_neg hin]
      by_cases hend : a = s + l.length
      · rw [hend, hstring.nul, ← List.length_reverse, hmirror.nul]
      · by_cases hlow : a < s
        · rw [overlay_of_lt _ _ hlow, overlay_of_lt _ _ hlow]
        · rw [overlay_of_ge _ _ (by rw [List.length_append, List.length_singleton]; omega),
            overlay_of_ge _ _ (by rw [List.length_append, List.length_reverse, List.length_singleton]; omega)]

theorem itoaLoop_eq (hr : 2 ≤ radix) (hn : (Nat.digits radix value).length < n) : itoaLoop radix n m buf value =
    some (overlay m buf ((Nat.digits radix value).map digitChar), buf + (Nat.digits radix value).length) := by
  induction n generalizing m buf value with
  | zero => cases hn
  | succ n ih =>
    rw [itoaLoop]
    split
    · next hpos =>
      have hdigits := Nat.digits_def' (show 1 < radix by omega) hpos
      rw [hdigits, List.length_cons] at hn
      simp only
      rw [ih (Nat.lt_of_succ_lt_succ hn), hdigits, List.map_cons, List.length_cons, ← overlay_cons,
        Nat.add_assoc, Nat.add_comm 1]
      rfl
    · next hzero =>
      have hvalue : value = 0 := Nat.eq_zero_of_not_pos hzero
      rw [hvalue, Nat.digits_zero, List.map_nil, overlay_nil]
      rfl

/-- **`itoa`** writes the numeral and its terminator, and nothing else. -/
theorem itoa_eq (hr : 2 ≤ radix) (hr' : radix ≤ 36) (hv : value < 2 ^ 32) (hrounds : 33 ≤ rounds) :
    itoa rounds m value buf radix = some (overlay m buf (numeral radix value ++ [0])) := by
  unfold itoa
  split
  · next hzero =>
    rw [hzero]
    show some _ = some (overlay m buf [0x30, 0])
    rw [← overlay_cons, overlay_single]
  · next hzero =>
    have hlen := @digits_length radix value hr hv
    rw [itoaLoop_eq hr (by omega)]
    have hnul : 0 ∉ (Nat.digits radix value).map digitChar := by
      have hnul := @numeral_noNul radix value hr hr'
      unfold numeral at hnul
      rwa [if_neg hzero, List.mem_reverse] at hnul
    have hterminated : Function.update (overlay m buf ((Nat.digits radix value).map digitChar))
        (buf + (Nat.digits radix value).length) 0 = overlay m buf ((Nat.digits radix value).map digitChar ++ [0]) := by
      rw [overlay_append, overlay_single, List.length_map]
    simp only
    rw [hterminated, strrev_eq hnul (by rw [List.length_map]; omega)]
    unfold numeral
    rw [if_neg hzero]

end Functions

/-! ## The conversions of `printf` -/

/-- Rounds enough for the digits of a word and the terminator. -/
def wordRounds : ℕ := 33

/-- `itoa` into a buffer and `puts` from it: the memory after it and the characters printed. -/
def printNumeral (m : ℕ → UInt8) (buf value radix : ℕ) : Option ((ℕ → UInt8) × List UInt8) :=
  match itoa wordRounds m value buf radix with
  | none => none
  | some m => (putsAt m wordRounds buf).map (m, ·)

/-- The loop that pads `%#x`, from place `i` on; the first number is `8 - i`. -/
def padZeros (convBuf : ℕ) : ℕ → ℕ → (ℕ → UInt8) → ℕ → UInt8
  | 0, _, m => m
  | n + 1, i, m => padZeros convBuf n (i + 1) (Function.update m (convBuf + i) 0x30)

/-- `%x` and, with the flag, `%#x`: the numeral ends at place 16 there, and its length is where the zeros start. -/
def convX (m : ℕ → UInt8) (convBuf value : ℕ) (alternate : Bool) : Option ((ℕ → UInt8) × List UInt8) :=
  if alternate then
    match itoa wordRounds m value (convBuf + 8) 16 with
    | none => none
    | some m =>
      match strlenAt m wordRounds (convBuf + 8) with
      | none => none
      | some startingIndex =>
        let m := padZeros convBuf (8 - startingIndex) startingIndex m
        (putsAt m wordRounds (convBuf + startingIndex)).map (m, ·)
  else printNumeral m convBuf value 16

/-- `%u`. -/
def convU (m : ℕ → UInt8) (convBuf value : ℕ) : Option ((ℕ → UInt8) × List UInt8) := printNumeral m convBuf value 10

/-- `%d`: the negation wraps at the least value. -/
def convD (m : ℕ → UInt8) (convBuf value : ℕ) : Option ((ℕ → UInt8) × List UInt8) :=
  if int32 value < 0 then
    match itoa wordRounds (Function.update m convBuf 0x2D) (uint32 (-int32 value)) (convBuf + 1) 10 with
    | none => none
    | some m => (putsAt m wordRounds convBuf).map (m, ·)
  else printNumeral m convBuf value 10

/-- A conversion prints these characters, and leaves the memory outside its buffer alone. -/
def PrintsWithin (o : Option ((ℕ → UInt8) × List UInt8)) (m : ℕ → UInt8) (buf size : ℕ) (out : List UInt8) : Prop :=
  ∃ m', o = some (m', out) ∧ ∀ a, ¬ (buf ≤ a ∧ a < buf + size) → m' a = m a

/-- The numeral with zeros in front, up to eight digits. -/
def paddedNumeral (value : ℕ) : List UInt8 := List.replicate (8 - (numeral 16 value).length) 0x30 ++ numeral 16 value

def signedNumeral (v : ℤ) : List UInt8 := if v < 0 then 0x2D :: numeral 10 v.natAbs else numeral 10 v.natAbs

section Conversions
variable {m : ℕ → UInt8} {a b buf convBuf value size n i : ℕ} {xs ys l : List UInt8}

theorem overlay_outside (h : ¬ (a ≤ b ∧ b < a + xs.length)) : overlay m a xs b = m b := by
  by_cases hlt : b < a
  · exact overlay_of_lt _ _ hlt
  · exact overlay_of_ge _ _ (by omega)

theorem overlay_comm (h : a + xs.length ≤ b) : overlay (overlay m b ys) a xs = overlay (overlay m a xs) b ys := by
  funext i
  by_cases hlow : i < b
  · rw [overlay_of_lt _ ys hlow]
    unfold overlay
    simp only [if_neg (Nat.not_le.mpr hlow)]
  · rw [overlay_of_ge _ xs (by omega)]
    unfold overlay
    rw [if_pos (by omega), if_pos (by omega), if_pos (by omega),
      List.getElem?_eq_none (show xs.length ≤ i - a by omega)]
    rfl

theorem itoa_word (m : ℕ → UInt8) (buf radix : ℕ) (hr : 2 ≤ radix) (hr' : radix ≤ 36) (hv : value < 2 ^ 32) :
    itoa wordRounds m value buf radix = some (overlay m buf (numeral radix value ++ [0])) :=
  itoa_eq hr hr' hv (Nat.le_refl 33)

theorem putsAt_overlay (m : ℕ → UInt8) (buf : ℕ) (hl : 0 ∉ l) (hlen : l.length ≤ 32) (hsize : l.length < size) :
    PrintsWithin ((putsAt (overlay m buf (l ++ [0])) wordRounds buf).map (overlay m buf (l ++ [0]), ·))
      m buf size l := by
  refine ⟨overlay m buf (l ++ [0]), ?_, fun a ha => overlay_outside ?_⟩
  · rw [@putsAt_eq _ l wordRounds _ (overlay_holds m buf l) hl (Nat.lt_succ_of_le hlen)]
    rfl
  · rw [List.length_append, List.length_singleton]
    omega

theorem printNumeral_prints {radix : ℕ} (hr : 2 ≤ radix) (hr' : radix ≤ 36) (hv : value < 2 ^ 32) (hsize : 33 ≤ size) :
    PrintsWithin (printNumeral m buf value radix) m buf size (numeral radix value) := by
  have hlen := @numeral_length radix value hr hv
  unfold printNumeral
  rw [itoa_word m buf radix hr hr' hv]
  exact putsAt_overlay m buf (numeral_noNul hr hr') hlen (by omega)

theorem padZeros_eq : padZeros convBuf n i m = overlay m (convBuf + i) (List.replicate n 0x30) := by
  induction n generalizing i m with
  | zero => exact (overlay_nil m _).symm
  | succ n ih => rw [padZeros, ih, List.replicate_succ, ← overlay_cons, Nat.add_assoc]

theorem hex_length (hv : value < 2 ^ 32) : (numeral 16 value).length ≤ 8 := by
  unfold numeral
  split
  · decide
  · rw [List.length_reverse, List.length_map]
    exact (Nat.digits_length_le_iff (by decide) value).mpr hv

theorem paddedNumeral_length (hv : value < 2 ^ 32) : (paddedNumeral value).length = 8 := by
  have hlen := hex_length hv
  unfold paddedNumeral
  rw [List.length_append, List.length_replicate]
  omega

theorem convX_padded (hv : value < 2 ^ 32) :
    PrintsWithin (convX m convBuf value true) m convBuf 64 (paddedNumeral value) := by
  have hlen := hex_length hv
  have hnul := @numeral_noNul 16 value (by decide) (by decide)
  unfold convX
  rw [if_pos rfl, itoa_word m (convBuf + 8) 16 (by decide) (by decide) hv]
  simp only
  rw [strlenAt_eq (overlay_holds m (convBuf + 8) _) hnul (by unfold wordRounds; omega)]
  simp only
  -- the zeros come to stand right before the numeral
  have hstring : padZeros convBuf (8 - (numeral 16 value).length) (numeral 16 value).length
      (overlay m (convBuf + 8) (numeral 16 value ++ [0])) =
        overlay m (convBuf + (numeral 16 value).length) (paddedNumeral value ++ [0]) := by
    unfold paddedNumeral
    rw [padZeros_eq, overlay_comm (by rw [List.length_replicate]; omega), List.append_assoc,
      overlay_append m _ (List.replicate _ _) (numeral 16 value ++ [0]), List.length_replicate,
      show convBuf + (numeral 16 value).length + (8 - (numeral 16 value).length) = convBuf + 8 by omega]
  rw [hstring]
  have hpadded : 0 ∉ paddedNumeral value := by
    unfold paddedNumeral
    rw [List.mem_append]
    rintro (hzero | hdigit)
    · exact absurd (List.eq_of_mem_replicate hzero) (by decide)
    · exact hnul hdigit
  have hcount := paddedNumeral_length hv
  obtain ⟨m', hprints, hout⟩ :=
    @putsAt_overlay (8 + 1) (paddedNumeral value) m (convBuf + (numeral 16 value).length) hpadded
    (by omega) (by omega)
  exact ⟨m', hprints, fun a ha => hout a (by omega)⟩

theorem convD_prints (hv : value < 2 ^ 32) :
    PrintsWithin (convD m convBuf value) m convBuf 36 (signedNumeral (int32 value)) := by
  unfold convD signedNumeral
  by_cases hneg : int32 value < 0
  · rw [if_pos hneg, if_pos hneg]
    have hlarge : ¬ value < 2 ^ 31 := by
      intro hlt
      rw [int32, if_pos hlt] at hneg
      omega
    have habs : uint32 (-int32 value) = (int32 value).natAbs := by
      unfold uint32 int32
      rw [if_neg hlarge]
      omega
    have hword : (int32 value).natAbs < 2 ^ 32 := by
      unfold int32
      rw [if_neg hlarge]
      omega
    have hlen := @numeral_length 10 _ (by decide) hword
    have hten : (numeral 10 (int32 value).natAbs).length ≤ 31 := by
      have hdigits : (Nat.digits 10 (int32 value).natAbs).length ≤ 31 :=
        (Nat.digits_length_le_iff (by decide) _).mpr (hword.trans (by decide))
      unfold numeral
      split
      · decide
      · rwa [List.length_reverse, List.length_map]
    rw [habs, itoa_word _ (convBuf + 1) 10 (by decide) (by decide) hword]
    simp only
    rw [overlay_cons, ← List.cons_append]
    refine putsAt_overlay m convBuf ?_ ?_ ?_
    · rw [List.mem_cons]
      rintro (hminus | hdigit)
      · exact absurd hminus (by decide)
      · exact numeral_noNul (by decide) (by decide) hdigit
    · rw [List.length_cons]
      omega
    · rw [List.length_cons]
      omega
  · rw [if_neg hneg, if_neg hneg]
    have habs : (int32 value).natAbs = value := by
      unfold int32 at hneg ⊢
      split at hneg
      · next hlt => rw [if_pos hlt, Int.natAbs_natCast]
      · omega
    rw [habs]
    exact printNumeral_prints (by decide) (by decide) hv (by decide)

end Conversions

/-! ## Numbers printed -/

/-- **Numbers are formatted right** in every radix, and printed so by the conversions, within their buffers. -/
theorem number_formatting (value : ℕ) (hv : value < 2 ^ 32) (m : ℕ → UInt8) (buf : ℕ) :
    (∀ radix, 2 ≤ radix → radix ≤ 36 → IsNumeral radix value (numeral radix value) ∧
      ∀ rounds ≥ 33, itoa rounds m value buf radix = some (overlay m buf (numeral radix value ++ [0]))) ∧
    PrintsWithin (convU m buf value) m buf 36 (numeral 10 value) ∧
    PrintsWithin (convX m buf value false) m buf 64 (numeral 16 value) ∧
    PrintsWithin (convD m buf value) m buf 36 (signedNumeral (int32 value)) ∧
    PrintsWithin (convX m buf value true) m buf 64 (paddedNumeral value) ∧ (paddedNumeral value).length = 8 :=
  ⟨fun _ hr hr' => ⟨numeral_isNumeral hr hr' hv, fun _ hrounds => itoa_eq hr hr' hv hrounds⟩,
    printNumeral_prints (by decide) (by decide) hv (by decide),
      printNumeral_prints (by decide) (by decide) hv (by decide),
    convD_prints hv, convX_padded hv, paddedNumeral_length hv⟩

/-- The least value there is. -/
theorem number_formatting_least : signedNumeral (int32 0x80000000) = ascii "-2147483648".toList ∧
    PrintsWithin (convD (fun _ => 0xAA) 0 0x80000000) (fun _ => 0xAA) 0 36 (signedNumeral (int32 0x80000000)) :=
  ⟨by decide +kernel, (number_formatting 0x80000000 (by decide) (fun _ => 0xAA) 0).2.2.2.1⟩

end Kernel391
