import Kernel391.Lib.Numerals
import Kernel391.User.TypedLines

/-! `ece391hello.c` and `ece391counter.c`, which read one line each, and the number functions of
`ece391support.c`. These are the kernel's on the page of the program, a byte at a time. -/
namespace Kernel391
open Kernel391.Foundations
set_option autoImplicit false

/-! ## Numbers -/

section Functions
variable (lit : List UInt8 → ℕ) (fuel : ℕ)

/-- `ece391_strrev`. The locals of its loop are `beg` and `end`. -/
def ece391Strrev (s : ℕ) : User ℕ := do
  let len ← ece391Strlen fuel s
  let last := int32 len - 1
  if last ≤ 0 then pure s
  else
    loop .unfinished (fun b : ℤ × ℤ =>
      if b.1 < b.2 then do
        let tmp ← loadByte (uint32 (s + b.2))
        let c ← loadByte (uint32 (s + b.1))
        storeByte (uint32 (s + b.2)) c
        storeByte (uint32 (s + b.1)) tmp
        pure (.inl (b.1 + 1, b.2 - 1))
      else pure (.inr s)) fuel (0, last)

/-- `ece391_itoa`. The locals of its loop are `newbuf` and `newval`. -/
def ece391Itoa (value buf radix : ℕ) : User ℕ :=
  if value = 0 then do
    storeByte buf 0x30
    storeByte (buf + 1) 0
    pure buf
  else do
    let newbuf ← loop .unfinished (fun b : ℕ × ℕ =>
      if b.2 > 0 then do
        let c ← loadByte (lit lookup + b.2 % radix)
        storeByte b.1 c
        pure (.inl (b.1 + 1, b.2 / radix))
      else pure (.inr b.1)) fuel (buf, value)
    storeByte newbuf 0
    ece391Strrev fuel buf

end Functions

section Specs
variable {lit : List UInt8 → ℕ} {fuel buf value radix a n : ℕ} {l : List UInt8} {s : UserState}

theorem ends_strrev (hl : StringIn s.memory a l) (hfuel : l.length < fuel) :
    Ends (ece391Strrev fuel a) s fun r s' => r = a ∧ ∃ m, strrev fuel s.memory a = some m ∧
      s' = { s with memory := m } := by
  have hlen := hl.length_lt
  have hlast := (hl.inside l.length (Nat.le_refl _)).2
  simp only [vmemAddr] at hlast
  unfold ece391Strrev
  refine (ends_strlen hl hfuel).bind ?_
  rintro _ s ⟨rfl, rfl⟩
  have hlow : int32 l.length - 1 = (l.length : ℤ) - 1 := by rw [int32_of_lt hlen]
  unfold strrev
  rw [strlenAt_eq hl.holds hl.noNul hfuel, hlow]
  cases hd : l.length with
  | zero =>
    rw [if_pos (by omega), ends_pure]
    exact ⟨rfl, _, rfl, rfl⟩
  | succ d =>
    by_cases hone : d = 0
    · rw [if_pos (by omega), ends_pure, hone]
      exact ⟨rfl, _, rfl, rfl⟩
    rw [if_neg (by omega)]
    have hinside : ∀ i ≤ d, InPage (a + i) := fun i hi => hl.inside i (by omega)
    have hat : ∀ i ≤ d, uint32 ((a : ℤ) + (i : ℤ)) = a + i := by
      intro i hi
      have hpage := (hinside i hi).2
      simp only [vmemAddr] at hpage
      unfold uint32
      omega
    -- what is left of the loop is the rest of the kernel's, unless the ends have crossed
    refine ends_loop (I := fun n (b : ℤ × ℤ) t => ∃ m, t = { s with memory := m } ∧
      ((∃ beg k : ℕ, b = ((beg : ℤ), (beg : ℤ) + k) ∧ beg + k ≤ d ∧ n = k ∧
        strrevLoop a m beg k = strrevLoop a s.memory 0 d) ∨
        b.2 < b.1 ∧ n = 0 ∧ m = strrevLoop a s.memory 0 d)) ?_
      ⟨s.memory, rfl, Or.inl ⟨0, d, by simp, by omega, rfl, rfl⟩⟩ (show d < fuel by omega)
    rintro n b _ ⟨m, rfl, ⟨beg, _, rfl, hk, rfl, hrest⟩ | ⟨hcrossed, rfl, hm⟩⟩
    · by_cases hmore : 0 < n
      · have hlast' : uint32 ((a : ℤ) + ((beg : ℤ) + n)) = a + (beg + n) := by
          rw [← Nat.cast_add]
          exact hat _ hk
        rw [if_pos (by simp only; omega), hlast', hat beg (by omega)]
        simp only [ends_bind, ends_loadByte (hinside (beg + n) hk), ends_loadByte (hinside beg (by omega)),
          ends_storeByte (hinside (beg + n) hk), ends_storeByte (hinside beg (by omega)), ends_pure]
        obtain rfl | ⟨j, rfl⟩ : n = 1 ∨ ∃ j, n = j + 2 := by
          rcases n with _ | _ | j
          · omega
          · exact Or.inl rfl
          · exact Or.inr ⟨j, rfl⟩
        · exact ⟨0, by omega, _, rfl, Or.inr ⟨by simp only; omega, rfl, hrest⟩⟩
        · exact ⟨j, by omega, _, rfl, Or.inl ⟨beg + 1, j, by simp only [Prod.mk.injEq]; omega, by omega, rfl, hrest⟩⟩
      · obtain rfl : n = 0 := by omega
        rw [if_neg (by simp), ends_pure]
        exact ⟨rfl, _, rfl, congrArg (fun m => ({ s with memory := m } : UserState)) hrest⟩
    · rw [if_neg (by omega), ends_pure]
      exact ⟨rfl, _, rfl, by rw [hm]⟩

/-- **The numeral** of a number, laid down in the buffer. -/
theorem ends_itoa (hlit : StringIn s.memory (lit lookup) lookup) (hr : 2 ≤ radix) (hr' : radix ≤ 36)
    (hv : value < 2 ^ 32)
    (hin : ∀ i < 34, InPage (buf + i)) (hapart : lit lookup + lookup.length < buf ∨ buf + 34 ≤ lit lookup)
    (hfuel : 34 ≤ fuel) :
    Ends (ece391Itoa lit fuel value buf radix) s fun _ s' =>
      s' = { s with memory := overlay s.memory buf (numeral radix value ++ [0]) } := by
  unfold ece391Itoa
  by_cases hzero : value = 0
  · rw [if_pos hzero]
    have hfirst : InPage buf := hin 0 (by decide)
    simp only [ends_bind, ends_storeByte hfirst, ends_storeByte (hin 1 (by decide)), ends_pure]
    unfold numeral
    rw [if_pos hzero]
    show _ = { s with memory := overlay s.memory buf ([0x30] ++ [0]) }
    rw [overlay_append, overlay_single, overlay_single]
    rfl
  rw [if_neg hzero]
  have hlen := @digits_length radix value hr hv
  have hlookup : lookup.length = 36 := by decide
  -- the digits of what is left of the number are still to be laid down
  have hloop : Ends (loop .unfinished (fun b : ℕ × ℕ =>
      if b.2 > 0 then do
        let c ← loadByte (lit lookup + b.2 % radix)
        storeByte b.1 c
        pure (.inl (b.1 + 1, b.2 / radix))
      else pure (.inr b.1)) fuel (buf, value)) s fun r s' =>
        r = buf + (Nat.digits radix value).length ∧
        s' = { s with memory := overlay s.memory buf ((Nat.digits radix value).map digitChar) } := by
    refine ends_loop (I := fun n b t => ∃ ds, Nat.digits radix value = ds ++ Nat.digits radix b.2 ∧
      b.1 = buf + ds.length ∧
      n = (Nat.digits radix b.2).length ∧ t = { s with memory := overlay s.memory buf (ds.map digitChar) }) ?_
      ⟨[], rfl, rfl, rfl, by rw [List.map_nil, overlay_nil]⟩ (show (Nat.digits radix value).length < fuel by omega)
    rintro n ⟨newbuf, newval⟩ _ ⟨ds, hds, hnew, rfl, rfl⟩
    simp only at hds hnew ⊢
    have hcount := congrArg List.length hds
    rw [List.length_append] at hcount
    by_cases hpos : newval > 0
    · have hdigits := Nat.digits_def' (show 1 < radix by omega) hpos
      rw [hdigits, List.length_cons] at hcount
      have hmod : newval % radix < 36 := (Nat.mod_lt _ (by omega)).trans_le hr'
      have hchar : overlay s.memory buf (ds.map digitChar) (lit lookup + newval % radix) = digitChar
        (newval % radix) := by
        have hstring := hlit.getD_eq (show newval % radix ≤ lookup.length by omega)
        unfold digitChar
        rw [hstring]
        rcases hapart with hlow | hhigh
        · exact overlay_of_lt _ _ (by omega)
        · exact overlay_of_ge _ _ (by rw [List.length_map]; omega)
      rw [if_pos hpos, hnew]
      simp only [ends_bind, ends_loadByte (hlit.inside _ (show newval % radix ≤ lookup.length by omega)),
        ends_storeByte (hin ds.length (by omega)), hchar, ends_pure]
      refine ⟨_, ?_, ds ++ [newval % radix], ?_, ?_, rfl, ?_⟩
      · rw [hdigits, List.length_cons]
        exact Nat.lt_succ_self _
      · rw [hds, hdigits, List.append_assoc]
        rfl
      · rw [List.length_append, List.length_singleton, Nat.add_assoc]
      · rw [List.map_append, overlay_append, List.length_map, List.map_singleton, overlay_single]
    · obtain rfl : newval = 0 := Nat.eq_zero_of_not_pos hpos
      rw [Nat.digits_zero, List.append_nil] at hds
      rw [if_neg hpos, ends_pure, hds]
      exact ⟨hnew, rfl⟩
  have hnul : 0 ∉ (Nat.digits radix value).map digitChar := by
    have hnul := @numeral_noNul radix value hr hr'
    unfold numeral at hnul
    rwa [if_neg hzero, List.mem_reverse] at hnul
  refine hloop.bind ?_
  rintro _ _ ⟨rfl, rfl⟩
  have hterminated : Function.update (overlay s.memory buf ((Nat.digits radix value).map digitChar))
      (buf + (Nat.digits radix value).length) 0 = overlay s.memory buf
        ((Nat.digits radix value).map digitChar ++ [0]) := by
    rw [overlay_append, overlay_single, List.length_map]
  simp only [ends_bind, ends_storeByte (hin _ (show (Nat.digits radix value).length < 34 by omega)), hterminated]
  have hstring := @stringIn_overlay s.memory buf _ hnul fun i hi => hin i (by rw [List.length_map] at hi; omega)
  refine (ends_strrev hstring (by rw [List.length_map]; omega)).mono ?_
  rintro _ _ ⟨-, m, hm, rfl⟩
  rw [strrev_eq hnul (by rw [List.length_map]; omega)] at hm
  rw [← Option.some.inj hm]
  unfold numeral
  rw [if_neg hzero]

end Specs

/-! ## The programs -/

/-- The line behind what a read of the standard input returned. -/
def terminateLine (buf : ℕ) (cnt : ℤ) : User Unit := storeByte (uint32 (buf + cnt)) 0

namespace Hello

def question : List UInt8 := ascii "Hi, what's your name? ".toList
def readFailed : List UInt8 := ascii "Can't read name from keyboard.\n".toList
def greeting : List UInt8 := ascii "Hello, ".toList

def texts : List (List UInt8) := [question, readFailed, greeting]

def main (h : Host) (lit : List UInt8 → ℕ) (buf fuel : ℕ) : User ℤ := do
  ece391Fdputs h fuel 1 (lit question)
  let cnt ← ece391Read h 0 buf 1023
  if cnt = -1 then do
    ece391Fdputs h fuel 1 (lit readFailed)
    pure 3
  else do
    terminateLine buf cnt
    ece391Fdputs h fuel 1 (lit greeting)
    ece391Fdputs h fuel 1 buf
    pure 0

end Hello

namespace Counter

def question : List UInt8 := ascii "Enter the Test Number: (0): 100, (1): 10000, (2): 100000\n".toList
def readFailed : List UInt8 := ascii "Can't read the number from keyboard.\n".toList
def wrongChoice : List UInt8 := ascii "Wrong Choice!\n".toList
def newline : List UInt8 := [0x0A]

def texts : List (List UInt8) := [question, readFailed, wrongChoice, newline, lookup]

section Main
variable (h : Host) (lit : List UInt8 → ℕ) (buf fuel : ℕ)

/-- The condition of the `if` behind the read. -/
def wrong : User Bool := do
  let len ← ece391Strlen fuel buf
  if len > 2 then pure true
  else do
    let len ← ece391Strlen fuel buf
    if len = 2 then do
      let c ← loadByte buf
      if c < 0x30 then pure true
      else do
        let c ← loadByte buf
        pure (c > 0x32)
    else pure false

/-- The `switch`. -/
def maxOf (c : UInt8) : ℕ := if c = 0x30 then 100 else if c = 0x31 then 10000 else if c = 0x32 then 100000 else 0

def round (max i : ℕ) : User (ℕ ⊕ ℤ) :=
  if i < max then do
    let _ ← ece391Itoa lit fuel (i + 1) buf 10
    ece391Fdputs h fuel 1 buf
    ece391Fdputs h fuel 1 (lit newline)
    pure (.inl (i + 1))
  else pure (.inr 0)

def main : User ℤ := do
  ece391Fdputs h fuel 1 (lit question)
  let cnt ← ece391Read h 0 buf 1023
  if cnt = -1 then do
    ece391Fdputs h fuel 1 (lit readFailed)
    pure 3
  else do
    terminateLine buf cnt
    if ← wrong buf fuel then do
      ece391Fdputs h fuel 1 (lit wrongChoice)
      pure 0
    else do
      let c ← loadByte buf
      loop .unfinished (round h lit buf fuel (maxOf c)) fuel 0

end Main

/-- The numbers up to `n`, one on a line. -/
def numbers (n : ℕ) : List UInt8 := (List.range n).flatMap fun i => numeral 10 (i + 1) ++ [0x0A]

def answer (line : List UInt8) : List UInt8 :=
  match line with
  | [] => []
  | [c] => if c < 0x30 ∨ c > 0x32 then wrongChoice else numbers (maxOf c)
  | _ => wrongChoice

end Counter

section Programs
variable {h : Host} {p buf fuel : ℕ} {lit : List UInt8 → ℕ} {texts : List (List UInt8)} {s : UserState}
  {line : List UInt8}

/-- **A line is there**, with its newline, as a string. -/
theorem ends_typed {f : User ℤ} {g : ℤ → User ℤ} (hs : s.Running p) (hsp : h.Spares p)
    (hlay : Layout lit texts [(buf, 1024)] s.memory) (htypes : h.Types p s.calls line) {Q : ℤ → UserState → Prop}
    (hg : ∀ s', s'.Running p → Layout lit texts [(buf, 1024)] s'.memory → s'.printed = s.printed →
      StringIn s'.memory buf (line ++ [0x0A]) → Ends (g (line.length + 1 : ℕ)) s' Q) :
    Ends (ece391Read h 0 buf 1023 >>= fun cnt => if cnt = -1 then f
      else terminateLine buf cnt >>= fun _ => g cnt) s Q := by
  have hin : ∀ j < 1024, InPage (buf + j) := hlay.bufs (buf, 1024) (List.mem_singleton_self _)
  have hlen := htypes.length
  have hbytes := @lineBytes_length 1023 line (by omega)
  obtain ⟨-, htake, -⟩ := @lineBytes_take 1023 line
  have hpage := hin 0 (by decide)
  have hend := hin (line.length + 1) (by omega)
  simp only [InPage, programAddr, vmemAddr] at hpage hend
  have hplace : uint32 ((buf : ℤ) + ((line.length + 1 : ℕ) : ℤ)) = buf + (line.length + 1) := by
    unfold uint32
    omega
  refine (ends_read_line hs hsp htypes (by omega) (by decide) (by decide)).bind ?_
  rintro _ s₁ ⟨rfl, h₁⟩
  rw [if_neg (by omega)]
  unfold terminateLine
  rw [hplace]
  simp only [ends_bind, ends_storeByte (hin (line.length + 1) (by omega)), h₁.memory]
  have hnul : 0 ∉ (lineBytes 1023 line).take (line.length + 1) := by
    rw [htake, List.mem_append, not_or]
    exact ⟨htypes.noNul, by decide⟩
  have hstring := @stringIn_cut s.memory buf (lineBytes 1023 line) (line.length + 1) (by omega) hnul fun i hi =>
    hin i (by omega)
  rw [htake] at hstring
  refine hg _ ⟨h₁.running.serves, h₁.running.stdin, h₁.running.stdout⟩ ?_ h₁.printed hstring
  exact hlay.congr (sameOutside_cut (List.mem_singleton_self _) (Nat.le_refl _) (by simp only; omega) (by omega))

end Programs

/-- **`hello`** greets the line that was typed. -/
theorem hello_output (h : Host) (p : ℕ) (lit : List UInt8 → ℕ) (buf : ℕ) (s : UserState)
    (st : Starts h p lit Hello.texts [(buf, 1024)] s) (line : List UInt8) (htypes : h.Types p (s.calls + 1) line) :
    ∀ fuel ≥ 129, Ends (Hello.main h lit buf fuel) s fun status s' =>
      status = 0 ∧ s'.printed = s.printed ++ Hello.question ++ Hello.greeting ++ line ++ [0x0A] := by
  intro fuel hfuel
  have hlen := htypes.length
  have hsp := st.spares
  have hall : ∀ l ∈ Hello.texts, l.length < 129 := by decide
  unfold Hello.main
  refine (ends_puts st.running hsp (st.layout.strings Hello.question (by decide))
    ((hall _ (by decide)).trans_le hfuel)).bind ?_
  rintro _ s₁ ⟨h₁, hcalls⟩
  refine ends_typed h₁.running hsp (h₁.memory ▸ st.layout) (hcalls ▸ htypes) fun s₂ hrun hlay hprinted hstring => ?_
  refine (ends_fdputs hrun hsp (hlay.strings Hello.greeting (by decide)) ((hall _ (by decide)).trans_le hfuel)).bind ?_
  rintro _ s₃ h₃
  refine (ends_fdputs h₃.running hsp (h₃.memory ▸ hstring)
    (by rw [List.length_append, List.length_singleton]; omega)).bind ?_
  rintro _ s₄ h₄
  refine (ends_pure _).mpr ⟨rfl, ?_⟩
  rw [h₄.printed, h₃.printed, hprinted, h₁.printed]
  simp only [List.append_assoc]

section Counting
variable {h : Host} {p buf fuel : ℕ} {lit : List UInt8 → ℕ} {s : UserState} {line : List UInt8}

def Counter.isWrong : List UInt8 → Bool
  | [] => false
  | [c] => c < 0x30 || c > 0x32
  | _ => true

theorem Counter.answer_wrong (hwrong : Counter.isWrong line = true) : Counter.answer line = Counter.wrongChoice := by
  cases line with
  | nil => cases hwrong
  | cons c rest =>
    cases rest with
    | nil =>
      unfold Counter.isWrong at hwrong
      simp only [Bool.or_eq_true, decide_eq_true_eq] at hwrong
      exact if_pos hwrong
    | cons c' rest => rfl

/-- The other lines name their number by what the program finds first in its buffer. -/
theorem Counter.answer_number (hwrong : ¬ Counter.isWrong line = true) :
    Counter.answer line = Counter.numbers (Counter.maxOf ((line ++ [(0x0A : UInt8)]).getD 0 0)) := by
  cases line with
  | nil => rfl
  | cons c rest =>
    cases rest with
    | nil =>
      unfold Counter.isWrong at hwrong
      simp only [Bool.or_eq_true, decide_eq_true_eq] at hwrong
      exact if_neg hwrong
    | cons c' rest => exact absurd rfl hwrong

theorem Counter.ends_wrong (hl : StringIn s.memory buf (line ++ [0x0A])) (hfuel : line.length + 1 < fuel) :
    Ends (Counter.wrong buf fuel) s fun r s' => r = Counter.isWrong line ∧ s' = s := by
  have hlength : (line ++ [(0x0A : UInt8)]).length = line.length + 1 := by simp
  have hstrlen : Ends (ece391Strlen fuel buf) s fun r s' => r = line.length + 1 ∧ s' = s := by
    rw [← hlength]
    exact ends_strlen hl (by omega)
  unfold Counter.wrong
  refine hstrlen.bind ?_
  rintro _ s ⟨rfl, rfl⟩
  match line with
  | [] =>
    rw [if_neg (by simp)]
    refine hstrlen.bind ?_
    rintro _ s ⟨rfl, rfl⟩
    rw [if_neg (by simp), ends_pure]
    exact ⟨rfl, rfl⟩
  | [c] =>
    have hchar := hl.getD_eq (Nat.zero_le _)
    rw [Nat.add_zero] at hchar
    rw [if_neg (by simp)]
    refine hstrlen.bind ?_
    rintro _ s ⟨rfl, rfl⟩
    rw [if_pos (by simp)]
    simp only [ends_bind, ends_loadByte hl.inPage, ← hchar]
    unfold Counter.isWrong
    by_cases hlow : c < 0x30
    · rw [if_pos (show ([c] ++ [(0x0A : UInt8)]).getD 0 0 < 0x30 from hlow), ends_pure]
      simp [hlow]
    · rw [if_neg (show ¬ ([c] ++ [(0x0A : UInt8)]).getD 0 0 < 0x30 from hlow)]
      simp only [ends_bind, ends_loadByte hl.inPage, ← hchar, ends_pure]
      simp [hlow]
  | c :: c' :: rest =>
    rw [if_pos (by simp), ends_pure]
    exact ⟨rfl, rfl⟩

theorem Counter.ends_round (hsp : h.Spares p) (hs : s.Running p)
    (hlay : Layout lit Counter.texts [(buf, 1024)] s.memory) {i max : ℕ}
    (hi : i < max) (hmax : max ≤ 100000) (hfuel : 34 ≤ fuel) : Ends (Counter.round h lit buf fuel max i) s fun o s' =>
      o = .inl (i + 1) ∧ s'.Running p ∧ Layout lit Counter.texts [(buf, 1024)] s'.memory ∧
      s'.printed = s.printed ++ (numeral 10 (i + 1) ++ [0x0A]) := by
  have hin : ∀ j < 1024, InPage (buf + j) := hlay.bufs (buf, 1024) (List.mem_singleton_self _)
  have hlen := @numeral_length 10 (i + 1) (by decide) (by omega)
  have hapart := hlay.apart lookup (by decide) (buf, 1024) (List.mem_singleton_self _)
  simp only at hapart
  unfold Counter.round
  rw [if_pos hi]
  refine (@ends_itoa lit fuel buf (i + 1) 10 s (hlay.strings lookup (by decide)) (by decide) (by decide) (by omega)
    (fun j hj => hin j (by omega))
    (by omega) hfuel).bind ?_
  rintro _ _ rfl
  have hsame : SameOutside [(buf, 1024)] s.memory (overlay s.memory buf (numeral 10 (i + 1) ++ [0])) :=
    sameOutside_overlay (List.mem_singleton_self _) (Nat.le_refl _)
      (by rw [List.length_append, List.length_singleton]; simp only; omega)
  have hstring := @stringIn_overlay s.memory buf _ (@numeral_noNul 10 (i + 1) (by decide) (by decide)) fun j hj =>
    hin j (by omega)
  have hrun : ({ s with memory := overlay s.memory buf (numeral 10 (i + 1) ++ [0]) } : UserState).Running p :=
    ⟨hs.serves, hs.stdin, hs.stdout⟩
  refine (ends_fdputs hrun hsp hstring (by omega)).bind ?_
  rintro _ s₂ h₂
  have hlay₂ : Layout lit Counter.texts [(buf, 1024)] s₂.memory := h₂.memory ▸ hlay.congr hsame
  refine (ends_fdputs h₂.running hsp (hlay₂.strings Counter.newline (by decide))
    (lt_of_lt_of_le (by decide) hfuel)).bind ?_
  rintro _ s₃ h₃
  refine (ends_pure _).mpr ⟨rfl, h₃.running, h₃.memory ▸ hlay₂, ?_⟩
  rw [h₃.printed, h₂.printed, List.append_assoc]
  rfl

end Counting

/-- **`counter`** refuses a line, or counts up to the number it stands for. -/
theorem counter_output (h : Host) (p : ℕ) (lit : List UInt8 → ℕ) (buf : ℕ) (s : UserState)
    (st : Starts h p lit Counter.texts [(buf, 1024)] s) (line : List UInt8) (htypes : h.Types p (s.calls + 1) line) :
    ∀ fuel > 100000, Ends (Counter.main h lit buf fuel) s fun status s' =>
      status = 0 ∧ s'.printed = s.printed ++ Counter.question ++ Counter.answer line := by
  intro fuel hfuel
  have hlen := htypes.length
  have hsp := st.spares
  have hall : ∀ l ∈ Counter.texts, l.length < 100 := by decide
  have hshort : ∀ l ∈ Counter.texts, l.length < fuel := fun l hl => (hall l hl).trans (by omega)
  unfold Counter.main
  refine (ends_puts st.running hsp (st.layout.strings Counter.question (by decide)) (hshort _ (by decide))).bind ?_
  rintro _ s₁ ⟨h₁, hcalls⟩
  refine ends_typed h₁.running hsp (h₁.memory ▸ st.layout) (hcalls ▸ htypes) fun s₂ hrun hlay hprinted hstring => ?_
  have hprinted₂ : s₂.printed = s.printed ++ Counter.question := hprinted.trans h₁.printed
  refine (Counter.ends_wrong hstring (by omega)).bind ?_
  rintro r s₂ ⟨rfl, rfl⟩
  by_cases hwrong : Counter.isWrong line = true
  · rw [if_pos hwrong]
    refine (ends_fdputs hrun hsp (hlay.strings Counter.wrongChoice (by decide)) (hshort _ (by decide))).bind ?_
    rintro _ s₃ h₃
    refine (ends_pure _).mpr ⟨rfl, ?_⟩
    rw [h₃.printed, hprinted₂, Counter.answer_wrong hwrong]
  · rw [if_neg hwrong]
    have hchar := hstring.getD_eq (Nat.zero_le _)
    rw [Nat.add_zero] at hchar
    simp only [ends_bind, ends_loadByte hstring.inPage, ← hchar]
    have hanswer := Counter.answer_number hwrong
    have hmax : Counter.maxOf ((line ++ [(0x0A : UInt8)]).getD 0 0) ≤ 100000 := by
      unfold Counter.maxOf
      repeat' split
      all_goals omega
    generalize Counter.maxOf ((line ++ [(0x0A : UInt8)]).getD 0 0) = max at hanswer hmax
    rw [hanswer]
    refine ends_loop (I := fun n i t => ∃ _ : i ≤ max, n = max - i ∧ t.Running p ∧
      Layout lit Counter.texts [(buf, 1024)] t.memory ∧
      t.printed = s.printed ++ Counter.question ++ Counter.numbers i) ?_
      ⟨Nat.zero_le _, rfl, hrun, hlay, by rw [hprinted₂]; exact (List.append_nil _).symm⟩ (show max - 0 < fuel by omega)
    rintro n i t ⟨hi, rfl, hrun', hlay', hprinted'⟩
    by_cases hmore : i < max
    · refine (Counter.ends_round hsp hrun' hlay' hmore hmax (by omega)).mono ?_
      rintro o s₃ ⟨rfl, hrun₃, hlay₃, hprinted₃⟩
      refine ⟨max - (i + 1), by omega, hmore, rfl, hrun₃, hlay₃, ?_⟩
      rw [hprinted₃, hprinted', List.append_assoc]
      unfold Counter.numbers
      rw [List.range_succ, List.flatMap_append, List.flatMap_singleton]
    · obtain rfl : i = max := by omega
      unfold Counter.round
      rw [if_neg hmore, ends_pure]
      exact ⟨rfl, hprinted'⟩

/-- A hundred numbers. -/
theorem counter_output_hundred :
    Ends (Counter.main (Host.typing Image.small fun _ => [0x30]) (literalAt Counter.texts) bufferAt 100001)
    (UserState.start [] Counter.texts) fun status s' => status = 0 ∧
      s'.printed = Counter.question ++ Counter.numbers 100 := by
  have hstr : ∀ l ∈ Counter.texts, StringIn (UserState.start [] Counter.texts).memory
    (literalAt Counter.texts l) l := by decide +kernel
  have hstarts :=
    @start_starts Image.small Image.small_wellFormed small_special Counter.texts [(bufferAt, 1024)] [] hstr
    (by decide +kernel) (by decide)
  exact counter_output (Host.typing Image.small fun _ => [0x30]) 0 (literalAt Counter.texts) bufferAt
    (UserState.start [] Counter.texts)
    (typing_starts hstarts) [0x30] (typing_types (by decide) (by decide)) 100001 (by decide)

end Kernel391
