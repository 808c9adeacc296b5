import Kernel391.Console.Console
import Kernel391.Lib.Numerals

/-! `printf` over its format, byte by byte. The end of the format is tested in the outer loop only, so a
conversion that the end cuts short takes the terminator for its specifier and goes on behind it. -/
namespace Kernel391
open Kernel391.Foundations
set_option autoImplicit false

/-- What a call is given: the format, the argument words, the strings they point to, and what the local
buffer holds when an argument is converted. -/
structure PrintfCall where
  format : ℕ → UInt8
  args : ℕ → UInt32
  string : UInt32 → CString
  locals : ℕ → ℕ → UInt8

/-- How far a call has come: the offset of `buf`, the words `esp` has passed, the characters printed, the offsets
read. -/
structure PrintfState where
  buf : ℕ
  esp : ℕ
  out : List UInt8
  reads : List ℕ

namespace PrintfCall
variable (c : PrintfCall)

/-- The inner `switch`, `#` apart: the characters printed and the words passed. -/
def convert (alternate : Bool) (b : UInt8) (esp : ℕ) : Option (List UInt8 × ℕ) :=
  if b = 0x25 then some ([0x25], 0)
  else if b = 0x78 then (convX (c.locals esp) 0 (c.args esp).toNat alternate).map fun r => (r.2, 1)
  else if b = 0x75 then (convU (c.locals esp) 0 (c.args esp).toNat).map fun r => (r.2, 1)
  else if b = 0x64 then (convD (c.locals esp) 0 (c.args esp).toNat).map fun r => (r.2, 1)
  else if b = 0x63 then some ([(c.args esp).toUInt8], 1)
  else if b = 0x73 then some ((c.string (c.args esp)).chars, 1)
  else some ([], 0)

/-- The loops of `printf`: outside a conversion, or inside one with its `alternate`. The number counts the bytes
read. -/
def printfLoop : ℕ → Option Bool → PrintfState → Option PrintfState
  | 0, _, _ => none
  | n + 1, none, s =>
    let b := c.format s.buf
    let reads := s.reads ++ [s.buf]
    if b = 0 then some { s with reads := reads }
    else if b = 0x25 then printfLoop n (some false) { s with buf := s.buf + 1, reads := reads }
    else printfLoop n none { s with buf := s.buf + 1, out := s.out ++ [b], reads := reads }
  | n + 1, some alternate, s =>
    let b := c.format s.buf
    let reads := s.reads ++ [s.buf]
    if b = 0x23 then printfLoop n (some true) { s with buf := s.buf + 1, reads := reads }
    else
      match c.convert alternate b s.esp with
      | none => none
      | some (out, words) => printfLoop n none ⟨s.buf + 1, s.esp + words, s.out ++ out, reads⟩

def printf (rounds : ℕ) : Option PrintfState := c.printfLoop rounds none ⟨0, 0, [], []⟩

end PrintfCall

/-! ## What a format says -/

def consuming : List UInt8 := ascii "xudcs".toList

/-- The argument words of a format; the flag tells whether it starts inside a conversion. -/
def consumed : Bool → List UInt8 → ℕ
  | _, [] => 0
  | false, b :: l => consumed (b = 0x25) l
  | true, b :: l => (if b ∈ consuming then 1 else 0) + consumed (b = 0x23) l

/-- The format ends inside a conversion. -/
def cutShort : Bool → List UInt8 → Bool
  | inside, [] => inside
  | false, b :: l => cutShort (b = 0x25) l
  | true, b :: l => cutShort (b = 0x23) l

def PrintfCall.conversion (c : PrintfCall) (alternate : Bool) (b : UInt8) (esp : ℕ) : List UInt8 :=
  if b = 0x25 then [0x25]
  else if b = 0x78 then if alternate then paddedNumeral (c.args esp).toNat else numeral 16 (c.args esp).toNat
  else if b = 0x75 then numeral 10 (c.args esp).toNat
  else if b = 0x64 then signedNumeral (int32 (c.args esp).toNat)
  else if b = 0x63 then [(c.args esp).toUInt8]
  else if b = 0x73 then (c.string (c.args esp)).chars
  else []

def PrintfCall.printed (c : PrintfCall) : Option Bool → ℕ → List UInt8 → List UInt8
  | _, _, [] => []
  | none, esp, b :: l => if b = 0x25 then c.printed (some false) esp l else b :: c.printed none esp l
  | some alternate, esp, b :: l =>
    if b = 0x23 then c.printed (some true) esp l
    else c.conversion alternate b esp ++ c.printed none (esp + if b ∈ consuming then 1 else 0) l

/-- The call ends, has read the format to its terminator and no further, passed one word for each specifier
that takes one, and returns the length of the format. -/
def ConsumesFormat (c : PrintfCall) (text : List UInt8) : Prop :=
  ∃ rounds r, c.printf rounds = some r ∧ (∀ j ∈ r.reads, j ≤ text.length) ∧ r.esp = consumed false text ∧
    r.buf = text.length

/-! ## One byte -/

section Bytes
variable {c : PrintfCall} {n : ℕ} {mode : Option Bool} {s r : PrintfState} {b : UInt8} {l : List UInt8} {esp : ℕ}

theorem PrintsWithin.map {o : Option ((ℕ → UInt8) × List UInt8)} {m : ℕ → UInt8} {buf size : ℕ} {out : List UInt8}
    (h : PrintsWithin o m buf size out) : (o.map fun r => (r.2, 1)) = some (out, 1) := by
  obtain ⟨m', ho, -⟩ := h
  rw [ho]
  rfl

theorem convert_eq (c : PrintfCall) (alternate : Bool) (b : UInt8) (esp : ℕ) :
    c.convert alternate b esp = some (c.conversion alternate b esp, if b ∈ consuming then 1 else 0) := by
  have hword := (c.args esp).toNat_lt
  have hin : b ∈ consuming ↔ b = 0x78 ∨ b = 0x75 ∨ b = 0x64 ∨ b = 0x63 ∨ b = 0x73 := by
    unfold consuming ascii
    simp
  unfold PrintfCall.convert PrintfCall.conversion
  by_cases hpercent : b = 0x25
  · subst hpercent
    rfl
  rw [if_neg hpercent, if_neg hpercent]
  by_cases hx : b = 0x78
  · subst hx
    have hone : (if (0x78 : UInt8) ∈ consuming then 1 else 0) = 1 := by decide
    rw [if_pos rfl, if_pos rfl, hone]
    cases alternate with
    | false => exact (@printNumeral_prints _ 0 _ 64 16 (by decide) (by decide) hword (by decide)).map
    | true => exact (convX_padded hword).map
  rw [if_neg hx, if_neg hx]
  by_cases hu : b = 0x75
  · subst hu
    rw [if_pos rfl, if_pos rfl, if_pos (by decide)]
    exact (@printNumeral_prints _ 0 _ 36 10 (by decide) (by decide) hword (by decide)).map
  rw [if_neg hu, if_neg hu]
  by_cases hd : b = 0x64
  · subst hd
    rw [if_pos rfl, if_pos rfl, if_pos (by decide)]
    exact (convD_prints hword).map
  rw [if_neg hd, if_neg hd]
  by_cases hc : b = 0x63
  · subst hc
    rfl
  rw [if_neg hc, if_neg hc]
  by_cases hs : b = 0x73
  · subst hs
    rfl
  · rw [if_neg hs, if_neg hs, if_neg]
    rw [hin]
    simp [hx, hu, hd, hc, hs]

theorem printfLoop_more (h : c.printfLoop n mode s = some r) : c.printfLoop (n + 1) mode s = some r := by
  induction n generalizing mode s with
  | zero => cases h
  | succ n ih =>
    cases mode with
    | none =>
      rw [PrintfCall.printfLoop] at h ⊢
      split at h
      · next hz => rwa [if_pos hz]
      · next hz =>
        rw [if_neg hz]
        split at h
        · next hp => rw [if_pos hp]; exact ih h
        · next hp => rw [if_neg hp]; exact ih h
    | some alternate =>
      rw [PrintfCall.printfLoop] at h ⊢
      simp only [convert_eq] at h ⊢
      split at h
      · next hp => rw [if_pos hp]; exact ih h
      · next hp => rw [if_neg hp]; exact ih h

theorem printfLoop_mono {n' : ℕ} (hn : n ≤ n') (h : c.printfLoop n mode s = some r) :
    c.printfLoop n' mode s = some r := by
  induction n', hn using Nat.le_induction with
  | base => exact h
  | succ n' _ ih => exact printfLoop_more ih

theorem printfLoop_reads (h : c.printfLoop n mode s = some r) : s.buf ∈ r.reads ∧ ∀ j ∈ s.reads, j ∈ r.reads := by
  induction n generalizing mode s with
  | zero => cases h
  | succ n ih =>
    have hnext : ∀ {mode'} {s' : PrintfState}, c.printfLoop n mode' s' = some r → s'.reads = s.reads ++ [s.buf] →
        s.buf ∈ r.reads ∧ ∀ j ∈ s.reads, j ∈ r.reads := by
      intro mode' s' h' hreads
      have hkept := (ih h').2
      rw [hreads] at hkept
      exact ⟨hkept _ (List.mem_append_right _ (List.mem_singleton.mpr rfl)), fun j hj =>
        hkept j (List.mem_append_left _ hj)⟩
    cases mode with
    | none =>
      rw [PrintfCall.printfLoop] at h
      split at h
      · cases h
        exact ⟨List.mem_append_right _ (List.mem_singleton.mpr rfl), fun j hj => List.mem_append_left _ hj⟩
      · split at h
        · exact hnext h rfl
        · exact hnext h rfl
    | some alternate =>
      rw [PrintfCall.printfLoop] at h
      simp only [convert_eq] at h
      split at h
      · exact hnext h rfl
      · exact hnext h rfl

end Bytes

/-! ## The whole format -/

section Format
variable {c : PrintfCall} {mode : Option Bool} {s : PrintfState} {l text : List UInt8}

/-- What the loops have done when they have come through a piece of the format. -/
structure Through (c : PrintfCall) (mode : Option Bool) (s : PrintfState) (l : List UInt8) (mode' : Option Bool)
    (s' : PrintfState) : Prop where
  run : ∀ n, c.printfLoop (n + l.length) mode s = c.printfLoop n mode' s'
  inside : mode'.isSome = cutShort mode.isSome l
  buf : s'.buf = s.buf + l.length
  esp : s'.esp = s.esp + consumed mode.isSome l
  out : s'.out = s.out ++ c.printed mode s.esp l
  reads : ∀ j ∈ s'.reads, j ∈ s.reads ∨ j < s.buf + l.length

theorem through_format (h : Holds c.format s.buf l) (hl : 0 ∉ l) : ∃ mode' s', Through c mode s l mode' s' := by
  induction l generalizing mode s with
  | nil =>
    refine ⟨mode, s, fun n => rfl, rfl, rfl, rfl, ?_, fun j hj => Or.inl hj⟩
    unfold PrintfCall.printed
    exact (List.append_nil _).symm
  | cons b l ih =>
    obtain ⟨hb, htail⟩ := h.tail
    have hb0 : b ≠ 0 := fun hx => hl (hx ▸ List.mem_cons_self ..)
    have hl' : 0 ∉ l := fun hx => hl (List.mem_cons_of_mem _ hx)
    -- the rest goes on from the state the byte leaves
    have hstep : ∀ (mode₁ : Option Bool) (s₁ : PrintfState),
      (∀ n, c.printfLoop (n + 1) mode s = c.printfLoop n mode₁ s₁) →
        s₁.buf = s.buf + 1 → s₁.reads = s.reads ++ [s.buf] → cutShort mode.isSome (b :: l) = cutShort mode₁.isSome l →
        s.esp + consumed mode.isSome (b :: l) = s₁.esp + consumed mode₁.isSome l →
        s.out ++ c.printed mode s.esp (b :: l) = s₁.out ++ c.printed mode₁ s₁.esp l →
        ∃ mode' s', Through c mode s (b :: l) mode' s' := by
      intro mode₁ s₁ hrun hbuf hreads hcut hesp hout
      obtain ⟨mode', s', hthrough⟩ := @ih mode₁ s₁ (by rw [hbuf]; exact htail) hl'
      refine ⟨mode', s', fun n => ?_, hthrough.inside.trans hcut.symm, ?_, hthrough.esp.trans hesp.symm,
        hthrough.out.trans hout.symm,
        fun j hj => ?_⟩
      · rw [List.length_cons, ← Nat.add_assoc, hrun, hthrough.run]
      · rw [hthrough.buf, hbuf, List.length_cons]
        omega
      · rw [List.length_cons]
        rcases hthrough.reads j hj with hold | hlt
        · rw [hreads] at hold
          rcases List.mem_append.mp hold with hold | hnew
          · exact Or.inl hold
          · rw [List.mem_singleton] at hnew
            right
            omega
        · right
          omega
    cases mode with
    | none =>
      by_cases hpercent : b = 0x25
      · refine hstep (some false) ⟨s.buf + 1, s.esp, s.out, s.reads ++ [s.buf]⟩ (fun n => ?_) rfl rfl ?_ ?_ ?_
        · rw [PrintfCall.printfLoop]
          simp only [hb, if_neg hb0, if_pos hpercent]
        · simp [cutShort, hpercent]
        · simp [consumed, hpercent]
        · simp [PrintfCall.printed, hpercent]
      · refine hstep none ⟨s.buf + 1, s.esp, s.out ++ [b], s.reads ++ [s.buf]⟩ (fun n => ?_) rfl rfl ?_ ?_ ?_
        · rw [PrintfCall.printfLoop]
          simp only [hb, if_neg hb0, if_neg hpercent]
        · simp [cutShort, hpercent]
        · simp [consumed, hpercent]
        · simp [PrintfCall.printed, hpercent]
    | some alternate =>
      by_cases hsharp : b = 0x23
      · refine hstep (some true) ⟨s.buf + 1, s.esp, s.out, s.reads ++ [s.buf]⟩ (fun n => ?_) rfl rfl ?_ ?_ ?_
        · rw [PrintfCall.printfLoop]
          simp only [hb, if_pos hsharp]
        · simp [cutShort, hsharp]
        · have hnot : b ∉ consuming := by
            rw [hsharp]
            decide
          simp [consumed, hsharp, hsharp ▸ hnot]
        · simp [PrintfCall.printed, hsharp]
      · refine hstep none ⟨s.buf + 1, s.esp + (if b ∈ consuming then 1 else 0), s.out ++ c.conversion alternate b s.esp,
          s.reads ++ [s.buf]⟩ (fun n => ?_) rfl rfl ?_ ?_ ?_
        · rw [PrintfCall.printfLoop]
          simp only [hb, if_neg hsharp, convert_eq]
        · simp [cutShort, hsharp]
        · simp [consumed, hsharp, Nat.add_assoc]
        · simp [PrintfCall.printed, hsharp]

theorem printf_ends (hnul : 0 ∉ text) (h : Holds c.format 0 text) (hwhole : cutShort false text = false) :
    ∃ r, c.printf (text.length + 1) = some r ∧ (∀ j ∈ r.reads, j ≤ text.length) ∧ r.esp = consumed false text ∧
      r.buf = text.length ∧ r.out = c.printed none 0 text := by
  obtain ⟨mode', s', hthrough⟩ := @through_format c none ⟨0, 0, [], []⟩ text h hnul
  have hmode : mode' = none :=
    Option.isSome_eq_false_iff.mp (hthrough.inside.trans hwhole) |> Option.isNone_iff_eq_none.mp
  have hbuf : s'.buf = text.length := hthrough.buf.trans (Nat.zero_add _)
  have hend : c.format s'.buf = 0 := by
    have hterminator := h.nul
    rwa [Nat.zero_add, ← hbuf] at hterminator
  have hrun := hthrough.run 1
  rw [hmode, PrintfCall.printfLoop] at hrun
  simp only [if_pos hend] at hrun
  rw [Nat.add_comm] at hrun
  refine ⟨_, hrun, fun j hj => ?_, hthrough.esp.trans (Nat.zero_add _), hbuf, hthrough.out⟩
  rcases List.mem_append.mp hj with hold | hnew
  · rcases hthrough.reads j hold with hnil | hlt
    · cases hnil
    · rw [Nat.zero_add] at hlt
      exact Nat.le_of_lt hlt
  · rw [List.mem_singleton.mp hnew, hbuf]

/-- A format that is cut short: a call that ends has read the byte behind the terminator. -/
theorem printf_behind (hnul : 0 ∉ text) (h : Holds c.format 0 text) (hcut : cutShort false text = true)
    {rounds : ℕ} {r : PrintfState}
    (hr : c.printf rounds = some r) : text.length + 1 ∈ r.reads := by
  obtain ⟨mode', s', hthrough⟩ := @through_format c none ⟨0, 0, [], []⟩ text h hnul
  obtain ⟨alternate, hmode⟩ := Option.isSome_iff_exists.mp (hthrough.inside.trans hcut)
  have hbuf : s'.buf = text.length := hthrough.buf.trans (Nat.zero_add _)
  have hend : c.format s'.buf = 0 := by
    have hterminator := h.nul
    rwa [Nat.zero_add, ← hbuf] at hterminator
  have hrun := hthrough.run (rounds + 1)
  have hmore := printfLoop_mono (show rounds ≤ rounds + 1 + text.length by omega) hr
  rw [hmore, hmode, PrintfCall.printfLoop] at hrun
  simp only [hend, if_neg (show (0 : UInt8) ≠ 0x23 by decide), convert_eq] at hrun
  have hread := (printfLoop_reads hrun.symm).1
  rwa [hbuf] at hread

/-- **`printf` consumes its format** exactly when the format does not end inside a conversion. -/
theorem printf_consumes (c : PrintfCall) (text : List UInt8) (hnul : 0 ∉ text) (h : Holds c.format 0 text) :
    ConsumesFormat c text ↔ cutShort false text = false := by
  constructor
  · rintro ⟨rounds, r, hr, hreads, -, -⟩
    by_contra hcut
    have hbehind := hreads _ (printf_behind hnul h (Bool.eq_true_of_not_eq_false hcut) hr)
    omega
  · intro hwhole
    obtain ⟨r, hr, hreads, hesp, hbuf, -⟩ := printf_ends hnul h hwhole
    exact ⟨_, r, hr, hreads, hesp, hbuf⟩

/-- A call with one argument for every specifier. -/
def PrintfCall.sample (text : List UInt8) : PrintfCall :=
  ⟨cstr text, fun _ => 0xECE391, fun _ => ⟨ascii "sh".toList, by decide⟩, fun _ _ => 0xAA⟩

theorem cstr_holds (text : List UInt8) : Holds (cstr text) 0 text where
  chars j hj := by rw [Nat.zero_add, cstr_lt text hj]
  nul := by rw [Nat.zero_add, cstr_ge text (Nat.le_refl _)]

theorem printf_consumes_sample :
    ConsumesFormat (PrintfCall.sample (ascii "%##x %q %s%%".toList)) (ascii "%##x %q %s%%".toList) :=
  (printf_consumes (PrintfCall.sample (ascii "%##x %q %s%%".toList)) (ascii "%##x %q %s%%".toList) (by decide)
    (cstr_holds _)).mpr (by decide)

/-- The format of one percent sign. -/
theorem printf_reads_behind : ¬ ConsumesFormat (PrintfCall.sample [0x25]) [0x25] := by
  rintro ⟨rounds, r, hr, hreads, -, -⟩
  have hbehind := hreads _ (printf_behind (by decide) (cstr_holds [0x25]) (by decide) hr)
  exact absurd hbehind (by decide)

end Format
end Kernel391
