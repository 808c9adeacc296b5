import Kernel391.Devices.LineBuffer
import Kernel391.User.ProgramRuns

/-! A program that reads what is typed. A read of the standard input ends with a line in the buffer of the
terminal, and takes all of it when there is room. -/
namespace Kernel391
open Kernel391.Foundations
set_option autoImplicit false

/-- The wait at the `n`-th call ends with `line` typed, and Enter behind it. -/
structure Host.Types (h : Host) (p n : ℕ) (line : List UInt8) : Prop where
  typed : ∀ k, k.Serves p → ((h.waited (n + 1) (h.elsewhere n k)).keyboard
    (h.elsewhere n k).getPcbNow.terminalInfo.terminalNum).contents = line ++ [0x0A]
  noNul : 0 ∉ line
  length : line.length ≤ 127

/-- The bytes a read of `n` gets. -/
def lineBytes (n : ℕ) (line : List UInt8) : List UInt8 := line ++ [0x0A] ++ List.replicate (n - (line.length + 1)) 0

section Line
variable {n : ℕ} {line : List UInt8}

theorem lineBytes_length (h : line.length < n) : (lineBytes n line).length = n := by
  unfold lineBytes
  rw [List.length_append, List.length_append, List.length_singleton, List.length_replicate]
  omega

theorem lineBytes_take : (lineBytes n line).take line.length = line ∧
    (lineBytes n line).take (line.length + 1) = line ++ [0x0A] ∧
    (lineBytes n line)[line.length]? = some 0x0A := by
  unfold lineBytes
  rw [List.append_assoc]
  refine ⟨List.take_left' rfl, ?_, ?_⟩
  · rw [← List.append_assoc]
    exact List.take_left' (by simp)
  · rw [List.getElem?_append_right (Nat.le_refl _), Nat.sub_self]
    rfl

end Line

section Read
variable {img : Image} {fs : Filesystem} {k : Kernel} {w : Waited} {stack : ℕ → UInt8} {buf n : ℕ} {line : List UInt8}

theorem KeyboardStruct.copied_eq (kb : KeyboardStruct) (h : kb.top ≤ n) :
    kb.copied n = kb.contents ++ List.replicate (n - kb.top) 0 := by
  unfold copied contents
  apply List.ext_getElem
  · simp
    omega
  · intro i hi hi'
    simp only [List.getElem_map, List.getElem_range]
    by_cases hlt : i < kb.top
    · rw [List.getElem_append_left (by simpa using hlt), if_pos hlt]
      simp
    · rw [List.getElem_append_right (by simpa using hlt), if_neg hlt, List.getElem_replicate]

/-- The buffers when the line has been taken. -/
def Kernel.lineTaken (k : Kernel) (w : Waited) (n : ℕ) : Kernel :=
  let t := k.getPcbNow.terminalInfo.terminalNum
  { k with keyboard := Function.update w.keyboard t ((w.keyboard t).lower n).release }

/-- **A line is read**: with its newline, and zeros up to the end of the buffer. -/
theorem readCall_stdin (hin : k.Holds 0 (standardFd .stdin)) (m : ℕ → UInt8)
    (htyped : (w.keyboard k.getPcbNow.terminalInfo.terminalNum).contents = line ++ [0x0A]) (hlen : line.length < n)
    (hn : n < 2 ^ 31) (hbuf : buf ≠ 0) :
    readCall img fs k m w stack 0 buf n = .done (line.length + 1 : ℕ)
      (k.lineTaken w n) (overlay m buf (lineBytes n line)) := by
  have hready : (w.keyboard k.getPcbNow.terminalInfo.terminalNum).ready = true := by
    rw [KeyboardStruct.ready_iff, htyped]
    simp
  have htop : (w.keyboard k.getPcbNow.terminalInfo.terminalNum).top = line.length + 1 := by
    rw [← KeyboardStruct.contents_length, htyped]
    simp
  have hcopied : (w.keyboard k.getPcbNow.terminalInfo.terminalNum).copied n = lineBytes n line := by
    unfold lineBytes
    rw [KeyboardStruct.copied_eq _ (by omega), htyped, htop]
  have hcount : (w.keyboard k.getPcbNow.terminalInfo.terminalNum).count n = line.length + 1 := by
    unfold KeyboardStruct.count
    omega
  unfold Kernel.getPcbNow at hready hcopied hcount
  unfold readCall
  rw [if_neg (by decide), if_neg (by rw [hin.used]; decide), hin.fd]
  simp only [standardFd, FileOps.read, terminalRead, int32_of_lt hn, Int.toNat_natCast]
  rw [if_neg (by omega), if_neg hbuf]
  simp only [hready, if_true, hcopied, hcount, putBytes_function]
  rfl

end Read

section Specs
variable {h : Host} {p : ℕ} {s : UserState} {a fuel n buf : ℕ} {l line : List UInt8} {Q : ℤ → UserState → Prop}

theorem ends_write_counted {fd : ℕ} (hends : Ends (ece391Write h fd buf n) s Q) :
    Ends (ece391Write h fd buf n) s fun r s' => Q r s' ∧ s'.calls = s.calls + 1 := by
  unfold ece391Write at hends ⊢
  simp only [ends_bind, ends_modify, ends_get] at hends ⊢
  split at hends
  · simp only [ends_bind, ends_set, ends_pure] at hends ⊢
    exact ⟨hends, rfl⟩
  · exact absurd hends (ends_throw _)
  · exact absurd hends (ends_throw _)

theorem ends_puts (hs : s.Running p) (hsp : h.Spares p) (hl : StringIn s.memory a l) (hfuel : l.length < fuel) :
    Ends (ece391Fdputs h fuel 1 a) s fun _ s' => Prints p s s' l ∧ s'.calls = s.calls + 1 := by
  unfold ece391Fdputs
  refine (ends_strlen hl hfuel).bind ?_
  rintro _ t ⟨rfl, rfl⟩
  refine (ends_write_counted (ends_write hs hsp hl.inPage (fun i hi => hl.inside i hi.le) hl.length_lt)).bind ?_
  rintro _ s' ⟨⟨-, hprints⟩, hcalls⟩
  rw [hl.chunk_eq, hl.filter_eq] at hprints
  exact (ends_pure _).mpr ⟨hprints, hcalls⟩

structure Takes (p buf n : ℕ) (line : List UInt8) (s s' : UserState) : Prop where
  running : s'.Running p
  memory : s'.memory = overlay s.memory buf (lineBytes n line)
  printed : s'.printed = s.printed
  calls : s'.calls = s.calls + 1

theorem ends_read_line (hs : s.Running p) (hsp : h.Spares p) (htypes : h.Types p s.calls line) (hbuf : buf ≠ 0)
    (hlen : 128 ≤ n) (hn : n < 2 ^ 31) :
    Ends (ece391Read h 0 buf n) s fun r s' => r = (line.length + 1 : ℕ) ∧ Takes p buf n line s s' := by
  have hin := hs.enter hsp
  have hline := htypes.length
  have hread := @readCall_stdin h.img h.fs _ _ (h.stack (h.enter s).calls) buf n line hin.running.stdin s.memory
    (htypes.typed s.kernel hs.serves) (by omega) hn hbuf
  have hpcb : ∀ k w n, (Kernel.lineTaken k w n).getPcbNow = k.getPcbNow := fun _ _ _ => rfl
  unfold ece391Read
  simp only [ends_bind, ends_modify, ends_get, show (h.enter s).memory = s.memory from rfl]
  rw [show h.waited (h.enter s).calls (h.enter s).kernel = h.waited (s.calls + 1) (h.elsewhere s.calls s.kernel)
    from rfl, hread]
  simp only [ends_bind, ends_set, ends_pure, true_and]
  exact ⟨⟨hin.running.serves.of_pages rfl rfl,
    holds_of_belongings (congrArg Pcb.belongings (hpcb _ _ _)) hin.running.stdin,
    holds_of_belongings (congrArg Pcb.belongings (hpcb _ _ _)) hin.running.stdout⟩, rfl, rfl, rfl⟩

end Specs

/-! ## Lines for a program alone -/

def typedBuffer (line : List UInt8) : KeyboardStruct where
  buffer i := (line ++ [0x0A]).getD i 0
  top := line.length + 1
  enterLock := 1

theorem typedBuffer_contents (line : List UInt8) : (typedBuffer line).contents = line ++ [0x0A] := by
  unfold KeyboardStruct.contents typedBuffer
  apply List.ext_getElem
  · simp
  · intro i hi hi'
    simp only [List.getElem_map, List.getElem_range, List.getD_eq_getElem?_getD,
      List.getElem?_eq_getElem hi', Option.getD_some]

/-- A process alone, with the lines typed at its calls. -/
def Host.typing (img : Image) (lines : ℕ → List UInt8) : Host :=
  { Host.alone img with waited := fun n k => ⟨fun _ => typedBuffer (lines n), k.rtc⟩ }

theorem typing_types {img : Image} {lines : ℕ → List UInt8} {p n : ℕ} (hnul : 0 ∉ lines (n + 1))
    (hlen : (lines (n + 1)).length ≤ 127) :
    (Host.typing img lines).Types p n (lines (n + 1)) where
  typed _ _ := typedBuffer_contents _
  noNul := hnul
  length := hlen

theorem typing_starts {img : Image} {lines : ℕ → List UInt8} {p : ℕ} {lit : List UInt8 → ℕ} {texts : List (List UInt8)}
    {bufs : List (ℕ × ℕ)} {s : UserState} (h : Starts (Host.alone img) p lit texts bufs s) :
    Starts (Host.typing img lines) p lit texts bufs s :=
  { h with spares := ⟨fun _ _ hk => hk, fun _ _ _ => rfl⟩ }

end Kernel391
