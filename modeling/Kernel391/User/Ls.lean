import Kernel391.User.ProgramRuns

/-! `ece391ls.c`. Every read of the directory is one line of the output. The newline goes behind
what the read returned, zeros included, and the terminal leaves those out. -/
namespace Kernel391
open Kernel391.Foundations
set_option autoImplicit false

namespace Ls

def openFailed : List UInt8 := ascii "directory open failed\n".toList
def readFailed : List UInt8 := ascii "directory entry read failed\n".toList

def texts : List (List UInt8) := [dotName, openFailed, readFailed]

section Main
variable (h : Host) (lit : List UInt8 → ℕ) (buf fuel : ℕ)

/-- One round of the loop of `main`. -/
def round (fd : ℤ) (_ : Unit) : User (Unit ⊕ ℤ) := do
  let cnt ← ece391Read h (uint32 fd) buf 32
  if cnt = 0 then pure (.inr 0)
  else if cnt = -1 then do
    ece391Fdputs h fuel 1 (lit readFailed)
    pure (.inr 3)
  else do
    storeByte (buf + uint32 cnt) 0x0A
    let r ← ece391Write h 1 buf (uint32 (cnt + 1))
    if r = -1 then pure (.inr 3) else pure (.inl ())

def main : User ℤ := do
  let fd ← ece391Open h (lit dotName)
  if fd = -1 then do
    ece391Fdputs h fuel 1 (lit openFailed)
    pure 2
  else loop .unfinished (round h lit buf fuel fd) fuel ()

end Main

end Ls

/-! ## What it prints -/

def Ls.output (img : Image) : List UInt8 := img.listed.flatMap fun e => img.entryName e ++ [0x0A]

section Loop
variable {h : Host} {p d : ℕ} {lit : List UInt8 → ℕ} {buf fuel : ℕ} {s : UserState}

theorem chunk_line (m : ℕ → UInt8) (a : ℕ) (bs : List UInt8) :
    chunk (Function.update (overlay m a bs) (a + bs.length) 0x0A) a (bs.length + 1) = bs ++ [0x0A] := by
  have hline : Function.update (overlay m a bs) (a + bs.length) 0x0A = overlay m a (bs ++ [0x0A]) := by
    rw [overlay_append, overlay_single]
  have hlen : bs.length + 1 = (bs ++ [(0x0A : UInt8)]).length := by simp
  rw [hline, hlen, chunk_overlay_self]

theorem Ls.ends_loop (hsp : h.Spares p) (hd : 2 ≤ d) (hlt : d < maxFiles) (hin : ∀ j < 33, InPage (buf + j))
    (hs : s.Running p)
    (hf : s.kernel.Holds d (dirAt 0)) (hfuel : h.img.dirCount < fuel) :
    Ends (loop .unfinished (Ls.round h lit buf fuel d) fuel ()) s fun r s' =>
      r = 0 ∧ s'.printed = s.printed ++ Ls.output h.img := by
  have hle := listed_length_le h.img
  have hud : uint32 (d : ℤ) = d := uint32_of_lt (by simp only [maxFiles] at hlt; omega)
  refine Foundations.ends_loop (I := fun n _ t => ∃ e ≤ h.img.listed.length, n = h.img.listed.length - e ∧ t.Running p ∧
    t.kernel.Holds d (dirAt e) ∧ t.printed = s.printed ++ (h.img.listed.take e).flatMap fun e =>
      h.img.entryName e ++ [0x0A]) ?_
    ⟨0, Nat.zero_le _, rfl, hs, hf, by simp⟩ (show h.img.listed.length - 0 < fuel by omega)
  rintro n ⟨⟩ t ⟨e, he, rfl, hrun, hh, hprinted⟩
  unfold Ls.round
  rw [hud]
  rcases Nat.lt_or_eq_of_le he with hin' | rfl
  · obtain ⟨htake, hrep⟩ := listed_take hin'
    have hbound := h.img.reportedLength_le e
    have hpad := paddedName_length h.img e
    simp only [filenameLen] at hbound
    refine (@ends_read_listed h p d e 32 buf t hrun hsp hd hlt hin' hh (by decide) (by decide)).bind ?_
    rintro r t₁ ⟨rfl, ht, hm, hh'⟩
    rw [if_neg (by omega), if_neg (by omega), uint32_of_lt (by omega), ends_bind, ends_storeByte (hin _ (by omega)), hm]
    have hrun₁ : ({ t₁ with memory := Function.update (overlay t.memory
      buf (paddedName h.img e)) (buf + h.img.reportedLength e) 0x0A } :
        UserState).Running p := ⟨ht.running.serves, ht.running.stdin, ht.running.stdout⟩
    have hcount : uint32 ((h.img.reportedLength e : ℤ) + 1) = h.img.reportedLength e + 1 :=
      uint32_of_lt (n := h.img.reportedLength e + 1) (by omega)
    rw [hcount]
    refine (ends_write hrun₁ hsp (hin 0 (by omega)) (fun j hj => hin j (by omega)) (by omega)).bind ?_
    rintro r t₂ ⟨rfl, hprints⟩
    simp only [Nat.add_zero, ← hpad, chunk_line, List.filter_append, paddedName_filter] at hprints
    rw [if_neg (by omega), ends_pure]
    refine ⟨h.img.listed.length - (e + 1), by omega, e + 1, hin', rfl, hprints.running,
      holds_of_belongings hprints.belongings hh', ?_⟩
    rw [hprints.printed]
    simp only [ht.printed]
    rw [hprinted, htake, List.flatMap_append, List.append_assoc, List.flatMap_singleton]
    rfl
  · refine (ends_read_unlisted hrun hsp hd hlt hh (by decide)).bind ?_
    rintro r t₁ ⟨rfl, ht, -⟩
    rw [if_pos rfl, ends_pure]
    refine ⟨rfl, ?_⟩
    rw [ht.printed, hprinted, List.take_length]
    rfl

end Loop

/-- **`ls`** prints the names of the directory in order, a line each, up to the first that a read returns nothing of. -/
theorem ls_output (h : Host) (p : ℕ) (lit : List UInt8 → ℕ) (buf : ℕ) (s : UserState)
    (st : Starts h p lit Ls.texts [(buf, 33)] s) (hfree : s.kernel.FdFree) : ∃ rounds, ∀ fuel ≥ rounds,
    Ends (Ls.main h lit buf fuel) s fun status s' => status = 0 ∧ s'.printed = s.printed ++ Ls.output h.img := by
  have hin : ∀ j < 33, InPage (buf + j) := st.layout.bufs (buf, 33) (List.mem_singleton_self _)
  refine ⟨h.img.dirCount + 1, fun fuel hfuel => ?_⟩
  have hname := (st.layout.strings dotName (by decide)).stringAt_eq
  unfold Ls.main
  refine (ends_open_directory st.special st.running st.spares hfree (by rw [hname]; decide)
    ⟨[], by rw [List.append_nil, hname]⟩).bind ?_
  rintro _ s₁ ⟨d, rfl, hopens⟩
  rw [if_neg (by omega)]
  refine (Ls.ends_loop st.spares (hopens.two_le st.running) hopens.lt hin hopens.running hopens.holds
    (by omega)).mono ?_
  rintro r s₂ ⟨hr, hp⟩
  exact ⟨hr, by rw [hp, hopens.printed]⟩

/-- The names of the small image. -/
theorem ls_output_small : ∃ rounds, ∀ fuel ≥ rounds,
    Ends (Ls.main (Host.alone Image.small) (literalAt Ls.texts) bufferAt fuel)
      (UserState.start [] Ls.texts) fun status s' =>
      status = 0 ∧ s'.printed = ascii ".\nrtc\nshell\nstub\n".toList := by
  have hstr : ∀ l ∈ Ls.texts, StringIn (UserState.start [] Ls.texts).memory (literalAt Ls.texts l) l := by
    decide +kernel
  have hout : Ls.output Image.small = ascii ".\nrtc\nshell\nstub\n".toList := by decide +kernel
  obtain ⟨rounds, hends⟩ :=
    ls_output (Host.alone Image.small) 0 (literalAt Ls.texts) bufferAt (UserState.start [] Ls.texts)
    (start_starts Image.small_wellFormed small_special [] hstr (by decide +kernel) (by decide)) (start_free _ _)
  refine ⟨rounds, fun fuel hfuel => (hends fuel hfuel).mono ?_⟩
  rintro status s' ⟨hstatus, hprinted⟩
  exact ⟨hstatus, hprinted.trans hout⟩

end Kernel391
