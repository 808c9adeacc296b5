import Kernel391.User.ProgramRuns

/-! `ece391cat.c`. The program copies what it opened to the terminal, a buffer at a time; on the
directory it gets the names, one a read, and a nameless entry ends it like the end of a file. -/
namespace Kernel391
open Kernel391.Foundations
set_option autoImplicit false

namespace Cat

def noArguments : List UInt8 := ascii "could not read arguments\n".toList
def notFound : List UInt8 := ascii "file not found\n".toList
def readFailed : List UInt8 := ascii "file read failed\n".toList

def texts : List (List UInt8) := [noArguments, notFound, readFailed]

section Main
variable (h : Host) (lit : List UInt8 → ℕ) (buf fuel : ℕ)

/-- One round of the loop of `main`. -/
def round (fd : ℤ) (_ : Unit) : User (Unit ⊕ ℤ) := do
  let cnt ← ece391Read h (uint32 fd) buf 1024
  if cnt = 0 then pure (.inr 0)
  else if cnt = -1 then do
    ece391Fdputs h fuel 1 (lit readFailed)
    pure (.inr 3)
  else do
    let r ← ece391Write h 1 buf (uint32 cnt)
    if r = -1 then pure (.inr 3) else pure (.inl ())

def main : User ℤ := do
  let r ← ece391Getargs h buf 1024
  if r ≠ 0 then do
    ece391Fdputs h fuel 1 (lit noArguments)
    pure 3
  else do
    let fd ← ece391Open h buf
    if fd = -1 then do
      ece391Fdputs h fuel 1 (lit notFound)
      pure 2
    else loop .unfinished (round h lit buf fuel fd) fuel ()

end Main

end Cat

/-! ## What it prints -/

/-- The output and the exit status, by what the argument names. -/
def Cat.output (img : Image) (args : List UInt8) : List UInt8 × ℤ :=
  if args = [] then (noArguments, 3)
  else if rtcName <+: args then ([], 0)
  else if dotName <+: args then (img.listed.flatMap img.entryName, 0)
  else
    match img.firstNamed args with
    | some e => ((img.fileBytes (img.entryInode e)).filter (· ≠ 0), 0)
    | none => (notFound, 2)

/-! ## The loop of `cat` -/

section Loop
variable {h : Host} {p d i : ℕ} {lit : List UInt8 → ℕ} {buf fuel : ℕ} {s : UserState}

theorem Cat.round_eq (hd : d < maxFiles) : Cat.round h lit buf fuel d () = (do
    let cnt ← ece391Read h d buf 1024
    if cnt = 0 then pure (.inr 0)
    else if cnt = -1 then do
      ece391Fdputs h fuel 1 (lit Cat.readFailed)
      pure (.inr 3)
    else do
      let r ← ece391Write h 1 buf (uint32 cnt)
      if r = -1 then pure (.inr 3) else pure (.inl ())) := by
  unfold Cat.round
  rw [uint32_of_lt (by simp only [maxFiles] at hd; omega)]

theorem Cat.ends_round {t : UserState} {b : List UInt8} {Q : Unit ⊕ ℤ → UserState → Prop} (hsp : h.Spares p)
    (hd : d < maxFiles)
    (hin : ∀ j < 1024, InPage (buf + j)) (hpos : 0 < b.length) (hle : b.length ≤ 1024) {P : UserState → Prop}
    (hread : Ends (ece391Read h d buf 1024) t fun r t' =>
      r = (b.length : ℕ) ∧ Touches p d t t' ∧ t'.memory = overlay t.memory buf b ∧ P t')
    (hQ : ∀ t' t'', P t' → Touches p d t t' → Prints p t' t'' (b.filter (· ≠ 0)) → Q (.inl ()) t'') :
    Ends (Cat.round h lit buf fuel d ()) t Q := by
  rw [Cat.round_eq hd]
  refine hread.bind ?_
  rintro r t' ⟨rfl, ht, hm, hP⟩
  rw [if_neg (by omega), if_neg (by omega), uint32_of_lt (by omega)]
  refine (ends_write ht.running hsp (hin 0 (by omega)) (fun j hj => hin j (by omega)) (by omega)).bind ?_
  rintro r t'' ⟨rfl, hprints⟩
  rw [hm, Nat.add_zero, chunk_overlay_self] at hprints
  rw [if_neg (by omega), ends_pure]
  exact hQ t' t'' hP ht hprints

theorem Cat.ends_round_empty {t : UserState} {Q : Unit ⊕ ℤ → UserState → Prop} (hd : d < maxFiles)
    (hread : Ends (ece391Read h d buf 1024) t fun r t' => r = 0 ∧ Q (.inr 0) t') :
    Ends (Cat.round h lit buf fuel d ()) t Q := by
  rw [Cat.round_eq hd]
  refine hread.bind ?_
  rintro r t' ⟨rfl, hq⟩
  rw [if_pos rfl, ends_pure]
  exact hq

/-- **On a file**: its bytes, without the NULs. -/
theorem Cat.ends_file (wf : h.img.WellFormed) (hfs : h.fs = Image.WellFormed.pointers h.img)
    (hsp : h.Spares p) (hd : 2 ≤ d)
    (hlt : d < maxFiles) (hi : i < h.img.inodeCount) (hin : ∀ j < 1024, InPage (buf + j)) (hs : s.Running p)
    (hf : s.kernel.Holds d (fileAt i 0)) (hfuel : h.img.fileLength i < fuel) :
    Ends (loop .unfinished (Cat.round h lit buf fuel d) fuel ()) s fun r s' =>
      r = 0 ∧ s'.printed = s.printed ++ (h.img.fileBytes i).filter (· ≠ 0) := by
  have hlen := h.img.fileBytes_length i
  -- the prefix of the file up to the position of the descriptor is printed
  refine ends_loop (I := fun n _ t => ∃ pos ≤ h.img.fileLength i, n = h.img.fileLength i - pos ∧ t.Running p ∧
    t.kernel.Holds d (fileAt i pos) ∧ t.printed = s.printed ++ ((h.img.fileBytes i).take pos).filter (· ≠ 0)) ?_
    ⟨0, Nat.zero_le _, rfl, hs, hf, by simp⟩ hfuel
  rintro n ⟨⟩ t ⟨pos, hpos, rfl, hrun, hh, hprinted⟩
  have hread := ends_read_file wf hfs hrun hsp hd hlt hi hpos hh buf 1024
  by_cases hend : pos = h.img.fileLength i
  · refine Cat.ends_round_empty hlt (hread.mono ?_)
    rintro r t' ⟨hr, ht, -, -⟩
    rw [hend, Nat.sub_self, Nat.min_zero] at hr
    refine ⟨hr, rfl, ?_⟩
    rw [ht.printed, hprinted, List.take_of_length_le (by omega)]
  · have hslice := h.img.fileSlice_length i pos (min 1024 (h.img.fileLength i - pos))
    refine Cat.ends_round
      (P := fun t' => t'.kernel.Holds d (fileAt i (pos + min 1024 (h.img.fileLength i - pos)))) hsp hlt hin
      (b := h.img.fileSlice i pos (min 1024 (h.img.fileLength i - pos))) (by omega) (by omega)
        (by rw [hslice]; exact hread) ?_
    intro t' t'' hh' ht hprints
    refine ⟨h.img.fileLength i - (pos + min 1024 (h.img.fileLength i - pos)), by omega, _, by omega,
      rfl, hprints.running,
      holds_of_belongings hprints.belongings hh', ?_⟩
    rw [hprints.printed, ht.printed, hprinted, List.append_assoc, ← List.filter_append,
      h.img.fileSlice_eq i _ _ (by omega),
      List.take_add]

/-- **On the clock**: nothing, after a wait. -/
theorem Cat.ends_rtc (hsp : h.Spares p) (hticks : h.Ticks) (hd : 2 ≤ d) (hlt : d < maxFiles) (hs : s.Running p)
    (hf : s.kernel.Holds d rtcAt) (hfuel : 0 < fuel) :
    Ends (loop .unfinished (Cat.round h lit buf fuel d) fuel ()) s fun r s' => r = 0 ∧ s'.printed = s.printed := by
  refine ends_loop (I := fun n _ t => n = 0 ∧ t = s) ?_ ⟨rfl, rfl⟩ hfuel
  rintro n ⟨⟩ t ⟨rfl, rfl⟩
  refine Cat.ends_round_empty hlt ((ends_read_rtc hs hsp hticks hd hlt hf buf 1024).mono ?_)
  rintro r t' ⟨hr, ht, -, -⟩
  exact ⟨hr, rfl, ht.printed⟩

theorem Cat.ends_directory (hsp : h.Spares p) (hd : 2 ≤ d) (hlt : d < maxFiles) (hin : ∀ j < 1024, InPage (buf + j))
    (hs : s.Running p) (hf : s.kernel.Holds d (dirAt 0)) (hfuel : h.img.dirCount < fuel) :
    Ends (loop .unfinished (Cat.round h lit buf fuel d) fuel ()) s fun r s' =>
      r = 0 ∧ s'.printed = s.printed ++ h.img.listed.flatMap h.img.entryName := by
  have hle := listed_length_le h.img
  refine ends_loop (I := fun n _ t => ∃ e ≤ h.img.listed.length, n = h.img.listed.length - e ∧ t.Running p ∧
    t.kernel.Holds d (dirAt e) ∧ t.printed = s.printed ++ (h.img.listed.take e).flatMap h.img.entryName) ?_
    ⟨0, Nat.zero_le _, rfl, hs, hf, by simp⟩ (show h.img.listed.length - 0 < fuel by omega)
  rintro n ⟨⟩ t ⟨e, he, rfl, hrun, hh, hprinted⟩
  rcases Nat.lt_or_eq_of_le he with hin' | rfl
  · obtain ⟨htake, hrep⟩ := listed_take hin'
    have hread := @ends_read_listed h p d e 1024 buf t hrun hsp hd hlt hin' hh (by decide) (by decide)
    have hbound := h.img.reportedLength_le e
    have hpad := paddedName_length h.img e
    simp only [filenameLen] at hbound
    rw [← hpad] at hread
    refine Cat.ends_round hsp hlt hin (by omega) (by omega) hread ?_
    intro t' t'' hh' ht hprints
    refine ⟨h.img.listed.length - (e + 1), by omega, e + 1, hin', rfl, hprints.running,
      holds_of_belongings hprints.belongings hh', ?_⟩
    rw [hprints.printed, ht.printed, hprinted, paddedName_filter, htake, List.flatMap_append, List.append_assoc,
      List.flatMap_singleton]
  · refine Cat.ends_round_empty hlt ((ends_read_unlisted hrun hsp hd hlt hh (by decide)).mono ?_)
    rintro r t' ⟨hr, ht, -⟩
    refine ⟨hr, rfl, ?_⟩
    rw [ht.printed, hprinted, List.take_length]

end Loop

/-- **`cat`** ends, with the output and the status its argument calls for, whatever the rest of the system does
meanwhile. -/
theorem cat_output (h : Host) (p : ℕ) (lit : List UInt8 → ℕ) (buf : ℕ) (s : UserState)
    (st : Starts h p lit Cat.texts [(buf, 1024)] s) (hfree : s.kernel.FdFree) (hticks : h.Ticks) :
    ∃ rounds, ∀ fuel ≥ rounds,
    Ends (Cat.main h lit buf fuel) s fun status s' =>
      status = (Cat.output h.img s.kernel.getPcbNow.arguments).2 ∧
      s'.printed = s.printed ++ (Cat.output h.img s.kernel.getPcbNow.arguments).1 := by
  have hin : ∀ j < 1024, InPage (buf + j) := st.layout.bufs (buf, 1024) (List.mem_singleton_self _)
  refine ⟨26 + h.img.dirCount + (h.img.firstNamed s.kernel.getPcbNow.arguments).elim 0 fun e =>
    h.img.fileLength (h.img.entryInode e),
    fun fuel hfuel => ?_⟩
  have hsp := st.spares
  unfold Cat.main
  refine (ends_arguments st.running hsp hin (by decide)).bind ?_
  rintro r s₁ ⟨hrun₁, hp₁, hbel₁, rfl, hsame, hstr⟩
  have hlay := st.layout.congr hsame
  unfold Cat.output
  by_cases hnil : s.kernel.getPcbNow.arguments = []
  · rw [if_pos hnil, if_pos hnil, if_pos (by decide)]
    have hlit := hlay.strings Cat.noArguments (by decide)
    refine (ends_fdputs hrun₁ hsp hlit (lt_of_lt_of_le (by decide : Cat.noArguments.length < 26) (by omega))).bind ?_
    rintro _ s₂ hprints
    refine (ends_pure _).mpr ⟨rfl, ?_⟩
    rw [hprints.printed, hp₁]
  · rw [if_neg hnil, if_neg hnil, if_neg (by decide)]
    have hname := (hstr hnil).stringAt_eq
    have hfree₁ := fdFree_of_belongings hbel₁ hfree
    by_cases hclock : rtcName <+: s.kernel.getPcbNow.arguments
    · rw [if_pos hclock]
      refine (ends_open_rtc hrun₁ hsp hfree₁ (hname ▸ hclock)).bind ?_
      rintro _ s₂ ⟨d, rfl, hopens⟩
      rw [if_neg (by omega)]
      refine (Cat.ends_rtc hsp hticks (hopens.two_le hrun₁) hopens.lt hopens.running hopens.holds (by omega)).mono ?_
      rintro r s₃ ⟨hr, hp₃⟩
      exact ⟨hr, by rw [hp₃, hopens.printed, hp₁, List.append_nil]⟩
    rw [if_neg hclock]
    rw [← hname] at hclock
    by_cases hdot : dotName <+: s.kernel.getPcbNow.arguments
    · rw [if_pos hdot]
      refine (ends_open_directory st.special hrun₁ hsp hfree₁ hclock (hname ▸ hdot)).bind ?_
      rintro _ s₂ ⟨d, rfl, hopens⟩
      rw [if_neg (by omega)]
      refine (Cat.ends_directory hsp (hopens.two_le hrun₁) hopens.lt hin hopens.running hopens.holds (by omega)).mono ?_
      rintro r s₃ ⟨hr, hp₃⟩
      exact ⟨hr, by rw [hp₃, hopens.printed, hp₁]⟩
    · rw [if_neg hdot]
      rw [← hname] at hdot
      cases he : h.img.firstNamed s.kernel.getPcbNow.arguments with
      | some e =>
        simp only [he, Option.elim_some] at hfuel
        refine (ends_open_file st.wf hrun₁ hsp hfree₁ hclock hdot (hname ▸ he)).bind ?_
        rintro _ s₂ ⟨d, rfl, hopens⟩
        rw [if_neg (by omega)]
        refine (Cat.ends_file st.wf.toWellFormed st.fs hsp (hopens.two_le hrun₁) hopens.lt
          (st.wf.inode_lt e (h.img.firstNamed_some he).1) hin hopens.running hopens.holds (by omega)).mono ?_
        rintro r s₃ ⟨hr, hp₃⟩
        exact ⟨hr, by rw [hp₃, hopens.printed, hp₁]⟩
      | none =>
        refine (ends_open_missing st.wf hrun₁ hsp hfree₁ hclock hdot (hname ▸ he)).bind ?_
        rintro r s₂ ⟨rfl, hrun₂, hm₂, hp₂⟩
        rw [if_pos rfl]
        have hlit := (hm₂ ▸ hlay).strings Cat.notFound (by decide)
        refine (ends_fdputs hrun₂ hsp hlit (lt_of_lt_of_le (by decide : Cat.notFound.length < 26) (by omega))).bind ?_
        rintro _ s₃ hprints
        refine (ends_pure _).mpr ⟨rfl, ?_⟩
        rw [hprints.printed, hp₂, hp₁]

/-- `cat shell`. -/
theorem cat_output_shell : ∃ rounds, ∀ fuel ≥ rounds,
    Ends (Cat.main (Host.alone Image.small) (literalAt Cat.texts) bufferAt fuel)
      (UserState.start shell Cat.texts) fun status s' =>
      status = 0 ∧ s'.printed = [0x7F, 0x45, 0x4C, 0x46, 0x80, 0x04, 0x08] := by
  have hargs := start_arguments Cat.texts (show (0 : UInt8) ∉ shell by decide) (by decide)
  have hstr : ∀ l ∈ Cat.texts, StringIn (UserState.start shell Cat.texts).memory (literalAt Cat.texts l) l := by
    decide +kernel
  obtain ⟨rounds, hends⟩ :=
    cat_output (Host.alone Image.small) 0 (literalAt Cat.texts) bufferAt (UserState.start shell Cat.texts)
    (start_starts Image.small_wellFormed small_special shell hstr (by decide +kernel) (by decide))
      (start_free _ _) (alone_ticks _)
  refine ⟨rounds, fun fuel hfuel => (hends fuel hfuel).mono ?_⟩
  rintro status s' ⟨hstatus, hprinted⟩
  rw [hargs] at hstatus hprinted
  have hout : Cat.output (Host.alone Image.small).img shell = ([0x7F, 0x45, 0x4C, 0x46, 0x80, 0x04, 0x08], 0) := by
    decide +kernel
  rw [hout] at hstatus hprinted
  exact ⟨hstatus, hprinted⟩

end Kernel391
