import Kernel391.Foundations.Runs
import Kernel391.Process.Opening

/-! Reading a file through a descriptor, call after call. One descriptor is followed
while its process opens, reads and closes others and everything else moves; the
invariant is that its position is the number of bytes asked for, cut at the file's
length. -/
namespace Kernel391
open Kernel391.Foundations
set_option autoImplicit false

/-! ## Sessions -/

/-- What happens in a session: system calls of the process, and everything outside it, which leaves
its descriptors alone. The memory of a read is the process's memory at that moment. -/
inductive Call
  | opening (filename : List UInt8)
  | reading (m : ℕ → UInt8) (w : Waited) (stack : ℕ → UInt8) (fd buf nbytes : ℕ)
  | closing (fd : ℕ)
  | elsewhere (k : Kernel)

/-- The kernel, the chunks returned so far on the descriptor followed, and the sum of the requests. -/
structure Session where
  kernel : Kernel
  chunks : List UInt8
  asked : ℕ

/-- The first `n` bytes of a buffer. -/
def chunk (m : ℕ → UInt8) (buf n : ℕ) : List UInt8 := (List.range n).map fun j => m (buf + j)

/-- One call, seen from descriptor `d`. -/
def sessionStep (img : Image) (fs : Filesystem) (d : ℕ) (s : Session) : Call → Option Session
  | .opening filename => some { s with kernel := (openCall img s.kernel filename).2 }
  | .closing fd => (closeCall s.kernel fd).map fun r => { s with kernel := r.2 }
  | .elsewhere k => some { s with kernel := s.kernel.elsewhere k }
  | .reading m w stack fd buf nbytes =>
    if nbytes < 2 ^ 32 then
      match readCall img fs s.kernel m w stack fd buf nbytes with
      | .done r k m =>
        if fd = d then some ⟨k, s.chunks ++ chunk m buf r.toNat, s.asked + nbytes⟩
        else some { s with kernel := k }
      | _ => none
    else none

def staysOpen (d : ℕ) : Session → Call → Prop := fun _ c => c ≠ .closing d

/-! ## Other descriptors -/

section Frame
variable {img : Image} {fs : Filesystem} {k : Kernel} {d : ℕ}

/-- Descriptor `d` is in use and is `f`. -/
structure Kernel.Holds (k : Kernel) (d : ℕ) (f : FileDescriptor) : Prop where
  used : k.getPcbNow.available d = 0
  fd : k.getPcbNow.fd d = f

variable {f : FileDescriptor}

theorem holds_setAvailable {fd a : ℕ} (h : k.Holds d f) (hne : fd ≠ d) : (k.setAvailable fd a).Holds d f := by
  refine ⟨?_, ?_⟩
  · rw [Kernel.getPcbNow_setAvailable]
    exact (Function.update_of_ne hne.symm _ _).trans h.used
  · rw [Kernel.getPcbNow_setAvailable]
    exact h.fd

theorem holds_setFd {fd : ℕ} {g : FileDescriptor} (h : k.Holds d f) (hne : fd ≠ d) : (k.setFd fd g).Holds d f := by
  refine ⟨?_, ?_⟩
  · rw [Kernel.getPcbNow_setFd]
    exact h.used
  · rw [Kernel.getPcbNow_setFd]
    exact (Function.update_of_ne hne.symm _ _).trans h.fd

theorem holds_elsewhere {k' : Kernel} (h : k.Holds d f) : (k.elsewhere k').Holds d f := by
  refine ⟨?_, ?_⟩
  · rw [Kernel.getPcbNow_elsewhere]
    exact h.used
  · rw [Kernel.getPcbNow_elsewhere]
    exact h.fd

theorem holds_open (name : List UInt8) (h : k.Holds d f) : (openCall img k name).2.Holds d f := by
  unfold openCall
  cases hfd : k.getAvailFd with
  | none => exact h
  | some q =>
    obtain ⟨fd, k₁⟩ := q
    obtain ⟨-, hav, rfl⟩ := k.getAvailFd_some hfd
    have hne : fd ≠ d := by
      rintro rfl
      exact hav h.used
    have h₁ : (k.setAvailable fd 0).Holds d f := holds_setAvailable h hne
    have h₂ : (k.setAvailable fd 0).rtcOpen.2.Holds d f := ⟨h₁.used, h₁.fd⟩
    simp only
    split
    · split
      · exact holds_setAvailable h₂ hne
      · exact holds_setFd h₂ hne
    · split
      · split
        · exact holds_setAvailable h₁ hne
        · exact holds_setFd h₁ hne
      · split
        · exact holds_setAvailable h₁ hne
        · exact holds_setFd h₁ hne

theorem holds_close {fd : ℕ} {r : ℤ × Kernel} (h : k.Holds d f) (hne : fd ≠ d) (hr : closeCall k fd = some r) :
    r.2.Holds d f := by
  unfold closeCall at hr
  split at hr
  · cases hr
    exact h
  · split at hr
    · cases hr
      exact h
    · obtain ⟨ops, -, rfl⟩ := Option.map_eq_some_iff.mp hr
      exact holds_setAvailable h hne

theorem holds_read {m m' : ℕ → UInt8} {w : Waited} {stack : ℕ → UInt8} {fd buf nbytes : ℕ} {r : ℤ} {k' : Kernel}
    (h : k.Holds d f) (hne : fd ≠ d) (hr : readCall img fs k m w stack fd buf nbytes = .done r k' m') :
    k'.Holds d f := by
  obtain ⟨-, pos, hpcb⟩ := readCall_pcb hr
  refine ⟨?_, ?_⟩
  · rw [hpcb]
    exact h.used
  · rw [hpcb]
    exact (Function.update_of_ne hne.symm _ _).trans h.fd

end Frame

/-! ## One file -/

section File
variable {img : Image} {k : Kernel} {d i : ℕ}

/-- The descriptor of file `i` at position `pos`. -/
def fileAt (i pos : ℕ) : FileDescriptor := { fileOps := some .file, inode := i, filePos := pos, flags := 0 }

/-- **One read** of a file from position `pos`. -/
theorem readCall_file (wf : img.WellFormed) (hi : i < img.inodeCount) {pos : ℕ} (hpos : pos ≤ img.fileLength i)
    (hd : d < maxFiles) (h : k.Holds d (fileAt i pos)) (m : ℕ → UInt8) (w : Waited) (stack : ℕ → UInt8)
    (buf nbytes : ℕ) :
    ∃ k', readCall img (Image.WellFormed.pointers img) k m w stack d buf nbytes =
        .done (min nbytes (img.fileLength i - pos) : ℕ) k'
          (overlay m buf (img.fileSlice i pos (min nbytes (img.fileLength i - pos)))) ∧
      k'.Holds d (fileAt i (pos + min nbytes (img.fileLength i - pos))) := by
  have hsz := wf.size
  have hfits := wf.fits
  have hlen := wf.length_le i hi
  simp only [bytesPerBlock] at hsz hlen
  have hui : uint32 (i : ℤ) = i := by
    unfold uint32
    omega
  have hup : uint32 (pos : ℤ) = pos := by
    unfold uint32
    omega
  have hread := readData_memory wf i hi m pos buf nbytes hpos
  refine ⟨k.setFd d (fileAt i (pos + min nbytes (img.fileLength i - pos))), ?_, ?_, ?_⟩
  · unfold readCall
    simp only [maxFiles] at hd
    rw [if_neg (by omega), if_neg (by rw [h.used]; decide), h.fd]
    simp only [fileAt, FileOps.read, fileRead, h.fd, hui, hup, hread]
    push_cast
    rfl
  · rw [Kernel.getPcbNow_setFd]
    exact h.used
  · rw [Kernel.getPcbNow_setFd]
    exact Function.update_self _ _ _

theorem chunk_overlay (m : ℕ → UInt8) (buf pos n : ℕ) :
    chunk (overlay m buf (img.fileSlice i pos n)) buf n = img.fileSlice i pos n := by
  unfold chunk
  apply List.ext_getElem
  · rw [List.length_map, List.length_range, Image.fileSlice_length]
  · intro j h₁ h₂
    rw [List.getElem_map, List.getElem_range, overlay_at _ _ _ _ h₂]

theorem take_append_slice {a b : ℕ} :
    (img.fileBytes i).take a ++ img.fileSlice i (min a (img.fileLength i))
        (min b (img.fileLength i - min a (img.fileLength i))) = (img.fileBytes i).take (a + b) := by
  have hlen := img.fileBytes_length i
  rw [img.fileSlice_eq i _ _ (by omega)]
  by_cases ha : a ≤ img.fileLength i
  · rw [Nat.min_eq_left ha, List.take_add]
    congr 1
    by_cases hb : b ≤ img.fileLength i - a
    · rw [Nat.min_eq_left hb]
    · rw [Nat.min_eq_right (by omega), List.take_of_length_le (by rw [List.length_drop]; omega),
        List.take_of_length_le (by rw [List.length_drop]; omega)]
  · rw [Nat.min_eq_right (show img.fileLength i ≤ a by omega), Nat.sub_self, Nat.min_zero, List.take_zero,
      List.append_nil,
      List.take_of_length_le (by omega), List.take_of_length_le (by omega)]

/-! ## The invariant -/

/-- The position is the sum of the requests, cut at the length, and the chunks are the file so far. -/
structure ReadSoFar (img : Image) (i d : ℕ) (s : Session) : Prop where
  holds : s.kernel.Holds d (fileAt i (min s.asked (img.fileLength i)))
  chunks : s.chunks = (img.fileBytes i).take s.asked

theorem sessionStep_readSoFar (wf : img.WellFormed) (hi : i < img.inodeCount) (hd : d < maxFiles)
    {s t : Session} {c : Call} (h : ReadSoFar img i d s) (hc : staysOpen d s c)
    (hstep : sessionStep img (Image.WellFormed.pointers img) d s c = some t) : ReadSoFar img i d t := by
  cases c with
  | opening name =>
    cases hstep
    exact ⟨holds_open name h.holds, h.chunks⟩
  | closing fd =>
    have hne : fd ≠ d := by
      rintro rfl
      exact hc rfl
    obtain ⟨r, hr, rfl⟩ := Option.map_eq_some_iff.mp hstep
    exact ⟨holds_close h.holds hne hr, h.chunks⟩
  | elsewhere k =>
    cases hstep
    exact ⟨holds_elsewhere h.holds, h.chunks⟩
  | reading m w stack fd buf nbytes =>
    simp only [sessionStep] at hstep
    split at hstep
    · split at hstep
      · next r k' m' hread =>
        split at hstep
        · next heq =>
          subst heq
          cases hstep
          obtain ⟨k₁, hfile, hholds⟩ := readCall_file wf hi (Nat.min_le_right _ _) hd h.holds m w stack buf nbytes
          rw [hread] at hfile
          cases hfile
          have hpos : min s.asked (img.fileLength i) +
              min nbytes (img.fileLength i - min s.asked (img.fileLength i)) =
                min (s.asked + nbytes) (img.fileLength i) := by omega
          rw [hpos] at hholds
          refine ⟨hholds, ?_⟩
          simp only [Int.toNat_natCast]
          rw [chunk_overlay, h.chunks]
          exact take_append_slice
        · next hne =>
          cases hstep
          exact ⟨holds_read h.holds hne hread, h.chunks⟩
      · cases hstep
    · cases hstep

end File

/-- A descriptor that `open` bound to a file is at the start of the first entry of that name. -/
theorem openCall_bound {img : Image} (wf : img.WellFormedDirectory) {k₀ k : Kernel} {name : List UInt8}
    (hname : 0 ∉ name) {d : ℕ} (hopen : openCall img k₀ name = ((d : ℤ), k))
    (hops : (k.getPcbNow.fd d).fileOps = some .file) :
    ∃ e, img.firstNamed name = some e ∧ d < maxFiles ∧ k.Holds d (fileAt (img.entryInode e) 0) := by
  have hbound : ∀ {k₁ : Kernel} {fd : ℕ} {ops : FileOps} {inode : ℤ},
      ((fd : ℤ), k₁.bindFd fd ops inode) = ((d : ℤ), k) →
        fd = d ∧ k = k₁.bindFd d ops inode ∧ (k.getPcbNow.fd d).fileOps = some ops := by
    intro k₁ fd ops inode h
    obtain ⟨hfd, rfl⟩ := Prod.mk.inj h
    have heq : fd = d := by omega
    subst heq
    refine ⟨rfl, rfl, ?_⟩
    simp only [getPcbNow_bindFd, Function.update_self]
  have hneg : ∀ {k₁ : Kernel}, ((-1 : ℤ), k₁) ≠ ((d : ℤ), k) := by
    intro k₁ h
    have := (Prod.mk.inj h).1
    omega
  unfold openCall at hopen
  cases hfd : k₀.getAvailFd with
  | none =>
    rw [hfd] at hopen
    exact absurd hopen hneg
  | some q =>
    obtain ⟨fd, k₁⟩ := q
    obtain ⟨hlt, -, hk₁⟩ := k₀.getAvailFd_some hfd
    simp only [hfd] at hopen
    split at hopen
    · split at hopen
      · exact absurd hopen hneg
      · rw [(hbound hopen).2.2] at hops
        cases hops
    · split at hopen
      · split at hopen
        · exact absurd hopen hneg
        · rw [(hbound hopen).2.2] at hops
          cases hops
      · split at hopen
        · exact absurd hopen hneg
        · next hres =>
          obtain ⟨rfl, rfl, -⟩ := hbound hopen
          rcases fileOpen_eq wf hname with ⟨e, he, heq⟩ | ⟨-, hlt⟩
          · refine ⟨e, he, hlt, ?_, ?_⟩
            · rw [getPcbNow_bindFd, hk₁, Kernel.getPcbNow_setAvailable]
              exact Function.update_self _ _ _
            · rw [getPcbNow_bindFd, heq]
              exact Function.update_self _ _ _
          · exact absurd hlt hres

/-- **Chunked reading.** On a descriptor that `open` bound to a file, whatever happens on other
descriptors: the chunks returned so far are the prefix of the file of the length asked for, the
position is within the file, and the next read returns exactly what is left of its request. -/
theorem chunked_reading (img : Image) (wf : img.WellFormedDirectory) (fs : Filesystem)
    (hfs : initFilesystem img = some fs) (k₀ k : Kernel) (name : List UInt8) (hname : 0 ∉ name) (d : ℕ)
    (hopen : openCall img k₀ name = ((d : ℤ), k)) (hops : (k.getPcbNow.fd d).fileOps = some .file)
    (s : Session) (h : Reaches (sessionStep img fs d) (staysOpen d) ⟨k, [], 0⟩ s) :
    ∃ e pos, img.firstNamed name = some e ∧ pos ≤ img.fileLength (img.entryInode e) ∧
      (s.kernel.getPcbNow.fd d).filePos = pos ∧ pos = min s.asked (img.fileLength (img.entryInode e)) ∧
      s.chunks = (img.fileBytes (img.entryInode e)).take (min s.asked (img.fileLength (img.entryInode e))) ∧
      ∀ (m : ℕ → UInt8) w stack buf nbytes, nbytes < 2 ^ 32 → ∃ r k' m',
        readCall img fs s.kernel m w stack d buf nbytes = .done r k' m' ∧
        r = (min nbytes (img.fileLength (img.entryInode e) - pos) : ℕ) ∧ r ≠ -1 ∧
        (pos = img.fileLength (img.entryInode e) → r = 0) := by
  rw [wf.toWellFormed.initFilesystem_eq, Option.some.injEq] at hfs
  subst hfs
  obtain ⟨e, he, hd, hholds⟩ := openCall_bound wf hname hopen hops
  have hi := wf.inode_lt e (img.firstNamed_some he).1
  have hstart : ReadSoFar img (img.entryInode e) d ⟨k, [], 0⟩ :=
    ⟨by rw [Nat.zero_min]; exact hholds, (List.take_zero).symm⟩
  have hrun := h.invariant hstart fun _ _ _ hs hc hstep =>
    sessionStep_readSoFar wf.toWellFormed hi hd hs hc hstep
  refine ⟨e, min s.asked (img.fileLength (img.entryInode e)), he, Nat.min_le_right _ _, ?_, rfl, ?_, ?_⟩
  · rw [hrun.holds.fd]
    rfl
  · rw [hrun.chunks]
    have hlen := img.fileBytes_length (img.entryInode e)
    conv_lhs => rw [List.take_eq_take_min, hlen]
  · intro m w stack buf nbytes _
    obtain ⟨k', hread, -⟩ := readCall_file wf.toWellFormed hi (Nat.min_le_right _ _) hd hrun.holds m w stack buf nbytes
    exact ⟨_, k', _, hread, rfl, by omega, fun hpos => by rw [hpos, Nat.sub_self, Nat.min_zero]; rfl⟩

/-- The file of the shell, opened and read in two chunks with the clock opened in between. -/
theorem chunked_reading_shell : ∃ s : Session, s.asked = 30 ∧ ∃ e pos : ℕ, Image.small.firstNamed shell = some e ∧
    (s.kernel.getPcbNow.fd 2).filePos = pos ∧ pos = min s.asked (Image.small.fileLength (Image.small.entryInode e)) ∧
      s.chunks = (Image.small.fileBytes (Image.small.entryInode e)).take
        (min s.asked (Image.small.fileLength (Image.small.entryInode e))) := by
  let k := (openCall Image.small Kernel.oneProcess shell).2
  let calls : List Call := [.reading (fun _ => 0) ⟨k.keyboard, k.rtc⟩ (fun _ => 0) 2 programAddr 10, .opening rtcName,
    .reading (fun _ => 0) ⟨k.keyboard, k.rtc⟩ (fun _ => 0) 2 programAddr 20]
  let stays : Session → Call → Bool := fun _ c => match c with
    | .closing fd => fd ≠ 2
    | _ => true
  have hstays : ∀ s c, stays s c = true → staysOpen 2 s c := by
    rintro s c h rfl
    exact absurd rfl (of_decide_eq_true h)
  have hopen : (openCall Image.small Kernel.oneProcess shell).1 = ((2 : ℕ) : ℤ) := by decide
  have hops : (k.getPcbNow.fd 2).fileOps = some .file := by decide
  have hobs : (runEvents (guarded (sessionStep Image.small (Image.WellFormed.pointers Image.small) 2) stays)
      ⟨k, [], 0⟩ calls).map (fun s => s.asked) = some 30 := by decide +kernel
  obtain ⟨s, hs, hasked⟩ := Option.map_eq_some_iff.mp hobs
  have hrun := reaches_of_guarded hstays (reaches_of_runEvents hs)
  obtain ⟨e, pos, he, -, hpos, hmin, hchunks, -⟩ := chunked_reading Image.small Image.small_wellFormed _
    Image.small_wellFormed.toWellFormed.initFilesystem_eq Kernel.oneProcess k shell (by decide) 2
    (Prod.ext hopen rfl) hops s hrun
  exact ⟨s, hasked, e, pos, he, hpos, hmin, hchunks⟩

end Kernel391
