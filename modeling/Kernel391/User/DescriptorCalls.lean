import Kernel391.User.Calls

/-! What the system calls on descriptors do to a running program: at most the descriptor they
are given is another afterwards, and nothing is printed. -/
namespace Kernel391
open Kernel391.Foundations
set_option autoImplicit false

/-! ## Descriptors -/

/-- A directory descriptor at entry `e`. -/
def dirAt (e : ℕ) : FileDescriptor := { fileOps := some .directory, inode := -1, filePos := e, flags := 0 }

def rtcAt : FileDescriptor := { fileOps := some .rtc, inode := -1, filePos := 0, flags := 0 }

/-- A wait for the clock ends with its interrupt. -/
def Host.Ticks (h : Host) : Prop := ∀ n k, (h.waited n k).rtc.interrupt k.getPcbNow.terminalInfo.terminalNum = 1

/-- Descriptor `d` can be had. -/
def Kernel.Free (k : Kernel) (d : ℕ) : Prop := k.getPcbNow.available d ≠ 0

/-- At most descriptor `d` of the process is another. -/
structure Leaves (p d : ℕ) (s s' : UserState) : Prop where
  running : s'.Running p
  others : ∀ d' f, d' ≠ d → s.kernel.Holds d' f → s'.kernel.Holds d' f
  free : ∀ d', d' ≠ d → s.kernel.Free d' → s'.kernel.Free d'

/-- And nothing was printed. -/
structure Touches (p d : ℕ) (s s' : UserState) : Prop extends Leaves p d s s' where
  printed : s'.printed = s.printed

/-- A free descriptor of the process is `f` now. -/
structure Opens (p d : ℕ) (f : FileDescriptor) (s s' : UserState) : Prop extends Touches p d s s' where
  lt : d < maxFiles
  fresh : s.kernel.Free d
  memory : s'.memory = s.memory
  holds : s'.kernel.Holds d f

theorem free_of_belongings {k k' : Kernel} {d : ℕ}
    (hb : k'.getPcbNow.belongings = k.getPcbNow.belongings) (h : k.Free d) :
    k'.Free d := by
  unfold Kernel.Free
  rw [show k'.getPcbNow.available = k.getPcbNow.available from congrArg Belongings.available hb]
  exact h

section Pages
variable {σ : Type} [ByteStore σ] {img : Image} {fs : Filesystem} {k k' : Kernel} {m m' : σ} {w : Waited}
  {stack : ℕ → UInt8} {fd buf nbytes p : ℕ} {r : ℤ}

def Kernel.walked (k : Kernel) : (ℕ → PageDirEntry) × (ℕ → ℕ) := (k.pageDir, k.pageTbl)

theorem Kernel.Serves.of_walked (hk : k.Serves p) (h : k'.walked = k.walked) : k'.Serves p :=
  hk.of_pages (congrArg Prod.fst h) (congrArg Prod.snd h)

theorem readCall_walked (h : readCall img fs k m w stack fd buf nbytes = .done r k' m') : k'.walked = k.walked := by
  unfold readCall at h
  split at h
  · cases h
    rfl
  · split at h
    · cases h
      rfl
    · split at h
      · cases h
      · next ops _ =>
        cases ops with
        | stdin =>
          simp only [FileOps.read] at h
          split at h
          · cases h
          · cases h
          · next hread =>
            cases h
            unfold terminalRead at hread
            split at hread
            · cases hread
              rfl
            · split at hread
              · cases hread
                rfl
              · simp only at hread
                split at hread
                · simp only [Option.some.injEq] at hread
                  split at hread <;> cases hread
                  rfl
                · cases hread
        | stdout =>
          cases h
          rfl
        | file =>
          simp only [FileOps.read, fileRead] at h
          split at h <;> cases h
          rfl
        | directory =>
          simp only [FileOps.read, dirRead] at h
          split at h
          · cases h
            rfl
          · split at h <;> cases h
            rfl
        | rtc =>
          simp only [FileOps.read] at h
          split at h
          · cases h
          · next hread =>
            cases h
            unfold Kernel.rtcRead at hread
            simp only at hread
            split at hread <;> cases hread
            rfl

theorem openCall_walked (name : List UInt8) : (openCall img k name).2.walked = k.walked := by
  unfold openCall
  cases hfd : k.getAvailFd with
  | none => rfl
  | some q =>
    obtain ⟨fd, k₁⟩ := q
    obtain ⟨-, -, rfl⟩ := k.getAvailFd_some hfd
    simp only
    split
    · split <;> rfl
    · split
      · split <;> rfl
      · split <;> rfl

/-- **One read** of the directory at entry `e`. -/
theorem readCall_directory {e : ℕ} (hd : fd < maxFiles) (h : k.Holds fd (dirAt e)) {n : ℕ} (hn : n < 2 ^ 31)
    (m : ℕ → UInt8) (w : Waited) (stack : ℕ → UInt8) (he : e < img.dirCount) :
    ∃ k', readCall img fs k m w stack fd buf n = .done (min n (img.reportedLength e) : ℕ) k'
        (overlay m buf ((img.entryName e).take n ++
          List.replicate (min n (img.reportedLength e) - (img.entryName e).length) 0)) ∧
      k'.Holds fd (dirAt (e + 1)) := by
  have hle := img.reportedLength_le e
  have hle' := img.entryName_le_reported e
  have hword : img.dirCount < 2 ^ 32 := wordAt_lt _ _
  have hpos : uint32 (dirAt e).filePos = e := by
    unfold uint32 dirAt
    simp only
    omega
  have htake : (img.entryName e).take (min n (img.reportedLength e)) = (img.entryName e).take n := by
    rw [List.take_eq_take_iff]
    omega
  have hlen : min n (img.reportedLength e) - ((img.entryName e).take n).length =
      min n (img.reportedLength e) - (img.entryName e).length := by
    rw [List.length_take]
    omega
  have hret : int32 (min n (img.reportedLength e)) = (min n (img.reportedLength e) : ℕ) := int32_of_lt (by omega)
  refine ⟨k.setFd fd (dirAt (e + 1)), ?_, ?_, ?_⟩
  · unfold readCall
    simp only [maxFiles] at hd
    rw [if_neg (by omega), if_neg (by rw [h.used]; decide), h.fd]
    simp only [dirAt, FileOps.read, dirRead, h.fd]
    simp only [dirAt] at hpos
    simp only [hpos, if_neg (Nat.not_le.mpr he), img.lenToCopy_eq hn, strncpyTo,
      img.window_field e stack ((Nat.min_le_right n _).trans hle), putBytes_function, htake, hlen, hret]
    rfl
  · rw [Kernel.getPcbNow_setFd]
    exact h.used
  · rw [Kernel.getPcbNow_setFd]
    exact Function.update_self _ _ _

theorem readCall_directory_end {e : ℕ} (hd : fd < maxFiles) (h : k.Holds fd (dirAt e)) {n : ℕ}
    (m : ℕ → UInt8) (w : Waited)
    (stack : ℕ → UInt8) (he : img.dirCount ≤ e) (he' : e < 2 ^ 32) :
    readCall img fs k m w stack fd buf n = .done 0 k m := by
  have hpos : uint32 (e : ℤ) = e := by
    unfold uint32
    omega
  unfold readCall
  simp only [maxFiles] at hd
  rw [if_neg (by omega), if_neg (by rw [h.used]; decide), h.fd]
  simp only [dirAt, FileOps.read, dirRead, h.fd, hpos, if_pos he]

end Pages

section Specs
variable {h : Host} {p d : ℕ} {s s' s'' : UserState}

theorem Leaves.trans (h₁ : Leaves p d s s') (h₂ : Leaves p d s' s'') : Leaves p d s s'' where
  running := h₂.running
  others d' f hne hf := h₂.others d' f hne (h₁.others d' f hne hf)
  free d' hne hf := h₂.free d' hne (h₁.free d' hne hf)

theorem Leaves.of_belongings (hrun : s'.Running p) (hb : s'.belongings = s.belongings) : Leaves p d s s' where
  running := hrun
  others _ _ _ hf := holds_of_belongings hb hf
  free _ _ hf := free_of_belongings hb hf

theorem Opens.two_le {f : FileDescriptor} (h : Opens p d f s s') (hs : s.Running p) : 2 ≤ d := by
  have hin : d ≠ 0 := fun hd => (hd ▸ h.fresh) hs.stdin.used
  have hout : d ≠ 1 := fun hd => (hd ▸ h.fresh) hs.stdout.used
  omega

theorem ends_read (hs : s.Running p) (hsp : h.Spares p) (hd : 2 ≤ d) {buf n : ℕ} {r : ℤ} {k : Kernel} {m : ℕ → UInt8}
    (hread : readCall h.img h.fs (h.enter s).kernel s.memory (h.waited (h.enter s).calls (h.enter s).kernel)
      (h.stack (h.enter s).calls) d buf n = .done r k m) :
    Ends (ece391Read h d buf n) s fun r' s' => r' = r ∧ s'.kernel = k ∧ s'.memory = m ∧ Touches p d s s' := by
  have hin := hs.enter hsp
  have hkept : ∀ d' f, d' ≠ d → s.kernel.Holds d' f → k.Holds d' f := fun d' f hne hf =>
    holds_read (holds_of_belongings hin.belongings hf) hne.symm hread
  obtain ⟨-, pos, hpcb⟩ := readCall_pcb hread
  have hfree : ∀ d', s.kernel.Free d' → k.Free d' := fun d' hf => by
    have hav : k.getPcbNow.available = (h.enter s).kernel.getPcbNow.available := by rw [hpcb]
    unfold Kernel.Free
    rw [hav]
    exact free_of_belongings hin.belongings hf
  unfold ece391Read
  simp only [ends_bind, ends_modify, ends_get, show (h.enter s).memory = s.memory from rfl, hread, ends_set,
    ends_pure, true_and]
  exact ⟨⟨⟨hin.running.serves.of_walked (readCall_walked hread), hkept 0 _ (by omega) hs.stdin,
    hkept 1 _ (by omega) hs.stdout⟩, hkept,
    fun d' _ => hfree d'⟩, rfl⟩

theorem ends_read_file (wf : h.img.WellFormed) (hfs : h.fs = Image.WellFormed.pointers h.img) (hs : s.Running p)
    (hsp : h.Spares p) (hd : 2 ≤ d) (hlt : d < maxFiles) {i pos : ℕ} (hi : i < h.img.inodeCount)
    (hpos : pos ≤ h.img.fileLength i) (hf : s.kernel.Holds d (fileAt i pos)) (buf n : ℕ) :
    Ends (ece391Read h d buf n) s fun r s' =>
      r = (min n (h.img.fileLength i - pos) : ℕ) ∧ Touches p d s s' ∧
      s'.memory = overlay s.memory buf (h.img.fileSlice i pos (min n (h.img.fileLength i - pos))) ∧
      s'.kernel.Holds d (fileAt i (pos + min n (h.img.fileLength i - pos))) := by
  obtain ⟨k, hread, hk⟩ := readCall_file wf hi hpos hlt (holds_of_belongings (hs.enter hsp).belongings hf) s.memory
    (h.waited (h.enter s).calls (h.enter s).kernel) (h.stack (h.enter s).calls) buf n
  rw [← hfs] at hread
  refine (ends_read hs hsp hd hread).mono ?_
  rintro r s' ⟨hr, rfl, hm, ht⟩
  exact ⟨hr, ht, hm, hk⟩

theorem ends_read_directory (hs : s.Running p) (hsp : h.Spares p) (hd : 2 ≤ d) (hlt : d < maxFiles) {e : ℕ}
    (he : e < h.img.dirCount) (hf : s.kernel.Holds d (dirAt e)) (buf : ℕ) {n : ℕ} (hn : n < 2 ^ 31) :
    Ends (ece391Read h d buf n) s fun r s' =>
      r = (min n (h.img.reportedLength e) : ℕ) ∧ Touches p d s s' ∧
      s'.memory = overlay s.memory buf ((h.img.entryName e).take n ++
        List.replicate (min n (h.img.reportedLength e) - (h.img.entryName e).length) 0) ∧
      s'.kernel.Holds d (dirAt (e + 1)) := by
  obtain ⟨k, hread, hk⟩ :=
    @readCall_directory h.img h.fs _ _ buf _ hlt (holds_of_belongings (hs.enter hsp).belongings hf) _ hn
    s.memory (h.waited (h.enter s).calls (h.enter s).kernel) (h.stack (h.enter s).calls) he
  refine (ends_read hs hsp hd hread).mono ?_
  rintro r s' ⟨hr, rfl, hm, ht⟩
  exact ⟨hr, ht, hm, hk⟩

theorem ends_read_directory_end (hs : s.Running p) (hsp : h.Spares p) (hd : 2 ≤ d) (hlt : d < maxFiles) {e : ℕ}
    (he : h.img.dirCount ≤ e) (he' : e < 2 ^ 32) (hf : s.kernel.Holds d (dirAt e)) (buf n : ℕ) :
    Ends (ece391Read h d buf n) s fun r s' =>
      r = 0 ∧ Touches p d s s' ∧ s'.memory = s.memory ∧ s'.kernel.Holds d (dirAt e) := by
  have hf' := holds_of_belongings (hs.enter hsp).belongings hf
  have hread := @readCall_directory_end h.img h.fs _ _ buf _ hlt hf' n s.memory
    (h.waited (h.enter s).calls (h.enter s).kernel) (h.stack (h.enter s).calls) he he'
  refine (ends_read hs hsp hd hread).mono ?_
  rintro r s' ⟨hr, hk, hm, ht⟩
  exact ⟨hr, ht, hm, hk ▸ hf'⟩

/-- **Reading the clock** waits for it and stores nothing. -/
theorem ends_read_rtc (hs : s.Running p) (hsp : h.Spares p) (hticks : h.Ticks) (hd : 2 ≤ d) (hlt : d < maxFiles)
    (hf : s.kernel.Holds d rtcAt) (buf n : ℕ) : Ends (ece391Read h d buf n) s fun r s' =>
      r = 0 ∧ Touches p d s s' ∧ s'.memory = s.memory ∧ s'.kernel.Holds d rtcAt := by
  have hf' := holds_of_belongings (hs.enter hsp).belongings hf
  have hread : ∃ k, readCall h.img h.fs (h.enter s).kernel s.memory (h.waited (h.enter s).calls (h.enter s).kernel)
      (h.stack (h.enter s).calls) d buf n = .done 0 k s.memory ∧ k.getPcbNow = (h.enter s).kernel.getPcbNow := by
    have htick := hticks (h.enter s).calls (h.enter s).kernel
    unfold Kernel.getPcbNow at htick
    unfold readCall
    simp only [maxFiles] at hlt
    rw [if_neg (by omega), if_neg (by rw [hf'.used]; decide), hf'.fd]
    simp only [rtcAt, FileOps.read, Kernel.rtcRead, htick, if_pos]
    exact ⟨_, rfl, rfl⟩
  obtain ⟨k, hread, hk⟩ := hread
  refine (ends_read hs hsp hd hread).mono ?_
  rintro r s' ⟨hr, rfl, hm, ht⟩
  exact ⟨hr, ht, hm, hk.symm ▸ hf'.used, hk.symm ▸ hf'.fd⟩

/-! ## Opening and closing -/

theorem ends_open (hs : s.Running p) (hsp : h.Spares p) (filename : ℕ) : Ends (ece391Open h filename) s fun r s' =>
    r = (openCall h.img (h.enter s).kernel (stringAt s.memory filename)).1 ∧
    s'.kernel = (openCall h.img (h.enter s).kernel (stringAt s.memory filename)).2 ∧
    s'.memory = s.memory ∧ s'.printed = s.printed ∧ s'.Running p := by
  have hin := hs.enter hsp
  unfold ece391Open
  simp only [ends_bind, ends_modify, ends_get, ends_set, ends_pure]
  exact ⟨rfl, rfl, rfl, rfl, hin.running.serves.of_walked (openCall_walked _), holds_open _ hin.running.stdin,
    holds_open _ hin.running.stdout⟩

theorem bindFd_others {k k₂ : Kernel} (hk : k₂.getPcbNow = (k.setAvailable d 0).getPcbNow) (ops : FileOps) (inode : ℤ) :
    (k₂.bindFd d ops inode).Holds d { fileOps := some ops, inode := inode, filePos := 0, flags := 0 } ∧
      ∀ d', d' ≠ d → k.Free d' → (k₂.bindFd d ops inode).Free d' := by
  have hpcb : (k₂.bindFd d ops inode).getPcbNow = { k.getPcbNow with
      available := Function.update k.getPcbNow.available d 0
      fd := Function.update k.getPcbNow.fd d { fileOps := some ops, inode := inode, filePos := 0, flags := 0 } } := by
    rw [getPcbNow_bindFd, hk, Kernel.getPcbNow_setAvailable]
  refine ⟨⟨?_, ?_⟩, fun d' hne hf => ?_⟩
  · rw [hpcb]
    exact Function.update_self _ _ _
  · rw [hpcb]
    exact Function.update_self _ _ _
  · unfold Kernel.Free
    rw [hpcb]
    simp only [Function.update_of_ne hne]
    exact hf

theorem ends_open_bound (hs : s.Running p) (hsp : h.Spares p) {filename : ℕ} (hd : d < maxFiles)
    (hfree : (h.enter s).kernel.Free d) {ops : FileOps} {inode : ℤ} {k₂ : Kernel}
    (hk₂ : k₂.getPcbNow = ((h.enter s).kernel.setAvailable d 0).getPcbNow)
    (hopen : openCall h.img (h.enter s).kernel (stringAt s.memory filename) = ((d : ℤ), k₂.bindFd d ops inode)) :
    Ends (ece391Open h filename) s fun r s' =>
      r = d ∧ Opens p d { fileOps := some ops, inode := inode, filePos := 0, flags := 0 } s s' := by
  have hin := hs.enter hsp
  have hback : s.belongings = (h.enter s).belongings := hin.belongings.symm
  obtain ⟨hnew, hothers⟩ := bindFd_others hk₂ ops inode
  refine (ends_open hs hsp filename).mono ?_
  rintro r s' ⟨hr, hk, hm, hp, hrun⟩
  rw [hopen] at hr hk
  refine ⟨hr, ⟨⟨hrun, fun d' f _ hf => ?_, fun d' hne hf => ?_⟩, hp⟩, hd, free_of_belongings hback hfree, hm, hk ▸ hnew⟩
  · have hheld := @holds_open h.img _ _ _ (stringAt s.memory filename) (holds_of_belongings hin.belongings hf)
    rw [hopen] at hheld
    rw [hk]
    exact hheld
  · rw [hk]
    exact hothers d' hne (free_of_belongings hin.belongings hf)

theorem Kernel.fdFree_some {k : Kernel} (hfree : k.FdFree) : ∃ d, d < maxFiles ∧ k.Free d ∧
    k.getAvailFd = some (d, k.setAvailable d 0) := by
  cases hfd : k.getAvailFd with
  | none => exact absurd hfree ((k.getAvailFd_none).mp hfd)
  | some q =>
    obtain ⟨d, k₁⟩ := q
    obtain ⟨hlt, hav, rfl⟩ := k.getAvailFd_some hfd
    exact ⟨d, hlt, hav, rfl⟩

theorem fdFree_of_belongings {k k' : Kernel} (hb : k'.getPcbNow.belongings = k.getPcbNow.belongings)
    (hf : k.FdFree) : k'.FdFree := by
  obtain ⟨d, hlt, hd⟩ := hf
  exact ⟨d, hlt, free_of_belongings hb hd⟩

theorem stringAt_noNul (m : ℕ → UInt8) (a : ℕ) : (0 : UInt8) ∉ stringAt m a := window_noNul

theorem ends_open_directory (special : SpecialEntries h.img) (hs : s.Running p) (hsp : h.Spares p)
    (hfree : s.kernel.FdFree)
    {filename : ℕ} (hr : ¬ rtcName <+: stringAt s.memory filename) (hdot : dotName <+: stringAt s.memory filename) :
    Ends (ece391Open h filename) s fun r s' => ∃ d, r = (d : ℕ) ∧ Opens p d (dirAt 0) s s' := by
  obtain ⟨d, hlt, hd, hfd⟩ := Kernel.fdFree_some (fdFree_of_belongings (hs.enter hsp).belongings hfree)
  exact (ends_open_bound hs hsp hlt hd rfl (openCall_directory special (stringAt_noNul _ _) hr hdot hfd)).mono
    fun r s' hq => ⟨d, hq⟩

theorem ends_open_rtc (hs : s.Running p) (hsp : h.Spares p) (hfree : s.kernel.FdFree) {filename : ℕ}
    (hr : rtcName <+: stringAt s.memory filename) :
    Ends (ece391Open h filename) s fun r s' => ∃ d, r = (d : ℕ) ∧ Opens p d rtcAt s s' := by
  obtain ⟨d, hlt, hd, hfd⟩ := Kernel.fdFree_some (fdFree_of_belongings (hs.enter hsp).belongings hfree)
  exact (ends_open_bound hs hsp hlt hd (Kernel.getPcbNow_rtcOpen _) (openCall_rtc (stringAt_noNul _ _) hr hfd)).mono
    fun r s' hq => ⟨d, hq⟩

theorem ends_open_file (wf : h.img.WellFormedDirectory) (hs : s.Running p) (hsp : h.Spares p) (hfree : s.kernel.FdFree)
    {filename e : ℕ} (hr : ¬ rtcName <+: stringAt s.memory filename) (hdot : ¬ dotName <+: stringAt s.memory filename)
    (he : h.img.firstNamed (stringAt s.memory filename) = some e) :
    Ends (ece391Open h filename) s fun r s' => ∃ d, r = (d : ℕ) ∧ Opens p d (fileAt (h.img.entryInode e) 0) s s' := by
  obtain ⟨d, hlt, hd, hfd⟩ := Kernel.fdFree_some (fdFree_of_belongings (hs.enter hsp).belongings hfree)
  exact (ends_open_bound hs hsp hlt hd rfl (openCall_file wf (stringAt_noNul _ _) hr hdot hfd he)).mono
    fun r s' hq => ⟨d, hq⟩

/-- **A name that is not there**: nothing is opened. -/
theorem ends_open_missing (wf : h.img.WellFormedDirectory) (hs : s.Running p) (hsp : h.Spares p)
    (hfree : s.kernel.FdFree)
    {filename : ℕ} (hr : ¬ rtcName <+: stringAt s.memory filename) (hdot : ¬ dotName <+: stringAt s.memory filename)
    (he : h.img.firstNamed (stringAt s.memory filename) = none) :
    Ends (ece391Open h filename) s fun r s' =>
      r = -1 ∧ s'.Running p ∧ s'.memory = s.memory ∧ s'.printed = s.printed := by
  obtain ⟨d, hlt, hd, hfd⟩ := Kernel.fdFree_some (fdFree_of_belongings (hs.enter hsp).belongings hfree)
  refine (ends_open hs hsp filename).mono ?_
  rintro r s' ⟨hr', -, hm, hp, hrun⟩
  rw [openCall_missing wf (stringAt_noNul _ _) hr hdot hfd he] at hr'
  exact ⟨hr', hrun, hm, hp⟩

theorem ends_close (hs : s.Running p) (hsp : h.Spares p) (hd : 2 ≤ d) (hlt : d < maxFiles)
    {f : FileDescriptor} {ops : FileOps}
    (hf : s.kernel.Holds d f) (hops : f.fileOps = some ops) : Ends (ece391Close h d) s fun r s' =>
      r = ops.close ∧ Touches p d s s' ∧ s'.memory = s.memory ∧ s'.kernel.Free d := by
  have hin := hs.enter hsp
  have hf' := holds_of_belongings hin.belongings hf
  have hclose : closeCall (h.enter s).kernel d = some (ops.close, (h.enter s).kernel.setAvailable d 1) := by
    unfold closeCall
    simp only [maxFiles] at hlt
    rw [if_neg (by omega), if_neg (by rw [hf'.used]; decide), hf'.fd, hops]
    rfl
  unfold ece391Close
  simp only [ends_bind, ends_modify, ends_get, hclose, ends_set, ends_pure, true_and]
  refine ⟨⟨⟨⟨hin.running.serves.of_walked rfl, holds_setAvailable hin.running.stdin (by omega),
    holds_setAvailable hin.running.stdout (by omega)⟩, fun d' f hne hf => ?_, fun d' hne hf => ?_⟩, rfl⟩, rfl, ?_⟩
  · exact holds_setAvailable (holds_of_belongings hin.belongings hf) hne.symm
  · unfold Kernel.Free
    rw [Kernel.getPcbNow_setAvailable]
    simp only [Function.update_of_ne hne]
    exact free_of_belongings hin.belongings hf
  · unfold Kernel.Free
    rw [Kernel.getPcbNow_setAvailable]
    simp only [Function.update_self]
    decide

/-- **The arguments**, if there are any and they fit. -/
theorem ends_getargs (hs : s.Running p) (hsp : h.Spares p) {buf n : ℕ} (hbuf : buf ≠ 0) (args : List UInt8)
    (hargs : s.kernel.getPcbNow.arguments = args) : Ends (ece391Getargs h buf n) s fun r s' =>
      (r = if args ≠ [] ∧ args.length + 1 ≤ n then 0 else -1) ∧
      s'.memory = (if args ≠ [] ∧ args.length + 1 ≤ n then overlay s.memory buf (args ++ [0]) else s.memory) ∧
      s'.Running p ∧ s'.printed = s.printed ∧ s'.belongings = s.belongings := by
  have hin := hs.enter hsp
  have hbytes := arguments_of_belongings hin.belongings
  have harg : (h.enter s).kernel.getPcbNow.arguments = args := by
    rw [← hargs]
    unfold Pcb.arguments
    rw [hbytes]
  have hcopy : strncpyTo s.memory buf (h.enter s).kernel.getPcbNow.argsBytes args.length = .ok
    (overlay s.memory buf args) := by
    have hwin : window (h.enter s).kernel.getPcbNow.argsBytes args.length 0 = args := by
      rw [← harg]
      exact window_self
    unfold strncpyTo
    rw [hwin, Nat.sub_self, List.replicate_zero, List.append_nil, putBytes_function]
  have hcall : getargs (h.enter s).kernel s.memory buf n =
      .ok (if args ≠ [] ∧ args.length + 1 ≤ n then (0, overlay s.memory buf (args ++ [0])) else (-1, s.memory)) := by
    unfold getargs
    simp only [harg, hcopy]
    by_cases hfit : args ≠ [] ∧ args.length + 1 ≤ n
    · have hlen : args.length ≠ 0 := fun hx => hfit.1 (List.length_eq_zero_iff.mp hx)
      rw [if_pos hfit, if_neg (by omega), overlay_append, overlay_single]
      rfl
    · rw [if_neg hfit, if_pos]
      by_cases hnil : args = []
      · exact Or.inr (Or.inl (by rw [hnil]; rfl))
      · exact Or.inr (Or.inr (by
          by_contra hlt
          exact hfit ⟨hnil, by omega⟩))
  unfold ece391Getargs
  simp only [ends_bind, ends_modify, ends_get, show (h.enter s).memory = s.memory from rfl, hcall]
  by_cases hfit : args ≠ [] ∧ args.length + 1 ≤ n
  · simp only [if_pos hfit, ends_set, ends_pure, true_and]
    exact ⟨⟨hin.running.serves, hin.running.stdin, hin.running.stdout⟩, rfl, hin.belongings⟩
  · simp only [if_neg hfit, ends_set, ends_pure, true_and]
    exact ⟨⟨hin.running.serves, hin.running.stdin, hin.running.stdout⟩, rfl, hin.belongings⟩

end Specs

end Kernel391
