import Kernel391.Process.Arguments
import Kernel391.Process.ChunkedReading

/-! Listing the directory, read after read on one descriptor. `dir_read` takes a name to be
32 characters long when the last byte of its field is not NUL, so a field with a NUL
further up and something behind it is reported too long. -/
namespace Kernel391
open Kernel391.Foundations
set_option autoImplicit false

/-! ## The field of a name -/

namespace Image
variable (img : Image)

/-- The last byte of the field tells whether the name fills it. -/
def EndsField (e : ℕ) : Prop := (img.nameField e).getD (filenameLen - 1) 0 ≠ 0 → 0 ∉ img.nameField e

theorem nameField_length (e : ℕ) : (img.nameField e).length = filenameLen := by
  unfold nameField
  rw [List.length_map, List.length_range]

theorem entryName_full {e : ℕ} (h : 0 ∉ img.nameField e) : img.entryName e = img.nameField e := by
  unfold entryName
  rw [List.takeWhile_eq_self_iff]
  exact fun c hc => decide_eq_true fun hx => h (hx ▸ hc)

theorem entryName_short {e : ℕ} (h : 0 ∈ img.nameField e) : (img.entryName e).length < filenameLen := by
  refine Nat.lt_of_le_of_ne (img.entryName_length_le e) fun hlen => ?_
  have hall : img.entryName e = img.nameField e :=
    (List.takeWhile_prefix _).eq_of_length (hlen.trans (img.nameField_length e).symm)
  unfold entryName at hall
  rw [List.takeWhile_eq_self_iff] at hall
  have hzero := hall 0 h
  simp at hzero

theorem entryName_noNul (e : ℕ) : 0 ∉ img.entryName e := by
  intro h
  have hzero := List.mem_takeWhile_imp h
  simp at hzero

/-- The length `dir_read` takes a name to have. -/
def reportedLength (e : ℕ) : ℕ :=
  if (img.nameField e).getD (filenameLen - 1) 0 ≠ 0 then filenameLen else (img.entryName e).length

theorem entryName_le_reported (e : ℕ) : (img.entryName e).length ≤ img.reportedLength e := by
  unfold reportedLength
  split
  · exact img.entryName_length_le e
  · exact Nat.le_refl _

theorem reportedLength_le (e : ℕ) : img.reportedLength e ≤ filenameLen := by
  unfold reportedLength
  split
  · exact Nat.le_refl _
  · exact img.entryName_length_le e

theorem reportedLength_eq_iff (e : ℕ) : img.reportedLength e = (img.entryName e).length ↔ img.EndsField e := by
  unfold reportedLength EndsField
  by_cases hlast : (img.nameField e).getD (filenameLen - 1) 0 ≠ 0
  · rw [if_pos hlast]
    constructor
    · intro h _ hmem
      have hshort := img.entryName_short hmem
      omega
    · intro h
      rw [img.entryName_full (h hlast), img.nameField_length]
  · rw [if_neg hlast]
    exact iff_of_true rfl fun hx => absurd hx hlast

theorem lenToCopy_eq {e nbytes : ℕ} (h : nbytes < 2 ^ 31) :
    lenToCopy (img.nameField e) nbytes = min nbytes (img.reportedLength e) := by
  have hstrlen : strlen (img.nameField e) = (img.entryName e).length := rfl
  unfold lenToCopy reportedLength
  rw [int32_of_lt h, hstrlen]
  split
  · split
    · omega
    · omega
  · split
    · omega
    · omega

theorem window_field (e : ℕ) (stack : ℕ → UInt8) {n : ℕ} (hn : n ≤ filenameLen) :
    window (fun j => if j < filenameLen then (img.nameField e).getD j 0 else stack j) n 0 =
      (img.entryName e).take n := by
  have hcongr : window (fun j => if j < filenameLen then (img.nameField e).getD j 0 else stack j) n 0 =
      window (fun k => img.byte (img.dirEntry e + k)) n 0 := by
    refine window_congr fun j hj => ?_
    have hlt : j < filenameLen := by omega
    simp only [Nat.zero_add]
    unfold nameField
    rw [if_pos hlt, List.getD_eq_getElem?_getD, List.getElem?_map, List.getElem?_range hlt]
    rfl
  rw [hcongr, ← img.window_nameField]
  unfold window
  rw [List.take_takeWhile, ← List.map_take, List.take_range, Nat.min_eq_left hn]

end Image

/-! ## One read -/

/-- A `read` on the descriptor. -/
structure ListCall where
  waited : Waited
  stack : ℕ → UInt8
  buf : ℕ
  nbytes : ℕ

/-- The reads one after the other, each with the log of its own writes. -/
def listing (img : Image) (fs : Filesystem) (fd : ℕ) : Kernel → List ListCall → List (ReadOutcome WriteLog)
  | _, [] => []
  | k, c :: cs =>
    match readCall img fs k (⟨[]⟩ : WriteLog) c.waited c.stack fd c.buf c.nbytes with
    | .done r k m => .done r k m :: listing img fs fd k cs
    | o => [o]

/-- The read with number `e` returns entry `e`, or nothing when there is none. -/
def ListCall.Lists (img : Image) (e : ℕ) (c : ListCall) (o : ReadOutcome WriteLog) : Prop :=
  if e < img.dirCount then
    ∃ k, o = .done (min c.nbytes (img.entryName e).length : ℕ) k ⟨consecutive c.buf ((img.entryName e).take c.nbytes)⟩
  else ∃ k, o = .done 0 k ⟨[]⟩

/-- Entry `e` is reported as it is when a name is as long as the last byte of its field says, or asked for no
further. -/
def ListCall.Reported (img : Image) (e : ℕ) (c : ListCall) : Prop :=
  e < img.dirCount → img.EndsField e ∨ c.nbytes ≤ (img.entryName e).length

section Read
variable {img : Image} {fs : Filesystem} {k : Kernel} {fd e : ℕ} {f : FileDescriptor}

/-- A directory descriptor at entry `e`. -/
structure AtEntry (k : Kernel) (fd e : ℕ) : Prop where
  lt : fd < maxFiles
  used : k.getPcbNow.available fd = 0
  ops : (k.getPcbNow.fd fd).fileOps = some .directory
  pos : (k.getPcbNow.fd fd).filePos = e

theorem AtEntry.read {σ : Type} [ByteStore σ] (h : AtEntry k fd e) (m : σ) (c : ListCall) :
    readCall img fs k m c.waited c.stack fd c.buf c.nbytes = dirRead img k m c.stack fd c.buf c.nbytes := by
  have hlt := h.lt
  unfold readCall
  rw [if_neg (by simp only [maxFiles] at hlt; omega), if_neg (by rw [h.used]; decide), h.ops]
  rfl

theorem AtEntry.index (h : AtEntry k fd e) (he : e < 2 ^ 32) : uint32 (k.getPcbNow.fd fd).filePos = e := by
  rw [h.pos]
  unfold uint32
  omega

/-- **One read**: the name, as far as it was asked for, filled up with zeros to the reported length. -/
theorem AtEntry.reads (h : AtEntry k fd e) (he : e < img.dirCount) {c : ListCall} (hn : c.nbytes < 2 ^ 31) :
    ∃ k', readCall img fs k (⟨[]⟩ : WriteLog) c.waited c.stack fd c.buf c.nbytes =
      .done (min c.nbytes (img.reportedLength e) : ℕ) k' ⟨consecutive c.buf ((img.entryName e).take c.nbytes ++
        List.replicate (min c.nbytes (img.reportedLength e) - (img.entryName e).length) 0)⟩ ∧
          AtEntry k' fd (e + 1) := by
  have hle := img.reportedLength_le e
  have hle' := img.entryName_le_reported e
  have hpos := h.index (he.trans (wordAt_lt _ _))
  have htake : (img.entryName e).take (min c.nbytes (img.reportedLength e)) = (img.entryName e).take c.nbytes := by
    rw [List.take_eq_take_iff]
    omega
  have hlen : min c.nbytes (img.reportedLength e) - ((img.entryName e).take c.nbytes).length =
      min c.nbytes (img.reportedLength e) - (img.entryName e).length := by
    rw [List.length_take]
    omega
  have hret : int32 (min c.nbytes (img.reportedLength e)) = (min c.nbytes (img.reportedLength e) : ℕ) :=
    int32_of_lt (by omega)
  rw [h.read]
  unfold dirRead strncpyTo
  simp only [hpos, if_neg (Nat.not_le.mpr he), img.lenToCopy_eq hn,
    img.window_field e c.stack ((Nat.min_le_right c.nbytes _).trans hle), putBytes_log, List.nil_append,
      htake, hlen, hret]
  refine ⟨_, rfl, h.lt, ?_, ?_, ?_⟩
  · rw [Kernel.getPcbNow_setFd]
    exact h.used
  · simp only [Kernel.getPcbNow_setFd, Function.update_self]
    exact h.ops
  · simp only [Kernel.getPcbNow_setFd, Function.update_self]
    exact (Int.natCast_succ e).symm

theorem AtEntry.reads_end (h : AtEntry k fd e) (he : ¬ e < img.dirCount) (he' : e < 2 ^ 32) (c : ListCall) :
    readCall img fs k (⟨[]⟩ : WriteLog) c.waited c.stack fd c.buf c.nbytes = .done 0 k ⟨[]⟩ := by
  have hpos := h.index he'
  rw [h.read]
  unfold dirRead
  simp only [hpos, if_pos (Nat.not_lt.mp he)]

theorem lists_iff (he : e < img.dirCount) {c : ListCall} {k' : Kernel} :
    c.Lists img e
      (.done (min c.nbytes (img.reportedLength e) : ℕ) k' ⟨consecutive c.buf ((img.entryName e).take c.nbytes ++
      List.replicate (min c.nbytes (img.reportedLength e) - (img.entryName e).length) 0)⟩) ↔ c.Reported img e := by
  have hle := img.entryName_le_reported e
  have hiff := img.reportedLength_eq_iff e
  unfold ListCall.Lists ListCall.Reported
  rw [if_pos he]
  constructor
  · rintro ⟨k₁, h⟩ -
    have hmin := (ReadOutcome.done.inj h).1
    rw [Int.natCast_inj] at hmin
    by_cases hn : c.nbytes ≤ (img.entryName e).length
    · exact Or.inr hn
    · exact Or.inl (hiff.mp (by omega))
  · intro h
    have hmin : min c.nbytes (img.reportedLength e) = min c.nbytes (img.entryName e).length := by
      rcases h he with hends | hn
      · rw [hiff.mpr hends]
      · omega
    refine ⟨k', ?_⟩
    rw [hmin, show min c.nbytes (img.entryName e).length - (img.entryName e).length = 0 by omega, List.replicate_zero,
      List.append_nil]

theorem listing_get {n : ℕ} {calls : List ListCall} (h : AtEntry k fd (min n img.dirCount))
    (hn : ∀ c ∈ calls, c.nbytes < 2 ^ 31) {i : ℕ} {c : ListCall} (hc : calls[i]? = some c) :
    ∃ o, (listing img fs fd k calls)[i]? = some o ∧ (c.Lists img (n + i) o ↔ c.Reported img (n + i)) := by
  induction calls generalizing k n i with
  | nil => cases hc
  | cons c₀ cs ih =>
    have hword : img.dirCount < 2 ^ 32 := wordAt_lt _ _
    have htail : ∀ {k' : Kernel} {r : ℤ} {m : WriteLog}, AtEntry k' fd (min (n + 1) img.dirCount) →
        readCall img fs k (⟨[]⟩ : WriteLog) c₀.waited c₀.stack fd c₀.buf c₀.nbytes = .done r k' m →
        (c₀.Lists img n (.done r k' m) ↔ c₀.Reported img n) →
        ∃ o, (listing img fs fd k (c₀ :: cs))[i]? = some o ∧ (c.Lists img (n + i) o ↔ c.Reported img (n + i)) := by
      intro k' r m h' hread hfirst
      rw [listing, hread]
      cases i with
      | zero =>
        obtain rfl : c₀ = c := Option.some.inj hc
        exact ⟨_, rfl, hfirst⟩
      | succ i =>
        rw [show n + (i + 1) = n + 1 + i by omega]
        exact ih h' (fun c hc => hn c (List.mem_cons_of_mem c₀ hc)) hc
    by_cases he : n < img.dirCount
    · rw [Nat.min_eq_left he.le] at h
      obtain ⟨k', hread, h'⟩ := h.reads he (hn c₀ (List.mem_cons_self ..))
      exact htail (by rwa [Nat.min_eq_left he]) hread (lists_iff he)
    · rw [Nat.min_eq_right (Nat.not_lt.mp he)] at h
      refine htail (by rwa [Nat.min_eq_right (by omega)]) (h.reads_end (by omega) hword c₀) (iff_of_true ?_ ?_)
      · unfold ListCall.Lists
        rw [if_neg he]
        exact ⟨k, rfl⟩
      · exact fun hx => absurd hx he

theorem openCall_start {k₀ : Kernel} {name : List UInt8} (hopen : openCall img k₀ name = ((fd : ℤ), k)) :
    fd < maxFiles ∧ k.getPcbNow.available fd = 0 ∧ (k.getPcbNow.fd fd).filePos = 0 := by
  have hneg : ∀ {k₁ : Kernel}, ((-1 : ℤ), k₁) ≠ ((fd : ℤ), k) := by
    intro k₁ h
    have := (Prod.mk.inj h).1
    omega
  unfold openCall at hopen
  cases hfd : k₀.getAvailFd with
  | none =>
    rw [hfd] at hopen
    exact absurd hopen hneg
  | some q =>
    obtain ⟨j, k₁⟩ := q
    obtain ⟨hlt, -, hk₁⟩ := k₀.getAvailFd_some hfd
    have hbound : ∀ {k₂ : Kernel} {ops : FileOps} {inode : ℤ}, k₂.getPcbNow = k₁.getPcbNow →
        ((j : ℤ), k₂.bindFd j ops inode) = ((fd : ℤ), k) →
        fd < maxFiles ∧ k.getPcbNow.available fd = 0 ∧ (k.getPcbNow.fd fd).filePos = 0 := by
      intro k₂ ops inode hpcb h
      obtain ⟨hj, rfl⟩ := Prod.mk.inj h
      obtain rfl : j = fd := by omega
      refine ⟨hlt, ?_, ?_⟩
      · rw [getPcbNow_bindFd, hpcb, hk₁, Kernel.getPcbNow_setAvailable]
        exact Function.update_self _ _ _
      · simp only [getPcbNow_bindFd, Function.update_self]
    simp only [hfd] at hopen
    split at hopen
    · split at hopen
      · exact absurd hopen hneg
      · exact hbound k₁.getPcbNow_rtcOpen hopen
    · split at hopen
      · split at hopen
        · exact absurd hopen hneg
        · exact hbound rfl hopen
      · split at hopen
        · exact absurd hopen hneg
        · exact hbound rfl hopen

end Read

/-- **The directory is listed** entry by entry, each read in full, exactly when every name that is read is as long as
the last byte of its field says, or is asked for no further than it goes. -/
theorem directory_listing (img : Image) (fs : Filesystem) {k₀ k : Kernel} {name : List UInt8} {fd : ℕ}
    (hopen : openCall img k₀ name = ((fd : ℤ), k)) (hdir : (k.getPcbNow.fd fd).fileOps = some .directory)
    (calls : List ListCall) (hn : ∀ c ∈ calls, 1 ≤ c.nbytes ∧ c.nbytes < 2 ^ 31) :
    (∀ (i : ℕ) (c : ListCall), calls[i]? = some c → ∃ o, (listing img fs fd k calls)[i]? = some o ∧ c.Lists img i o) ↔
      ∀ (i : ℕ) (c : ListCall), calls[i]? = some c → c.Reported img i := by
  obtain ⟨hlt, hused, hpos⟩ := openCall_start hopen
  have hstart : AtEntry k fd (min 0 img.dirCount) := ⟨hlt, hused, hdir, by rw [hpos, Nat.zero_min]; rfl⟩
  have hget : ∀ (i : ℕ) (c : ListCall), calls[i]? = some c →
      ∃ o, (listing img fs fd k calls)[i]? = some o ∧ (c.Lists img (0 + i) o ↔ c.Reported img (0 + i)) :=
    fun i c hc => listing_get hstart (fun c hc => (hn c hc).2) hc
  simp only [Nat.zero_add] at hget
  constructor
  · intro h i c hc
    obtain ⟨o, ho, hlists⟩ := h i c hc
    obtain ⟨o', ho', hiff⟩ := hget i c hc
    obtain rfl := Option.some.inj (ho.symm.trans ho')
    exact hiff.mp hlists
  · intro h i c hc
    obtain ⟨o, ho, hiff⟩ := hget i c hc
    exact ⟨o, ho, hiff.mpr (h i c hc)⟩

/-- The directory of the small image: four names, then nothing. -/
theorem directory_listing_small : ∃ k, openCall Image.small Kernel.oneProcess dotName = (((2 : ℕ) : ℤ), k) ∧
    ∀ (i : ℕ) (c : ListCall),
      (List.replicate 5 (⟨⟨k.keyboard, k.rtc⟩, fun _ => 0, programAddr, 32⟩ : ListCall))[i]? = some c →
      ∃ o, (listing Image.small (Image.WellFormed.pointers Image.small) 2 k
        (List.replicate 5 ⟨⟨k.keyboard, k.rtc⟩, fun _ => 0, programAddr, 32⟩))[i]? = some o ∧
          c.Lists Image.small i o := by
  have hopen : (openCall Image.small Kernel.oneProcess dotName).1 = ((2 : ℕ) : ℤ) := by decide
  have hdir : ((openCall Image.small Kernel.oneProcess dotName).2.getPcbNow.fd 2).fileOps = some .directory := by decide
  have hends : ∀ e < Image.small.dirCount, Image.small.EndsField e := by
    unfold Image.EndsField
    decide +kernel
  refine ⟨_, Prod.ext hopen rfl,
    (directory_listing Image.small _ (Prod.ext hopen rfl) hdir _ fun c hc => ?_).mpr fun i c _ hi => ?_⟩
  · rw [List.eq_of_mem_replicate hc]
    decide
  · exact Or.inl (hends i hi)

/-- The small image with a byte behind the terminator of its first name, at the end of the field. -/
def Image.smudged : Image := { Image.small with byte := overlay Image.small.byte 95 [1] }

/-- It does not hold of every image: the name `.` is reported as 32 characters there. -/
theorem directory_not_listed :
    ¬ ∀ (img : Image) (fs : Filesystem) (k₀ k : Kernel) (name : List UInt8) (fd : ℕ), img.dirCount ≤ 63 →
      (∀ e < img.dirCount, img.entryName e ≠ []) → openCall img k₀ name = ((fd : ℤ), k) →
      (k.getPcbNow.fd fd).fileOps = some .directory → ∀ calls : List ListCall,
        (∀ c ∈ calls, 1 ≤ c.nbytes ∧ c.nbytes < 2 ^ 31) →
      ∀ (i : ℕ) (c : ListCall), calls[i]? = some c → ∃ o, (listing img fs fd k calls)[i]? = some o ∧
        c.Lists img i o := by
  intro hall
  have hopened : (openCall Image.smudged Kernel.oneProcess dotName).1 = ((2 : ℕ) : ℤ) ∧
      ((openCall Image.smudged Kernel.oneProcess dotName).2.getPcbNow.fd 2).fileOps = some .directory := by
    decide +kernel
  have hcount : Image.smudged.dirCount = 4 := by decide +kernel
  have hnames : ∀ e < 4, Image.smudged.entryName e ≠ [] := by decide +kernel
  obtain ⟨k, hopen, hdir⟩ : ∃ k, openCall Image.smudged Kernel.oneProcess dotName = (((2 : ℕ) : ℤ), k) ∧
      (k.getPcbNow.fd 2).fileOps = some .directory := ⟨_, Prod.ext hopened.1 rfl, hopened.2⟩
  obtain ⟨c, hc⟩ : ∃ c : ListCall, c.nbytes = 32 := ⟨⟨⟨k.keyboard, k.rtc⟩, fun _ => 0, programAddr, 32⟩, rfl⟩
  have hn : ∀ c' ∈ [c], 1 ≤ c'.nbytes ∧ c'.nbytes < 2 ^ 31 := by
    intro c' hc'
    rw [List.mem_singleton.mp hc', hc]
    exact ⟨by decide, by decide⟩
  obtain ⟨o, ho, hlists⟩ := hall Image.smudged (Image.WellFormed.pointers Image.smudged) Kernel.oneProcess k dotName 2
    (by rw [hcount]; decide) (by rw [hcount]; exact hnames) hopen hdir [c] hn 0 c rfl
  obtain ⟨hlt, hused, hpos⟩ := openCall_start hopen
  obtain ⟨o', ho', hiff⟩ := @listing_get Image.smudged (Image.WellFormed.pointers Image.smudged) k 2 0 [c]
    ⟨hlt, hused, hdir, by rw [hpos, Nat.zero_min]; rfl⟩ (fun c' hc => (hn c' hc).2) 0 c rfl
  obtain rfl := Option.some.inj (ho.symm.trans ho')
  have hlast : ¬ Image.smudged.EndsField 0 ∧ (Image.smudged.entryName 0).length = 1 := by
    unfold Image.EndsField
    decide +kernel
  rcases hiff.mp hlists (by rw [hcount]; decide) with hends | hshort
  · exact hlast.1 hends
  · rw [hc, hlast.2] at hshort
    omega

/-! ## Lookup and listing -/

/-- The string in the bytes a read wrote. -/
def reportedName (m : WriteLog) : List UInt8 := (m.writes.map Prod.snd).takeWhile (· ≠ 0)

/-- Lookup by name finds the first entry of exactly that name, and the names a listing reports lead to their entries. -/
structure NameLookup (img : Image) (fs : Filesystem) : Prop where
  found : ∀ (fname : CString) (dentry : Dentry),
    (∃ e < img.dirCount, img.entryName e = fname.chars ∧ (∀ e' < e, img.entryName e' ≠ fname.chars) ∧
      readDentryByName img fname.chars dentry = (0, img.dentry e)) ∨
    (∀ e < img.dirCount, img.entryName e ≠ fname.chars) ∧ ∃ r < 0, readDentryByName img fname.chars dentry = (r, dentry)
  listed : (∀ e < img.dirCount, ∀ e' < img.dirCount, img.entryName e = img.entryName e' → e = e') →
    ∀ e < img.dirCount, ∀ (k : Kernel) (fd : ℕ) (c : ListCall), AtEntry k fd e → 32 ≤ c.nbytes → c.nbytes < 2 ^ 31 →
      ∃ r k' m, readCall img fs k (⟨[]⟩ : WriteLog) c.waited c.stack fd c.buf c.nbytes = .done r k' m ∧
        ∀ dentry, readDentryByName img (reportedName m) dentry = (0, img.dentry e)

theorem consecutive_bytes (a : ℕ) (bs : List UInt8) : (consecutive a bs).map Prod.snd = bs := by
  induction bs generalizing a with
  | nil => rfl
  | cons b bs ih => rw [consecutive, List.map_cons, ih]

theorem firstNamed_first {img : Image} {name : List UInt8} {e : ℕ} (h : img.firstNamed name = some e) :
    ∀ e' < e, img.entryName e' ≠ name := by
  intro e' he' hx
  unfold Image.firstNamed at h
  rw [List.find?_range_eq_some] at h
  have hnot := h.2.2 e' he'
  simp [hx] at hnot

/-- **Name lookup** is exact, and agrees with the listing. -/
theorem name_lookup (img : Image) (fs : Filesystem) : NameLookup img fs where
  found fname dentry := by
    rcases @readDentryByName_eq img fname.chars fname.noNul dentry with ⟨e, hf, hr⟩ | ⟨hf, hr⟩
    · obtain ⟨he, hname⟩ := img.firstNamed_some hf
      exact Or.inl ⟨e, he, hname, firstNamed_first hf, hr⟩
    · exact Or.inr ⟨img.firstNamed_none.mp hf, hr⟩
  listed hdistinct e he k fd c hat hle hlt := by
    obtain ⟨k', hread, -⟩ := @AtEntry.reads img fs k fd e hat he c hlt
    refine ⟨_, k', _, hread, fun dentry => ?_⟩
    have hlen := img.entryName_length_le e
    have hreported : reportedName ⟨consecutive c.buf ((img.entryName e).take c.nbytes ++
        List.replicate (min c.nbytes (img.reportedLength e) - (img.entryName e).length) 0)⟩ = img.entryName e := by
      unfold reportedName
      rw [consecutive_bytes, List.take_of_length_le (by simp only [filenameLen] at hlen; omega),
        List.takeWhile_append_of_pos]
      · cases min c.nbytes (img.reportedLength e) - (img.entryName e).length with
        | zero => exact List.append_nil _
        | succ n =>
          rw [List.replicate_succ, List.takeWhile_cons_of_neg (by decide), List.append_nil]
      · intro b hb
        exact decide_eq_true fun hx => img.entryName_noNul e (hx ▸ hb)
    rw [hreported]
    rcases @readDentryByName_eq img (img.entryName e) (img.entryName_noNul e) dentry with ⟨e', hf, hr⟩ | ⟨hf, -⟩
    · obtain ⟨he', hname⟩ := img.firstNamed_some hf
      rw [hr, hdistinct e' he' e he hname]
    · exact absurd rfl (img.firstNamed_none.mp hf e he)

end Kernel391
