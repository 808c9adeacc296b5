import Kernel391.Process.CommandParsing
import Kernel391.Process.DirectoryListing
import Kernel391.Process.UserPointers

/-! How far `dir_read` goes behind a name. The count of the caller is compared signed for a
name that fills its field and unsigned for a shorter one, and the copy reads a character
before it tests the count. -/
namespace Kernel391
open Kernel391.Foundations
set_option autoImplicit false

/-- The offsets from the name of entry `e` on that `dir_read` reads: the last of the field, those of
`strlen`, which the last one stops, and those of `strncpy`. -/
def dirReadOffsets (img : Image) (stack : ℕ → UInt8) (e nbytes : ℕ) : List ℕ :=
  let filename := img.nameField e
  let src := fun j => if j < filenameLen then filename.getD j 0 else stack j
  (filenameLen - 1) :: (if filename.getD (filenameLen - 1) 0 ≠ 0 then []
    else readsWhile src (fun b => b ≠ 0) filenameLen 0) ++
    readsWhile src (fun b => b ≠ 0) (lenToCopy filename nbytes + 1) 0

/-- The name is read inside its field, written to 32 bytes at most, and its length returned as far as it was asked for.
A store to a page that is not present faults. -/
structure CopiesName (img : Image) (fs : Filesystem) (k : Kernel) (mapped : ℕ → Bool) (fd e : ℕ)
    (c : ListCall) : Prop where
  reads : ∀ j ∈ dirReadOffsets img c.stack e c.nbytes, j < filenameLen
  answer : ∃ k' m, readCall img fs k (⟨mapped, []⟩ : UserMemory) c.waited c.stack fd c.buf c.nbytes =
      .done (min c.nbytes (img.entryName e).length : ℕ) k' m ∧
    m.writes.length ≤ filenameLen ∧ ∀ w ∈ m.writes, ∃ i < filenameLen, w.1 = (c.buf + i) % 2 ^ 32

/-- The name leaves room for a NUL at the end of its field, or the count stays inside the name and the field. -/
def StopsInName (img : Image) (e nbytes : ℕ) : Prop :=
  (img.nameField e).getD (filenameLen - 1) 0 = 0 ∨ nbytes ≤ (img.entryName e).length ∧ nbytes < filenameLen

instance (img : Image) (e nbytes : ℕ) : Decidable (StopsInName img e nbytes) := inferInstanceAs (Decidable (_ ∨ _))

/-! ## The count -/

section Count
variable {img : Image} {e nbytes : ℕ}

theorem nameField_get (j : ℕ) (hj : j < filenameLen) : (img.nameField e).getD j 0 ∈ img.nameField e := by
  have hlt : j < (img.nameField e).length := by
    rw [img.nameField_length]
    exact hj
  rw [List.getD_eq_getElem?_getD, List.getElem?_eq_getElem hlt]
  exact List.getElem_mem hlt

theorem last_mem (h : (img.nameField e).getD (filenameLen - 1) 0 = 0) : 0 ∈ img.nameField e :=
  h ▸ nameField_get (filenameLen - 1) (by decide)

theorem lenToCopy_short (h : (img.nameField e).getD (filenameLen - 1) 0 = 0) :
    lenToCopy (img.nameField e) nbytes = min nbytes (img.entryName e).length := by
  have hstrlen : strlen (img.nameField e) = (img.entryName e).length := rfl
  unfold lenToCopy
  rw [if_neg (not_not_intro h), hstrlen]
  split
  · omega
  · omega

theorem lenToCopy_inside (h : StopsInName img e nbytes) :
    lenToCopy (img.nameField e) nbytes = min nbytes (img.entryName e).length ∧
      min nbytes (img.entryName e).length < filenameLen := by
  by_cases hlast : (img.nameField e).getD (filenameLen - 1) 0 = 0
  · have hshort := img.entryName_short (last_mem hlast)
    exact ⟨lenToCopy_short hlast, by omega⟩
  · obtain ⟨hname, hfield⟩ := h.resolve_left hlast
    have hsigned : int32 nbytes = nbytes := int32_of_lt (by simp only [filenameLen] at hfield; omega)
    refine ⟨?_, by omega⟩
    unfold lenToCopy
    rw [if_pos hlast, hsigned, if_neg (by omega), Nat.min_eq_left hname]

end Count

/-! ## One read -/

section Read
variable {img : Image} {fs : Filesystem} {k : Kernel} {fd e : ℕ} {c : ListCall}

theorem AtEntry.returned {mapped : ℕ → Bool} {r : ℤ} {k' : Kernel} {m : UserMemory} (h : AtEntry k fd e)
    (he : e < img.dirCount)
    (hdone : readCall img fs k (⟨mapped, []⟩ : UserMemory) c.waited c.stack fd c.buf c.nbytes = .done r k' m) :
    r = int32 (lenToCopy (img.nameField e) c.nbytes) := by
  rw [h.read] at hdone
  unfold dirRead at hdone
  simp only [h.index (he.trans (wordAt_lt _ _)), if_neg (Nat.not_le.mpr he)] at hdone
  split at hdone
  · cases hdone
  · cases hdone
    rfl

theorem AtEntry.copies {mapped : ℕ → Bool} (h : AtEntry k fd e) (he : e < img.dirCount)
    (hmap : ∀ i < lenToCopy (img.nameField e) c.nbytes, mapped ((c.buf + i) % 2 ^ 32) = true) :
    ∃ k' m, readCall img fs k (⟨mapped, []⟩ : UserMemory) c.waited c.stack fd c.buf c.nbytes =
        .done (int32 (lenToCopy (img.nameField e) c.nbytes)) k' m ∧
      m.writes.length = lenToCopy (img.nameField e) c.nbytes ∧
      ∀ w ∈ m.writes, ∃ i < lenToCopy (img.nameField e) c.nbytes, w.1 = (c.buf + i) % 2 ^ 32 := by
  rw [h.read]
  unfold dirRead strncpyTo
  simp only [h.index (he.trans (wordAt_lt _ _)), if_neg (Nat.not_le.mpr he)]
  generalize lenToCopy (img.nameField e) c.nbytes = n at hmap ⊢
  have hle := @window_length_le (fun j => if j < filenameLen then (img.nameField e).getD j 0 else c.stack j) n 0
  generalize window _ n 0 = name at hle ⊢
  have hlen : (name ++ List.replicate (n - name.length) 0).length = n := by
    rw [List.length_append, List.length_replicate]
    omega
  generalize name ++ List.replicate (n - name.length) 0 = bs at hlen ⊢
  obtain ⟨m, hm, hwrites⟩ := @putBytes_mapped ⟨mapped, []⟩ c.buf bs fun i hi => hmap i (hlen ▸ hi)
  have hcount := putBytes_writes hm
  rw [hm]
  refine ⟨_, m, rfl, by rw [hcount, hlen, List.length_nil, Nat.zero_add], fun w hw => ?_⟩
  rw [← hlen]
  exact (hwrites w hw).resolve_left List.not_mem_nil

theorem reads_behind (hfull : 0 ∉ img.nameField e) (stack : ℕ → UInt8) {n : ℕ} (hn : filenameLen ≤ n) :
    filenameLen ∈ readsWhile (fun j => if j < filenameLen then (img.nameField e).getD j 0 else stack j)
      (fun b => b ≠ 0) (n + 1) 0 := by
  refine mem_readsWhile.mpr ⟨Nat.zero_le _, by omega, fun i _ hi => decide_eq_true ?_⟩
  rw [if_pos hi]
  exact fun hx => hfull (hx ▸ nameField_get i hi)

/-- **`dir_read` stays inside the name** exactly under this condition, for a buffer that is present. -/
theorem dir_read_copies (img : Image) (fs : Filesystem) (k : Kernel) (mapped : ℕ → Bool) (fd e : ℕ)
    (hat : AtEntry k fd e)
    (he : e < img.dirCount) (c : ListCall) (hn : c.nbytes < 2 ^ 32)
    (hbuf : ∀ i < min c.nbytes filenameLen, mapped ((c.buf + i) % 2 ^ 32) = true) :
    CopiesName img fs k mapped fd e c ↔ StopsInName img e c.nbytes := by
  constructor
  · rintro ⟨hreads, k₁, m, hanswer, -, -⟩
    by_contra hstop
    rw [StopsInName, not_or] at hstop
    obtain ⟨hlast, hlong⟩ := hstop
    have hreturned := hat.returned he hanswer
    have hle := img.entryName_length_le e
    unfold lenToCopy at hreturned
    rw [if_pos hlast] at hreturned
    by_cases hsigned : int32 c.nbytes ≥ filenameLen
    · -- the whole field is copied, which is right for a full name, and the byte behind it read
      rw [if_pos hsigned, int32_of_lt (by decide)] at hreturned
      have hfull : 0 ∉ img.nameField e := by
        intro hmem
        have hshort := img.entryName_short hmem
        omega
      have hbehind := hreads filenameLen (List.mem_append_right _ (by
        apply reads_behind hfull
        unfold lenToCopy
        rw [if_pos hlast, if_pos hsigned]))
      omega
    · -- the count is taken as it is, also when it is negative
      rw [if_neg hsigned] at hreturned
      unfold int32 at hreturned hsigned
      simp only [filenameLen] at hle hlong hsigned
      split at hreturned
      · rw [if_pos (by assumption)] at hsigned
        omega
      · omega
  · intro hstop
    obtain ⟨hcount, hlt⟩ := lenToCopy_inside hstop
    obtain ⟨k', m, hread, hlen, hwrites⟩ := @AtEntry.copies img fs k fd e c mapped hat he fun i hi => hbuf i (by
      rw [hcount] at hi
      omega)
    refine ⟨fun j hj => ?_, k', m, ?_, ?_, fun w hw => ?_⟩
    · unfold dirReadOffsets at hj
      simp only [hcount] at hj
      rcases List.mem_append.mp hj with hj | hj
      · rcases List.mem_cons.mp hj with rfl | hj
        · decide
        · split at hj
          · cases hj
          · have hbound := (mem_readsWhile.mp hj).2.1
            omega
      · have hbound := (mem_readsWhile.mp hj).2.1
        omega
    · rw [hread, hcount, int32_of_lt (by simp only [filenameLen] at hlt; omega)]
    · rw [hlen, hcount]
      exact Nat.le_of_lt hlt
    · obtain ⟨i, hi, hx⟩ := hwrites w hw
      rw [hcount] at hi
      exact ⟨i, hi.trans hlt, hx⟩

end Read

/-- The pages of a program. -/
def ownPage (a : ℕ) : Bool := programAddr ≤ a ∧ a < vmemAddr + 4096

theorem dir_read_copies_dot :
    ∃ k, AtEntry k 2 0 ∧ CopiesName Image.small (Image.WellFormed.pointers Image.small) k ownPage 2 0
    ⟨⟨k.keyboard, k.rtc⟩, fun _ => 0, programAddr, 0xFFFFFFFF⟩ := by
  obtain ⟨hlt, hused, hpos⟩ := @openCall_start Image.small (openCall Image.small Kernel.oneProcess dotName).2 2
    Kernel.oneProcess dotName (Prod.ext (by decide) rfl)
  have hat : AtEntry (openCall Image.small Kernel.oneProcess dotName).2 2 0 := ⟨hlt, hused, by decide, hpos⟩
  exact ⟨_, hat,
    (dir_read_copies Image.small (Image.WellFormed.pointers Image.small) _ ownPage 2 0 hat (by decide +kernel)
    ⟨⟨_, _⟩, fun _ => 0, programAddr, 0xFFFFFFFF⟩ (by decide) (by decide)).mpr (Or.inl (by decide +kernel))⟩

/-- The small image with a second name that fills its field. -/
def Image.longNamed : Image := { Image.small with byte := overlay Image.small.byte 128 (List.replicate 32 0x61) }

/-- A name of 32 characters, asked for in full: the byte behind its field is read. -/
theorem dir_read_behind :
    ¬ ∀ (img : Image) (fs : Filesystem) (k : Kernel) (mapped : ℕ → Bool) (fd e : ℕ), AtEntry k fd e → e < img.dirCount →
      ∀ c : ListCall, c.nbytes < 2 ^ 32 → (∀ i < min c.nbytes filenameLen, mapped ((c.buf + i) % 2 ^ 32) = true) →
        CopiesName img fs k mapped fd e c := by
  intro hall
  have hopened : (openCall Image.longNamed Kernel.oneProcess dotName).1 = ((2 : ℕ) : ℤ) ∧
      ((openCall Image.longNamed Kernel.oneProcess dotName).2.getPcbNow.fd 2).fileOps = some .directory := by
    decide +kernel
  obtain ⟨hlt, hused, hpos⟩ := @openCall_start Image.longNamed (openCall Image.longNamed Kernel.oneProcess dotName).2 2
    Kernel.oneProcess dotName (Prod.ext hopened.1 rfl)
  have hcount : Image.longNamed.dirCount = 4 := by decide +kernel
  have hat : AtEntry (openCall Image.longNamed Kernel.oneProcess dotName).2 2 0 := ⟨hlt, hused, hopened.2, hpos⟩
  generalize (openCall Image.longNamed Kernel.oneProcess dotName).2 = k at hat
  obtain ⟨k₁, -, hat₁⟩ := @AtEntry.reads Image.longNamed (Image.WellFormed.pointers Image.longNamed) k 2 0 hat
    (by rw [hcount]; decide) ⟨⟨k.keyboard, k.rtc⟩, fun _ => 0, programAddr, 32⟩ (show 32 < 2 ^ 31 by decide)
  have hcopies := hall Image.longNamed (Image.WellFormed.pointers Image.longNamed) k₁ ownPage 2 1 hat₁
    (by rw [hcount]; decide) ⟨⟨k.keyboard, k.rtc⟩, fun _ => 0, programAddr, 32⟩ (show 32 < 2 ^ 32 by decide)
    (show ∀ i < 32, ownPage ((programAddr + i) % 2 ^ 32) = true by decide)
  have hlen : lenToCopy (Image.longNamed.nameField 1) 32 = 32 := by decide +kernel
  have hfull : 0 ∉ Image.longNamed.nameField 1 := by decide +kernel
  have hbehind := hcopies.reads filenameLen (List.mem_append_right _ (by
    rw [hlen]
    exact reads_behind hfull _ (Nat.le_refl 32)))
  exact absurd hbehind (Nat.lt_irrefl 32)

end Kernel391
