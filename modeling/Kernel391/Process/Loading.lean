import Kernel391.Filesystem.Dentry
import Kernel391.Machine.PagingMeaning

/-! Loading a program: what `check_executable` accepts, and what `open_executable` leaves
in the program page once the page is mapped. -/
namespace Kernel391
open Kernel391.Foundations ByteStore
set_option autoImplicit false

/-- The bytes a program may have above 0x08048000 in its 4 MB page. -/
def programRoom : ℕ := vmemAddr - programStart

/-! ## The program page -/

/-- The directory entry `set_pager_dir_entry` writes. -/
def programEntry (pageAddr : ℕ) : PageDirEntry := .word (pageAddr / 2 ^ 22 % 2 ^ 10 * 2 ^ 22 + 0x87)

/-- The physical page of slot `p`. -/
def programFrame (p : ℕ) : ℕ := eightMb + fourMb * p

theorem programFrame_entry {p : ℕ} (hp : p < maxProcesses) :
    programFrame p / 2 ^ 22 % 2 ^ 10 * 2 ^ 22 = programFrame p := by
  simp only [programFrame, eightMb, fourMb, maxProcesses] at hp ⊢
  omega

namespace Kernel

theorem setPagerDirEntry_program (k : Kernel) (p : ℕ) :
    (k.setPagerDirEntry (programFrame p)).pageDir programIdx = programEntry (programFrame p) := by
  unfold setPagerDirEntry programEntry
  simp only [Function.update_self]

variable {k : Kernel}

theorem translate_program {p o : ℕ} (hp : p < maxProcesses)
    (hdir : k.pageDir programIdx = programEntry (programFrame p)) (ho : o < fourMb) :
    k.translate (programAddr + o) = some (programFrame p + o) := by
  have hidx : (programAddr + o) / 2 ^ 22 = programIdx := by
    simp only [programAddr, programIdx, fourMb] at ho ⊢
    omega
  have hoff : (programAddr + o) % 2 ^ 22 = o := by
    simp only [programAddr, fourMb] at ho ⊢
    omega
  have hframe := programFrame_entry hp
  generalize programFrame p = f at hdir hframe ⊢
  unfold programEntry at hdir
  generalize f / 2 ^ 22 % 2 ^ 10 = d at hdir hframe
  have hlow : (d * 2 ^ 22 + 0x87) % 2 = 1 := by omega
  have hlarge : (d * 2 ^ 22 + 0x87) / 128 % 2 = 1 := by omega
  have hdiv : (d * 2 ^ 22 + 0x87) / 2 ^ 22 = d := by
    rw [Nat.add_comm, Nat.add_mul_div_right _ _ (by decide), Nat.div_eq_of_lt (by decide), Nat.zero_add]
  unfold translate
  rw [hidx, hdir]
  simp only
  rw [if_pos ⟨hlow, hlarge⟩, hdiv, hoff, hframe]

theorem putBytes_program {p o : ℕ} {bs : List UInt8} (hp : p < maxProcesses)
    (hdir : k.pageDir programIdx = programEntry (programFrame p)) (ho : o + bs.length ≤ fourMb) :
    putBytes k (programAddr + o) bs = .ok { k with phys := overlay k.phys (programFrame p + o) bs } := by
  induction bs generalizing k o with
  | nil =>
    rw [putBytes_nil, overlay_nil]
  | cons b bs ih =>
    rw [List.length_cons] at ho
    have htr := translate_program hp hdir (o := o) (by omega)
    have hput : put k (programAddr + o) b =
        .ok { k with phys := Function.update k.phys (programFrame p + o) b } := by
      unfold put instByteStoreKernel
      simp only [htr]
    rw [putBytes_cons_ok bs hput, Nat.add_assoc, ih (by exact hdir) (by omega), ← Nat.add_assoc,
      overlay_cons]

end Kernel

/-! ## `check_executable` -/

section Check
variable {img : Image}

/-- The word at offset `o` of a file. -/
def Image.fileWord (img : Image) (i o : ℕ) : ℕ := wordAt (fun j => img.fileByte i j) o

/-- What the four-byte local holds after the read. -/
def readWord (img : Image) (residue : ℕ → UInt8) (i o : ℕ) : ℕ → UInt8 :=
  overlay residue 0 (img.fileSlice i o (min 4 (img.fileLength i - o)))

theorem readWord_eq {residue : ℕ → UInt8} {i o : ℕ} (h : o + 4 ≤ img.fileLength i) :
    wordAt (readWord img residue i o) 0 = img.fileWord i o := by
  have hat : ∀ j < 4, readWord img residue i o j = img.fileByte i (o + j) := by
    intro j hj
    unfold readWord
    have := overlay_at residue 0 j (img.fileSlice i o (min 4 (img.fileLength i - o)))
      (by rw [Image.fileSlice_length]; omega)
    rw [Nat.zero_add] at this
    rw [this]
    simp [Image.fileSlice]
  unfold Image.fileWord wordAt
  rw [hat 0 (by omega), hat 1 (by omega), hat 2 (by omega), hat 3 (by omega)]
  rfl

/-- **`check_executable`**: the inode of the first entry of the name when its first four bytes are
the magic number. A file of fewer bytes is compared with what the stack held. -/
theorem checkExecutable_eq (wf : img.WellFormedDirectory) (residue : ℕ → UInt8) {name : List UInt8}
    (h : 0 ∉ name) :
    (∃ e, img.firstNamed name = some e ∧
      checkExecutable img (Image.WellFormed.pointers img) residue name =
        some (if wordAt (readWord img residue (img.entryInode e) 0) 0 ≠ magic then -1
          else (img.entryInode e : ℤ))) ∨
      (img.firstNamed name = none ∧ ∃ r < 0,
        checkExecutable img (Image.WellFormed.pointers img) residue name = some r) := by
  unfold checkExecutable
  rcases @readDentryByName_eq img _ h Dentry.uninit with ⟨e, hf, hr⟩ | ⟨hf, r, hneg, hr⟩
  · refine Or.inl ⟨e, hf, ?_⟩
    have he := (img.firstNamed_some hf).1
    have hu : uint32 (img.dentry e).inodeNum = img.entryInode e := (entryInode_int32 wf he).2
    have hi : (img.dentry e).inodeNum = img.entryInode e := (entryInode_int32 wf he).1
    simp only [hr, if_neg (show ¬ (0 : ℤ) < 0 by decide), hu]
    rw [readData_memory wf.toWellFormed _ (wf.inode_lt e he) residue 0 0 4 (Nat.zero_le _)]
    simp only [hi]
    exact apply_ite some _ _ _ |>.symm
  · refine Or.inr ⟨hf, r, hneg, ?_⟩
    simp only [hr, if_pos hneg]

/-- The bytes of the magic number, `0x7F` and `ELF`. -/
def magicBytes : List UInt8 := [0x7F, 0x45, 0x4C, 0x46]

/-- The executables an image names: the first entry of the name leads to a file that starts with the magic number. -/
def Image.Executable (img : Image) (name : List UInt8) (i : ℕ) : Prop :=
  ∃ e, img.firstNamed name = some e ∧ img.entryInode e = i ∧ magicBytes <+: img.fileBytes i

/-- `check_executable` passes executables only, whatever an earlier call left on the stack. -/
def ChecksExecutable (img : Image) (name : List UInt8) : Prop :=
  ∃ r, (∀ residue, checkExecutable img (Image.WellFormed.pointers img) residue name = some r) ∧
    ((∃ i, img.Executable name i ∧ r = i) ∨ (∀ i, ¬ img.Executable name i) ∧ r < 0)

/-- The file is a stump of an executable: it ends within the magic number, and agrees with it up to there. -/
def Image.Stump (img : Image) (i : ℕ) : Prop := img.fileLength i < 4 ∧ img.fileBytes i <+: magicBytes

theorem wordAt_magic {m : ℕ → UInt8} : wordAt m 0 = magic ↔ ∀ j (h : j < 4), m j = magicBytes[j] := by
  have hbyte : ∀ (a : UInt8) (n : ℕ), n < 256 → (a.toNat = n ↔ a = UInt8.ofNat n) := by
    intro a n hn
    rw [← UInt8.toNat_inj, UInt8.toNat_ofNat_of_lt' hn]
  have h0 := (m 0).toNat_lt
  have h1 := (m 1).toNat_lt
  have h2 := (m 2).toNat_lt
  have h3 := (m 3).toNat_lt
  have hbytes : wordAt m 0 = magic ↔
      (m 0).toNat = 0x7F ∧ (m 1).toNat = 0x45 ∧ (m 2).toNat = 0x4C ∧ (m 3).toNat = 0x46 := by
    unfold wordAt magic
    simp only [Nat.zero_add]
    omega
  rw [hbytes, hbyte _ _ (by decide), hbyte _ _ (by decide), hbyte _ _ (by decide), hbyte _ _ (by decide)]
  constructor
  · rintro ⟨hm0, hm1, hm2, hm3⟩ j hj
    match j, hj with
    | 0, _ => exact hm0
    | 1, _ => exact hm1
    | 2, _ => exact hm2
    | 3, _ => exact hm3
  · intro h
    exact ⟨h 0 (by decide), h 1 (by decide), h 2 (by decide), h 3 (by decide)⟩

theorem readWord_at (residue : ℕ → UInt8) (i j : ℕ) (hj : j < 4) :
    readWord img residue i 0 j = ((img.fileBytes i)[j]?).getD (residue j) := by
  unfold readWord
  rcases Nat.lt_or_ge j (img.fileLength i) with hlt | hge
  · have hslice : j < (img.fileSlice i 0 (min 4 (img.fileLength i - 0))).length := by
      rw [Image.fileSlice_length]
      omega
    rw [img.fileBytes_get i j hlt, Option.getD_some, ← Nat.zero_add j, overlay_at residue 0 j _ hslice]
    simp [Image.fileSlice]
  · rw [overlay_of_ge residue _ (by rw [Image.fileSlice_length]; omega),
      List.getElem?_eq_none (by rw [img.fileBytes_length]; exact hge), Option.getD_none]

theorem readWord_magic {residue : ℕ → UInt8} {i : ℕ} :
    wordAt (readWord img residue i 0) 0 = magic ↔
      ∀ j (h : j < 4), ((img.fileBytes i)[j]?).getD (residue j) = magicBytes[j] := by
  rw [wordAt_magic]
  constructor
  · intro h j hj
    rw [← h j hj, readWord_at residue i j hj]
  · intro h j hj
    rw [readWord_at residue i j hj, h j hj]

/-- A file that is no stump passes exactly if it starts with the magic number. -/
theorem readWord_executable {i : ℕ} (h : ¬ img.Stump i) (residue : ℕ → UInt8) :
    wordAt (readWord img residue i 0) 0 = magic ↔ magicBytes <+: img.fileBytes i := by
  have hlen := img.fileBytes_length i
  rw [readWord_magic]
  constructor
  · intro hall
    have hagree : ∀ j (h₁ : j < (img.fileBytes i).length) (h₂ : j < 4), (img.fileBytes i)[j] = magicBytes[j] := by
      intro j h₁ h₂
      rw [← hall j h₂, List.getElem?_eq_getElem h₁, Option.getD_some]
    rcases Nat.lt_or_ge (img.fileLength i) 4 with hshort | hlong
    · refine absurd ⟨hshort, List.prefix_iff_eq_take.mpr (List.ext_getElem ?_ fun j h₁ h₂ => ?_)⟩ h
      · rw [List.length_take, hlen]
        exact (Nat.min_eq_left hshort.le).symm
      · rw [List.getElem_take]
        exact hagree j h₁ (by omega)
    · refine List.prefix_iff_eq_take.mpr (List.ext_getElem ?_ fun j h₁ h₂ => ?_)
      · rw [List.length_take, hlen]
        exact (Nat.min_eq_left hlong).symm
      · rw [List.getElem_take]
        exact (hagree j (by rw [hlen]; exact Nat.lt_of_lt_of_le h₁ hlong) h₁).symm
  · intro hpre j hj
    have hlt : j < (img.fileBytes i).length := Nat.lt_of_lt_of_le hj hpre.length_le
    rw [List.getElem?_eq_getElem hlt, Option.getD_some]
    exact (hpre.getElem hj).symm

/-- A stump passes when the stack goes on with the rest of the magic number. -/
theorem readWord_stump {i : ℕ} (h : img.Stump i) :
    wordAt (readWord img (overlay (fun _ => 0) 0 magicBytes) i 0) 0 = magic := by
  rw [readWord_magic]
  intro j hj
  rcases Nat.lt_or_ge j (img.fileBytes i).length with hlt | hge
  · rw [List.getElem?_eq_getElem hlt, Option.getD_some]
    exact h.2.getElem hlt
  · have hat := overlay_at (fun _ => 0) 0 j magicBytes hj
    rw [Nat.zero_add] at hat
    rw [List.getElem?_eq_none hge, Option.getD_none, hat]

theorem checkExecutable_missing {name : List UInt8} (h : 0 ∉ name) (hf : img.firstNamed name = none) :
    ∃ r < 0, ∀ residue, checkExecutable img (Image.WellFormed.pointers img) residue name = some r := by
  rcases @readDentryByName_eq img name h Dentry.uninit with ⟨e, hf', -⟩ | ⟨-, r, hneg, hr⟩
  · rw [hf] at hf'
    cases hf'
  · refine ⟨r, hneg, fun residue => ?_⟩
    unfold checkExecutable
    simp only [hr, if_pos hneg]

theorem checkExecutable_named (wf : img.WellFormedDirectory) {name : List UInt8} (h : 0 ∉ name) {e : ℕ}
    (hf : img.firstNamed name = some e) (residue : ℕ → UInt8) :
    checkExecutable img (Image.WellFormed.pointers img) residue name =
      some (if wordAt (readWord img residue (img.entryInode e) 0) 0 = magic then (img.entryInode e : ℤ) else -1) := by
  rcases checkExecutable_eq wf residue h with ⟨e', hf', hcheck⟩ | ⟨hf', -⟩
  · rw [hf, Option.some.injEq] at hf'
    subst hf'
    rw [hcheck, ite_not]
  · rw [hf] at hf'
    cases hf'

theorem executable_named {name : List UInt8} {e : ℕ} (hf : img.firstNamed name = some e) (i : ℕ) :
    img.Executable name i ↔ img.entryInode e = i ∧ magicBytes <+: img.fileBytes (img.entryInode e) := by
  constructor
  · rintro ⟨e', hf', rfl, hmagic⟩
    rw [hf, Option.some.injEq] at hf'
    subst hf'
    exact ⟨rfl, hmagic⟩
  · rintro ⟨rfl, hmagic⟩
    exact ⟨e, hf, rfl, hmagic⟩

/-- **Only executables pass**, whatever the stack holds, exactly if the name does not lead to a stump. -/
theorem executables_checked (wf : img.WellFormedDirectory) (name : CString) :
    ChecksExecutable img name.chars ↔ ∀ e, img.firstNamed name.chars = some e → ¬ img.Stump (img.entryInode e) := by
  cases hf : img.firstNamed name.chars with
  | none =>
    refine iff_of_true ?_ (fun e he => by cases he)
    obtain ⟨r, hneg, hcheck⟩ := checkExecutable_missing name.noNul hf
    refine ⟨r, hcheck, Or.inr ⟨?_, hneg⟩⟩
    rintro i ⟨e, he, -⟩
    rw [hf] at he
    cases he
  | some e =>
    have hcheck := checkExecutable_named wf name.noNul hf
    have hexe := executable_named hf
    constructor
    · rintro ⟨r, hr, hspec⟩ e' he' hstump
      obtain rfl := Option.some.inj he'
      have hpass := hr (overlay (fun _ => 0) 0 magicBytes)
      rw [hcheck, if_pos (readWord_stump hstump), Option.some.injEq] at hpass
      rcases hspec with ⟨i, hi, -⟩ | ⟨-, hneg⟩
      · have hlong := ((hexe i).mp hi).2.length_le
        have hshort := hstump.1
        rw [img.fileBytes_length] at hlong
        exact absurd hshort (Nat.not_lt.mpr hlong)
      · omega
    · intro h
      have hmagic := readWord_executable (h e rfl)
      by_cases hpre : magicBytes <+: img.fileBytes (img.entryInode e)
      · refine ⟨img.entryInode e, fun residue => ?_, Or.inl ⟨img.entryInode e, (hexe _).mpr ⟨rfl, hpre⟩, rfl⟩⟩
        rw [hcheck, if_pos ((hmagic residue).mpr hpre)]
      · refine ⟨-1, fun residue => ?_, Or.inr ⟨fun i hi => hpre ((hexe i).mp hi).2, by decide⟩⟩
        rw [hcheck, if_neg fun hx => hpre ((hmagic residue).mp hx)]

theorem executables_checked_small : Image.small.WellFormedDirectory ∧
    (ChecksExecutable Image.small [0x73, 0x68, 0x65, 0x6C, 0x6C] ↔ ∀ e,
      Image.small.firstNamed [0x73, 0x68, 0x65, 0x6C, 0x6C] = some e →
        ¬ Image.small.Stump (Image.small.entryInode e)) :=
  ⟨Image.small_wellFormed, executables_checked Image.small_wellFormed ⟨[0x73, 0x68, 0x65, 0x6C, 0x6C], by decide⟩⟩

/-- The clock has an empty file: its name passes right after an executable was checked. -/
theorem clock_passes :
    checkExecutable Image.small (Image.WellFormed.pointers Image.small) (overlay (fun _ => 0) 0 magicBytes)
      [0x72, 0x74, 0x63] =
        some 0 ∧
      ¬ ∀ (img : Image) (name : CString), img.WellFormedDirectory → ChecksExecutable img name.chars := by
  have hfirst : Image.small.firstNamed [0x72, 0x74, 0x63] = some 1 := by decide
  have hstump : Image.small.Stump (Image.small.entryInode 1) := ⟨by decide, by decide⟩
  have hcheck := checkExecutable_named Image.small_wellFormed (by decide) hfirst
  have hinode : Image.small.entryInode 1 = 0 := by decide
  refine ⟨?_, fun hall => ?_⟩
  · rw [hcheck, if_pos (readWord_stump hstump), hinode]
    rfl
  · obtain ⟨r, hr, -⟩ := hall Image.small ⟨[0x72, 0x74, 0x63], by decide⟩ Image.small_wellFormed
    have hlow := (hcheck fun _ => 0).symm.trans (hr fun _ => 0)
    have hhigh := (hcheck (overlay (fun _ => 0) 0 magicBytes)).symm.trans (hr (overlay (fun _ => 0) 0 magicBytes))
    rw [if_pos (readWord_stump hstump), hinode] at hhigh
    rw [if_neg (by decide)] at hlow
    rw [← hlow] at hhigh
    cases hhigh

end Check

/-! ## `open_executable` -/

section Open
variable {img : Image} {k : Kernel}

theorem programStart_eq : programStart = programAddr + 0x48000 := by decide

/-- **`open_executable`** of a file that fits into the page. A file of fewer than 24 bytes is not
copied at all; the word at 24 is read as far as it exists. -/
theorem openExecutable_eq (wf : img.WellFormed) {i p : ℕ} {r : ℤ} (hi : i < img.inodeCount)
    (hr : uint32 r = i) (hp : p < maxProcesses) (hdir : k.pageDir programIdx = programEntry (programFrame p))
    (hfit : img.fileLength i ≤ programRoom) (eip : ℕ → UInt8) :
    openExecutable img (Image.WellFormed.pointers img) k eip r =
      if img.fileLength i < 24 then .ok (-1, eip, k)
      else .ok (0, readWord img eip i 24,
        { k with phys := overlay k.phys (programFrame p + 0x48000) (img.fileSlice i 0 (img.fileLength i)) }) := by
  unfold openExecutable
  rw [hr]
  by_cases hlen : img.fileLength i < 24
  · rw [readData_past_end wf i hi eip 24 0 4 hlen, if_pos hlen]
    rfl
  · have hroom : programRoom + 0x48000 = fourMb := by decide
    have hmax : min fourMb (img.fileLength i - 0) = img.fileLength i := by omega
    have hput := @Kernel.putBytes_program _ p 0x48000 (img.fileSlice i 0 (img.fileLength i)) hp hdir
      (by
        rw [Image.fileSlice_length]
        omega)
    rw [readData_memory wf i hi eip 24 0 4 (by omega), if_neg hlen]
    simp only
    rw [if_neg (by omega), readData_eq wf i hi k 0 programStart fourMb (Nat.zero_le _), hmax,
      programStart_eq, hput]
    simp only
    rw [if_neg (by omega)]
    rfl

end Open
end Kernel391
