import Kernel391.Lib.Strings
import Kernel391.Filesystem.ReadDataMeaning

/-! Directory lookup: `read_dentry_by_index`, `read_dentry_by_name`, the open
functions of the file and directory tables, and the two functions that `execute`
loads a program with. Lookup by name is reduced to the first entry of that name. -/
namespace Kernel391
open Kernel391.Foundations
set_option autoImplicit false

structure Dentry where
  filename : List UInt8
  filetype : ℤ
  inodeNum : ℤ

/-- The entry as it stands in the boot block. -/
def Image.dentry (img : Image) (e : ℕ) : Dentry where
  filename := img.nameField e
  filetype := int32 (img.entryType e)
  inodeNum := int32 (img.entryInode e)

def readDentryByIndex (img : Image) (index : ℕ) (dentry : Dentry) : ℤ × Dentry :=
  if index ≥ img.dirCount then (-1, dentry) else (0, img.dentry index)

def readDentryByName (img : Image) (fname : List UInt8) (dentry : Dentry) : ℤ × Dentry :=
  if strlen fname > filenameLen then (-1, dentry)
  else
    match (List.range img.dirCount).find? fun i =>
        strncmp (cstr fname) (fun k => img.byte (img.dirEntry i + k)) filenameLen 0 = 0 with
    | some i => readDentryByIndex img i dentry
    | none => (-2, dentry)

/-- The `dentry_t` locals below are written in full before they are read. -/
def Dentry.uninit : Dentry := ⟨[], 0, 0⟩

def fileOpen (img : Image) (filename : List UInt8) : ℤ :=
  let r := readDentryByName img filename Dentry.uninit
  if r.1 < 0 then r.1 else r.2.inodeNum

def dirOpen (img : Image) (filename : List UInt8) : ℤ :=
  let r := readDentryByName img filename Dentry.uninit
  if r.1 < 0 then r.1 else 0

/-! ## Programs -/

def programStart : ℕ := 0x08048000
def fourMb : ℕ := 0x00400000
def magic : ℕ := 0x464c457f

/-- `check_executable`. `magicNumbers` is what the uninitialised local holds on entry; `none` is an
access outside the module. -/
def checkExecutable (img : Image) (fs : Filesystem) (magicNumbers : ℕ → UInt8) (command : List UInt8) :
    Option ℤ :=
  let r := readDentryByName img command Dentry.uninit
  if r.1 < 0 then some r.1
  else
    match readData img fs magicNumbers (uint32 r.2.inodeNum) 0 0 4 with
    | .error _ => none
    | .ok (_, m) => if wordAt m 0 ≠ magic then some (-1) else some r.2.inodeNum

/-- `open_executable`: the return value, the bytes of `*eip` and the memory after the copy. -/
def openExecutable {σ : Type} [ByteStore σ] (img : Image) (fs : Filesystem) (m : σ) (eip : ℕ → UInt8)
    (inodeNum : ℤ) : Except σ (ℤ × (ℕ → UInt8) × σ) :=
  match readData img fs eip (uint32 inodeNum) 24 0 4 with
  | .error _ => .error m
  | .ok (res, eip) =>
    if res < 0 then .ok (res, eip, m)
    else
      match readData img fs m (uint32 inodeNum) 0 programStart fourMb with
      | .error m' => .error m'
      | .ok (res, m') => if res < 0 then .ok (res, eip, m') else .ok (0, eip, m')

/-! ## The first entry of a name -/

namespace Image
variable (img : Image)

/-- The first directory entry with the given name. -/
def firstNamed (name : List UInt8) : Option ℕ :=
  (List.range img.dirCount).find? fun e => img.entryName e = name

theorem entryName_length_le (e : ℕ) : (img.entryName e).length ≤ filenameLen := by
  have h := (List.takeWhile_sublist (· ≠ (0 : UInt8)) (l := img.nameField e)).length_le
  simpa [entryName, nameField] using h

theorem window_nameField (e : ℕ) :
    window (fun k => img.byte (img.dirEntry e + k)) filenameLen 0 = img.entryName e := by
  simp [window, entryName, nameField]

theorem firstNamed_some {name : List UInt8} {e : ℕ} (h : img.firstNamed name = some e) :
    e < img.dirCount ∧ img.entryName e = name := by
  refine ⟨List.mem_range.mp (List.mem_of_find?_eq_some h), ?_⟩
  simpa using List.find?_some h

theorem firstNamed_none {name : List UInt8} :
    img.firstNamed name = none ↔ ∀ e < img.dirCount, img.entryName e ≠ name := by
  simp [firstNamed]

theorem firstNamed_isSome {name : List UInt8} :
    (img.firstNamed name).isSome ↔ ∃ e < img.dirCount, img.entryName e = name := by
  simp [firstNamed]

end Image

variable {img : Image}

/-- A name of at most 32 characters matches an entry exactly when it is the entry's name. -/
theorem strncmp_entry {fname : List UInt8} (h : 0 ∉ fname) (hlen : fname.length ≤ filenameLen) (e : ℕ) :
    strncmp (cstr fname) (fun k => img.byte (img.dirEntry e + k)) filenameLen 0 = 0 ↔
      img.entryName e = fname := by
  rw [strncmp_eq_zero, window_cstr h, List.take_of_length_le hlen, img.window_nameField]
  exact eq_comm

/-- **Lookup by name** finds the first entry of that name, and fails when there is none. -/
theorem readDentryByName_eq {fname : List UInt8} (h : 0 ∉ fname) (dentry : Dentry) :
    (∃ e, img.firstNamed fname = some e ∧ readDentryByName img fname dentry = (0, img.dentry e)) ∨
      (img.firstNamed fname = none ∧ ∃ r < 0, readDentryByName img fname dentry = (r, dentry)) := by
  unfold readDentryByName
  rw [strlen_noNul h]
  by_cases hlen : fname.length > filenameLen
  · refine Or.inr ⟨?_, -1, by decide, if_pos hlen⟩
    rw [img.firstNamed_none]
    rintro e - rfl
    exact absurd (img.entryName_length_le e) (by omega)
  · rw [if_neg hlen]
    have hfind : ((List.range img.dirCount).find? fun i =>
        strncmp (cstr fname) (fun k => img.byte (img.dirEntry i + k)) filenameLen 0 = 0) =
        img.firstNamed fname := by
      unfold Image.firstNamed
      congr 1
      funext e
      rw [decide_eq_decide]
      exact strncmp_entry h (by omega) e
    rw [hfind]
    cases hf : img.firstNamed fname with
    | none => exact Or.inr ⟨rfl, -2, by decide, rfl⟩
    | some e =>
      refine Or.inl ⟨e, rfl, ?_⟩
      have he := (img.firstNamed_some hf).1
      exact if_neg (by omega)

theorem int32_of_lt {w : ℕ} (h : w < 2 ^ 31) : int32 w = w := if_pos h

/-- An inode number of a directory entry is small enough to survive the signed round trip. -/
theorem entryInode_int32 (wf : img.WellFormedDirectory) {e : ℕ} (he : e < img.dirCount) :
    int32 (img.entryInode e) = img.entryInode e ∧
      uint32 (int32 (img.entryInode e)) = img.entryInode e := by
  have hi := wf.inode_lt e he
  have hs := wf.size
  have hf := wf.fits
  simp only [bytesPerBlock] at hs
  have hlt : img.entryInode e < 2 ^ 31 := by omega
  rw [int32_of_lt hlt]
  refine ⟨rfl, ?_⟩
  unfold uint32
  omega

theorem fileOpen_eq (wf : img.WellFormedDirectory) {fname : List UInt8} (h : 0 ∉ fname) :
    (∃ e, img.firstNamed fname = some e ∧ fileOpen img fname = img.entryInode e) ∨
      (img.firstNamed fname = none ∧ fileOpen img fname < 0) := by
  unfold fileOpen
  rcases @readDentryByName_eq img _ h Dentry.uninit with ⟨e, hf, hr⟩ | ⟨hf, r, hneg, hr⟩
  · refine Or.inl ⟨e, hf, ?_⟩
    simp only [hr, if_neg (show ¬ (0 : ℤ) < 0 by decide)]
    exact (entryInode_int32 wf (img.firstNamed_some hf).1).1
  · refine Or.inr ⟨hf, ?_⟩
    simp only [hr, if_pos hneg]
    exact hneg

theorem dirOpen_eq {fname : List UInt8} (h : 0 ∉ fname) {e : ℕ} (hf : img.firstNamed fname = some e) :
    dirOpen img fname = 0 := by
  unfold dirOpen
  rcases @readDentryByName_eq img _ h Dentry.uninit with ⟨e', -, hr⟩ | ⟨hn, -⟩
  · simp only [hr, if_neg (show ¬ (0 : ℤ) < 0 by decide)]
  · rw [hf] at hn
    cases hn

end Kernel391
