import Mathlib.Data.List.Basic
import Mathlib.Data.List.Range
import Kernel391.Foundations.Stores

/-! The filesystem image as the boot loader leaves it in memory: one boot block,
then the inode blocks, then the data blocks, each of 4096 bytes. The layout is
read off the structures of `filesystem.h`; nothing here depends on the code that
walks it. -/
namespace Kernel391
open Kernel391.Foundations
set_option autoImplicit false

def filenameLen : ℕ := 32
def bytesPerBlock : ℕ := 4096

/-- A module in memory: the bytes from `modStart` up to `modEnd`. -/
structure Image where
  modStart : ℕ
  modEnd : ℕ
  byte : ℕ → UInt8

namespace Image

/-- A checked load: only addresses of the module answer. -/
def byte? (img : Image) (a : ℕ) : Option UInt8 :=
  if img.modStart ≤ a ∧ a < img.modEnd then some (img.byte a) else none

def word (img : Image) (a : ℕ) : ℕ := wordAt img.byte a

/-- A checked load of a whole word. -/
def word? (img : Image) (a : ℕ) : Option ℕ :=
  if img.modStart ≤ a ∧ a + 4 ≤ img.modEnd then some (img.word a) else none

/-! ## The boot block -/

def dirCount (img : Image) : ℕ := img.word img.modStart
def inodeCount (img : Image) : ℕ := img.word (img.modStart + 4)
def dataCount (img : Image) : ℕ := img.word (img.modStart + 8)

/-- Directory entries are 64 bytes each, after the 64 bytes of counts and reserved space. -/
def dirEntry (img : Image) (e : ℕ) : ℕ := img.modStart + 64 + 64 * e

def nameField (img : Image) (e : ℕ) : List UInt8 :=
  (List.range filenameLen).map fun k => img.byte (img.dirEntry e + k)

/-- The name itself: the field up to its first NUL, or all of it. -/
def entryName (img : Image) (e : ℕ) : List UInt8 := (img.nameField e).takeWhile (· ≠ 0)

def entryType (img : Image) (e : ℕ) : ℕ := img.word (img.dirEntry e + 32)
def entryInode (img : Image) (e : ℕ) : ℕ := img.word (img.dirEntry e + 36)

/-! ## Inodes and data blocks -/

def inodeAddr (img : Image) (i : ℕ) : ℕ := img.modStart + bytesPerBlock * (1 + i)
def fileLength (img : Image) (i : ℕ) : ℕ := img.word (img.inodeAddr i)
def blockNum (img : Image) (i j : ℕ) : ℕ := img.word (img.inodeAddr i + 4 + 4 * j)
def blockAddr (img : Image) (d : ℕ) : ℕ :=
  img.modStart + bytesPerBlock * (1 + img.inodeCount + d)

def blockBytes (img : Image) (d : ℕ) : List UInt8 :=
  (List.range bytesPerBlock).map fun k => img.byte (img.blockAddr d + k)

/-- The number of data blocks a file uses. -/
def fileBlocks (img : Image) (i : ℕ) : ℕ := (img.fileLength i + (bytesPerBlock - 1)) / bytesPerBlock

/-- The concatenation of the data blocks of an inode. -/
def fileBlockBytes (img : Image) (i : ℕ) : List UInt8 :=
  (List.range (img.fileBlocks i)).flatMap fun j => img.blockBytes (img.blockNum i j)

/-- The file itself: that concatenation cut at the file's length. -/
def fileBytes (img : Image) (i : ℕ) : List UInt8 := (img.fileBlockBytes i).take (img.fileLength i)

/-- Byte `p` of the blocks of an inode, addressed directly. -/
def fileByte (img : Image) (i p : ℕ) : UInt8 :=
  img.byte (img.blockAddr (img.blockNum i (p / bytesPerBlock)) + p % bytesPerBlock)

/-- Boot block, inode blocks, data blocks; file lengths that the block table of an inode can
hold; block numbers that exist. -/
structure WellFormed (img : Image) : Prop where
  size : img.modStart + bytesPerBlock * (1 + img.inodeCount + img.dataCount) = img.modEnd
  fits : img.modEnd ≤ 2 ^ 32
  length_le : ∀ i < img.inodeCount, img.fileLength i ≤ 1023 * bytesPerBlock
  blocks : ∀ i < img.inodeCount, ∀ j < img.fileBlocks i, img.blockNum i j < img.dataCount

/-- What the directory adds: at most 63 entries, each naming an inode that exists. -/
structure WellFormedDirectory (img : Image) : Prop extends WellFormed img where
  dir_le : img.dirCount ≤ 63
  inode_lt : ∀ e < img.dirCount, img.entryInode e < img.inodeCount

/-! ## Reading the concatenation at an index -/

theorem blockBytes_length (img : Image) (d : ℕ) : (img.blockBytes d).length = bytesPerBlock := by
  simp [blockBytes]

theorem flatMap_blocks_get {α : Type} (f : ℕ → List α) (L : ℕ) (hf : ∀ j, (f j).length = L)
    (n j k : ℕ) (hj : j < n) (hk : k < L) :
    ((List.range n).flatMap f)[j * L + k]? = (f j)[k]? := by
  induction n with
  | zero => omega
  | succ n ih =>
    have hlen : ∀ m, ((List.range m).flatMap f).length = m * L := by
      intro m
      simp [List.length_flatMap, hf]
    rw [List.range_succ, List.flatMap_append]
    by_cases h : j < n
    · have hlt : j * L + k < n * L := by
        have := Nat.mul_le_mul_right L (show j + 1 ≤ n from h)
        rw [Nat.succ_mul] at this
        omega
      rw [List.getElem?_append_left (by rw [hlen]; exact hlt), ih h]
    · have hjn : j = n := by omega
      subst hjn
      rw [List.getElem?_append_right (by rw [hlen]; omega), hlen, Nat.add_sub_cancel_left]
      simp

theorem fileBlockBytes_get (img : Image) (i p : ℕ) (hp : p < img.fileBlocks i * bytesPerBlock) :
    (img.fileBlockBytes i)[p]? = some (img.fileByte i p) := by
  have hk : p % bytesPerBlock < bytesPerBlock := Nat.mod_lt _ (by decide)
  have hj : p / bytesPerBlock < img.fileBlocks i := Nat.div_lt_of_lt_mul (by rw [Nat.mul_comm]; exact hp)
  have hsplit : p / bytesPerBlock * bytesPerBlock + p % bytesPerBlock = p := by
    rw [Nat.mul_comm]; exact Nat.div_add_mod p bytesPerBlock
  have h := flatMap_blocks_get (fun j => img.blockBytes (img.blockNum i j)) bytesPerBlock
    (fun j => img.blockBytes_length _) (img.fileBlocks i) _ _ hj hk
  rw [hsplit] at h
  rw [fileBlockBytes, h]
  simp [blockBytes, fileByte, hk]

theorem fileLength_le_blocks (img : Image) (i : ℕ) :
    img.fileLength i ≤ img.fileBlocks i * bytesPerBlock := by
  simp only [fileBlocks, bytesPerBlock]
  omega

theorem fileBlockBytes_length (img : Image) (i : ℕ) :
    (img.fileBlockBytes i).length = img.fileBlocks i * bytesPerBlock := by
  simp [fileBlockBytes, List.length_flatMap, blockBytes_length]

theorem fileBytes_length (img : Image) (i : ℕ) : (img.fileBytes i).length = img.fileLength i := by
  rw [fileBytes, List.length_take, fileBlockBytes_length]
  exact Nat.min_eq_left (img.fileLength_le_blocks i)

theorem fileBytes_get (img : Image) (i p : ℕ) (hp : p < img.fileLength i) :
    (img.fileBytes i)[p]? = some (img.fileByte i p) := by
  rw [fileBytes, List.getElem?_take_of_lt hp]
  exact img.fileBlockBytes_get i p (hp.trans_le (img.fileLength_le_blocks i))

/-- A stretch of the file, addressed directly. -/
def fileSlice (img : Image) (i p n : ℕ) : List UInt8 :=
  (List.range n).map fun k => img.fileByte i (p + k)

theorem fileSlice_length (img : Image) (i p n : ℕ) : (img.fileSlice i p n).length = n := by
  simp [fileSlice]

theorem fileSlice_append (img : Image) (i p n n' : ℕ) :
    img.fileSlice i p (n + n') = img.fileSlice i p n ++ img.fileSlice i (p + n) n' := by
  simp [fileSlice, List.range_add, Function.comp_def, Nat.add_assoc]

theorem fileSlice_eq (img : Image) (i p n : ℕ) (h : p + n ≤ img.fileLength i) :
    img.fileSlice i p n = ((img.fileBytes i).drop p).take n := by
  apply List.ext_getElem?
  intro k
  by_cases hk : k < n
  · rw [List.getElem?_take_of_lt hk, List.getElem?_drop, img.fileBytes_get i (p + k) (by omega)]
    simp [fileSlice, hk]
  · rw [List.getElem?_eq_none (by rw [fileSlice_length]; omega),
      List.getElem?_eq_none (by rw [List.length_take]; omega)]

/-! ## A small image -/

/-- A directory entry for a name of less than 32 characters. -/
def smallEntry (name : List UInt8) (fileType inode : UInt8) : List UInt8 :=
  name ++ List.replicate (filenameLen - name.length) 0 ++ [fileType, 0, 0, 0, inode, 0, 0, 0]

/-- Three inodes and two data blocks: the directory, the clock, a 28-byte shell that starts at
`0x08048000`, and a stub that ends after its magic number. -/
def small : Image where
  modStart := 0
  modEnd := 24576
  byte :=
    let boot := overlay (fun _ => 0) 0 [4, 0, 0, 0, 3, 0, 0, 0, 2]
    let dot := overlay boot 64 (smallEntry [0x2E] 1 0)
    let rtc := overlay dot 128 (smallEntry [0x72, 0x74, 0x63] 0 0)
    let shell := overlay rtc 192 (smallEntry [0x73, 0x68, 0x65, 0x6C, 0x6C] 2 1)
    let stub := overlay shell 256 (smallEntry [0x73, 0x74, 0x75, 0x62] 2 2)
    let inodes := overlay (overlay stub 8192 [28]) 12288 [4, 0, 0, 0, 1]
    let program := overlay inodes 16384 ([0x7F, 0x45, 0x4C, 0x46] ++ List.replicate 20 0 ++ [0, 0x80, 0x04, 0x08])
    overlay program 20480 [0x7F, 0x45, 0x4C, 0x46]

theorem small_wellFormed : small.WellFormedDirectory where
  size := by decide
  fits := by decide
  length_le := by decide
  blocks := by decide
  dir_le := by decide
  inode_lt := by decide

end Image
end Kernel391
