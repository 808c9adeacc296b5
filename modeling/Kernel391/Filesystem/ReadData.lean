import Kernel391.Foundations.Stores
import Kernel391.Filesystem.Image

/-! `init_filesystem` and `read_data`: the pointers into the module and the loop
that copies a stretch of a file block by block. Every load is checked against
the module and every store goes through the byte store, so a bad access is a
visible result and not a silent one. -/
namespace Kernel391
open Kernel391.Foundations
set_option autoImplicit false

/-- The pointers of `filesystem_t`. -/
structure Filesystem where
  boot : ℕ
  inodes : ℕ
  dataBlocks : ℕ

/-- `fs.inodes` starts one block after the boot block. `fs.data_blocks` starts two blocks and the
inode blocks after it; `read_data` takes the extra block back. -/
def initFilesystem (img : Image) : Option Filesystem :=
  match img.word? (img.modStart + 4) with
  | some inodeCount => some
      { boot := img.modStart
        inodes := (img.modStart + bytesPerBlock) % 2 ^ 32
        dataBlocks := (img.modStart + bytesPerBlock * (inodeCount + 2)) % 2 ^ 32 }
  | none => none

structure Inode where
  length : ℕ
  dataBlockNum : ℕ → ℕ

/-- `inode_t inode_block = fs.inodes[inode]`: the whole 4096 bytes are read. -/
def loadInode (img : Image) (fs : Filesystem) (inode : ℕ) : Option Inode :=
  let a := (fs.inodes + bytesPerBlock * inode) % 2 ^ 32
  if img.modStart ≤ a ∧ a + bytesPerBlock ≤ img.modEnd then
    some { length := img.word a, dataBlockNum := fun j => img.word (a + 4 + 4 * j) }
  else none

section Copy
variable {σ : Type} [ByteStore σ]

/-- `memcpy` out of the module: `n` bytes from `src`, one after the other. -/
def memcpyFrom (img : Image) : ℕ → σ → ℕ → ℕ → Except σ σ
  | 0, m, _, _ => .ok m
  | n + 1, m, buf, src =>
    match img.byte? src with
    | none => .error m
    | some b =>
      match ByteStore.put m buf b with
      | .ok m' => memcpyFrom img n m' (buf + 1) (src + 1)
      | .error m' => .error m'

/-- The `while (bytes_to_read > 0)` loop. The fuel bounds the number of iterations; running out of
it, an index past the block table and an access that is not mapped all end in `.error`. -/
def readLoop (img : Image) (fs : Filesystem) (node : Inode) : ℕ → σ → ℕ → ℕ → ℕ → ℕ → Except σ σ
  | 0, m, _, _, _, bytesToRead => if bytesToRead = 0 then .ok m else .error m
  | fuel + 1, m, buf, start, blockIdx, bytesToRead =>
    if bytesToRead = 0 then .ok m
    else if blockIdx < 1023 then
      let startOfCopy :=
        (fs.dataBlocks + bytesPerBlock * node.dataBlockNum blockIdx + 2 ^ 32 - bytesPerBlock + start) % 2 ^ 32
      if bytesPerBlock ≤ (start + bytesToRead) % 2 ^ 32 then
        match memcpyFrom img (bytesPerBlock - start) m buf startOfCopy with
        | .ok m' => readLoop img fs node fuel m' (buf + (bytesPerBlock - start)) 0 (blockIdx + 1)
            (bytesToRead - (bytesPerBlock - start))
        | .error m' => .error m'
      else
        match memcpyFrom img bytesToRead m buf startOfCopy with
        | .ok m' => readLoop img fs node fuel m' (buf + (bytesPerBlock - start)) 0 (blockIdx + 1) 0
        | .error m' => .error m'
    else .error m

/-- `read_data`: the return value and the memory after it. -/
def readData (img : Image) (fs : Filesystem) (m : σ) (inode offset buf length : ℕ) : Except σ (ℤ × σ) :=
  match loadInode img fs inode with
  | none => .error m
  | some node =>
    if offset > node.length then .ok (-1, m)
    else
      let start := offset % bytesPerBlock
      let blockIdx := offset / bytesPerBlock
      let bytesToRead := if length > node.length - offset then node.length - offset else length
      match readLoop img fs node bytesToRead m buf start blockIdx bytesToRead with
      | .ok m' => .ok (bytesToRead, m')
      | .error m' => .error m'

/-! ## What a read can change -/

variable {R : σ → σ → Prop}

theorem memcpyFrom_follows (hR : ByteStore.Follows R) {img : Image} {n : ℕ} {m m' : σ} {buf src : ℕ}
    (h : memcpyFrom img n m buf src = .ok m' ∨ memcpyFrom img n m buf src = .error m') : R m m' := by
  induction n generalizing m buf src with
  | zero =>
    simp only [memcpyFrom, Except.ok.injEq, reduceCtorEq, or_false] at h
    exact h ▸ hR.refl m
  | succ n ih =>
    simp only [memcpyFrom] at h
    cases hb : img.byte? src with
    | none =>
      simp only [hb, Except.error.injEq, reduceCtorEq, false_or] at h
      exact h ▸ hR.refl m
    | some b =>
      simp only [hb] at h
      cases hp : ByteStore.put m buf b with
      | ok m₁ =>
        simp only [hp] at h
        exact hR.trans (hR.put (Or.inl hp)) (ih h)
      | error m₁ =>
        simp only [hp, Except.error.injEq, reduceCtorEq, false_or] at h
        exact h ▸ hR.put (Or.inr hp)

theorem readLoop_follows (hR : ByteStore.Follows R) {img : Image} {fs : Filesystem} {node : Inode}
    {fuel : ℕ} {m m' : σ} {buf start blockIdx n : ℕ}
    (h : readLoop img fs node fuel m buf start blockIdx n = .ok m' ∨
      readLoop img fs node fuel m buf start blockIdx n = .error m') : R m m' := by
  induction fuel generalizing m buf start blockIdx n with
  | zero =>
    unfold readLoop at h
    split at h <;> simp only [Except.ok.injEq, Except.error.injEq, reduceCtorEq, or_false, false_or] at h <;>
      exact h ▸ hR.refl m
  | succ fuel ih =>
    have hcopy : ∀ {c src n₁ buf₁ n₂},
        ((match memcpyFrom img c m buf src with
          | .ok m₁ => readLoop img fs node fuel m₁ buf₁ 0 n₁ n₂
          | .error m₁ => .error m₁) = Except.ok m' ∨
        (match memcpyFrom img c m buf src with
          | .ok m₁ => readLoop img fs node fuel m₁ buf₁ 0 n₁ n₂
          | .error m₁ => .error m₁) = Except.error m') → R m m' := by
      intro c src n₁ buf₁ n₂ h
      cases hm : memcpyFrom img c m buf src with
      | ok m₁ =>
        simp only [hm] at h
        exact hR.trans (memcpyFrom_follows hR (Or.inl hm)) (ih h)
      | error m₁ =>
        simp only [hm, Except.error.injEq, reduceCtorEq, false_or] at h
        exact h ▸ memcpyFrom_follows hR (Or.inr hm)
    unfold readLoop at h
    split at h
    · simp only [Except.ok.injEq, reduceCtorEq, or_false] at h
      exact h ▸ hR.refl m
    · split at h
      · simp only at h
        split at h
        · exact hcopy h
        · exact hcopy h
      · simp only [Except.error.injEq, reduceCtorEq, false_or] at h
        exact h ▸ hR.refl m

theorem readData_follows (hR : ByteStore.Follows R) {img : Image} {fs : Filesystem} {m m' : σ} {r : ℤ}
    {inode offset buf length : ℕ}
    (h : readData img fs m inode offset buf length = .ok (r, m') ∨
      readData img fs m inode offset buf length = .error m') : R m m' := by
  unfold readData at h
  split at h
  · simp only [Except.error.injEq, reduceCtorEq, false_or] at h
    exact h ▸ hR.refl m
  · next node _ =>
    split at h
    · simp only [Except.ok.injEq, Prod.mk.injEq, reduceCtorEq, or_false] at h
      exact h.2 ▸ hR.refl m
    · simp only at h
      split at h
      · next m₁ hl =>
        simp only [Except.ok.injEq, Prod.mk.injEq, reduceCtorEq, or_false] at h
        exact h.2 ▸ readLoop_follows hR (Or.inl hl)
      · next m₁ hl =>
        simp only [Except.error.injEq, reduceCtorEq, false_or] at h
        exact h ▸ readLoop_follows hR (Or.inr hl)

end Copy

/-! ## The pointers of a well-formed image -/

namespace Image.WellFormed
variable {img : Image}

theorem data_end (wf : img.WellFormed) (d : ℕ) (hd : d < img.dataCount) :
    img.blockAddr d + bytesPerBlock ≤ img.modEnd := by
  have h := wf.size
  unfold Image.blockAddr
  simp only [bytesPerBlock] at h ⊢
  omega

theorem inode_end (wf : img.WellFormed) (i : ℕ) (hi : i < img.inodeCount) :
    img.inodeAddr i + bytesPerBlock ≤ img.modEnd := by
  have h := wf.size
  unfold Image.inodeAddr
  simp only [bytesPerBlock] at h ⊢
  omega

/-- The pointers `init_filesystem` computes. -/
def pointers (img : Image) : Filesystem where
  boot := img.modStart
  inodes := (img.modStart + bytesPerBlock) % 2 ^ 32
  dataBlocks := (img.modStart + bytesPerBlock * (img.inodeCount + 2)) % 2 ^ 32

theorem initFilesystem_eq (wf : img.WellFormed) : initFilesystem img = some (pointers img) := by
  have h := wf.size
  simp only [bytesPerBlock] at h
  unfold initFilesystem Image.word?
  rw [if_pos (by omega)]
  rfl

theorem loadInode_eq (wf : img.WellFormed) (i : ℕ) (hi : i < img.inodeCount) :
    loadInode img (pointers img) i =
      some { length := img.fileLength i, dataBlockNum := img.blockNum i } := by
  have hend := wf.inode_end i hi
  have hfits := wf.fits
  have ha : ((pointers img).inodes + bytesPerBlock * i) % 2 ^ 32 = img.inodeAddr i := by
    simp only [pointers, Image.inodeAddr, bytesPerBlock] at hend ⊢
    omega
  have hlo : img.modStart ≤ img.inodeAddr i := by unfold Image.inodeAddr; omega
  unfold loadInode
  simp only [ha]
  rw [if_pos ⟨hlo, hend⟩]
  rfl

theorem startOfCopy_eq (wf : img.WellFormed) (d start : ℕ) (hd : d < img.dataCount)
    (hs : start < bytesPerBlock) :
    ((pointers img).dataBlocks + bytesPerBlock * d + 2 ^ 32 - bytesPerBlock + start) % 2 ^ 32 =
      img.blockAddr d + start := by
  have hend := wf.data_end d hd
  have hfits := wf.fits
  simp only [pointers, Image.blockAddr, bytesPerBlock] at hend hs ⊢
  omega

end Image.WellFormed

end Kernel391
