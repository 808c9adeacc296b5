import Kernel391.Filesystem.ReadData

/-! What `read_data` writes. On a well-formed image the block loop is one run of
consecutive writes: the requested stretch of the file, whatever the byte store.
The invariant of the loop is the file position of the next byte. -/
namespace Kernel391
open Kernel391.Foundations Kernel391.Foundations.ByteStore
set_option autoImplicit false

section Loop
variable {σ : Type} [ByteStore σ] {img : Image}

theorem memcpyFrom_eq (n : ℕ) (m : σ) (buf src : ℕ) (hlo : img.modStart ≤ src)
    (hhi : src + n ≤ img.modEnd) :
    memcpyFrom img n m buf src = putBytes m buf ((List.range n).map fun k => img.byte (src + k)) := by
  induction n generalizing m buf src with
  | zero => rfl
  | succ n ih =>
    have hb : img.byte? src = some (img.byte src) := if_pos ⟨hlo, by omega⟩
    have hr : ((List.range (n + 1)).map fun k => img.byte (src + k)) =
        img.byte src :: (List.range n).map fun k => img.byte (src + 1 + k) := by
      rw [List.range_succ_eq_map, List.map_cons, List.map_map]
      congr 2
      funext k
      simp only [Function.comp_apply]
      congr 1
      omega
    rw [hr]
    simp only [memcpyFrom, hb]
    cases hp : put m buf (img.byte src) with
    | ok m' =>
      rw [putBytes_cons_ok _ hp]
      exact ih m' (buf + 1) (src + 1) (by omega) (by omega)
    | error m' => rw [putBytes_cons_error _ hp]

theorem memcpyFrom_block (wf : img.WellFormed) (i b start n : ℕ) (m : σ) (buf : ℕ)
    (hd : img.blockNum i b < img.dataCount) (hn : start + n ≤ bytesPerBlock) :
    memcpyFrom img n m buf (img.blockAddr (img.blockNum i b) + start) =
      putBytes m buf (img.fileSlice i (bytesPerBlock * b + start) n) := by
  have hend := wf.data_end _ hd
  have hlo : img.modStart ≤ img.blockAddr (img.blockNum i b) + start := by
    unfold Image.blockAddr; omega
  rw [memcpyFrom_eq n m buf _ hlo (by omega)]
  congr 1
  apply List.map_congr_left
  intro k hk
  have hk' := List.mem_range.mp hk
  have hlt : start + k < bytesPerBlock := by omega
  have hdiv : (bytesPerBlock * b + start + k) / bytesPerBlock = b := by
    rw [Nat.add_assoc, Nat.mul_add_div (by decide), Nat.div_eq_of_lt hlt, Nat.add_zero]
  have hmod : (bytesPerBlock * b + start + k) % bytesPerBlock = start + k := by
    rw [Nat.add_assoc, Nat.mul_add_mod, Nat.mod_eq_of_lt hlt]
  rw [Image.fileByte, hdiv, hmod, Nat.add_assoc]

/-- **The loop.** From file position `bytesPerBlock * b + start` it writes the next `r` bytes of the
file, and `r` iterations are enough. -/
theorem readLoop_eq (wf : img.WellFormed) (i : ℕ) (hi : i < img.inodeCount) (fuel : ℕ) (m : σ)
    (buf start b r : ℕ) (hs : start < bytesPerBlock) (hfuel : r ≤ fuel)
    (hr : bytesPerBlock * b + start + r ≤ img.fileLength i) :
    readLoop img (Image.WellFormed.pointers img)
        { length := img.fileLength i, dataBlockNum := img.blockNum i } fuel m buf start b r =
      putBytes m buf (img.fileSlice i (bytesPerBlock * b + start) r) := by
  induction fuel generalizing m buf start b r with
  | zero =>
    obtain rfl : r = 0 := by omega
    rfl
  | succ fuel ih =>
    have hlen := wf.length_le i hi
    rcases Nat.eq_zero_or_pos r with rfl | hpos
    · rfl
    have hidx : b < 1023 := by simp only [bytesPerBlock] at hr hlen; omega
    have hblk : img.blockNum i b < img.dataCount := by
      apply wf.blocks i hi
      simp only [Image.fileBlocks, bytesPerBlock] at hr ⊢
      omega
    have haddr := wf.startOfCopy_eq _ start hblk hs
    have hsum : (start + r) % 2 ^ 32 = start + r := by
      simp only [bytesPerBlock] at hr hlen hs
      omega
    simp only [readLoop, if_neg (show ¬ r = 0 by omega), if_pos hidx, haddr, hsum]
    by_cases hfull : bytesPerBlock ≤ start + r
    · have hsplit : img.fileSlice i (bytesPerBlock * b + start) r =
          img.fileSlice i (bytesPerBlock * b + start) (bytesPerBlock - start) ++
            img.fileSlice i (bytesPerBlock * (b + 1) + 0) (r - (bytesPerBlock - start)) := by
        have h := img.fileSlice_append i (bytesPerBlock * b + start) (bytesPerBlock - start)
          (r - (bytesPerBlock - start))
        rw [show bytesPerBlock - start + (r - (bytesPerBlock - start)) = r by omega] at h
        rw [h, Nat.mul_succ]
        congr 2
        omega
      rw [if_pos hfull, memcpyFrom_block wf i b start _ m buf hblk (by omega), hsplit,
        putBytes_append, Image.fileSlice_length]
      cases putBytes m buf (img.fileSlice i (bytesPerBlock * b + start) (bytesPerBlock - start)) with
      | error m' => rfl
      | ok m' =>
        refine ih m' _ 0 (b + 1) _ (by decide) (by omega) ?_
        rw [Nat.mul_succ]
        omega
    · rw [if_neg hfull, memcpyFrom_block wf i b start r m buf hblk (by omega)]
      cases putBytes m buf (img.fileSlice i (bytesPerBlock * b + start) r) with
      | error m' => rfl
      | ok m' =>
        cases fuel with
        | zero => rfl
        | succ fuel => rfl

theorem readData_eq (wf : img.WellFormed) (i : ℕ) (hi : i < img.inodeCount) (m : σ)
    (offset buf length : ℕ) (ho : offset ≤ img.fileLength i) :
    readData img (Image.WellFormed.pointers img) m i offset buf length =
      match putBytes m buf (img.fileSlice i offset (min length (img.fileLength i - offset))) with
      | .ok m' => .ok ((min length (img.fileLength i - offset) : ℕ), m')
      | .error m' => .error m' := by
  have hmin : (if length > img.fileLength i - offset then img.fileLength i - offset else length) =
      min length (img.fileLength i - offset) := by
    split <;> omega
  have hpos : bytesPerBlock * (offset / bytesPerBlock) + offset % bytesPerBlock = offset :=
    Nat.div_add_mod offset bytesPerBlock
  have hloop := readLoop_eq wf i hi (min length (img.fileLength i - offset)) m buf
    (offset % bytesPerBlock) (offset / bytesPerBlock) (min length (img.fileLength i - offset))
    (Nat.mod_lt _ (by decide)) le_rfl (by rw [hpos]; omega)
  rw [hpos] at hloop
  unfold readData
  simp only [wf.loadInode_eq i hi, if_neg (show ¬ offset > img.fileLength i by omega)]
  cases hput : putBytes m buf (img.fileSlice i offset (min length (img.fileLength i - offset))) with
  | ok m' => simp only [hmin, hloop, hput]
  | error m' => simp only [hmin, hloop, hput]

theorem readData_past_end (wf : img.WellFormed) (i : ℕ) (hi : i < img.inodeCount) (m : σ)
    (offset buf length : ℕ) (ho : img.fileLength i < offset) :
    readData img (Image.WellFormed.pointers img) m i offset buf length = .ok (-1, m) := by
  unfold readData
  simp only [wf.loadInode_eq i hi, if_pos (show offset > img.fileLength i from ho)]

end Loop

/-! ## A buffer in memory -/

theorem readData_memory {img : Image} (wf : img.WellFormed) (i : ℕ) (hi : i < img.inodeCount)
    (m : ℕ → UInt8) (offset buf length : ℕ) (ho : offset ≤ img.fileLength i) :
    readData img (Image.WellFormed.pointers img) m i offset buf length =
      .ok ((min length (img.fileLength i - offset) : ℕ),
        overlay m buf (img.fileSlice i offset (min length (img.fileLength i - offset)))) := by
  rw [readData_eq wf i hi m offset buf length ho, putBytes_function]

/-- **A read returns the bytes of the file.** Past the end it fails and writes nothing; otherwise the
first `min length (fileLength - offset)` bytes of the buffer are those of the data blocks from
`offset` on and no other byte changes. That the result is `.ok` says that the loop ends and that
every load is inside the module. -/
theorem read_data_returns_file_bytes (img : Image) (wf : img.WellFormed) (inode offset length buf : ℕ)
    (hinode : inode < img.inodeCount) (m : ℕ → UInt8) :
    ∃ fs, initFilesystem img = some fs ∧
      (offset > img.fileLength inode → readData img fs m inode offset buf length = .ok (-1, m)) ∧
      (offset ≤ img.fileLength inode → ∃ m',
        readData img fs m inode offset buf length =
          .ok ((min length (img.fileLength inode - offset) : ℕ), m') ∧
        (∀ k < min length (img.fileLength inode - offset),
          (img.fileBlockBytes inode)[offset + k]? = some (m' (buf + k))) ∧
        ∀ a, a < buf ∨ buf + min length (img.fileLength inode - offset) ≤ a → m' a = m a) := by
  refine ⟨_, wf.initFilesystem_eq, fun ho => readData_past_end wf inode hinode m offset buf length ho,
    fun ho => ⟨_, readData_memory wf inode hinode m offset buf length ho, ?_, ?_⟩⟩
  · intro k hk
    have hlt : offset + k < img.fileBlocks inode * bytesPerBlock :=
      (show offset + k < img.fileLength inode by omega).trans_le (img.fileLength_le_blocks inode)
    rw [img.fileBlockBytes_get inode (offset + k) hlt,
      overlay_at _ _ _ _ (by rw [Image.fileSlice_length]; exact hk)]
    simp [Image.fileSlice]
  · rintro a (ha | ha)
    · exact overlay_of_lt _ _ ha
    · exact overlay_of_ge _ _ (by rw [Image.fileSlice_length]; exact ha)

/-- The end of the shell's file, read past. -/
theorem read_data_returns_file_bytes_shell : ∃ fs, initFilesystem Image.small = some fs ∧
    ∃ m' : ℕ → UInt8, readData Image.small fs (fun _ => 0) 1 24 100 1000 = .ok (4, m') := by
  obtain ⟨fs, hfs, -, hread⟩ := read_data_returns_file_bytes Image.small Image.small_wellFormed.toWellFormed 1 24 1000
    100 (by decide) fun _ => 0
  obtain ⟨m', hm, -⟩ := hread (by decide)
  have hn : min 1000 (Image.small.fileLength 1 - 24) = 4 := by decide
  rw [hn] at hm
  exact ⟨fs, hfs, m', hm⟩

end Kernel391
