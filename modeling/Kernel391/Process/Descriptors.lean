import Kernel391.Devices.Rtc
import Kernel391.Devices.TerminalRead
import Kernel391.Filesystem.Dentry

/-! The descriptor table of a process: `open`, `read`, `write` and `close`, and the read and
write functions of the operation tables. -/
namespace Kernel391
open Kernel391.Foundations
set_option autoImplicit false

def maxFiles : ℕ := 8
def rtcName : List UInt8 := ascii "rtc".toList
def dotName : List UInt8 := ascii ".".toList

namespace Kernel
variable (k : Kernel)

/-- The PCB `get_pcb` returns. -/
def getPcbNow : Pcb := k.pcb (getPcb k.cpu.esp)

def setAvailable (fd available : ℕ) : Kernel :=
  k.setPcb (getPcb k.cpu.esp) fun p => { p with available := Function.update p.available fd available }

def setFd (fd : ℕ) (d : FileDescriptor) : Kernel :=
  k.setPcb (getPcb k.cpu.esp) fun p => { p with fd := Function.update p.fd fd d }

/-- `get_avail_fd`. -/
def getAvailFd : Option (ℕ × Kernel) :=
  match (List.range maxFiles).find? fun i => k.getPcbNow.available i ≠ 0 with
  | some i => some (i, k.setAvailable i 0)
  | none => none

/-- `make_available_fd` of an index in range. -/
def makeAvailableFd (fd : ℕ) : Kernel := k.setAvailable fd 1

/-- The last four assignments of `open`. -/
def bindFd (fd : ℕ) (ops : FileOps) (inode : ℤ) : Kernel :=
  k.setFd fd { fileOps := some ops, inode := inode, filePos := 0, flags := 0 }

end Kernel

/-- `open`. The table is chosen by comparing three characters, then one. -/
def openCall (img : Image) (k : Kernel) (filename : List UInt8) : ℤ × Kernel :=
  match k.getAvailFd with
  | none => (-1, k)
  | some (fdIdx, k) =>
    if strncmp (cstr filename) (cstr rtcName) 3 0 = 0 then
      let open_ := k.rtcOpen
      if open_.1 ≠ 0 then (-1, open_.2.makeAvailableFd fdIdx) else (fdIdx, open_.2.bindFd fdIdx .rtc (-1))
    else if strncmp (cstr filename) (cstr dotName) 1 0 = 0 then
      let openRes := dirOpen img dotName
      if openRes ≠ 0 then (-1, k.makeAvailableFd fdIdx) else (fdIdx, k.bindFd fdIdx .directory (-1))
    else
      let openRes := fileOpen img filename
      if openRes < 0 then (-1, k.makeAvailableFd fdIdx) else (fdIdx, k.bindFd fdIdx .file openRes)

def FileOps.close : FileOps → ℤ
  | .stdin => -1
  | .stdout => -1
  | .file => 0
  | .directory => 0
  | .rtc => 0

/-- `close`; `none` when the descriptor has no table to call through. -/
def closeCall (k : Kernel) (fd : ℕ) : Option (ℤ × Kernel) :=
  if fd < 2 ∨ fd > 7 then some (-1, k)
  else if k.getPcbNow.available fd = 1 then some (-1, k)
  else (k.getPcbNow.fd fd).fileOps.map fun ops => (ops.close, k.setAvailable fd 1)

/-! ## Reading -/

/-- How a read ends: it returns, it waits for an interrupt, or it touched a page that is not present. -/
inductive ReadOutcome (σ : Type)
  | done (r : ℤ) (k : Kernel) (m : σ)
  | waits
  | fault (m : σ)

/-- The device variables as the interrupts left them at the end of a wait. -/
structure Waited where
  keyboard : ℕ → KeyboardStruct
  rtc : Rtc

section Read
variable {σ : Type} [ByteStore σ]

/-- `strncpy` into a byte store: characters up to a NUL or to `n`, then zeros. -/
def strncpyTo (m : σ) (dest : ℕ) (src : ℕ → UInt8) (n : ℕ) : Except σ σ :=
  ByteStore.putBytes m dest (window src n 0 ++ List.replicate (n - (window src n 0).length) 0)

/-- `file_read`. -/
def fileRead (img : Image) (fs : Filesystem) (k : Kernel) (m : σ) (fd buf nbytes : ℕ) : ReadOutcome σ :=
  let fileDesc := k.getPcbNow.fd fd
  match readData img fs m (uint32 fileDesc.inode) (uint32 fileDesc.filePos) buf nbytes with
  | .error m => .fault m
  | .ok (readBytes, m) => .done readBytes (k.setFd fd { fileDesc with filePos := fileDesc.filePos + readBytes }) m

/-- The number of characters of an entry's name `dir_read` copies. The comparison is signed for a name
that fills its field and unsigned for a shorter one. -/
def lenToCopy (filename : List UInt8) (nbytes : ℕ) : ℕ :=
  if filename.getD (filenameLen - 1) 0 ≠ 0 then if int32 nbytes ≥ filenameLen then filenameLen else nbytes
  else if nbytes ≥ strlen filename then strlen filename
  else nbytes

/-- `dir_read`. `stack` is the memory at the local copy of the entry. -/
def dirRead (img : Image) (k : Kernel) (m : σ) (stack : ℕ → UInt8) (fd buf nbytes : ℕ) : ReadOutcome σ :=
  let fileDesc := k.getPcbNow.fd fd
  let i := uint32 fileDesc.filePos
  if i ≥ img.dirCount then .done 0 k m
  else
    let filename := img.nameField i
    let len := lenToCopy filename nbytes
    let src := fun j => if j < filenameLen then filename.getD j 0 else stack j
    match strncpyTo m buf src len with
    | .error m => .fault m
    | .ok m => .done (int32 len) (k.setFd fd { fileDesc with filePos := i + 1 }) m

def FileOps.read (img : Image) (fs : Filesystem) (k : Kernel) (m : σ) (w : Waited) (stack : ℕ → UInt8)
    (fd buf nbytes : ℕ) : FileOps → ReadOutcome σ
  | .stdin =>
    match terminalRead k m w.keyboard buf (int32 nbytes) with
    | none => .waits
    | some (.error m) => .fault m
    | some (.ok (r, k, m)) => .done r k m
  | .stdout => .done (-1) k m
  | .file => fileRead img fs k m fd buf nbytes
  | .directory => dirRead img k m stack fd buf nbytes
  | .rtc =>
    match k.rtcRead w.rtc with
    | none => .waits
    | some (r, k) => .done r k m

/-- `read`. -/
def readCall (img : Image) (fs : Filesystem) (k : Kernel) (m : σ) (w : Waited) (stack : ℕ → UInt8)
    (fd buf nbytes : ℕ) : ReadOutcome σ :=
  if fd > 7 then .done (-1) k m
  else if k.getPcbNow.available fd = 1 then .done (-1) k m
  else
    match (k.getPcbNow.fd fd).fileOps with
    | none => .fault m
    | some ops => ops.read img fs k m w stack fd buf nbytes

end Read

/-! ## Writing -/

/-- How a write ends: it returns, it touched a page that is not present, or it divided by zero. -/
inductive WriteOutcome
  | done (r : ℤ) (k : Kernel)
  | fault (k : Kernel)
  | divideError (k : Kernel)

namespace Kernel
variable (k : Kernel)

/-- A byte of the memory the process sees. -/
def load (a : ℕ) : Option UInt8 := (k.translate a).map k.phys

/-- The word at an address, byte by byte. -/
def loadWord (a : ℕ) : Option ℕ :=
  match k.load a, k.load (a + 1), k.load (a + 2), k.load (a + 3) with
  | some b₀, some b₁, some b₂, some b₃ =>
    some (b₀.toNat + 256 * b₁.toNat + 65536 * b₂.toNat + 16777216 * b₃.toNat)
  | _, _, _, _ => none

end Kernel

/-- The loop of `terminal_write`: characters are loaded and printed one by one, NUL bytes skipped. -/
def writeChars (k : Kernel) (buffer : ℕ) : ℕ → Except Kernel Kernel
  | 0 => .ok k
  | n + 1 =>
    match writeChars k buffer n with
    | .error k => .error k
    | .ok k =>
      match k.load (buffer + n) with
      | none => .error k
      | some c => .ok (if c ≠ 0 then k.putc c else k)

/-- `terminal_write`. -/
def terminalWrite (k : Kernel) (buffer : ℕ) (nbytes : ℤ) : WriteOutcome :=
  if nbytes = 0 then .done 1 k
  else if buffer = 0 then .done 1 k
  else
    match writeChars k buffer nbytes.toNat with
    | .error k => .fault k
    | .ok k => .done 0 k

/-- `rtc_write` through the buffer. -/
def rtcWrite (k : Kernel) (buf : ℕ) (nbytes : ℤ) : WriteOutcome :=
  if buf = 0 ∨ nbytes ≠ 4 then .done (-1) k
  else
    match k.loadWord buf with
    | none => .fault k
    | some rate =>
      match k.rtc.rtcWrite k.getPcbNow.terminalInfo.terminalNum buf rate nbytes with
      | .ok (r, rtc) => .done r { k with rtc := rtc }
      | .error rtc => .divideError { k with rtc := rtc }

def FileOps.write (k : Kernel) (buf nbytes : ℕ) : FileOps → WriteOutcome
  | .stdin => .done (-1) k
  | .stdout => terminalWrite k buf (int32 nbytes)
  | .file => .done (-1) k
  | .directory => .done (-1) k
  | .rtc => rtcWrite k buf (int32 nbytes)

/-- `write`. -/
def writeCall (k : Kernel) (fd buf nbytes : ℕ) : WriteOutcome :=
  if fd > 7 then .done (-1) k
  else if k.getPcbNow.available fd = 1 then .done (-1) k
  else
    match (k.getPcbNow.fd fd).fileOps with
    | none => .fault k
    | some ops => ops.write k buf nbytes

/-- Everything moves but the processor's stack and the descriptors of its process. -/
def Kernel.elsewhere (k k' : Kernel) : Kernel :=
  { k' with
    cpu := k.cpu
    pcb := fun a =>
      if a = getPcb k.cpu.esp then { k'.pcb a with available := (k.pcb a).available, fd := (k.pcb a).fd }
      else k'.pcb a }

/-! ## The table of the running process -/

namespace Kernel
variable (k : Kernel)

def FdFree : Prop := ∃ i < maxFiles, k.getPcbNow.available i ≠ 0

theorem getPcbNow_setPcb (f : Pcb → Pcb) :
    (k.setPcb (getPcb k.cpu.esp) f).getPcbNow = f k.getPcbNow := by
  unfold getPcbNow setPcb
  simp only [Function.update_self]

@[simp] theorem getPcbNow_setAvailable (fd a : ℕ) :
    (k.setAvailable fd a).getPcbNow =
      { k.getPcbNow with available := Function.update k.getPcbNow.available fd a } := k.getPcbNow_setPcb _

@[simp] theorem getPcbNow_setFd (fd : ℕ) (d : FileDescriptor) :
    (k.setFd fd d).getPcbNow = { k.getPcbNow with fd := Function.update k.getPcbNow.fd fd d } :=
  k.getPcbNow_setPcb _

@[simp] theorem getPcbNow_rtcOpen : k.rtcOpen.2.getPcbNow = k.getPcbNow := rfl

theorem getPcbNow_elsewhere (k' : Kernel) : (k.elsewhere k').getPcbNow =
    { k'.pcb (getPcb k.cpu.esp) with available := k.getPcbNow.available, fd := k.getPcbNow.fd } := by
  unfold getPcbNow elsewhere
  simp only [if_pos]

theorem getAvailFd_none : k.getAvailFd = none ↔ ¬ k.FdFree := by
  unfold getAvailFd FdFree
  constructor
  · rintro h ⟨i, hi, hav⟩
    split at h
    · cases h
    · next hf =>
      rw [List.find?_eq_none] at hf
      have := hf i (List.mem_range.mpr hi)
      exact this (decide_eq_true hav)
  · intro h
    have hf : (List.range maxFiles).find? (fun i => decide (k.getPcbNow.available i ≠ 0)) = none := by
      rw [List.find?_eq_none]
      intro i hi hav
      exact h ⟨i, List.mem_range.mp hi, of_decide_eq_true hav⟩
    rw [hf]

theorem getAvailFd_some {fd : ℕ} {k' : Kernel} (h : k.getAvailFd = some (fd, k')) :
    fd < maxFiles ∧ k.getPcbNow.available fd ≠ 0 ∧ k' = k.setAvailable fd 0 := by
  unfold getAvailFd at h
  split at h
  · next i hf =>
    simp only [Option.some.injEq, Prod.mk.injEq] at h
    obtain ⟨rfl, rfl⟩ := h
    have hs := List.find?_some hf
    exact ⟨List.mem_range.mp (List.mem_of_find?_eq_some hf), of_decide_eq_true hs, rfl⟩
  · cases h

end Kernel

theorem getPcbNow_bindFd (k : Kernel) (fd : ℕ) (ops : FileOps) (inode : ℤ) :
    (k.bindFd fd ops inode).getPcbNow =
      { k.getPcbNow with
        fd := Function.update k.getPcbNow.fd fd
          { fileOps := some ops, inode := inode, filePos := 0, flags := 0 } } :=
  k.getPcbNow_setFd fd _

/-! ## What reads and writes leave of the table -/

section Pcb
variable {σ : Type} [ByteStore σ] {img : Image} {fs : Filesystem} {k k' : Kernel} {m m' : σ} {w : Waited}
  {stack : ℕ → UInt8} {fd buf nbytes : ℕ} {r : ℤ}

/-- The process is the same, and of its PCB at most the position of one descriptor is new. -/
def Moved (fd : ℕ) (k k' : Kernel) : Prop :=
  getPcb k'.cpu.esp = getPcb k.cpu.esp ∧ ∃ pos, k'.getPcbNow =
    { k.getPcbNow with fd := Function.update k.getPcbNow.fd fd { k.getPcbNow.fd fd with filePos := pos } }

theorem moved_of_same (hesp : getPcb k'.cpu.esp = getPcb k.cpu.esp) (h : k'.getPcbNow = k.getPcbNow) :
    Moved fd k k' := by
  refine ⟨hesp, (k.getPcbNow.fd fd).filePos, ?_⟩
  rw [h, Function.update_eq_self]

theorem moved_setFd (pos : ℤ) : Moved fd k (k.setFd fd { k.getPcbNow.fd fd with filePos := pos }) :=
  ⟨rfl, pos, k.getPcbNow_setFd fd _⟩

theorem terminalRead_moved {kb : ℕ → KeyboardStruct} {n : ℤ}
    (h : terminalRead k m kb buf n = some (.ok (r, k', m'))) : Moved fd k k' := by
  unfold terminalRead at h
  split at h
  · cases h
    exact moved_of_same rfl rfl
  · split at h
    · cases h
      exact moved_of_same rfl rfl
    · simp only at h
      split at h
      · simp only [Option.some.injEq] at h
        split at h
        · cases h
        · cases h
          exact moved_of_same rfl rfl
      · cases h

theorem readCall_pcb (h : readCall img fs k m w stack fd buf nbytes = .done r k' m') : Moved fd k k' := by
  unfold readCall at h
  split at h
  · cases h
    exact moved_of_same rfl rfl
  · split at h
    · cases h
      exact moved_of_same rfl rfl
    · split at h
      · cases h
      · next ops _ =>
        cases ops with
        | stdin =>
          simp only [FileOps.read] at h
          split at h
          · cases h
          · cases h
          · next hread =>
            cases h
            exact terminalRead_moved hread
        | stdout =>
          cases h
          exact moved_of_same rfl rfl
        | file =>
          simp only [FileOps.read, fileRead] at h
          split at h
          · cases h
          · cases h
            exact moved_setFd _
        | directory =>
          simp only [FileOps.read, dirRead] at h
          split at h
          · cases h
            exact moved_of_same rfl rfl
          · split at h
            · cases h
            · cases h
              exact moved_setFd _
        | rtc =>
          simp only [FileOps.read] at h
          split at h
          · cases h
          · next hread =>
            cases h
            unfold Kernel.rtcRead at hread
            simp only at hread
            split at hread
            · cases hread
              exact moved_of_same rfl rfl
            · cases hread

end Pcb

/-- The kernel with one process, set up in slot 0. -/
def Kernel.oneProcess : Kernel := Kernel.boot.setPcb (getPcbPtr 0) (setupPcb 0 0)

theorem Kernel.oneProcess_now : Kernel.oneProcess.getPcbNow = setupPcb 0 0 (Kernel.boot.pcb (getPcbPtr 0)) := by
  have hslot : getPcb Kernel.oneProcess.cpu.esp = getPcbPtr 0 := by decide
  unfold getPcbNow
  rw [hslot]
  exact Function.update_self (getPcbPtr 0) (setupPcb 0 0 (Kernel.boot.pcb (getPcbPtr 0))) Kernel.boot.pcb

end Kernel391
