import Kernel391.Process.Arguments
import Kernel391.Process.DescriptorTable

/-! The system calls that store through an argument: `read`, `getargs` and `vidmap`. The
memory records every store, so what a call writes and where can be compared with
the program page of its caller. -/
namespace Kernel391
open Kernel391.Foundations ByteStore
set_option autoImplicit false

/-- The memory behind the arguments: the addresses that are mapped and the stores made, the first
first. Addresses have 32 bits. -/
structure UserMemory where
  mapped : ℕ → Bool
  writes : List (ℕ × UInt8)

instance : ByteStore UserMemory where
  put m a b :=
    if m.mapped (a % 2 ^ 32) then .ok { m with writes := m.writes ++ [(a % 2 ^ 32, b)] } else .error m

/-! ## The calls -/

/-- The bytes of the pointer `vidmap` stores. -/
def vmemBytes : List UInt8 := [0x00, 0x00, 0x40, 0x08]

/-- `vidmap`. The comparisons are signed and let the end of the page through. -/
def vidmap {σ : Type} [ByteStore σ] (m : σ) (screenStart : ℕ) : Except σ (ℤ × σ) :=
  if int32 screenStart < programAddr ∨ int32 screenStart > programAddr + fourMb then .ok (-1, m)
  else
    match putBytes m screenStart vmemBytes with
    | .error m => .error m
    | .ok m => .ok (0, m)

section Call
variable {σ : Type} [ByteStore σ]

/-- A call that returns at once. -/
def ReadOutcome.ofExcept (k : Kernel) : Except σ (ℤ × σ) → ReadOutcome σ
  | .error m => .fault m
  | .ok (r, m) => .done r k m

/-- The entries of `syscall_table` that store through an argument; the others store nowhere in the
memory of the program they return to. -/
def pointerCall (img : Image) (fs : Filesystem) (k : Kernel) (m : σ) (w : Waited) (stack : ℕ → UInt8)
    (eax ebx ecx edx : ℕ) : Option (ReadOutcome σ) :=
  match eax with
  | 3 => some (readCall img fs k m w stack ebx ecx edx)
  | 7 => some (.ofExcept k (getargs k m ebx ecx))
  | 8 => some (.ofExcept k (vidmap m ebx))
  | _ => none

end Call

def pointerRange (eax ebx ecx edx : ℕ) : ℕ × ℕ :=
  match eax with
  | 3 => (ecx, edx)
  | 7 => (ebx, ecx)
  | 8 => (ebx, 4)
  | _ => (0, 0)

/-! ## What a call may do -/

def InPage (a : ℕ) : Prop := programAddr ≤ a ∧ a < vmemAddr

def RangeInside (r : ℕ × ℕ) : Prop := ∀ i < r.2, InPage (r.1 + i)

instance (a : ℕ) : Decidable (InPage a) := inferInstanceAs (Decidable (_ ∧ _))

instance (r : ℕ × ℕ) : Decidable (RangeInside r) := inferInstanceAs (Decidable (∀ i < r.2, _))

/-- All stores lie in the program page, and a range that does not is refused with -1 and no store. -/
def ReadOutcome.Contained (range : ℕ × ℕ) : ReadOutcome UserMemory → Prop
  | .done r _ m => (∀ w ∈ m.writes, InPage w.1) ∧ (¬ RangeInside range → r = -1 ∧ m.writes = [])
  | .waits => True
  | .fault m => (∀ w ∈ m.writes, InPage w.1) ∧ RangeInside range

/-- However the wait of the call ends, and whatever the stack holds. -/
def CallContained (img : Image) (fs : Filesystem) (k : Kernel) (mapped : ℕ → Bool) (eax ebx ecx edx : ℕ) : Prop :=
  ∀ (w : Waited) (stack : ℕ → UInt8), ∀ o ∈ pointerCall img fs k (⟨mapped, []⟩ : UserMemory) w stack eax ebx ecx edx,
    o.Contained (pointerRange eax ebx ecx edx)

/-- The call is refused before its range matters, or the range is inside the page. -/
def RangeChecked (k : Kernel) (eax ebx ecx edx : ℕ) : Prop :=
  RangeInside (pointerRange eax ebx ecx edx) ∨
    match eax with
    | 3 => k.getPcbNow.table ebx = none ∨ ebx = 1
    | 7 => ebx = 0 ∨ k.getPcbNow.arguments = [] ∨ ecx < k.getPcbNow.arguments.length + 1
    | 8 => int32 ebx < programAddr ∨ vmemAddr < ebx
    | _ => True

/-! ## Stores -/

section Stores
variable {m m' : UserMemory} {a n : ℕ} {bs : List UInt8}

theorem putBytes_page (hmap : ∀ a, InPage a → m.mapped a = true) (h : ∀ i < bs.length, InPage (a + i)) :
    putBytes m a bs = .ok { m with writes := m.writes ++ consecutive a bs } := by
  induction bs generalizing m a with
  | nil =>
    rw [putBytes_nil, consecutive, List.append_nil]
  | cons b bs ih =>
    have ha : InPage a := h 0 (Nat.zero_lt_succ _)
    have hmod : a % 2 ^ 32 = a := by
      have := ha.2
      simp only [vmemAddr] at this
      omega
    have hput : put m a b = .ok { m with writes := m.writes ++ [(a, b)] } := by
      unfold put instByteStoreUserMemory
      simp only [hmod]
      rw [if_pos (hmap a ha)]
    have hrest := @ih { m with writes := m.writes ++ [(a, b)] } (a + 1) hmap fun i hi => by
      have := h (i + 1) (Nat.succ_lt_succ hi)
      rwa [show a + (i + 1) = a + 1 + i by omega] at this
    rw [putBytes_cons_ok bs hput, hrest, consecutive]
    simp

theorem putBytes_inside (hmap : ∀ a, InPage a → m.mapped a = true) (h : ∀ i < bs.length, InPage (a + i)) :
    ∃ m', putBytes m a bs = .ok m' ∧ ∀ w ∈ m'.writes, w ∈ m.writes ∨ InPage w.1 := by
  refine ⟨_, putBytes_page hmap h, fun w hmem => ?_⟩
  rcases List.mem_append.mp hmem with hold | hnew
  · exact Or.inl hold
  · obtain ⟨hle, hbyte⟩ := mem_consecutive.mp hnew
    have hin := h (w.1 - a) (List.getElem?_eq_some_iff.mp hbyte).1
    rw [Nat.add_sub_cancel' hle] at hin
    exact Or.inr hin

theorem putBytes_mapped (h : ∀ i < bs.length, m.mapped ((a + i) % 2 ^ 32) = true) :
    ∃ m', putBytes m a bs = .ok m' ∧ ∀ w ∈ m'.writes, w ∈ m.writes ∨ ∃ i < bs.length, w.1 = (a + i) % 2 ^ 32 := by
  induction bs generalizing m a with
  | nil => exact ⟨m, rfl, fun w hw => Or.inl hw⟩
  | cons b bs ih =>
    have hput : put m a b = .ok { m with writes := m.writes ++ [(a % 2 ^ 32, b)] } := if_pos (h 0 (Nat.zero_lt_succ _))
    obtain ⟨m', hm', hwrites⟩ := @ih { m with writes := m.writes ++ [(a % 2 ^ 32, b)] } (a + 1) fun i hi => by
      have := h (i + 1) (Nat.succ_lt_succ hi)
      rwa [show a + (i + 1) = a + 1 + i by omega] at this
    refine ⟨m', (putBytes_cons_ok bs hput).trans hm', fun w hw => ?_⟩
    rcases hwrites w hw with hold | ⟨i, hi, hx⟩
    · rcases List.mem_append.mp hold with hold | hnew
      · exact Or.inl hold
      · rw [List.mem_singleton.mp hnew]
        exact Or.inr ⟨0, Nat.zero_lt_succ _, rfl⟩
    · exact Or.inr ⟨i + 1, Nat.succ_lt_succ hi, by rw [hx, show a + 1 + i = a + (i + 1) by omega]⟩

theorem putBytes_writes (h : putBytes m a bs = .ok m') : m'.writes.length = m.writes.length + bs.length := by
  induction bs generalizing m a with
  | nil =>
    cases h
    rfl
  | cons b bs ih =>
    by_cases hm : m.mapped (a % 2 ^ 32) = true
    · have hput : put m a b = .ok { m with writes := m.writes ++ [(a % 2 ^ 32, b)] } := if_pos hm
      rw [putBytes_cons_ok bs hput] at h
      rw [ih h, List.length_append, List.length_singleton, List.length_cons]
      omega
    · have hput : put m a b = .error m := if_neg hm
      rw [putBytes_cons_error bs hput] at h
      cases h

end Stores

/-! ## `getargs` and `vidmap` -/

section Direct
variable {img : Image} {fs : Filesystem} {k : Kernel} {mapped : ℕ → Bool} {buf nbytes : ℕ}

theorem refused_contained {range : ℕ × ℕ} : (ReadOutcome.done (-1) k (⟨mapped, []⟩ : UserMemory)).Contained range :=
  ⟨fun _ hw => absurd hw List.not_mem_nil, fun _ => ⟨rfl, rfl⟩⟩

theorem not_contained_done {range : ℕ × ℕ} {r : ℤ} {m : UserMemory} (hr : ¬ RangeInside range) (h : r ≠ -1) :
    ¬ (ReadOutcome.done r k m).Contained range := fun hc => h (hc.2 hr).1

theorem not_contained_fault {range : ℕ × ℕ} {m : UserMemory} (hr : ¬ RangeInside range) :
    ¬ (ReadOutcome.fault m).Contained range := fun hc => hr hc.2

theorem vidmap_refuses_iff {s : ℕ} (hs : s < 2 ^ 32) :
    (int32 s < programAddr ∨ int32 s > programAddr + fourMb) ↔ int32 s < programAddr ∨ vmemAddr < s := by
  have hpage : (programAddr : ℤ) + fourMb = vmemAddr := by decide
  rw [hpage]
  unfold int32
  simp only [programAddr, vmemAddr]
  split <;> omega

variable (hmap : ∀ a, InPage a → mapped a = true)
include hmap

theorem vidmap_contained (ha : buf < 2 ^ 32) :
    (ReadOutcome.ofExcept k (vidmap (⟨mapped, []⟩ : UserMemory) buf)).Contained (buf, 4) ↔
    RangeInside (buf, 4) ∨ int32 buf < programAddr ∨ vmemAddr < buf := by
  unfold vidmap
  by_cases hout : int32 buf < programAddr ∨ vmemAddr < buf
  · rw [if_pos ((vidmap_refuses_iff ha).mpr hout)]
    exact iff_of_true refused_contained (Or.inr hout)
  rw [if_neg fun h => hout ((vidmap_refuses_iff ha).mp h)]
  by_cases hin : RangeInside (buf, 4)
  · refine iff_of_true ?_ (Or.inl hin)
    obtain ⟨m', hm', hw⟩ := @putBytes_inside ⟨mapped, []⟩ buf vmemBytes hmap hin
    rw [hm']
    exact ⟨fun w hmem => (hw w hmem).resolve_left List.not_mem_nil, fun h => absurd hin h⟩
  · refine iff_of_false ?_ fun h => h.elim hin hout
    cases putBytes (⟨mapped, []⟩ : UserMemory) buf vmemBytes with
    | error m => exact not_contained_fault hin
    | ok m => exact not_contained_done hin (by decide)

theorem getargs_contained :
    (ReadOutcome.ofExcept k (getargs k (⟨mapped, []⟩ : UserMemory) buf nbytes)).Contained (buf, nbytes) ↔
    RangeInside (buf, nbytes) ∨ buf = 0 ∨ k.getPcbNow.arguments = [] ∨ nbytes < k.getPcbNow.arguments.length + 1 := by
  unfold getargs
  simp only
  have hempty : (buf = 0 ∨ k.getPcbNow.arguments.length = 0 ∨ nbytes < k.getPcbNow.arguments.length + 1) ↔
      buf = 0 ∨ k.getPcbNow.arguments = [] ∨ nbytes < k.getPcbNow.arguments.length + 1 := by
    rw [List.length_eq_zero_iff]
  by_cases hout : buf = 0 ∨ k.getPcbNow.arguments = [] ∨ nbytes < k.getPcbNow.arguments.length + 1
  · rw [if_pos (hempty.mpr hout)]
    exact iff_of_true refused_contained (Or.inr hout)
  rw [if_neg fun h => hout (hempty.mp h)]
  have hself : window k.getPcbNow.argsBytes k.getPcbNow.arguments.length 0 = k.getPcbNow.arguments := window_self
  unfold strncpyTo
  rw [hself, Nat.sub_self, List.replicate_zero, List.append_nil]
  have hfits : k.getPcbNow.arguments.length < nbytes := by omega
  by_cases hin : RangeInside (buf, nbytes)
  · refine iff_of_true ?_ (Or.inl hin)
    obtain ⟨m', hm', hw⟩ := @putBytes_inside ⟨mapped, []⟩ buf (k.getPcbNow.arguments ++ [0]) hmap fun i hi => by
      rw [List.length_append, List.length_singleton] at hi
      exact hin i (show i < nbytes by omega)
    rw [putBytes_append] at hm'
    cases hp : putBytes (⟨mapped, []⟩ : UserMemory) buf k.getPcbNow.arguments with
    | error m =>
      rw [hp] at hm'
      cases hm'
    | ok m =>
      simp only [hp, putBytes] at hm' ⊢
      cases hq : put m (buf + k.getPcbNow.arguments.length) 0 with
      | error m₁ =>
        rw [hq] at hm'
        cases hm'
      | ok m₁ =>
        rw [hq] at hm'
        cases hm'
        exact ⟨fun w hmem => (hw w hmem).resolve_left List.not_mem_nil, fun h => absurd hin h⟩
  · refine iff_of_false ?_ fun h => h.elim hin hout
    cases putBytes (⟨mapped, []⟩ : UserMemory) buf k.getPcbNow.arguments with
    | error m => exact not_contained_fault hin
    | ok m =>
      simp only
      cases put m (buf + k.getPcbNow.arguments.length) 0 with
      | error m => exact not_contained_fault hin
      | ok m => exact not_contained_done hin (by decide)

end Direct

/-! ## `read` -/

/-- An open file is one of the image, and the position is within it. -/
def Pcb.ProperFiles (img : Image) (b : Pcb) : Prop :=
  ∀ fd < maxFiles, b.available fd = 0 → (b.fd fd).fileOps = some .file →
    ∃ i < img.inodeCount, ∃ pos ≤ img.fileLength i, (b.fd fd).inode = i ∧ (b.fd fd).filePos = pos

section Read
variable {img : Image} {fs : Filesystem} {k : Kernel} {mapped : ℕ → Bool} {fd buf nbytes : ℕ}

theorem int32_le (n : ℕ) : int32 n ≤ n := by
  unfold int32
  split <;> omega

theorem lenToCopy_le (filename : List UInt8) (n : ℕ) : lenToCopy filename n ≤ n := by
  have hsigned := int32_le n
  unfold lenToCopy
  by_cases hfull : filename.getD (filenameLen - 1) 0 ≠ 0
  · rw [if_pos hfull]
    by_cases hn : int32 n ≥ filenameLen
    · rw [if_pos hn]
      omega
    · rw [if_neg hn]
  · rw [if_neg hfull]
    by_cases hn : n ≥ strlen filename
    · rw [if_pos hn]
      exact hn
    · rw [if_neg hn]

theorem copy_contained {bs : List UInt8} {r : ℤ} {o : ReadOutcome UserMemory} (hmap : ∀ a, InPage a → mapped a = true)
    (hlen : bs.length ≤ nbytes) (hr : r = -1 → bs ≠ [])
    (hok : ∀ m', putBytes (⟨mapped, []⟩ : UserMemory) buf bs = .ok m' → ∃ k', o = .done r k' m')
    (herr : ∀ m', putBytes (⟨mapped, []⟩ : UserMemory) buf bs = .error m' → o = .fault m') :
    o.Contained (buf, nbytes) ↔ RangeInside (buf, nbytes) := by
  by_cases hin : RangeInside (buf, nbytes)
  · refine iff_of_true ?_ hin
    obtain ⟨m', hm', hw⟩ := @putBytes_inside ⟨mapped, []⟩ buf bs hmap fun i hi => hin i (show i < nbytes by omega)
    obtain ⟨k', rfl⟩ := hok m' hm'
    exact ⟨fun w hmem => (hw w hmem).resolve_left List.not_mem_nil, fun h => absurd hin h⟩
  · refine iff_of_false ?_ hin
    cases hp : putBytes (⟨mapped, []⟩ : UserMemory) buf bs with
    | error m =>
      rw [herr m hp]
      exact not_contained_fault hin
    | ok m =>
      obtain ⟨k', rfl⟩ := hok m hp
      intro hc
      obtain ⟨hneg, hnone⟩ := hc.2 hin
      have hwrites := putBytes_writes hp
      rw [hnone, List.length_nil, Nat.zero_add] at hwrites
      exact hr hneg (List.length_eq_zero_iff.mp hwrites.symm)

theorem fileRead_contained (wf : img.WellFormed) (hmap : ∀ a, InPage a → mapped a = true) (hfd : fd < maxFiles)
    (hav : k.getPcbNow.available fd = 0) (hops : (k.getPcbNow.fd fd).fileOps = some .file)
    (hproper : k.getPcbNow.ProperFiles img) :
    (fileRead img (Image.WellFormed.pointers img) k (⟨mapped, []⟩ : UserMemory) fd buf nbytes).Contained (buf, nbytes) ↔
      RangeInside (buf, nbytes) := by
  obtain ⟨i, hi, pos, hpos, hinode, hfilePos⟩ := hproper fd hfd hav hops
  have hlen := wf.length_le i hi
  have hsz := wf.size
  have hfits := wf.fits
  simp only [bytesPerBlock] at hsz hlen
  have hui : uint32 (i : ℤ) = i := by
    unfold uint32
    omega
  have hup : uint32 (pos : ℤ) = pos := by
    unfold uint32
    omega
  refine @copy_contained mapped buf nbytes (img.fileSlice i pos (min nbytes (img.fileLength i - pos)))
    ((min nbytes (img.fileLength i - pos) : ℕ) : ℤ) _ hmap (by rw [Image.fileSlice_length]; omega)
    (fun hneg => absurd hneg (by omega)) (fun m' hp => ?_) fun m' hp => ?_
  · unfold fileRead
    simp only [hinode, hui]
    rw [hfilePos, hup, readData_eq wf i hi _ pos buf nbytes hpos, hp]
    exact ⟨_, rfl⟩
  · unfold fileRead
    simp only [hinode, hui]
    rw [hfilePos, hup, readData_eq wf i hi _ pos buf nbytes hpos, hp]

theorem dirRead_contained (hmap : ∀ a, InPage a → mapped a = true) (stack : ℕ → UInt8) :
    (dirRead img k (⟨mapped, []⟩ : UserMemory) stack fd buf nbytes).Contained (buf, nbytes) ↔
      RangeInside (buf, nbytes) := by
  unfold dirRead
  simp only
  by_cases hend : uint32 (k.getPcbNow.fd fd).filePos ≥ img.dirCount
  · rw [if_pos hend]
    by_cases hin : RangeInside (buf, nbytes)
    · exact iff_of_true ⟨fun _ hw => absurd hw List.not_mem_nil, fun h => absurd hin h⟩ hin
    · exact iff_of_false (not_contained_done hin (by decide)) hin
  rw [if_neg hend]
  generalize hlen : lenToCopy (img.nameField (uint32 (k.getPcbNow.fd fd).filePos)) nbytes = len
  have hle : len ≤ nbytes := hlen ▸ lenToCopy_le _ _
  unfold strncpyTo
  generalize hbs : window (fun j => if j < filenameLen then
    (img.nameField (uint32 (k.getPcbNow.fd fd).filePos)).getD j 0 else stack j) len 0 = name
  have hname : name.length ≤ len := hbs ▸ window_length_le
  have hbytes : (name ++ List.replicate (len - name.length) 0).length = len := by
    rw [List.length_append, List.length_replicate]
    omega
  refine @copy_contained mapped buf nbytes (name ++ List.replicate (len - name.length) 0) (int32 len) _ hmap
    (by rw [hbytes]; exact hle) (fun hneg hnil => ?_) (fun m' hp => ?_) fun m' hp => ?_
  · rw [hnil, List.length_nil] at hbytes
    rw [← hbytes] at hneg
    exact absurd hneg (by decide)
  · rw [hp]
    exact ⟨_, rfl⟩
  · rw [hp]

/-- A line that is there already. -/
def Waited.over : Waited where
  keyboard _ := ⟨fun _ => 0x0A, 1, 1⟩
  rtc := ⟨1, 0, 0, fun _ => 0, fun _ => 0, fun _ => 0, fun _ => 1⟩

theorem stdin_contained (hmap : ∀ a, InPage a → mapped a = true) :
    (∀ (w : Waited) (stack : ℕ → UInt8), (FileOps.read img fs k (⟨mapped, []⟩ : UserMemory) w stack fd buf nbytes
        .stdin).Contained (buf, nbytes)) ↔ RangeInside (buf, nbytes) := by
  have hready : ∀ w : Waited, (w.keyboard (k.pcb (getPcb k.cpu.esp)).terminalInfo.terminalNum).ready = true →
      int32 nbytes ≠ 0 → buf ≠ 0 → ∀ stack : ℕ → UInt8,
      ((FileOps.read img fs k (⟨mapped, []⟩ : UserMemory) w stack fd buf nbytes .stdin).Contained (buf, nbytes) ↔
        RangeInside (buf, nbytes)) := by
    intro w hr hn hbuf stack
    simp only [FileOps.read, terminalRead]
    rw [if_neg hn, if_neg hbuf, if_pos hr]
    generalize hkb : w.keyboard (k.pcb (getPcb k.cpu.esp)).terminalInfo.terminalNum = kb
    have hlen : (kb.copied (int32 nbytes).toNat).length ≤ nbytes := by
      unfold KeyboardStruct.copied
      rw [List.length_map, List.length_range]
      have := int32_le nbytes
      omega
    refine @copy_contained mapped buf nbytes (kb.copied (int32 nbytes).toNat)
      (kb.count (int32 nbytes).toNat) _ hmap hlen
      (fun hneg => absurd hneg (by omega)) (fun m' hp => ?_) fun m' hp => ?_
    · rw [hp]
      exact ⟨_, rfl⟩
    · rw [hp]
  have hempty : int32 nbytes = 0 ∨ buf = 0 → ∀ (w : Waited) (stack : ℕ → UInt8),
      FileOps.read img fs k (⟨mapped, []⟩ : UserMemory) w stack fd buf nbytes .stdin = .done 0 k ⟨mapped, []⟩ := by
    intro h w stack
    simp only [FileOps.read, terminalRead]
    by_cases hn : int32 nbytes = 0
    · rw [if_pos hn]
    · rw [if_neg hn, if_pos (h.resolve_left hn)]
  by_cases hnone : int32 nbytes = 0 ∨ buf = 0
  · constructor
    · intro h
      by_contra hin
      have hc := h Waited.over fun _ => 0
      rw [hempty hnone] at hc
      exact not_contained_done hin (by decide) hc
    · intro hin w stack
      rw [hempty hnone]
      exact ⟨fun _ hw => absurd hw List.not_mem_nil, fun h => absurd hin h⟩
  · have hn : int32 nbytes ≠ 0 := fun h => hnone (Or.inl h)
    have hbuf : buf ≠ 0 := fun h => hnone (Or.inr h)
    constructor
    · intro h
      have hover : (⟨fun _ => 0x0A, 1, 1⟩ : KeyboardStruct).ready = true := by decide
      exact (hready Waited.over hover hn hbuf fun _ => 0).mp (h _ _)
    · intro hin w stack
      by_cases hr : (w.keyboard (k.pcb (getPcb k.cpu.esp)).terminalInfo.terminalNum).ready = true
      · exact (hready w hr hn hbuf stack).mpr hin
      · simp only [FileOps.read, terminalRead]
        rw [if_neg hn, if_neg hbuf, if_neg hr]
        trivial

theorem rtc_contained : (∀ (w : Waited) (stack : ℕ → UInt8),
      (FileOps.read img fs k (⟨mapped, []⟩ : UserMemory) w stack fd buf nbytes .rtc).Contained (buf, nbytes)) ↔
    RangeInside (buf, nbytes) := by
  constructor
  · intro h
    by_contra hin
    have hc := h Waited.over fun _ => 0
    simp only [FileOps.read, Kernel.rtcRead, Waited.over, ↓reduceIte] at hc
    exact not_contained_done hin (by decide) hc
  · intro hin w stack
    simp only [FileOps.read, Kernel.rtcRead]
    split
    · trivial
    · next hread =>
      split at hread
      · cases hread
        exact ⟨fun _ hw => absurd hw List.not_mem_nil, fun h => absurd hin h⟩
      · cases hread

/-- **`read`** through a descriptor of the process. -/
theorem readCall_contained (wf : img.WellFormed) (hmap : ∀ a, InPage a → mapped a = true)
    (hv : k.getPcbNow.ValidTable) (hproper : k.getPcbNow.ProperFiles img) :
    (∀ (w : Waited) (stack : ℕ → UInt8), (readCall img (Image.WellFormed.pointers img) k (⟨mapped, []⟩ : UserMemory) w
        stack fd buf nbytes).Contained (buf, nbytes)) ↔
      RangeInside (buf, nbytes) ∨ k.getPcbNow.table fd = none ∨ fd = 1 := by
  by_cases hnone : k.getPcbNow.table fd = none
  · refine iff_of_true (fun w stack => ?_) (Or.inr (Or.inl hnone))
    have hrefused : readCall img (Image.WellFormed.pointers img) k (⟨mapped, []⟩ : UserMemory) w stack fd buf nbytes =
        .done (-1) k ⟨mapped, []⟩ := by
      unfold readCall
      rcases (table_eq_none hv).mp hnone with h7 | h1
      · exact if_pos h7
      · rw [if_pos h1]
        split <;> rfl
    rw [hrefused]
    exact refused_contained
  have hused : ¬ fd > 7 ∧ ¬ k.getPcbNow.available fd = 1 :=
    ⟨fun h => hnone ((table_eq_none hv).mpr (Or.inl h)), fun h => hnone ((table_eq_none hv).mpr (Or.inr h))⟩
  have hfd : fd < maxFiles := by
    simp only [maxFiles]
    omega
  have hav : k.getPcbNow.available fd = 0 := (hv.flags fd hfd).resolve_right hused.2
  have hread : ∀ {ops : FileOps} (w : Waited) (stack : ℕ → UInt8), (k.getPcbNow.fd fd).fileOps = some ops →
      readCall img (Image.WellFormed.pointers img) k (⟨mapped, []⟩ : UserMemory) w stack fd buf nbytes =
        ops.read img (Image.WellFormed.pointers img) k ⟨mapped, []⟩ w stack fd buf nbytes := by
    intro ops w stack hops
    unfold readCall
    rw [if_neg hused.1, if_neg hused.2, hops]
  by_cases h1 : fd = 1
  · refine iff_of_true (fun w stack => ?_) (Or.inr (Or.inr h1))
    rw [hread w stack (h1 ▸ hv.stdout.2)]
    exact refused_contained
  have hgoal : RangeInside (buf, nbytes) ∨ k.getPcbNow.table fd = none ∨ fd = 1 ↔ RangeInside (buf, nbytes) :=
    ⟨fun h => h.resolve_right fun h => h.elim hnone h1, Or.inl⟩
  rw [hgoal]
  by_cases h0 : fd = 0
  · have hops : (k.getPcbNow.fd fd).fileOps = some .stdin := h0 ▸ hv.stdin.2
    simp only [hread _ _ hops]
    exact stdin_contained hmap
  obtain ⟨ops, hops, hin, hout⟩ := hv.bound fd hfd (by omega) hav
  simp only [hread _ _ hops]
  cases ops with
  | stdin => exact absurd rfl hin
  | stdout => exact absurd rfl hout
  | file =>
    have hfile := @fileRead_contained img k mapped fd buf nbytes wf hmap hfd hav hops hproper
    exact ⟨fun h => hfile.mp (h Waited.over fun _ => 0), fun h _ _ => hfile.mpr h⟩
  | directory =>
    exact ⟨fun h => (dirRead_contained hmap fun _ => 0).mp (h Waited.over fun _ => 0),
      fun h _ stack => (dirRead_contained hmap stack).mpr h⟩
  | rtc => exact rtc_contained

end Read

/-! ## Every run -/

section Proper
variable {img : Image} {k k' : Kernel} {b b' : Pcb} {c : TableCall}

theorem setupPcb_properFiles (p parent : ℕ) (b : Pcb) : (setupPcb p parent b).ProperFiles img := by
  intro fd hfd hav hops
  simp only [setupPcb, maxFiles] at hfd hav hops
  by_cases h2 : fd < 2
  · rcases (show fd = 0 ∨ fd = 1 by omega) with rfl | rfl
    · cases hops
    · cases hops
  · rw [if_neg h2, if_pos hfd] at hav
    cases hav

theorem properFiles_congr (h : b.ProperFiles img) (hav : b'.available = b.available) (hfd : b'.fd = b.fd) :
    b'.ProperFiles img := by
  unfold Pcb.ProperFiles
  rw [hav, hfd]
  exact h

/-- A new entry is proper when it is no file, or a file at a position of its own. -/
theorem properFiles_bind (h : b.ProperFiles img) (fd a : ℕ) {d : FileDescriptor}
    (hd : d.fileOps = some .file → ∃ i < img.inodeCount, ∃ pos ≤ img.fileLength i, d.inode = i ∧ d.filePos = pos) :
    ({ b with available := Function.update b.available fd a, fd := Function.update b.fd fd d } : Pcb).ProperFiles
      img := by
  intro j hj hav hops
  by_cases hjf : j = fd
  · subst hjf
    simp only [Function.update_self] at hops ⊢
    exact hd hops
  · simp only [Function.update_of_ne hjf] at hav hops ⊢
    exact h j hj hav hops

theorem properFiles_free (h : b.ProperFiles img) (fd : ℕ) :
    ({ b with available := Function.update b.available fd 1 } : Pcb).ProperFiles img := by
  intro j hj hav hops
  by_cases hjf : j = fd
  · subst hjf
    simp only [Function.update_self] at hav
    cases hav
  · simp only [Function.update_of_ne hjf] at hav
    exact h j hj hav hops

theorem fileOpen_inode (wf : img.WellFormedDirectory) {name : List UInt8} (h : ¬ fileOpen img name < 0) :
    ∃ i < img.inodeCount, fileOpen img name = i := by
  unfold fileOpen readDentryByName at h ⊢
  split at h
  · exact absurd (by decide) h
  · next hlen =>
    rw [if_neg hlen]
    split at h
    · next e he =>
      have hdir : e < img.dirCount := List.mem_range.mp (List.mem_of_find?_eq_some he)
      have hindex : readDentryByIndex img e Dentry.uninit = (0, img.dentry e) := if_neg (by omega)
      simp only [hindex]
      exact ⟨img.entryInode e, wf.inode_lt e hdir, (entryInode_int32 wf hdir).1⟩
    · exact absurd (by decide) h

theorem openCall_properFiles (wf : img.WellFormedDirectory) (h : k.getPcbNow.ProperFiles img) (name : List UInt8)
    (hv : k.getPcbNow.ValidTable) : (openCall img k name).2.getPcbNow.ProperFiles img := by
  unfold openCall
  cases hfd : k.getAvailFd with
  | none => exact h
  | some q =>
    obtain ⟨fd, k₁⟩ := q
    obtain ⟨-, hone, hk₁⟩ := leastFree_of_avail hv hfd
    have hundone : (k₁.makeAvailableFd fd).getPcbNow.ProperFiles img := by
      rw [hk₁, getPcbNow_undone hone]
      exact h
    have hbind : ∀ {ops : FileOps} {inode : ℤ}, (ops = .file → ∃ i < img.inodeCount, inode = i) →
        (k₁.bindFd fd ops inode).getPcbNow.ProperFiles img := by
      intro ops inode hin
      rw [getPcbNow_bindFd, hk₁, Kernel.getPcbNow_setAvailable]
      refine properFiles_bind h fd 0 fun hops => ?_
      obtain ⟨i, hi, hinode⟩ := hin (Option.some.inj hops)
      exact ⟨i, hi, 0, Nat.zero_le _, hinode, rfl⟩
    have hrtc : k₁.rtcOpen.2.getPcbNow = k₁.getPcbNow := Kernel.getPcbNow_rtcOpen k₁
    simp only
    split
    · split
      · exact properFiles_congr hundone rfl rfl
      · exact properFiles_congr (@hbind .rtc (-1) fun hx => by cases hx) rfl rfl
    · split
      · split
        · exact hundone
        · exact hbind fun hx => by cases hx
      · split
        · exact hundone
        · next hres => exact hbind fun _ => fileOpen_inode wf hres

theorem readCall_properFiles (wf : img.WellFormed) (h : k.getPcbNow.ProperFiles img) (hv : k.getPcbNow.ValidTable)
    {m m' : ℕ → UInt8} {w : Waited} {stack : ℕ → UInt8} {fd buf nbytes : ℕ} {r : ℤ}
    (hread : readCall img (Image.WellFormed.pointers img) k m w stack fd buf nbytes = .done r k' m') :
    k'.getPcbNow.ProperFiles img := by
  have hmove : ∀ d : FileDescriptor, (d.fileOps = some .file →
        ∃ i < img.inodeCount, ∃ pos ≤ img.fileLength i, d.inode = i ∧ d.filePos = pos) →
      (k.setFd fd d).getPcbNow.ProperFiles img := by
    intro d hd
    have hbind := properFiles_bind h fd (k.getPcbNow.available fd) hd
    rw [Function.update_eq_self] at hbind
    rw [Kernel.getPcbNow_setFd]
    exact hbind
  obtain ⟨-, pos, hpcb⟩ := readCall_pcb hread
  have hsame : (k.getPcbNow.fd fd).fileOps ≠ some .file → k'.getPcbNow.ProperFiles img := by
    intro hne
    have hset := hmove { k.getPcbNow.fd fd with filePos := pos } fun hops => absurd hops hne
    rw [Kernel.getPcbNow_setFd] at hset
    rw [hpcb]
    exact hset
  by_cases hops : (k.getPcbNow.fd fd).fileOps = some .file
  · unfold readCall at hread
    split at hread
    · cases hread
      exact h
    · next h7 =>
      split at hread
      · cases hread
        exact h
      · next h1 =>
        have hfd : fd < maxFiles := by
          simp only [maxFiles]
          omega
        obtain ⟨i, hi, p, hp, hinode, hfilePos⟩ := h fd hfd ((hv.flags fd hfd).resolve_right h1) hops
        have hlen := wf.length_le i hi
        have hsz := wf.size
        have hfits := wf.fits
        simp only [bytesPerBlock] at hsz hlen
        have hui : uint32 (i : ℤ) = i := by
          unfold uint32
          omega
        have hup : uint32 (p : ℤ) = p := by
          unfold uint32
          omega
        simp only [hops, FileOps.read, fileRead, hinode, hui] at hread
        rw [hfilePos, hup, readData_memory wf i hi m p buf nbytes hp] at hread
        cases hread
        refine hmove _ fun _ => ⟨i, hi, p + min nbytes (img.fileLength i - p), by omega, rfl, ?_⟩
        push_cast
        rfl
  · exact hsame hops

theorem tableStep_properFiles (wf : img.WellFormedDirectory) (h : k.getPcbNow.ProperFiles img)
    (hv : k.getPcbNow.ValidTable)
    (hs : tableStep img (Image.WellFormed.pointers img) k c = some k') : k'.getPcbNow.ProperFiles img := by
  cases c with
  | opening name =>
    cases hs
    exact openCall_properFiles wf h name hv
  | closing fd =>
    obtain ⟨r, hr, rfl⟩ := Option.map_eq_some_iff.mp hs
    unfold closeCall at hr
    split at hr
    · cases hr
      exact h
    · split at hr
      · cases hr
        exact h
      · obtain ⟨ops, -, rfl⟩ := Option.map_eq_some_iff.mp hr
        rw [Kernel.getPcbNow_setAvailable]
        exact properFiles_free h fd
  | reading m w stack fd buf nbytes =>
    simp only [tableStep] at hs
    split at hs
    · next hread =>
      cases hs
      exact readCall_properFiles wf.toWellFormed h hv hread
    · cases hs
  | writing fd buf nbytes =>
    simp only [tableStep] at hs
    split at hs
    · next hw =>
      cases hs
      rw [writeCall_pcb hw]
      exact h
    · cases hs
  | elsewhere k₂ =>
    cases hs
    rw [Kernel.getPcbNow_elsewhere]
    exact properFiles_congr h rfl rfl

end Proper

/-- **System calls and the caller's memory**: after any sequence of calls of a process that starts with
the table `setup_pcb` makes, a call keeps its stores inside the program page and refuses every other
range exactly when its range is inside, or it is refused for another reason. -/
theorem calls_contained (img : Image) (wf : img.WellFormedDirectory) (fs : Filesystem)
    (hfs : initFilesystem img = some fs)
    (p parent : ℕ) (b : Pcb) (k k' : Kernel) (hstart : k.getPcbNow = setupPcb p parent b)
    (hrun : Reaches (tableStep img fs) anyStep k k') (mapped : ℕ → Bool) (hmap : ∀ a, InPage a → mapped a = true)
    (eax ebx ecx edx : ℕ) (hebx : ebx < 2 ^ 32) :
    CallContained img fs k' mapped eax ebx ecx edx ↔ RangeChecked k' eax ebx ecx edx := by
  obtain rfl : fs = Image.WellFormed.pointers img := by
    rw [wf.toWellFormed.initFilesystem_eq] at hfs
    exact (Option.some.inj hfs).symm
  obtain ⟨hv, hproper⟩ : k'.getPcbNow.ValidTable ∧ k'.getPcbNow.ProperFiles img := by
    refine hrun.invariant (P := fun k => k.getPcbNow.ValidTable ∧ k.getPcbNow.ProperFiles img) ?_
      fun s c t hs _ hc => ?_
    · rw [hstart]
      exact ⟨setupPcb_valid p parent b, setupPcb_properFiles p parent b⟩
    · exact ⟨tableStep_valid hs.1 hc, tableStep_properFiles wf hs.2 hs.1 hc⟩
  unfold CallContained RangeChecked pointerCall pointerRange
  split
  · simp only [Option.mem_def, Option.some.injEq, forall_eq']
    exact readCall_contained wf.toWellFormed hmap hv hproper
  · simp only [Option.mem_def, Option.some.injEq, forall_eq']
    exact ⟨fun h => (getargs_contained hmap).mp (h Waited.over fun _ => 0), fun h _ _ => (getargs_contained hmap).mpr h⟩
  · simp only [Option.mem_def, Option.some.injEq, forall_eq']
    exact ⟨fun h => (vidmap_contained hmap hebx).mp (h Waited.over fun _ => 0),
      fun h _ _ => (vidmap_contained hmap hebx).mpr h⟩
  · exact iff_of_true (fun w stack o ho => by cases ho) (Or.inr trivial)

/-- The kernel with one process that has opened the file of the shell as descriptor 2. -/
def Kernel.shellOpen : Kernel := (openCall Image.small Kernel.oneProcess shell).2

theorem calls_contained_shell :
    CallContained Image.small (Image.WellFormed.pointers Image.small) Kernel.shellOpen
      (fun _ => true) 3 2 0x08049000 16 := by
  have hrun : Reaches (tableStep Image.small (Image.WellFormed.pointers Image.small)) anyStep Kernel.oneProcess
      Kernel.shellOpen := Reaches.single (e := .opening shell) trivial rfl
  exact (calls_contained Image.small Image.small_wellFormed _
    Image.small_wellFormed.toWellFormed.initFilesystem_eq 0 0 _
    Kernel.oneProcess Kernel.shellOpen Kernel.oneProcess_now hrun (fun _ => true) (fun _ _ => rfl) 3 2 0x08049000 16
    (by decide)).mpr (Or.inl (by decide))

def ReadOutcome.stores : ReadOutcome UserMemory → Option (ℤ × List (ℕ × UInt8))
  | .done r _ m => some (r, m.writes)
  | _ => none

theorem ReadOutcome.Contained.of_stores {range : ℕ × ℕ} {o : ReadOutcome UserMemory} {r : ℤ} {l : List (ℕ × UInt8)}
    (h : o.Contained range) (hs : o.stores = some (r, l)) : ∀ w ∈ l, InPage w.1 := by
  cases o with
  | done r' k m =>
    cases hs
    exact h.1
  | waits => cases hs
  | fault m => cases hs

/-- A read of four bytes of the shell's file to the address 0x400000, where the kernel is loaded. -/
theorem read_overwrites_kernel :
    ¬ CallContained Image.small (Image.WellFormed.pointers Image.small) Kernel.shellOpen
      (fun _ => true) 3 2 0x00400000 4 := by
  intro h
  have hstores : (readCall Image.small (Image.WellFormed.pointers Image.small) Kernel.shellOpen
      (⟨fun _ => true, []⟩ : UserMemory) Waited.over (fun _ => 0) 2 0x00400000 4).stores =
      some (4, [(0x00400000, 0x7F), (0x00400001, 0x45), (0x00400002, 0x4C), (0x00400003, 0x46)]) := by decide +kernel
  have hin := (h Waited.over (fun _ => 0) _ rfl).of_stores hstores (0x00400000, 0x7F) (List.mem_cons_self ..)
  exact absurd hin (by decide)

/-! ## What `vidmap` accepts -/

theorem int32_outside_iff {s : ℕ} : int32 s < programAddr ∨ vmemAddr < s ↔ s < programAddr ∨ vmemAddr < s := by
  unfold int32
  simp only [programAddr, vmemAddr]
  split <;> omega

theorem pointer_inside_iff {s : ℕ} : RangeInside (s, 4) ↔ programAddr ≤ s ∧ s + 4 ≤ vmemAddr := by
  unfold RangeInside InPage
  constructor
  · intro h
    have hfirst := h 0 (Nat.zero_lt_succ 3)
    have hlast := h 3 (Nat.lt_succ_self 3)
    simp only at hfirst hlast
    omega
  · intro h i hi
    simp only at hi ⊢
    omega

/-- A pointer to four bytes of the program page is taken, and any other refused and left alone. -/
def VidmapExact (mapped : ℕ → Bool) (screenStart : ℕ) : Prop :=
  vidmap (⟨mapped, []⟩ : UserMemory) screenStart =
    if RangeInside (screenStart, 4) then .ok (0, ⟨mapped, consecutive screenStart vmemBytes⟩)
      else .ok (-1, ⟨mapped, []⟩)

/-- **`vidmap` checks its pointer**, the four addresses at the end of the page apart. -/
theorem vidmap_exact (mapped : ℕ → Bool) (hmap : ∀ a, InPage a → mapped a = true) (screenStart : ℕ)
    (hs : screenStart < 2 ^ 32) :
    (∀ m : ℕ → UInt8, wordAt (overlay m screenStart vmemBytes) screenStart = vmemAddr) ∧
      (VidmapExact mapped screenStart ↔ ¬ (vmemAddr - 3 ≤ screenStart ∧ screenStart ≤ vmemAddr)) := by
  refine ⟨fun m => ?_, ?_⟩
  · have hbyte (i : ℕ) (hi : i < vmemBytes.length) :
      overlay m screenStart vmemBytes (screenStart + i) = vmemBytes[i] := overlay_at _ _ _ _ hi
    have hfirst := hbyte 0 (by decide)
    rw [Nat.add_zero] at hfirst
    unfold wordAt
    rw [hfirst, hbyte 1 (by decide), hbyte 2 (by decide), hbyte 3 (by decide)]
    decide
  unfold VidmapExact vidmap
  have hrefuses := (vidmap_refuses_iff hs).trans int32_outside_iff
  by_cases hout : screenStart < programAddr ∨ vmemAddr < screenStart
  · have hin : ¬ RangeInside (screenStart, 4) := by
      rw [pointer_inside_iff]
      omega
    rw [if_pos (hrefuses.mpr hout), if_neg hin]
    simp only [programAddr, vmemAddr] at hout ⊢
    exact iff_of_true trivial (by omega)
  rw [if_neg fun h => hout (hrefuses.mp h)]
  by_cases hin : RangeInside (screenStart, 4)
  · rw [if_pos hin, @putBytes_page ⟨mapped, []⟩ screenStart vmemBytes hmap hin]
    rw [pointer_inside_iff] at hin
    simp only [vmemAddr] at hin ⊢
    exact iff_of_true rfl (by omega)
  · -- the answer is 0 or a fault, never a refusal
    rw [if_neg hin]
    rw [pointer_inside_iff] at hin
    simp only [programAddr, vmemAddr] at hin hout ⊢
    refine iff_of_false (fun h => ?_) (by omega)
    cases hput : putBytes (⟨mapped, []⟩ : UserMemory) screenStart vmemBytes with
    | error m => simp [hput] at h
    | ok m => simp [hput] at h

theorem vidmap_exact_last : VidmapExact (fun a => decide (InPage a)) (vmemAddr - 4) :=
  (vidmap_exact (fun a => decide (InPage a)) (fun _ ha => decide_eq_true ha) (vmemAddr - 4) (by decide)).2.mpr
    (by decide)

/-- The end of the page, where the screen itself is mapped. -/
theorem vidmap_writes_screen : ¬ VidmapExact (fun _ => true) vmemAddr := by
  intro h
  have hstores : vidmap (⟨fun _ => true, []⟩ : UserMemory) vmemAddr = .ok
    (0, ⟨fun _ => true, consecutive vmemAddr vmemBytes⟩) := rfl
  unfold VidmapExact at h
  rw [hstores, if_neg (by decide)] at h
  simp at h

end Kernel391
