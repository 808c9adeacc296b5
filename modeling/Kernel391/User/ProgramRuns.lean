import Kernel391.User.Support

/-! What the programs have in common: how they start, the arguments they fetch, and the loop
that reads the directory until a read returns nothing. -/
namespace Kernel391
open Kernel391.Foundations
set_option autoImplicit false

/-- Where a program starts: its process runs, a descriptor is free, its literals and buffers are in place. -/
structure Starts (h : Host) (p : ℕ) (lit : List UInt8 → ℕ) (texts : List (List UInt8))
    (bufs : List (ℕ × ℕ)) (s : UserState) :
    Prop where
  wf : h.img.WellFormedDirectory
  special : SpecialEntries h.img
  fs : h.fs = Image.WellFormed.pointers h.img
  spares : h.Spares p
  running : s.Running p
  layout : Layout lit texts bufs s.memory

section Numbers
variable {n : ℕ}

theorem uint32_of_lt (h : n < 2 ^ 32) : uint32 (n : ℤ) = n := by
  unfold uint32
  omega

theorem arguments_length (b : Pcb) : b.arguments.length ≤ 160 := window_length_le

theorem arguments_noNul (b : Pcb) : (0 : UInt8) ∉ b.arguments := window_noNul

end Numbers

/-! ## The directory -/

/-- The entries a reader of the directory gets before the first read that returns nothing. -/
def Image.listed (img : Image) : List ℕ := (List.range img.dirCount).takeWhile fun e => img.reportedLength e ≠ 0

section Listed
variable {img : Image} {e : ℕ}

theorem listed_initial (img : Image) : img.listed <+: List.range img.dirCount := List.takeWhile_prefix _

theorem listed_length_le (img : Image) : img.listed.length ≤ img.dirCount := by
  have h := (listed_initial img).length_le
  rwa [List.length_range] at h

theorem listed_take (he : e < img.listed.length) : img.listed.take (e + 1) = img.listed.take e ++ [e] ∧
    img.reportedLength e ≠ 0 := by
  have hget : img.listed[e] = e := by rw [(listed_initial img).getElem he, List.getElem_range]
  refine ⟨by rw [← List.take_append_getElem he, hget], ?_⟩
  have hmem := List.mem_takeWhile_imp (List.getElem_mem he)
  rw [hget] at hmem
  exact of_decide_eq_true hmem

theorem listed_end (he : img.listed.length < img.dirCount) : img.reportedLength img.listed.length = 0 := by
  by_contra hne
  have hsplit := List.takeWhile_append_dropWhile (p := fun e => decide (img.reportedLength e ≠ 0))
    (l := List.range img.dirCount)
  cases hd : (List.range img.dirCount).dropWhile fun e => decide (img.reportedLength e ≠ 0) with
  | nil =>
    have hlen := congrArg List.length hsplit
    rw [hd, List.append_nil, List.length_range] at hlen
    unfold Image.listed at he
    omega
  | cons x xs =>
    have hx := List.head_dropWhile_not (fun e => decide (img.reportedLength e ≠ 0)) (l := List.range img.dirCount)
      (by rw [hd]; simp)
    have hat : (List.range img.dirCount)[img.listed.length]? = some x := by
      rw [← hsplit, hd]
      unfold Image.listed
      rw [List.getElem?_append_right (Nat.le_refl _), Nat.sub_self]
      rfl
    rw [List.getElem?_range he, Option.some.injEq] at hat
    simp only [hd, List.head_cons] at hx
    rw [← hat] at hx
    exact absurd (of_decide_eq_false hx) (not_not_intro hne)

end Listed

theorem chunk_overlay_self (m : ℕ → UInt8) (a : ℕ) (bs : List UInt8) : chunk (overlay m a bs) a bs.length = bs := by
  unfold chunk
  apply List.ext_getElem
  · simp
  · intro j h₁ h₂
    simp only [List.getElem_map, List.getElem_range]
    exact overlay_at _ _ _ _ h₂

section Directory
variable {h : Host} {p d e n buf : ℕ} {s : UserState}

/-- The name, filled up with zeros to the length it is reported with. -/
def paddedName (img : Image) (e : ℕ) : List UInt8 :=
  img.entryName e ++ List.replicate (img.reportedLength e - (img.entryName e).length) 0

theorem paddedName_length (img : Image) (e : ℕ) : (paddedName img e).length = img.reportedLength e := by
  have := img.entryName_le_reported e
  unfold paddedName
  rw [List.length_append, List.length_replicate]
  omega

theorem paddedName_filter (img : Image) (e : ℕ) : (paddedName img e).filter (· ≠ 0) = img.entryName e := by
  have hname : (img.entryName e).filter (· ≠ 0) = img.entryName e := by
    rw [List.filter_eq_self]
    intro c hc
    exact decide_eq_true fun hx => img.entryName_noNul e (hx ▸ hc)
  have hzeros : (List.replicate (img.reportedLength e - (img.entryName e).length) (0 : UInt8)).filter (· ≠ 0) = [] := by
    rw [List.filter_eq_nil_iff]
    intro c hc
    rw [List.eq_of_mem_replicate hc]
    decide
  unfold paddedName
  rw [List.filter_append, hname, hzeros, List.append_nil]

theorem ends_read_listed (hs : s.Running p) (hsp : h.Spares p) (hd : 2 ≤ d) (hlt : d < maxFiles)
    (he : e < h.img.listed.length)
    (hf : s.kernel.Holds d (dirAt e)) (hn : filenameLen ≤ n) (hn' : n < 2 ^ 31) :
    Ends (ece391Read h d buf n) s fun r s' =>
      r = (h.img.reportedLength e : ℕ) ∧ Touches p d s s' ∧ s'.memory = overlay s.memory buf (paddedName h.img e) ∧
      s'.kernel.Holds d (dirAt (e + 1)) := by
  have hle := listed_length_le h.img
  have hrep := h.img.reportedLength_le e
  have hname := h.img.entryName_le_reported e
  refine (ends_read_directory hs hsp hd hlt (by omega) hf buf hn').mono ?_
  rintro r s' ⟨hr, ht, hm, hh⟩
  rw [Nat.min_eq_right (by omega)] at hr hm
  rw [List.take_of_length_le (by omega)] at hm
  exact ⟨hr, ht, hm, hh⟩

theorem ends_read_unlisted (hs : s.Running p) (hsp : h.Spares p) (hd : 2 ≤ d) (hlt : d < maxFiles)
    (hf : s.kernel.Holds d (dirAt h.img.listed.length)) (hn' : n < 2 ^ 31) :
    Ends (ece391Read h d buf n) s fun r s' => r = 0 ∧ Touches p d s s' ∧ s'.memory = s.memory := by
  have hle := listed_length_le h.img
  have hword : h.img.dirCount < 2 ^ 32 := wordAt_lt _ _
  rcases Nat.lt_or_ge h.img.listed.length h.img.dirCount with hin | hout
  · have hzero := listed_end hin
    have hname := h.img.entryName_le_reported h.img.listed.length
    refine (ends_read_directory hs hsp hd hlt hin hf buf hn').mono ?_
    rintro r s' ⟨hr, ht, hm, -⟩
    rw [hzero, Nat.min_zero] at hr hm
    rw [List.eq_nil_of_length_eq_zero (by omega : (h.img.entryName h.img.listed.length).length = 0),
      List.take_nil, Nat.zero_sub,
      List.replicate_zero, List.append_nil, overlay_nil] at hm
    exact ⟨hr, ht, hm⟩
  · refine (ends_read_directory_end hs hsp hd hlt hout (by omega) hf buf n).mono ?_
    rintro r s' ⟨hr, ht, hm, -⟩
    exact ⟨hr, ht, hm⟩

end Directory

/-! ## The arguments -/

theorem ends_arguments {h : Host} {p buf n : ℕ} {s : UserState} (hs : s.Running p) (hsp : h.Spares p)
    (hin : ∀ j < n, InPage (buf + j)) (hn : 160 < n) : Ends (ece391Getargs h buf n) s fun r s' =>
      s'.Running p ∧ s'.printed = s.printed ∧ s'.belongings = s.belongings ∧
      (r = if s.kernel.getPcbNow.arguments = [] then -1 else 0) ∧ SameOutside [(buf, n)] s.memory s'.memory ∧
      (s.kernel.getPcbNow.arguments ≠ [] → StringIn s'.memory buf s.kernel.getPcbNow.arguments) := by
  have hlen := arguments_length s.kernel.getPcbNow
  have hb : buf ≠ 0 := by
    have := (hin 0 (by omega)).1
    simp only [programAddr] at this
    omega
  refine (ends_getargs hs hsp hb _ rfl).mono ?_
  rintro r s' ⟨hr, hm, hrun, hp, hbel⟩
  refine ⟨hrun, hp, hbel, ?_⟩
  by_cases hnil : s.kernel.getPcbNow.arguments = []
  · rw [if_neg fun hx => hx.1 hnil] at hr hm
    rw [if_pos hnil, hm]
    exact ⟨hr, SameOutside.refl _, fun hx => absurd hnil hx⟩
  · rw [if_pos ⟨hnil, by omega⟩] at hr hm
    rw [if_neg hnil, hm]
    refine ⟨hr, sameOutside_overlay (List.mem_singleton_self _) (Nat.le_refl _) ?_, fun _ => ?_⟩
    · rw [List.length_append, List.length_singleton]
      omega
    · exact stringIn_overlay (arguments_noNul _) fun i hi => hin i (by omega)

/-! ## A program alone -/

def Host.alone (img : Image) : Host where
  img := img
  fs := Image.WellFormed.pointers img
  elsewhere _ k := k
  waited _ k := ⟨k.keyboard, { k.rtc with interrupt := fun _ => 1 }⟩
  stack _ _ := 0
  locals _ _ := 0

/-- The first process with its page, its arguments, and the literals at the start of the program. -/
def UserState.start (args : List UInt8) (texts : List (List UInt8)) : UserState where
  kernel := (Kernel.oneProcess.setPagerDirEntry (programFrame 0)).setPcb (getPcbPtr 0) fun b =>
    { b with args := cstr args }
  memory := overlay (fun _ => 0) programStart (texts.flatMap (· ++ [0]))
  printed := []
  calls := 0

def literalAt (texts : List (List UInt8)) (l : List UInt8) : ℕ :=
  programStart + ((texts.takeWhile (· ≠ l)).flatMap (· ++ [0])).length

/-- The buffers of the programs lie at the end of their page. -/
def bufferAt : ℕ := 0x083FE000

instance (m : ℕ → UInt8) (a : ℕ) (l : List UInt8) : Decidable (StringIn m a l) :=
  decidable_of_iff ((∀ j (h : j < l.length), m (a + j) = l[j]) ∧ m (a + l.length) = 0 ∧ 0 ∉ l ∧
    ∀ i ≤ l.length, InPage (a + i))
    ⟨fun h => ⟨⟨h.1, h.2.1⟩, h.2.2.1, h.2.2.2⟩, fun h => ⟨h.holds.chars, h.holds.nul, h.noNul, h.inside⟩⟩

theorem alone_ticks (img : Image) : (Host.alone img).Ticks := fun _ _ => rfl

theorem alone_spares (img : Image) (p : ℕ) : (Host.alone img).Spares p := ⟨fun _ _ hk => hk, fun _ _ _ => rfl⟩

theorem start_now (args : List UInt8) (texts : List (List UInt8)) :
    (UserState.start args texts).kernel.getPcbNow =
      { setupPcb 0 0 (Kernel.boot.pcb (getPcbPtr 0)) with args := cstr args } := by
  have hslot : getPcb (Kernel.oneProcess.setPagerDirEntry (programFrame 0)).cpu.esp = getPcbPtr 0 := by decide
  have hmap : ∀ (k : Kernel) (a : ℕ), (k.setPagerDirEntry a).getPcbNow = k.getPcbNow := fun _ _ => rfl
  have hset := (Kernel.oneProcess.setPagerDirEntry (programFrame 0)).getPcbNow_setPcb fun b =>
    { b with args := cstr args }
  rw [hslot, hmap, Kernel.oneProcess_now] at hset
  exact hset

theorem start_running (args : List UInt8) (texts : List (List UInt8)) : (UserState.start args texts).Running 0 where
  serves := ⟨by decide, rfl, by
    have htable : (UserState.start args texts).kernel.pageTbl = setupPagerTable := rfl
    unfold Kernel.frameOf
    rw [htable]
    decide⟩
  stdin := ⟨by rw [start_now]; rfl, by rw [start_now]; rfl⟩
  stdout := ⟨by rw [start_now]; rfl, by rw [start_now]; rfl⟩

theorem start_free (args : List UInt8) (texts : List (List UInt8)) : (UserState.start args texts).kernel.FdFree :=
  ⟨2, by decide, by rw [start_now]; exact Nat.one_ne_zero⟩

theorem start_arguments {args : List UInt8} (texts : List (List UInt8)) (h : 0 ∉ args) (hlen : args.length < 128) :
    (UserState.start args texts).kernel.getPcbNow.arguments = args := by
  have hbytes : ∀ j < 128, (UserState.start args texts).kernel.getPcbNow.argsBytes j = cstr args j := by
    intro j hj
    rw [start_now]
    exact if_pos hj
  have hstop : (UserState.start args texts).kernel.getPcbNow.argsBytes (0 + args.length) = 0 := by
    rw [Nat.zero_add, hbytes _ hlen, cstr_ge _ (Nat.le_refl _)]
  unfold Pcb.arguments
  rw [show 160 = args.length + (160 - args.length) by omega, window_stop hstop]
  refine (window_congr fun j hj => ?_).trans ((window_cstr h args.length).trans List.take_length)
  rw [Nat.zero_add]
  exact hbytes j (by omega)

theorem start_starts {img : Image} (wf : img.WellFormedDirectory) (special : SpecialEntries img)
    {texts : List (List UInt8)}
    {bufs : List (ℕ × ℕ)} (args : List UInt8)
    (hstr : ∀ l ∈ texts, StringIn (UserState.start args texts).memory (literalAt texts l) l)
    (hlow : ∀ l ∈ texts, literalAt texts l + l.length < bufferAt)
    (hbufs : ∀ b ∈ bufs, bufferAt ≤ b.1 ∧ b.1 + b.2 ≤ vmemAddr) :
    Starts (Host.alone img) 0 (literalAt texts) texts bufs (UserState.start args texts) where
  wf := wf
  special := special
  fs := rfl
  spares := alone_spares img 0
  running := start_running args texts
  layout :=
    { strings := hstr
      apart := fun l hl b hb => Or.inl (Nat.lt_of_lt_of_le (hlow l hl) (hbufs b hb).1)
      bufs := fun b hb i hi => by
        have hin := hbufs b hb
        unfold InPage
        simp only [bufferAt, programAddr, vmemAddr] at hin ⊢
        omega }

end Kernel391
