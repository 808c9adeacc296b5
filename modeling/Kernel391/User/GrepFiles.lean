import Kernel391.User.GrepBuffer

/-! `do_one_file` and the loop over the directory. Between two reads the buffer holds the start of a
line, and what was printed, that start and the rest of the file make up the file's matches. -/
namespace Kernel391
open Kernel391.Foundations
set_option autoImplicit false

namespace Grep

def Source (img : Image) (k : Kernel) (d : ℕ) (text : List UInt8) : Prop :=
  (∃ i pos, i < img.inodeCount ∧ pos ≤ img.fileLength i ∧ k.Holds d (fileAt i pos) ∧
    text = (img.fileBytes i).drop pos) ∨
    k.Holds d rtcAt ∧ text = []

def namedBytes (img : Image) (name : List UInt8) : List UInt8 :=
  if rtcName <+: name then [] else (img.firstNamed name).elim [] fun e => img.fileBytes (img.entryInode e)

/-- A text has no NULs, and its lines fit into the buffer. -/
def Text (bytes : List UInt8) : Prop := 0 ∉ bytes ∧ ShortLines bytes

/-- The byte behind a full buffer is no newline that was there before. -/
def SparesNewline (h : Host) (data : ℕ) : Prop := ∀ n, h.locals n (data + 1024) ≠ 0x0A

section Files
variable {h : Host} {p d : ℕ} {lit : List UInt8 → ℕ} {data fuel last sA fA : ℕ} {s t t' : UserState}
  {pat fname text : List UInt8}

theorem source_of_belongings {img : Image} {k k' : Kernel} (hb : k'.getPcbNow.belongings = k.getPcbNow.belongings)
    (hsrc : Source img k d text) : Source img k' d text := by
  rcases hsrc with ⟨i, pos, hi, hpos, hh, htext⟩ | ⟨hh, htext⟩
  · exact Or.inl ⟨i, pos, hi, hpos, holds_of_belongings hb hh, htext⟩
  · exact Or.inr ⟨holds_of_belongings hb hh, htext⟩

theorem ends_read_source (wf : h.img.WellFormed) (hfs : h.fs = Image.WellFormed.pointers h.img) (hsp : h.Spares p)
    (hticks : h.Ticks)
    (hd : 2 ≤ d) (hlt : d < maxFiles) (hs : t.Running p) (hsrc : Source h.img t.kernel d text) (buf n : ℕ) :
    Ends (ece391Read h d buf n) t fun r t' => r = ((text.take n).length : ℕ) ∧ Touches p d t t' ∧
      t'.memory = overlay t.memory buf (text.take n) ∧ Source h.img t'.kernel d (text.drop n) := by
  rcases hsrc with ⟨i, pos, hi, hpos, hh, rfl⟩ | ⟨hh, rfl⟩
  · have hlen := h.img.fileBytes_length i
    have htake : ((h.img.fileBytes i).drop pos).take n = h.img.fileSlice i pos (min n (h.img.fileLength i - pos)) := by
      rw [h.img.fileSlice_eq i _ _ (by omega), List.take_eq_take_iff, List.length_drop]
      omega
    refine (ends_read_file wf hfs hs hsp hd hlt hi hpos hh buf n).mono ?_
    rintro r t' ⟨hr, ht, hm, hh'⟩
    rw [htake, h.img.fileSlice_length]
    refine ⟨hr, ht, hm, Or.inl ⟨i, _, hi, by omega, hh', ?_⟩⟩
    rw [List.drop_drop]
    by_cases hn : n ≤ h.img.fileLength i - pos
    · rw [Nat.min_eq_left hn]
    · rw [List.drop_eq_nil_of_le (by omega), List.drop_eq_nil_of_le (by omega)]
  · refine (ends_read_rtc hs hsp hticks hd hlt hh buf n).mono ?_
    rintro r t' ⟨hr, ht, hm, hh'⟩
    rw [List.take_nil, List.drop_nil, overlay_nil]
    exact ⟨hr, ht, hm, Or.inr ⟨hh', rfl⟩⟩

/-- Before a read: the matches of the whole are those printed and those of the line begun and of what is left. -/
structure Between (h : Host) (p d data : ℕ) (pat fname whole : List UInt8) (t : UserState) (last : ℕ) (t' : UserState)
    (out text : List UInt8) : Prop where
  leaves : Leaves p d t t'
  outside : SameOutside [(data, 1025)] t.memory t'.memory
  spare : t'.memory (data + 1024) ≠ 0x0A
  lt : last < 1024
  source : Source h.img t'.kernel d text
  printed : t'.printed = t.printed ++ out
  lines : Text whole → Text (chunk t'.memory data last ++ text) ∧
    matchLines pat fname whole = out ++ matchLines pat fname (chunk t'.memory data last ++ text)

theorem Between.read {t₁ t₂ : UserState} {whole out : List UInt8}
    (hb : Between h p d data pat fname whole t last t₁ out text)
    (hm : t₂.memory = overlay t₁.memory (data + last) (text.take (1024 - last))) :
    SameOutside [(data, 1025)] t.memory t₂.memory ∧ t₂.memory (data + 1024) ≠ 0x0A ∧
      chunk t₂.memory data (last + (text.take (1024 - last)).length) = chunk t₁.memory data last ++ text.take
        (1024 - last) := by
  have hlt := hb.lt
  have hlen : (text.take (1024 - last)).length ≤ 1024 - last := List.length_take_le _ _
  rw [hm]
  refine ⟨hb.outside.trans (sameOutside_overlay (List.mem_singleton_self _) (Nat.le_add_right _ _) ?_), ?_, ?_⟩
  · show data + last + _ ≤ data + 1025
    omega
  · rw [overlay_of_ge _ _ (by omega)]
    exact hb.spare
  · rw [chunk_add, chunk_overlay_self]
    congr 1
    exact chunk_congr fun j hj => overlay_of_lt _ _ (by omega)

/-- **The loop of `do_one_file`** reads to the end and prints the matches of a text. -/
theorem ends_reads (wf : h.img.WellFormed) (hfs : h.fs = Image.WellFormed.pointers h.img) (hsp : h.Spares p)
    (hticks : h.Ticks)
    (hd : 2 ≤ d) (hlt : d < maxFiles) (hin : ∀ i ≤ 1024, InPage (data + i)) (hs : t.Running p)
    (hsrc : Source h.img t.kernel d text)
    (hstr : ∀ m', SameOutside [(data, 1025)] t.memory m' → Search lit sA fA fuel pat fname m')
    (hspare : t.memory (data + 1024) ≠ 0x0A) (hfuel : text.length < fuel) :
    Ends (loop .unfinished (fun last => do
      let cnt ← ece391Read h d (data + last) (1024 - last)
      if cnt = -1 then do
        ece391Fdputs h fuel 1 (lit readFailed)
        pure (.inr true)
      else do
        let last ← searchBuffer h lit data fuel sA pat.length fA cnt (last + uint32 cnt)
        if cnt = 0 then pure (.inr false) else pure (.inl last)) fuel 0) t fun failed t' =>
      failed = false ∧ Leaves p d t t' ∧ SameOutside [(data, 1025)] t.memory t'.memory ∧ Source h.img t'.kernel d [] ∧
      ∃ out, t'.printed = t.printed ++ out ∧ (Text text → out = matchLines pat fname text) := by
  have hpat := (hstr t.memory (SameOutside.refl _)).nonempty
  refine ends_loop (I := fun n last t₁ => ∃ out left, n = left.length ∧
    Between h p d data pat fname text t last t₁ out left) ?_
    ⟨[], text, rfl, Leaves.of_belongings hs rfl, SameOutside.refl _, hspare, by decide, hsrc,
      (List.append_nil _).symm, fun hx => ⟨hx, rfl⟩⟩
    hfuel
  rintro n last t₁ ⟨out, left, rfl, hb⟩
  have hroom := hb.lt
  refine (ends_read_source wf hfs hsp hticks hd hlt hb.leaves.running hb.source (data + last) (1024 - last)).bind ?_
  rintro cnt t₂ ⟨hcnt, ht, hm, hsrc₂⟩
  obtain ⟨hout₂, hspare₂, hbuffer⟩ := hb.read hm
  have hle : (left.take (1024 - last)).length ≤ 1024 - last := List.length_take_le _ _
  have hlen : (left.take (1024 - last)).length = min (1024 - last) left.length := List.length_take
  rw [if_neg (by omega), hcnt, uint32_of_lt (by omega)]
  refine Ends.bind
    (ends_searchBuffer ht.running hsp hin (by omega) (fun m' hm' => hstr m' (hout₂.trans hm')) hspare₂) ?_
  rintro last' t₃ ⟨out', hsearched⟩
  have hleaves : Leaves p d t t₃ :=
    (hb.leaves.trans ht.toLeaves).trans (Leaves.of_belongings hsearched.running hsearched.belongings)
  have hprinted : t₃.printed = t.printed ++ (out ++ out') := by
    rw [hsearched.printed, ht.printed, hb.printed, List.append_assoc]
  have hsrc₃ := source_of_belongings hsearched.belongings hsrc₂
  have hlines : Text text → Text (chunk t₃.memory data last' ++ left.drop (1024 - last)) ∧
      matchLines pat fname text = (out ++ out') ++ matchLines pat fname
        (chunk t₃.memory data last' ++ left.drop (1024 - last)) := by
    intro htext
    obtain ⟨⟨hnul, hshort⟩, hmatch⟩ := hb.lines htext
    have hsplit : chunk t₁.memory data last ++ left = chunk t₂.memory data (last + (left.take (1024 - last)).length) ++
        left.drop (1024 - last) := by
      rw [hbuffer, List.append_assoc, List.take_append_drop]
    rw [hsplit] at hnul hshort hmatch
    obtain ⟨hclean, hafter⟩ := hsearched.carried fun hx => hnul (List.mem_append_left _ hx)
    have hnothing : ((left.take (1024 - last)).length : ℕ) = (0 : ℤ) → left.drop (1024 - last) = [] := fun hzero =>
      List.drop_eq_nil_of_le (by omega)
    have hfull : left.drop (1024 - last) ≠ [] →
        (chunk t₂.memory data (last + (left.take (1024 - last)).length)).length = 1024 := by
      intro hne
      have hlong : 1024 - last < left.length := by
        by_contra hx
        exact hne (List.drop_eq_nil_of_le (by omega))
      rw [chunk_length]
      omega
    obtain ⟨hcarried, hshort'⟩ := hafter (left.drop (1024 - last)) hnothing hfull hshort
    refine ⟨⟨fun hx => ?_, hshort'⟩, by rw [hmatch, hcarried, List.append_assoc]⟩
    exact (List.mem_append.mp hx).elim hclean fun hx => hnul (List.mem_append_right _ hx)
  by_cases hend : (((left.take (1024 - last)).length : ℕ) : ℤ) = 0
  · rw [if_pos hend, ends_pure]
    have hnil : left.drop (1024 - last) = [] := List.drop_eq_nil_of_le (by omega)
    obtain rfl := hsearched.ended hend
    rw [hnil] at hsrc₃ hlines
    refine ⟨rfl, hleaves, hout₂.trans hsearched.outside, hsrc₃, _, hprinted, fun htext => ?_⟩
    have hempty : matchLines pat fname [] = [] := (matchLines_single List.not_mem_nil).trans (matchLine_nil hpat)
    have hdone := (hlines htext).2
    rw [show chunk t₃.memory data 0 ++ [] = [] from rfl, hempty, List.append_nil] at hdone
    exact hdone.symm
  · rw [if_neg hend, ends_pure]
    refine ⟨(left.drop (1024 - last)).length, ?_, _, _, rfl, hleaves, hout₂.trans hsearched.outside,
      hsearched.spare, hsearched.lt,
      hsrc₃, hprinted, hlines⟩
    rw [List.length_drop]
    omega

theorem ends_close_source {s : UserState} (hs : s.Running p) (hsp : h.Spares p) (hd : 2 ≤ d) (hlt : d < maxFiles)
    (hsrc : Source h.img s.kernel d text) : Ends (ece391Close h d) s fun r s' =>
      r = 0 ∧ Touches p d s s' ∧ s'.memory = s.memory ∧ s'.kernel.Free d := by
  rcases hsrc with ⟨i, pos, -, -, hh, -⟩ | ⟨hh, -⟩
  · exact @ends_close h p d s hs hsp hd hlt _ .file hh rfl
  · exact @ends_close h p d s hs hsp hd hlt _ .rtc hh rfl

theorem ends_open_source (wf : h.img.WellFormedDirectory) (hs : t.Running p) (hsp : h.Spares p)
    (hfree : t.kernel.FdFree)
    (hname : StringIn t.memory fA fname) (hdot : ¬ dotName <+: fname) (hthere : (h.img.firstNamed fname).isSome) :
    Ends (ece391Open h fA) t fun r t' => ∃ d f, r = (d : ℕ) ∧ Opens p d f t t' ∧
      Source h.img t'.kernel d (namedBytes h.img fname) := by
  obtain ⟨e, he⟩ := Option.isSome_iff_exists.mp hthere
  have hat := hname.stringAt_eq
  unfold namedBytes
  by_cases hclock : rtcName <+: fname
  · refine (ends_open_rtc hs hsp hfree (hat ▸ hclock)).mono ?_
    rintro r t' ⟨d, hr, hopens⟩
    rw [if_pos hclock]
    exact ⟨d, _, hr, hopens, Or.inr ⟨hopens.holds, rfl⟩⟩
  · refine (ends_open_file wf hs hsp hfree (hat ▸ hclock) (hat ▸ hdot) (hat ▸ he)).mono ?_
    rintro r t' ⟨d, hr, hopens⟩
    rw [if_neg hclock, he]
    refine ⟨d, _, hr, hopens,
      Or.inl ⟨_, 0, wf.inode_lt e (h.img.firstNamed_some he).1, Nat.zero_le _, hopens.holds, ?_⟩⟩
    rw [List.drop_zero]
    rfl

/-- What `do_one_file` leaves of the process: its descriptors, and its memory outside the buffer. -/
structure Done (p data : ℕ) (t t' : UserState) : Prop where
  running : t'.Running p
  outside : SameOutside [(data, 1025)] t.memory t'.memory
  held : ∀ d f, t.kernel.Holds d f → t'.kernel.Holds d f
  free : ∀ d, t.kernel.Free d → t'.kernel.Free d

/-- **`do_one_file`** on a name of the directory. -/
theorem ends_doOneFile (wf : h.img.WellFormedDirectory) (hfs : h.fs = Image.WellFormed.pointers h.img)
    (hsp : h.Spares p)
    (hticks : h.Ticks) (hin : ∀ i ≤ 1024, InPage (data + i)) (hs : t.Running p) (hfree : t.kernel.FdFree)
    (hspare : SparesNewline h data)
    (hstr : ∀ m', SameOutside [(data, 1025)] t.memory m' → Search lit sA fA fuel pat fname m')
    (hdot : ¬ dotName <+: fname) (hthere : (h.img.firstNamed fname).isSome)
    (hfuel : (namedBytes h.img fname).length < fuel) :
    Ends (doOneFile h lit data fuel sA fA) t fun r t' => r = 0 ∧ Done p data t t' ∧
      ∃ out, t'.printed = t.printed ++ out ∧
        (Text (namedBytes h.img fname) → out = matchLines pat fname (namedBytes h.img fname)) := by
  have hlocal : SameOutside [(data, 1025)] t.memory fun x => if data ≤ x ∧ x < data + 1025 then h.locals t.calls x
    else t.memory x := by
    intro x hx
    have hx' := hx _ (List.mem_singleton_self _)
    exact if_neg (by omega)
  unfold doOneFile localArray
  rw [ends_bind, ends_modify]
  generalize ht₀ : ({ t with memory := fun x => if data ≤ x ∧
    x < data + 1025 then h.locals t.calls x else t.memory x } : UserState) = t₀
  have hrun₀ : t₀.Running p := ht₀ ▸ ⟨hs.serves, hs.stdin, hs.stdout⟩
  have hout₀ : SameOutside [(data, 1025)] t.memory t₀.memory := ht₀ ▸ hlocal
  have hspare₀ : t₀.memory (data + 1024) ≠ 0x0A := by
    rw [← ht₀]
    show (if _ then _ else _) ≠ _
    rw [if_pos (by omega)]
    exact hspare _
  have hkernel : t₀.kernel = t.kernel := ht₀ ▸ rfl
  have hprinted₀ : t₀.printed = t.printed := ht₀ ▸ rfl
  rw [← hkernel] at hfree
  have hstr₀ := hstr _ hout₀
  refine (ends_strlen hstr₀.patAt hstr₀.patRounds).bind ?_
  rintro _ _ ⟨rfl, rfl⟩
  refine (ends_open_source wf hrun₀ hsp hfree hstr₀.fnameAt hdot hthere).bind ?_
  rintro _ t₁ ⟨d, f, rfl, hopens, hsrc⟩
  have htwo := hopens.two_le hrun₀
  have hlt := hopens.lt
  have hud : uint32 (d : ℤ) = d := uint32_of_lt (by simp only [maxFiles] at hlt; omega)
  rw [if_neg (by omega), hud]
  refine (ends_reads wf.toWellFormed hfs hsp hticks htwo hlt hin hopens.running hsrc
    (fun m' hm' => hstr m' (hout₀.trans (hopens.memory ▸ hm'))) (hopens.memory ▸ hspare₀) hfuel).bind ?_
  rintro _ t₂ ⟨rfl, hleaves, hout₂, hsrc₂, out, hprinted₂, hmatch⟩
  rw [if_neg (by decide)]
  refine (ends_close_source hleaves.running hsp htwo hlt hsrc₂).bind ?_
  rintro _ t₃ ⟨rfl, htouch, hm₃, hfree₃⟩
  rw [if_neg (by decide), ends_pure]
  have hall := (hopens.toLeaves.trans hleaves).trans htouch.toLeaves
  refine ⟨rfl, ⟨htouch.running, ?_, fun d' f' hh => ?_, fun d' hf => ?_⟩, out, ?_, hmatch⟩
  · rw [hm₃]
    exact hout₀.trans (hopens.memory ▸ hout₂)
  · -- the descriptor that was opened was nobody's
    rw [← hkernel] at hh
    refine hall.others d' f' ?_ hh
    rintro rfl
    exact hopens.fresh hh.used
  · rw [← hkernel] at hf
    by_cases hd : d' = d
    · exact hd ▸ hfree₃
    · exact hall.free d' hd hf
  · rw [htouch.printed, hprinted₂, hopens.printed, hprinted₀]

end Files

end Grep

end Kernel391
