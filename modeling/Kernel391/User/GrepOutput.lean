import Kernel391.User.GrepFiles

/-! The directory loop of `ece391grep.c`. Every name that does not begin with a dot is searched, in the order
of the directory, and each search leaves the descriptors and the strings of the program as they were. -/
namespace Kernel391
open Kernel391.Foundations
set_option autoImplicit false

namespace Grep

def Adds (img : Image) (pat : List UInt8) (e : ℕ) (out : List UInt8) : Prop :=
  if dotName <+: img.entryName e then out = []
  else Text (namedBytes img (img.entryName e)) →
    out = matchLines pat (img.entryName e) (namedBytes img (img.entryName e))

/-- One descriptor for the directory and one for the files. -/
def TwoFree (k : Kernel) : Prop := ∃ d d', d ≠ d' ∧ d < maxFiles ∧ d' < maxFiles ∧ k.Free d ∧ k.Free d'

/-- The arrays of `do_one_file` and `main`. -/
def arrays (data buf search : ℕ) : List (ℕ × ℕ) := [(data, 1025), (buf, 33), (search, 1024)]

section Adds
variable {img : Image} {pat out : List UInt8} {e : ℕ}

theorem adds_dot (h : dotName <+: img.entryName e) : Adds img pat e out ↔ out = [] := by
  unfold Adds
  rw [if_pos h]

theorem adds_named (h : ¬ dotName <+: img.entryName e) : Adds img pat e out ↔
    (Text (namedBytes img (img.entryName e)) →
      out = matchLines pat (img.entryName e) (namedBytes img (img.entryName e))) := by
  unfold Adds
  rw [if_neg h]

end Adds

section Names
variable {m : ℕ → UInt8} {a e : ℕ} {img : Image}

theorem stringIn_padded (hin : ∀ i ≤ img.reportedLength e, InPage (a + i)) :
    StringIn (Function.update (overlay m a (paddedName img e)) (a + img.reportedLength e) 0) a (img.entryName e) := by
  have hle := img.entryName_le_reported e
  have hzeros : paddedName img e ++ [0] =
      (img.entryName e ++ [0]) ++ List.replicate (img.reportedLength e - (img.entryName e).length) 0 := by
    unfold paddedName
    rw [List.append_assoc, List.append_assoc, ← List.replicate_succ', List.replicate_succ, List.singleton_append]
  rw [← paddedName_length, ← overlay_single, ← overlay_append, hzeros, overlay_append]
  refine (@stringIn_overlay m a _ (img.entryName_noNul e) fun i hi => hin i (hi.trans hle)).congr fun i hi => ?_
  rw [overlay_of_lt _ _ (by rw [List.length_append, List.length_singleton]; omega)]

theorem overlay_first (m : ℕ → UInt8) (a : ℕ) (c : UInt8) (cs : List UInt8) : overlay m a (c :: cs) a = c :=
  overlay_at m a 0 (c :: cs) (Nat.zero_lt_succ _)

theorem padded_dot (hrep : img.reportedLength e ≠ 0) : overlay m a (paddedName img e) a = 0x2E ↔
    dotName <+: img.entryName e := by
  have hdot : dotName = [0x2E] := by decide
  rw [hdot]
  cases hname : img.entryName e with
  | nil =>
    have hzeros : paddedName img e = 0 :: List.replicate (img.reportedLength e - 1) 0 := by
      unfold paddedName
      rw [hname, ← List.replicate_succ, Nat.sub_add_cancel (Nat.pos_of_ne_zero hrep)]
      rfl
    rw [hzeros, overlay_first]
    exact iff_of_false (by decide) (by decide)
  | cons c cs =>
    unfold paddedName
    rw [hname, List.cons_append, overlay_first, List.cons_prefix_cons]
    exact ⟨fun hc => ⟨hc.symm, List.nil_prefix⟩, fun hc => hc.1.symm⟩

end Names

section Entries
variable {h : Host} {p d e : ℕ} {lit : List UInt8 → ℕ} {data buf search fuel : ℕ} {s t : UserState} {pat : List UInt8}

def Apart (bufs : List (ℕ × ℕ)) : Prop := bufs.Pairwise fun b c => b.1 + b.2 ≤ c.1 ∨ c.1 + c.2 ≤ b.1

/-- At the head of the loop over the directory. -/
structure Ready (p d : ℕ) (lit : List UInt8 → ℕ) (data buf search : ℕ) (pat : List UInt8) (e : ℕ)
    (t : UserState) : Prop where
  running : t.Running p
  layout : Layout lit texts (arrays data buf search) t.memory
  pattern : StringIn t.memory search pat
  directory : t.kernel.Holds d (dirAt e)
  free : t.kernel.FdFree

theorem Apart.bufferApart (h : Apart (arrays data buf search)) : data + 1025 ≤ buf ∨ buf + 33 ≤ data :=
  (List.pairwise_cons.mp h).1 _ (List.mem_cons_self)

theorem Apart.searchApart (h : Apart (arrays data buf search)) :
    (data + 1025 ≤ search ∨ search + 1024 ≤ data) ∧ (buf + 33 ≤ search ∨ search + 1024 ≤ buf) := by
  obtain ⟨hdata, hbuf⟩ := List.pairwise_cons.mp h
  exact ⟨hdata (search, 1024) (by simp), (List.pairwise_cons.mp hbuf).1 (search, 1024) (by simp)⟩

theorem namedBytes_length (wf : h.img.WellFormedDirectory) (name : List UInt8) :
    (namedBytes h.img name).length ≤ 1023 * bytesPerBlock := by
  unfold namedBytes
  by_cases hclock : rtcName <+: name
  · rw [if_pos hclock]
    exact Nat.zero_le _
  · rw [if_neg hclock]
    cases he : h.img.firstNamed name with
    | none => exact Nat.zero_le _
    | some e =>
      rw [Option.elim_some, h.img.fileBytes_length]
      exact wf.length_le _ (wf.inode_lt e (h.img.firstNamed_some he).1)

theorem Ready.strings (hr : Ready p d lit data buf search pat e t) (hapart : Apart (arrays data buf search))
    (hpat : pat.length < 1024)
    {m : ℕ → UInt8} (hm : SameOutside [(data, 1025), (buf, 33)] t.memory m) :
    Layout lit texts (arrays data buf search) m ∧ StringIn m search pat := by
  have hsearch := hapart.searchApart
  refine ⟨hr.layout.congr (hm.widen ?_), hr.pattern.same hm ?_⟩
  · unfold arrays
    simp
  · simp only [List.mem_cons, List.not_mem_nil, or_false, forall_eq_or_imp, forall_eq]
    exact ⟨by omega, by omega⟩

/-- **A round** of the loop over the directory. -/
theorem ends_round (wf : h.img.WellFormedDirectory) (hfs : h.fs = Image.WellFormed.pointers h.img) (hsp : h.Spares p)
    (hticks : h.Ticks) (hspare : SparesNewline h data) (hd : 2 ≤ d) (hlt : d < maxFiles)
    (hapart : Apart (arrays data buf search))
    (hne : pat ≠ []) (hpat : pat.length < 1024) (hfuel : 1023 * bytesPerBlock < fuel) (he : e < h.img.listed.length)
    (hr : Ready p d lit data buf search pat e t) : Ends (round h lit data fuel buf search d ()) t fun r t' =>
      r = .inl () ∧ Ready p d lit data buf search pat (e + 1) t' ∧
        ∃ out, Adds h.img pat e out ∧ t'.printed = t.printed ++ out := by
  have hud : uint32 (d : ℤ) = d := uint32_of_lt (by simp only [maxFiles] at hlt; omega)
  have hle := listed_length_le h.img
  have hbound := h.img.reportedLength_le e
  have hname := h.img.entryName_le_reported e
  have hrep := (listed_take he).2
  simp only [filenameLen] at hbound
  have hrounds : 1023 * 4096 < fuel := hfuel
  have hbuf : ∀ i < 33, InPage (buf + i) := hr.layout.bufs (buf, 33) (by unfold arrays; simp)
  have hdata : ∀ i ≤ 1024, InPage (data + i) :=
    fun i hi => hr.layout.bufs (data, 1025) (by unfold arrays; simp) i (Nat.lt_succ_of_le hi)
  unfold round
  rw [hud]
  refine (@ends_read_listed h p d e 32 buf t hr.running hsp hd hlt he hr.directory (by decide) (by decide)).bind ?_
  rintro _ t₁ ⟨rfl, ht, hm, hh⟩
  rw [if_neg (by omega), if_neg (by omega), ends_bind, ends_loadByte (show InPage buf from hbuf 0 (by decide)), hm]
  have hfree₁ : t₁.kernel.FdFree := by
    obtain ⟨d', hlt', hfree⟩ := hr.free
    refine ⟨d', hlt', ht.free d' ?_ hfree⟩
    rintro rfl
    exact hfree hr.directory.used
  have hread : SameOutside [(data, 1025), (buf, 33)] t.memory (overlay t.memory buf (paddedName h.img e)) := by
    refine sameOutside_overlay (b := (buf, 33)) (by simp) (Nat.le_refl _) ?_
    rw [paddedName_length]
    show buf + _ ≤ buf + 33
    omega
  by_cases hdot : dotName <+: h.img.entryName e
  · rw [if_pos ((padded_dot hrep).mpr hdot), ends_pure]
    obtain ⟨hlay, hstr⟩ := hr.strings hapart hpat hread
    refine ⟨rfl, ⟨ht.running, hm ▸ hlay, hm ▸ hstr, hh, hfree₁⟩, [], (adds_dot hdot).mpr rfl, ?_⟩
    rw [ht.printed, List.append_nil]
  rw [if_neg (mt (padded_dot hrep).mp hdot), uint32_of_lt (by omega), ends_bind, ends_storeByte (hbuf _ (by omega)), hm]
  have hstored : SameOutside [(data, 1025), (buf, 33)] t.memory
      (Function.update (overlay t.memory buf (paddedName h.img e)) (buf + h.img.reportedLength e) 0) := by
    refine hread.trans ?_
    rw [← overlay_single]
    refine sameOutside_overlay (b := (buf, 33)) (by simp) (Nat.le_add_right _ _) ?_
    show buf + _ + 1 ≤ buf + 33
    omega
  have hfile :
    StringIn (Function.update (overlay t.memory buf (paddedName h.img e)) (buf + h.img.reportedLength e) 0) buf
      (h.img.entryName e) := stringIn_padded fun i hi => hbuf i (by omega)
  have hthere : (h.img.firstNamed (h.img.entryName e)).isSome := h.img.firstNamed_isSome.mpr ⟨e, by omega, rfl⟩
  have hsize : (namedBytes h.img (h.img.entryName e)).length ≤ 1023 * 4096 := namedBytes_length wf _
  have hstr : ∀ m, SameOutside [(data, 1025)]
      (Function.update (overlay t.memory buf (paddedName h.img e)) (buf + h.img.reportedLength e) 0) m →
      Search lit search buf fuel pat (h.img.entryName e) m := by
    intro m hm'
    obtain ⟨hlay, hstr⟩ := hr.strings hapart hpat (hstored.trans (hm'.widen (by simp)))
    refine ⟨hstr, hfile.same hm' ?_, hlay.strings colon (by decide), hlay.strings newline (by decide), hne, by omega,
      by omega, by omega⟩
    have hbuf' := hapart.bufferApart
    simp only [List.mem_singleton, forall_eq]
    omega
  refine Ends.bind
    (ends_doOneFile wf hfs hsp hticks hdata ⟨ht.running.serves, ht.running.stdin, ht.running.stdout⟩ hfree₁ hspare hstr
    hdot hthere (by omega)) ?_
  rintro _ t₃ ⟨rfl, hdone, out, hprinted, hmatch⟩
  rw [if_neg (not_not_intro rfl), ends_pure]
  obtain ⟨hlay, hstr'⟩ := hr.strings hapart hpat (hstored.trans (hdone.outside.widen (by simp)))
  refine ⟨rfl, ⟨hdone.running, hlay, hstr', hdone.held d _ hh, ?_⟩, out, (adds_named hdot).mpr hmatch, ?_⟩
  · obtain ⟨d', hlt', hfree⟩ := hfree₁
    exact ⟨d', hlt', hdone.free d' hfree⟩
  · rw [hprinted]
    exact congrArg (· ++ out) ht.printed

theorem ends_entries (wf : h.img.WellFormedDirectory) (hfs : h.fs = Image.WellFormed.pointers h.img) (hsp : h.Spares p)
    (hticks : h.Ticks) (hspare : SparesNewline h data) (hd : 2 ≤ d) (hlt : d < maxFiles)
    (hapart : Apart (arrays data buf search))
    (hne : pat ≠ []) (hpat : pat.length < 1024) (hfuel : 1023 * bytesPerBlock < fuel)
    (hr : Ready p d lit data buf search pat 0 s) :
    Ends (loop .unfinished (round h lit data fuel buf search d) fuel ()) s fun r s' => r = 0 ∧
      ∃ outs, List.Forall₂ (Adds h.img pat) h.img.listed outs ∧ s'.printed = s.printed ++ outs.flatten := by
  have hle := listed_length_le h.img
  have hdir := wf.dir_le
  have hrounds : 1023 * 4096 < fuel := hfuel
  have hud : uint32 (d : ℤ) = d := uint32_of_lt (by simp only [maxFiles] at hlt; omega)
  refine ends_loop (I := fun n _ t => ∃ e ≤ h.img.listed.length, n = h.img.listed.length - e ∧
    Ready p d lit data buf search pat e t ∧
    ∃ outs, List.Forall₂ (Adds h.img pat) (h.img.listed.take e) outs ∧ t.printed = s.printed ++ outs.flatten) ?_
    ⟨0, Nat.zero_le _, rfl, hr, [], List.Forall₂.nil, (List.append_nil _).symm⟩
      (show h.img.listed.length - 0 < fuel by omega)
  rintro n ⟨⟩ t ⟨e, he, rfl, hready, outs, houts, hprinted⟩
  rcases Nat.lt_or_eq_of_le he with hin | rfl
  · refine (ends_round wf hfs hsp hticks hspare hd hlt hapart hne hpat hfuel hin hready).mono ?_
    rintro _ t' ⟨rfl, hready', out, hadds, hout⟩
    refine ⟨h.img.listed.length - (e + 1), by omega, e + 1, hin, rfl, hready', outs ++ [out], ?_, ?_⟩
    · rw [(listed_take hin).1]
      exact List.rel_append houts (List.Forall₂.cons hadds List.Forall₂.nil)
    · rw [hout, hprinted, List.flatten_append, List.append_assoc]
      simp
  · unfold round
    rw [hud]
    refine (ends_read_unlisted hready.running hsp hd hlt hready.directory (by decide)).bind ?_
    rintro _ t₁ ⟨rfl, ht, -⟩
    rw [if_pos rfl, ends_pure]
    rw [List.take_length] at houts
    exact ⟨rfl, outs, houts, by rw [ht.printed, hprinted]⟩

end Entries

end Grep

/-- **`grep`** ends, and what it prints are the matches of the files in the order of the directory: the names that
begin with a dot are passed over, and of a text it prints the lines that contain the argument, behind its name, if
the argument begins with a character below 128. -/
theorem grep_output (h : Host) (p : ℕ) (lit : List UInt8 → ℕ) (data buf search : ℕ) (s : UserState)
    (st : Starts h p lit Grep.texts (Grep.arrays data buf search) s) (hapart : Grep.Apart (Grep.arrays data buf search))
    (hfree : Grep.TwoFree s.kernel) (hticks : h.Ticks) (hspare : Grep.SparesNewline h data) : ∃ rounds, ∀ fuel ≥ rounds,
    Ends (Grep.main h lit data fuel buf search) s fun status s' =>
      if s.kernel.getPcbNow.arguments = [] then status = 3 ∧ s'.printed = s.printed ++ Grep.noArgument
      else status = 0 ∧ ∃ outs, List.Forall₂ (Grep.Adds h.img s.kernel.getPcbNow.arguments) h.img.listed outs ∧
        s'.printed = s.printed ++ outs.flatten := by
  have hsp := st.spares
  have hsearch : ∀ j < 1024, InPage (search + j) := st.layout.bufs (search, 1024) (by unfold Grep.arrays; simp)
  have harray : [(search, 1024)] ⊆ Grep.arrays data buf search := by
    unfold Grep.arrays
    simp
  refine ⟨1023 * bytesPerBlock + 1, fun fuel hfuel => ?_⟩
  have hrounds : 1023 * 4096 + 1 ≤ fuel := hfuel
  unfold Grep.main
  refine (ends_arguments st.running hsp hsearch (by decide)).bind ?_
  rintro _ s₁ ⟨hrun₁, hp₁, hbel₁, rfl, hsame, hstr⟩
  have hlay := st.layout.congr (hsame.widen harray)
  by_cases hnil : s.kernel.getPcbNow.arguments = []
  · rw [if_pos hnil, if_pos (by decide)]
    have hlit := hlay.strings Grep.noArgument (by decide)
    refine (ends_fdputs hrun₁ hsp hlit (lt_of_lt_of_le (by decide : Grep.noArgument.length < 25) (by omega))).bind ?_
    rintro _ s₂ hprints
    rw [ends_pure, if_pos hnil]
    exact ⟨rfl, by rw [hprints.printed, hp₁]⟩
  rw [if_neg hnil, if_neg (by decide)]
  have hname := (hlay.strings dotName (by decide)).stringAt_eq
  obtain ⟨d₁, d₂, hne, hlt₁, hlt₂, hf₁, hf₂⟩ := hfree
  refine (ends_open_directory st.special hrun₁ hsp ⟨d₁, hlt₁, free_of_belongings hbel₁ hf₁⟩ (by rw [hname]; decide)
    ⟨[], by rw [List.append_nil, hname]⟩).bind ?_
  rintro _ s₂ ⟨d, rfl, hopens⟩
  rw [if_neg (by omega)]
  have hleft : s₂.kernel.FdFree := by
    by_cases hd : d₁ = d
    · exact ⟨d₂, hlt₂, hopens.free d₂ (by omega) (free_of_belongings hbel₁ hf₂)⟩
    · exact ⟨d₁, hlt₁, hopens.free d₁ hd (free_of_belongings hbel₁ hf₁)⟩
  have hlen := arguments_length s.kernel.getPcbNow
  refine Ends.mono (Grep.ends_entries st.wf st.fs hsp hticks hspare (hopens.two_le hrun₁) hopens.lt hapart
    hnil (by omega) (by omega) ⟨hopens.running, hopens.memory ▸ hlay, hopens.memory ▸ hstr hnil,
      hopens.holds, hleft⟩) ?_
  rintro _ s₃ ⟨rfl, outs, houts, hprinted⟩
  rw [if_neg hnil]
  exact ⟨rfl, outs, houts, by rw [hprinted, hopens.printed, hp₁]⟩

/-- The small image with three lines in the place of its shell. -/
def Image.lined : Image :=
  { Image.small with byte := overlay Image.small.byte 16384 (ascii "to be or\nnot to be\nthat is.\n".toList) }

/-- `grep to be`. -/
theorem grep_output_lines : ∃ rounds, ∀ fuel ≥ rounds,
    Ends (Grep.main (Host.alone Image.lined) (literalAt Grep.texts) bufferAt fuel (bufferAt + 2048) (bufferAt + 3072))
      (UserState.start (ascii "to be".toList) Grep.texts) fun status s' =>
        status = 0 ∧ s'.printed = ascii "shell:to be or\nshell:not to be\n".toList := by
  have hargs := @start_arguments (ascii "to be".toList) Grep.texts (by decide) (by decide)
  have hstr : ∀ l ∈ Grep.texts, StringIn (UserState.start (ascii "to be".toList) Grep.texts).memory
    (literalAt Grep.texts l) l := by
    decide +kernel
  have wf : Image.lined.WellFormedDirectory :=
    { size := by decide
      fits := by decide
      length_le := by decide +kernel
      blocks := by decide +kernel
      dir_le := by decide +kernel
      inode_lt := by decide +kernel }
  have hfree : Grep.TwoFree (UserState.start (ascii "to be".toList) Grep.texts).kernel :=
    ⟨2, 3, by decide, by decide, by decide, by rw [Kernel.Free, start_now]; exact Nat.one_ne_zero,
      by rw [Kernel.Free, start_now]; exact Nat.one_ne_zero⟩
  obtain ⟨rounds, hends⟩ :=
    grep_output (Host.alone Image.lined) 0 (literalAt Grep.texts) bufferAt (bufferAt + 2048) (bufferAt + 3072)
    (UserState.start (ascii "to be".toList) Grep.texts)
    (start_starts wf ⟨by decide +kernel, by decide +kernel⟩ _ hstr (by decide +kernel) (by decide))
      (by unfold Grep.Apart Grep.arrays; decide)
    hfree (alone_ticks _) (fun _ => show (0 : UInt8) ≠ 0x0A by decide)
  refine ⟨rounds, fun fuel hfuel => (hends fuel hfuel).mono ?_⟩
  intro status s' hout
  rw [hargs, if_neg (by decide)] at hout
  obtain ⟨hstatus, outs, houts, hprinted⟩ := hout
  have hlisted : (Host.alone Image.lined).img.listed = [0, 1, 2, 3] := by decide +kernel
  rw [hlisted] at houts
  replace houts : List.Forall₂ (Grep.Adds Image.lined (ascii "to be".toList)) [0, 1, 2, 3] outs := houts
  obtain _ | @⟨_, dot, _, _, hdot,
    _ | @⟨_, rtc, _, _, hrtc, _ | @⟨_, sh, _, _, hsh, _ | @⟨_, stub, _, _, hstub, _ | _⟩⟩⟩⟩ := houts
  have htext : ∀ e ∈ [1, 2, 3], ¬ dotName <+: Image.lined.entryName e ∧
      Grep.Text (Grep.namedBytes Image.lined (Image.lined.entryName e)) := by
    unfold Grep.Text Grep.ShortLines
    decide +kernel
  have hlines : [1, 2, 3].flatMap (fun e => Grep.matchLines (ascii "to be".toList) (Image.lined.entryName e)
      (Grep.namedBytes Image.lined (Image.lined.entryName e))) = ascii "shell:to be or\nshell:not to be\n".toList := by
    decide +kernel
  have hadds : ∀ e ∈ [1, 2, 3], ∀ out, Grep.Adds Image.lined (ascii "to be".toList) e out →
      out = Grep.matchLines (ascii "to be".toList) (Image.lined.entryName e)
        (Grep.namedBytes Image.lined (Image.lined.entryName e)) := by
    intro e he out hout
    exact (Grep.adds_named (htext e he).1).mp hout (htext e he).2
  have hpassed : dotName <+: Image.lined.entryName 0 := by decide +kernel
  have hnone : dot = [] := (Grep.adds_dot hpassed).mp hdot
  refine ⟨hstatus, hprinted.trans ?_⟩
  rw [← hlines, hnone, hadds 1 (by decide) _ hrtc, hadds 2 (by decide) _ hsh, hadds 3 (by decide) _ hstub]
  simp only [List.flatten_cons, List.flatMap_cons, List.flatten_nil, List.flatMap_nil, List.nil_append]
  exact List.nil_append _

end Kernel391
