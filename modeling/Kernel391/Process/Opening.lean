import Kernel391.Process.Descriptors

/-! Which names `open` accepts. Lookup compares whole names; the choice of the table
compares prefixes, and the two disagree on the proper extensions of the two special
names. -/
namespace Kernel391
set_option autoImplicit false

/-- A longer name that begins with `lit`. -/
def ProperExtension (lit name : List UInt8) : Prop := lit <+: name ∧ name ≠ lit

/-- The descriptor `open` bound. -/
def opened (img : Image) (k : Kernel) (name : List UInt8) (fd : ℕ) : FileDescriptor :=
  (openCall img k name).2.getPcbNow.fd fd

/-- `open` accepts exactly the names of the directory and binds each to its own table. -/
structure OpensExactly (img : Image) (k : Kernel) (name : List UInt8) : Prop where
  returns : (∃ fd : ℕ, fd < maxFiles ∧ (openCall img k name).1 = fd) ↔
    k.FdFree ∧ ∃ e < img.dirCount, img.entryName e = name
  rtc : ∀ fd : ℕ, (openCall img k name).1 = fd → ((opened img k name fd).fileOps = some .rtc ↔ name = rtcName)
  directory : ∀ fd : ℕ, (openCall img k name).1 = fd →
    ((opened img k name fd).fileOps = some .directory ↔ name = dotName)
  file : ∀ fd : ℕ, (openCall img k name).1 = fd → name ≠ rtcName → name ≠ dotName →
    (opened img k name fd).fileOps = some .file ∧
      ∃ e, img.firstNamed name = some e ∧ (opened img k name fd).inode = img.entryInode e

/-- The image has the two special entries. -/
structure SpecialEntries (img : Image) : Prop where
  rtc : ∃ e < img.dirCount, img.entryName e = rtcName
  dot : ∃ e < img.dirCount, img.entryName e = dotName

section Open
variable {img : Image} {k : Kernel} {name : List UInt8}

theorem strncmp_rtcName (h : 0 ∉ name) : strncmp (cstr name) (cstr rtcName) 3 0 = 0 ↔ rtcName <+: name :=
  @strncmp_extends _ rtcName h (by decide)

theorem strncmp_dotName (h : 0 ∉ name) : strncmp (cstr name) (cstr dotName) 1 0 = 0 ↔ dotName <+: name :=
  @strncmp_extends _ dotName h (by decide)

theorem openCall_full (h : ¬ k.FdFree) : openCall img k name = (-1, k) := by
  unfold openCall
  rw [(k.getAvailFd_none).mpr h]

theorem openCall_rtc {fd : ℕ} {k₁ : Kernel} (h : 0 ∉ name) (hp : rtcName <+: name)
    (hfd : k.getAvailFd = some (fd, k₁)) :
    openCall img k name = ((fd : ℤ), k₁.rtcOpen.2.bindFd fd .rtc (-1)) := by
  unfold openCall
  simp only [hfd, if_pos ((strncmp_rtcName h).mpr hp)]
  exact if_neg (fun hne => hne rfl)

theorem openCall_directory {fd : ℕ} {k₁ : Kernel} (hs : SpecialEntries img) (h : 0 ∉ name)
    (hr : ¬ rtcName <+: name) (hp : dotName <+: name) (hfd : k.getAvailFd = some (fd, k₁)) :
    openCall img k name = ((fd : ℤ), k₁.bindFd fd .directory (-1)) := by
  obtain ⟨e, he⟩ := Option.isSome_iff_exists.mp (img.firstNamed_isSome.mpr hs.dot)
  unfold openCall
  simp only [hfd, if_neg (mt (strncmp_rtcName h).mp hr), if_pos ((strncmp_dotName h).mpr hp)]
  exact if_neg (fun hne => hne (dirOpen_eq (by decide) he))

theorem openCall_file (wf : img.WellFormedDirectory) {fd e : ℕ} {k₁ : Kernel} (h : 0 ∉ name)
    (hr : ¬ rtcName <+: name) (hp : ¬ dotName <+: name) (hfd : k.getAvailFd = some (fd, k₁))
    (he : img.firstNamed name = some e) :
    openCall img k name = ((fd : ℤ), k₁.bindFd fd .file (img.entryInode e)) := by
  unfold openCall
  simp only [hfd, if_neg (mt (strncmp_rtcName h).mp hr), if_neg (mt (strncmp_dotName h).mp hp)]
  rcases fileOpen_eq wf h with ⟨e', he', heq⟩ | ⟨hnone, -⟩
  · rw [he, Option.some.injEq] at he'
    subst he'
    rw [heq]
    exact if_neg (by omega)
  · rw [he] at hnone
    cases hnone

theorem openCall_missing (wf : img.WellFormedDirectory) {fd : ℕ} {k₁ : Kernel} (h : 0 ∉ name)
    (hr : ¬ rtcName <+: name) (hp : ¬ dotName <+: name) (hfd : k.getAvailFd = some (fd, k₁))
    (he : img.firstNamed name = none) : openCall img k name = (-1, k₁.makeAvailableFd fd) := by
  unfold openCall
  simp only [hfd, if_neg (mt (strncmp_rtcName h).mp hr), if_neg (mt (strncmp_dotName h).mp hp)]
  rcases fileOpen_eq wf h with ⟨e', he', -⟩ | ⟨-, hneg⟩
  · rw [he] at he'
    cases he'
  · exact if_pos hneg

theorem opened_eq {fd : ℕ} {k₁ : Kernel} {ops : FileOps} {inode : ℤ}
    (h : openCall img k name = ((fd : ℤ), k₁.bindFd fd ops inode)) {fd' : ℕ}
    (hfd' : (openCall img k name).1 = fd') :
    (opened img k name fd').fileOps = some ops ∧ (opened img k name fd').inode = inode := by
  rw [h] at hfd'
  have heq : fd' = fd := by
    have : (fd : ℤ) = fd' := hfd'
    omega
  subst heq
  unfold opened
  rw [h]
  simp only [getPcbNow_bindFd, Function.update_self, and_self]

/-- **Which names `open` treats exactly**: all of them when no descriptor is free, else those that do
not properly extend one of the two special names. -/
theorem open_accepts_exactly (wf : img.WellFormedDirectory) (hs : SpecialEntries img) (k : Kernel)
    (h : 0 ∉ name) :
    OpensExactly img k name ↔
      ¬ k.FdFree ∨ ¬ ProperExtension rtcName name ∧ ¬ ProperExtension dotName name := by
  have hrd : ¬ dotName <+: rtcName := by decide
  have hdr : ¬ rtcName <+: dotName := by decide
  by_cases hfree : k.FdFree
  · cases hfd : k.getAvailFd with
    | none => exact absurd hfree ((k.getAvailFd_none).mp hfd)
    | some q =>
    obtain ⟨fd, k₁⟩ := q
    have hlt : fd < maxFiles := (k.getAvailFd_some hfd).1
    have hreturn : ∀ {k₂ : Kernel} {ops : FileOps} {inode : ℤ},
        openCall img k name = ((fd : ℤ), k₂.bindFd fd ops inode) →
          ∃ fd : ℕ, fd < maxFiles ∧ (openCall img k name).1 = fd := by
      intro k₂ ops inode heq
      exact ⟨fd, hlt, by rw [heq]⟩
    rw [or_iff_right (not_not.mpr hfree)]
    by_cases hr : rtcName <+: name
    · have heq := @openCall_rtc img _ _ _ _ h hr hfd
      by_cases hname : name = rtcName
      · refine iff_of_true ⟨iff_of_true (hreturn heq) ⟨hfree, hname ▸ hs.rtc⟩, fun fd' hfd' => ?_, fun fd' hfd' => ?_,
          fun _ _ hne => absurd hname hne⟩ ⟨fun hx => hx.2 hname, fun hx => hrd (hname ▸ hx.1)⟩
        · exact iff_of_true (opened_eq heq hfd').1 hname
        · rw [(opened_eq heq hfd').1]
          refine iff_of_false (by decide) ?_
          rintro rfl
          exact hdr hr
      · refine iff_of_false (fun hx => hname ?_) (fun hx => hx.1 ⟨hr, hname⟩)
        obtain ⟨fd', -, hfd'⟩ := hreturn heq
        exact (hx.rtc fd' hfd').mp (opened_eq heq hfd').1
    · by_cases hd : dotName <+: name
      · have heq := openCall_directory hs h hr hd hfd
        by_cases hname : name = dotName
        · refine iff_of_true ⟨iff_of_true (hreturn heq) ⟨hfree, hname ▸ hs.dot⟩, fun fd' hfd' => ?_, fun fd' hfd' => ?_,
            fun _ _ _ hne => absurd hname hne⟩ ⟨fun hx => hr hx.1, fun hx => hx.2 hname⟩
          · rw [(opened_eq heq hfd').1]
            refine iff_of_false (by decide) ?_
            rintro rfl
            exact hr (List.prefix_rfl)
          · exact iff_of_true (opened_eq heq hfd').1 hname
        · refine iff_of_false (fun hx => hname ?_) (fun hx => hx.2 ⟨hd, hname⟩)
          obtain ⟨fd', -, hfd'⟩ := hreturn heq
          exact (hx.directory fd' hfd').mp (opened_eq heq hfd').1
      · have hnr : name ≠ rtcName := by
          rintro rfl
          exact hr List.prefix_rfl
        have hnd : name ≠ dotName := by
          rintro rfl
          exact hd List.prefix_rfl
        refine iff_of_true ?_ ⟨fun hx => hr hx.1, fun hx => hd hx.1⟩
        cases he : img.firstNamed name with
        | some e =>
          have heq := openCall_file wf h hr hd hfd he
          refine ⟨iff_of_true (hreturn heq) ⟨hfree, img.firstNamed_isSome.mp (he ▸ rfl)⟩, fun fd' hfd' => ?_,
            fun fd' hfd' => ?_, fun fd' hfd' _ _ => ?_⟩
          · rw [(opened_eq heq hfd').1]
            exact iff_of_false (by decide) hnr
          · rw [(opened_eq heq hfd').1]
            exact iff_of_false (by decide) hnd
          · exact ⟨(opened_eq heq hfd').1, e, he, (opened_eq heq hfd').2⟩
        | none =>
          have heq := openCall_missing wf h hr hd hfd he
          have hneg : ∀ fd' : ℕ, (openCall img k name).1 ≠ fd' := by
            intro fd'
            rw [heq]
            show (-1 : ℤ) ≠ fd'
            omega
          refine ⟨iff_of_false ?_ ?_, fun fd' hfd' => absurd hfd' (hneg fd'), fun fd' hfd' => absurd hfd' (hneg fd'),
            fun fd' hfd' => absurd hfd' (hneg fd')⟩
          · rintro ⟨fd', -, hfd'⟩
            exact hneg fd' hfd'
          · rintro ⟨-, e, hlt, hent⟩
            exact img.firstNamed_none.mp he e hlt hent
  · have heq := @openCall_full img _ name hfree
    have hneg : ∀ fd' : ℕ, (openCall img k name).1 ≠ fd' := by
      intro fd'
      rw [heq]
      show (-1 : ℤ) ≠ fd'
      omega
    refine iff_of_true ⟨iff_of_false ?_ ?_, fun fd' hfd' => absurd hfd' (hneg fd'),
      fun fd' hfd' => absurd hfd' (hneg fd'), fun fd' hfd' => absurd hfd' (hneg fd')⟩ (Or.inl hfree)
    · rintro ⟨fd', -, hfd'⟩
      exact hneg fd' hfd'
    · exact fun hx => hfree hx.1

end Open
theorem small_special : SpecialEntries Image.small := ⟨by decide, by decide⟩

theorem open_accepts_exactly_shell : OpensExactly Image.small Kernel.oneProcess shell ↔
    ¬ Kernel.oneProcess.FdFree ∨ ¬ ProperExtension rtcName shell ∧ ¬ ProperExtension dotName shell :=
  open_accepts_exactly Image.small_wellFormed small_special Kernel.oneProcess (by decide)

/-- No entry is called `rtcx`, and `open` binds a descriptor to the clock. -/
theorem rtcx_opens : SpecialEntries Image.small ∧ Image.small.WellFormedDirectory ∧
    ¬ OpensExactly Image.small Kernel.oneProcess (ascii "rtcx".toList) := by
  refine ⟨small_special, Image.small_wellFormed, fun h => ?_⟩
  have hreturns : (openCall Image.small Kernel.oneProcess (ascii "rtcx".toList)).1 = ((2 : ℕ) : ℤ) := by decide
  obtain ⟨-, e, he, hname⟩ := h.returns.mp ⟨2, by decide, hreturns⟩
  have hnone : ∀ e < Image.small.dirCount, Image.small.entryName e ≠ ascii "rtcx".toList := by decide
  exact hnone e he hname

end Kernel391
