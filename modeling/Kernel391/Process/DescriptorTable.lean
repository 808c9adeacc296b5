import Kernel391.Foundations.Runs
import Kernel391.Process.Descriptors

/-! The descriptor table as a partial map. The flags say which descriptors are in the
map, the contents what they are mapped to; `open`, `close`, `read` and `write` are
operations on the map, whatever the process does between them. -/
namespace Kernel391
open Kernel391.Foundations
set_option autoImplicit false

def Pcb.table (b : Pcb) (fd : ℕ) : Option FileDescriptor :=
  if fd < maxFiles ∧ b.available fd = 0 then some (b.fd fd) else none

/-- The flags are flags, the standard streams are open, and the others have tables of their own. -/
structure Pcb.ValidTable (b : Pcb) : Prop where
  flags : ∀ fd < maxFiles, b.available fd = 0 ∨ b.available fd = 1
  stdin : b.available 0 = 0 ∧ (b.fd 0).fileOps = some .stdin
  stdout : b.available 1 = 0 ∧ (b.fd 1).fileOps = some .stdout
  bound : ∀ fd < maxFiles, 2 ≤ fd → b.available fd = 0 →
    ∃ ops, (b.fd fd).fileOps = some ops ∧ ops ≠ .stdin ∧ ops ≠ .stdout

/-- The open function of the name's table accepts it. -/
def Openable (img : Image) (name : List UInt8) : Prop :=
  if strncmp (cstr name) (cstr rtcName) 3 0 = 0 then True
  else if strncmp (cstr name) (cstr dotName) 1 0 = 0 then dirOpen img dotName = 0
  else 0 ≤ fileOpen img name

/-- The least free descriptor. -/
structure Pcb.LeastFree (b : Pcb) (fd : ℕ) : Prop where
  two_le : 2 ≤ fd
  le_seven : fd ≤ 7
  free : b.table fd = none
  least : ∀ j, 2 ≤ j → j < fd → b.table j ≠ none

/-- `open` adds the least free descriptor, at position 0, or returns -1 and changes nothing. -/
def OpenLaw (img : Image) (k : Kernel) : Prop :=
  ∀ name, (∃ (fd : ℕ) (d : FileDescriptor) (k' : Kernel), openCall img k name = ((fd : ℤ), k') ∧
    k.getPcbNow.LeastFree fd ∧ Openable img name ∧
      k'.getPcbNow.table = Function.update k.getPcbNow.table fd (some d) ∧ d.filePos = 0 ∧
      ∀ j, j ≠ fd → k'.getPcbNow.fd j = k.getPcbNow.fd j) ∨
    (∃ k', openCall img k name = (-1, k') ∧ (¬ (∃ fd, k.getPcbNow.LeastFree fd) ∨ ¬ Openable img name) ∧
      k'.getPcbNow = k.getPcbNow)

/-- `close` takes a descriptor of its own out of the map, or returns -1 and changes nothing. -/
def CloseLaw (k : Kernel) : Prop :=
  ∀ fd, (2 ≤ fd ∧ fd ≤ 7 ∧ k.getPcbNow.table fd ≠ none ∧ ∃ k', closeCall k fd = some (0, k') ∧
      k'.getPcbNow.table = Function.update k.getPcbNow.table fd none ∧ k'.getPcbNow.fd = k.getPcbNow.fd) ∨
    ¬ (2 ≤ fd ∧ fd ≤ 7 ∧ k.getPcbNow.table fd ≠ none) ∧ closeCall k fd = some (-1, k)

/-- `read` outside the map returns -1 and changes nothing; inside it moves the position at most. -/
def ReadLaw (img : Image) (fs : Filesystem) (k : Kernel) : Prop :=
  ∀ (m : ℕ → UInt8) w stack fd buf nbytes,
    (k.getPcbNow.table fd = none → readCall img fs k m w stack fd buf nbytes = .done (-1) k m) ∧
      ∀ r k' m', readCall img fs k m w stack fd buf nbytes = .done r k' m' →
        ∃ pos, k'.getPcbNow.table =
          Function.update k.getPcbNow.table fd ((k.getPcbNow.table fd).map fun d => { d with filePos := pos })

/-- `write` outside the map returns -1 and changes nothing; inside it keeps the whole map. -/
def WriteLaw (k : Kernel) : Prop :=
  ∀ fd buf nbytes, (k.getPcbNow.table fd = none → writeCall k fd buf nbytes = .done (-1) k) ∧
    ∀ r k', writeCall k fd buf nbytes = .done r k' → k'.getPcbNow = k.getPcbNow

structure TableLaws (img : Image) (fs : Filesystem) (k : Kernel) : Prop where
  stdin : ∃ d, k.getPcbNow.table 0 = some d ∧ d.fileOps = some .stdin
  stdout : ∃ d, k.getPcbNow.table 1 = some d ∧ d.fileOps = some .stdout
  openLaw : OpenLaw img k
  closeLaw : CloseLaw k
  readLaw : ReadLaw img fs k
  writeLaw : WriteLaw k

/-! ## A process's calls -/

inductive TableCall
  | opening (filename : List UInt8)
  | closing (fd : ℕ)
  | reading (m : ℕ → UInt8) (w : Waited) (stack : ℕ → UInt8) (fd buf nbytes : ℕ)
  | writing (fd buf nbytes : ℕ)
  /-- Everything outside the process, which leaves its descriptors alone. -/
  | elsewhere (k : Kernel)

def tableStep (img : Image) (fs : Filesystem) (k : Kernel) : TableCall → Option Kernel
  | .opening filename => some (openCall img k filename).2
  | .closing fd => (closeCall k fd).map Prod.snd
  | .reading m w stack fd buf nbytes =>
    match readCall img fs k m w stack fd buf nbytes with
    | .done _ k _ => some k
    | _ => none
  | .writing fd buf nbytes =>
    match writeCall k fd buf nbytes with
    | .done _ k => some k
    | _ => none
  | .elsewhere k' => some (k.elsewhere k')

section Laws
variable {img : Image} {fs : Filesystem} {k k' : Kernel} {b b' : Pcb} {fd : ℕ}

theorem table_eq_none (h : b.ValidTable) : b.table fd = none ↔ fd > 7 ∨ b.available fd = 1 := by
  unfold Pcb.table
  by_cases hin : fd < maxFiles ∧ b.available fd = 0
  · rw [if_pos hin]
    simp only [maxFiles] at hin
    exact iff_of_false (by simp) (by omega)
  · rw [if_neg hin]
    refine iff_of_true rfl ?_
    by_cases hfd : fd < maxFiles
    · exact Or.inr ((h.flags fd hfd).resolve_left fun h0 => hin ⟨hfd, h0⟩)
    · simp only [maxFiles] at hfd
      omega

theorem table_of_used (hfd : fd < maxFiles) (hav : b.available fd = 0) :
    b.table fd = some (b.fd fd) := if_pos ⟨hfd, hav⟩

theorem table_update (hfd : fd < maxFiles) (av : ℕ) (d : FileDescriptor) :
    ({ b with available := Function.update b.available fd av, fd := Function.update b.fd fd d } : Pcb).table =
      Function.update b.table fd (if av = 0 then some d else none) := by
  funext j
  unfold Pcb.table
  by_cases hj : j = fd
  · subst hj
    simp only [Function.update_self, hfd, true_and]
  · simp only [Function.update_of_ne hj]

theorem setupPcb_valid (p parent : ℕ) (b : Pcb) : (setupPcb p parent b).ValidTable where
  flags i hi := by
    simp only [setupPcb, maxFiles] at hi ⊢
    split
    · exact Or.inl rfl
    · exact Or.inr rfl
  stdin := ⟨rfl, rfl⟩
  stdout := ⟨rfl, rfl⟩
  bound i hi h2 hav := by
    simp only [setupPcb, maxFiles] at hi hav
    rw [if_neg (by omega), if_pos hi] at hav
    cases hav

theorem valid_congr (h : b.ValidTable) (hav : b'.available = b.available) (hfd : b'.fd = b.fd) : b'.ValidTable := by
  refine ⟨?_, ?_, ?_, ?_⟩
  · rw [hav]
    exact h.flags
  · rw [hav, hfd]
    exact h.stdin
  · rw [hav, hfd]
    exact h.stdout
  · rw [hav, hfd]
    exact h.bound

theorem valid_bind (h : b.ValidTable) (h2 : 2 ≤ fd) {d : FileDescriptor} {ops : FileOps} (hd : d.fileOps = some ops)
    (hin : ops ≠ .stdin) (hout : ops ≠ .stdout) :
    ({ b with available := Function.update b.available fd 0, fd := Function.update b.fd fd d } : Pcb).ValidTable where
  flags i hi := by
    by_cases hif : i = fd
    · exact Or.inl (by rw [hif]; exact Function.update_self _ _ _)
    · simp only [Function.update_of_ne hif]
      exact h.flags i hi
  stdin := by
    simp only [Function.update_of_ne (show 0 ≠ fd by omega)]
    exact h.stdin
  stdout := by
    simp only [Function.update_of_ne (show 1 ≠ fd by omega)]
    exact h.stdout
  bound i hi hi2 hav := by
    by_cases hif : i = fd
    · subst hif
      simp only [Function.update_self]
      exact ⟨ops, hd, hin, hout⟩
    · simp only [Function.update_of_ne hif] at hav ⊢
      exact h.bound i hi hi2 hav

theorem valid_free (h : b.ValidTable) (h2 : 2 ≤ fd) :
    ({ b with available := Function.update b.available fd 1 } : Pcb).ValidTable where
  flags i hi := by
    by_cases hif : i = fd
    · exact Or.inr (by rw [hif]; exact Function.update_self _ _ _)
    · simp only [Function.update_of_ne hif]
      exact h.flags i hi
  stdin := by
    simp only [Function.update_of_ne (show 0 ≠ fd by omega)]
    exact h.stdin
  stdout := by
    simp only [Function.update_of_ne (show 1 ≠ fd by omega)]
    exact h.stdout
  bound i hi hi2 hav := by
    by_cases hif : i = fd
    · subst hif
      simp only [Function.update_self] at hav
      cases hav
    · simp only [Function.update_of_ne hif] at hav
      exact h.bound i hi hi2 hav

theorem valid_move (h : b.ValidTable) (fd : ℕ) (pos : ℤ) :
    ({ b with fd := Function.update b.fd fd { b.fd fd with filePos := pos } } : Pcb).ValidTable := by
  have hops : ∀ i, (Function.update b.fd fd { b.fd fd with filePos := pos } i).fileOps = (b.fd i).fileOps := by
    intro i
    by_cases hif : i = fd
    · rw [hif, Function.update_self]
    · rw [Function.update_of_ne hif]
  refine ⟨h.flags, ?_, ?_, ?_⟩
  · simp only [hops]
    exact h.stdin
  · simp only [hops]
    exact h.stdout
  · simp only [hops]
    exact h.bound

/-! ## One call -/

theorem getAvailFd_least {k₁ : Kernel} (h : k.getAvailFd = some (fd, k₁)) :
    ∀ j < fd, k.getPcbNow.available j = 0 := by
  unfold Kernel.getAvailFd at h
  split at h
  · next i hf =>
    simp only [Option.some.injEq, Prod.mk.injEq] at h
    rw [List.find?_range_eq_some] at hf
    intro j hj
    have hno := hf.2.2 j (h.1 ▸ hj)
    simpa using hno
  · cases h

variable {name : List UInt8} {k₁ : Kernel}

theorem openCall_openable (h : Openable img name) (hfd : k.getAvailFd = some (fd, k₁)) :
    ∃ (k₂ : Kernel) (ops : FileOps) (inode : ℤ), openCall img k name = ((fd : ℤ), k₂) ∧ ops ≠ .stdin ∧ ops ≠ .stdout ∧
      k₂.getPcbNow =
        { k₁.getPcbNow with
          fd := Function.update k₁.getPcbNow.fd fd
            { fileOps := some ops, inode := inode, filePos := 0, flags := 0 } } := by
  unfold Openable at h
  unfold openCall
  simp only [hfd]
  split at h
  · next hr =>
    rw [if_pos hr]
    exact ⟨_, .rtc, -1, if_neg (fun hne => hne rfl), by decide, by decide, getPcbNow_bindFd _ _ _ _⟩
  · next hr =>
    rw [if_neg hr]
    split at h
    · next hd =>
      rw [if_pos hd]
      exact ⟨_, .directory, -1, if_neg (fun hne => hne h), by decide, by decide, getPcbNow_bindFd _ _ _ _⟩
    · next hd =>
      rw [if_neg hd]
      exact ⟨_, .file, _, if_neg (by omega), by decide, by decide, getPcbNow_bindFd _ _ _ _⟩

theorem openCall_undone (h : ¬ Openable img name) (hfd : k.getAvailFd = some (fd, k₁)) :
    openCall img k name = (-1, k₁.makeAvailableFd fd) := by
  unfold Openable at h
  unfold openCall
  simp only [hfd]
  split at h
  · exact absurd trivial h
  · next hr =>
    rw [if_neg hr]
    split at h
    · next hd =>
      rw [if_pos hd]
      exact if_pos h
    · next hd =>
      rw [if_neg hd]
      exact if_pos (by omega)

theorem leastFree_of_avail (hv : k.getPcbNow.ValidTable) (h : k.getAvailFd = some (fd, k₁)) :
    k.getPcbNow.LeastFree fd ∧ k.getPcbNow.available fd = 1 ∧ k₁ = k.setAvailable fd 0 := by
  obtain ⟨hlt, hav, hk₁⟩ := k.getAvailFd_some h
  have hone := (hv.flags fd hlt).resolve_left hav
  have hstd : fd ≠ 0 ∧ fd ≠ 1 := by
    refine ⟨?_, ?_⟩
    · rintro rfl
      exact hav hv.stdin.1
    · rintro rfl
      exact hav hv.stdout.1
  simp only [maxFiles] at hlt
  refine ⟨⟨by omega, by omega, (table_eq_none hv).mpr (Or.inr hone), fun j _ hj => ?_⟩, hone, hk₁⟩
  rw [table_of_used (by simp only [maxFiles]; omega) (getAvailFd_least h j hj)]
  exact Option.some_ne_none _

theorem getPcbNow_undone (hone : k.getPcbNow.available fd = 1) :
    ((k.setAvailable fd 0).makeAvailableFd fd).getPcbNow = k.getPcbNow := by
  unfold Kernel.makeAvailableFd
  rw [Kernel.getPcbNow_setAvailable, Kernel.getPcbNow_setAvailable]
  simp only [Function.update_idem]
  rw [← hone, Function.update_eq_self]

theorem openLaw_of_valid (hv : k.getPcbNow.ValidTable) : OpenLaw img k := by
  intro name
  cases hfd : k.getAvailFd with
  | none =>
    right
    refine ⟨k, ?_, Or.inl ?_, rfl⟩
    · unfold openCall
      rw [hfd]
    · rintro ⟨fd, hleast⟩
      have hle := hleast.le_seven
      have hone := ((table_eq_none hv).mp hleast.free).resolve_left (by omega)
      exact (k.getAvailFd_none.mp hfd) ⟨fd, by simp only [maxFiles]; omega, by omega⟩
  | some q =>
    obtain ⟨fd, k₁⟩ := q
    obtain ⟨hleast, hone, hk₁⟩ := leastFree_of_avail hv hfd
    by_cases hop : Openable img name
    · left
      obtain ⟨k₂, ops, inode, hret, -, -, hpcb⟩ := openCall_openable hop hfd
      rw [hk₁, Kernel.getPcbNow_setAvailable] at hpcb
      refine ⟨fd, { fileOps := some ops, inode := inode, filePos := 0, flags := 0 }, k₂, hret, hleast, hop, ?_, rfl,
        fun j hj => ?_⟩
      · have hlt : fd < maxFiles := (k.getAvailFd_some hfd).1
        rw [hpcb]
        exact (table_update hlt 0 _).trans (by rw [if_pos rfl])
      · rw [hpcb]
        exact Function.update_of_ne hj _ _
    · right
      refine ⟨_, openCall_undone hop hfd, Or.inr hop, ?_⟩
      rw [hk₁]
      exact getPcbNow_undone hone

theorem FileOps.close_own {ops : FileOps} (hin : ops ≠ .stdin) (hout : ops ≠ .stdout) : ops.close = 0 := by
  cases ops with
  | stdin => exact absurd rfl hin
  | stdout => exact absurd rfl hout
  | _ => rfl

theorem closeLaw_of_valid (hv : k.getPcbNow.ValidTable) : CloseLaw k := by
  intro fd
  unfold closeCall
  by_cases hrange : fd < 2 ∨ fd > 7
  · right
    refine ⟨?_, if_pos hrange⟩
    rintro ⟨h2, h7, -⟩
    omega
  rw [if_neg hrange]
  by_cases hone : k.getPcbNow.available fd = 1
  · right
    exact ⟨fun h => h.2.2 ((table_eq_none hv).mpr (Or.inr hone)), if_pos hone⟩
  rw [if_neg hone]
  have hlt : fd < maxFiles := by
    simp only [maxFiles]
    omega
  obtain ⟨ops, hops, hin, hout⟩ := hv.bound fd hlt (by omega) ((hv.flags fd hlt).resolve_right hone)
  left
  refine ⟨by omega, by omega, fun h => ?_, k.setAvailable fd 1, ?_, ?_, ?_⟩
  · rcases (table_eq_none hv).mp h with h7 | h1
    · omega
    · exact hone h1
  · rw [hops, Option.map_some, FileOps.close_own hin hout]
  · have hupd := table_update (b := k.getPcbNow) hlt 1 (k.getPcbNow.fd fd)
    rw [Function.update_eq_self] at hupd
    rw [Kernel.getPcbNow_setAvailable]
    exact hupd
  · rw [Kernel.getPcbNow_setAvailable]

theorem readLaw_of_valid (hv : k.getPcbNow.ValidTable) : ReadLaw img fs k := by
  intro m w stack fd buf nbytes
  refine ⟨fun h => ?_, fun r k' m' h => ?_⟩
  · unfold readCall
    rcases (table_eq_none hv).mp h with h7 | h1
    · exact if_pos h7
    · rw [if_pos h1]
      split <;> rfl
  · obtain ⟨-, pos, hpcb⟩ := readCall_pcb h
    refine ⟨pos, ?_⟩
    rw [hpcb]
    funext j
    unfold Pcb.table
    by_cases hj : j = fd
    · subst hj
      simp only [Function.update_self]
      split <;> rfl
    · simp only [Function.update_of_ne hj]

theorem writeChars_pcb {buf n : ℕ} (h : writeChars k buf n = .ok k') : k'.getPcbNow = k.getPcbNow := by
  induction n generalizing k' with
  | zero =>
    cases h
    rfl
  | succ n ih =>
    unfold writeChars at h
    split at h
    · cases h
    · next k₂ hk₂ =>
      split at h
      · cases h
      · cases h
        rw [← ih hk₂]
        split <;> rfl

theorem writeCall_pcb {fd buf nbytes : ℕ} {r : ℤ} (h : writeCall k fd buf nbytes = .done r k') :
    k'.getPcbNow = k.getPcbNow := by
  unfold writeCall at h
  split at h
  · cases h
    rfl
  · split at h
    · cases h
      rfl
    · split at h
      · cases h
      · next ops _ =>
        cases ops with
        | stdout =>
          simp only [FileOps.write, terminalWrite] at h
          split at h
          · cases h
            rfl
          · split at h
            · cases h
              rfl
            · split at h
              · cases h
              · next hchars =>
                cases h
                exact writeChars_pcb hchars
        | rtc =>
          simp only [FileOps.write, rtcWrite] at h
          split at h
          · cases h
            rfl
          · split at h
            · cases h
            · split at h
              · cases h
                rfl
              · cases h
        | _ =>
          cases h
          rfl

theorem writeLaw_of_valid (hv : k.getPcbNow.ValidTable) : WriteLaw k := by
  intro fd buf nbytes
  refine ⟨fun h => ?_, fun r k' h => writeCall_pcb h⟩
  unfold writeCall
  rcases (table_eq_none hv).mp h with h7 | h1
  · exact if_pos h7
  · rw [if_pos h1]
    split <;> rfl

theorem laws_of_valid (hv : k.getPcbNow.ValidTable) : TableLaws img fs k where
  stdin := ⟨_, table_of_used (by decide) hv.stdin.1, hv.stdin.2⟩
  stdout := ⟨_, table_of_used (by decide) hv.stdout.1, hv.stdout.2⟩
  openLaw := openLaw_of_valid hv
  closeLaw := closeLaw_of_valid hv
  readLaw := readLaw_of_valid hv
  writeLaw := writeLaw_of_valid hv

/-! ## Every run -/

theorem openCall_valid (hv : k.getPcbNow.ValidTable) (name : List UInt8) :
    (openCall img k name).2.getPcbNow.ValidTable := by
  cases hfd : k.getAvailFd with
  | none =>
    unfold openCall
    rw [hfd]
    exact hv
  | some q =>
    obtain ⟨fd, k₁⟩ := q
    obtain ⟨hleast, hone, hk₁⟩ := leastFree_of_avail hv hfd
    by_cases hop : Openable img name
    · obtain ⟨k₂, ops, inode, hret, hin, hout, hpcb⟩ := openCall_openable hop hfd
      rw [hk₁, Kernel.getPcbNow_setAvailable] at hpcb
      rw [hret, hpcb]
      exact valid_bind hv hleast.two_le rfl hin hout
    · rw [openCall_undone hop hfd, hk₁, getPcbNow_undone hone]
      exact hv

theorem tableStep_valid {c : TableCall} (hv : k.getPcbNow.ValidTable) (h : tableStep img fs k c = some k') :
    k'.getPcbNow.ValidTable := by
  cases c with
  | opening name =>
    cases h
    exact openCall_valid hv name
  | closing fd =>
    obtain ⟨r, hr, rfl⟩ := Option.map_eq_some_iff.mp h
    unfold closeCall at hr
    split at hr
    · cases hr
      exact hv
    · split at hr
      · cases hr
        exact hv
      · obtain ⟨ops, -, rfl⟩ := Option.map_eq_some_iff.mp hr
        rw [Kernel.getPcbNow_setAvailable]
        exact valid_free hv (by omega)
  | reading m w stack fd buf nbytes =>
    simp only [tableStep] at h
    split at h
    · next hr =>
      cases h
      obtain ⟨-, pos, hpcb⟩ := readCall_pcb hr
      rw [hpcb]
      exact valid_move hv fd pos
    · cases h
  | writing fd buf nbytes =>
    simp only [tableStep] at h
    split at h
    · next hw =>
      cases h
      rw [writeCall_pcb hw]
      exact hv
    · cases h
  | elsewhere k₂ =>
    cases h
    rw [Kernel.getPcbNow_elsewhere]
    exact valid_congr hv rfl rfl

end Laws

/-- **The descriptor table is a partial map**: its laws hold after every sequence of calls of a process
that starts with the table `setup_pcb` makes. -/
theorem descriptor_table_laws (img : Image) (fs : Filesystem) (p parent : ℕ) (b : Pcb) (k k' : Kernel)
    (hstart : k.getPcbNow = setupPcb p parent b) (h : Reaches (tableStep img fs) anyStep k k') :
    TableLaws img fs k' := by
  refine laws_of_valid (h.invariant (P := fun k => k.getPcbNow.ValidTable) ?_ fun _ _ _ hv _ hs =>
    tableStep_valid hv hs)
  rw [hstart]
  exact setupPcb_valid p parent b

theorem descriptor_table_laws_small : ∃ k', k'.getPcbNow.table 2 ≠ none ∧
    TableLaws Image.small (Image.WellFormed.pointers Image.small) k' := by
  have hrun : Reaches (tableStep Image.small (Image.WellFormed.pointers Image.small)) anyStep Kernel.oneProcess
      (openCall Image.small Kernel.oneProcess shell).2 := Reaches.single (e := .opening shell) trivial rfl
  exact ⟨_, by decide, descriptor_table_laws _ _ 0 0 _ Kernel.oneProcess _ Kernel.oneProcess_now hrun⟩

end Kernel391
