import Kernel391.System.CalmRuns

/-! Typing while a process of another terminal runs. The handler borrows the page, the
cursor and the colour that the process writes with; all but the colour it gives back. -/
namespace Kernel391
open Kernel391.Foundations
set_option autoImplicit false

/-! ## What a process writes with -/

/-- The entries behind the two mappings of video memory, the cursor and the colour. -/
structure Display where
  kernelEntry : ℕ
  vidmapEntry : ℕ
  cursor : CursorPos
  attrib : UInt8

def Kernel.display (k : Kernel) : Display :=
  ⟨k.pageTbl (tableIdx video), k.pageTblVmem (tableIdx userPage), k.cursors.live, k.attrib⟩

/-- The process on the processor belongs to a terminal that is not on screen. -/
structure Kernel.Background (k : Kernel) : Prop where
  mode : k.cpu.mode = .user ∨ k.cpu.mode = .kernel
  offscreen : k.terminal.isOnscreen = 0
  elsewhere : k.findOnscreenTerminalNum ≠ some k.terminal.terminalNum

/-- The colour in force is the one of the terminal on screen, and the process's own page is mapped. -/
structure Kernel.Inconspicuous (k : Kernel) : Prop where
  attrib : ∀ t, k.findOnscreenTerminalNum = some t → k.attrib = color t
  kernelEntry : k.pageTbl (tableIdx video) = pageTableEntry k.terminal.fakePageAddr 0
  vidmapEntry : k.pageTblVmem (tableIdx userPage) = pageTableEntry k.terminal.fakePageAddr 1

section Keystroke
variable {img : Image} {fs : Filesystem} {k k' : Kernel} {S : Stacks} {c t temp : ℕ} {e : Entry}

theorem isTop_of_background (h : At k.processes S c) (hb : k.Background) : IsTop S c := by
  apply h.isTop
  intro hspin
  have hm : k.cpu.mode = .spin := hspin
  have hmode := hb.mode
  rw [hm] at hmode
  rcases hmode with hx | hx <;> cases hx

theorem display_after (h : At k.processes S c) (hb : k.Background) (hon : k.findOnscreenTerminalNum = some t)
    (hreq : k.requests temp = none) (hs : step img fs k (.key e temp) = some k') :
    k'.display = ⟨pageTableEntry k.terminal.fakePageAddr 0, pageTableEntry k.terminal.fakePageAddr 1,
      k.cursors.live, color t⟩ := by
  obtain ⟨hf, rfl⟩ := key_quiet hs hon hreq
  have hnow := terminalNow_interrupted hf
  have hpage := terminal_page_ne_zero h (isTop_of_background h hb)
  have hback :=
    @echoed_offscreen (k.interrupted e) t temp (by rw [hnow]; exact hb.offscreen) (by rw [hnow]; exact hpage)
  obtain ⟨p, hcursors⟩ := hback.cursors
  have hcore := hback.core
  rw [hnow] at hcursors hcore
  generalize (k.interrupted e).echoed t temp = k₁ at hcursors hcore
  have hne : k.terminal.terminalNum ≠ t := fun hx => hb.elsewhere (hx ▸ hon)
  have hlive : k₁.cursors.live = k.cursors.live := by
    rw [hcursors]
    exact TimeShared.handOn_back hne _ _
  have htbl : k₁.pageTbl (tableIdx video) = pageTableEntry k.terminal.fakePageAddr 0 := by
    have hentry := congrArg (fun k : Kernel => k.pageTbl (tableIdx video)) hcore
    exact hentry.trans (kernelEntry_setVideo _ _)
  have hvid : k₁.pageTblVmem (tableIdx userPage) = pageTableEntry k.terminal.fakePageAddr 1 := by
    have hentry := congrArg (fun k : Kernel => k.pageTblVmem (tableIdx userPage)) hcore
    exact hentry.trans (vidmapEntry_setVideo _ _)
  have hattrib : k₁.attrib = color t := by
    have hentry := congrArg Kernel.attrib hcore
    exact hentry
  show Display.mk (k₁.pageTbl (tableIdx video)) (k₁.pageTblVmem (tableIdx userPage)) k₁.cursors.live k₁.attrib = _
  rw [htbl, hvid, hlive, hattrib]

/-- **One keystroke** gives everything back exactly when the colour and the mappings were what it leaves. -/
theorem display_kept_iff (h : At k.processes S c) (hb : k.Background) (hreq : k.requests temp = none)
    (hs : step img fs k (.key e temp) = some k') : k'.display = k.display ↔ k.Inconspicuous := by
  obtain ⟨t, hon⟩ := onscreen_some h
  rw [display_after h hb hon hreq hs]
  unfold Kernel.display
  rw [Display.mk.injEq]
  constructor
  · rintro ⟨htbl, hvid, -, hattrib⟩
    refine ⟨fun u hu => ?_, htbl.symm, hvid.symm⟩
    rw [hon, Option.some.injEq] at hu
    rw [← hattrib, hu]
  · rintro ⟨hattrib, htbl, hvid⟩
    exact ⟨htbl.symm, hvid.symm, rfl, (hattrib t hon).symm⟩

end Keystroke
/-! ## Two runs side by side -/

/-- A run with keystrokes inserted, and the run without them, as far as it gets. -/
structure Twin where
  typed : Kernel
  plain : Option Kernel

inductive TwinEvent
  | both (ev : Event)
  /-- The programs work in both runs, on the two memories. -/
  | worked (w w' : Work)
  | inserted (e : Entry) (scanCode : ℕ)

def twinStep (img : Image) (fs : Filesystem) (s : Twin) : TwinEvent → Option Twin
  | .both ev => (step img fs s.typed ev).map fun k => ⟨k, s.plain.bind fun b => step img fs b ev⟩
  | .worked w w' => (step img fs s.typed (.work w)).map fun k => ⟨k, s.plain.bind fun b => step img fs b (.work w')⟩
  | .inserted e scanCode => (step img fs s.typed (.key e scanCode)).map fun k => { s with typed := k }

/-- Output, ticks, system calls entered and left, and keystrokes that ask for no terminal. -/
def Kernel.Ordinary (k : Kernel) : Event → Prop
  | .output _ => True
  | .tick _ => True
  | .trap _ => True
  | .key _ scanCode => k.requests scanCode = none
  | _ => False

/-- The same work as far as descriptors, the clock and the output to terminal `u` go, done by a process of terminal
`i`. -/
structure SameWork (u i : ℕ) (w w' : Work) : Prop where
  available : w'.available = w.available
  fd : w'.fd = w.fd
  rtc : w'.rtc = w.rtc
  page : ∀ o < fourKb, w'.phys (fakePage u + o) = w.phys (fakePage u + o)
  cursor : i = u → w'.screenX = w.screenX ∧ w'.screenY = w.screenY

/-- Keystrokes are inserted while a process runs in the background, inconspicuously. -/
def unnoticed (u : ℕ) (s : Twin) : TwinEvent → Prop
  | .both ev => s.typed.Ordinary ev ∧ ∀ b ∈ s.plain, b.Ordinary ev
  | .worked w w' => SameWork u s.typed.terminal.terminalNum w w'
  | .inserted _ scanCode => s.typed.Background ∧ s.typed.requests scanCode = none ∧ s.typed.Inconspicuous

/-- The page of terminal `u` is the same byte for byte, and so is what a process of the terminal writes with. -/
structure SameOutput (u : ℕ) (a b : Kernel) : Prop where
  page : ∀ o < fourKb, b.phys (fakePage u + o) = a.phys (fakePage u + o)
  display : a.cpu.mode ≠ .wild → a.terminal.terminalNum = u → b.display = a.display

/-- The stacks, the flags and the terminals of the processes are those of `k`. -/
structure Unmoved (k : Kernel) (S : Stacks) (a : Kernel) : Prop where
  top : ∃ c, At a.processes S c ∧ IsTop S c
  terminals : ∀ x, (a.pcb x).terminalInfo = (k.pcb x).terminalInfo
  numbers : ∀ x, (a.pcb x).processId = (k.pcb x).processId
  ids : a.processIds = k.processIds

/-- The two runs differ in nothing that terminal `u` shows or is written with. -/
structure Paired (k : Kernel) (S : Stacks) (u : ℕ) (a b : Kernel) : Prop where
  unmoved : Unmoved k S a
  apart : a.terminal.terminalNum ≠ u → a.frameOf video ≠ fakePage u
  settled : b.settled = a.settled
  page : ∀ o < fourKb, b.phys (fakePage u + o) = a.phys (fakePage u + o)
  cursor : TimeShared.Agree u a.terminal.terminalNum a.cursors b.cursors

/-- As long as control is not lost. -/
def Followed (k : Kernel) (S : Stacks) (u : ℕ) (a b : Kernel) : Prop :=
  (∀ o < fourKb, b.phys (fakePage u + o) = a.phys (fakePage u + o)) ∧ (a.cpu.mode = .wild ∨ Paired k S u a b)

section Pages
variable {k : Kernel} {u o : ℕ}

theorem video_apart : ¬ (video ≤ fakePage u + o ∧ fakePage u + o < video + fourKb) := by
  rw [fakePage_eq]
  simp only [fourKb]
  omega

theorem frame_apart (h : k.frameOf video ≠ fakePage u) (ho : o < fourKb) :
    ¬ (k.frameOf video ≤ fakePage u + o ∧ fakePage u + o < k.frameOf video + fourKb) := by
  have haligned : k.frameOf video = k.pageTbl (tableIdx video) / 2 ^ 12 * 2 ^ 12 := rfl
  rw [haligned] at h ⊢
  generalize k.pageTbl (tableIdx video) = w at h ⊢
  rw [fakePage_eq] at h ⊢
  simp only [fourKb, video] at *
  omega

theorem frame_fakePage {v : ℕ} (hv : v < 3) : pageTableEntry (fakePage v) 0 / 2 ^ 12 * 2 ^ 12 = fakePage v := by
  have hcases : v = 0 ∨ v = 1 ∨ v = 2 := by omega
  rcases hcases with rfl | rfl | rfl <;> rfl

theorem fakePage_ne {v : ℕ} (h : v ≠ u) : fakePage v ≠ fakePage u := by
  rw [fakePage_eq, fakePage_eq]
  simp only [fourKb]
  omega

theorem video_ne_fakePage : video ≠ fakePage u := by
  rw [fakePage_eq]
  simp only [fourKb]
  omega

end Pages

namespace Unmoved
variable {img : Image} {fs : Filesystem} {k a a' : Kernel} {S : Stacks} {c u : ℕ}

theorem next (h : Unmoved k S a) (hat : At a'.processes S c) (htop : IsTop S c)
    (hterm : ∀ x, (a'.pcb x).terminalInfo = (a.pcb x).terminalInfo)
    (hnum : ∀ x, (a'.pcb x).processId = (a.pcb x).processId)
    (hids : a'.processIds = a.processIds) : Unmoved k S a' :=
  ⟨⟨c, hat, htop⟩, fun x => (hterm x).trans (h.terminals x), fun x => (hnum x).trans (h.numbers x), hids.trans h.ids⟩

theorem onscreen (h : Unmoved k S a) : a.findOnscreenTerminalNum = k.findOnscreenTerminalNum := by
  unfold Kernel.findOnscreenTerminalNum
  simp only [h.terminals, h.numbers, h.ids]

end Unmoved

section Steps
variable {img : Image} {fs : Filesystem} {k a a' b : Kernel} {S : Stacks} {c u : ℕ} {ev : Event}

theorem Paired.followed (h : Paired k S u a b) : Followed k S u a b := ⟨h.page, Or.inr h⟩

theorem pcb_settled (h : b.settled = a.settled) : b.pcb = a.pcb := field_settled _ settled_pcb h
theorem processIds_settled (h : b.settled = a.settled) : b.processIds = a.processIds :=
  field_settled _ settled_processIds h
theorem cpu_settled (h : b.settled = a.settled) : b.cpu = a.cpu := field_settled _ settled_cpu h
theorem tss_settled (h : b.settled = a.settled) : b.tss = a.tss := field_settled _ settled_tss h
theorem paging_settled (h : b.settled = a.settled) : b.paging = a.paging := field_settled _ settled_paging h
theorem attrib_settled (h : b.settled = a.settled) : b.attrib = a.attrib := field_settled _ settled_attrib h
theorem current_settled (h : b.settled = a.settled) : b.current = a.current := field_settled _ settled_current h
theorem fits_settled (h : b.settled = a.settled) (e : Entry) : b.fits e = a.fits e :=
  field_settled (Kernel.fits · e) (fun k => settled_fits k e) h

theorem terminal_settled (h : b.settled = a.settled) : b.terminal = a.terminal := by
  unfold Kernel.terminal
  rw [pcb_settled h, current_settled h]

theorem findNext_settled (h : b.settled = a.settled) (hc : c < maxProcesses) :
    b.findNextActivePcb (getPcbPtr c) = a.findNextActivePcb (getPcbPtr c) := by
  refine Kernel.findNextActivePcbLoop_congr (processIds_settled h) (fun p _ => ?_) hc
  unfold Kernel.slot
  rw [pcb_settled h]
  exact ⟨rfl, rfl⟩

theorem Paired.tick (h : Paired k S u a b) {e : Entry} (hs : step img fs a (.tick e) = some a') :
    ∃ b', step img fs b (.tick e) = some b' ∧ Followed k S u a' b' := by
  obtain ⟨c, hat, htop⟩ := h.unmoved.top
  obtain ⟨q, hq, hnext, ha', -, hafter⟩ := tick_next hat hs
  have hcond : a.cpu.mode ≠ .wild ∧ a.fits e = true ∧ e.handler = e.regs.ebp := by
    simp only [step] at hs
    split at hs
    · next hc => exact hc
    · cases hs
  have hb' : step img fs b (.tick e) = some (b.ticked e c q) := by
    refine tick_ticked hat.lt ?_ ?_ ?_ ?_ hcond.2.2
    · rw [fits_settled h.settled]
      exact hcond.2.1
    · rw [current_settled h.settled]
      exact current_eq hat
    · rw [findNext_settled h.settled hat.lt]
      exact hnext
    · rw [cpu_settled h.settled]
      exact hcond.1
  have hpage : ∀ o < fourKb, (b.ticked e c q).phys (fakePage u + o) = a'.phys (fakePage u + o) := by
    intro o ho
    rw [ha', phys_ticked, phys_ticked]
    exact h.page o ho
  refine ⟨_, hb', hpage, hafter.imp_right fun hat' => ?_⟩
  have hterm : ∀ x, (a'.pcb x).terminalInfo = (a.pcb x).terminalInfo := by
    intro x
    rw [ha']
    exact terminalInfo_ticked _ _ _ _ _
  have hnum : ∀ x, (a'.pcb x).processId = (a.pcb x).processId := by
    intro x
    rw [ha', pcb_ticked]
    exact (a.interrupted e).pcb_field Pcb.processId
      (f := fun p => { p with scheduleEbp := e.regs.ebp, scheduleEsp := e.regs.esp })
      (fun _ => rfl) _ x
  have hids : a'.processIds = a.processIds := by
    rw [ha', processIds_ticked]
  have hslot : a'.terminal = (a.slot q).terminalInfo := by
    rw [terminal_eq hat']
    exact hterm _
  refine ⟨h.unmoved.next hat' hq hterm hnum hids, fun hne => ?_, ?_, hpage, ?_⟩
  · obtain ⟨v, hv, hvnum, hvpage⟩ := terminal_page hat' hq
    rw [hvnum] at hne
    rw [hslot] at hvpage
    rw [ha', frameOf_ticked]
    rcases Kernel.videoPage_cases (a.slot q).terminalInfo with hx | hx
    · rw [hx]
      exact video_ne_fakePage
    · rw [hx, hvpage, frame_fakePage hv]
      exact fakePage_ne hne
  · rw [ha']
    exact settled_of_core (core_ticked h.settled e c q)
  · have hcursor := h.cursor
    rw [terminal_eq hat] at hcursor
    have hslots : b.slot = a.slot := by
      unfold Kernel.slot
      rw [pcb_settled h.settled]
    rw [hslot, ha', cursors_ticked, cursors_ticked, hslots]
    exact hcursor.handOn _

theorem Paired.output (h : Paired k S u a b) {x : UInt8} (hs : step img fs a (.output x) = some a') :
    ∃ b', step img fs b (.output x) = some b' ∧ Followed k S u a' b' := by
  obtain ⟨c, hat, htop⟩ := h.unmoved.top
  have hcond : a.cpu.mode = .kernel ∧ x ≠ 0 := by
    simp only [step] at hs
    split at hs
    · next hc => exact hc
    · cases hs
  have ha' : a' = a.putc x := by
    simp only [step] at hs
    rw [if_pos hcond] at hs
    exact (Option.some.inj hs).symm
  have hb' : step img fs b (.output x) = some (b.putc x) := by
    simp only [step]
    rw [cpu_settled h.settled, if_pos hcond]
  subst ha'
  have hframe : b.frameOf video = a.frameOf video :=
    congrArg (fun P : Paging => P.table (tableIdx video) / 2 ^ 12 * 2 ^ 12) (paging_settled h.settled)
  have hfar : a.frameOf video ≠ fakePage u → ∀ o < fourKb, (b.putc x).phys (fakePage u + o) = (a.putc x).phys
    (fakePage u + o) := by
    intro hne o ho
    have hout : ∀ k : Kernel, k.frameOf video ≠ fakePage u →
      (k.putc x).phys (fakePage u + o) = k.phys (fakePage u + o) :=
      fun k hk => if_neg (frame_apart hk ho)
    rw [hout a hne, hout b (by rw [hframe]; exact hne)]
    exact h.page o ho
  have hnear : a.terminal.terminalNum = u → a.frameOf video = fakePage u →
      ∀ o < fourKb, (b.putc x).phys (fakePage u + o) = (a.putc x).phys (fakePage u + o) := by
    intro hnum heq o ho
    have hcursor := h.cursor
    rw [hnum] at hcursor
    have hsame : a.console.SamePage b.console := by
      refine ⟨fun o ho => ?_, congrArg CursorPos.screenX hcursor.live, congrArg CursorPos.screenY hcursor.live, ?_⟩
      · show b.phys (b.frameOf video + o) = a.phys (a.frameOf video + o)
        rw [hframe, heq]
        exact h.page o ho
      · exact attrib_settled h.settled
    have hin : ∀ k : Kernel, k.frameOf video = fakePage u →
        (k.putc x).phys (fakePage u + o) = (k.console.putc x).videoMem o := by
      intro k hk
      have hcell : k.frameOf video ≤ fakePage u + o ∧ fakePage u + o < k.frameOf video + fourKb := by omega
      show (if _ then (k.console.putc x).videoMem (fakePage u + o - k.frameOf video) else k.phys (fakePage u + o)) = _
      rw [if_pos hcell, hk, Nat.add_sub_cancel_left]
    rw [hin a heq, hin b (hframe.trans heq)]
    exact (hsame.putc x).bytes o ho
  have hpage : ∀ o < fourKb, (b.putc x).phys (fakePage u + o) = (a.putc x).phys (fakePage u + o) := by
    by_cases heq : a.frameOf video = fakePage u
    · by_cases hnum : a.terminal.terminalNum = u
      · exact hnear hnum heq
      · exact absurd heq (h.apart hnum)
    · exact hfar heq
  have hterminal : (a.putc x).terminal = a.terminal := rfl
  have hat' : At (a.putc x).processes S c := hat
  refine ⟨_, hb', hpage,
    Or.inr ⟨h.unmoved.next hat' htop (fun _ => rfl) (fun _ => rfl) rfl, h.apart, h.settled, hpage, ?_⟩⟩
  rw [hterminal]
  have hcursor := h.cursor
  by_cases hnum : a.terminal.terminalNum = u
  · rw [hnum] at hcursor ⊢
    apply TimeShared.agree_live
    show (b.console.putc x).cursorPos = (a.console.putc x).cursorPos
    rw [Console.cursorPos_putc, Console.cursorPos_putc]
    exact congrArg (fun p : CursorPos => p.putc x) hcursor.live
  · exact TimeShared.agree_saved hnum (hcursor.saved hnum)

theorem onStack_settled (h : b.settled = a.settled) (x : ℕ) : b.onStack x = a.onStack x := by
  have hesp : b.entryEsp = a.entryEsp := by
    rw [← settled_entryEsp, h, settled_entryEsp]
  unfold Kernel.onStack
  rw [current_settled h, hesp]

theorem current_resume (h : b.tss = a.tss) (x : Cpu) : (b.resume x).current = (a.resume x).current := by
  unfold Kernel.current Kernel.entryEsp Kernel.resume
  simp only
  rw [h]

theorem trap_cases (h : b.settled = a.settled) {x : Cpu} (hs : step img fs a (.trap x) = some a') :
    (a' = a.resume x ∧ step img fs b (.trap x) = some (b.resume x)) ∨
      (a' = (a.enter x.esp).resume x ∧ step img fs b (.trap x) = some ((b.enter x.esp).resume x)) := by
  simp only [step] at hs ⊢
  rw [cpu_settled h, onStack_settled h, current_settled h, tss_settled h]
  split at hs
  · cases hs
    exact Or.inl ⟨rfl, rfl⟩
  · cases hs
    exact Or.inl ⟨rfl, rfl⟩
  · split at hs
    · next hc =>
      cases hs
      exact Or.inr ⟨rfl, by rw [if_pos hc]⟩
    · cases hs
  · split at hs
    · next hc =>
      cases hs
      exact Or.inr ⟨rfl, by rw [if_pos hc]⟩
    · cases hs
  · cases hs

theorem Paired.trap (h : Paired k S u a b) {x : Cpu} (hs : step img fs a (.trap x) = some a') :
    ∃ b', step img fs b (.trap x) = some b' ∧ Followed k S u a' b' := by
  obtain ⟨c, hat, htop⟩ := h.unmoved.top
  obtain ⟨S', c', hmove, hafter⟩ := trap_follows hat hs
  have hstay : a'.cpu.mode = .wild ∨ At a'.processes S c := by
    cases hmove with
    | stay => exact hafter
    | pop _ ending => cases ending
    | restart _ ending => cases ending
    | close _ ending => cases ending
    | lost _ ending => cases ending
  have hpair : ∀ b', a'.pcb = a.pcb → a'.processIds = a.processIds → a'.paging = a.paging → a'.cursors = a.cursors →
      a'.phys = a.phys → b'.cursors = b.cursors → b'.phys = b.phys →
      (At a'.processes S c → b'.settled = a'.settled) → Followed k S u a' b' := by
    intro b' hpcb hids hpaging hcursors hphys hcursors' hphys' hsettled
    have hpage : ∀ o < fourKb, b'.phys (fakePage u + o) = a'.phys (fakePage u + o) := by
      intro o ho
      rw [hphys, hphys']
      exact h.page o ho
    refine ⟨hpage, hstay.imp_right fun hat' => ?_⟩
    have hterminal : a'.terminal = a.terminal := by
      unfold Kernel.terminal
      rw [current_eq hat', current_eq hat, hpcb]
    refine ⟨h.unmoved.next hat' htop (fun _ => by rw [hpcb]) (fun _ => by rw [hpcb]) hids, ?_, hsettled hat', hpage, ?_⟩
    · rw [hterminal]
      intro hne
      have hframe : a'.frameOf video = a.frameOf video :=
        congrArg (fun P : Paging => P.table (tableIdx video) / 2 ^ 12 * 2 ^ 12) hpaging
      rw [hframe]
      exact h.apart hne
    · rw [hterminal, hcursors, hcursors']
      exact h.cursor
  rcases trap_cases h.settled hs with ⟨ha', hb'⟩ | ⟨ha', hb'⟩
  · subst ha'
    refine ⟨_, hb', hpair _ rfl rfl rfl rfl rfl rfl rfl fun hat' => ?_⟩
    have hcur : (a.resume x).current = a.current := (current_eq hat').trans (current_eq hat).symm
    rw [settled_resume hcur, settled_resume, h.settled]
    rw [current_resume (tss_settled h.settled), hcur, current_settled h.settled]
  · subst ha'
    refine ⟨_, hb', hpair _ rfl rfl rfl rfl rfl rfl rfl fun _ => ?_⟩
    exact settled_of_core (core_resumed (core_entered h.settled x.esp) x)

/-! Work touches descriptors, the clock and memory. -/

theorem settled_doWork (k : Kernel) (w : Work) : (k.doWork w).settled =
    ({ k.settled with rtc := w.rtc } : Kernel).setPcb k.current fun p =>
      { p with available := w.available, fd := w.fd } := by
  have hcur : (k.doWork w).current = k.current := rfl
  have hclobber : (k.doWork w).clobber = k.clobber := by
    unfold Kernel.clobber
    rw [hcur]
    rfl
  unfold Kernel.settled
  rw [hclobber]
  rfl

theorem Paired.worked (h : Paired k S u a b) {w w' : Work} (hw : SameWork u a.terminal.terminalNum w w')
    (hs : step img fs a (.work w) = some a') : ∃ b', step img fs b (.work w') = some b' ∧ Paired k S u a' b' := by
  obtain ⟨c, hat, htop⟩ := h.unmoved.top
  have hcond : (a.cpu.mode = .user ∨ a.cpu.mode = .kernel) ∧ a.keepsInput w = true := by
    simp only [step] at hs
    split at hs
    · next hc => exact hc
    · cases hs
  have ha' : a' = a.doWork w := by
    simp only [step] at hs
    rw [if_pos hcond] at hs
    exact (Option.some.inj hs).symm
  have hkeeps : b.keepsInput w' = a.keepsInput w := by
    unfold Kernel.keepsInput
    rw [current_settled h.settled, pcb_settled h.settled, hw.available]
  have hb' : step img fs b (.work w') = some (b.doWork w') := by
    simp only [step]
    rw [cpu_settled h.settled, hkeeps, if_pos hcond]
  subst ha'
  have hpcb : ∀ {α : Type} (g : Pcb → α), (∀ p : Pcb, g { p with available := w.available, fd := w.fd } = g p) →
      ∀ x, g ((a.doWork w).pcb x) = g (a.pcb x) := fun g hg x => a.pcb_field g hg a.current x
  have hterminal : (a.doWork w).terminal = a.terminal := hpcb Pcb.terminalInfo (fun _ => rfl) a.current
  have hat' : At (a.doWork w).processes S c := by
    rw [doWork_processes hat w]
    exact hat
  refine ⟨_, hb', h.unmoved.next hat' htop (hpcb Pcb.terminalInfo fun _ => rfl)
    (hpcb Pcb.processId fun _ => rfl) rfl, ?_, ?_, hw.page, ?_⟩
  · rw [hterminal]
    exact h.apart
  · rw [settled_doWork, settled_doWork, h.settled, current_settled h.settled, hw.available, hw.fd, hw.rtc]
  · rw [hterminal]
    by_cases hnum : a.terminal.terminalNum = u
    · obtain ⟨hx, hy⟩ := hw.cursor hnum
      rw [hnum]
      apply TimeShared.agree_live
      show CursorPos.mk w'.screenX w'.screenY = CursorPos.mk w.screenX w.screenY
      rw [hx, hy]
    · exact TimeShared.agree_saved hnum (h.cursor.saved hnum)

end Steps
/-! ## A keystroke in one run -/

section Key
variable {img : Image} {fs : Filesystem} {k a a' b : Kernel} {S : Stacks} {c t u temp : ℕ} {e : Entry}

theorem echoed_processes (hon : k.findOnscreenTerminalNum = some t) (hreq : k.requests temp = none) (e : Entry) :
    ((k.interrupted e).echoed t temp).processes = k.preempted e := by
  have hquiet :=
    @handleKeyboard_quiet Image.small (Image.WellFormed.pointers Image.small) (k.interrupted e) e t temp hon hreq
  rcases @handleKeyboard_cases Image.small (Image.WellFormed.pointers Image.small) (k.interrupted e) e temp with
    ⟨-, k₁, hret, hview⟩ | ⟨v, -, hx, -⟩
  · rw [hquiet] at hret
    cases hret
    exact hview
  · cases hreq.symm.trans hx

/-- The process of terminal `u` on top of its stack, if any, is off screen while terminal `t` is shown. -/
structure Shows (k : Kernel) (S : Stacks) (t u : ℕ) : Prop where
  onscreen : k.findOnscreenTerminalNum = some t
  other : u ≠ t
  offscreen : ∀ c, IsTop S c → (k.slot c).terminalInfo.terminalNum = u → (k.slot c).terminalInfo.isOnscreen = 0

/-- What is not terminal `u`'s own is all that a keystroke can change. -/
structure Spared (u : ℕ) (a a' : Kernel) : Prop where
  pcb : a'.pcb = a.pcb
  ids : a'.processIds = a.processIds
  page : ∀ o < fourKb, a'.phys (fakePage u + o) = a.phys (fakePage u + o)
  cursor : TimeShared.Agree u a.terminal.terminalNum a.cursors a'.cursors
  frame : a'.frameOf video = a.frameOf video ∨
    a'.frameOf video = pageTableEntry a.terminal.fakePageAddr 0 / 2 ^ 12 * 2 ^ 12

/-- **A keystroke** leaves terminal `u` alone. -/
theorem key_spares (hon : a.findOnscreenTerminalNum = some t) (hu : u ≠ t) (hpage : a.terminal.fakePageAddr ≠ 0)
    (hoffscreen : a.terminal.terminalNum = u → a.terminal.isOnscreen = 0)
    (hapart : a.terminal.terminalNum ≠ u → a.frameOf video ≠ fakePage u) (hreq : a.requests temp = none)
    (hs : step img fs a (.key e temp) = some a') : Spared u a a' := by
  obtain ⟨hf, rfl⟩ := key_quiet hs hon hreq
  have hnow := terminalNow_interrupted hf
  have hfields : ∀ k₁ k₂ : Kernel, k₁.core = k₂.core → k₁.pcb = k₂.pcb ∧ k₁.processIds = k₂.processIds ∧
      k₁.frameOf video = k₂.frameOf video := by
    intro k₁ k₂ hcore
    rw [← Kernel.core_pcb, ← Kernel.core_processIds, ← Kernel.core_frameOf, hcore]
    exact ⟨rfl, rfl, rfl⟩
  by_cases hoff : a.terminal.isOnscreen = 0
  · have hback := @echoed_offscreen (a.interrupted e) t temp (by rw [hnow]; exact hoff) (by rw [hnow]; exact hpage)
    obtain ⟨hcore, ⟨p, hcursors⟩, hphys⟩ := hback
    rw [hnow] at hcore hcursors
    obtain ⟨hpcb, hids, hframe⟩ :=
      hfields _ (((a.interrupted e).setAttrib (color t)).setVideo a.terminal.fakePageAddr) hcore
    generalize (a.interrupted e).echoed t temp = k₁ at hcursors hphys hpcb hids hframe
    refine ⟨hpcb, hids, fun o ho => hphys _ video_apart, ?_, Or.inr ?_⟩
    · show TimeShared.Agree u a.terminal.terminalNum a.cursors k₁.cursors
      rw [hcursors]
      by_cases hnum : a.terminal.terminalNum = u
      · rw [hnum]
        exact TimeShared.agree_live (TimeShared.handOn_back hu _ _)
      · refine TimeShared.agree_saved hnum ?_
        rw [TimeShared.handOn_saved hu]
        exact TimeShared.handOn_saved (Ne.symm hnum) a.cursors t
    · exact hframe.trans (congrArg (fun w => w / 2 ^ 12 * 2 ^ 12) (kernelEntry_setVideo _ _))
  · have hhere := @echoed_onscreen (a.interrupted e) t temp (by rw [hnow]; exact hoff)
    obtain ⟨hcore, ⟨p, hcursors⟩, hphys⟩ := hhere
    obtain ⟨hpcb, hids, hframe⟩ := hfields _ ((a.interrupted e).setAttrib (color t)) hcore
    generalize (a.interrupted e).echoed t temp = k₁ at hcursors hphys hpcb hids hframe
    have hne : a.terminal.terminalNum ≠ u := fun hnum => hoff (hoffscreen hnum)
    refine ⟨hpcb, hids, fun o ho => ?_, TimeShared.agree_saved hne ?_, Or.inl hframe⟩
    · exact hphys _ (frame_apart (k := a) (hapart hne) ho)
    · show k₁.cursors.saved u = a.cursors.saved u
      rw [hcursors]
      rfl

theorem key_back (h : At a.processes S c) (hon : a.findOnscreenTerminalNum = some t) (hreq : a.requests temp = none)
    (hs : step img fs a (.key e temp) = some a') : At a'.processes S c := by
  obtain ⟨hf, rfl⟩ := key_quiet hs hon hreq
  have he := entered_interrupt h (entryOn_of_fits h hf).1
  have hprocesses : (((a.interrupted e).echoed t temp).resume a.cpu).processes = (a.preempted e).resume a.cpu :=
    congrArg (Processes.resume · a.cpu) (echoed_processes hon hreq e)
  rw [hprocesses]
  exact h.back (h.table_entered he) (h.contexts_entered he c) (h.shown_entered he) he.ids he.esp0

theorem Unmoved.key (h : Unmoved k S a) (hw : Shows k S t u)
    (hapart : a.terminal.terminalNum ≠ u → a.frameOf video ≠ fakePage u)
    (hreq : a.requests temp = none) (hs : step img fs a (.key e temp) = some a') :
    Spared u a a' ∧ Unmoved k S a' ∧ a'.terminal = a.terminal ∧
      (a'.terminal.terminalNum ≠ u → a'.frameOf video ≠ fakePage u) := by
  obtain ⟨c, hat, htop⟩ := h.top
  have hon : a.findOnscreenTerminalNum = some t := h.onscreen.trans hw.onscreen
  have hinfo : a.terminal = (k.slot c).terminalInfo := (terminal_eq hat).trans (h.terminals _)
  have hspared : Spared u a a' := by
    refine key_spares hon hw.other (terminal_page_ne_zero hat htop) (fun hnum => ?_) hapart hreq hs
    rw [hinfo] at hnum ⊢
    exact hw.offscreen c htop hnum
  have hat' := key_back hat hon hreq hs
  have hterminal : a'.terminal = a.terminal := by
    unfold Kernel.terminal
    rw [current_eq hat', current_eq hat, hspared.pcb]
  refine ⟨hspared, h.next hat' htop (fun _ => by rw [hspared.pcb]) (fun _ => by rw [hspared.pcb]) hspared.ids,
    hterminal, ?_⟩
  rw [hterminal]
  intro hne
  rcases hspared.frame with hx | hx
  · rw [hx]
    exact hapart hne
  · obtain ⟨v, hv, hvnum, hvpage⟩ := terminal_page hat htop
    rw [hvnum] at hne
    rw [hx, hvpage, frame_fakePage hv]
    exact fakePage_ne hne

end Key
/-! ## A keystroke in two runs -/

section Keys
variable {img : Image} {fs : Filesystem} {k a a' b : Kernel} {S : Stacks} {c t u temp : ℕ} {e : Entry}

theorem core_echoed (h : b.settled = a.settled) (hf : a.fits e = true) (hpage : a.terminal.fakePageAddr ≠ 0) :
    ∀ temp', ((b.interrupted e).echoed t temp').core = ((a.interrupted e).echoed t temp).core := by
  intro temp'
  have hnow := terminalNow_interrupted hf
  have hnow' : (b.interrupted e).terminalNow = a.terminal := by
    rw [terminalNow_interrupted (by rw [fits_settled h]; exact hf), terminal_settled h]
  have hcore : ((b.interrupted e).setAttrib (color t)).core = ((a.interrupted e).setAttrib (color t)).core := by
    rw [Kernel.core_setAttrib, Kernel.core_setAttrib, Kernel.core_interrupted, Kernel.core_interrupted, h]
  by_cases hoff : a.terminal.isOnscreen = 0
  · have hback :=
      (@echoed_offscreen (a.interrupted e) t temp (by rw [hnow]; exact hoff) (by rw [hnow]; exact hpage)).core
    have hback' :=
      (@echoed_offscreen (b.interrupted e) t temp' (by rw [hnow']; exact hoff) (by rw [hnow']; exact hpage)).core
    rw [hnow] at hback
    rw [hnow'] at hback'
    rw [hback, hback', hcore]
  · have hhere := (@echoed_onscreen (a.interrupted e) t temp (by rw [hnow]; exact hoff)).core
    have hhere' := (@echoed_onscreen (b.interrupted e) t temp' (by rw [hnow']; exact hoff)).core
    rw [hhere, hhere', hcore]

theorem Paired.key (h : Paired k S u a b) (hw : Shows k S t u) (hreq : a.requests temp = none)
    (hreq' : b.requests temp = none)
    (hs : step img fs a (.key e temp) = some a') :
    ∃ b', step img fs b (.key e temp) = some b' ∧ Followed k S u a' b' := by
  obtain ⟨c, hat, htop⟩ := h.unmoved.top
  have hon : a.findOnscreenTerminalNum = some t := h.unmoved.onscreen.trans hw.onscreen
  have hon' : b.findOnscreenTerminalNum = some t := by
    unfold Kernel.findOnscreenTerminalNum at hon ⊢
    rw [pcb_settled h.settled, processIds_settled h.settled]
    exact hon
  obtain ⟨hf, ha'⟩ := key_quiet hs hon hreq
  have hcond : a.cpu.mode ≠ .wild ∧ temp < 256 := by
    simp only [step] at hs
    split at hs
    · next hc => exact ⟨hc.1, hc.2.2.1⟩
    · cases hs
  obtain ⟨b', hb'⟩ : ∃ b', step img fs b (.key e temp) = some b' := by
    rw [step_key (by rw [cpu_settled h.settled]; exact hcond.1)
      (by rw [fits_settled h.settled]; exact hf) hcond.2 (Or.inl hreq')]
    exact ⟨_, rfl⟩
  obtain ⟨hspared, hunmoved, hterminal, hapart⟩ := h.unmoved.key hw h.apart hreq hs
  have hspared' : Spared u b b' := by
    have hframe : b.frameOf video = a.frameOf video :=
      congrArg (fun P : Paging => P.table (tableIdx video) / 2 ^ 12 * 2 ^ 12) (paging_settled h.settled)
    have hinfo : a.terminal = (k.slot c).terminalInfo := (terminal_eq hat).trans (h.unmoved.terminals _)
    refine key_spares hon' hw.other ?_ (fun hnum => ?_) ?_ hreq' hb'
    · rw [terminal_settled h.settled]
      exact terminal_page_ne_zero hat htop
    · rw [terminal_settled h.settled, hinfo] at hnum ⊢
      exact hw.offscreen c htop hnum
    · rw [terminal_settled h.settled, hframe]
      exact h.apart
  have hpage : ∀ o < fourKb, b'.phys (fakePage u + o) = a'.phys (fakePage u + o) := by
    intro o ho
    rw [hspared.page o ho, hspared'.page o ho]
    exact h.page o ho
  refine ⟨b', hb', hpage, Or.inr ⟨hunmoved, hapart, ?_, hpage, ?_⟩⟩
  · obtain ⟨-, hk'⟩ := key_quiet hb' hon' hreq'
    rw [hk', ha', cpu_settled h.settled]
    exact settled_of_core (core_resumed (core_echoed h.settled hf (terminal_page_ne_zero hat htop) temp) _)
  · have hcursor := hspared'.cursor
    rw [terminal_settled h.settled] at hcursor
    rw [hterminal]
    exact (hspared.cursor.symm.trans h.cursor).trans hcursor

theorem handled_fields (k : Kernel) (e : Entry) (x : UInt8) (page : ℕ) (c : Cpu) (f : ℕ → Frame) :
    ({ (((k.interrupted e).setAttrib x).setVideo page).resume c with frames := f } : Kernel) =
      { k with
        frames := f, cpu := c, attrib := x, pageTbl :=
          Function.update k.pageTbl (tableIdx video) (pageTableEntry page 0)
        pageTblVmem := Function.update k.pageTblVmem (tableIdx userPage) (pageTableEntry page 1) } := rfl

theorem frames_handled (k : Kernel) (e : Entry) (x : UInt8) (page : ℕ) (c : Cpu) :
    ((((k.interrupted e).setAttrib x).setVideo page).resume c).frames = Function.update k.clobber e.handler
      (.interrupt k.cpu) := rfl

theorem tss_handled (k : Kernel) (e : Entry) (x : UInt8) (page : ℕ) (c : Cpu) :
    ((((k.interrupted e).setAttrib x).setVideo page).resume c).tss = k.tss := rfl

theorem cpu_handled (k : Kernel) (e : Entry) (x : UInt8) (page : ℕ) (c : Cpu) :
    ((((k.interrupted e).setAttrib x).setVideo page).resume c).cpu = c := rfl

theorem current_congr (hcpu : b.cpu = a.cpu) (htss : b.tss = a.tss) : b.current = a.current := by
  unfold Kernel.current Kernel.entryEsp
  rw [hcpu, htss]

theorem clobber_congr (hcpu : b.cpu = a.cpu) (htss : b.tss = a.tss) {f : ℕ → Frame} (hframes : b.frames = f) :
    b.clobber = fun z => if getPcb z = a.current ∧ z < a.tss.esp0 then .lost else f z := by
  unfold Kernel.clobber
  rw [current_congr hcpu htss, htss, hframes]

theorem settled_inserted (h : At a.processes S c) (hb : a.Background) (hi : a.Inconspicuous)
    (hon : a.findOnscreenTerminalNum = some t) (hreq : a.requests temp = none)
    (hs : step img fs a (.key e temp) = some a') : a'.settled = a.settled := by
  obtain ⟨hf, ha'⟩ := key_quiet hs hon hreq
  have hnow := terminalNow_interrupted hf
  have hpage := terminal_page_ne_zero h (isTop_of_background h hb)
  have hback :=
    (@echoed_offscreen (a.interrupted e) t temp (by rw [hnow]; exact hb.offscreen) (by rw [hnow]; exact hpage)).core
  rw [hnow, Kernel.core_setAttrib, Kernel.core_interrupted] at hback
  have hcore :
    a'.core = (((a.settled.interrupted e).setAttrib (color t)).setVideo a.terminal.fakePageAddr).resume a.cpu := by
    rw [ha', Kernel.core_resume, hback]
  have hcur : a.current = getPcbPtr c := current_eq h
  have hhandler : getPcb e.handler = a.current ∧ e.handler < a.tss.esp0 := by
    have hentry := (entryOn_of_fits h hf).1.handler
    have hesp0 : a.tss.esp0 = stackTop c - 4 ∨ a.tss.esp0 = stackTop c := h.onSlot.esp0
    rw [hcur]
    exact ⟨hentry.1, by have := hentry.2; omega⟩
  have hframes : ∀ f : Frame, (fun z => if getPcb z = a.current ∧ z < a.tss.esp0 then Frame.lost
      else Function.update a.settled.clobber e.handler f z) = a.clobber := by
    intro f
    funext z
    by_cases hz : getPcb z = a.current ∧ z < a.tss.esp0
    · rw [if_pos hz]
      exact (if_pos hz).symm
    · have hne : z ≠ e.handler := fun hx => hz (hx ▸ hhandler)
      rw [if_neg hz, Function.update_of_ne hne]
      exact a.clobber_idem z
  have htbl :
    Function.update a.settled.pageTbl (tableIdx video) (pageTableEntry a.terminal.fakePageAddr 0) = a.pageTbl :=
    Function.update_eq_self_iff.mpr hi.kernelEntry.symm
  have hvid : Function.update a.settled.pageTblVmem (tableIdx userPage)
    (pageTableEntry a.terminal.fakePageAddr 1) = a.pageTblVmem :=
    Function.update_eq_self_iff.mpr hi.vidmapEntry.symm
  have hattrib := hi.attrib t hon
  have hclobber : ((((a.settled.interrupted e).setAttrib (color t)).setVideo a.terminal.fakePageAddr).resume
    a.cpu).clobber = a.clobber := by
    have htss := (tss_handled a.settled e (color t) a.terminal.fakePageAddr a.cpu).trans (settled_tss a)
    rw [clobber_congr (cpu_handled _ _ _ _ _) htss (frames_handled _ _ _ _ _)]
    exact hframes _
  rw [settled_core hcore, hclobber, handled_fields, htbl, hvid, ← hattrib]
  rfl

theorem Paired.inserted (h : Paired k S u a b) (hw : Shows k S t u) (hb : a.Background) (hi : a.Inconspicuous)
    (hreq : a.requests temp = none) (hs : step img fs a (.key e temp) = some a') : Paired k S u a' b := by
  obtain ⟨c, hat, htop⟩ := h.unmoved.top
  have hon : a.findOnscreenTerminalNum = some t := h.unmoved.onscreen.trans hw.onscreen
  obtain ⟨hspared, hunmoved, hterminal, hapart⟩ := h.unmoved.key hw h.apart hreq hs
  refine ⟨hunmoved, hapart, ?_, fun o ho => ?_, ?_⟩
  · rw [settled_inserted hat hb hi hon hreq hs]
    exact h.settled
  · rw [hspared.page o ho]
    exact h.page o ho
  · rw [hterminal]
    exact hspared.cursor.symm.trans h.cursor

end Keys
/-! ## Runs -/

section Run
variable {img : Image} {fs : Filesystem} {k a a' b : Kernel} {S : Stacks} {t u : ℕ} {s s' : Twin} {ev : TwinEvent}

/-- The run without the inserted keystrokes gets as far. -/
def Tracked (k : Kernel) (S : Stacks) (u : ℕ) (s : Twin) : Prop :=
  ∃ b, s.plain = some b ∧ Followed k S u s.typed b

theorem Paired.both (h : Paired k S u a b) (hw : Shows k S t u) {ev : Event} (hok : a.Ordinary ev)
    (hok' : b.Ordinary ev)
    (hs : step img fs a ev = some a') : ∃ b', step img fs b ev = some b' ∧ Followed k S u a' b' := by
  cases ev with
  | tick e => exact h.tick hs
  | key e temp => exact h.key hw hok hok' hs
  | output x => exact h.output hs
  | trap x => exact h.trap hs
  | execute e command => cases hok
  | halt e status => cases hok
  | exception e vector => cases hok
  | work w => cases hok

theorem Tracked.next (h : Tracked k S u s) (hw : Shows k S t u) (hok : unnoticed u s ev)
    (hs : twinStep img fs s ev = some s') : Tracked k S u s' := by
  obtain ⟨a, p⟩ := s
  obtain ⟨b, rfl, hpage, hwild | hpaired⟩ := h
  · cases ev with
    | both ev => simp only [twinStep, step_wild hwild, Option.map_none, reduceCtorEq] at hs
    | worked w w' => simp only [twinStep, step_wild hwild, Option.map_none, reduceCtorEq] at hs
    | inserted e temp => simp only [twinStep, step_wild hwild, Option.map_none, reduceCtorEq] at hs
  · cases ev with
    | both ev =>
      obtain ⟨a', ha', rfl⟩ := Option.map_eq_some_iff.mp hs
      obtain ⟨b', hb', hfollowed⟩ := hpaired.both hw hok.1 (hok.2 b rfl) ha'
      exact ⟨b', hb', hfollowed⟩
    | worked w w' =>
      obtain ⟨a', ha', rfl⟩ := Option.map_eq_some_iff.mp hs
      obtain ⟨b', hb', hpaired'⟩ := hpaired.worked hok ha'
      exact ⟨b', hb', hpaired'.followed⟩
    | inserted e temp =>
      obtain ⟨a', ha', rfl⟩ := Option.map_eq_some_iff.mp hs
      obtain ⟨hb, hreq, hi⟩ := hok
      exact ⟨b, rfl, (hpaired.inserted hw hb hi hreq ha').followed⟩

end Run
section Start
variable {img : Image} {k : Kernel} {S : Stacks} {c p t u : ℕ}

theorem top_unique (h : At k.processes S c) (hc : IsTop S c) (hp : IsTop S p)
    (hnum : (k.slot p).terminalInfo.terminalNum = (k.slot c).terminalInfo.terminalNum) : p = c := by
  obtain ⟨t, l, hl⟩ := hc.cons
  obtain ⟨u, l', hl'⟩ := hp.cons
  have hc' : c ∈ S t := by
    rw [hl]
    exact List.mem_cons_self ..
  have hp' : p ∈ S u := by
    rw [hl']
    exact List.mem_cons_self ..
  have ht := (h.table.slot t c hc').terminalNum
  have hu := (h.table.slot u p hp').terminalNum
  rw [k.processes_info h.lt, Pcb.info_terminalNum] at ht
  rw [k.processes_info (h.table.lt u p hp').2, Pcb.info_terminalNum] at hu
  obtain rfl : u = t := hu.symm.trans (hnum.trans ht)
  exact (List.cons.inj (hl'.symm.trans hl)).1

theorem shows_of_background (h : At k.processes S c) (hb : k.Background) :
    ∃ t, Shows k S t k.terminal.terminalNum := by
  obtain ⟨t, hon⟩ := onscreen_some h
  refine ⟨t, hon, fun hx => hb.elsewhere (hx ▸ hon), fun p hp hnum => ?_⟩
  have htop := isTop_of_background h hb
  have hinfo := terminal_eq h
  rw [hinfo] at hnum
  obtain rfl := top_unique h htop hp hnum
  have hoff := hb.offscreen
  rwa [hinfo] at hoff

theorem paired_start (h : At k.processes S c) (hb : k.Background) : Paired k S k.terminal.terminalNum k k where
  unmoved := ⟨⟨c, h, isTop_of_background h hb⟩, fun _ => rfl, fun _ => rfl, rfl⟩
  apart hne := absurd rfl hne
  settled := rfl
  page _ _ := rfl
  cursor := TimeShared.agree_live rfl

theorem Followed.sameOutput {a b : Kernel} (h : Followed k S u a b) : SameOutput u a b := by
  refine ⟨h.1, fun hm hnum => ?_⟩
  have hpaired := h.2.resolve_left hm
  have hcursor := hpaired.cursor
  rw [hnum] at hcursor
  have hpaging := paging_settled hpaired.settled
  have htbl : b.pageTbl = a.pageTbl := congrArg Paging.table hpaging
  have hvid : b.pageTblVmem = a.pageTblVmem := congrArg Paging.vidmap hpaging
  unfold Kernel.display
  rw [htbl, hvid, hcursor.live, attrib_settled hpaired.settled]

end Start

/-- **Typing goes unnoticed by a process off screen**, exactly as long as the colour in force is that of the
terminal shown. -/
theorem typing_unnoticed (img : Image) (boot : img.Bootable) {k₀ k : Kernel}
    (h0 : Started img (Image.WellFormed.pointers img) k₀)
    (h : Reaches (step img (Image.WellFormed.pointers img)) anyStep k₀ k) (hb : k.Background) :
    (∀ e scanCode k', k.requests scanCode = none →
      step img (Image.WellFormed.pointers img) k (.key e scanCode) = some k' →
      (k'.display = k.display ↔ k.Inconspicuous)) ∧
    ∀ s, Reaches (twinStep img (Image.WellFormed.pointers img)) (unnoticed k.terminal.terminalNum) ⟨k, some k⟩ s →
      ∃ b, s.plain = some b ∧ SameOutput k.terminal.terminalNum s.typed b := by
  have hmode : k.cpu.mode ≠ .wild := by
    rcases hb.mode with hm | hm <;> rw [hm] <;> decide
  obtain ⟨S, c, hat⟩ := (reached_at boot h0 h).resolve_left hmode
  obtain ⟨t, hshows⟩ := shows_of_background hat hb
  refine ⟨fun e scanCode k' hreq hs => display_kept_iff hat hb hreq hs, fun s hrun => ?_⟩
  have hstart : Tracked k S k.terminal.terminalNum ⟨k, some k⟩ := ⟨k, rfl, (paired_start hat hb).followed⟩
  obtain ⟨b, hplain, hfollowed⟩ := hrun.invariant hstart fun _ _ _ htracked hok hs => htracked.next hshows hok hs
  exact ⟨b, hplain, hfollowed.sameOutput⟩

/-- The first shell runs off screen when Alt is released, which changes the colour it writes in. -/
theorem release_changes_colour :
    ∃ k e k', Reaches (step Image.small (Image.WellFormed.pointers Image.small)) anyStep firstShell k ∧
    k.Background ∧ k.requests 0xB8 = none ∧ step Image.small (Image.WellFormed.pointers Image.small) k
      (.key e 0xB8) = some k' ∧
    k.attrib = color 0 ∧ k'.attrib = color 1 ∧ k'.Background ∧ k'.Inconspicuous := by
  obtain ⟨a, b, c, k, h⟩ := second_terminal_opens
  have hback : ∀ {k : Kernel}, Stage k (stacksOf [0] [1] []) 0 1 → k.Background := by
    intro k hk
    obtain ⟨hnum, -, hon⟩ := terminal_of_mem hk.here (t := 0) (by decide)
    refine ⟨Or.inl hk.mode, ?_, ?_⟩
    · rw [hon]
      by_contra hne
      exact absurd (hk.shown.only 0 (hk.used.mpr (by decide)) hne) (by decide)
    · rw [onscreen_of_onlyShown hk.here hk.shown (t := 1) (by decide), hnum]
      decide
  have hb := hback h.stage
  have hattrib : k.attrib = color 0 := by
    have hticked := h.second.ticked h.back h.stage
    obtain ⟨hnum, -, -⟩ := terminal_of_mem h.stage.here (t := 0) (by decide)
    have hinfo : (k.slot 0).terminalInfo = (c.slot 0).terminalInfo := by rw [hticked, slot_ticked]
    rw [terminal_eq h.stage.here, hinfo] at hnum
    rw [hticked, attrib_ticked, hnum]
  have hreq : k.requests 0xB8 = none := by
    unfold Kernel.requests
    rw [h.keys]
    decide
  obtain ⟨k', hs, -, h', -⟩ := @Stage.types Image.small k _ 0 1 0xB8 (Image.WellFormed.pointers Image.small) h.stage
    (by decide) hreq (by rw [h.keys]; decide)
  have hdisplay := display_after h.stage.here hb
    (onscreen_of_onlyShown h.stage.here h.stage.shown (t := 1) (by decide)) hreq hs
  unfold Kernel.display at hdisplay
  rw [Display.mk.injEq] at hdisplay
  obtain ⟨htbl, hvid, -, hattrib'⟩ := hdisplay
  have hpage : k'.terminal.fakePageAddr = k.terminal.fakePageAddr :=
    (terminal_of_mem h'.here (t := 0) (by decide)).2.1.trans
      (terminal_of_mem h.stage.here (t := 0) (by decide)).2.1.symm
  refine ⟨k, _, k', h.reaches.mono fun _ _ _ => trivial, hb, hreq, hs, hattrib, hattrib', hback h',
    fun t ht => ?_, ?_, ?_⟩
  · rw [onscreen_of_onlyShown h'.here h'.shown (t := 1) (by decide), Option.some.injEq] at ht
    rw [hattrib', ht]
  · rw [htbl, hpage]
  · rw [hvid, hpage]

theorem typing_unnoticed_inconspicuous :
    ∃ k, Reaches (step Image.small (Image.WellFormed.pointers Image.small)) anyStep firstShell k ∧
    k.Background ∧ k.Inconspicuous ∧
    (∀ e scanCode k', k.requests scanCode = none →
      step Image.small (Image.WellFormed.pointers Image.small) k (.key e scanCode) = some k' → k'.display = k.display) ∧
    ∀ s, Reaches (twinStep Image.small (Image.WellFormed.pointers Image.small))
      (unnoticed k.terminal.terminalNum) ⟨k, some k⟩ s →
      ∃ b, s.plain = some b ∧ SameOutput k.terminal.terminalNum s.typed b := by
  obtain ⟨k, e, k', hreach, -, -, hs, -, -, hb, hi⟩ := release_changes_colour
  have hreach' := hreach.tail trivial hs
  obtain ⟨hone, hrun⟩ := typing_unnoticed Image.small Image.small_bootable firstShell_started hreach' hb
  exact ⟨k', hreach', hb, hi, fun e' scanCode k'' hreq hs' => (hone e' scanCode k'' hreq hs').mpr hi, hrun⟩

/-- Not every keystroke is unnoticed. -/
theorem typing_noticed :
    ¬ ∀ (img : Image), img.Bootable → ∀ k₀ k e scanCode k', Started img (Image.WellFormed.pointers img) k₀ →
      Reaches (step img (Image.WellFormed.pointers img)) anyStep k₀ k → k.Background → k.requests scanCode = none →
      step img (Image.WellFormed.pointers img) k (.key e scanCode) = some k' → k'.display = k.display := by
  intro hall
  obtain ⟨k, e, k', hreach, hb, hreq, hs, hbefore, hafter, -, -⟩ := release_changes_colour
  have hsame := hall Image.small Image.small_bootable firstShell k e 0xB8 k' firstShell_started hreach hb hreq hs
  have hattrib : k'.attrib = k.attrib := congrArg Display.attrib hsame
  rw [hbefore, hafter] at hattrib
  exact absurd hattrib (by decide)

end Kernel391
