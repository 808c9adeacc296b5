import Kernel391.Process.UserPointers
import Kernel391.System.CallReturn
import Kernel391.System.CalmRuns

/-! The stores of the system calls that are given an address. Nothing checks it, so a call can
store into the PCB of any process. The transition system gets an event for one such store, and
the runs whose stores all stay in the pages of the program are runs without that event. -/
namespace Kernel391
open Kernel391.Foundations
set_option autoImplicit false

/-! ## A byte of a PCB -/

/-- Replace byte `i` of a little-endian word. -/
def setWordByte (w i : ℕ) (b : UInt8) : ℕ := w % 256 ^ i + b.toNat * 256 ^ i + w / 256 ^ (i + 1) * 256 ^ (i + 1)

def setIntByte (z : ℤ) (i : ℕ) (b : UInt8) : ℤ := int32 (setWordByte (uint32 z) i b)

/-- The bytes of a `file_descriptor_t`. A table pointer with a byte replaced points to no table. -/
def FileDescriptor.setByte (d : FileDescriptor) (o : ℕ) (b : UInt8) : Option FileDescriptor :=
  if o < 4 then none
  else if o < 8 then some { d with inode := setIntByte d.inode (o - 4) b }
  else if o < 12 then some { d with filePos := setIntByte d.filePos (o - 8) b }
  else some { d with flags := setIntByte d.flags (o - 12) b }

/-- The bytes of a `pcb_t` in the order of its fields. Bytes 5 to 7, 22 and 23 are padding. -/
def Pcb.setByte (p : Pcb) (o : ℕ) (b : UInt8) : Option Pcb :=
  if o < 4 then some { p with processId := setWordByte p.processId o b }
  else if o = 4 then some { p with isActive := b.toNat }
  else if o < 8 then some p
  else if o < 12 then some { p with scheduleEsp := setWordByte p.scheduleEsp (o - 8) b }
  else if o < 16 then some { p with scheduleEbp := setWordByte p.scheduleEbp (o - 12) b }
  else if o < 20 then some { p with parent := setWordByte p.parent (o - 16) b }
  else if o = 20 then some { p with terminalInfo := { p.terminalInfo with isOnscreen := b.toNat } }
  else if o = 21 then some { p with terminalInfo := { p.terminalInfo with terminalNum := b.toNat } }
  else if o < 24 then some p
  else if o < 28 then
    some { p with terminalInfo :=
      { p.terminalInfo with userPageAddr := setWordByte p.terminalInfo.userPageAddr (o - 24) b } }
  else if o < 32 then
    some { p with terminalInfo :=
      { p.terminalInfo with fakePageAddr := setWordByte p.terminalInfo.fakePageAddr (o - 28) b } }
  else if o < 36 then some { p with esp0 := setWordByte p.esp0 (o - 32) b }
  else if o < 40 then some { p with haltEbp := setWordByte p.haltEbp (o - 36) b }
  else if o < 168 then some { p with args := Function.update p.args (o - 40) b }
  else if o < 200 then
    some { p with available :=
      Function.update p.available ((o - 168) / 4) (setWordByte (p.available ((o - 168) / 4)) ((o - 168) % 4) b) }
  else if o < pcbBytes then
    ((p.fd ((o - 200) / 16)).setByte ((o - 200) % 16) b).map fun d =>
      { p with fd := Function.update p.fd ((o - 200) / 16) d }
  else none

/-! ## The event -/

/-- The pages a program may write: its own 4 MB page and the page behind it that `vidmap` maps. -/
def OwnPages (a : ℕ) : Prop := programAddr ≤ a ∧ a < vmemAddr + 4096

instance (a : ℕ) : Decidable (OwnPages a) := inferInstanceAs (Decidable (_ ∧ _))

/-- The byte at an address is stored, by the program in its own pages, by a system call also elsewhere.
Nothing is known of a page that is not present and of what else the kernel has in memory: only stores
into the PCBs are followed. -/
def Kernel.store (k : Kernel) (a : ℕ) (b : UInt8) : Option Kernel :=
  if OwnPages a then
    if k.cpu.mode = .user ∨ k.cpu.mode = .kernel then
      (k.translate a).map fun x => { k with phys := Function.update k.phys x b }
    else none
  else if k.cpu.mode = .kernel ∧ k.translate a = some a ∧ ∃ p < maxProcesses, getPcb a = getPcbPtr p then
    ((k.pcb (getPcb a)).setByte (a - getPcb a) b).map fun p => k.setPcb (getPcb a) fun _ => p
  else none

inductive StoreEvent
  | event (ev : Event)
  | store (a : ℕ) (b : UInt8)

def storeStep (img : Image) (fs : Filesystem) (k : Kernel) : StoreEvent → Option Kernel
  | .event ev => step img fs k ev
  | .store a b => k.store a b

/-- The stores go where the program may write. -/
def StoreEvent.Inside : StoreEvent → Prop
  | .event _ => True
  | .store a _ => OwnPages a

/-! ## Stores inside the pages -/

section Inside
variable {img : Image} {fs : Filesystem} {k k' : Kernel} {a : ℕ} {b : UInt8} {ev : StoreEvent}

def Kernel.storeWork (k : Kernel) (x : ℕ) (b : UInt8) : Work :=
  { phys := Function.update k.phys x b, screenX := k.screenX, screenY := k.screenY, keyboard := k.keyboard, rtc := k.rtc
    ports := k.ports, available := (k.pcb k.current).available, fd := (k.pcb k.current).fd }

theorem doWork_storeWork (x : ℕ) : k.doWork (k.storeWork x b) = { k with phys := Function.update k.phys x b } := by
  unfold Kernel.doWork Kernel.storeWork Kernel.setPcb
  simp only [Function.update_eq_self]

theorem store_inside (h : OwnPages a) (hs : k.store a b = some k') : ∃ w, step img fs k (.work w) = some k' := by
  unfold Kernel.store at hs
  rw [if_pos h] at hs
  split at hs
  · next hm =>
    obtain ⟨x, -, rfl⟩ := Option.map_eq_some_iff.mp hs
    refine ⟨k.storeWork x b, ?_⟩
    rw [← doWork_storeWork]
    exact if_pos ⟨hm, decide_eq_true fun hz => hz⟩
  · cases hs

theorem storeStep_inside (h : ev.Inside) (hs : storeStep img fs k ev = some k') : ∃ e, step img fs k e = some k' := by
  cases ev with
  | event e => exact ⟨e, hs⟩
  | store a b =>
    obtain ⟨w, hw⟩ := store_inside h hs
    exact ⟨.work w, hw⟩

/-- A run whose stores stay inside the pages is a run of the system without stores. -/
theorem reaches_inside {ok : Kernel → Prop} (hrun : Reaches (storeStep img fs) (fun s e => ok s ∧ e.Inside) k k') :
    Reaches (step img fs) (fun s _ => ok s) k k' :=
  hrun.carry fun _ _ _ hok hs => by
    obtain ⟨e, he⟩ := storeStep_inside hok.2 hs
    exact ⟨e, hok.1, he⟩

theorem reaches_storeless {ok : Kernel → Prop} (hrun : Reaches (step img fs) (fun s _ => ok s) k k') :
    Reaches (storeStep img fs) (fun s e => ok s ∧ e.Inside) k k' :=
  hrun.carry fun _ e _ hok hs => ⟨.event e, ⟨hok, trivial⟩, hs⟩

end Inside

/-! ## The return, with stores -/

/-- **`halt` undoes `execute`**, whatever the child, the other processes and the terminals do in between, in every run
whose system calls store only where their program may write. -/
theorem halt_undoes_execute {img : Image} (boot : img.Bootable) {k₀ k k₁ k₂ k₃ k' : Kernel} {e e' : Entry}
    {command : List UInt8} {ev : Event} {p c status : ℕ} (h0 : Started img (Image.WellFormed.pointers img) k₀)
    (hrun : Reaches (storeStep img (Image.WellFormed.pointers img)) (fun _ ev => ev.Inside) k₀ k)
    (hcall : step img (Image.WellFormed.pointers img) k (.execute e command) = some k₁)
    (hgone : execute img (Image.WellFormed.pointers img) (k.enter e.regs.esp) e k.cpu command = .gone k₁)
    (hp : p < maxProcesses) (hcaller : k.current = getPcbPtr p) (hc : c < maxProcesses)
    (hchild : k₁.current = getPcbPtr c)
    (hlife : Reaches (storeStep img (Image.WellFormed.pointers img)) (fun s ev => s.inUse c ∧ ev.Inside) k₁ k₂)
    (halive : k₂.inUse c) (hturn : k₂.current = getPcbPtr c)
    (hend : Ending img (Image.WellFormed.pointers img) k₂ ev k' e' status)
    (hexit : step img (Image.WellFormed.pointers img) k₂ ev = some k₃) : Undone k k₂ k₃ p c := by
  have hrun' : Reaches (step img (Image.WellFormed.pointers img)) anyStep k₀ k :=
    @reaches_inside _ _ _ _ (fun _ => True) (hrun.mono fun _ _ hin => ⟨trivial, hin⟩)
  have hlife' := reaches_inside hlife
  exact called_undone boot h0 hrun' hcall hgone hp hcaller hc hchild hlife' halive hturn hend hexit

section Stage
variable {img : Image} {k k' : Kernel} {S : Stacks} {c o x : ℕ} {b : UInt8}

theorem Stage.stores (h : Stage k S c o) : Stage { k with phys := Function.update k.phys x b } S c o :=
  ⟨h.here, h.mode, h.marked, h.shown, h.only⟩

theorem store_started {e : Entry} {command : List UInt8} {a : ℕ} (ha : a < fourMb) (hm : k'.cpu.mode = .user)
    (hgone : execute img (Image.WellFormed.pointers img) (k.enter e.regs.esp) e k.cpu command = .gone k') :
    ∃ x, k'.store (programAddr + a) b = some { k' with phys := Function.update k'.phys x b } := by
  obtain ⟨p, hp, hpaging⟩ := paging_execute hgone
  obtain ⟨hidx, hoff⟩ := program_index ha
  have hentry : k'.pageDir programIdx = programEntry (programFrame p) :=
    (congrArg (fun P => P.directory programIdx) hpaging).trans (Paging.setProgram_entry ..)
  have hown : OwnPages (programAddr + a) := by
    unfold OwnPages
    simp only [programAddr, vmemAddr, fourMb] at ha ⊢
    omega
  refine ⟨programFrame p + a, ?_⟩
  unfold Kernel.store
  rw [if_pos hown, if_pos (Or.inl hm), (walk_entry hentry hp.lt hidx).2, hoff, Option.map_some]

end Stage

/-- A shell that stored into its page, lost the processor to a tick and printed a letter exits. -/
theorem halt_undoes_execute_interlude : ∃ k k₁ k₁' k₂ k₃,
    step Image.small (Image.WellFormed.pointers Image.small) k (.execute (k.entry 64) shell) = some k₁ ∧
    k₁.store programAddr 0x61 = some k₁' ∧ Reaches (storeStep Image.small (Image.WellFormed.pointers Image.small))
      (fun s ev => s.inUse 2 ∧ ev.Inside) k₁' k₂ ∧
    step Image.small (Image.WellFormed.pointers Image.small) k₂ (.halt (k₂.entry 64) 0) = some k₃ ∧
      Undone k k₂ k₃ 0 2 := by
  obtain ⟨k, hrun, h, hparked, -⟩ := second_terminal
  obtain ⟨k₁, hs₁, hgone, h₁, hparked₁, -⟩ := h.calls Image.small_bootable hparked
  obtain ⟨x, hstore⟩ := @store_started _ _ _ 0x61 _ _ 0 (by decide) h₁.mode hgone
  have h₁' := @Stage.stores _ _ _ _ x 0x61 h₁
  obtain ⟨a, k₂, hs₂, -, hlife, h₂, hparked₂, -⟩ := h₁'.life hparked₁
  obtain ⟨k₃, hs₃, -⟩ := h₂.returns Image.small_bootable hparked₂
  have hfirst := @reaches_storeless _ _ _ _ (fun _ => True) (hrun.mono fun _ _ _ => trivial)
  have hlife' : Reaches (step Image.small (Image.WellFormed.pointers Image.small)) (fun s _ => s.inUse 2) a k₂ :=
    hlife.mono fun _ _ hok => hok.1
  have hu₁ : ({ k₁ with phys := Function.update k₁.phys x 0x61 } : Kernel).inUse 2 := h₁'.used.mpr (by decide)
  have hrest := reaches_storeless (hlife'.head (by exact hu₁) hs₂)
  have hstored :
    storeStep Image.small (Image.WellFormed.pointers Image.small) k₁ (.store programAddr 0x61) = some _ := hstore
  have hu : k₁.inUse 2 := h₁.used.mpr (by decide)
  have hown : (StoreEvent.store programAddr 0x61).Inside := show OwnPages programAddr by decide
  have hall := hrest.head (by exact ⟨hu, hown⟩) hstored
  exact ⟨k, k₁, _, k₂, k₃, hs₁, hstore, hrest, hs₃,
    halt_undoes_execute Image.small_bootable firstShell_started (hfirst.mono fun _ _ hok => hok.2) hs₁ hgone (by decide)
      (current_eq h.here) (by decide) (current_eq h₁.here) hall (h₂.used.mpr (by decide)) (current_eq h₂.here)
      (.halt _ 0) hs₃⟩

/-! ## A store into the PCB of the caller -/

section Overwritten

def Kernel.openWork (k : Kernel) (filename : List UInt8) : Work :=
  { k.storeWork 0 (k.phys 0) with
    available := ((openCall Image.small k filename).2.pcb k.current).available
    fd := ((openCall Image.small k filename).2.pcb k.current).fd }

/-- The shell that the first shell starts. -/
def childShell : Kernel := (firstShell.executes shell).kernel

def childCall : Cpu := { childShell.cpu with mode := .kernel, esp := (childShell.entry 64).regs.esp }

/-- In a system call, with the directory open. -/
def childReading : Kernel :=
  let k := (childShell.enter childCall.esp).resume childCall
  k.doWork (k.openWork dotName)

/-- The parent field in the PCB of slot 0. -/
def parentField : ℕ := getPcbPtr 0 + 16

/-- A read of one byte of the name of the directory, to that address. -/
def childRead : ReadOutcome UserMemory :=
  readCall Image.small (Image.WellFormed.pointers Image.small) childReading
    ⟨fun a => (childReading.translate a).isSome, []⟩
    Waited.over (fun _ => 0) 2 parentField 1

/-- The stores of a read, one after the other. -/
def ReadOutcome.storeEvents : ReadOutcome UserMemory → List StoreEvent
  | .done _ _ m => m.writes.map fun w => .store w.1 w.2
  | .waits => []
  | .fault m => m.writes.map fun w => .store w.1 w.2

/-- The shell opens the directory, reads its name to that address and returns from the call. -/
def childEvents : List StoreEvent :=
  let k := (childShell.enter childCall.esp).resume childCall
  [.event (.trap childCall), .event (.work (k.openWork dotName))] ++ childRead.storeEvents ++
    [.event (.trap childShell.cpu)]

theorem childEvents_halt :
    ((runEvents (guarded (storeStep Image.small (Image.WellFormed.pointers Image.small)) fun s _ => decide (s.inUse 1))
      childShell childEvents).bind fun k₂ =>
        (step Image.small (Image.WellFormed.pointers Image.small) k₂ (.halt (k₂.entry 64) 0)).map fun k₃ =>
          decide (k₂.inUse 1 ∧ k₂.current = getPcbPtr 1 ∧ (k₃.slot 0).parent ≠ (firstShell.slot 0).parent)) =
            some true := by
  decide +kernel

/-- The parent of the first shell is no longer 0 when its child exits. -/
theorem halt_undoes_execute_overwritten :
    ¬ ∀ (img : Image), img.Bootable → ∀ k₀ k k₁ k₂ k₃ k' e e' command ev p c status,
      Started img (Image.WellFormed.pointers img) k₀ →
      Reaches (storeStep img (Image.WellFormed.pointers img)) anyStep k₀ k →
      step img (Image.WellFormed.pointers img) k (.execute e command) = some k₁ →
      execute img (Image.WellFormed.pointers img) (k.enter e.regs.esp) e k.cpu command = .gone k₁ →
      p < maxProcesses → k.current = getPcbPtr p → c < maxProcesses → k₁.current = getPcbPtr c →
      Reaches (storeStep img (Image.WellFormed.pointers img)) (fun s _ => s.inUse c) k₁ k₂ → k₂.inUse c →
      k₂.current = getPcbPtr c → Ending img (Image.WellFormed.pointers img) k₂ ev k' e' status →
      step img (Image.WellFormed.pointers img) k₂ ev = some k₃ → Undone k k₂ k₃ p c := by
  intro hall
  obtain ⟨hcall, hgone, hcaller, hchild, -⟩ := firstShell_calls
  obtain ⟨k₂, hrun, hhalt⟩ := Option.bind_eq_some_iff.mp childEvents_halt
  obtain ⟨k₃, hexit, hfound⟩ := Option.map_eq_some_iff.mp hhalt
  obtain ⟨halive, hturn, hparent⟩ := of_decide_eq_true hfound
  have hlife :
    Reaches (storeStep Image.small (Image.WellFormed.pointers Image.small)) (fun s _ => s.inUse 1) childShell k₂ :=
    reaches_of_guarded (fun _ _ ht => of_decide_eq_true ht) (reaches_of_runEvents hrun)
  exact hparent
    (hall _ Image.small_bootable _ _ _ _ _ _ _ _ _ _ 0 1 _ firstShell_started (.refl _) hcall hgone (by decide)
    hcaller (by decide) hchild hlife halive hturn (.halt _ 0) hexit).parent

end Overwritten

end Kernel391
