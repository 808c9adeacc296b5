import Kernel391.Foundations.Programs
import Kernel391.Process.Arguments
import Kernel391.Process.DirectoryListing
import Kernel391.Process.UserPointers
import Kernel391.System.Isolation

/-! User programs. A program has the bytes of its page and makes system calls; at each of
them the rest of the system has run meanwhile. What a write prints is read off the page
through the tables of the kernel, so the page has to be mapped and away from the screen. -/
namespace Kernel391
open Kernel391.Foundations
set_option autoImplicit false

/-- What a program runs on: the image, and at the `n`-th system call what the others did to the kernel,
how a wait ended, what lay on the kernel stack, and what lies where a function finds its locals. -/
structure Host where
  img : Image
  fs : Filesystem
  elsewhere : ℕ → Kernel → Kernel
  waited : ℕ → Kernel → Waited
  stack : ℕ → ℕ → UInt8
  locals : ℕ → ℕ → UInt8

/-- A program between two instructions: the kernel, its page, the characters the terminal took from it
and the number of its system calls. -/
structure UserState where
  kernel : Kernel
  memory : ℕ → UInt8
  printed : List UInt8
  calls : ℕ

/-- A wait without end, an exception, or more rounds of a loop than it was given. -/
inductive Stop
  | waits | fault | divideError | unfinished
  deriving DecidableEq, Repr

abbrev User := Prog Stop UserState

/-- The memory of the kernel with the page of the program in its place. -/
def Kernel.holding (k : Kernel) (m : ℕ → UInt8) : Kernel :=
  match k.translate programAddr with
  | some f => { k with phys := fun x => if f ≤ x ∧ x < f + fourMb then m (programAddr + (x - f)) else k.phys x }
  | none => k

/-- The string at an address, as far as the page goes. -/
def stringAt (m : ℕ → UInt8) (a : ℕ) : List UInt8 := window m (vmemAddr - a) a

/-- The characters a write hands to the terminal. -/
def terminalBytes (k : Kernel) (m : ℕ → UInt8) (fd buf nbytes : ℕ) : List UInt8 :=
  if (k.getPcbNow.table fd).bind (·.fileOps) = some .stdout ∧ buf ≠ 0 then
    (chunk m buf (int32 nbytes).toNat).filter (· ≠ 0)
  else []

/-! ## Instructions and system calls -/

def loadByte (a : ℕ) : User UInt8 := do
  let s ← get
  if InPage a then pure (s.memory a) else throw .fault

def storeByte (a : ℕ) (b : UInt8) : User Unit := do
  let s ← get
  if InPage a then set { s with memory := Function.update s.memory a b } else throw .fault

/-- The bytes of a local array of a function that is called, before it stores to them. -/
def localArray (h : Host) (a n : ℕ) : User Unit :=
  modify fun s => { s with memory := fun x => if a ≤ x ∧ x < a + n then h.locals s.calls x else s.memory x }

section Calls
variable (h : Host)

/-- The system runs on up to the call. -/
def Host.enter (s : UserState) : UserState :=
  { s with kernel := h.elsewhere s.calls s.kernel, calls := s.calls + 1 }

def ece391Getargs (buf nbytes : ℕ) : User ℤ := do
  modify h.enter
  let s ← get
  match getargs s.kernel s.memory buf nbytes with
  | .error _ => throw .fault
  | .ok (r, m) =>
    set { s with memory := m }
    pure r

def ece391Open (filename : ℕ) : User ℤ := do
  modify h.enter
  let s ← get
  let r := openCall h.img s.kernel (stringAt s.memory filename)
  set { s with kernel := r.2 }
  pure r.1

def ece391Close (fd : ℕ) : User ℤ := do
  modify h.enter
  let s ← get
  match closeCall s.kernel fd with
  | none => throw .fault
  | some (r, k) =>
    set { s with kernel := k }
    pure r

def ece391Read (fd buf nbytes : ℕ) : User ℤ := do
  modify h.enter
  let s ← get
  match readCall h.img h.fs s.kernel s.memory (h.waited s.calls s.kernel) (h.stack s.calls) fd buf nbytes with
  | .done r k m =>
    set { s with kernel := k, memory := m }
    pure r
  | .waits => throw .waits
  | .fault _ => throw .fault

def ece391Write (fd buf nbytes : ℕ) : User ℤ := do
  modify h.enter
  let s ← get
  match writeCall (s.kernel.holding s.memory) fd buf nbytes with
  | .done r k =>
    set { s with kernel := k, printed := s.printed ++ terminalBytes s.kernel s.memory fd buf nbytes }
    pure r
  | .fault _ => throw .fault
  | .divideError _ => throw .divideError

end Calls

/-! ## The page and the screen -/

/-- Slot `p` has its page, and the screen is below all of them. -/
structure Kernel.Serves (k : Kernel) (p : ℕ) : Prop where
  slot : p < maxProcesses
  page : k.pageDir programIdx = programEntry (programFrame p)
  screen : k.frameOf video < eightMb

/-- The others keep the page and what the process owns. -/
structure Host.Spares (h : Host) (p : ℕ) : Prop where
  serves : ∀ n k, k.Serves p → (h.elsewhere n k).Serves p
  belongings : ∀ n k, k.Serves p → (h.elsewhere n k).getPcbNow.belongings = k.getPcbNow.belongings

namespace Kernel
variable {k k' : Kernel} {p a n : ℕ} {m : ℕ → UInt8}

theorem Serves.translate (hk : k.Serves p) {o : ℕ} (ho : o < fourMb) :
    k.translate (programAddr + o) = some (programFrame p + o) := by
  obtain ⟨hidx, hoff⟩ := program_index ho
  rw [(walk_entry hk.page hk.slot hidx).2, hoff]

theorem Serves.frame (hk : k.Serves p) : k.translate programAddr = some (programFrame p) :=
  hk.translate (show 0 < fourMb by decide)

theorem Serves.holding_eq (hk : k.Serves p) : k.holding m =
    { k with phys := fun x => if programFrame p ≤ x ∧
      x < programFrame p + fourMb then m (programAddr + (x - programFrame p)) else k.phys x } := by
  unfold holding
  rw [hk.frame]

theorem holding_getPcbNow (k : Kernel) (m : ℕ → UInt8) : (k.holding m).getPcbNow = k.getPcbNow := by
  unfold holding
  split <;> rfl

/-- The page is there to be read. -/
def Shows (k : Kernel) (m : ℕ → UInt8) : Prop := ∀ a, InPage a → k.load a = some (m a)

theorem Serves.of_pages (hk : k.Serves p) (hdir : k'.pageDir = k.pageDir)
    (htbl : k'.pageTbl = k.pageTbl) : k'.Serves p where
  slot := hk.slot
  page := hdir ▸ hk.page
  screen := by
    unfold frameOf
    rw [htbl]
    exact hk.screen

theorem load_of_page (hk : k.Serves p) (ha : InPage a) :
    k.load a = some (k.phys (programFrame p + (a - programAddr))) := by
  obtain ⟨hlo, hhi⟩ := ha
  have ho : a - programAddr < fourMb := by
    simp only [programAddr, vmemAddr, fourMb] at *
    omega
  have htr := hk.translate ho
  rw [Nat.add_sub_cancel' hlo] at htr
  unfold load
  rw [htr]
  rfl

theorem Serves.shows (hk : k.Serves p) : (k.holding m).Shows m := by
  intro a ha
  have hpage := ha
  obtain ⟨hlo, hhi⟩ := hpage
  have hk' : (k.holding m).Serves p := by
    rw [hk.holding_eq]
    exact hk.of_pages rfl rfl
  rw [load_of_page hk' ha, hk.holding_eq]
  have hin : programFrame p ≤ programFrame p + (a - programAddr) ∧
      programFrame p + (a - programAddr) < programFrame p + fourMb := by
    simp only [programAddr, vmemAddr, fourMb] at *
    omega
  simp only [if_pos hin, Nat.add_sub_cancel_left, Nat.add_sub_cancel' hlo]

theorem Serves.putc_shows (hk : k.Serves p) (hs : k.Shows m) (c : UInt8) :
    (k.putc c).Serves p ∧ (k.putc c).Shows m := by
  have hk' : (k.putc c).Serves p := hk.of_pages rfl rfl
  refine ⟨hk', fun a ha => ?_⟩
  have hscreen := hk.screen
  have hframe : k.frameOf video + fourKb ≤ programFrame p := by
    unfold frameOf programFrame at *
    simp only [eightMb, fourMb, fourKb] at *
    omega
  rw [← hs a ha, load_of_page hk' ha, load_of_page hk ha]
  unfold putc withConsole
  simp only [Option.some.injEq]
  rw [if_neg (by omega)]

/-- **What the terminal takes** from a mapped buffer: its characters in order, without the NULs. -/
theorem writeChars_shows (hk : k.Serves p) (hs : k.Shows m) (hr : ∀ i < n, InPage (a + i)) :
    writeChars k a n = .ok (((chunk m a n).filter (· ≠ 0)).foldl putc k) ∧
      (((chunk m a n).filter (· ≠ 0)).foldl putc k).Serves p ∧
      (((chunk m a n).filter (· ≠ 0)).foldl putc k).Shows m := by
  induction n with
  | zero => exact ⟨rfl, hk, hs⟩
  | succ n ih =>
    obtain ⟨hwrite, hk₁, hs₁⟩ := ih fun i hi => hr i (Nat.lt_succ_of_lt hi)
    have hchunk : chunk m a (n + 1) = chunk m a n ++ [m (a + n)] := by
      unfold chunk
      rw [List.range_succ, List.map_append]
      rfl
    rw [hchunk, List.filter_append, List.foldl_append]
    unfold writeChars
    rw [hwrite]
    simp only [hs₁ _ (hr n (Nat.lt_succ_self n))]
    by_cases hc : m (a + n) = 0
    · have hnone : [m (a + n)].filter (· ≠ 0) = [] := by simp [hc]
      rw [hnone, if_neg (not_not_intro hc)]
      exact ⟨rfl, hk₁, hs₁⟩
    · have hone : [m (a + n)].filter (· ≠ 0) = [m (a + n)] := by simp [hc]
      rw [hone, if_pos hc]
      exact ⟨rfl, hk₁.putc_shows hs₁ _⟩

end Kernel

/-! ## What the calls do -/

/-- The process in slot `p` runs with its standard input and output open. -/
structure UserState.Running (s : UserState) (p : ℕ) : Prop where
  serves : s.kernel.Serves p
  stdin : s.kernel.Holds 0 (standardFd .stdin)
  stdout : s.kernel.Holds 1 (standardFd .stdout)

/-- The descriptors and the arguments of the process. -/
def UserState.belongings (s : UserState) : Belongings := s.kernel.getPcbNow.belongings

/-- From `s` to `s'` the terminal took `cs`, and the memory and the belongings are the same. -/
structure Prints (p : ℕ) (s s' : UserState) (cs : List UInt8) : Prop where
  running : s'.Running p
  memory : s'.memory = s.memory
  printed : s'.printed = s.printed ++ cs
  belongings : s'.belongings = s.belongings

section Belongings
variable {k k' : Kernel} {d e : ℕ} {f : FileDescriptor}

theorem holds_of_belongings (hb : k'.getPcbNow.belongings = k.getPcbNow.belongings) (h : k.Holds d f) :
    k'.Holds d f where
  used := (congrFun (congrArg Belongings.available hb) d).trans h.used
  fd := (congrFun (congrArg Belongings.fd hb) d).trans h.fd

theorem arguments_of_belongings (hb : k'.getPcbNow.belongings = k.getPcbNow.belongings) :
    k'.getPcbNow.argsBytes = k.getPcbNow.argsBytes := by
  funext j
  have hargs : k'.getPcbNow.args = k.getPcbNow.args := congrArg Belongings.args hb
  have hav : k'.getPcbNow.available = k.getPcbNow.available := congrArg Belongings.available hb
  unfold Pcb.argsBytes
  rw [hargs, hav]

end Belongings

section Specs
variable {h : Host} {p : ℕ} {s s' s'' : UserState} {cs cs' : List UInt8}

theorem Prints.trans (h₁ : Prints p s s' cs) (h₂ : Prints p s' s'' cs') : Prints p s s'' (cs ++ cs') where
  running := h₂.running
  memory := h₂.memory.trans h₁.memory
  printed := by rw [h₂.printed, h₁.printed, List.append_assoc]
  belongings := h₂.belongings.trans h₁.belongings

theorem UserState.Running.enter (hs : s.Running p) (hsp : h.Spares p) : Prints p s (h.enter s) [] where
  running :=
    { serves := hsp.serves _ _ hs.serves
      stdin := holds_of_belongings (hsp.belongings _ _ hs.serves) hs.stdin
      stdout := holds_of_belongings (hsp.belongings _ _ hs.serves) hs.stdout }
  memory := rfl
  printed := (List.append_nil _).symm
  belongings := hsp.belongings _ _ hs.serves

theorem terminalBytes_stdout {k : Kernel} (hk : k.Holds 1 (standardFd .stdout)) {m : ℕ → UInt8}
    {buf n : ℕ} (hb : buf ≠ 0)
    (hn : n < 2 ^ 31) : terminalBytes k m 1 buf n = (chunk m buf n).filter (· ≠ 0) := by
  have htable : k.getPcbNow.table 1 = some (standardFd .stdout) := by
    unfold Pcb.table
    rw [if_pos ⟨by decide, hk.used⟩, hk.fd]
  unfold terminalBytes
  rw [htable, if_pos ⟨rfl, hb⟩, int32_of_lt hn, Int.toNat_natCast]

/-- **The terminal gets what is printed**, character after character. -/
theorem writeCall_terminal {k : Kernel} (hk : k.Serves p) (hout : k.Holds 1 (standardFd .stdout))
    {m : ℕ → UInt8} {buf n : ℕ}
    (hbuf : buf ≠ 0) (hr : ∀ i < n, InPage (buf + i)) (hn : n < 2 ^ 31) :
    writeCall (k.holding m) 1 buf n = .done (if n = 0 then 1 else 0)
      ((terminalBytes k m 1 buf n).foldl Kernel.putc (k.holding m)) ∧
      ((terminalBytes k m 1 buf n).foldl Kernel.putc (k.holding m)).Serves p := by
  have hheld : (k.holding m).Serves p := by
    rw [hk.holding_eq]
    exact hk.of_pages rfl rfl
  obtain ⟨hwrite, hserves, -⟩ := Kernel.writeChars_shows hheld hk.shows hr
  rw [terminalBytes_stdout hout hbuf hn]
  refine ⟨?_, hserves⟩
  unfold writeCall
  simp only [k.holding_getPcbNow, hout.used, hout.fd]
  rw [if_neg (by decide), if_neg (by decide)]
  simp only [standardFd, FileOps.write, terminalWrite, int32_of_lt hn, Int.toNat_natCast, hwrite, if_neg hbuf]
  by_cases hzero : n = 0
  · subst hzero
    rfl
  · rw [if_neg (by omega), if_neg hzero]

/-- **Writing** from the page to the terminal. -/
theorem ends_write (hs : s.Running p) (hsp : h.Spares p) {buf n : ℕ} (hbuf : InPage buf)
    (hr : ∀ i < n, InPage (buf + i))
    (hn : n < 2 ^ 31) : Ends (ece391Write h 1 buf n) s fun r s' =>
      (r = if n = 0 then 1 else 0) ∧ Prints p s s' ((chunk s.memory buf n).filter (· ≠ 0)) := by
  have hin := hs.enter hsp
  have hb : buf ≠ 0 := by
    have := hbuf.1
    simp only [programAddr] at this
    omega
  obtain ⟨hcall, hserves⟩ :=
    @writeCall_terminal p (h.enter s).kernel hin.running.serves hin.running.stdout s.memory buf n hb hr hn
  have hpcb := writeCall_pcb hcall
  rw [(h.enter s).kernel.holding_getPcbNow] at hpcb
  have hbel := congrArg Pcb.belongings hpcb
  unfold ece391Write
  simp only [ends_bind, ends_modify, ends_get, show (h.enter s).memory = s.memory from rfl, hcall, ends_set,
    ends_pure, true_and]
  refine ⟨⟨hserves, holds_of_belongings hbel hin.running.stdin, holds_of_belongings hbel hin.running.stdout⟩, rfl,
    ?_, hbel.trans hin.belongings⟩
  rw [terminalBytes_stdout hin.running.stdout hb hn]
  rfl

end Specs

end Kernel391
