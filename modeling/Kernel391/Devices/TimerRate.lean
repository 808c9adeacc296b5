import Kernel391.Process.Execute

/-! The divisor `timer_set` leaves in channel 0 of the timer, which takes it byte by byte. -/
namespace Kernel391
set_option autoImplicit false

def commandPort : ℕ := 0x43
def ch0DataPort : ℕ := 0x40
def writeCho : ℕ := 0x36
def baseF : ℕ := 1193180

/-- Channel 0 of the timer: the low byte that waits for its high byte, and the divisor last completed. -/
structure Channel0 where
  low : Option ℕ
  divisor : Option ℕ
deriving DecidableEq

/-- A write to a port. The command takes back what the channel held; data comes low byte first. -/
def Channel0.write (c : Channel0) (w : ℕ × ℕ) : Channel0 :=
  if w = (commandPort, writeCho) then ⟨none, none⟩
  else if w.1 = ch0DataPort then
    match c.low with
    | none => ⟨some w.2, c.divisor⟩
    | some low => ⟨none, some (low + 256 * w.2)⟩
  else c

/-- The channel behind the writes of the kernel, the latest first. -/
def Kernel.channel0 (k : Kernel) : Channel0 := k.ports.foldr (fun w c => c.write w) ⟨none, none⟩

section Writes
variable (k : Kernel)

theorem channel0_outb (data port : ℕ) : (k.outb data port).channel0 = k.channel0.write (port, data) := rfl

theorem channel0_programmed (low high : ℕ) :
    (((k.outb writeCho commandPort).outb low ch0DataPort).outb high ch0DataPort).channel0 =
      ⟨none, some (low + 256 * high)⟩ := by
  rw [channel0_outb, channel0_outb, channel0_outb]
  rfl

theorem channel0_timerSet (freq : ℕ) : (k.timerSet freq).channel0 = ⟨none, some (257 * (baseF / freq % 256))⟩ := by
  have hlow : baseF / freq &&& 0xFF = baseF / freq % 256 := Nat.and_two_pow_sub_one_eq_mod _ 8
  have hmask : 0xFF00 >>> 8 = 0xFF := rfl
  have hprogrammed := channel0_programmed k (baseF / freq &&& 0xFF) (baseF / freq &&& (0xFF00 >>> 8))
  rw [hmask, hlow] at hprogrammed
  have hsum : baseF / freq % 256 + 256 * (baseF / freq % 256) = 257 * (baseF / freq % 256) := by omega
  rw [hsum] at hprogrammed
  have hset : k.timerSet freq = ((k.outb writeCho commandPort).outb (baseF / freq % 256) ch0DataPort).outb
      (baseF / freq % 256) ch0DataPort := by
    rw [← hlow]
    rfl
  rw [hset]
  exact hprogrammed

end Writes

/-- The timer runs at the frequency asked for. -/
def TimerExact (k : Kernel) (freq : ℕ) : Prop := (k.timerSet freq).channel0.divisor = some (baseF / freq)

/-- **The divisor arrives** when its two bytes are the same one. -/
theorem timer_exact_iff (k : Kernel) (freq : ℕ) : TimerExact k freq ↔ baseF / freq / 256 = baseF / freq % 256 := by
  unfold TimerExact
  rw [channel0_timerSet]
  simp only [Option.some_inj]
  generalize baseF / freq = rate
  omega

/-- The scheduler asks for the divisor 59659 and gets 2827. -/
theorem init_pit_misses : (1 ≤ baseF / 20 ∧ baseF / 20 ≤ 65535) ∧ ¬ TimerExact Kernel.boot 20 ∧
    Kernel.boot.initPit.channel0.divisor = some 2827 ∧ baseF / 20 = 59659 := by
  unfold TimerExact Kernel.initPit
  rw [channel0_timerSet]
  decide

end Kernel391
