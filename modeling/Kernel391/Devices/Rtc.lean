import Kernel391.Machine.State

/-! The virtual real-time clock: each terminal counts hardware interrupts down to its own
frequency. The port accesses of the device are left out. -/
namespace Kernel391
set_option autoImplicit false

def rtcVRate : ℕ := 7
def rtcVBaseF : ℕ := 512
def lowFreq : ℕ := 2
def highFreq : ℕ := 1024

namespace Rtc
variable (r : Rtc)

/-- `rtc_init` without its port accesses. -/
def init : Rtc :=
  { r with interrupt := fun t => if t < 3 then 0 else r.interrupt t, rtcVEnable := 1 }

/-- The frequency of a terminal is set, and its countdown starts over. -/
def restart (terminal frequency : ℕ) : Rtc :=
  let countNum := r.baseF / frequency
  { r with
    frequency := Function.update r.frequency terminal frequency
    countNum := Function.update r.countNum terminal countNum
    countDown := Function.update r.countDown terminal countNum }

/-- `rtc_open` by a process of the terminal. `rtc_init` has enabled the virtual clock. -/
def opened (terminal : ℕ) : Rtc := ({ r.init with vRate := rtcVRate, baseF := rtcVBaseF } : Rtc).restart terminal 2

/-- The three guarded decrements of `rtc_interrupt`. -/
def countdown (t : ℕ) : ℕ := if t < 3 then r.countDown t - 1 else r.countDown t

/-- Whether `rtc_interrupt` raises a virtual interrupt for the terminal of the interrupted process. -/
def raises (terminal : ℕ) : Bool := r.rtcVEnable ≠ 1 ∨ r.countdown terminal = 0

/-- `rtc_interrupt`. Only the terminal of the interrupted process is examined for expiry. -/
def rtcInterrupt (terminal : ℕ) : Rtc :=
  if r.rtcVEnable = 1 then
    let r := { r with countDown := r.countdown }
    if r.countDown terminal = 0 then
      { r with
        countDown := Function.update r.countDown terminal (r.countNum terminal)
        interrupt := Function.update r.interrupt terminal 1 }
    else r
  else { r with interrupt := Function.update r.interrupt terminal 1 }

/-- `rtc_write` of the word `rate`. The branch of the disabled virtual clock is dead: the clock has
just been enabled. Frequency 0 divides by zero, with the frequency already stored. -/
def rtcWrite (terminal buf rate : ℕ) (nbytes : ℤ) : Except Rtc (ℤ × Rtc) :=
  if buf = 0 ∨ nbytes ≠ 4 then .ok (-1, r)
  else if rate > highFreq then .ok (-1, r)
  else if rate > rtcVBaseF then .ok (-1, r)
  else
    let r := { r with rtcVEnable := 1 }
    if rate = 0 then .error { r with frequency := Function.update r.frequency terminal rate }
    else .ok (0, r.restart terminal rate)

/-- The first and the last store of `rtc_read`: the terminal's flag is cleared. -/
def cleared (terminal : ℕ) : Rtc := { r with interrupt := Function.update r.interrupt terminal 0 }

end Rtc

namespace Kernel
variable (k : Kernel)

/-- `rtc_open`. -/
def rtcOpen : ℤ × Kernel :=
  let terminal := (k.pcb (getPcb k.cpu.esp)).terminalInfo.terminalNum
  let rtc := k.rtc.init
  (0, { k with
    rtc :=
      if rtc.rtcVEnable = 1 then ({ rtc with vRate := rtcVRate, baseF := rtcVBaseF } : Rtc).restart terminal 2
      else rtc })

/-- `rtc_read`, given the clock as it stands when the wait ends; `none` while it goes on. -/
def rtcRead (waited : Rtc) : Option (ℤ × Kernel) :=
  let terminal := (k.pcb (getPcb k.cpu.esp)).terminalInfo.terminalNum
  if waited.interrupt terminal = 1 then
    some (0, { k with rtc := { waited with interrupt := Function.update waited.interrupt terminal 0 } })
  else none

end Kernel
end Kernel391
