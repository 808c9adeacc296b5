import Kernel391.Devices.Keyboard

/-! `terminal_read`: wait for a whole line, copy under `cli`, lower `top`, release the
line. The buffer itself is never moved down. -/
namespace Kernel391
open Kernel391.Foundations
set_option autoImplicit false

namespace KeyboardStruct
variable (kb : KeyboardStruct)

/-- The loop in front of the copy ends: the last character in the buffer is a newline. -/
def ready : Bool := kb.top ≠ 0 ∧ kb.buffer (kb.top - 1) = 0x0A

/-- What the copy loop stores: the buffer up to `top`, then zeros. -/
def copied (nbytes : ℕ) : List UInt8 :=
  (List.range nbytes).map fun i => if i < kb.top then kb.buffer i else 0

/-- `count` after the loop. -/
def count (nbytes : ℕ) : ℕ := min nbytes kb.top

/-- `top` is brought down by the number of rounds. -/
def lower (nbytes : ℕ) : KeyboardStruct :=
  { kb with top := if kb.top ≥ nbytes then kb.top - nbytes else 0 }

def release : KeyboardStruct := { kb with enterLock := 0 }

end KeyboardStruct

/-- `terminal_read` into a byte store, given the line buffers as they stand when the wait ends; `none`
while it goes on. A negative `nbytes` makes no round of the loop. -/
def terminalRead {σ : Type} [ByteStore σ] (k : Kernel) (m : σ) (waited : ℕ → KeyboardStruct) (buffer : ℕ)
    (nbytes : ℤ) : Option (Except σ (ℤ × Kernel × σ)) :=
  let currTerminal := (k.pcb (getPcb k.cpu.esp)).terminalInfo.terminalNum
  if nbytes = 0 then some (.ok (0, k, m))
  else if buffer = 0 then some (.ok (0, k, m))
  else
    let kb := waited currTerminal
    if kb.ready then
      some (match ByteStore.putBytes m buffer (kb.copied nbytes.toNat) with
        | .error m => .error m
        | .ok m =>
          .ok (kb.count nbytes.toNat,
            { k with keyboard := Function.update waited currTerminal (kb.lower nbytes.toNat).release }, m))
    else none

end Kernel391
