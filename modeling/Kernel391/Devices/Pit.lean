import Kernel391.Devices.Terminal

/-! `pit_handler`: save the interrupted process's context, pick the next active process
and continue it with its program page, video mapping, cursor and colour. -/
namespace Kernel391
open Kernel391.Foundations
set_option autoImplicit false

/-- Program page, TSS, video mapping, cursor and colour of the next process. -/
def Kernel.loadNext (k : Kernel) (curr next : ℕ) : Kernel :=
  let availProcess := (k.pcb next).processId % 256
  let t := (k.pcb next).terminalInfo
  let k := k.setPagerDirEntry (eightMb + fourMb * availProcess)
  let k := k.setTss (eightMb - eightKb * availProcess - 4)
  let k := k.setVideo (Kernel.videoPage t)
  let k := k.switchCursor (k.pcb curr).terminalInfo.terminalNum t.terminalNum
  let k := if t.isOnscreen ≠ 0 then k.updateCursor else k
  k.setAttrib (color t.terminalNum)

def pitHandler (k : Kernel) (e : Entry) : Outcome :=
  let curr := getPcb k.cpu.esp
  if curr = 0 then .ret 0 k
  else
    let k := k.saveRegs curr e.regs
    match k.findNextActivePcb curr with
    | none => .ret 0 k
    | some next => .gone ((k.loadNext curr next).doSchedule next (k.pcb next).scheduleEbp e.eax)

end Kernel391
