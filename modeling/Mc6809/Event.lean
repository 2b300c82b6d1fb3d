/-
  What the machine reports while it works, in order. An event has a level, a fixed
  message, and the values that its constructor carries.
-/
import Mc6809.Fault
import Mc6809.Interrupt
import Mc6809.Memory.MapError

namespace Mc6809

/-- How important an event is. -/
inductive Level where
  | trace | debug | warn
deriving DecidableEq, Repr

/-- A reported event. A `pc` is the address of the first opcode byte for `execute` and the
program counter after the reported action for every other event. -/
inductive Event where
  | execute (pc : UInt16) (mnemonic : Mnemonic)
  | reset (pc : UInt16)
  | resetVectorUnreadable (fault : Fault)
  | stepFaulted (pc : UInt16) (fault : Fault)
  | serviced (interrupt : Interrupt) (pc : UInt16)
  | syncWait (pc : UInt16)
  | cwaiWait (pc : UInt16)
  | softwareInterrupt (kind : SoftwareInterrupt) (pc : UInt16)
  | bankSwitched (bank : Nat) (first last : UInt8)
  | bankSwitchRejected (error : MapError)
deriving DecidableEq, Repr

namespace Event

/-- Each instruction is traced, faults are warnings, and all else is for debugging. -/
def level : Event → Level
  | execute .. => .trace
  | resetVectorUnreadable _ | stepFaulted .. => .warn
  | _ => .debug

/-- The fixed text of an event. -/
def message : Event → String
  | execute .. => "execute"
  | reset _ => "reset"
  | resetVectorUnreadable _ => "reset vector unreadable"
  | stepFaulted .. => "step faulted"
  | serviced .nmi _ => "NMI serviced"
  | serviced .firq _ => "FIRQ serviced"
  | serviced .irq _ => "IRQ serviced"
  | syncWait _ => "SYNC wait"
  | cwaiWait _ => "CWAI wait"
  | softwareInterrupt .. => "software interrupt"
  | bankSwitched .. => "bank switched"
  | bankSwitchRejected _ => "bank switch rejected"

end Event

end Mc6809
