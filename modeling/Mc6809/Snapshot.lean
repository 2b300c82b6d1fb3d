/-
  Snapshots: the processor's state and the interrupt lines as plain data, without the bus.
-/
import Mc6809.Interrupt
import Mc6809.Registers

namespace Mc6809

/-- Everything that decides what the processor does next, apart from the bus. -/
structure Snapshot where
  registers : Registers := {}
  clock : UInt64 := 0
  lines : InterruptLines := {}
  nmiArmed : Bool := false
  cwai : Bool := false
  sync : Bool := false
deriving DecidableEq, Repr, Inhabited

end Mc6809
