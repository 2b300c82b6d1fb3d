/-
  Commands for a machine on a test bench. Blocks, regions, select registers and saved
  snapshots are numbered in the order in which they are made. A device is a script: a
  list of commands that it runs when it is accessed, and what it answers or stores.
-/
import Mc6809.Memory.PageTable
import Mc6809.Registers
import Mc6809.Interrupt

namespace Mc6809.Bench

/-- What a scripted device answers to a read. -/
inductive Answer where
  | constant (value : UInt8)
  /-- The low byte of the address. -/
  | low
  /-- The high byte of the address. -/
  | high
  /-- How often this device has answered before, modulo 256. -/
  | count
  /-- The byte of a block at the address, zero past its end. -/
  | block (block : Nat)
  /-- The byte at another address, 0xEE if it cannot be read. -/
  | read (address : UInt16)
deriving DecidableEq, Repr

mutual

/-- A command about blocks, the bus or banks. -/
inductive Command where
  | newBlock (length : Nat)
  | newBlockOf (bytes : List UInt8)
  | cloneBlock (block : Nat)
  | blockInfo (block : Nat)
  | getByte (block offset : Nat)
  | setByte (block offset : Nat) (value : UInt8)
  | loadBytes (block offset : Nat) (bytes : List UInt8)
  | blockPage (block index : Nat)
  | readPage (block index : Nat) (offset : UInt8)
  | writePage (block index : Nat) (offset value : UInt8)
  | sameBlock (block other : Nat)
  | dump (block offset length : Nat)
  | read (address : UInt16)
  | write (address : UInt16) (value : UInt8)
  | peek (address : UInt16)
  | route (page : UInt8)
  | routes
  | views (page : UInt8)
  | sameView (page other : UInt8)
  | setReadView (page : UInt8) (target : Option (Nat × Nat))
  | setWriteView (page : UInt8) (target : Option (Nat × Nat))
  | setReadHandler (page : UInt8) (script : ReadScript)
  | clearReadHandler (page : UInt8)
  | setWriteHandler (page : UInt8) (target : WriteTarget)
  | clearWriteHandler (page : UInt8)
  | mapBlock (first last : UInt8) (block index : Nat) (access : Access)
  | mapReadHandler (first last : UInt8) (script : ReadScript)
  | mapWriteHandler (first last : UInt8) (target : WriteTarget)
  | mapNull (first last : UInt8)
  | unmap (first last : UInt8) (access : Access)
  | setLine (interrupt : Interrupt) (asserted : Bool)
  | lines
  | describe
  | newRegion (block : Nat) (first last : UInt8) (access : Access)
  | regionInfo (region : Nat)
  | mapBank (region bank : Nat)
  | mapNullBank (region : Nat)
  | newSwitch (region : Nat) (mask : UInt8)
  | select (switch bank : Nat)
  | switchInfo (switch : Nat)

/-- A device that is read: it runs its commands, then answers. -/
inductive ReadScript where
  | mk (body : List Command) (answer : Answer)

/-- A device that is written: it stores the value in a block, if it has one, then runs its
commands. -/
inductive WriteScript where
  | mk (body : List Command) (block : Option Nat)

/-- What a write handler is: a scripted device or a select register. -/
inductive WriteTarget where
  | script (script : WriteScript)
  | switch (switch : Nat)

end

/-- A device that does nothing and answers zero. -/
instance : Inhabited ReadScript := ⟨.mk [] (.constant 0)⟩

/-- A device that ignores what is written to it. -/
instance : Inhabited WriteTarget := ⟨.script (.mk [] none)⟩

/-- A register or the clock, as the host sets it. -/
inductive Setting where
  | register (reg : Register) (value : UInt16)
  | clock (value : UInt64)
deriving DecidableEq, Repr

/-- A command for the machine as a whole. -/
inductive MachineCommand where
  | reset
  | step
  | run (cycles : UInt64)
  | set (settings : List Setting)
  | setLine (interrupt : Interrupt) (asserted : Bool)
  | show
  | takeSnapshot
  | restoreSaved (slot : Nat)
  | restoreText (text : String)
  | replaceCpu
  | startTimer (bits : UInt64) (body : List Command)
  | stopTimer
  | board (command : Command)

end Mc6809.Bench
