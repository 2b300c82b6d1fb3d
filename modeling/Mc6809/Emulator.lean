/-
  A ready-made machine: 64 KB of memory at its own addresses, no devices, and a reset
  vector that points to 0x4000 until a program is loaded.
-/
import Mc6809.Laps

namespace Mc6809

/-- An error as a host sees it: a text, and the code of the fault behind it or zero. -/
structure HostError where
  message : String
  code : UInt8 := 0
deriving DecidableEq, Repr

def HostError.ofFault (fault : Fault) : HostError := ⟨fault.message, fault.code⟩

/-- The machine and where its program lies. -/
structure Emulator where
  machine : Machine Unit
  programStart : UInt16
  /-- The address after the last byte of the program. -/
  programEnd : UInt16

namespace Emulator

/-- The block that holds all memory. -/
def ram : BlockId := ⟨0⟩

/-- Where a program starts unless it says otherwise. -/
def defaultStart : UInt16 := 0x4000

/-- The store after writing an address into the reset vector. -/
def withResetVector (store : Store) (start : UInt16) : Store :=
  (store.set ram 0xFFFE (highByte start)).set ram 0xFFFF (lowByte start)

/-- Changes the memory. -/
def modifyStore (e : Emulator) (f : Store → Store) : Emulator :=
  let ⟨⟨cpu, fault, timer, bus, log⟩, programStart, programEnd⟩ := e
  ⟨⟨cpu, fault, timer, { bus with store := f bus.store }, log⟩, programStart, programEnd⟩

/-- Zero-filled memory and a processor that has been reset. -/
def new : Emulator :=
  let e : Emulator :=
    ⟨{ bus := Bus.flat (Array.replicate 65536 0) () }, defaultStart, defaultStart⟩
  let e := e.modifyStore (withResetVector · defaultStart)
  { e with machine := (e.machine.reset Devices.none).2 }

/-- Executes one step. -/
def step (e : Emulator) : Except HostError Unit × Emulator :=
  let (result, machine) := e.machine.step Devices.none
  (result.mapError HostError.ofFault, { e with machine })

/-- Resets the processor and keeps the memory. -/
def reset (e : Emulator) : Except HostError Unit × Emulator :=
  let (result, machine) := e.machine.reset Devices.none
  (result.mapError HostError.ofFault, { e with machine })

/-- Runs for a number of cycles and returns the low 32 bits of how many passed. -/
def run (e : Emulator) (cycles : UInt32) : Option (Except HostError UInt32) × Emulator :=
  let (result, machine) := e.machine.runInLaps Devices.none cycles.toUInt64
  (result.map fun outcome => (outcome.map UInt64.toUInt32).mapError HostError.ofFault,
    { e with machine })

def clearTimer (e : Emulator) : Emulator :=
  { e with machine := { e.machine with timer := none } }

def setPC (e : Emulator) (address : UInt16) : Emulator :=
  { e with machine := e.machine.modifyRegs fun regs => { regs with pc := address } }

def setS (e : Emulator) (address : UInt16) : Emulator :=
  { e with machine := e.machine.modifyRegs fun regs => { regs with s := address } }

def setLine (e : Emulator) (interrupt : Interrupt) (asserted : Bool) : Emulator :=
  { e with machine := e.machine.setLine interrupt asserted }

/-- The code of the fault of the latest step, zero if there was none. -/
def faultCode (e : Emulator) : UInt8 := (e.machine.fault.map Fault.code).getD 0

/-- The byte at an address. -/
def readMemory (e : Emulator) (address : UInt16) : UInt8 :=
  (e.machine.bus.store.get? ram address.toNat).getD 0

/-- Stores a byte at an address. -/
def writeMemory (e : Emulator) (address : UInt16) (value : UInt8) : Emulator :=
  e.modifyStore (·.set ram address.toNat value)

/-- The bytes of a page. -/
def memoryPage (e : Emulator) (page : UInt8) : List UInt8 :=
  (List.range 256).map fun offset =>
    (e.machine.bus.store.get? ram (256 * page.toNat + offset)).getD 0

/-- Writes bytes at consecutive addresses; the address after 0xFFFF is 0. -/
def writeProgram (store : Store) (address : UInt16) : List UInt8 → Store
  | [] => store
  | byte :: bytes => writeProgram (store.set ram address.toNat byte) (address + 1) bytes

/-- Writes a program into memory, points the reset vector at its start, even where the
program covers the vector, and continues there. -/
def loadProgram (e : Emulator) (program : List UInt8) (start : UInt16) : Emulator :=
  let e := e.modifyStore fun store => withResetVector (writeProgram store start program) start
  { (e.setPC start) with
    programStart := start
    programEnd := start + UInt16.ofNat program.length }

end Emulator

end Mc6809
