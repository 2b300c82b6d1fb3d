/-
  Trials: a short program on a fresh machine with 64 KB of memory, run for a number of
  steps. With tracing, all memory is behind two scripted devices, which note every access
  of the processor; without, it is mapped directly. The program cannot tell.
-/
import Mc6809.Bench.Session

namespace Mc6809.Bench

/-- What a trial starts from. -/
structure Trial where
  /-- Bytes put into memory before the program, in order. -/
  memory : List (UInt16 × List UInt8) := []
  origin : UInt16 := 0x4000
  code : List UInt8 := []
  steps : Nat := 1
  nmiArmed : Bool := false
  cwai : Bool := false
  sync : Bool := false
  lines : InterruptLines := {}
  /-- Ranges of pages that are unmapped after everything else is mapped. -/
  unmapped : List (UInt8 × UInt8 × Access) := []
  settings : List Setting := []
  traced : Bool := false

/-- The processor and the fault after a step. -/
structure Observation where
  snapshot : Snapshot
  fault : Option Fault
deriving DecidableEq, Repr

/-- What a trial shows: the state after each step, the fault that ended it, and the bytes
that have changed, in order of their addresses. -/
structure Outcome where
  observations : List Observation
  fault : Option Fault
  changed : List (Nat × UInt8)
  activity : Array Activity
  log : Array Event

namespace Trial

/-- The memory with bytes at consecutive addresses; the address after 0xFFFF is 0. -/
def put (memory : Array UInt8) (address : UInt16) : List UInt8 → Array UInt8
  | [] => memory
  | byte :: bytes => put (memory.setIfInBounds address.toNat byte) (address + 1) bytes

/-- The memory at the start. -/
def image (trial : Trial) : Array UInt8 :=
  let memory := trial.memory.foldl (fun memory entry => put memory entry.1 entry.2)
    (Array.replicate 65536 0)
  put memory trial.origin trial.code

/-- The board: block 0, and the devices that stand before it in a traced trial. -/
def board (traced : Bool) : Board where
  blocks := #[⟨0⟩]
  readers := if traced then #[{ script := .mk [] (.block 0) }] else #[]
  writers := if traced then #[.mk [] (some 0)] else #[]

/-- Page tables for the two ways of reaching the memory. -/
def table (traced : Bool) : PageTable :=
  if traced then
    Vector.replicate 256 { readHandler := some (.device 0), writeHandler := some (.device 0) }
  else PageTable.flat ⟨0⟩

/-- The machine at the start. -/
def machine (trial : Trial) : Machine Board :=
  let pages := trial.unmapped.foldl (fun table entry =>
      match table.unmap entry.1 entry.2.1 entry.2.2 with
      | .ok table => table
      | .error _ => table)
    (table trial.traced)
  let bus := { Bus.flat trial.image (board trial.traced) with pages, lines := trial.lines }
  let cpu : Cpu := { nmiArmed := trial.nmiArmed, cwai := trial.cwai, sync := trial.sync }
  let m : Machine Board := { cpu, bus }
  applySettings (m.modifyRegs fun regs => { regs with pc := trial.origin }) trial.settings

/-- Steps until the first fault, noting the state after each step, latest first. -/
def runSteps : Nat → Machine Board → List Observation → List Observation × Machine Board
  | 0, m, seen => (seen, m)
  | steps + 1, m, seen =>
    let (result, m) := m.step devices
    let seen := ⟨m.snapshot, m.fault⟩ :: seen
    match result with
    | .ok () => runSteps steps m seen
    | .error _ => (seen, m)

/-- The offsets at which two memories differ, with the byte of the second. -/
def differences (before after : Array UInt8) : List (Nat × UInt8) :=
  (List.range after.size).filterMap fun offset =>
    let value := after.getD offset 0
    if before.getD offset 0 = value then none else some (offset, value)

/-- Runs a trial. -/
def run (trial : Trial) : Outcome :=
  let (seen, m) := runSteps trial.steps trial.machine []
  { observations := seen.reverse
    fault := m.fault
    changed := differences trial.image (m.bus.store.bytes ⟨0⟩)
    activity := m.bus.devices.activity
    log := m.log }

end Trial

end Mc6809.Bench
