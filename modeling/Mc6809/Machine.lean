/-
  The machine: processor, bus, the fault of the latest step, an optional timer, and the
  log of reported events.

  A step is a transaction on the processor. Its traffic is performed on the bus; if the
  bus refuses an access, the processor stays as it was, and only what was done to the bus
  before remains. A decode fault keeps the state that it was found in.
-/
import Mc6809.Bus
import Mc6809.Snapshot
import Mc6809.Step
import Mc6809.Timer

namespace Mc6809

/-- A processor on a bus with devices whose state is `σ`. -/
structure Machine (σ : Type) where
  cpu : Cpu := {}
  /-- How the latest step or reset failed, if it did. -/
  fault : Option Fault := none
  timer : Option Timer := none
  bus : Bus σ
  /-- What has been reported, oldest first. -/
  log : Array Event := #[]

namespace Machine

variable {σ α : Type}

/-- Appends an event to the log. -/
def report (m : Machine σ) (event : Event) : Machine σ := { m with log := m.log.push event }

/-- Changes the bus and appends what that reports. -/
def onBus (m : Machine σ) (change : BusM σ α) : α × Machine σ :=
  let ⟨cpu, fault, timer, bus, log⟩ := m
  let reported := change.run bus
  let (result, bus) := reported.value
  (result, { cpu, fault, timer, bus, log := log ++ reported.events.toArray })

/-- Performs traffic on the bus. -/
def perform (devices : Devices σ) (m : Machine σ) (traffic : Traffic α) :
    Except Fault α × Machine σ :=
  m.onBus (traffic.perform devices).run

/-- Records the fault that ends a step. -/
def fail (m : Machine σ) (fault : Fault) : Except Fault Unit × Machine σ :=
  (.error fault, { m with fault := some fault }.report (.stepFaulted m.cpu.regs.pc fault))

/-- One step. -/
def step (devices : Devices σ) (m : Machine σ) : Except Fault Unit × Machine σ :=
  match m.perform devices ((Action.step m.bus.lines).start m.cpu) with
  | (.ok (.ok (), cpu), m) => (.ok (), { m with cpu, fault := none })
  | (.ok (.error fault, cpu), m) => { m with cpu }.fail fault
  | (.error fault, m) => m.fail fault

/-- A hardware reset: masks set, direct page, clock, latches and lines cleared, the timer
restarted, and PC loaded from the reset vector. If the vector cannot be read, PC and the
other registers stay. -/
def reset (devices : Devices σ) (m : Machine σ) : Except Fault Unit × Machine σ :=
  let cpu : Cpu := { regs := { m.cpu.regs with dp := 0, cc := Flags.afterReset } }
  let m := { m with
    cpu, fault := none, timer := m.timer.map Timer.restart, bus := { m.bus with lines := {} } }
  match m.perform devices ((Action.readWord resetVector).start cpu) with
  | (.ok (.ok pc, cpu), m) =>
    (.ok (), { m with cpu := { cpu with regs.pc := pc } }.report (.reset pc))
  | (.ok (.error fault, _), m) | (.error fault, m) =>
    (.error fault, { m with fault := some fault }.report (.resetVectorUnreadable fault))

/-- Counts the timer down by the cycles of a step and runs the routine as often as is due. -/
def advanceTimer (devices : Devices σ) (m : Machine σ) (elapsed : UInt64) : Machine σ :=
  match m.timer with
  | none => m
  | some timer =>
    let (calls, timer) := timer.advance elapsed
    let routine := (List.replicate calls timer.routine).forM devices.tick
    ({ m with timer := some timer }.onBus routine).2

/-- A step of a run: the timer advances after it, whether it failed or not. -/
def timedStep (devices : Devices σ) (m : Machine σ) : Except Fault Unit × Machine σ :=
  let before := m.cpu.clock
  let (result, m) := m.step devices
  (result, m.advanceTimer devices (m.cpu.clock - before))

/-- Steps until `cycles` have passed since the clock read `start` or a step fails, but at
most `limit` times; the result is `none` if the limit ends it. -/
def runSteps (devices : Devices σ) (cycles start : UInt64) :
    Nat → Machine σ → Option (Except Fault UInt64) × Machine σ
  | 0, m => (none, m)
  | limit + 1, m =>
    match m.timedStep devices with
    | (.error fault, m) => (some (.error fault), m)
    | (.ok (), m) =>
      let elapsed := m.cpu.clock - start
      if cycles ≤ elapsed then (some (.ok elapsed), m) else m.runSteps devices cycles start limit

/-- Runs for at least the given number of cycles and at least one step, and returns how
many cycles passed. Only an interrupt taken out of CWAI costs nothing, and it cannot
follow another, so two steps for each cycle are enough. -/
def run (devices : Devices σ) (m : Machine σ) (cycles : UInt64) :
    Option (Except Fault UInt64) × Machine σ :=
  m.runSteps devices cycles m.cpu.clock (2 * cycles.toNat + 1)

/-- Copies the processor's state and the lines. -/
def snapshot (m : Machine σ) : Snapshot where
  registers := m.cpu.regs
  clock := m.cpu.clock
  lines := m.bus.lines
  nmiArmed := m.cpu.nmiArmed
  cwai := m.cpu.cwai
  sync := m.cpu.sync

/-- Puts a copy back. No fault is recorded afterwards. -/
def restore (m : Machine σ) (snapshot : Snapshot) : Machine σ :=
  { m with
    cpu := {
      regs := snapshot.registers
      clock := snapshot.clock
      nmiArmed := snapshot.nmiArmed
      cwai := snapshot.cwai
      sync := snapshot.sync }
    fault := none
    bus := { m.bus with lines := snapshot.lines } }

/-- A fresh processor on the same bus, without a timer. -/
def replaceCpu (m : Machine σ) : Machine σ := { bus := m.bus, log := m.log }

/-- Changes registers from outside. This arms nothing. -/
def modifyRegs (m : Machine σ) (f : Registers → Registers) : Machine σ :=
  { m with cpu := { m.cpu with regs := f m.cpu.regs } }

/-- Asserts or releases a line from outside. -/
def setLine (m : Machine σ) (interrupt : Interrupt) (asserted : Bool) : Machine σ :=
  { m with bus := m.bus.setLine interrupt asserted }

/-- Installs a timer for a routine of the board. -/
def setTimer (m : Machine σ) (interval : Interval) (routine : Nat) : Machine σ :=
  { m with timer := some (Timer.start interval routine) }

end Machine

end Mc6809
