/-
  A session on the bench: a machine, the snapshots saved so far, and one command after
  the other. A command that fails does not end the session.
-/
import Mc6809.Bench.Board
import Mc6809.Machine
import Mc6809.Snapshot.Text

namespace Mc6809.Bench

/-- What a command for the machine answers. -/
inductive MachineReply where
  | nothing
  | ok
  | fault (fault : Fault)
  /-- How many cycles a run took. -/
  | elapsed (cycles : UInt64)
  /-- A run that did not come to an end. -/
  | unfinished
  | registers (d : UInt16) (text : String)
  | text (text : String)
  /-- A snapshot that does not exist or cannot be read. -/
  | badSnapshot
  /-- The interval of a timer, as a bit pattern. -/
  | interval (bits : UInt64)
  | board (reply : Reply)

/-- A machine under test. -/
structure Session where
  machine : Machine Board := { bus := { devices := {} } }
  saved : Array Snapshot := #[]

/-- Applies the host's settings in order. -/
def applySettings {σ : Type} (m : Machine σ) (settings : List Setting) : Machine σ :=
  settings.foldl (fun m setting => match setting with
    | .register reg value => m.modifyRegs (·.set reg value)
    | .clock value => { m with cpu := { m.cpu with clock := value } }) m

namespace Session

/-- The reply to a step or a reset. -/
def stepReply : Except Fault Unit → MachineReply
  | .ok () => .ok
  | .error fault => .fault fault

/-- The reply to a run. -/
def runReply : Option (Except Fault UInt64) → MachineReply
  | some (.ok cycles) => .elapsed cycles
  | some (.error fault) => .fault fault
  | none => .unfinished

/-- The reply to putting back a snapshot, if there is one. -/
def restore (session : Session) (snapshot? : Option Snapshot) : MachineReply × Session :=
  match snapshot? with
  | some snapshot => (.ok, { session with machine := session.machine.restore snapshot })
  | none => (.badSnapshot, session)

/-- Forgets the events and the activity of earlier commands. -/
def clearRecords (session : Session) : Session :=
  let ⟨⟨cpu, fault, timer, bus, _⟩, saved⟩ := session
  let bus := { bus with devices := { bus.devices with activity := #[] } }
  ⟨⟨cpu, fault, timer, bus, #[]⟩, saved⟩

/-- Performs one command. Afterwards the machine's log and the board's activity hold what
this command caused. -/
def run (session : Session) (command : MachineCommand) : MachineReply × Session :=
  let ⟨machine, saved⟩ := session.clearRecords
  match command with
  | .reset =>
    let (result, machine) := machine.reset devices
    (stepReply result, ⟨machine, saved⟩)
  | .step =>
    let (result, machine) := machine.step devices
    (stepReply result, ⟨machine, saved⟩)
  | .run cycles =>
    let (result, machine) := machine.run devices cycles
    (runReply result, ⟨machine, saved⟩)
  | .set settings => (.nothing, ⟨applySettings machine settings, saved⟩)
  | .setLine interrupt asserted => (.nothing, ⟨machine.setLine interrupt asserted, saved⟩)
  | .show => (.registers machine.cpu.regs.d machine.cpu.regs.text, ⟨machine, saved⟩)
  | .takeSnapshot =>
    let snapshot := machine.snapshot
    (.text snapshot.text, ⟨machine, saved.push snapshot⟩)
  | .restoreSaved slot => restore ⟨machine, saved⟩ saved[slot]?
  | .restoreText text => restore ⟨machine, saved⟩ (Snapshot.parse? text)
  | .replaceCpu => (.nothing, ⟨machine.replaceCpu, saved⟩)
  | .startTimer bits body =>
    let interval := Interval.ofBits bits
    let routine := machine.bus.devices.routines.size
    let (_, machine) := machine.onBus (modifyBoard fun board =>
      { board with routines := board.routines.push body })
    (.interval interval.toBits, ⟨machine.setTimer interval routine, saved⟩)
  | .stopTimer => (.nothing, ⟨{ machine with timer := none }, saved⟩)
  | .board command =>
    let (reply, machine) := machine.onBus (command.run devices)
    (.board reply, ⟨machine, saved⟩)

end Session

end Mc6809.Bench
