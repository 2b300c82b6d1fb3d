/-
  Runs that come round. A step depends on nothing but the processor apart from its clock, the bus
  and the timer. So a run that stands once more where it began will come there again and again,
  each time after as many cycles, and it need not be followed: `Machine.runInLaps` leaps over the
  laps that the run completes. What it leaves out is only what the leapt-over steps report.
-/
import Mc6809.Machine

namespace Mc6809

/-- The processor with its clock moved on. -/
def Cpu.later (cpu : Cpu) (cycles : UInt64) : Cpu := { cpu with clock := cpu.clock + cycles }

namespace Machine

variable {σ : Type}

/-- The machine with its clock moved on. -/
def later (m : Machine σ) (cycles : UInt64) : Machine σ := { m with cpu := m.cpu.later cycles }

/-- The machine after the further laps, of so many cycles each, that end before `cycles` have
passed. -/
def leap (m : Machine σ) (cycles elapsed : UInt64) : Machine σ :=
  m.later (((cycles - 1) / elapsed - 1) * elapsed)

variable [DecidableEq σ]

/-- Apart from their clocks the machines do the same from here on. -/
def standsLike (m other : Machine σ) : Bool :=
  m.cpu = { other.cpu with clock := m.cpu.clock } && m.timer = other.timer && m.bus = other.bus

/-- Goes on with a run for so many cycles that began with `first`, until it ends or stands where it
began. In that case the laps that end before the cycles have passed are leapt over, and the rest is
run. -/
def runLaps (devices : Devices σ) (cycles : UInt64) (first : Machine σ) :
    Nat → Machine σ → Option (Except Fault UInt64) × Machine σ
  | 0, m => (none, m)
  | limit + 1, m =>
    match m.timedStep devices with
    | (.error fault, m) => (some (.error fault), m)
    | (.ok (), m) =>
      let elapsed := m.cpu.clock - first.cpu.clock
      if cycles ≤ elapsed then (some (.ok elapsed), m)
      else if m.standsLike first then
        (m.leap cycles elapsed).runSteps devices cycles first.cpu.clock limit
      else runLaps devices cycles first limit m

/-- A run that leaps over the laps it would repeat. -/
def runInLaps (devices : Devices σ) (m : Machine σ) (cycles : UInt64) :
    Option (Except Fault UInt64) × Machine σ :=
  runLaps devices cycles m (2 * cycles.toNat + 1) m

end Machine

end Mc6809
