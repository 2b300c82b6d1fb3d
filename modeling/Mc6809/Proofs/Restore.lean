/-
  What a snapshot determines. A machine into which the snapshot of another has been put, on a bus
  with the same pages, memory and devices, is in lockstep with that other one from then on
  (`Machine.restore_determines`): registers, clock, latches and lines are all of the past that
  counts. What the snapshot leaves out has no effect: the fault of the latest step, the log, and
  the timer as long as nothing is run.
-/
import Mc6809.Proofs.Lockstep

namespace Mc6809.Machine

variable {σ : Type} {m other : Machine σ}

/-- Putting a snapshot back gives the processor's state and the lines as they were. -/
theorem alike_restore (hbus : other.bus = { m.bus with lines := other.bus.lines }) :
    Alike Eq m (other.restore m.snapshot) := by
  refine ⟨rfl, ?_⟩
  show m.bus = { other.bus with lines := m.bus.lines }
  rw [hbus]

/-- **A snapshot determines the future.** Take a machine in whatever state, and another one with the
same pages, memory and devices. Once the snapshot of the first has been put into the second, no
steps, runs without a timer, changes of lines or changes of registers tell them apart: the answers,
the exchanges with the bus, the states of the processors and the whole buses are the same. From the
first step on, so is the recorded fault. -/
theorem restore_determines (devices : Devices σ) (m other : Machine σ)
    (hbus : other.bus = { m.bus with lines := other.bus.lines }) (calls : List HostCall)
    (huntimed : ∀ cycles, .run cycles ∈ calls → m.timer = none ∧ other.timer = none) :
    (other.restore m.snapshot).snapshot = m.snapshot ∧
      ((other.restore m.snapshot).transcript devices calls).1 =
        (m.transcript devices calls).1 ∧
      ((other.restore m.snapshot).transcript devices calls).2.cpu =
        (m.transcript devices calls).2.cpu ∧
      ((other.restore m.snapshot).transcript devices calls).2.bus =
        (m.transcript devices calls).2.bus ∧
      ((∃ call ∈ calls, call.executes) →
        ((other.restore m.snapshot).transcript devices calls).2.fault =
          (m.transcript devices calls).2.fault) := by
  have hlike := Bus.Bisimulation.refl devices
  have halike : Alike Eq m (other.restore m.snapshot) := alike_restore hbus
  obtain ⟨hobservations, hfault, hend⟩ := halike.transcript hlike calls huntimed
  exact ⟨halike.snapshot hlike, hobservations, hend.cpu, hend.bus.symm,
    fun hexecutes => hfault (.inl hexecutes)⟩

/-- The processor of `spin` gone astray: it has failed at another address, and waits in CWAI. -/
def strayed : Machine Unit where
  cpu := { regs := { pc := 0x0500, s := 0x1234 }, clock := 99, nmiArmed := true, cwai := true }
  fault := some (.unmappedRead 0x0500)
  bus := { spin.bus with lines := { irq := true } }

/-- A step and a run, and then a write to PC that leads out of memory. -/
def strayingCalls : List HostCall :=
  [.step, .run 10, .setLine .irq true, .modifyRegs ({ · with pc := 0x0300 }), .step]

/-- Put back into the loop, it takes a step and runs, and fails where a write to PC has led it. -/
theorem restore_determines_strayed :
    (strayed.restore spin.snapshot).snapshot = spin.snapshot ∧
      ((strayed.restore spin.snapshot).transcript Devices.none strayingCalls).1.map
        (·.snapshot.clock) = [3, 15, 15, 15, 15] ∧
      ((strayed.restore spin.snapshot).transcript Devices.none strayingCalls).2.fault =
        some (.unmappedRead 0x0300) := by
  obtain ⟨hsnapshot, hobservations, -, -, hfault⟩ :=
    restore_determines Devices.none spin strayed rfl strayingCalls fun _ _ => ⟨rfl, rfl⟩
  refine ⟨hsnapshot, ?_, ?_⟩
  · rw [hobservations]
    decide +kernel
  · rw [hfault ⟨.step, List.mem_cons_self, rfl⟩]
    decide +kernel

end Mc6809.Machine
