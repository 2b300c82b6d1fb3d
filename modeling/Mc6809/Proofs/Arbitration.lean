/-
  Arbitration. Before anything else a step looks at the interrupt lines, and what it does
  follows from them, the latch for NMI, the masks and the two wait states. An interrupt is
  eligible when its line is asserted and nothing holds it off; of the eligible ones a step
  serves the first in order of priority (`pending?_eq_some_iff`). If none is eligible
  (`pending?_eq_none_iff`) the step idles while the processor waits and executes an
  instruction otherwise, and any asserted line ends SYNC.

  An idle step needs no bus, so what it makes of a machine can be written down
  (`Machine.step_of_waits`): one cycle passes.
-/
import Mc6809.Proofs.Cycles

namespace Mc6809

namespace Interrupt

/-- The line is asserted, and the interrupt is not held off: NMI is armed, F is clear, or I is
clear. -/
def Eligible (lines : InterruptLines) (cpu : Cpu) : Interrupt → Prop
  | nmi => lines.nmi ∧ cpu.nmiArmed
  | firq => lines.firq ∧ ¬ cpu.regs.cc.firqMask
  | irq => lines.irq ∧ ¬ cpu.regs.cc.irqMask

/-- The place in the order of service. -/
def rank : Interrupt → Nat
  | nmi => 0
  | firq => 1
  | irq => 2

/-- The interrupt is eligible, and none that comes before it is. -/
def Wins (lines : InterruptLines) (cpu : Cpu) (interrupt : Interrupt) : Prop :=
  interrupt.Eligible lines cpu ∧
    ∀ other : Interrupt, other.rank < interrupt.rank → ¬ other.Eligible lines cpu

theorem forall_iff {p : Interrupt → Prop} :
    (∀ interrupt, p interrupt) ↔ p nmi ∧ p firq ∧ p irq := by
  constructor
  · intro h
    exact ⟨h nmi, h firq, h irq⟩
  · rintro ⟨hnmi, hfirq, hirq⟩ interrupt
    cases interrupt <;> assumption

end Interrupt

/-- The processor is in CWAI, or it is in SYNC and no line is asserted. -/
def Cpu.Waits (lines : InterruptLines) (cpu : Cpu) : Prop :=
  cpu.cwai ∨ cpu.sync ∧ ¬ lines.any

namespace Action

open Interrupt

variable {lines : InterruptLines} {cpu : Cpu}

theorem eligible_iff (interrupt : Interrupt) :
    interrupt.Eligible lines cpu ↔ (lines.get interrupt && accepts cpu interrupt) = true := by
  cases interrupt <;> simp [Eligible, InterruptLines.get, accepts]

theorem pending?_eq_none_iff :
    pending? lines cpu = none ↔ ∀ interrupt : Interrupt, ¬ interrupt.Eligible lines cpu := by
  unfold pending?
  rw [forall_iff]
  simp only [eligible_iff, List.find?_eq_none, List.forall_mem_cons, List.not_mem_nil,
    false_implies, implies_true, and_true]

theorem pending?_eq_some_iff {interrupt : Interrupt} :
    pending? lines cpu = some interrupt ↔ interrupt.Wins lines cpu := by
  unfold pending?
  generalize hp : (fun interrupt => lines.get interrupt && accepts cpu interrupt) = p
  have heligible (interrupt : Interrupt) :
      interrupt.Eligible lines cpu ↔ p interrupt = true := by
    rw [eligible_iff, ← hp]
  unfold Wins
  rw [forall_iff]
  simp only [heligible, List.find?_cons, List.find?_nil]
  cases hnmi : p .nmi <;> cases hfirq : p .firq <;> cases hirq : p .irq <;>
    cases interrupt <;> simp [rank, hnmi, hfirq, hirq]

/-- Of several eligible interrupts one is the first. -/
theorem exists_wins (h : ¬ ∀ interrupt : Interrupt, ¬ interrupt.Eligible lines cpu) :
    ∃ interrupt : Interrupt, interrupt.Wins lines cpu := by
  cases hpending : pending? lines cpu with
  | none => exact (h (pending?_eq_none_iff.mp hpending)).elim
  | some interrupt => exact ⟨interrupt, pending?_eq_some_iff.mp hpending⟩

/-! ## The three kinds of steps -/

/-- SYNC has no part in the choice of an interrupt. -/
theorem pending?_sampled (lines : InterruptLines) (cpu : Cpu) :
    pending? lines (sampled lines cpu) = pending? lines cpu := by
  unfold sampled
  split <;> rfl

theorem waits_iff : cpu.Waits lines ↔
    ((sampled lines cpu).cwai || (sampled lines cpu).sync) = true := by
  unfold Cpu.Waits sampled
  cases lines.any <;> simp

/-- A processor that does not wait enters the step with SYNC clear. -/
theorem sampled_of_not_waits (h : ¬ cpu.Waits lines) :
    sampled lines cpu = { cpu with sync := false } := by
  unfold Cpu.Waits at h
  unfold sampled
  split
  · rfl
  · next hany =>
    have hsync : cpu.sync = false := Bool.eq_false_iff.mpr fun hsync => h (.inr ⟨hsync, hany⟩)
    rw [← hsync]

/-- Nothing but SYNC is sampled. -/
theorem sampled_of_sync_eq_false (h : cpu.sync = false) : sampled lines cpu = cpu := by
  unfold sampled
  split
  · rw [← h]
  · rfl

theorem start_step_of_wins {interrupt : Interrupt} (h : interrupt.Wins lines cpu) :
    (step lines).start cpu = (service interrupt).start (sampled lines cpu) := by
  rw [start_step, pending?_sampled, pending?_eq_some_iff.mpr h]

theorem start_step_of_waits (h : ∀ interrupt : Interrupt, ¬ interrupt.Eligible lines cpu)
    (hwaits : cpu.Waits lines) : (step lines).start cpu =
      .done (.ok (), { sampled lines cpu with clock := cpu.clock + 1 }) := by
  rw [start_step, pending?_sampled, pending?_eq_none_iff.mpr h]
  dsimp only
  rw [if_pos (waits_iff.mp hwaits), start_charge]
  obtain ⟨sync, hsampled⟩ := sampled_eq lines cpu
  rw [hsampled]

theorem start_step_of_not_waits (h : ∀ interrupt : Interrupt, ¬ interrupt.Eligible lines cpu)
    (hawake : ¬ cpu.Waits lines) :
    (step lines).start cpu = instruction.start { cpu with sync := false } := by
  rw [start_step, pending?_sampled, pending?_eq_none_iff.mpr h]
  dsimp only
  rw [if_neg fun hwaits => hawake (waits_iff.mpr hwaits), sampled_of_not_waits hawake]

end Action

namespace Machine

variable {σ : Type} (devices : Devices σ) (m : Machine σ)

/-- No interrupt is eligible. -/
def Quiet : Prop := ∀ interrupt : Interrupt, ¬ interrupt.Eligible m.bus.lines m.cpu

/-- A step that idles lets one cycle pass. Nothing else of the machine changes but SYNC and the
recorded fault. -/
theorem step_of_waits (h : m.Quiet) (hwaits : m.cpu.Waits m.bus.lines) :
    m.step devices = (.ok (), { m with
      cpu := { Action.sampled m.bus.lines m.cpu with clock := m.cpu.clock + 1 }
      fault := none }) := by
  unfold step
  rw [Action.start_step_of_waits h hwaits]
  have hperform (result : Except Fault Unit × Cpu) :
      m.perform devices (.done result) = (.ok result, m) := by
    show (Except.ok result, { m with log := m.log ++ #[] }) = _
    rw [Array.append_empty]
  rw [hperform]

end Machine

end Mc6809
