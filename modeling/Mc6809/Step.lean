/-
  One step of the processor: service an interrupt, idle for a cycle, or execute one
  instruction. The interrupt lines are sampled once, before anything else.
-/
import Mc6809.Instruction.Execute

namespace Mc6809

namespace Action

/-! ## Interrupts -/

/-- Whether the processor takes an interrupt that its line requests: NMI once armed, FIRQ
and IRQ unless masked. -/
def accepts (cpu : Cpu) : Interrupt → Bool
  | .nmi => cpu.nmiArmed
  | .firq => !cpu.regs.cc.firqMask
  | .irq => !cpu.regs.cc.irqMask

/-- The interrupt to service: the first in order of priority that is requested and taken. -/
def pending? (lines : InterruptLines) (cpu : Cpu) : Option Interrupt :=
  [Interrupt.nmi, .firq, .irq].find? fun interrupt =>
    lines.get interrupt && accepts cpu interrupt

/-- Stacks what the interrupt saves and charges for it. FIRQ saves PC and CC with E clear;
the others save every register with E set. -/
def saveState : Interrupt → Action Unit
  | .firq => do
    charge 10
    modifyFlags fun cc => { cc with entire := false }
    pushWord .s (← regs).pc
    pushByte .s (← regs).cc.toByte
  | .nmi | .irq => do
    charge 19
    stackEntireState

/-- The masks that are set while the handler of an interrupt starts. -/
def maskFor (interrupt : Interrupt) (cc : Flags) : Flags :=
  match interrupt with
  | .nmi => { cc with firqMask := true, irqMask := true }
  | .firq => { cc with firqMask := true }
  | .irq => { cc with irqMask := true }

/-- Enters the handler of an interrupt. In CWAI the registers are stacked already, so
nothing is pushed and nothing is charged. -/
def service (interrupt : Interrupt) : Action Unit := do
  if !(← get).cwai then saveState interrupt
  modifyFlags (maskFor interrupt)
  let handler ← readWord interrupt.vector
  modify fun cpu => { cpu with regs.pc := handler, cwai := false }
  if interrupt = .nmi then releaseNmi
  report (.serviced interrupt handler)

/-! ## Instructions -/

/-- Executes an opcode of a table after `length` opcode bytes have been fetched. An
undefined one is charged for the bytes fetched. -/
def dispatch (page : OpcodePage) (opcode : UInt8) (length : UInt16) : Action Unit := do
  match Opcode.find? page opcode with
  | none =>
    charge page.undefinedCost
    throw (.undefinedOpcode page opcode)
  | some entry =>
    report (.execute ((← regs).pc - length) entry.mnemonic)
    charge entry.cycles.toUInt64
    match Operation.ofOpcode page opcode with
    | some operation => operation.execute entry.mode
    | none => throw (.internal (← regs).pc)

/-- Fetches an opcode and executes it. The bytes 0x10 and 0x11 select the other tables for
one more opcode byte and do not chain. -/
def instruction : Action Unit := do
  let opcode ← fetch
  if opcode = 0x10 then dispatch .page2 (← fetch) 2
  else if opcode = 0x11 then dispatch .page3 (← fetch) 2
  else dispatch .page1 opcode 1

/-- One step. Any asserted line ends SYNC, even one that is not taken. -/
def step (lines : InterruptLines) : Action Unit := do
  if lines.any then
    modify fun cpu => { cpu with sync := false }
  match pending? lines (← get) with
  | some interrupt => service interrupt
  | none =>
    let cpu ← get
    if cpu.cwai || cpu.sync then charge 1 else instruction

end Action

end Mc6809
