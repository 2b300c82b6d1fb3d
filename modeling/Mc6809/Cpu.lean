/-
  The processor's state and the elementary actions of instructions on it.

  An action reads and changes the state, asks the bus for bytes, and may stop with a
  fault of decoding. It knows nothing of bus faults: a refused request ends the traffic
  and with it the action. Words in memory have the high byte first, and every address
  computation is modulo 2^16.

  `Action.start` gives the traffic of an action from a state. The `start_` lemmas say what
  it is for each elementary action and how it composes (`start_bind`).
-/
import Mc6809.Registers
import Mc6809.Traffic

namespace Mc6809

/-- What a step can change inside the processor. -/
structure Cpu where
  regs : Registers := { cc := Flags.afterReset }
  /-- Cycles since the last reset, modulo 2^64. -/
  clock : UInt64 := 0
  /-- Set when the program first loads S; NMI is ignored before. -/
  nmiArmed : Bool := false
  /-- The registers are stacked and an interrupt is awaited. -/
  cwai : Bool := false
  /-- Any interrupt line is awaited. -/
  sync : Bool := false
deriving DecidableEq, Repr, Inhabited

/-- An action of the processor. -/
abbrev Action := ExceptT Fault (StateT Cpu Traffic)

namespace Action

variable {α β : Type}

/-- Runs an action from a state. A decode fault keeps the state that it reached. -/
def start (action : Action α) (cpu : Cpu) : Traffic (Except Fault α × Cpu) :=
  StateT.run (ExceptT.run action) cpu

@[simp] theorem start_pure (a : α) (cpu : Cpu) :
    (pure a : Action α).start cpu = .done (.ok a, cpu) := rfl

@[simp] theorem start_throw (fault : Fault) (cpu : Cpu) :
    (throw fault : Action α).start cpu = .done (.error fault, cpu) := rfl

/-- The second action starts where the first one ends, unless that is a fault. -/
@[simp] theorem start_bind (action : Action α) (f : α → Action β) (cpu : Cpu) :
    (action >>= f).start cpu = action.start cpu >>= fun
      | (.ok a, cpu) => (f a).start cpu
      | (.error fault, cpu) => .done (.error fault, cpu) :=
  congrArg (Traffic.bind (action.start cpu)) (funext fun (r, _) => by cases r <;> rfl)

@[simp] theorem start_map (f : α → β) (action : Action α) (cpu : Cpu) :
    (f <$> action).start cpu = action.start cpu >>= fun
      | (.ok a, cpu) => .done (.ok (f a), cpu)
      | (.error fault, cpu) => .done (.error fault, cpu) :=
  congrArg (Traffic.bind (action.start cpu)) (funext fun (r, _) => by cases r <;> rfl)

@[simp] theorem start_get (cpu : Cpu) : (get : Action Cpu).start cpu = .done (.ok cpu, cpu) := rfl

@[simp] theorem start_modify (f : Cpu → Cpu) (cpu : Cpu) :
    (modify f : Action Unit).start cpu = .done (.ok (), f cpu) := rfl

@[simp] theorem start_ofExcept (result : Except Fault α) (cpu : Cpu) :
    (MonadExcept.ofExcept result : Action α).start cpu = .done (result, cpu) := by
  cases result <;> rfl

/-! ## Registers and clock -/

/-- Changes the registers. -/
def modifyRegs (f : Registers → Registers) : Action Unit :=
  modify fun cpu => { cpu with regs := f cpu.regs }

/-- The registers now. -/
def regs : Action Registers := do return (← get).regs

@[simp] theorem start_modifyRegs (f : Registers → Registers) (cpu : Cpu) :
    (modifyRegs f).start cpu = .done (.ok (), { cpu with regs := f cpu.regs }) := rfl

@[simp] theorem start_regs (cpu : Cpu) : regs.start cpu = .done (.ok cpu.regs, cpu) := rfl

/-- Changes the condition codes. -/
def modifyFlags (f : Flags → Flags) : Action Unit :=
  modifyRegs fun regs => { regs with cc := f regs.cc }

@[simp] theorem start_modifyFlags (f : Flags → Flags) (cpu : Cpu) :
    (modifyFlags f).start cpu = .done (.ok (), { cpu with regs.cc := f cpu.regs.cc }) := rfl

/-- Adds cycles to the clock. -/
def charge (cycles : UInt64) : Action Unit :=
  modify fun cpu => { cpu with clock := cpu.clock + cycles }

@[simp] theorem start_charge (cycles : UInt64) (cpu : Cpu) :
    (charge cycles).start cpu = .done (.ok (), { cpu with clock := cpu.clock + cycles }) := rfl

/-- Continues at an address. -/
def jump (address : UInt16) : Action Unit :=
  modifyRegs fun regs => { regs with pc := address }

@[simp] theorem start_jump (address : UInt16) (cpu : Cpu) :
    (jump address).start cpu = .done (.ok (), { cpu with regs.pc := address }) := rfl

/-- Writes a register on behalf of the program. Loading S arms NMI. -/
def loadRegister (reg : Register) (value : UInt16) : Action Unit := do
  modifyRegs (·.set reg value)
  if reg = .s then
    modify fun cpu => { cpu with nmiArmed := true }

/-! ## Bus access -/

def read (address : UInt16) : Action UInt8 := fun cpu =>
  Traffic.read address fun value => Traffic.done (.ok value, cpu)

def write (address : UInt16) (value : UInt8) : Action Unit := fun cpu =>
  Traffic.write address value (Traffic.done (.ok (), cpu))

def releaseNmi : Action Unit := fun cpu =>
  Traffic.releaseNmi (Traffic.done (.ok (), cpu))

def report (event : Event) : Action Unit := fun cpu =>
  Traffic.report event (Traffic.done (.ok (), cpu))

@[simp] theorem start_read (address : UInt16) (cpu : Cpu) :
    (read address).start cpu = .read address fun value => .done (.ok value, cpu) := rfl

@[simp] theorem start_write (address : UInt16) (value : UInt8) (cpu : Cpu) :
    (write address value).start cpu = .write address value (.done (.ok (), cpu)) := rfl

@[simp] theorem start_releaseNmi (cpu : Cpu) :
    releaseNmi.start cpu = .releaseNmi (.done (.ok (), cpu)) := rfl

@[simp] theorem start_report (event : Event) (cpu : Cpu) :
    (report event).start cpu = .report event (.done (.ok (), cpu)) := rfl

def readWord (address : UInt16) : Action UInt16 := do
  let high ← read address
  let low ← read (address + 1)
  return joinBytes high low

def writeWord (address value : UInt16) : Action Unit := do
  write address (highByte value)
  write (address + 1) (lowByte value)

/-- Reads the byte at PC and steps past it. -/
def fetch : Action UInt8 := do
  let pc := (← regs).pc
  let value ← read pc
  jump (pc + 1)
  return value

@[simp] theorem start_fetch (cpu : Cpu) : fetch.start cpu = .read cpu.regs.pc fun value =>
    .done (.ok value, { cpu with regs.pc := cpu.regs.pc + 1 }) := by
  simp [fetch]

def fetchWord : Action UInt16 := do
  let high ← fetch
  let low ← fetch
  return joinBytes high low

/-! ## Stacks -/

/-- Lowers the stack pointer by one and stores the byte there. -/
def pushByte (stack : IndexRegister) (value : UInt8) : Action Unit := do
  let pointer := (← regs).index stack - 1
  modifyRegs (·.setIndex stack pointer)
  write pointer value

@[simp] theorem start_pushByte (stack : IndexRegister) (value : UInt8) (cpu : Cpu) :
    (pushByte stack value).start cpu = .write (cpu.regs.index stack - 1) value
      (.done (.ok (), { cpu with
        regs := cpu.regs.setIndex stack (cpu.regs.index stack - 1) })) := by
  simp [pushByte]

/-- The low byte goes first, so that the word lies in memory high byte first. -/
def pushWord (stack : IndexRegister) (value : UInt16) : Action Unit := do
  pushByte stack (lowByte value)
  pushByte stack (highByte value)

/-- Takes the byte at the stack pointer and raises the pointer by one. -/
def pullByte (stack : IndexRegister) : Action UInt8 := do
  let pointer := (← regs).index stack
  let value ← read pointer
  modifyRegs (·.setIndex stack (pointer + 1))
  return value

@[simp] theorem start_pullByte (stack : IndexRegister) (cpu : Cpu) :
    (pullByte stack).start cpu = .read (cpu.regs.index stack) fun value =>
      .done (.ok value, { cpu with
        regs := cpu.regs.setIndex stack (cpu.regs.index stack + 1) }) := by
  simp [pullByte]

def pullWord (stack : IndexRegister) : Action UInt16 := do
  let high ← pullByte stack
  let low ← pullByte stack
  return joinBytes high low

/-- Sets E and pushes PC, U, Y, X, DP, B, A and CC on S. -/
def stackEntireState : Action Unit := do
  modifyFlags fun cc => { cc with entire := true }
  pushWord .s (← regs).pc
  pushWord .s (← regs).u
  pushWord .s (← regs).y
  pushWord .s (← regs).x
  pushByte .s (← regs).dp
  pushByte .s (← regs).b
  pushByte .s (← regs).a
  pushByte .s (← regs).cc.toByte

end Action

end Mc6809
