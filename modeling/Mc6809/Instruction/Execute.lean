/-
  What each operation does. An operand is resolved before anything is changed, and a
  store sets the flags before it writes; both orders matter only to what a fault leaves
  behind, and a bus fault leaves nothing behind.
-/
import Mc6809.Instruction.Operation
import Mc6809.Operand

namespace Mc6809.Action

/-! ## Registers named by a byte -/

/-- The registers of a push or pull mask from bit 7 to bit 0. Bit 6 is the stack pointer
that is not the stack itself. -/
def stackOrder (stack : IndexRegister) : List (UInt8 × Register) :=
  let other := match stack with
    | .u => Register.s
    | _ => Register.u
  [(0x80, .pc), (0x40, other), (0x20, .y), (0x10, .x), (0x08, .dp), (0x04, .b), (0x02, .a),
    (0x01, .cc)]

/-- The registers whose bits are set in the mask, in push order. -/
def stackedRegisters (stack : IndexRegister) (mask : UInt8) : List Register :=
  ((stackOrder stack).filter fun entry => mask &&& entry.1 != 0).map (·.2)

/-- Each byte moved to or from a stack costs a cycle. -/
def stackCycles (reg : Register) : UInt64 := if reg.isWide then 2 else 1

def pushRegister (stack : IndexRegister) (reg : Register) : Action Unit := do
  let value := (← regs).get reg
  if reg.isWide then pushWord stack value else pushByte stack (lowByte value)
  charge (stackCycles reg)

def pullRegister (stack : IndexRegister) (reg : Register) : Action Unit := do
  charge (stackCycles reg)
  let value ← if reg.isWide then pullWord stack else UInt8.toUInt16 <$> pullByte stack
  loadRegister reg value

/-- The source and destination of a transfer byte: two defined registers of one width. -/
def transferPair (postbyte : UInt8) : Except Fault (Register × Register) :=
  match Register.ofCode (postbyte >>> 4), Register.ofCode postbyte with
  | some source, some destination =>
    if source.isWide = destination.isWide then .ok (source, destination)
    else .error (.registerSelection postbyte)
  | _, _ => .error (.registerSelection postbyte)

/-! ## Families of operations -/

def modifyMemory (op : UnaryOp) (mode : AddressingMode) : Action Unit := do
  let address ← effectiveAddress mode
  let value ← read address
  let (result, cc) := op.apply (← regs).cc value
  modifyFlags fun _ => cc
  write address result

def modifyAccumulator (op : UnaryOp) (acc : Accumulator) : Action Unit :=
  modifyRegs fun regs =>
    let (result, cc) := op.apply regs.cc (regs.accumulator acc)
    { regs with cc }.setAccumulator acc result

def binary8 (op : BinaryOp) (acc : Accumulator) (mode : AddressingMode) : Action Unit := do
  let operand ← operand8 mode
  modifyRegs fun regs =>
    let (result, cc) := op.apply regs.cc (regs.accumulator acc) operand
    { regs with cc }.setAccumulator acc result

def compare8 (op : CompareOp) (acc : Accumulator) (mode : AddressingMode) : Action Unit := do
  let operand ← operand8 mode
  modifyRegs fun regs => { regs with cc := op.apply regs.cc (regs.accumulator acc) operand }

def binary16 (op : WideOp) (mode : AddressingMode) : Action Unit := do
  let operand ← operand16 mode
  modifyRegs fun regs =>
    let (result, cc) := op.apply regs.cc regs.d operand
    { regs with cc }.setD result

def compare16 (reg : Register) (mode : AddressingMode) : Action Unit := do
  let operand ← operand16 mode
  modifyRegs fun regs => { regs with cc := (Alu.sub16 regs.cc (regs.get reg) operand).2 }

def load8 (acc : Accumulator) (mode : AddressingMode) : Action Unit := do
  let value ← operand8 mode
  modifyRegs fun regs => { regs with cc := Alu.load8 regs.cc value }.setAccumulator acc value

def store8 (acc : Accumulator) (mode : AddressingMode) : Action Unit := do
  let address ← effectiveAddress mode
  let value := (← regs).accumulator acc
  modifyFlags (Alu.load8 · value)
  write address value

def load16 (reg : Register) (mode : AddressingMode) : Action Unit := do
  let value ← operand16 mode
  modifyFlags (Alu.load16 · value)
  loadRegister reg value

def store16 (reg : Register) (mode : AddressingMode) : Action Unit := do
  let address ← effectiveAddress mode
  let value := (← regs).get reg
  modifyFlags (Alu.load16 · value)
  writeWord address value

/-- Loads the address itself. X and Y set Z from it; U and S leave the flags alone. -/
def loadAddress (reg : IndexRegister) : Action Unit := do
  let address ← indexedAddress
  loadRegister reg.toRegister address
  if reg = .x ∨ reg = .y then
    modifyFlags fun cc => { cc with zero := address == 0 }

def branch (condition : Condition) : Action Unit := do
  let target ← relativeAddress
  if condition.holds (← regs).cc then jump target

/-- A long branch that is taken costs a cycle more. -/
def longBranch (condition : Condition) : Action Unit := do
  let target ← longRelativeAddress
  if condition.holds (← regs).cc then
    jump target
    charge 1

/-- Pushes the address after the instruction and jumps. -/
def call (mode : AddressingMode) : Action Unit := do
  let target ← effectiveAddress mode
  pushWord .s (← regs).pc
  jump target

def push (stack : IndexRegister) : Action Unit := do
  let mask ← fetch
  (stackedRegisters stack mask).forM (pushRegister stack)

/-- Pulls take the registers in the order opposite to pushes. -/
def pull (stack : IndexRegister) : Action Unit := do
  let mask ← fetch
  (stackedRegisters stack mask).reverse.forM (pullRegister stack)

/-- Pulls CC, then the other registers if the E just pulled says that they were stacked,
then PC. -/
def returnFromInterrupt : Action Unit := do
  let cc ← pullByte .s
  modifyFlags fun _ => Flags.ofByte cc
  if (← regs).cc.entire then
    let a ← pullByte .s
    let b ← pullByte .s
    let dp ← pullByte .s
    let x ← pullWord .s
    let y ← pullWord .s
    let u ← pullWord .s
    modifyRegs fun regs => { regs with a, b, dp, x, y, u }
    charge 9
  jump (← pullWord .s)

/-- Only SWI masks the two maskable interrupts. -/
def softwareInterrupt (kind : SoftwareInterrupt) : Action Unit := do
  stackEntireState
  if kind = .swi then
    modifyFlags fun cc => { cc with firqMask := true, irqMask := true }
  let handler ← readWord kind.vector
  jump handler
  report (.softwareInterrupt kind handler)

/-- Clears flags by a mask, stacks everything and waits. -/
def waitForInterrupt : Action Unit := do
  let mask ← fetch
  modifyFlags fun cc => Flags.ofByte (cc.toByte &&& mask)
  stackEntireState
  modify fun cpu => { cpu with cwai := true }
  report (.cwaiWait (← regs).pc)

def exchange : Action Unit := do
  let postbyte ← fetch
  let (first, second) ← MonadExcept.ofExcept (transferPair postbyte)
  let before ← regs
  loadRegister first (before.get second)
  loadRegister second (before.get first)

def transfer : Action Unit := do
  let postbyte ← fetch
  let (source, destination) ← MonadExcept.ofExcept (transferPair postbyte)
  loadRegister destination ((← regs).get source)

end Mc6809.Action

namespace Mc6809

open Mc6809.Action in
/-- Performs an operation whose opcode bytes have been fetched. -/
def Operation.execute (operation : Operation) (mode : AddressingMode) : Action Unit :=
  match operation with
  | .modifyMemory op => Action.modifyMemory op mode
  | .modifyAccumulator op acc => Action.modifyAccumulator op acc
  | .testMemory => do
    let value ← read (← effectiveAddress mode)
    modifyFlags (Alu.load8 · value)
  | .testAccumulator acc =>
    modifyRegs fun regs => { regs with cc := Alu.load8 regs.cc (regs.accumulator acc) }
  | .jump => do Action.jump (← effectiveAddress mode)
  | .call => Action.call mode
  | .nop => pure ()
  | .sync => do
    modify fun cpu => { cpu with sync := true }
    report (.syncWait (← regs).pc)
  | .decimalAdjust => modifyRegs fun regs =>
    let (result, cc) := Alu.daa regs.cc regs.a
    { regs with a := result, cc }
  | .orFlags => do
    let bits ← fetch
    modifyFlags fun cc => Flags.ofByte (cc.toByte ||| bits)
  | .andFlags => do
    let mask ← fetch
    modifyFlags fun cc => Flags.ofByte (cc.toByte &&& mask)
  | .signExtend => modifyRegs fun regs =>
    let (result, cc) := Alu.sex regs.cc regs.b
    { regs with cc }.setD result
  | .exchange => Action.exchange
  | .transfer => Action.transfer
  | .branch condition => Action.branch condition
  | .longBranch condition => Action.longBranch condition
  | .longBranchAlways => do Action.jump (← longRelativeAddress)
  | .loadAddress reg => Action.loadAddress reg
  | .push stack => Action.push stack
  | .pull stack => Action.pull stack
  | .returnFromSubroutine => do Action.jump (← pullWord .s)
  | .addBToX => modifyRegs fun regs => { regs with x := regs.x + regs.b.toUInt16 }
  | .returnFromInterrupt => Action.returnFromInterrupt
  | .waitForInterrupt => Action.waitForInterrupt
  | .multiply => modifyRegs fun regs =>
    let (product, cc) := Alu.mul regs.cc regs.a regs.b
    { regs with cc }.setD product
  | .softwareInterrupt kind => Action.softwareInterrupt kind
  | .binary8 op acc => Action.binary8 op acc mode
  | .compare8 op acc => Action.compare8 op acc mode
  | .load8 acc => Action.load8 acc mode
  | .store8 acc => Action.store8 acc mode
  | .binary16 op => Action.binary16 op mode
  | .compare16 reg => Action.compare16 reg mode
  | .load16 reg => Action.load16 reg mode
  | .store16 reg => Action.store16 reg mode

end Mc6809
