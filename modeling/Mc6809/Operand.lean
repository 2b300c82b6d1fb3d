/-
  Effective addresses and operands. Resolving an address moves PC past the operand bytes
  and charges what an indexed post-byte costs on top of the opcode.
-/
import Mc6809.Cpu
import Mc6809.Postbyte

namespace Mc6809.Action

/-- The direct page and a byte of the program. -/
def directAddress : Action UInt16 := do
  let low ← fetch
  return joinBytes (← regs).dp low

/-- The address that follows the offset byte, plus the signed offset. -/
def relativeAddress : Action UInt16 := do
  let offset ← fetch
  return (← regs).pc + signExtend offset

/-- The address that follows the offset word, plus the offset. -/
def longRelativeAddress : Action UInt16 := do
  let offset ← fetchWord
  return (← regs).pc + offset

/-- The address of an indexed sub-mode before indirection. Increments leave the register
higher and use its old value, decrements leave it lower and use its new value. -/
def indexedBase (register : IndexRegister) (mode : IndexedMode) : Action UInt16 := do
  let base := (← regs).index register
  match mode with
  | .offset5 offset => return base + offset
  | .postIncrement1 =>
    modifyRegs (·.setIndex register (base + 1))
    return base
  | .postIncrement2 =>
    modifyRegs (·.setIndex register (base + 2))
    return base
  | .preDecrement1 =>
    modifyRegs (·.setIndex register (base - 1))
    return base - 1
  | .preDecrement2 =>
    modifyRegs (·.setIndex register (base - 2))
    return base - 2
  | .noOffset => return base
  | .accumulatorB => return base + signExtend (← regs).b
  | .accumulatorA => return base + signExtend (← regs).a
  | .offset8 => return base + signExtend (← fetch)
  | .offset16 => return base + (← fetchWord)
  | .accumulatorD => return base + (← regs).d
  | .pcOffset8 => relativeAddress
  | .pcOffset16 => longRelativeAddress
  | .extendedIndirect => fetchWord

/-- Decodes a post-byte, forms its address and follows the indirection if it asks for it. -/
def indexedAddress : Action UInt16 := do
  let postbyte ← fetch
  let decoded ← MonadExcept.ofExcept (Postbyte.decode postbyte)
  charge decoded.extraCycles.toUInt64
  let address ← indexedBase decoded.register decoded.mode
  if decoded.indirect then readWord address else return address

/-- The address that a mode refers to. The two modes without an address never get here. -/
def effectiveAddress : AddressingMode → Action UInt16
  | .direct => directAddress
  | .extended => fetchWord
  | .indexed => indexedAddress
  | .relative => relativeAddress
  | .longRelative => longRelativeAddress
  | .inherent | .immediate => do throw (.internal (← regs).pc)

/-- A byte from the instruction itself, or from the effective address. -/
def operand8 : AddressingMode → Action UInt8
  | .immediate => fetch
  | mode => do read (← effectiveAddress mode)

/-- A word from the instruction itself, or from the effective address. -/
def operand16 : AddressingMode → Action UInt16
  | .immediate => fetchWord
  | mode => do readWord (← effectiveAddress mode)

end Mc6809.Action
