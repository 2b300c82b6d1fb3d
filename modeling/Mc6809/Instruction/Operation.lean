/-
  The operations of the instruction set, apart from how their operands are addressed, and
  the decoder from opcode bytes. The decoder goes by the shape of the opcode map: rows by
  the high four bits, columns by the low four, with the right half of the map repeating
  the left half for B in place of A. What the tables of `Mc6809.Opcode.Table` document is
  a second account of the same map.
-/
import Mc6809.Alu
import Mc6809.Interrupt
import Mc6809.Opcode.Table
import Mc6809.Registers

namespace Mc6809

/-- Operations on one byte, in memory or in an accumulator. -/
inductive UnaryOp where
  | neg | com | lsr | ror | asr | lsl | rol | dec | inc | clr
deriving DecidableEq, Repr

def UnaryOp.apply : UnaryOp → Flags → UInt8 → UInt8 × Flags
  | .neg => Alu.neg
  | .com => Alu.com
  | .lsr => Alu.lsr
  | .ror => Alu.ror
  | .asr => Alu.asr
  | .lsl => Alu.lsl
  | .rol => Alu.rol
  | .dec => Alu.dec
  | .inc => Alu.inc
  | .clr => Alu.clr

/-- Operations on an accumulator and a byte that keep the result. -/
inductive BinaryOp where
  | sub | sbc | and | eor | adc | or | add
deriving DecidableEq, Repr

def BinaryOp.apply : BinaryOp → Flags → UInt8 → UInt8 → UInt8 × Flags
  | .sub => Alu.sub
  | .sbc => Alu.sbc
  | .and => Alu.and
  | .eor => Alu.eor
  | .adc => Alu.adc
  | .or => Alu.or
  | .add => Alu.add

/-- Operations on an accumulator and a byte that keep only the flags. -/
inductive CompareOp where
  | cmp | bit
deriving DecidableEq, Repr

def CompareOp.apply : CompareOp → Flags → UInt8 → UInt8 → Flags
  | .cmp, cc, a, b => (Alu.sub cc a b).2
  | .bit, cc, a, b => (Alu.and cc a b).2

/-- Operations on D and a word. -/
inductive WideOp where
  | add | sub
deriving DecidableEq, Repr

def WideOp.apply : WideOp → Flags → UInt16 → UInt16 → UInt16 × Flags
  | .add => Alu.add16
  | .sub => Alu.sub16

/-- The branch conditions, in the order of their column. -/
inductive Condition where
  | always | never | higher | lowerOrSame | higherOrSame | lower | notEqual | equal
  | overflowClear | overflowSet | plus | minus
  | greaterOrEqual | less | greater | lessOrEqual
deriving DecidableEq, Repr

namespace Condition

/-- Whether the flags satisfy the condition. -/
def holds (cc : Flags) : Condition → Bool
  | always => true
  | never => false
  | higher => !cc.carry && !cc.zero
  | lowerOrSame => cc.carry || cc.zero
  | higherOrSame => !cc.carry
  | lower => cc.carry
  | notEqual => !cc.zero
  | equal => cc.zero
  | overflowClear => !cc.overflow
  | overflowSet => cc.overflow
  | plus => !cc.negative
  | minus => cc.negative
  | greaterOrEqual => cc.negative == cc.overflow
  | less => cc.negative != cc.overflow
  | greater => !cc.zero && cc.negative == cc.overflow
  | lessOrEqual => cc.zero || cc.negative != cc.overflow

/-- The condition of a column. -/
def ofColumn : Nat → Condition
  | 0x0 => always
  | 0x1 => never
  | 0x2 => higher
  | 0x3 => lowerOrSame
  | 0x4 => higherOrSame
  | 0x5 => lower
  | 0x6 => notEqual
  | 0x7 => equal
  | 0x8 => overflowClear
  | 0x9 => overflowSet
  | 0xA => plus
  | 0xB => minus
  | 0xC => greaterOrEqual
  | 0xD => less
  | 0xE => greater
  | _ => lessOrEqual

end Condition

/-- What an instruction does, apart from its addressing mode. -/
inductive Operation where
  | modifyMemory (op : UnaryOp)
  | modifyAccumulator (op : UnaryOp) (acc : Accumulator)
  | testMemory
  | testAccumulator (acc : Accumulator)
  | jump
  | call
  | nop
  | sync
  | decimalAdjust
  | orFlags
  | andFlags
  | signExtend
  | exchange
  | transfer
  | branch (condition : Condition)
  | longBranch (condition : Condition)
  | longBranchAlways
  | loadAddress (reg : IndexRegister)
  | push (stack : IndexRegister)
  | pull (stack : IndexRegister)
  | returnFromSubroutine
  | addBToX
  | returnFromInterrupt
  | waitForInterrupt
  | multiply
  | softwareInterrupt (kind : SoftwareInterrupt)
  | binary8 (op : BinaryOp) (acc : Accumulator)
  | compare8 (op : CompareOp) (acc : Accumulator)
  | load8 (acc : Accumulator)
  | store8 (acc : Accumulator)
  | binary16 (op : WideOp)
  | compare16 (reg : Register)
  | load16 (reg : Register)
  | store16 (reg : Register)
deriving DecidableEq, Repr

namespace UnaryOp

/-- The operation of a column in the rows of one-operand instructions. -/
def ofColumn : Nat → Option UnaryOp
  | 0x0 => some neg
  | 0x3 => some com
  | 0x4 => some lsr
  | 0x6 => some ror
  | 0x7 => some asr
  | 0x8 => some lsl
  | 0x9 => some rol
  | 0xA => some dec
  | 0xC => some inc
  | 0xF => some clr
  | _ => none

end UnaryOp

namespace Operation

/-- Rows 0, 6 and 7. -/
def ofMemoryColumn : Nat → Option Operation
  | 0xD => some testMemory
  | 0xE => some jump
  | column => (UnaryOp.ofColumn column).map modifyMemory

/-- Rows 4 and 5. -/
def ofAccumulatorColumn (acc : Accumulator) : Nat → Option Operation
  | 0xD => some (testAccumulator acc)
  | column => (UnaryOp.ofColumn column).map (modifyAccumulator · acc)

/-- Row 1. -/
def ofRow1Column : Nat → Option Operation
  | 0x2 => some nop
  | 0x3 => some sync
  | 0x6 => some longBranchAlways
  | 0x7 => some call
  | 0x9 => some decimalAdjust
  | 0xA => some orFlags
  | 0xC => some andFlags
  | 0xD => some signExtend
  | 0xE => some exchange
  | 0xF => some transfer
  | _ => none

/-- Row 3. -/
def ofRow3Column : Nat → Option Operation
  | 0x0 => some (loadAddress .x)
  | 0x1 => some (loadAddress .y)
  | 0x2 => some (loadAddress .s)
  | 0x3 => some (loadAddress .u)
  | 0x4 => some (push .s)
  | 0x5 => some (pull .s)
  | 0x6 => some (push .u)
  | 0x7 => some (pull .u)
  | 0x9 => some returnFromSubroutine
  | 0xA => some addBToX
  | 0xB => some returnFromInterrupt
  | 0xC => some waitForInterrupt
  | 0xD => some multiply
  | 0xF => some (softwareInterrupt .swi)
  | _ => none

/-- Rows 8 to F. Columns 3 and C to F differ between the halves of the map. -/
def ofRegisterColumn (acc : Accumulator) : Nat → Option Operation
  | 0x0 => some (binary8 .sub acc)
  | 0x1 => some (compare8 .cmp acc)
  | 0x2 => some (binary8 .sbc acc)
  | 0x3 => match acc with
    | .a => some (binary16 .sub)
    | .b => some (binary16 .add)
  | 0x4 => some (binary8 .and acc)
  | 0x5 => some (compare8 .bit acc)
  | 0x6 => some (load8 acc)
  | 0x7 => some (store8 acc)
  | 0x8 => some (binary8 .eor acc)
  | 0x9 => some (binary8 .adc acc)
  | 0xA => some (binary8 .or acc)
  | 0xB => some (binary8 .add acc)
  | 0xC => match acc with
    | .a => some (compare16 .x)
    | .b => some (load16 .d)
  | 0xD => match acc with
    | .a => some call
    | .b => some (store16 .d)
  | 0xE => match acc with
    | .a => some (load16 .x)
    | .b => some (load16 .u)
  | 0xF => match acc with
    | .a => some (store16 .x)
    | .b => some (store16 .u)
  | _ => none

/-- The operation at a row and column of the first table. -/
def ofPage1 (row column : Nat) : Option Operation :=
  match row with
  | 0x0 | 0x6 | 0x7 => ofMemoryColumn column
  | 0x1 => ofRow1Column column
  | 0x2 => some (branch (Condition.ofColumn column))
  | 0x3 => ofRow3Column column
  | 0x4 => ofAccumulatorColumn .a column
  | 0x5 => ofAccumulatorColumn .b column
  | 0x8 | 0x9 | 0xA | 0xB => ofRegisterColumn .a column
  | _ => ofRegisterColumn .b column

/-- The operation at a row and column of the table after 0x10: the long branches, SWI2,
and the D, Y and S forms. -/
def ofPage2 (row column : Nat) : Option Operation :=
  match row, column with
  | 0x2, 0x0 => none
  | 0x2, _ => some (longBranch (Condition.ofColumn column))
  | 0x3, 0xF => some (softwareInterrupt .swi2)
  | 0x8, 0x3 | 0x9, 0x3 | 0xA, 0x3 | 0xB, 0x3 => some (compare16 .d)
  | 0x8, 0xC | 0x9, 0xC | 0xA, 0xC | 0xB, 0xC => some (compare16 .y)
  | 0x8, 0xE | 0x9, 0xE | 0xA, 0xE | 0xB, 0xE => some (load16 .y)
  | 0x9, 0xF | 0xA, 0xF | 0xB, 0xF => some (store16 .y)
  | 0xC, 0xE | 0xD, 0xE | 0xE, 0xE | 0xF, 0xE => some (load16 .s)
  | 0xD, 0xF | 0xE, 0xF | 0xF, 0xF => some (store16 .s)
  | _, _ => none

/-- The operation at a row and column of the table after 0x11: SWI3, CMPU and CMPS. -/
def ofPage3 (row column : Nat) : Option Operation :=
  match row, column with
  | 0x3, 0xF => some (softwareInterrupt .swi3)
  | 0x8, 0x3 | 0x9, 0x3 | 0xA, 0x3 | 0xB, 0x3 => some (compare16 .u)
  | 0x8, 0xC | 0x9, 0xC | 0xA, 0xC | 0xB, 0xC => some (compare16 .s)
  | _, _ => none

/-- The operation that an opcode byte selects. A byte that no row and column covers has
none; so do some bytes that the tables leave undefined, but not all of them. -/
def ofOpcode (page : OpcodePage) (opcode : UInt8) : Option Operation :=
  let row := opcode.toNat / 16
  let column := opcode.toNat % 16
  match page with
  | .page1 => ofPage1 row column
  | .page2 => ofPage2 row column
  | .page3 => ofPage3 row column

end Operation

end Mc6809
