/-
  The register file. A and B together form D with A as the high byte, so writing D
  writes both. A narrow register reads as its zero-extended value and takes the low
  byte of what is written to it.
-/
import Mc6809.Text.Hex
import Mc6809.Word
import Mc6809.Flags

namespace Mc6809

/-- The two 8-bit accumulators. -/
inductive Accumulator where
  | a | b
deriving DecidableEq, Repr

/-- The four 16-bit registers that indexed addressing can name. -/
inductive IndexRegister where
  | x | y | u | s
deriving DecidableEq, Repr

/-- Bits 6 and 5 of an indexed post-byte name the register. -/
def IndexRegister.ofPostbyte (postbyte : UInt8) : IndexRegister :=
  match (postbyte >>> 5 &&& 0x03).toNat with
  | 0 => .x
  | 1 => .y
  | 2 => .u
  | _ => .s

/-- Every register that a program can name. -/
inductive Register where
  | d | x | y | u | s | pc | a | b | cc | dp
deriving DecidableEq, Repr

namespace Register

/-- The register with a transfer code; only the low four bits count. -/
def ofCode (code : UInt8) : Option Register :=
  match (code &&& 0x0F).toNat with
  | 0x0 => some .d
  | 0x1 => some .x
  | 0x2 => some .y
  | 0x3 => some .u
  | 0x4 => some .s
  | 0x5 => some .pc
  | 0x8 => some .a
  | 0x9 => some .b
  | 0xA => some .cc
  | 0xB => some .dp
  | _ => none

/-- The 16-bit registers. -/
def isWide : Register → Bool
  | .d | .x | .y | .u | .s | .pc => true
  | .a | .b | .cc | .dp => false

end Register

/-- An index register as a register of the file. -/
def IndexRegister.toRegister : IndexRegister → Register
  | .x => .x
  | .y => .y
  | .u => .u
  | .s => .s

/-- An accumulator as a register of the file. -/
def Accumulator.toRegister : Accumulator → Register
  | .a => .a
  | .b => .b

/-- The values of all registers. -/
structure Registers where
  a : UInt8 := 0
  b : UInt8 := 0
  dp : UInt8 := 0
  x : UInt16 := 0
  y : UInt16 := 0
  u : UInt16 := 0
  s : UInt16 := 0
  pc : UInt16 := 0
  cc : Flags := {}
deriving DecidableEq, Repr, Inhabited

namespace Registers

/-- A and B as one word. -/
def d (regs : Registers) : UInt16 := joinBytes regs.a regs.b

/-- Splits a word over A and B. -/
def setD (regs : Registers) (value : UInt16) : Registers :=
  { regs with a := highByte value, b := lowByte value }

def accumulator (regs : Registers) : Accumulator → UInt8
  | .a => regs.a
  | .b => regs.b

def setAccumulator (regs : Registers) (acc : Accumulator) (value : UInt8) : Registers :=
  match acc with
  | .a => { regs with a := value }
  | .b => { regs with b := value }

def index (regs : Registers) : IndexRegister → UInt16
  | .x => regs.x
  | .y => regs.y
  | .u => regs.u
  | .s => regs.s

def setIndex (regs : Registers) (reg : IndexRegister) (value : UInt16) : Registers :=
  match reg with
  | .x => { regs with x := value }
  | .y => { regs with y := value }
  | .u => { regs with u := value }
  | .s => { regs with s := value }

/-- The value of a register; a narrow one is zero-extended. -/
def get (regs : Registers) : Register → UInt16
  | .d => regs.d
  | .x => regs.x
  | .y => regs.y
  | .u => regs.u
  | .s => regs.s
  | .pc => regs.pc
  | .a => regs.a.toUInt16
  | .b => regs.b.toUInt16
  | .cc => regs.cc.toByte.toUInt16
  | .dp => regs.dp.toUInt16

/-- Writes a register; a narrow one takes the low byte. -/
def set (regs : Registers) (reg : Register) (value : UInt16) : Registers :=
  match reg with
  | .d => regs.setD value
  | .x => { regs with x := value }
  | .y => { regs with y := value }
  | .u => { regs with u := value }
  | .s => { regs with s := value }
  | .pc => { regs with pc := value }
  | .a => { regs with a := lowByte value }
  | .b => { regs with b := lowByte value }
  | .cc => { regs with cc := Flags.ofByte (lowByte value) }
  | .dp => { regs with dp := lowByte value }

/-- One line naming every register with its value in hexadecimal. -/
def text (regs : Registers) : String :=
  "A=" ++ Hex.byte regs.a ++ " B=" ++ Hex.byte regs.b ++ " X=" ++ Hex.word regs.x ++
  " Y=" ++ Hex.word regs.y ++ " U=" ++ Hex.word regs.u ++ " DP=" ++ Hex.byte regs.dp ++
  " CC=" ++ Hex.byte regs.cc.toByte ++ " S=" ++ Hex.word regs.s ++ " PC=" ++ Hex.word regs.pc

@[simp] theorem setD_d (regs : Registers) (value : UInt16) : (regs.setD value).d = value := by
  simp [setD, d]

end Registers

end Mc6809
