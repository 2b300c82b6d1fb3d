/-
  Arithmetic and logic on bytes and words. Each operation takes the flags and the
  operands and returns the result with the new flags. Overflow of a sum or difference is
  read off the signs of operands and result. Only byte additions touch H.
-/
import Mc6809.Flags
import Mc6809.Word

namespace Mc6809.Alu

/-! ## Bytes -/

/-- `a + b`, plus one if a carry comes in. -/
def addWithCarry (cc : Flags) (a b : UInt8) (carryIn : Bool) : UInt8 × Flags :=
  let sum := a.toNat + b.toNat + carryIn.toNat
  let result := UInt8.ofNat sum
  (result, { cc.setNZ8 result with
    halfCarry := (a ^^^ b ^^^ result) &&& 0x10 != 0
    overflow := (a ^^^ result) &&& (b ^^^ result) &&& 0x80 != 0
    carry := decide (255 < sum) })

def add (cc : Flags) (a b : UInt8) : UInt8 × Flags := addWithCarry cc a b false

def adc (cc : Flags) (a b : UInt8) : UInt8 × Flags := addWithCarry cc a b cc.carry

/-- `a - b`, less one if a borrow comes in. C is the borrow that goes out. -/
def subtractWithBorrow (cc : Flags) (a b : UInt8) (borrowIn : Bool) : UInt8 × Flags :=
  let result := a - b - UInt8.ofNat borrowIn.toNat
  (result, { cc.setNZ8 result with
    overflow := (a ^^^ b) &&& (a ^^^ result) &&& 0x80 != 0
    carry := decide (a.toNat < b.toNat + borrowIn.toNat) })

def sub (cc : Flags) (a b : UInt8) : UInt8 × Flags := subtractWithBorrow cc a b false

def sbc (cc : Flags) (a b : UInt8) : UInt8 × Flags := subtractWithBorrow cc a b cc.carry

/-- N and Z from the value and V clear: loads, stores, tests and logic. -/
def load8 (cc : Flags) (value : UInt8) : Flags := { cc.setNZ8 value with overflow := false }

def and (cc : Flags) (a b : UInt8) : UInt8 × Flags := (a &&& b, load8 cc (a &&& b))

def or (cc : Flags) (a b : UInt8) : UInt8 × Flags := (a ||| b, load8 cc (a ||| b))

def eor (cc : Flags) (a b : UInt8) : UInt8 × Flags := (a ^^^ b, load8 cc (a ^^^ b))

/-! ## Words -/

def add16 (cc : Flags) (a b : UInt16) : UInt16 × Flags :=
  let result := a + b
  (result, { cc.setNZ16 result with
    overflow := (a ^^^ result) &&& (b ^^^ result) &&& 0x8000 != 0
    carry := decide (65535 < a.toNat + b.toNat) })

def sub16 (cc : Flags) (a b : UInt16) : UInt16 × Flags :=
  let result := a - b
  (result, { cc.setNZ16 result with
    overflow := (a ^^^ b) &&& (a ^^^ result) &&& 0x8000 != 0
    carry := decide (a < b) })

/-- N and Z from the value and V clear. -/
def load16 (cc : Flags) (value : UInt16) : Flags := { cc.setNZ16 value with overflow := false }

/-! ## One operand -/

def neg (cc : Flags) (value : UInt8) : UInt8 × Flags :=
  let result := 0 - value
  (result, { cc.setNZ8 result with overflow := value == 0x80, carry := value != 0 })

def com (cc : Flags) (value : UInt8) : UInt8 × Flags :=
  let result := ~~~value
  (result, { cc.setNZ8 result with overflow := false, carry := true })

/-- Right shifts move bit 0 into C and leave V alone. -/
def shiftRight (cc : Flags) (value top : UInt8) : UInt8 × Flags :=
  let result := value >>> 1 ||| top
  (result, { cc.setNZ8 result with carry := value &&& 0x01 != 0 })

def lsr (cc : Flags) (value : UInt8) : UInt8 × Flags := shiftRight cc value 0

def ror (cc : Flags) (value : UInt8) : UInt8 × Flags :=
  shiftRight cc value (if cc.carry then 0x80 else 0)

def asr (cc : Flags) (value : UInt8) : UInt8 × Flags := shiftRight cc value (value &&& 0x80)

/-- Left shifts move bit 7 into C and set V when that changes the sign. -/
def shiftLeft (cc : Flags) (value bottom : UInt8) : UInt8 × Flags :=
  let result := value <<< 1 ||| bottom
  (result, { cc.setNZ8 result with
    carry := value &&& 0x80 != 0
    overflow := (value ^^^ value <<< 1) &&& 0x80 != 0 })

def lsl (cc : Flags) (value : UInt8) : UInt8 × Flags := shiftLeft cc value 0

def rol (cc : Flags) (value : UInt8) : UInt8 × Flags :=
  shiftLeft cc value (if cc.carry then 0x01 else 0)

/-- Decrement and increment leave C alone. -/
def dec (cc : Flags) (value : UInt8) : UInt8 × Flags :=
  let result := value - 1
  (result, { cc.setNZ8 result with overflow := value == 0x80 })

def inc (cc : Flags) (value : UInt8) : UInt8 × Flags :=
  let result := value + 1
  (result, { cc.setNZ8 result with overflow := value == 0x7F })

/-- The operand does not matter, though it is read. -/
def clr (cc : Flags) (_value : UInt8) : UInt8 × Flags :=
  (0, { cc with negative := false, zero := true, overflow := false, carry := false })

/-! ## Accumulators -/

/-- Unsigned product. C is bit 7 of the low byte, so that adding it to the high byte rounds. -/
def mul (cc : Flags) (a b : UInt8) : UInt16 × Flags :=
  let product := a.toUInt16 * b.toUInt16
  (product, { cc with zero := product == 0, carry := product &&& 0x80 != 0 })

/-- What a decimal sum needs to be packed decimal again: 6 in the low digit after a half
carry or a low digit above 9, 6 in the high digit after a carry or a high digit above 9
once the low digit's carry is counted. -/
def decimalCorrection (cc : Flags) (a : UInt8) : UInt8 :=
  let high := a &&& 0xF0
  let low := a &&& 0x0F
  (if cc.carry || high > 0x90 || (high > 0x80 && low > 0x09) then 0x60 else 0) |||
  (if cc.halfCarry || low > 0x09 then 0x06 else 0)

/-- Decimal adjustment after a byte addition. A carry is kept and never taken back. -/
def daa (cc : Flags) (a : UInt8) : UInt8 × Flags :=
  let sum := a.toNat + (decimalCorrection cc a).toNat
  let result := UInt8.ofNat sum
  (result, { cc.setNZ8 result with carry := cc.carry || decide (255 < sum), overflow := false })

/-- The sign-extended word of a byte. -/
def sex (cc : Flags) (value : UInt8) : UInt16 × Flags :=
  (signExtend value, load16 cc (signExtend value))

end Mc6809.Alu
