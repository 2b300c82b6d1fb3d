/-
  Indexed post-bytes. With bit 7 clear the low five bits are a signed offset. With it set
  the low four bits name the sub-mode and bit 4 asks for one level of indirection. Bits 6
  and 5 name the register in both forms.
-/
import Mc6809.Fault
import Mc6809.Registers

namespace Mc6809

/-- The sub-modes of indexed addressing. -/
inductive IndexedMode where
  /-- `n,R` with the sign-extended offset from the post-byte itself. -/
  | offset5 (offset : UInt16)
  /-- `,R+` -/
  | postIncrement1
  /-- `,R++` -/
  | postIncrement2
  /-- `,-R` -/
  | preDecrement1
  /-- `,--R` -/
  | preDecrement2
  /-- `,R` -/
  | noOffset
  /-- `B,R` -/
  | accumulatorB
  /-- `A,R` -/
  | accumulatorA
  /-- `n8,R` -/
  | offset8
  /-- `n16,R` -/
  | offset16
  /-- `D,R` -/
  | accumulatorD
  /-- `n8,PCR` -/
  | pcOffset8
  /-- `n16,PCR` -/
  | pcOffset16
  /-- `[n16]` -/
  | extendedIndirect
deriving DecidableEq, Repr

/-- A decoded post-byte. -/
structure Postbyte where
  register : IndexRegister
  mode : IndexedMode
  indirect : Bool
deriving DecidableEq, Repr

namespace Postbyte

/-- The five-bit field as a signed offset, modulo 2^16. -/
def shortOffset (postbyte : UInt8) : UInt16 :=
  if postbyte &&& 0x10 = 0 then (postbyte &&& 0x0F).toUInt16
  else 0xFFF0 ||| (postbyte &&& 0x0F).toUInt16

/-- The sub-mode that the low four bits select when bit 7 is set. The one-byte steps have
no indirect form, and `[n16]` has only an indirect form, with the register bits of X. -/
def extendedMode? (register : IndexRegister) (indirect : Bool) (low : Nat) :
    Option IndexedMode :=
  match low with
  | 0x0 => if indirect then none else some .postIncrement1
  | 0x1 => some .postIncrement2
  | 0x2 => if indirect then none else some .preDecrement1
  | 0x3 => some .preDecrement2
  | 0x4 => some .noOffset
  | 0x5 => some .accumulatorB
  | 0x6 => some .accumulatorA
  | 0x8 => some .offset8
  | 0x9 => some .offset16
  | 0xB => some .accumulatorD
  | 0xC => some .pcOffset8
  | 0xD => some .pcOffset16
  | 0xF => if indirect && register = .x then some .extendedIndirect else none
  | _ => none

/-- The meaning of a post-byte, or the fault that names it. -/
def decode (postbyte : UInt8) : Except Fault Postbyte :=
  let register := IndexRegister.ofPostbyte postbyte
  if postbyte &&& 0x80 = 0 then
    .ok ⟨register, .offset5 (shortOffset postbyte), false⟩
  else
    let indirect := postbyte &&& 0x10 != 0
    match extendedMode? register indirect (postbyte &&& 0x0F).toNat with
    | some mode => .ok ⟨register, mode, indirect⟩
    | none => .error (.undefinedPostbyte postbyte)

/-- Cycles of the sub-mode without indirection. -/
def directCycles : IndexedMode → UInt8
  | .noOffset => 0
  | .offset5 _ | .accumulatorB | .accumulatorA | .offset8 | .pcOffset8 => 1
  | .postIncrement1 | .preDecrement1 => 2
  | .postIncrement2 | .preDecrement2 => 3
  | .offset16 | .accumulatorD => 4
  | .pcOffset16 => 5
  | .extendedIndirect => 5

/-- Cycles on top of the base cost. Indirection costs three more, which `[n16]` already
counts. -/
def extraCycles (decoded : Postbyte) : UInt8 :=
  if decoded.indirect && decoded.mode != .extendedIndirect then directCycles decoded.mode + 3
  else directCycles decoded.mode

/-- Offset or address bytes that follow the post-byte. -/
def extensionBytes (decoded : Postbyte) : UInt8 :=
  match decoded.mode with
  | .offset8 | .pcOffset8 => 1
  | .offset16 | .pcOffset16 | .extendedIndirect => 2
  | _ => 0

end Postbyte

end Mc6809
