/-
  The faults that stop a step, with their numeric codes and texts. Bus faults mean that
  an address has no route; the others mean that the program asked for something that the
  processor leaves undefined.
-/
import Mc6809.Text.Hex
import Mc6809.Opcode.Table

namespace Mc6809

/-- Why a step stopped. -/
inductive Fault where
  /-- The opcode tables and the decoder disagree. -/
  | internal (pc : UInt16)
  /-- An opcode byte without an entry in its table. -/
  | undefinedOpcode (page : OpcodePage) (opcode : UInt8)
  /-- An indexed post-byte without a meaning. -/
  | undefinedPostbyte (postbyte : UInt8)
  /-- A transfer between undefined registers or registers of different width. -/
  | registerSelection (postbyte : UInt8)
  /-- A read that no buffer and no handler answers. -/
  | unmappedRead (address : UInt16)
  /-- A write that no buffer and no handler takes. -/
  | unmappedWrite (address : UInt16) (value : UInt8)
deriving DecidableEq, Repr

namespace Fault

/-- The number under which a host reports the fault. Zero stands for no fault. -/
def code : Fault → UInt8
  | internal _ => 1
  | undefinedOpcode .. => 2
  | undefinedPostbyte _ => 3
  | registerSelection _ => 4
  | unmappedRead _ => 5
  | unmappedWrite .. => 6

/-- The faults caused by an address without a route. -/
def isBusFault : Fault → Bool
  | unmappedRead _ | unmappedWrite .. => true
  | _ => false

/-- The text for a person. -/
def message : Fault → String
  | internal pc => "internal dispatcher error at PC 0x" ++ Hex.word pc
  | undefinedOpcode page opcode =>
    "undefined opcode 0x" ++ Hex.byte opcode ++ " in " ++ page.text ++ " table"
  | undefinedPostbyte postbyte => "undefined indexed post-byte 0x" ++ Hex.byte postbyte
  | registerSelection postbyte => "invalid register selection 0x" ++ Hex.byte postbyte
  | unmappedRead address => "read from unmapped address 0x" ++ Hex.word address
  | unmappedWrite address value =>
    "write of 0x" ++ Hex.byte value ++ " to unmapped address 0x" ++ Hex.word address

end Fault

end Mc6809
