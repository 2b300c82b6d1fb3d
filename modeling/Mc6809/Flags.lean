/-
  The condition codes: eight flags and the byte that packs them. Packing and unpacking
  are inverse (`ofByte_toByte`, `toByte_ofByte`), so every byte is the packed form of
  exactly one setting.
-/

namespace Mc6809

/-- The eight condition codes. -/
structure Flags where
  carry : Bool := false
  overflow : Bool := false
  zero : Bool := false
  negative : Bool := false
  irqMask : Bool := false
  halfCarry : Bool := false
  firqMask : Bool := false
  entire : Bool := false
deriving DecidableEq, Repr, Inhabited

namespace Flags

/-- Both interrupt masks set and every other flag clear, as after a hardware reset. -/
def afterReset : Flags := { irqMask := true, firqMask := true }

/-- The packed byte: from bit 0 up C, V, Z, N, I, H, F, E. -/
def toByte (flags : Flags) : UInt8 :=
  (if flags.carry then 0x01 else 0) ||| (if flags.overflow then 0x02 else 0) |||
  (if flags.zero then 0x04 else 0) ||| (if flags.negative then 0x08 else 0) |||
  (if flags.irqMask then 0x10 else 0) ||| (if flags.halfCarry then 0x20 else 0) |||
  (if flags.firqMask then 0x40 else 0) ||| (if flags.entire then 0x80 else 0)

/-- The flags packed in a byte. -/
def ofByte (byte : UInt8) : Flags where
  carry := byte &&& 0x01 != 0
  overflow := byte &&& 0x02 != 0
  zero := byte &&& 0x04 != 0
  negative := byte &&& 0x08 != 0
  irqMask := byte &&& 0x10 != 0
  halfCarry := byte &&& 0x20 != 0
  firqMask := byte &&& 0x40 != 0
  entire := byte &&& 0x80 != 0

/-- N and Z from a byte result. -/
def setNZ8 (flags : Flags) (value : UInt8) : Flags :=
  { flags with negative := value &&& 0x80 != 0, zero := value == 0 }

/-- N and Z from a word result. -/
def setNZ16 (flags : Flags) (value : UInt16) : Flags :=
  { flags with negative := value &&& 0x8000 != 0, zero := value == 0 }

@[simp] theorem ofByte_toByte (flags : Flags) : ofByte flags.toByte = flags := by
  obtain ⟨c, v, z, n, i, h, f, e⟩ := flags
  revert c v z n i h f e
  decide

@[simp] theorem toByte_ofByte (byte : UInt8) : (ofByte byte).toByte = byte := by
  have all : ∀ n : Fin 256, (ofByte (UInt8.ofFin n)).toByte = UInt8.ofFin n := by
    decide +kernel
  exact all byte.toFin

end Flags

end Mc6809
