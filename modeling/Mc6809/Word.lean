/-
  Bytes and words. A 16-bit word is stored high byte first; `joinBytes` and the two
  halves are inverse to each other (`joinBytes_highByte_lowByte`, `highByte_joinBytes`,
  `lowByte_joinBytes`). Signed offsets are added after `signExtend`, modulo 2^16.
-/

namespace Mc6809

/-- The word with the given high and low bytes. -/
def joinBytes (high low : UInt8) : UInt16 := high.toUInt16 <<< 8 ||| low.toUInt16

/-- The upper eight bits of a word. -/
def highByte (word : UInt16) : UInt8 := (word >>> 8).toUInt8

/-- The lower eight bits of a word. -/
def lowByte (word : UInt16) : UInt8 := word.toUInt8

/-- The word that has the same value as a byte read as an 8-bit two's complement number. -/
def signExtend (byte : UInt8) : UInt16 :=
  if byte &&& 0x80 = 0 then byte.toUInt16 else 0xFF00 ||| byte.toUInt16

theorem toNat_joinBytes (high low : UInt8) :
    (joinBytes high low).toNat = 256 * high.toNat + low.toNat := by
  have hh := high.toNat_lt
  have hl := low.toNat_lt
  unfold joinBytes
  rw [UInt16.toNat_or, UInt16.toNat_shiftLeft, UInt8.toNat_toUInt16, UInt8.toNat_toUInt16]
  have shift : high.toNat <<< ((8 : UInt16).toNat % 16) % 2 ^ 16 = high.toNat <<< 8 := by
    have : (8 : UInt16).toNat % 16 = 8 := rfl
    rw [this, Nat.shiftLeft_eq]
    omega
  rw [shift, ← Nat.shiftLeft_add_eq_or_of_lt (by omega), Nat.shiftLeft_eq]
  omega

theorem toNat_highByte (word : UInt16) : (highByte word).toNat = word.toNat / 256 := by
  have := word.toNat_lt
  unfold highByte
  rw [UInt16.toNat_toUInt8, UInt16.toNat_shiftRight]
  have : (8 : UInt16).toNat % 16 = 8 := rfl
  rw [this, Nat.shiftRight_eq_div_pow]
  omega

theorem toNat_lowByte (word : UInt16) : (lowByte word).toNat = word.toNat % 256 := by
  unfold lowByte
  rw [UInt16.toNat_toUInt8]

@[simp] theorem highByte_joinBytes (high low : UInt8) : highByte (joinBytes high low) = high := by
  apply UInt8.toNat_inj.mp
  have := low.toNat_lt
  rw [toNat_highByte, toNat_joinBytes]
  omega

@[simp] theorem lowByte_joinBytes (high low : UInt8) : lowByte (joinBytes high low) = low := by
  apply UInt8.toNat_inj.mp
  have := low.toNat_lt
  rw [toNat_lowByte, toNat_joinBytes]
  omega

@[simp] theorem joinBytes_highByte_lowByte (word : UInt16) :
    joinBytes (highByte word) (lowByte word) = word := by
  apply UInt16.toNat_inj.mp
  rw [toNat_joinBytes, toNat_highByte, toNat_lowByte]
  omega

end Mc6809
