/-
  Binary64 numbers by their bit patterns. A finite pattern stands for `significand · 2^exponent`
  with a sign; in the other direction `nearest` gives the pattern closest to such a
  product. All arithmetic is on natural numbers and exact.
-/

namespace Mc6809.Binary64

/-- What a bit pattern stands for. -/
inductive Meaning where
  | finite (negative : Bool) (significand : Nat) (exponent : Int)
  | infinite (negative : Bool)
  | nan
deriving DecidableEq, Repr

/-- The leading bit of a significand of fifty-three bits, which a pattern leaves out: 2^52. -/
def hiddenBit : Nat := 0x10000000000000

/-- Reads a pattern: one bit of sign, eleven of exponent and fifty-two of fraction. -/
def meaning (bits : UInt64) : Meaning :=
  let negative := decide (0x8000000000000000 ≤ bits.toNat)
  let biased : Nat := bits.toNat / hiddenBit % 2048
  let fraction : Nat := bits.toNat % hiddenBit
  if biased = 2047 then
    if fraction = 0 then .infinite negative else .nan
  else if biased = 0 then .finite negative fraction (-1074)
  else .finite negative (hiddenBit + fraction) (biased - 1075)

/-- `value / 2^places` rounded to the nearest whole number, a half going to the even one. -/
def halveToEven (value places : Nat) : Nat :=
  let unit := Nat.pow 2 places
  let quotient := value / unit
  let remainder := value % unit
  if 2 * remainder > unit ∨ (2 * remainder = unit ∧ quotient % 2 = 1) then
    quotient + 1
  else quotient

/-- `value / 2^places` rounded to the nearest whole number, a half going up. -/
def halveUp (value places : Nat) : Nat :=
  (2 * value + Nat.pow 2 places) / Nat.pow 2 (places + 1)

/-- The pattern nearest to `value · 2^exponent`, for a positive value whose nearest number
is neither subnormal nor infinite. -/
def nearest (value : Nat) (exponent : Int) : UInt64 :=
  let length := value.log2 + 1
  let (significand, exponent) :=
    if length ≤ 53 then (value * Nat.pow 2 (53 - length), exponent - (53 - length : Nat))
    else (halveToEven value (length - 53), exponent + (length - 53 : Nat))
  let (significand, exponent) :=
    if significand = 2 * hiddenBit then (hiddenBit, exponent + 1) else (significand, exponent)
  UInt64.ofNat ((exponent + 1075).toNat * hiddenBit + (significand - hiddenBit))

end Mc6809.Binary64
