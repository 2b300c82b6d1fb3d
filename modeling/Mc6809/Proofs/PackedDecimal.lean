/-
  Packed decimal numbers, two digits a byte, and their sums by ADC and DAA.

  ADC adds bytes, so a digit of its sum can be above 9, or have passed 15 and be 16 short. H and C
  tell of the digits that have passed 15 (`Alu.halfCarry_addWithCarry`), the rest shows in the byte
  (`Alu.OfDigits.toNat_correction`). Six more for each such digit makes the byte packed again, worth
  the sum of the decimal numbers less the hundred that goes into C (`Alu.addDecimal_packed`).
  The C that DAA leaves is thus the carry into the next two digits, and the digits of any number of
  bytes add up.
-/
import Mc6809.Proofs.CarryChain

namespace Mc6809

/-! ## Packed decimal numbers -/

/-- Both halves of the byte are decimal digits. -/
def IsPacked (byte : UInt8) : Prop := byte.toNat / 16 ≤ 9 ∧ byte.toNat % 16 ≤ 9

instance (byte : UInt8) : Decidable (IsPacked byte) := inferInstanceAs (Decidable (_ ∧ _))

/-- The number of two digits, the tens in the upper half. -/
def decimal (byte : UInt8) : Nat := 10 * (byte.toNat / 16) + byte.toNat % 16

/-- The number that packed bytes stand for, the last two digits in the first byte. -/
def decimalValue (bytes : List UInt8) : Nat := Nat.ofDigits 100 (bytes.map decimal)

@[simp] theorem decimalValue_nil : decimalValue [] = 0 := rfl

theorem decimalValue_cons (byte : UInt8) (bytes : List UInt8) :
    decimalValue (byte :: bytes) = decimal byte + 100 * decimalValue bytes := Nat.ofDigits_cons

/-! ## Halves of a byte -/

theorem toNat_upperHalf (byte : UInt8) : (byte &&& 0xF0).toNat = 16 * (byte.toNat / 16) := by
  have all : ∀ n : Fin 256,
      (UInt8.ofFin n &&& 0xF0).toNat = 16 * ((UInt8.ofFin n).toNat / 16) := by decide +kernel
  exact all byte.toFin

theorem toNat_lowerHalf (byte : UInt8) : (byte &&& 0x0F).toNat = byte.toNat % 16 := by
  rw [UInt8.toNat_and]
  exact Nat.and_two_pow_sub_one_eq_mod byte.toNat 4

/-- Of three bits an odd number is set. -/
theorem xor_decide (p q r : Prop) [Decidable p] [Decidable q] [Decidable r] :
    ((decide p ^^ decide q) ^^ decide r) = true ↔ ((p ↔ q) ↔ r) := by
  by_cases p <;> by_cases q <;> by_cases r <;> simp [*]

namespace Alu

/-! ## One byte -/

section

variable (cc : Flags) (a b : UInt8)

theorem toNat_addWithCarry (carryIn : Bool) : (addWithCarry cc a b carryIn).1.toNat =
    (a.toNat + b.toNat + carryIn.toNat) % 256 := UInt8.toNat_ofNat'

theorem carry_addWithCarry (carryIn : Bool) : (addWithCarry cc a b carryIn).2.carry ↔
    255 < a.toNat + b.toNat + carryIn.toNat := decide_eq_true_iff

/-- H says that the lower halves have come to more than a half can hold. -/
theorem halfCarry_addWithCarry (carryIn : Bool) : (addWithCarry cc a b carryIn).2.halfCarry ↔
    16 ≤ a.toNat % 16 + b.toNat % 16 + carryIn.toNat := by
  have hresult := toNat_addWithCarry cc a b carryIn
  have hin := carryIn.toNat_le
  show (a ^^^ b ^^^ (addWithCarry cc a b carryIn).1) &&& 0x10 != 0 ↔ _
  have hmask : (0x10 : UInt8).toNat = 2 ^ 4 := rfl
  -- Bit 4 of the sum is that of the operands changed by what the lower halves carry.
  rw [mask_ne_zero8 _ hmask, UInt8.toNat_xor, UInt8.toNat_xor, Nat.testBit_xor, Nat.testBit_xor,
    Nat.testBit_eq_decide_div_mod_eq, Nat.testBit_eq_decide_div_mod_eq,
    Nat.testBit_eq_decide_div_mod_eq, hresult, xor_decide]
  omega

/-- Six for the lower digit and ninety-six for the upper one. -/
theorem toNat_decimalCorrection : (decimalCorrection cc a).toNat =
    (if cc.carry ∨ 9 < a.toNat / 16 ∨ 8 < a.toNat / 16 ∧ 9 < a.toNat % 16 then 96 else 0) +
      if cc.halfCarry ∨ 9 < a.toNat % 16 then 6 else 0 := by
  have hupper (digit : UInt8) (tens : Nat) (h : digit.toNat = 16 * tens) :
      a &&& 0xF0 > digit ↔ tens < a.toNat / 16 := by
    rw [gt_iff_lt, UInt8.lt_iff_toNat_lt, toNat_upperHalf, h]
    omega
  have hlower : a &&& 0x0F > 9 ↔ 9 < a.toNat % 16 := by
    rw [gt_iff_lt, UInt8.lt_iff_toNat_lt, toNat_lowerHalf]
    rfl
  unfold decimalCorrection
  simp only [Bool.or_eq_true, Bool.and_eq_true, decide_eq_true_iff, hupper 0x90 9 rfl,
    hupper 0x80 8 rfl, hlower, or_assoc]
  split <;> split <;> rfl

theorem toNat_daa : (daa cc a).1.toNat =
    (a.toNat + (decimalCorrection cc a).toNat) % 256 := UInt8.toNat_ofNat'

theorem carry_daa : (daa cc a).2.carry ↔
    cc.carry ∨ 255 < a.toNat + (decimalCorrection cc a).toNat := by
  show (cc.carry || decide _) = true ↔ _
  rw [Bool.or_eq_true, decide_eq_true_iff]

end

/-- A byte holds the sums of the digits of two packed bytes, each worth 16 of the next, with C and H
for what has gone out of its upper and lower half. -/
structure OfDigits (tens ones : Nat) (sum : UInt8) (cc : Flags) : Prop where
  tens_le : tens ≤ 18
  ones_le : ones ≤ 19
  value : sum.toNat = (16 * tens + ones) % 256
  carry : cc.carry ↔ 255 < 16 * tens + ones
  halfCarry : cc.halfCarry ↔ 16 ≤ ones

theorem ofDigits_adc {a b : UInt8} (ha : IsPacked a) (hb : IsPacked b) (cc : Flags) :
    OfDigits (a.toNat / 16 + b.toNat / 16) (a.toNat % 16 + b.toNat % 16 + cc.carry.toNat)
      (adc cc a b).1 (adc cc a b).2 := by
  obtain ⟨haTens, haOnes⟩ := ha
  obtain ⟨hbTens, hbOnes⟩ := hb
  have hin := cc.carry.toNat_le
  have hsum : 16 * (a.toNat / 16 + b.toNat / 16) +
      (a.toNat % 16 + b.toNat % 16 + cc.carry.toNat) = a.toNat + b.toNat + cc.carry.toNat := by
    omega
  refine ⟨by omega, by omega, ?_, ?_, halfCarry_addWithCarry cc a b cc.carry⟩
  · rw [hsum]
    exact toNat_addWithCarry cc a b cc.carry
  · rw [hsum]
    exact carry_addWithCarry cc a b cc.carry

section

variable {tens ones : Nat} {sum : UInt8} {cc : Flags} (h : OfDigits tens ones sum cc)
include h

/-- The correction goes to the digits that are more than 9, the upper one with what the lower one
carries. -/
theorem OfDigits.toNat_correction : (decimalCorrection cc sum).toNat =
    (if 9 < tens + ones / 10 then 96 else 0) + if 9 < ones then 6 else 0 := by
  obtain ⟨htens, hones, hvalue, hcarry, hhalf⟩ := h
  have hlower : cc.halfCarry ∨ 9 < sum.toNat % 16 ↔ 9 < ones := by
    rw [hhalf, hvalue]
    omega
  have hupper : cc.carry ∨ 9 < sum.toNat / 16 ∨ 8 < sum.toNat / 16 ∧ 9 < sum.toNat % 16 ↔
      9 < tens + ones / 10 := by
    rw [hcarry, hvalue]
    omega
  simp only [toNat_decimalCorrection, hlower, hupper]

/-- DAA leaves the decimal digits. -/
theorem OfDigits.toNat_daa : (daa cc sum).1.toNat = 16 * ((tens + ones / 10) % 10) + ones % 10 := by
  have ⟨htens, hones, hvalue, _, _⟩ := h
  rw [Alu.toNat_daa, h.toNat_correction, hvalue]
  split <;> split <;> omega

/-- DAA leaves C set if the tens have come to more than 9. -/
theorem OfDigits.carry_daa : (daa cc sum).2.carry ↔ 9 < tens + ones / 10 := by
  have ⟨htens, hones, hvalue, hcarry, _⟩ := h
  rw [Alu.carry_daa, h.toNat_correction, hvalue, hcarry]
  split <;> split <;> omega

end

/-! ## Numbers of many bytes -/

/-- ADC and then DAA. -/
def addDecimal (cc : Flags) (a b : UInt8) : UInt8 × Flags :=
  let (sum, next) := adc cc a b
  daa next sum

/-- The sum of packed bytes is packed again, and C is the hundred that it lacks. -/
theorem addDecimal_packed {a b : UInt8} (ha : IsPacked a) (hb : IsPacked b) (cc : Flags) :
    IsPacked (addDecimal cc a b).1 ∧
      decimal (addDecimal cc a b).1 + 100 * (addDecimal cc a b).2.carry.toNat =
        decimal a + decimal b + cc.carry.toNat := by
  have h := ofDigits_adc ha hb cc
  have htens := h.tens_le
  have hones := h.ones_le
  have hresult : (addDecimal cc a b).1.toNat = _ := h.toNat_daa
  have hcarry : (addDecimal cc a b).2.carry ↔ _ := h.carry_daa
  unfold IsPacked decimal
  rw [hresult]
  constructor
  · omega
  · cases hout : (addDecimal cc a b).2.carry with
    | false =>
      have hless := mt hcarry.mpr (Bool.eq_false_iff.mp hout)
      rw [Bool.toNat_false]
      omega
    | true =>
      have hmore := hcarry.mp hout
      rw [Bool.toNat_true]
      omega

/-- ADC and DAA of one pair of packed bytes after the other, from the last digits on, with C carried
from each DAA to the next ADC, add the decimal numbers. The result is packed, as long as the
operands, and lacks what the last C is worth. -/
theorem decimal_chain_exact {a b : List UInt8} (hlength : a.length = b.length)
    (ha : ∀ byte ∈ a, IsPacked byte) (hb : ∀ byte ∈ b, IsPacked byte) (cc : Flags) :
    ∃ result last, chain addDecimal cc (a.zip b) = (result, last) ∧ result.length = a.length ∧
      (∀ byte ∈ result, IsPacked byte) ∧
      decimalValue result + 100 ^ a.length * last.carry.toNat =
        decimalValue a + decimalValue b + cc.carry.toNat := by
  refine ⟨_, _, rfl, length_chain_zip hlength cc addDecimal, ?_⟩
  induction a generalizing b cc with
  | nil =>
    rw [List.length_eq_zero_iff.mp hlength.symm]
    exact ⟨(fun _ h => nomatch h), by simp⟩
  | cons first a ih =>
    cases b with
    | nil => exact absurd hlength (Nat.succ_ne_zero _)
    | cons second b =>
      obtain ⟨hfirst, ha⟩ := List.forall_mem_cons.mp ha
      obtain ⟨hsecond, hb⟩ := List.forall_mem_cons.mp hb
      obtain ⟨hpacked, hvalue⟩ := addDecimal_packed hfirst hsecond cc
      obtain ⟨hrest, htotal⟩ := ih (Nat.succ_inj.mp hlength) ha hb (addDecimal cc first second).2
      rw [List.zip_cons_cons, chain_cons, List.length_cons, decimalValue_cons, decimalValue_cons,
        decimalValue_cons, Nat.pow_succ']
      exact ⟨List.forall_mem_cons.mpr ⟨hpacked, hrest⟩, by
        linear_combination hvalue + 100 * htotal⟩

/-- 1999 + 1 with no carry coming in, and 9999 + 1 of which a carry goes out. -/
theorem decimal_chain_exact_carries :
    (∃ result last, chain addDecimal {} ([0x99, 0x19].zip [0x01, 0x00]) = (result, last) ∧
      decimalValue result + 100 ^ 2 * last.carry.toNat = 2000) ∧
    ∃ result last, chain addDecimal {} ([0x99, 0x99].zip [0x01, 0x00]) = (result, last) ∧
      decimalValue result + 100 ^ 2 * last.carry.toNat = 10000 := by
  have hpair {first second : UInt8} (hfirst : IsPacked first) (hsecond : IsPacked second) :
      ∀ byte ∈ [first, second], IsPacked byte :=
    List.forall_mem_cons.mpr ⟨hfirst, List.forall_mem_singleton.mpr hsecond⟩
  have hone : ∀ byte ∈ [0x01, 0x00], IsPacked byte := hpair (by decide) (by decide)
  obtain ⟨result, last, hchain, -, -, hvalue⟩ :=
    decimal_chain_exact (show [0x99, 0x19].length = [0x01, 0x00].length from rfl)
      (hpair (by decide) (by decide)) hone {}
  obtain ⟨result', last', hchain', -, -, hvalue'⟩ :=
    decimal_chain_exact (show [0x99, 0x99].length = [0x01, 0x00].length from rfl)
      (hpair (by decide) (by decide)) hone {}
  exact ⟨⟨result, last, hchain, hvalue⟩, result', last', hchain', hvalue'⟩

end Alu

end Mc6809
