/-
  Sums and differences of numbers of any width, and what C, N and V say of them. `Flags.OfSum` and
  `Flags.OfDifference` state it in integers: C makes up for what the result lacks, N is its top bit,
  and V says that the sum or the difference of the signed numbers cannot be written in as many bits.

  The processor reads V off top bits instead. That comes to the same for every width
  (`Flags.ofSum_of_signs`, `Flags.ofDifference_of_signs`), so one proof serves bytes, words and
  numbers of many bytes. After a difference without a borrow coming in, C and the comparison of N
  with V give the order of the two numbers (`Flags.OfDifference.carry_iff`, `less_iff`).
-/
import Mathlib.Data.Nat.Bitwise
import Mathlib.Tactic.Zify
import Mc6809.Alu

namespace Mc6809

/-! ## Two's complement -/

/-- The number that so many bits stand for in two's complement, from their value without a sign. -/
def twosComplement (bits value : Nat) : Int := (value : Int).bmod (2 ^ bits)

/-- The number can be written in so many bits in two's complement. -/
def Fits (bits : Nat) (number : Int) : Prop :=
  -2 ^ (bits - 1) ≤ number ∧ number < 2 ^ (bits - 1)

instance (bits : Nat) (number : Int) : Decidable (Fits bits number) :=
  inferInstanceAs (Decidable (_ ∧ _))

theorem fits_iff {bits : Nat} {number : Int} : Fits bits number ↔
    -((2 ^ (bits - 1) : Nat) : Int) ≤ number ∧ number < (2 ^ (bits - 1) : Nat) := by
  unfold Fits
  push_cast
  rfl

section TopBit

variable {bits : Nat} (hbits : 0 < bits)
include hbits

/-- The range of so many bits is twice what their top bit is worth. -/
theorem two_pow_eq : 2 ^ bits = 2 * 2 ^ (bits - 1) := by
  rw [← Nat.pow_succ', Nat.succ_eq_add_one, Nat.sub_add_cancel hbits]

/-- The top bit is set in the upper half of the range. -/
theorem testBit_top {value : Nat} (h : value < 2 ^ bits) :
    value.testBit (bits - 1) = decide (2 ^ (bits - 1) ≤ value) := by
  rw [two_pow_eq hbits] at h
  by_cases hvalue : 2 ^ (bits - 1) ≤ value
  · rw [decide_eq_true hvalue]
    exact Nat.testBit_of_two_pow_le_and_two_pow_add_one_gt hvalue (by rwa [Nat.pow_succ'])
  · rw [decide_eq_false hvalue]
    exact Nat.testBit_lt_two_pow (Nat.lt_of_not_le hvalue)

/-- Two values differ in their top bits if they are not in the same half. -/
theorem xor_testBit_top {first second : Nat} (hfirst : first < 2 ^ bits)
    (hsecond : second < 2 ^ bits) :
    (first.testBit (bits - 1) ^^ second.testBit (bits - 1)) = true ↔
      ¬ (2 ^ (bits - 1) ≤ first ↔ 2 ^ (bits - 1) ≤ second) := by
  rw [testBit_top hbits hfirst, testBit_top hbits hsecond, Bool.xor_iff_ne, ne_eq,
    decide_eq_decide]

/-- The upper half of the range stands for the negative numbers. -/
theorem twosComplement_eq {value : Nat} (h : value < 2 ^ bits) :
    twosComplement bits value =
      if value < 2 ^ (bits - 1) then (value : Int) else value - 2 * (2 ^ (bits - 1) : Nat) := by
  have hrange : (((2 ^ bits : Nat) : Int) + 1) / 2 = (2 ^ (bits - 1) : Nat) := by
    rw [two_pow_eq hbits]
    omega
  unfold twosComplement
  rw [Int.bmod_def, Int.emod_eq_of_lt (by omega) (by omega), hrange, two_pow_eq hbits]
  split <;> split <;> omega

/-- Different values stand for different numbers. -/
theorem twosComplement_inj {a b : Nat} (ha : a < 2 ^ bits) (hb : b < 2 ^ bits) :
    twosComplement bits a = twosComplement bits b ↔ a = b := by
  rw [twosComplement_eq hbits ha, twosComplement_eq hbits hb]
  rw [two_pow_eq hbits] at ha hb
  generalize 2 ^ (bits - 1) = half at *
  split <;> split <;> omega

end TopBit

/-! ## What the flags say -/

namespace Flags

/-- The sum of two numbers of so many bits and a carry leaves this result in as many bits, and C, N
and V are those of the sum. -/
structure OfSum (bits a b : Nat) (carryIn : Bool) (result : Nat) (cc : Flags) : Prop where
  lt : result < 2 ^ bits
  /-- C is what the result lacks. -/
  carry : result + 2 ^ bits * cc.carry.toNat = a + b + carryIn.toNat
  /-- N is the top bit. -/
  negative : cc.negative = result.testBit (bits - 1)
  /-- V says that the sum of the signed numbers is too large or too small. -/
  overflow : cc.overflow ↔
    ¬ Fits bits (twosComplement bits a + twosComplement bits b + carryIn.toNat)

/-- The difference of two numbers of so many bits, less a borrow, leaves this result in as many
bits, and C, N and V are those of the difference. -/
structure OfDifference (bits a b : Nat) (borrowIn : Bool) (result : Nat) (cc : Flags) : Prop where
  lt : result < 2 ^ bits
  /-- C is what has been borrowed. -/
  carry : (result : Int) - 2 ^ bits * cc.carry.toNat = a - b - borrowIn.toNat
  /-- N is the top bit. -/
  negative : cc.negative = result.testBit (bits - 1)
  /-- V says that the difference of the signed numbers is too large or too small. -/
  overflow : cc.overflow ↔
    ¬ Fits bits (twosComplement bits a - twosComplement bits b - borrowIn.toNat)

variable {bits a b result : Nat} {carryIn borrowIn : Bool} {cc : Flags}

/-- V of a sum, read off the top bits: both numbers differ in it from the result. -/
theorem ofSum_of_signs (hbits : 0 < bits) (ha : a < 2 ^ bits) (hb : b < 2 ^ bits)
    (hresult : result < 2 ^ bits)
    (hcarry : result + 2 ^ bits * cc.carry.toNat = a + b + carryIn.toNat)
    (hnegative : cc.negative = result.testBit (bits - 1))
    (hoverflow : cc.overflow = ((a.testBit (bits - 1) ^^ result.testBit (bits - 1)) &&
      (b.testBit (bits - 1) ^^ result.testBit (bits - 1)))) :
    OfSum bits a b carryIn result cc where
  lt := hresult
  carry := hcarry
  negative := hnegative
  overflow := by
    rw [hoverflow, Bool.and_eq_true, xor_testBit_top hbits ha hresult,
      xor_testBit_top hbits hb hresult, twosComplement_eq hbits ha, twosComplement_eq hbits hb,
      fits_iff]
    rw [two_pow_eq hbits] at ha hb hresult hcarry
    have hin := carryIn.toNat_le
    -- All that matters of the range is its half, so the rest is linear once C is known.
    generalize 2 ^ (bits - 1) = half at *
    cases hout : cc.carry with
    | false =>
      rw [hout, Bool.toNat_false, Nat.mul_zero] at hcarry
      split <;> split <;> omega
    | true =>
      rw [hout, Bool.toNat_true, Nat.mul_one] at hcarry
      split <;> split <;> omega

/-- V of a difference, read off the top bits: the first number differs in it from the second and
from the result. -/
theorem ofDifference_of_signs (hbits : 0 < bits) (ha : a < 2 ^ bits) (hb : b < 2 ^ bits)
    (hresult : result < 2 ^ bits)
    (hcarry : result + b + borrowIn.toNat = a + 2 ^ bits * cc.carry.toNat)
    (hnegative : cc.negative = result.testBit (bits - 1))
    (hoverflow : cc.overflow = ((a.testBit (bits - 1) ^^ b.testBit (bits - 1)) &&
      (a.testBit (bits - 1) ^^ result.testBit (bits - 1)))) :
    OfDifference bits a b borrowIn result cc where
  lt := hresult
  carry := by
    zify at hcarry
    omega
  negative := hnegative
  overflow := by
    rw [hoverflow, Bool.and_eq_true, xor_testBit_top hbits ha hb,
      xor_testBit_top hbits ha hresult, twosComplement_eq hbits ha, twosComplement_eq hbits hb,
      fits_iff]
    rw [two_pow_eq hbits] at ha hb hresult hcarry
    have hin := borrowIn.toNat_le
    generalize 2 ^ (bits - 1) = half at *
    cases hout : cc.carry with
    | false =>
      rw [hout, Bool.toNat_false, Nat.mul_zero] at hcarry
      split <;> split <;> omega
    | true =>
      rw [hout, Bool.toNat_true, Nat.mul_one] at hcarry
      split <;> split <;> omega

/-- What is left and what is taken away make up the first number and the borrow. -/
theorem OfDifference.add_eq (h : OfDifference bits a b borrowIn result cc) :
    result + b + borrowIn.toNat = a + 2 ^ bits * cc.carry.toNat := by
  have hcarry := h.carry
  zify
  omega

section Unique

variable {result' : Nat} {cc' : Flags}

/-- A number below a range and a bit on top of it are known by what they come to. -/
theorem eq_of_add_mul_toNat {range first second : Nat} {bit bit' : Bool} (hfirst : first < range)
    (hsecond : second < range) (h : first + range * bit.toNat = second + range * bit'.toNat) :
    first = second ∧ bit = bit' := by
  cases bit <;> cases bit' <;>
    simp only [Bool.toNat_false, Bool.toNat_true, Nat.mul_zero, Nat.mul_one] at h <;>
    first | exact ⟨by omega, rfl⟩ | omega

/-- Of one sum the results are the same, and so are C, N and V. -/
theorem OfSum.unique (h : OfSum bits a b carryIn result cc)
    (h' : OfSum bits a b carryIn result' cc') :
    result = result' ∧ cc.negative = cc'.negative ∧ cc.overflow = cc'.overflow ∧
      cc.carry = cc'.carry := by
  obtain ⟨hresult, hcarry⟩ := eq_of_add_mul_toNat h.lt h'.lt (h.carry.trans h'.carry.symm)
  refine ⟨hresult, ?_, ?_, hcarry⟩
  · rw [h.negative, h'.negative, hresult]
  · rw [Bool.eq_iff_iff, h.overflow, h'.overflow]

/-- Of one difference the results are the same, and so are C, N and V. -/
theorem OfDifference.unique (h : OfDifference bits a b borrowIn result cc)
    (h' : OfDifference bits a b borrowIn result' cc') :
    result = result' ∧ cc.negative = cc'.negative ∧ cc.overflow = cc'.overflow ∧
      cc.carry = cc'.carry := by
  have hadd := h.add_eq
  have hadd' := h'.add_eq
  have hswapped : result + 2 ^ bits * cc'.carry.toNat = result' + 2 ^ bits * cc.carry.toNat := by
    omega
  obtain ⟨hresult, hcarry⟩ := eq_of_add_mul_toNat h.lt h'.lt hswapped
  refine ⟨hresult, ?_, ?_, hcarry.symm⟩
  · rw [h.negative, h'.negative, hresult]
  · rw [Bool.eq_iff_iff, h.overflow, h'.overflow]

end Unique

section Order

variable (h : OfDifference bits a b false result cc)
include h

/-- Where no borrow comes in, the difference is exact, or short of the range that C has borrowed. -/
theorem OfDifference.borrow_cases :
    cc.carry = false ∧ result + b = a ∨ cc.carry = true ∧ result + b = a + 2 ^ bits := by
  have hadd := h.add_eq
  rw [Bool.toNat_false] at hadd
  cases hout : cc.carry with
  | false =>
    rw [hout, Bool.toNat_false, Nat.mul_zero] at hadd
    exact .inl ⟨rfl, hadd⟩
  | true =>
    rw [hout, Bool.toNat_true, Nat.mul_one] at hadd
    exact .inr ⟨rfl, hadd⟩

/-- Where no borrow comes in, one goes out if the first number is less. -/
theorem OfDifference.carry_iff : cc.carry ↔ a < b := by
  have hlt := h.lt
  obtain ⟨hout, hadd⟩ | ⟨hout, hadd⟩ := h.borrow_cases
  · exact iff_of_false (Bool.eq_false_iff.mp hout) (by omega)
  · exact iff_of_true hout (by omega)

/-- N and V differ if the first of the signed numbers is less. -/
theorem OfDifference.less_iff (hbits : 0 < bits) (ha : a < 2 ^ bits) (hb : b < 2 ^ bits) :
    cc.negative ≠ cc.overflow ↔ twosComplement bits a < twosComplement bits b := by
  have hcases := h.borrow_cases
  have hresult := h.lt
  rw [ne_eq, Bool.eq_iff_iff, h.overflow, h.negative, testBit_top hbits h.lt, decide_eq_true_iff,
    fits_iff, twosComplement_eq hbits ha, twosComplement_eq hbits hb, Bool.toNat_false]
  rw [two_pow_eq hbits] at ha hb hcases hresult
  generalize 2 ^ (bits - 1) = half at *
  obtain ⟨-, hadd⟩ | ⟨-, hadd⟩ := hcases <;> split <;> split <;> omega

/-- Nothing is left of equal numbers only. -/
theorem OfDifference.eq_zero_iff (hb : b < 2 ^ bits) : result = 0 ↔ a = b := by
  have hlt := h.lt
  obtain ⟨-, hadd⟩ | ⟨-, hadd⟩ := h.borrow_cases <;> omega

end Order

end Flags

/-! ## Bytes and words -/

theorem and_two_pow_ne_zero {number bit : Nat} : number &&& 2 ^ bit ≠ 0 ↔ number.testBit bit := by
  rw [Nat.and_two_pow]
  cases number.testBit bit <;> simp

/-- A mask of one bit tests that bit of a byte. -/
theorem mask_ne_zero8 (byte : UInt8) {mask : UInt8} {bit : Nat} (h : mask.toNat = 2 ^ bit) :
    (byte &&& mask != 0) = byte.toNat.testBit bit := by
  rw [Bool.eq_iff_iff, bne_iff_ne, ← and_two_pow_ne_zero, ← h, ← UInt8.toNat_and]
  exact not_congr UInt8.toNat_inj.symm

/-- A mask of one bit tests that bit of a word. -/
theorem mask_ne_zero16 (word : UInt16) {mask : UInt16} {bit : Nat} (h : mask.toNat = 2 ^ bit) :
    (word &&& mask != 0) = word.toNat.testBit bit := by
  rw [Bool.eq_iff_iff, bne_iff_ne, ← and_two_pow_ne_zero, ← h, ← UInt16.toNat_and]
  exact not_congr UInt16.toNat_inj.symm

/-- The test that gives V of bytes compares top bits. -/
theorem signs8 (a b c d : UInt8) : ((a ^^^ b) &&& (c ^^^ d) &&& 0x80 != 0) =
    ((a.toNat.testBit 7 ^^ b.toNat.testBit 7) && (c.toNat.testBit 7 ^^ d.toNat.testBit 7)) := by
  have hmask : (0x80 : UInt8).toNat = 2 ^ 7 := rfl
  rw [mask_ne_zero8 _ hmask, UInt8.toNat_and, UInt8.toNat_xor, UInt8.toNat_xor, Nat.testBit_and,
    Nat.testBit_xor, Nat.testBit_xor]

/-- The test that gives V of words compares top bits. -/
theorem signs16 (a b c d : UInt16) : ((a ^^^ b) &&& (c ^^^ d) &&& 0x8000 != 0) =
    ((a.toNat.testBit 15 ^^ b.toNat.testBit 15) &&
      (c.toNat.testBit 15 ^^ d.toNat.testBit 15)) := by
  have hmask : (0x8000 : UInt16).toNat = 2 ^ 15 := rfl
  rw [mask_ne_zero16 _ hmask, UInt16.toNat_and, UInt16.toNat_xor, UInt16.toNat_xor,
    Nat.testBit_and, Nat.testBit_xor, Nat.testBit_xor]

theorem toNat_decide (p : Prop) [Decidable p] : (decide p).toNat = if p then 1 else 0 :=
  Bool.cond_decide p 1 0

namespace Alu

variable (cc : Flags)

theorem ofSum_addWithCarry (a b : UInt8) (carryIn : Bool) :
    Flags.OfSum 8 a.toNat b.toNat carryIn (addWithCarry cc a b carryIn).1.toNat
      (addWithCarry cc a b carryIn).2 := by
  have ha := a.toNat_lt
  have hb := b.toNat_lt
  have hin := carryIn.toNat_le
  refine Flags.ofSum_of_signs (by decide) ha hb (UInt8.toNat_lt _) ?_ (mask_ne_zero8 _ rfl)
    (signs8 _ _ _ _)
  show (UInt8.ofNat (a.toNat + b.toNat + carryIn.toNat)).toNat +
    2 ^ 8 * (decide (255 < a.toNat + b.toNat + carryIn.toNat)).toNat = _
  rw [UInt8.toNat_ofNat', toNat_decide]
  split <;> omega

theorem ofDifference_subtractWithBorrow (a b : UInt8) (borrowIn : Bool) :
    Flags.OfDifference 8 a.toNat b.toNat borrowIn (subtractWithBorrow cc a b borrowIn).1.toNat
      (subtractWithBorrow cc a b borrowIn).2 := by
  have ha := a.toNat_lt
  have hb := b.toNat_lt
  have hin := borrowIn.toNat_le
  refine Flags.ofDifference_of_signs (by decide) ha hb (UInt8.toNat_lt _) ?_
    (mask_ne_zero8 _ rfl) (signs8 _ _ _ _)
  show (a - b - UInt8.ofNat borrowIn.toNat).toNat + b.toNat + borrowIn.toNat =
    a.toNat + 2 ^ 8 * (decide (a.toNat < b.toNat + borrowIn.toNat)).toNat
  rw [UInt8.toNat_sub, UInt8.toNat_sub, UInt8.toNat_ofNat', toNat_decide]
  split <;> omega

theorem ofSum_add16 (a b : UInt16) :
    Flags.OfSum 16 a.toNat b.toNat false (add16 cc a b).1.toNat (add16 cc a b).2 := by
  have ha := a.toNat_lt
  have hb := b.toNat_lt
  refine Flags.ofSum_of_signs (by decide) ha hb (UInt16.toNat_lt _) ?_ (mask_ne_zero16 _ rfl)
    (signs16 _ _ _ _)
  show (a + b).toNat + 2 ^ 16 * (decide (65535 < a.toNat + b.toNat)).toNat = _
  rw [UInt16.toNat_add, toNat_decide, Bool.toNat_false]
  split <;> omega

theorem ofDifference_sub16 (a b : UInt16) :
    Flags.OfDifference 16 a.toNat b.toNat false (sub16 cc a b).1.toNat (sub16 cc a b).2 := by
  have ha := a.toNat_lt
  have hb := b.toNat_lt
  refine Flags.ofDifference_of_signs (by decide) ha hb (UInt16.toNat_lt _) ?_
    (mask_ne_zero16 _ rfl) (signs16 _ _ _ _)
  show (a - b).toNat + b.toNat + false.toNat =
    a.toNat + 2 ^ 16 * (decide (a.toNat < b.toNat)).toNat
  rw [UInt16.toNat_sub, toNat_decide, Bool.toNat_false]
  split <;> omega

end Alu

end Mc6809
