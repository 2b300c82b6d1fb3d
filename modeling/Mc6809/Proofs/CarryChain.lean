/-
  Numbers of many bytes, added and subtracted a byte at a time from the least significant one, with
  C passed along (`Alu.chain`). After the last byte C, N and V are those of the whole numbers,
  however long they are.

  The step of the induction has nothing to do with bytes. If the low parts of two numbers add up
  and the high parts add up with what the low parts carry, then so do the numbers
  (`Flags.OfSum.append`), and the flags of the high parts are the flags of the whole. The same goes
  for differences. As one sum has one result and one C, N and V (`Flags.OfSum.unique`), the
  operations on words, which are written on their own, agree with chains of two bytes.
-/
import Mathlib.Data.Nat.Digits.Defs
import Mathlib.Tactic.LinearCombination
import Mc6809.Proofs.Sums

namespace Mc6809

/-! ## Numbers joined at a bit -/

section Append

variable {low high rest top : Nat}

theorem two_pow_append_half (hhigh : 0 < high) :
    2 ^ (low + high - 1) = 2 ^ low * 2 ^ (high - 1) := by
  rw [← pow_add, Nat.add_sub_assoc hhigh]

theorem append_lt (hrest : rest < 2 ^ low) (htop : top < 2 ^ high) :
    rest + 2 ^ low * top < 2 ^ (low + high) := by
  rw [pow_add]
  calc rest + 2 ^ low * top < 2 ^ low + 2 ^ low * top := Nat.add_lt_add_right hrest _
    _ = 2 ^ low * (top + 1) := by ring
    _ ≤ 2 ^ low * 2 ^ high := Nat.mul_le_mul_left _ htop

/-- The upper half of the range begins where that of the high part does. -/
theorem append_lt_half (hhigh : 0 < high) (hrest : rest < 2 ^ low) :
    rest + 2 ^ low * top < 2 ^ (low + high - 1) ↔ top < 2 ^ (high - 1) := by
  have hpos : 0 < 2 ^ low := Nat.two_pow_pos low
  rw [two_pow_append_half hhigh, Nat.mul_comm _ (2 ^ (high - 1)), ← Nat.div_lt_iff_lt_mul hpos,
    Nat.add_mul_div_left _ _ hpos, Nat.div_eq_of_lt hrest, Nat.zero_add]

/-- Only the high part has a sign. -/
theorem twosComplement_append (hhigh : 0 < high) (hrest : rest < 2 ^ low) (htop : top < 2 ^ high) :
    twosComplement (low + high) (rest + 2 ^ low * top) =
      rest + 2 ^ low * twosComplement high top := by
  rw [twosComplement_eq (by omega) (append_lt hrest htop), twosComplement_eq hhigh htop,
    if_congr (append_lt_half hhigh hrest) rfl rfl, two_pow_append_half hhigh]
  split <;> push_cast <;> ring

/-- Whether a number can be written depends on its high part. -/
theorem fits_append (hhigh : 0 < high) (hrest : rest < 2 ^ low) (number : Int) :
    Fits (low + high) (rest + 2 ^ low * number) ↔ Fits high number := by
  have hpos : (0 : Int) < 2 ^ low := Int.pow_pos (by decide)
  have hpow : (2 : Int) ^ (low + high - 1) = 2 ^ (high - 1) * 2 ^ low := by
    exact_mod_cast (two_pow_append_half hhigh).trans (Nat.mul_comm _ _)
  have hdiv : (rest + 2 ^ low * number) / 2 ^ low = number := by
    rw [Int.add_mul_ediv_left _ _ hpos.ne',
      Int.ediv_eq_zero_of_lt (Int.natCast_nonneg _) (by exact_mod_cast hrest), Int.zero_add]
  unfold Fits
  rw [hpow, ← Int.neg_mul, ← Int.le_ediv_iff_mul_le hpos, ← Int.ediv_lt_iff_lt_mul hpos, hdiv]

theorem testBit_append (hhigh : 0 < high) (hrest : rest < 2 ^ low) :
    (rest + 2 ^ low * top).testBit (low + high - 1) = top.testBit (high - 1) := by
  rw [Nat.add_comm rest, Nat.testBit_two_pow_mul_add top hrest, if_neg (by omega)]
  congr 1
  omega

end Append

namespace Flags

variable {low high aRest bRest aTop bTop rest top : Nat} {carryIn borrowIn : Bool}
  {between cc : Flags}

section

variable (hhigh : 0 < high) (haRest : aRest < 2 ^ low) (hbRest : bRest < 2 ^ low)
  (haTop : aTop < 2 ^ high) (hbTop : bTop < 2 ^ high)
include hhigh haRest hbRest haTop hbTop

/-- A sum of the high parts that takes in the carry of the low parts is a sum of the whole. -/
theorem OfSum.append (hlow : OfSum low aRest bRest carryIn rest between)
    (htop : OfSum high aTop bTop between.carry top cc) :
    OfSum (low + high) (aRest + 2 ^ low * aTop) (bRest + 2 ^ low * bTop) carryIn
      (rest + 2 ^ low * top) cc where
  lt := append_lt hlow.lt htop.lt
  carry := by
    rw [pow_add]
    linear_combination hlow.carry + 2 ^ low * htop.carry
  negative := by rw [testBit_append hhigh hlow.lt, htop.negative]
  overflow := by
    have hcarry := hlow.carry
    zify at hcarry
    rw [htop.overflow, ← fits_append hhigh hlow.lt, twosComplement_append hhigh haRest haTop,
      twosComplement_append hhigh hbRest hbTop]
    refine not_congr (iff_of_eq (congrArg _ ?_))
    linear_combination hcarry

/-- A difference of the high parts that takes in the borrow of the low parts is a difference of the
whole. -/
theorem OfDifference.append (hlow : OfDifference low aRest bRest borrowIn rest between)
    (htop : OfDifference high aTop bTop between.carry top cc) :
    OfDifference (low + high) (aRest + 2 ^ low * aTop) (bRest + 2 ^ low * bTop) borrowIn
      (rest + 2 ^ low * top) cc where
  lt := append_lt hlow.lt htop.lt
  carry := by
    push_cast
    rw [pow_add]
    linear_combination hlow.carry + 2 ^ low * htop.carry
  negative := by rw [testBit_append hhigh hlow.lt, htop.negative]
  overflow := by
    rw [htop.overflow, ← fits_append hhigh hlow.lt, twosComplement_append hhigh haRest haTop,
      twosComplement_append hhigh hbRest hbTop]
    refine not_congr (iff_of_eq (congrArg _ ?_))
    linear_combination hlow.carry

end

end Flags

/-! ## Numbers of many bytes -/

/-- The number that bytes stand for, the least significant byte first. -/
def littleEndian (bytes : List UInt8) : Nat := Nat.ofDigits 256 (bytes.map UInt8.toNat)

@[simp] theorem littleEndian_nil : littleEndian [] = 0 := rfl

theorem littleEndian_cons (byte : UInt8) (bytes : List UInt8) :
    littleEndian (byte :: bytes) = byte.toNat + 2 ^ 8 * littleEndian bytes :=
  Nat.ofDigits_cons

theorem littleEndian_lt (bytes : List UInt8) : littleEndian bytes < 2 ^ (8 * bytes.length) := by
  induction bytes with
  | nil => exact Nat.one_pos
  | cons byte bytes ih =>
    rw [littleEndian_cons, List.length_cons, Nat.mul_succ, Nat.add_comm (8 * _)]
    exact append_lt byte.toNat_lt ih

namespace Alu

/-- An operation on each pair of bytes after the other, the flags passed along. -/
def chain (op : Flags → UInt8 → UInt8 → UInt8 × Flags) (cc : Flags) :
    List (UInt8 × UInt8) → List UInt8 × Flags
  | [] => ([], cc)
  | (a, b) :: pairs =>
    let (byte, next) := op cc a b
    let (bytes, last) := chain op next pairs
    (byte :: bytes, last)

section

variable (op : Flags → UInt8 → UInt8 → UInt8 × Flags) (cc : Flags) (a b : UInt8)

@[simp] theorem chain_nil : chain op cc [] = ([], cc) := rfl

theorem chain_cons (pairs : List (UInt8 × UInt8)) : chain op cc ((a, b) :: pairs) =
    ((op cc a b).1 :: (chain op (op cc a b).2 pairs).1, (chain op (op cc a b).2 pairs).2) := rfl

@[simp] theorem length_chain (pairs : List (UInt8 × UInt8)) :
    (chain op cc pairs).1.length = pairs.length := by
  induction pairs generalizing cc with
  | nil => rfl
  | cons pair pairs ih => exact congrArg (· + 1) (ih _)

end

/-- What an operation does on bytes it does on numbers of any length, if it can be told of a number
from its first byte and the rest. -/
theorem chain_induction {op : Flags → UInt8 → UInt8 → UInt8 × Flags}
    {Result : Nat → Nat → Nat → Bool → Nat → Flags → Prop}
    (hbyte : ∀ cc a b, Result 8 (UInt8.toNat a) (UInt8.toNat b) cc.carry (op cc a b).1.toNat
      (op cc a b).2)
    (happend : ∀ {high a b aTop bTop result top : Nat} {carryIn : Bool} {between cc : Flags},
      0 < high → a < 2 ^ 8 → b < 2 ^ 8 → aTop < 2 ^ high → bTop < 2 ^ high →
      Result 8 a b carryIn result between → Result high aTop bTop between.carry top cc →
      Result (8 + high) (a + 2 ^ 8 * aTop) (b + 2 ^ 8 * bTop) carryIn (result + 2 ^ 8 * top) cc)
    {first second : List UInt8} (hlength : first.length = second.length) (hne : first ≠ [])
    (cc : Flags) :
    Result (8 * first.length) (littleEndian first) (littleEndian second) cc.carry
      (littleEndian (chain op cc (first.zip second)).1) (chain op cc (first.zip second)).2 := by
  induction first generalizing second cc with
  | nil => exact absurd rfl hne
  | cons a first ih =>
    cases second with
    | nil => exact absurd hlength (Nat.succ_ne_zero _)
    | cons b second =>
      have hrest : first.length = second.length := Nat.succ_inj.mp hlength
      rw [List.zip_cons_cons, chain_cons, List.length_cons, littleEndian_cons, littleEndian_cons,
        littleEndian_cons, Nat.mul_succ, Nat.add_comm (8 * _)]
      by_cases hmore : first = []
      · subst hmore
        rw [List.length_eq_zero_iff.mp hrest.symm]
        exact hbyte cc a b
      · have hpos : 0 < 8 * first.length :=
          Nat.mul_pos (by decide) (List.length_pos_iff.mpr hmore)
        exact happend hpos a.toNat_lt b.toNat_lt (littleEndian_lt first)
          (hrest ▸ littleEndian_lt second) (hbyte cc a b) (ih hrest hmore _)

section Numbers

variable {a b : List UInt8} (hlength : a.length = b.length) (hne : a ≠ []) (cc : Flags)
include hlength

theorem length_chain_zip (op : Flags → UInt8 → UInt8 → UInt8 × Flags) :
    (chain op cc (a.zip b)).1.length = a.length := by
  rw [length_chain, List.length_zip, ← hlength, Nat.min_self]

include hne

theorem ofSum_chain : Flags.OfSum (8 * a.length) (littleEndian a) (littleEndian b) cc.carry
    (littleEndian (chain adc cc (a.zip b)).1) (chain adc cc (a.zip b)).2 :=
  chain_induction (fun cc a b => ofSum_addWithCarry cc a b cc.carry) Flags.OfSum.append hlength hne
    cc

theorem ofDifference_chain : Flags.OfDifference (8 * a.length) (littleEndian a) (littleEndian b)
    cc.carry (littleEndian (chain sbc cc (a.zip b)).1) (chain sbc cc (a.zip b)).2 :=
  chain_induction (fun cc a b => ofDifference_subtractWithBorrow cc a b cc.carry)
    Flags.OfDifference.append hlength hne cc

end Numbers

/-! ## Words -/

/-- An operation on words leaves what a chain of bytes leaves, and Z if that is zero. -/
structure Agree (word : UInt16 × Flags) (bytes : List UInt8 × Flags) : Prop where
  value : word.1.toNat = littleEndian bytes.1
  negative : word.2.negative = bytes.2.negative
  overflow : word.2.overflow = bytes.2.overflow
  carry : word.2.carry = bytes.2.carry
  zero : word.2.zero ↔ word.1 = 0

/-- The word that two bytes stand for, the low byte first. -/
def littleWord (bytes : List UInt8) : UInt16 := UInt16.ofNat (littleEndian bytes)

theorem toNat_littleWord {bytes : List UInt8} (h : bytes.length = 2) :
    (littleWord bytes).toNat = littleEndian bytes := by
  have hlt := littleEndian_lt bytes
  rw [h] at hlt
  exact UInt16.toNat_ofNat_of_lt hlt

section Words

variable {a b : List UInt8} (hlength : a.length = b.length) (htwo : a.length = 2) {cc : Flags}
  (hcarry : cc.carry = false) (before : Flags)
include hlength htwo hcarry

theorem agree_add16 :
    Agree (add16 before (littleWord a) (littleWord b)) (chain adc cc (a.zip b)) := by
  have hne : a ≠ [] := List.ne_nil_of_length_pos (htwo ▸ Nat.two_pos)
  have hword := ofSum_add16 before (littleWord a) (littleWord b)
  have hbytes := ofSum_chain hlength hne cc
  rw [toNat_littleWord htwo, toNat_littleWord (hlength ▸ htwo)] at hword
  rw [htwo, hcarry] at hbytes
  obtain ⟨hvalue, hnegative, hoverflow, hcarry⟩ := hword.unique hbytes
  exact ⟨hvalue, hnegative, hoverflow, hcarry, beq_iff_eq⟩

theorem agree_sub16 :
    Agree (sub16 before (littleWord a) (littleWord b)) (chain sbc cc (a.zip b)) := by
  have hne : a ≠ [] := List.ne_nil_of_length_pos (htwo ▸ Nat.two_pos)
  have hword := ofDifference_sub16 before (littleWord a) (littleWord b)
  have hbytes := ofDifference_chain hlength hne cc
  rw [toNat_littleWord htwo, toNat_littleWord (hlength ▸ htwo)] at hword
  rw [htwo, hcarry] at hbytes
  obtain ⟨hvalue, hnegative, hoverflow, hcarry⟩ := hword.unique hbytes
  exact ⟨hvalue, hnegative, hoverflow, hcarry, beq_iff_eq⟩

end Words

/-! ## Chains are exact -/

/-- The number that bytes stand for in two's complement, the least significant byte first. -/
def signedValue (bytes : List UInt8) : Int :=
  twosComplement (8 * bytes.length) (littleEndian bytes)

/-- Chains of ADC and of SBC over the bytes of two numbers, as long as each other, leave their sum
and their difference, of as many bytes and with the last C as what is carried or borrowed. V says
that the signed result cannot be written in so many bytes, and N is the top bit. Of two bytes, with
no carry coming in, they leave what the operations on words leave. -/
theorem chains_exact {a b : List UInt8} (hlength : a.length = b.length) (hne : a ≠ [])
    (cc : Flags) :
    (∃ result last, chain adc cc (a.zip b) = (result, last) ∧ result.length = a.length ∧
      littleEndian result + 256 ^ a.length * last.carry.toNat =
        littleEndian a + littleEndian b + cc.carry.toNat ∧
      (last.overflow ↔
        ¬ Fits (8 * a.length) (signedValue a + signedValue b + cc.carry.toNat)) ∧
      last.negative = (littleEndian result).testBit (8 * a.length - 1) ∧
      (a.length = 2 → cc.carry = false →
        ∀ before, Agree (add16 before (littleWord a) (littleWord b)) (result, last))) ∧
    ∃ result last, chain sbc cc (a.zip b) = (result, last) ∧ result.length = a.length ∧
      (littleEndian result : Int) - 256 ^ a.length * last.carry.toNat =
        littleEndian a - littleEndian b - cc.carry.toNat ∧
      (last.overflow ↔
        ¬ Fits (8 * a.length) (signedValue a - signedValue b - cc.carry.toNat)) ∧
      last.negative = (littleEndian result).testBit (8 * a.length - 1) ∧
      (a.length = 2 → cc.carry = false →
        ∀ before, Agree (sub16 before (littleWord a) (littleWord b)) (result, last)) := by
  have hsum := ofSum_chain hlength hne cc
  have hdifference := ofDifference_chain hlength hne cc
  have hrange : 256 ^ a.length = 2 ^ (8 * a.length) := (Nat.pow_mul 2 8 a.length).symm
  have hrange' : (256 : Int) ^ a.length = 2 ^ (8 * a.length) := by exact_mod_cast hrange
  refine ⟨⟨_, _, rfl, length_chain_zip hlength cc adc, ?_, ?_, hsum.negative,
      fun htwo hcarry before => agree_add16 hlength htwo hcarry before⟩,
    ⟨_, _, rfl, length_chain_zip hlength cc sbc, ?_, ?_, hdifference.negative,
      fun htwo hcarry before => agree_sub16 hlength htwo hcarry before⟩⟩
  · rw [hrange, hsum.carry]
  · rw [hsum.overflow, signedValue, signedValue, ← hlength]
  · rw [hrange', hdifference.carry]
  · rw [hdifference.overflow, signedValue, signedValue, ← hlength]

/-- One more than the largest signed word: the sum of the words does not fit either. -/
theorem chains_exact_largest :
    ∃ result last, chain adc {} ([0xFF, 0x7F].zip [0x01, 0x00]) = (result, last) ∧
      littleEndian result + 256 ^ 2 * last.carry.toNat = 0x8000 ∧
      last.overflow ∧ (add16 {} 0x7FFF 0x0001).1.toNat = littleEndian result ∧
      (add16 {} 0x7FFF 0x0001).2.overflow = last.overflow := by
  obtain ⟨⟨result, last, hchain, -, hvalue, hoverflow, -, hword⟩, -⟩ :=
    chains_exact (show [0xFF, 0x7F].length = [0x01, 0x00].length from rfl)
      (List.cons_ne_nil _ _) {}
  have hagree := hword rfl rfl {}
  exact ⟨result, last, hchain, hvalue, hoverflow.mpr (by decide), hagree.value, hagree.overflow⟩

end Alu

end Mc6809
