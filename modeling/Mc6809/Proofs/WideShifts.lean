/-
  Shifts and rotations of numbers of many bytes, a byte at a time with C passed along: to the left
  from the least significant byte upwards (`Alu.climb`), to the right from the most significant one
  downwards (`Alu.descend`).

  All of them are rotations of the number with C in front of it. A shift is a rotation that sets
  out with a C of its own, which is zero or, for ASR, the sign (`lsl_eq_rol`, `lsr_eq_ror`,
  `asr_eq_ror`). And a rotation to the right is one to the left read backwards, so both are told by
  the same equation of numbers, `ShiftsUp`: what goes out on top and what comes in below. It holds
  of two numbers one above the other if it holds of each of them with the bit between them
  (`ShiftsUp.append`), whichever of them is computed first. That is the step of both inductions.
-/
import Mathlib.Data.Nat.Digits.Lemmas
import Mc6809.Proofs.CarryChain

namespace Mc6809

/-! ## One place up -/

/-- Of two numbers of so many bits the second is the first moved up by one place, with a bit that
comes in below and the one that goes out on top. -/
structure ShiftsUp (bits value : Nat) (bitIn : Bool) (result : Nat) (bitOut : Bool) : Prop where
  value_lt : value < 2 ^ bits
  result_lt : result < 2 ^ bits
  eq : result + 2 ^ bits * bitOut.toNat = 2 * value + bitIn.toNat

/-- A number of so many bits with one more bit in front of it. -/
def withCarry (bits : Nat) (carry : Bool) (value : Nat) : BitVec (bits + 1) :=
  .cons carry (.ofNat bits value)

theorem toNat_withCarry {bits value : Nat} (h : value < 2 ^ bits) (carry : Bool) :
    (withCarry bits carry value).toNat = value + 2 ^ bits * carry.toNat := by
  unfold withCarry
  rw [BitVec.toNat_cons', BitVec.toNat_ofNat, Nat.mod_eq_of_lt h, Nat.shiftLeft_eq, Nat.add_comm,
    Nat.mul_comm]

namespace ShiftsUp

variable {bits low high value rest top result result' rest' top' : Nat}
  {bitIn between bitOut bitOut' : Bool}

/-- What goes out of the low part comes into the high part. -/
theorem append (hlow : ShiftsUp low rest bitIn rest' between)
    (hhigh : ShiftsUp high top between top' bitOut) :
    ShiftsUp (low + high) (rest + 2 ^ low * top) bitIn (rest' + 2 ^ low * top') bitOut where
  value_lt := append_lt hlow.value_lt hhigh.value_lt
  result_lt := append_lt hlow.result_lt hhigh.result_lt
  eq := by
    rw [pow_add]
    linear_combination hlow.eq + 2 ^ low * hhigh.eq

section

variable (h : ShiftsUp bits value bitIn result bitOut)
include h

theorem eq_of_value (h' : ShiftsUp bits value bitIn result' bitOut') :
    result' = result ∧ bitOut' = bitOut :=
  Flags.eq_of_add_mul_toNat h'.result_lt h.result_lt (h'.eq.trans h.eq.symm)

theorem eq_of_result {value' : Nat} {bitIn' : Bool}
    (h' : ShiftsUp bits value' bitIn' result bitOut) : value' = value ∧ bitIn' = bitIn := by
  have heq : bitIn'.toNat + 2 * value' = bitIn.toNat + 2 * value := by
    have := h.eq
    have := h'.eq
    omega
  cases bitIn <;> cases bitIn' <;> simp only [Bool.toNat_false, Bool.toNat_true] at heq <;>
    first | exact ⟨by omega, rfl⟩ | omega

/-- The bit that goes out is the top bit. -/
theorem bitOut_eq (hbits : 0 < bits) : bitOut = value.testBit (bits - 1) := by
  have heq := h.eq
  have hresult := h.result_lt
  have hvalue := h.value_lt
  have hin := bitIn.toNat_le
  rw [testBit_top hbits hvalue, Bool.eq_iff_iff, decide_eq_true_iff]
  rw [two_pow_eq hbits] at heq hresult hvalue
  generalize 2 ^ (bits - 1) = half at *
  cases bitOut with
  | false =>
    rw [Bool.toNat_false, Nat.mul_zero] at heq
    exact iff_of_false Bool.false_ne_true (by omega)
  | true =>
    rw [Bool.toNat_true, Nat.mul_one] at heq
    exact iff_of_true rfl (by omega)

/-- The bit that comes in is the lowest bit of the result. -/
theorem bitIn_eq (hbits : 0 < bits) : bitIn = result.testBit 0 := by
  have heq := h.eq
  have heven : 2 ^ bits * bitOut.toNat = 2 * (2 ^ (bits - 1) * bitOut.toNat) := by
    rw [two_pow_eq hbits, Nat.mul_assoc]
  rw [heven] at heq
  rw [Nat.testBit_zero]
  cases bitIn with
  | false =>
    rw [Bool.toNat_false] at heq
    exact (decide_eq_false (by omega)).symm
  | true =>
    rw [Bool.toNat_true] at heq
    exact (decide_eq_true (by omega)).symm

/-- With the bits in front, the number has been rotated to the left. -/
theorem rotateLeft (hbits : 0 < bits) :
    withCarry bits bitOut result = (withCarry bits bitIn value).rotateLeft 1 := by
  have hone : 1 % (bits + 1) = 1 := Nat.mod_eq_of_lt (by omega)
  have hlow : ((value + 2 ^ bits * bitIn.toNat) <<< 1) % 2 ^ (bits + 1) = value <<< 1 := by
    have hdouble : (value + 2 ^ bits * bitIn.toNat) * 2 =
        value * 2 + 2 ^ (bits + 1) * bitIn.toNat := by ring
    have hlt : value * 2 < 2 ^ (bits + 1) := by
      have := h.value_lt
      omega
    rw [Nat.shiftLeft_eq, Nat.shiftLeft_eq, pow_one, hdouble, Nat.add_mul_mod_self_left,
      Nat.mod_eq_of_lt hlt]
  have hhigh : (value + 2 ^ bits * bitIn.toNat) >>> bits = bitIn.toNat := by
    rw [Nat.shiftRight_eq_div_pow, Nat.add_mul_div_left _ _ (Nat.two_pow_pos bits),
      Nat.div_eq_of_lt h.value_lt, Nat.zero_add]
  apply BitVec.eq_of_toNat_eq
  rw [BitVec.toNat_rotateLeft, hone, Nat.add_sub_cancel, toNat_withCarry h.value_lt,
    toNat_withCarry h.result_lt, h.eq, hlow, hhigh,
    ← Nat.shiftLeft_add_eq_or_of_lt (Nat.lt_succ_of_le bitIn.toNat_le), Nat.shiftLeft_eq, pow_one,
    Nat.mul_comm]

/-- Read backwards, it has been rotated to the right. -/
theorem rotateRight (hbits : 0 < bits) :
    withCarry bits bitIn value = (withCarry bits bitOut result).rotateRight 1 := by
  have hone : 1 % (bits + 1) = 1 := Nat.mod_eq_of_lt (by omega)
  have hlow : (2 * value + bitIn.toNat) >>> 1 = value := by
    have := bitIn.toNat_le
    rw [Nat.shiftRight_eq_div_pow, pow_one]
    omega
  have hhigh : ((2 * value + bitIn.toNat) <<< bits) % 2 ^ (bits + 1) = bitIn.toNat <<< bits := by
    have hdouble : (2 * value + bitIn.toNat) * 2 ^ bits =
        bitIn.toNat * 2 ^ bits + 2 ^ (bits + 1) * value := by ring
    have hlt : bitIn.toNat * 2 ^ bits < 2 ^ (bits + 1) := by
      have := Nat.mul_le_mul_right (2 ^ bits) bitIn.toNat_le
      have := Nat.two_pow_pos bits
      omega
    rw [Nat.shiftLeft_eq, Nat.shiftLeft_eq, hdouble, Nat.add_mul_mod_self_left,
      Nat.mod_eq_of_lt hlt]
  apply BitVec.eq_of_toNat_eq
  rw [BitVec.toNat_rotateRight, hone, Nat.add_sub_cancel, toNat_withCarry h.value_lt,
    toNat_withCarry h.result_lt, h.eq, hlow, hhigh, Nat.lor_comm,
    ← Nat.shiftLeft_add_eq_or_of_lt h.value_lt, Nat.shiftLeft_eq, Nat.add_comm, Nat.mul_comm]

end

end ShiftsUp

namespace Alu

/-! ## One byte -/

section Byte

variable (cc : Flags) (byte : UInt8)

theorem toNat_shiftedUp : (byte <<< 1).toNat = (byte.toNat % 128) <<< 1 := by
  have hone : (1 : UInt8).toNat % 8 = 1 := rfl
  rw [UInt8.toNat_shiftLeft, hone, Nat.shiftLeft_eq, Nat.shiftLeft_eq]
  omega

theorem toNat_rol : (rol cc byte).1.toNat = 2 * (byte.toNat % 128) + cc.carry.toNat := by
  have hbit : (if cc.carry then 0x01 else 0 : UInt8).toNat = cc.carry.toNat := by
    cases cc.carry <;> rfl
  show (byte <<< 1 ||| if cc.carry then 0x01 else 0).toNat = _
  rw [UInt8.toNat_or, hbit, toNat_shiftedUp,
    ← Nat.shiftLeft_add_eq_or_of_lt (Nat.lt_succ_of_le cc.carry.toNat_le), Nat.shiftLeft_eq,
    pow_one, Nat.mul_comm]

theorem toNat_ror : (ror cc byte).1.toNat = byte.toNat / 2 + 128 * cc.carry.toNat := by
  have hbit : (if cc.carry then 0x80 else 0 : UInt8).toNat = cc.carry.toNat <<< 7 := by
    cases cc.carry <;> rfl
  have hshift : (byte >>> 1).toNat = byte.toNat / 2 := UInt8.toNat_shiftRight ..
  have hlt : byte.toNat / 2 < 2 ^ 7 := by
    have := byte.toNat_lt
    omega
  show (byte >>> 1 ||| if cc.carry then 0x80 else 0).toNat = _
  rw [UInt8.toNat_or, hbit, hshift, Nat.lor_comm, ← Nat.shiftLeft_add_eq_or_of_lt hlt,
    Nat.shiftLeft_eq, Nat.add_comm, Nat.mul_comm]

theorem carry_rol : (rol cc byte).2.carry = byte.toNat.testBit 7 := mask_ne_zero8 _ rfl

theorem carry_ror : (ror cc byte).2.carry = byte.toNat.testBit 0 := mask_ne_zero8 _ rfl

theorem shiftsUp_rol :
    ShiftsUp 8 byte.toNat cc.carry (rol cc byte).1.toNat (rol cc byte).2.carry where
  value_lt := byte.toNat_lt
  result_lt := (rol cc byte).1.toNat_lt
  eq := by
    have hlt := byte.toNat_lt
    rw [toNat_rol, carry_rol, testBit_top (show 0 < 8 by decide) hlt, toNat_decide]
    split <;> omega

/-- A rotation to the right is one to the left read backwards. -/
theorem shiftsUp_ror :
    ShiftsUp 8 (ror cc byte).1.toNat (ror cc byte).2.carry byte.toNat cc.carry where
  value_lt := (ror cc byte).1.toNat_lt
  result_lt := byte.toNat_lt
  eq := by
    rw [toNat_ror, carry_ror, Nat.testBit_zero, toNat_decide]
    split <;> omega

theorem negative_rol : (rol cc byte).2.negative = (rol cc byte).1.toNat.testBit 7 :=
  mask_ne_zero8 _ rfl

/-- V tells the bit that goes out on top from the one that takes its place. -/
theorem overflow_rol : (rol cc byte).2.overflow = ((rol cc byte).2.negative ^^
    (rol cc byte).2.carry) := by
  have hbelow : (byte <<< 1).toNat.testBit 7 = (rol cc byte).1.toNat.testBit 7 := by
    have hin := cc.carry.toNat_le
    have hhalf (number : Nat) : number.testBit 7 = (number / 2).testBit 6 := Nat.testBit_succ ..
    rw [toNat_rol, toNat_shiftedUp, Nat.shiftLeft_eq, hhalf, hhalf (2 * _ + _)]
    congr 1
    omega
  have hoverflow : (rol cc byte).2.overflow = (byte.toNat.testBit 7 ^^
      (byte <<< 1).toNat.testBit 7) := by
    rw [← Nat.testBit_xor, ← UInt8.toNat_xor]
    exact mask_ne_zero8 _ rfl
  rw [hoverflow, hbelow, negative_rol, carry_rol, Bool.xor_comm]

/-! ### Shifts as rotations -/

theorem lsl_eq_rol : lsl cc byte = rol { cc with carry := false } byte := rfl

theorem lsr_eq_ror : lsr cc byte = ror { cc with carry := false } byte := rfl

theorem asr_eq_ror : asr cc byte = ror { cc with carry := byte.toNat.testBit 7 } byte := by
  have hsign : byte &&& 0x80 = if byte.toNat.testBit 7 then 0x80 else 0 := by
    apply UInt8.toNat_inj.mp
    refine (UInt8.toNat_and ..).trans ((Nat.and_two_pow byte.toNat 7).trans ?_)
    cases byte.toNat.testBit 7 <;> rfl
  unfold asr ror
  rw [hsign]
  rfl

end Byte

/-! ## Numbers of many bytes -/

/-- An operation on the least significant byte and then another one on each byte upwards, the flags
passed along. -/
def climb (first next : Flags → UInt8 → UInt8 × Flags) (cc : Flags) :
    List UInt8 → List UInt8 × Flags
  | [] => ([], cc)
  | byte :: above =>
    let (result, between) := first cc byte
    let (results, last) := climb next next between above
    (result :: results, last)

/-- An operation on the most significant byte and then another one on each byte downwards, the
flags passed along. -/
def descend (first next : Flags → UInt8 → UInt8 × Flags) (cc : Flags) :
    List UInt8 → List UInt8 × Flags
  | [] => ([], cc)
  | byte :: above =>
    let op := if above.isEmpty then first else next
    let (results, between) := descend first next cc above
    let (result, last) := op between byte
    (result :: results, last)

section

variable (first next : Flags → UInt8 → UInt8 × Flags) (cc : Flags)

@[simp] theorem length_climb (bytes : List UInt8) :
    (climb first next cc bytes).1.length = bytes.length := by
  induction bytes generalizing first cc with
  | nil => rfl
  | cons byte above ih => exact congrArg (· + 1) (ih _ _)

@[simp] theorem length_descend (bytes : List UInt8) :
    (descend first next cc bytes).1.length = bytes.length := by
  induction bytes with
  | nil => rfl
  | cons byte above ih => exact congrArg (· + 1) ih

theorem descend_self (byte : UInt8) (above : List UInt8) :
    descend next next cc (byte :: above) =
      ((next (descend next next cc above).2 byte).1 :: (descend next next cc above).1,
        (next (descend next next cc above).2 byte).2) := by
  rw [descend, ite_self]

theorem descend_cons_cons (byte higher : UInt8) (above : List UInt8) :
    descend first next cc (byte :: higher :: above) =
      ((next (descend first next cc (higher :: above)).2 byte).1 ::
          (descend first next cc (higher :: above)).1,
        (next (descend first next cc (higher :: above)).2 byte).2) := rfl

end

variable (cc : Flags) {bytes : List UInt8}

/-- A byte put below a number leaves its top bit on top. -/
theorem testBit_top_cons (byte : UInt8) {length : Nat} (hlength : 0 < length)
    (above : List UInt8) : (littleEndian (byte :: above)).testBit (8 * (length + 1) - 1) =
      (littleEndian above).testBit (8 * length - 1) := by
  rw [littleEndian_cons, Nat.mul_succ, Nat.add_comm (8 * _),
    testBit_append (Nat.mul_pos (by decide) hlength) byte.toNat_lt]

/-- The sign of the number is that of its most significant byte. -/
theorem testBit_top_littleEndian {top : UInt8} (h : top ∈ bytes.getLast?) :
    (littleEndian bytes).testBit (8 * bytes.length - 1) = top.toNat.testBit 7 := by
  induction bytes with
  | nil => cases h
  | cons byte above ih =>
    cases above with
    | nil =>
      cases h
      rfl
    | cons higher above =>
      rw [List.getLast?_cons_cons] at h
      exact (testBit_top_cons byte (Nat.succ_pos _) _).trans (ih h)

/-- A shift upwards is a rotation that sets out with C clear. -/
theorem climb_lsl (hne : bytes ≠ []) :
    climb lsl rol cc bytes = climb rol rol { cc with carry := false } bytes := by
  cases bytes with
  | nil => exact absurd rfl hne
  | cons byte above => rw [climb, climb, lsl_eq_rol]

/-- A shift downwards is a rotation that sets out with the C that its first byte calls for. -/
theorem descend_of_first {first : Flags → UInt8 → UInt8 × Flags} {carry : Bool} (hne : bytes ≠ [])
    (h : ∀ top ∈ bytes.getLast?, first cc top = ror { cc with carry } top) :
    descend first ror cc bytes = descend ror ror { cc with carry } bytes := by
  induction bytes with
  | nil => exact absurd rfl hne
  | cons byte above ih =>
    cases above with
    | nil =>
      have hbyte := h byte rfl
      simp only [descend, List.isEmpty_nil, if_true, hbyte]
    | cons higher above =>
      rw [List.getLast?_cons_cons] at h
      rw [descend_cons_cons, descend_cons_cons, ih (List.cons_ne_nil _ _) h]

theorem descend_lsr (hne : bytes ≠ []) :
    descend lsr ror cc bytes = descend ror ror { cc with carry := false } bytes :=
  descend_of_first cc hne fun top _ => lsr_eq_ror cc top

theorem descend_asr (hne : bytes ≠ []) : descend asr ror cc bytes = descend ror ror
    { cc with carry := (littleEndian bytes).testBit (8 * bytes.length - 1) } bytes :=
  descend_of_first cc hne fun top htop => by
    rw [testBit_top_littleEndian htop]
    exact asr_eq_ror cc top

variable (bytes)

/-- ROL upwards moves the whole number up, with C. -/
theorem shiftsUp_climb : ShiftsUp (8 * bytes.length) (littleEndian bytes) cc.carry
    (littleEndian (climb rol rol cc bytes).1) (climb rol rol cc bytes).2.carry := by
  induction bytes generalizing cc with
  | nil => exact ⟨Nat.one_pos, Nat.one_pos, by simp [climb]⟩
  | cons byte above ih =>
    rw [List.length_cons, Nat.mul_succ, Nat.add_comm (8 * _), littleEndian_cons]
    exact (shiftsUp_rol cc byte).append (ih _)

/-- ROR downwards is undone by moving the whole number up, with C. -/
theorem shiftsUp_descend : ShiftsUp (8 * bytes.length) (littleEndian (descend ror ror cc bytes).1)
    (descend ror ror cc bytes).2.carry (littleEndian bytes) cc.carry := by
  induction bytes with
  | nil => exact ⟨Nat.one_pos, Nat.one_pos, by simp [descend]⟩
  | cons byte above ih =>
    rw [List.length_cons, Nat.mul_succ, Nat.add_comm (8 * _), littleEndian_cons, descend_self,
      littleEndian_cons]
    exact (shiftsUp_ror _ byte).append ih

/-- After the last byte V tells the bit that has gone out on top from the new top bit. -/
theorem flags_climb (hne : bytes ≠ []) :
    (climb rol rol cc bytes).2.negative =
        (littleEndian (climb rol rol cc bytes).1).testBit (8 * bytes.length - 1) ∧
      (climb rol rol cc bytes).2.overflow =
        ((climb rol rol cc bytes).2.negative ^^ (climb rol rol cc bytes).2.carry) := by
  induction bytes generalizing cc with
  | nil => exact absurd rfl hne
  | cons byte above ih =>
    cases above with
    | nil => exact ⟨negative_rol cc byte, overflow_rol cc byte⟩
    | cons higher above =>
      obtain ⟨hnegative, hoverflow⟩ := ih (rol cc byte).2 (List.cons_ne_nil _ _)
      exact ⟨hnegative.trans (testBit_top_cons _ (Nat.succ_pos _) _).symm, hoverflow⟩

/-- The bytes can be told from the number and how many they are. -/
theorem littleEndian_inj {bytes other : List UInt8} (hlength : other.length = bytes.length)
    (h : littleEndian other = littleEndian bytes) : other = bytes := by
  have hbyte (bytes : List UInt8) : ∀ digit ∈ bytes.map UInt8.toNat, digit < 256 :=
    List.forall_mem_map.mpr fun byte _ => byte.toNat_lt
  refine List.map_injective_iff.mpr (fun _ _ => UInt8.toNat_inj.mp) ?_
  exact Nat.ofDigits_inj_of_len_eq (by decide) (by simpa using hlength) (hbyte other) (hbyte bytes)
    h

/-! ## Rotations undone -/

section Undone

variable {cc between : Flags}

/-- ROR downwards brings back what ROL upwards has moved, if C is still the same. -/
theorem descend_climb (bytes : List UInt8)
    (hcarry : between.carry = (climb rol rol cc bytes).2.carry) :
    (descend ror ror between (climb rol rol cc bytes).1).1 = bytes ∧
      (descend ror ror between (climb rol rol cc bytes).1).2.carry = cc.carry := by
  have h := shiftsUp_descend between (climb rol rol cc bytes).1
  rw [length_climb, hcarry] at h
  obtain ⟨hvalue, hback⟩ := (shiftsUp_climb cc bytes).eq_of_result h
  exact ⟨littleEndian_inj (by rw [length_descend, length_climb]) hvalue, hback⟩

/-- ROL upwards brings back what ROR downwards has moved, if C is still the same. -/
theorem climb_descend (bytes : List UInt8)
    (hcarry : between.carry = (descend ror ror cc bytes).2.carry) :
    (climb rol rol between (descend ror ror cc bytes).1).1 = bytes ∧
      (climb rol rol between (descend ror ror cc bytes).1).2.carry = cc.carry := by
  have h := shiftsUp_climb between (descend ror ror cc bytes).1
  rw [length_descend, hcarry] at h
  obtain ⟨hvalue, hback⟩ := (shiftsUp_descend cc bytes).eq_of_value h
  exact ⟨littleEndian_inj (by rw [length_climb, length_descend]) hvalue, hback⟩

end Undone

/-! ## Shifts and rotations are exact -/

/-- A number that goes down by one place, its sign kept, is halved. -/
theorem twosComplement_of_sign {bits value result : Nat} {bitOut : Bool} (hbits : 0 < bits)
    (h : ShiftsUp bits result bitOut value (value.testBit (bits - 1))) :
    twosComplement bits result = twosComplement bits value / 2 := by
  have heq := h.eq
  have hresult := h.value_lt
  have hvalue := h.result_lt
  have hout := bitOut.toNat_le
  rw [testBit_top hbits hvalue, toNat_decide] at heq
  rw [twosComplement_eq hbits hresult, twosComplement_eq hbits hvalue]
  rw [two_pow_eq hbits] at heq hresult hvalue
  generalize 2 ^ (bits - 1) = half at *
  split at heq <;> split <;> split <;> omega

/-- LSL on the least significant byte and ROL on each higher one double the number, as far as it has
room for that; C is the old top bit, and V tells C from N. LSR on the most significant byte and ROR
on each lower one halve the number without a sign, ASR and ROR the signed one, both rounding down,
and C is the old lowest bit. ROL on all bytes upwards and ROR on all bytes downwards rotate the
number with C in front of it by one place, and each undoes what the other one has done. -/
theorem wide_shifts_exact {bytes : List UInt8} (hne : bytes ≠ []) (cc : Flags) :
    let bits := 8 * bytes.length
    let value := littleEndian bytes
    (∃ result last, climb lsl rol cc bytes = (result, last) ∧ result.length = bytes.length ∧
      littleEndian result = 2 * value % 256 ^ bytes.length ∧
      last.carry = value.testBit (bits - 1) ∧
      last.negative = (littleEndian result).testBit (bits - 1) ∧
      last.overflow = (last.negative ^^ last.carry)) ∧
    (∃ result last, descend lsr ror cc bytes = (result, last) ∧ result.length = bytes.length ∧
      littleEndian result = value / 2 ∧ last.carry = value.testBit 0) ∧
    (∃ result last, descend asr ror cc bytes = (result, last) ∧ result.length = bytes.length ∧
      signedValue result = signedValue bytes / 2 ∧ last.carry = value.testBit 0) ∧
    (∃ result last, climb rol rol cc bytes = (result, last) ∧ result.length = bytes.length ∧
      withCarry bits last.carry (littleEndian result) =
        (withCarry bits cc.carry value).rotateLeft 1 ∧
      ∀ between : Flags, between.carry = last.carry →
        (descend ror ror between result).1 = bytes ∧
        (descend ror ror between result).2.carry = cc.carry) ∧
    ∃ result last, descend ror ror cc bytes = (result, last) ∧ result.length = bytes.length ∧
      withCarry bits last.carry (littleEndian result) =
        (withCarry bits cc.carry value).rotateRight 1 ∧
      ∀ between : Flags, between.carry = last.carry →
        (climb rol rol between result).1 = bytes ∧
        (climb rol rol between result).2.carry = cc.carry := by
  intro bits value
  have hbits : 0 < bits := Nat.mul_pos (by decide) (List.length_pos_iff.mpr hne)
  have hrange : 256 ^ bytes.length = 2 ^ bits := (Nat.pow_mul 2 8 bytes.length).symm
  refine ⟨?_, ?_, ?_, ?_, ?_⟩
  · rw [climb_lsl cc hne]
    have h := shiftsUp_climb { cc with carry := false } bytes
    obtain ⟨hnegative, hoverflow⟩ := flags_climb { cc with carry := false } bytes hne
    refine ⟨_, _, rfl, length_climb .., ?_, h.bitOut_eq hbits, hnegative, hoverflow⟩
    have heq := h.eq
    rw [Bool.toNat_false, Nat.add_zero] at heq
    rw [hrange, ← heq, Nat.add_mul_mod_self_left, Nat.mod_eq_of_lt h.result_lt]
  · rw [descend_lsr cc hne]
    have h := shiftsUp_descend { cc with carry := false } bytes
    refine ⟨_, _, rfl, length_descend .., ?_, h.bitIn_eq hbits⟩
    have heq := h.eq
    have hout := Bool.toNat_le (descend ror ror { cc with carry := false } bytes).2.carry
    rw [Bool.toNat_false, Nat.mul_zero, Nat.add_zero] at heq
    omega
  · rw [descend_asr cc hne]
    have h := shiftsUp_descend { cc with carry := value.testBit (bits - 1) } bytes
    refine ⟨_, _, rfl, length_descend .., ?_, h.bitIn_eq hbits⟩
    unfold signedValue
    rw [length_descend]
    exact twosComplement_of_sign hbits h
  · exact ⟨_, _, rfl, length_climb .., (shiftsUp_climb cc bytes).rotateLeft hbits,
      fun _ hcarry => descend_climb bytes hcarry⟩
  · exact ⟨_, _, rfl, length_descend .., (shiftsUp_descend cc bytes).rotateRight hbits,
      fun _ hcarry => climb_descend bytes hcarry⟩

/-- The number 0x8001, which is -32767 with a sign: doubled it loses its sign, and half of it is
rounded down. -/
theorem wide_shifts_exact_negative :
    (∃ result last, climb lsl rol { carry := true } [0x01, 0x80] = (result, last) ∧
      littleEndian result = 2 ∧ last.carry ∧ last.overflow) ∧
    (∃ result last, descend lsr ror { carry := true } [0x01, 0x80] = (result, last) ∧
      littleEndian result = 0x4000 ∧ last.carry) ∧
    ∃ result last, descend asr ror { carry := true } [0x01, 0x80] = (result, last) ∧
      signedValue result = -16384 ∧ last.carry := by
  obtain ⟨⟨doubled, last, hdoubled, -, hvalue, hcarry, hnegative, hoverflow⟩,
      ⟨half, last', hhalf, -, hvalue', hcarry'⟩, ⟨signed, last'', hsigned, -, hvalue'', hcarry''⟩,
      -⟩ := wide_shifts_exact (List.cons_ne_nil 0x01 [0x80]) { carry := true }
  refine ⟨⟨doubled, last, hdoubled, hvalue, hcarry, ?_⟩, ⟨half, last', hhalf, hvalue', hcarry'⟩,
    signed, last'', hsigned, hvalue''.trans (by decide), hcarry''⟩
  rw [hoverflow, hnegative, hvalue, hcarry]
  rfl

end Alu

end Mc6809
