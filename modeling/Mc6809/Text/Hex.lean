/-
  Hexadecimal text with upper-case digits and a least width, and decoding of byte
  strings written two digits per byte.
-/

namespace Mc6809.Hex

/-- The upper-case digit for a value below 16. -/
def digit (value : Nat) : Char :=
  if value < 10 then Char.ofNat (48 + value) else Char.ofNat (55 + value)

/-- The digits of a number, most significant first, none for zero. -/
def significant (value : Nat) : List Char :=
  if value = 0 then [] else significant (value / 16) ++ [digit (value % 16)]
termination_by value
decreasing_by omega

/-- Upper-case digits, with zeros in front up to `width` digits. -/
def padded (width value : Nat) : String :=
  let digits := significant value
  String.ofList (List.replicate (width - digits.length) '0' ++ digits)

/-- Upper-case digits without zeros in front; zero has one digit. -/
def plain (value : Nat) : String := padded 1 value

/-- Two digits. -/
def byte (value : UInt8) : String := padded 2 value.toNat

/-- Four digits. -/
def word (value : UInt16) : String := padded 4 value.toNat

/-- The value of a digit of either case. -/
def digitValue? (c : Char) : Option Nat :=
  if '0' ≤ c ∧ c ≤ '9' then some (c.toNat - 48)
  else if 'A' ≤ c ∧ c ≤ 'F' then some (c.toNat - 55)
  else if 'a' ≤ c ∧ c ≤ 'f' then some (c.toNat - 87)
  else none

/-- The number written by a non-empty list of digits of either case. -/
def toNat? (digits : List Char) : Option Nat :=
  if digits.isEmpty then none
  else digits.foldlM (fun value c => (digitValue? c).map (16 * value + ·)) 0

/-- The bytes written two digits each; `none` for an odd count or a foreign character. -/
def toBytes? : List Char → Option (List UInt8)
  | [] => some []
  | [_] => none
  | high :: low :: rest => do
    let h ← digitValue? high
    let l ← digitValue? low
    let bytes ← toBytes? rest
    return UInt8.ofNat (16 * h + l) :: bytes

/-- The two-digit texts of the bytes, one after the other. -/
def ofBytes (bytes : List UInt8) : String := String.join (bytes.map byte)

end Mc6809.Hex
