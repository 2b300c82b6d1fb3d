/-
  The shortest decimal text that reads back as a given binary64 number.

  The numbers that round to `m · 2^q` form an interval around it: half the distance to
  each neighbour, ends included when `m` is even. Among the decimals with the fewest
  digits in that interval the nearest to the number is taken, and of two equally near
  ones the greater.
-/
import Mc6809.Decimal.Binary64

namespace Mc6809

/-- A positive decimal, `digits · 10^exponent`. -/
structure Decimal where
  digits : Nat
  exponent : Int
deriving DecidableEq, Repr

namespace Decimal

/-- The interval of a positive binary64 number in whole multiples of `unit`, where
`unit = 2^exponent`: the number is `middle`, its ends are `low` and `high`. -/
structure RoundingInterval where
  low : Nat
  middle : Nat
  high : Nat
  closed : Bool
  exponent : Int
deriving DecidableEq, Repr

/-- A number just above a power of two is half as far from the one below as from the one
above, except at the bottom of the range. -/
def RoundingInterval.of (significand : Nat) (exponent : Int) : RoundingInterval :=
  let narrow := significand = Binary64.hiddenBit ∧ exponent ≠ -1074
  { low := 4 * significand - (if narrow then 1 else 2)
    middle := 4 * significand
    high := 4 * significand + 2
    closed := significand % 2 = 0
    exponent := exponent - 2 }

/-- `n · 2^a · 10^b` as a fraction of two natural numbers. -/
def fraction (n : Nat) (a b : Int) : Nat × Nat :=
  (n * Nat.pow 2 a.toNat * Nat.pow 10 b.toNat, Nat.pow 2 (-a).toNat * Nat.pow 10 (-b).toNat)

/-- The nearest multiple of `10^exponent` that lies in the interval, if any does. -/
def onGrid? (interval : RoundingInterval) (exponent : Int) : Option Decimal :=
  let (middle, scale) := fraction interval.middle interval.exponent (-exponent)
  let (low, _) := fraction interval.low interval.exponent (-exponent)
  let (high, _) := fraction interval.high interval.exponent (-exponent)
  let inside (digits : Nat) : Bool :=
    if interval.closed then low ≤ digits * scale && digits * scale ≤ high
    else low < digits * scale && digits * scale < high
  let below := middle / scale
  let above := below + 1
  let nearer := if above * scale - middle ≤ middle - below * scale then above else below
  let farther := if nearer = above then below else above
  if inside nearer then some ⟨nearer, exponent⟩
  else if inside farther then some ⟨farther, exponent⟩
  else none

/-- The largest `k` with `10^k ≤ numerator / denominator`, searched downwards from a bound. -/
def magnitude (numerator denominator : Nat) : Nat → Int → Int
  | 0, k => k
  | steps + 1, k =>
    let (power, scale) := fraction 1 0 k
    if power * denominator ≤ numerator * scale then k
    else magnitude numerator denominator steps (k - 1)

/-- The shortest decimal of `significand · 2^exponent`, a positive binary64 number. Seventeen
digits always suffice. -/
def shortest (significand : Nat) (exponent : Int) : Decimal :=
  let interval := RoundingInterval.of significand exponent
  let (numerator, denominator) := fraction significand exponent 0
  let top := magnitude numerator denominator 640 310
  ((List.range 17).findSome? fun (count : Nat) =>
    onGrid? interval (top - (count : Int))).getD ⟨0, 0⟩

/-- Positional text with at least one digit after the point. -/
def positional (decimal : Decimal) : String :=
  if 0 ≤ decimal.exponent then
    toString (decimal.digits * Nat.pow 10 decimal.exponent.toNat) ++ ".0"
  else
    let places := (-decimal.exponent).toNat
    let whole := decimal.digits / Nat.pow 10 places
    let part := toString (decimal.digits % Nat.pow 10 places)
    toString whole ++ "." ++ String.ofList (List.replicate (places - part.length) '0') ++ part

end Decimal

end Mc6809
