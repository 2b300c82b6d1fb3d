/-
  Periodic routines. A timer calls its routine once for every interval of cycles that a
  run uses up. Interval and countdown are in units of 2^-16 cycle, so a fractional
  cadence does not drift: the countdown is lowered by the exact cost of each step and
  raised by one interval per call.
-/
import Mc6809.Decimal.Shortest

namespace Mc6809

/-- A time between calls, in units of 2^-16 cycle: at least one cycle, and small enough for
a signed 64-bit number. -/
structure Interval where
  units : Nat
  one_cycle_le : 65536 ≤ units
  lt_limit : units < 0x8000000000000000
deriving DecidableEq, Repr

namespace Interval

/-- One cycle. -/
def oneCycle : Interval := ⟨65536, by decide, by decide⟩

/-- The interval with a number of units, brought into range. -/
def clamp (units : Nat) : Interval :=
  ⟨max 65536 (min units 0x7FFFFFFFFFFFFFFF), by omega, by omega⟩

/-- The interval nearest to a number of cycles given by its bit pattern, halves up.
Anything below one cycle and anything that is not finite counts as one cycle. -/
def ofBits (bits : UInt64) : Interval :=
  match Binary64.meaning bits with
  | .finite false significand exponent =>
    let scaled := exponent + 16
    if 0 ≤ scaled then clamp (significand * Nat.pow 2 scaled.toNat)
    else if significand < Nat.pow 2 (-exponent).toNat then oneCycle
    else clamp (Binary64.halveUp significand (-scaled).toNat)
  | _ => oneCycle

/-- The interval in cycles, as the nearest bit pattern. -/
def toBits (interval : Interval) : UInt64 := Binary64.nearest interval.units (-16)

/-- The interval in cycles, in the fewest digits that read back as the same pattern. -/
def text (interval : Interval) : String :=
  match Binary64.meaning interval.toBits with
  | .finite _ significand exponent => (Decimal.shortest significand exponent).positional
  | _ => ""

/-- How often a countdown runs out, and where it stands afterwards. -/
def expire (interval : Interval) (countdown : Int) : Nat × Int :=
  if countdown ≤ 0 then
    let (calls, rest) := interval.expire (countdown + interval.units)
    (calls + 1, rest)
  else (0, countdown)
termination_by (1 - countdown).toNat
decreasing_by
  have := interval.one_cycle_le
  omega

end Interval

/-- A routine of the board and the time until its next call. -/
structure Timer where
  interval : Interval
  countdown : Int
  routine : Nat
deriving DecidableEq, Repr

namespace Timer

/-- A timer that has a whole interval ahead. -/
def start (interval : Interval) (routine : Nat) : Timer := ⟨interval, interval.units, routine⟩

/-- The same timer with a whole interval ahead again. -/
def restart (timer : Timer) : Timer := { timer with countdown := timer.interval.units }

/-- Counts down by the cycles of a step, at most 2^32 - 1 of them, and says how many calls
are due. -/
def advance (timer : Timer) (elapsed : UInt64) : Nat × Timer :=
  let cycles := min elapsed.toNat 0xFFFFFFFF
  let (calls, countdown) := timer.interval.expire (timer.countdown - cycles * 65536)
  (calls, { timer with countdown })

/-- What a person is shown of a timer. -/
def text (timer : Timer) : String :=
  "PeriodicCallback \x7b interval_cycles: " ++ timer.interval.text ++ ", .. \x7d"

end Timer

end Mc6809
