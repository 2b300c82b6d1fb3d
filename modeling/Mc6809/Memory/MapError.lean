/-
  The reasons for which a mapping or a load is refused. A refused call changes nothing.
-/
import Mc6809.Text.Hex

namespace Mc6809

/-- Why a mapping call was refused. -/
inductive MapError where
  /-- The page does not lie wholly inside its block. -/
  | pageOutOfRange (index length : Nat)
  /-- The bytes do not fit into the block. -/
  | loadOutOfRange (offset count length : Nat)
  /-- The last page comes before the first. -/
  | emptyRange (first last : UInt8)
  /-- The region has fewer banks. -/
  | noSuchBank (bank count : Nat)
  /-- The block is not a whole, non-zero number of banks. -/
  | bankGeometry (length pages : Nat)
deriving DecidableEq, Repr

/-- The text for a person. -/
def MapError.message : MapError → String
  | pageOutOfRange index length =>
    "page " ++ toString index ++ " lies outside a " ++ toString length ++ "-byte memory block"
  | loadOutOfRange offset count length =>
    "loading " ++ toString count ++ " bytes at offset 0x" ++ Hex.plain offset ++
      " overflows a " ++ toString length ++ "-byte memory block"
  | emptyRange first last =>
    "page range 0x" ++ Hex.byte first ++ "..=0x" ++ Hex.byte last ++ " is empty"
  | noSuchBank bank count =>
    "bank " ++ toString bank ++ " does not exist in a region of " ++ toString count ++ " banks"
  | bankGeometry length pages =>
    "a " ++ toString length ++ "-byte block cannot be split into banks of " ++
      toString pages ++ " pages"

end Mc6809
