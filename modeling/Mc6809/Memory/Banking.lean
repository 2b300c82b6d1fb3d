/-
  Banked memory: a window of pages that shows one of several equal parts of a block, and
  the select register that chooses the part. A number past the last bank shows the null
  page: reads give zero and writes are dropped, in both directions whatever the window's
  access is.
-/
import Mc6809.Memory.PageTable

namespace Mc6809

/-- A window and the block whose banks it shows. -/
structure BankedRegion where
  block : BlockId
  first : UInt8
  last : UInt8
  access : Access
  bankCount : Nat
deriving DecidableEq, Repr

namespace BankedRegion

def pagesPerBank (region : BankedRegion) : Nat :=
  PageTable.rangeLength region.first region.last

/-- Splits a block into banks of the size of the window. The block has to be a whole,
non-zero number of them. -/
def create (store : Store) (block : BlockId) (first last : UInt8) (access : Access) :
    Except MapError BankedRegion := do
  PageTable.checkRange first last
  let pages := PageTable.rangeLength first last
  let length := store.length block
  if length = 0 ∨ length % (256 * pages) ≠ 0 then
    throw (.bankGeometry length pages)
  return ⟨block, first, last, access, store.pageCount block / pages⟩

/-- Shows a bank in the window. -/
def map (region : BankedRegion) (store : Store) (table : PageTable) (bank : Nat) :
    Except MapError PageTable :=
  if bank < region.bankCount then
    table.mapBlock store region.first region.last region.block (bank * region.pagesPerBank)
      region.access
  else
    .error (.noSuchBank bank region.bankCount)

/-- Shows the null page in the window. -/
def mapNull (region : BankedRegion) (table : PageTable) : Except MapError PageTable :=
  table.mapNull region.first region.last

end BankedRegion

/-- A bank-select register: the bank it shows, if any, and the mask for written values. -/
structure BankSwitch where
  region : BankedRegion
  mask : UInt8
  selected : Option Nat := none
deriving DecidableEq, Repr

/-- Shows the bank, or the null page if there is no such bank. -/
def BankSwitch.select (switch : BankSwitch) (store : Store) (table : PageTable) (bank : Nat) :
    Except MapError (BankSwitch × PageTable) :=
  if bank < switch.region.bankCount then do
    let table ← switch.region.map store table bank
    return ({ switch with selected := some bank }, table)
  else do
    let table ← switch.region.mapNull table
    return ({ switch with selected := none }, table)

end Mc6809
