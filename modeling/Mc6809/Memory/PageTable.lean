/-
  The page table. The address space has 256 pages of 256 bytes. For each page and each
  direction there is room for a view into a block and for a handler. A view wins over a
  handler, and a page with neither refuses the access.

  Range calls change the pages from the first to the last and no others. A call that
  fails returns no table, so the caller keeps the one it has.
-/
import Mc6809.Memory.Store
import Mc6809.Word

namespace Mc6809

/-- Which directions a range call concerns. -/
inductive Access where
  | read | write | readWrite
deriving DecidableEq, Repr

def Access.reads : Access → Bool
  | .read | .readWrite => true
  | .write => false

def Access.writes : Access → Bool
  | .write | .readWrite => true
  | .read => false

/-- What answers reads of a page without a view. -/
inductive ReadHandler where
  /-- Every byte is zero. -/
  | null
  /-- A device of the board. -/
  | device (id : Nat)
deriving DecidableEq, Repr

/-- What takes writes to a page without a view. -/
inductive WriteHandler where
  /-- Every write is dropped. -/
  | null
  /-- A bank-select register. -/
  | bankSwitch (id : Nat)
  /-- A device of the board. -/
  | device (id : Nat)
deriving DecidableEq, Repr

/-- The four slots of a page. -/
structure Page where
  readView : Option PageView := none
  writeView : Option PageView := none
  readHandler : Option ReadHandler := none
  writeHandler : Option WriteHandler := none
deriving DecidableEq, Repr, Inhabited

/-- Where an access to a page goes. -/
inductive Route where
  | buffer | handler | unmapped
deriving DecidableEq, Repr

namespace Page

def readRoute (page : Page) : Route :=
  if page.readView.isSome then .buffer
  else if page.readHandler.isSome then .handler
  else .unmapped

def writeRoute (page : Page) : Route :=
  if page.writeView.isSome then .buffer
  else if page.writeHandler.isSome then .handler
  else .unmapped

/-- Sets what the page holds for reads. -/
def putRead (page : Page) (view : Option PageView) (handler : Option ReadHandler) : Page :=
  { page with readView := view, readHandler := handler }

/-- Sets what the page holds for writes. -/
def putWrite (page : Page) (view : Option PageView) (handler : Option WriteHandler) : Page :=
  { page with writeView := view, writeHandler := handler }

/-- Puts a view and no handler, or nothing at all, into the chosen directions. -/
def putView (page : Page) (access : Access) (view : Option PageView) : Page :=
  let page := if access.reads then page.putRead view none else page
  if access.writes then page.putWrite view none else page

end Page

/-- The slots of all pages. -/
abbrev PageTable := Vector Page 256

namespace PageTable

/-- Every page refuses every access. -/
def unmapped : PageTable := Vector.replicate 256 {}

/-- Page `i` shows page `i` of one block, for reads and writes. -/
def flat (block : BlockId) : PageTable :=
  Vector.ofFn fun i => ({} : Page).putView .readWrite (some ⟨block, 256 * i.val⟩)

/-- The slots of a page. -/
def page (table : PageTable) (number : UInt8) : Page :=
  table.get ⟨number.toNat, number.toNat_lt⟩

/-- Changes the slots of one page. -/
def update (table : PageTable) (number : UInt8) (f : Page → Page) : PageTable :=
  table.set number.toNat (f (table.page number)) number.toNat_lt

/-- Changes the pages of a range; `f` gets the distance from the first one. -/
def updateRange (table : PageTable) (first last : UInt8) (f : Nat → Page → Page) : PageTable :=
  table.mapIdx fun i page =>
    if first.toNat ≤ i ∧ i ≤ last.toNat then f (i - first.toNat) page else page

/-- The number of pages in a range. -/
def rangeLength (first last : UInt8) : Nat := last.toNat + 1 - first.toNat

/-- Fails for a range whose last page comes before its first. -/
def checkRange (first last : UInt8) : Except MapError Unit :=
  if first ≤ last then .ok () else .error (.emptyRange first last)

/-- Maps consecutive pages of a block on a range and clears the handlers of the chosen
directions. The error names the first page of the block that does not exist. -/
def mapBlock (table : PageTable) (store : Store) (first last : UInt8) (block : BlockId)
    (index : Nat) (access : Access) : Except MapError PageTable := do
  checkRange first last
  let views ← (List.range (rangeLength first last)).mapM fun i => store.page block (index + i)
  return table.updateRange first last fun i page =>
    match views[i]? with
    | some view => page.putView access (some view)
    | none => page

/-- One read handler for a whole range, in place of its read views. -/
def mapReadHandler (table : PageTable) (first last : UInt8) (handler : ReadHandler) :
    Except MapError PageTable := do
  checkRange first last
  return table.updateRange first last fun _ page => page.putRead none (some handler)

/-- One write handler for a whole range, in place of its write views. -/
def mapWriteHandler (table : PageTable) (first last : UInt8) (handler : WriteHandler) :
    Except MapError PageTable := do
  checkRange first last
  return table.updateRange first last fun _ page => page.putWrite none (some handler)

/-- The range reads as zero and drops writes. -/
def mapNull (table : PageTable) (first last : UInt8) : Except MapError PageTable := do
  let table ← table.mapReadHandler first last .null
  table.mapWriteHandler first last .null

/-- Clears the chosen directions of a range. -/
def unmap (table : PageTable) (first last : UInt8) (access : Access) :
    Except MapError PageTable := do
  checkRange first last
  return table.updateRange first last fun _ page => page.putView access none

end PageTable

end Mc6809
