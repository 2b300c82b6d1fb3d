/-
  Mapping calls: the changes that a host can ask of the page table. A call on one page changes one
  slot of it. A call on a range changes the pages from the first to the last, or is refused.
-/
import Mc6809.Memory.PageTable

namespace Mc6809

/-- A change of the page table. -/
inductive Mapping where
  /-- Installs the read view of a page, or clears it. -/
  | setReadView (number : UInt8) (view : Option PageView)
  /-- Installs the write view of a page, or clears it. -/
  | setWriteView (number : UInt8) (view : Option PageView)
  | setReadHandler (number : UInt8) (handler : ReadHandler)
  | clearReadHandler (number : UInt8)
  | setWriteHandler (number : UInt8) (handler : WriteHandler)
  | clearWriteHandler (number : UInt8)
  | mapBlock (first last : UInt8) (block : BlockId) (index : Nat) (access : Access)
  | mapReadHandler (first last : UInt8) (handler : ReadHandler)
  | mapWriteHandler (first last : UInt8) (handler : WriteHandler)
  | mapNull (first last : UInt8)
  | unmap (first last : UInt8) (access : Access)
deriving DecidableEq, Repr

/-- Makes the call. The store tells the lengths of blocks. -/
def Mapping.apply (mapping : Mapping) (store : Store) (table : PageTable) :
    Except MapError PageTable :=
  match mapping with
  | setReadView number view =>
    .ok (table.update number fun page => { page with readView := view })
  | setWriteView number view =>
    .ok (table.update number fun page => { page with writeView := view })
  | setReadHandler number handler =>
    .ok (table.update number fun page => { page with readHandler := some handler })
  | clearReadHandler number =>
    .ok (table.update number fun page => { page with readHandler := none })
  | setWriteHandler number handler =>
    .ok (table.update number fun page => { page with writeHandler := some handler })
  | clearWriteHandler number =>
    .ok (table.update number fun page => { page with writeHandler := none })
  | mapBlock first last block index access => table.mapBlock store first last block index access
  | mapReadHandler first last handler => table.mapReadHandler first last handler
  | mapWriteHandler first last handler => table.mapWriteHandler first last handler
  | mapNull first last => table.mapNull first last
  | unmap first last access => table.unmap first last access

end Mc6809
