/-
  Storage: byte blocks of fixed length, reached through handles, and the 256-byte views
  into them that a page table holds. A handle names its block for good: blocks are added
  and their bytes change, but no block is removed and none changes its length. Two handles
  that are equal name the same bytes.
-/
import Mc6809.Memory.MapError

namespace Mc6809

/-- The handle of a block. -/
structure BlockId where
  index : Nat
deriving DecidableEq, Repr

/-- A 256-byte view into a block, starting at `base`. Two views cover the same bytes when
they are equal. -/
structure PageView where
  block : BlockId
  base : Nat
deriving DecidableEq, Repr

/-- What a person is shown of a view: its base, with at least four digits. -/
def PageView.text (view : PageView) : String := "PageRef(0x" ++ Hex.padded 4 view.base ++ ")"

/-- All blocks. -/
structure Store where
  blocks : Array (Array UInt8) := #[]
deriving DecidableEq, Inhabited

namespace Store

/-- Adds a block and returns its handle. -/
def add (store : Store) (bytes : Array UInt8) : BlockId × Store :=
  (⟨store.blocks.size⟩, ⟨store.blocks.push bytes⟩)

/-- The bytes of a block. -/
def bytes (store : Store) (block : BlockId) : Array UInt8 :=
  store.blocks.getD block.index #[]

/-- The length of a block. -/
def length (store : Store) (block : BlockId) : Nat := (store.bytes block).size

/-- What a person is shown of a block. -/
def text (store : Store) (block : BlockId) : String :=
  "MemoryBlock \x7b len: " ++ toString (store.length block) ++ " \x7d"

/-- The number of whole pages in a block. -/
def pageCount (store : Store) (block : BlockId) : Nat := store.length block / 256

/-- The byte at an offset, `none` past the end. -/
def get? (store : Store) (block : BlockId) (offset : Nat) : Option UInt8 :=
  (store.bytes block)[offset]?

/-- Writes a byte; past the end nothing happens. -/
def set (store : Store) (block : BlockId) (offset : Nat) (value : UInt8) : Store :=
  ⟨store.blocks.modify block.index (·.setIfInBounds offset value)⟩

/-- Writes bytes one after the other from an offset on. -/
def setMany (store : Store) (block : BlockId) (offset : Nat) (values : List UInt8) : Store :=
  match values with
  | [] => store
  | value :: rest => (store.set block offset value).setMany block (offset + 1) rest

/-- Copies bytes into a block if all of them fit. -/
def load (store : Store) (block : BlockId) (offset : Nat) (values : List UInt8) :
    Except MapError Store :=
  if offset + values.length ≤ store.length block then
    .ok (store.setMany block offset values)
  else
    .error (.loadOutOfRange offset values.length (store.length block))

/-- The view of a page of a block, if the page lies wholly inside it. -/
def page (store : Store) (block : BlockId) (index : Nat) : Except MapError PageView :=
  if index < store.pageCount block then .ok ⟨block, 256 * index⟩
  else .error (.pageOutOfRange index (store.length block))

/-- The byte of a view. A view made by `page` never reaches past its block. -/
def readView (store : Store) (view : PageView) (offset : UInt8) : UInt8 :=
  (store.get? view.block (view.base + offset.toNat)).getD 0

/-- Writes a byte through a view. -/
def writeView (store : Store) (view : PageView) (offset value : UInt8) : Store :=
  store.set view.block (view.base + offset.toNat) value

/-! ## Single cells -/

theorem bytes_set (store : Store) (block other : BlockId) (offset : Nat) (value : UInt8) :
    (store.set block offset value).bytes other =
      if other = block then (store.bytes block).setIfInBounds offset value
      else store.bytes other := by
  obtain ⟨i⟩ := block
  obtain ⟨j⟩ := other
  simp only [set, bytes, Array.getD_eq_getD_getElem?, Array.getElem?_modify, BlockId.mk.injEq]
  by_cases h : i = j
  · subst h
    rw [if_pos rfl, if_pos rfl]
    cases store.blocks[i]? with
    | none => simp
    | some bytes => rfl
  · rw [if_neg h, if_neg (Ne.symm h)]

/-- Writing a byte changes the length of no block. -/
theorem length_set (store : Store) (block other : BlockId) (offset : Nat) (value : UInt8) :
    (store.set block offset value).length other = store.length other := by
  unfold length
  rw [bytes_set]
  split
  · rename_i h
    rw [h, Array.size_setIfInBounds]
  · rfl

/-- Writing a byte changes one cell, if that exists. -/
theorem get?_set (store : Store) (block other : BlockId) (offset place : Nat) (value : UInt8) :
    (store.set block offset value).get? other place =
      if other = block ∧ place = offset then (store.get? block offset).map fun _ => value
      else store.get? other place := by
  unfold get?
  rw [bytes_set]
  by_cases hblock : other = block
  · subst hblock
    rw [if_pos rfl, Array.getElem?_setIfInBounds]
    by_cases hplace : place = offset
    · subst hplace
      rw [if_pos rfl]
      by_cases hbound : place < (store.bytes other).size
      · simp [hbound]
      · simp [hbound]
    · rw [if_neg (Ne.symm hplace), if_neg fun h => hplace h.2]
  · rw [if_neg hblock, if_neg fun h => hblock h.1]

end Store

end Mc6809
