/-
  Storage behind a bus. A store is known by its bytes, and exchanges put into each byte the last
  value that they write to it, so to replay them a second time changes nothing. What a host maps
  with `PageTable.mapBlock` are views of blocks that exist (`Backed.mapBlock`). A bus without
  handlers is made of such views only, and the exchanges of a course say what becomes of it.
-/
import Mc6809.Proofs.Course
import Mc6809.Proofs.Pages

namespace Mc6809

/-! ## Stores by their bytes -/

namespace Store

theorem bytes_eq_of_get? {store other : Store} {block : BlockId}
    (h : ∀ offset, other.get? block offset = store.get? block offset) :
    other.bytes block = store.bytes block := Array.ext_getElem? h

/-- A store is known by the number of its blocks and by its bytes. -/
theorem eq_of_get? {store other : Store} (hsize : other.blocks.size = store.blocks.size)
    (h : ∀ block offset, other.get? block offset = store.get? block offset) : other = store := by
  obtain ⟨blocks⟩ := store
  obtain ⟨blocks'⟩ := other
  refine congrArg Store.mk (Array.ext hsize fun i hi hi' => ?_)
  have hbytes := bytes_eq_of_get? fun offset => h ⟨i⟩ offset
  simpa [bytes, hi, hi'] using hbytes

theorem size_set (store : Store) (block : BlockId) (offset : Nat) (value : UInt8) :
    (store.set block offset value).blocks.size = store.blocks.size := Array.size_modify

/-- Only a block that exists has pages. -/
theorem lt_of_page {store : Store} {block : BlockId} {index : Nat} {view : PageView}
    (h : store.page block index = .ok view) : view.block.index < store.blocks.size := by
  unfold page at h
  split at h
  · rename_i hindex
    cases h
    refine Decidable.byContradiction fun hbound => ?_
    simp [pageCount, length, bytes, hbound] at hindex
  · cases h

end Store

/-! ## Replaying exchanges twice -/

namespace Bus

variable {σ : Type} {bus other : Bus σ}

theorem replay_append (bus : Bus σ) (first second : List Exchange) :
    bus.replay (first ++ second) = (bus.replay first).replay second := by
  induction first generalizing bus with
  | nil => rfl
  | cons exchange first ih => cases exchange <;> exact ih _

theorem cell?_congr (h : other.pages = bus.pages) (address : UInt16) :
    other.cell? address = bus.cell? address := by
  unfold cell?
  rw [h]

theorem size_putByte (bus : Bus σ) (address : UInt16) (value : UInt8) :
    (bus.putByte address value).store.blocks.size = bus.store.blocks.size := by
  unfold putByte
  split
  · exact Store.size_set _ _ _ _
  · rfl

theorem size_replay (bus : Bus σ) (w : List Exchange) :
    (bus.replay w).store.blocks.size = bus.store.blocks.size := by
  induction w generalizing bus with
  | nil => rfl
  | cons exchange w ih =>
    cases exchange with
    | write address value => rw [replay, ih, size_putByte]
    | read | releaseNmi | report => exact ih _

/-- Besides the store and the lines a replay changes nothing. -/
theorem replay_eq (bus : Bus σ) (w : List Exchange) :
    bus.replay w = { bus with store := (bus.replay w).store, lines := (bus.replay w).lines } := by
  induction w generalizing bus with
  | nil => rfl
  | cons exchange w ih =>
    cases exchange with
    | write address value =>
      have hput : ∃ store, bus.putByte address value = { bus with store } := by
        unfold putByte
        split
        · exact ⟨_, rfl⟩
        · exact ⟨bus.store, rfl⟩
      obtain ⟨store, hput⟩ := hput
      have hrest := ih (bus.putByte address value)
      rw [hput] at hrest
      rw [replay, hput]
      exact hrest
    | releaseNmi => exact ih (bus.setLine .nmi false)
    | read | report => exact ih bus

/-- The value that the last write to a cell of storage puts there. -/
def lastWrite? (bus : Bus σ) (cell : BlockId × Nat) : List Exchange → Option UInt8
  | [] => none
  | .write address value :: rest =>
    (bus.lastWrite? cell rest).or (if bus.cell? address = some cell then some value else none)
  | _ :: rest => bus.lastWrite? cell rest

theorem lastWrite?_congr (h : other.pages = bus.pages) (cell : BlockId × Nat)
    (w : List Exchange) : other.lastWrite? cell w = bus.lastWrite? cell w := by
  induction w with
  | nil => rfl
  | cons exchange w ih =>
    cases exchange with
    | write address value => rw [lastWrite?, lastWrite?, ih, cell?_congr h]
    | read | releaseNmi | report => exact ih

theorem get?_putByte_self {address : UInt16} {block : BlockId} {offset : Nat}
    (h : bus.cell? address = some (block, offset)) (value : UInt8) :
    (bus.putByte address value).store.get? block offset =
      (bus.store.get? block offset).map fun _ => value := by
  unfold putByte
  rw [h]
  dsimp only
  rw [Store.get?_set, if_pos ⟨rfl, rfl⟩]

/-- Exchanges put the last value written to a byte in its place, and leave it if there is none. -/
theorem get?_replay (bus : Bus σ) (w : List Exchange) (block : BlockId) (offset : Nat) :
    (bus.replay w).store.get? block offset =
      (bus.store.get? block offset).map fun byte =>
        (bus.lastWrite? (block, offset) w).getD byte := by
  induction w generalizing bus with
  | nil => exact Option.map_id'.symm
  | cons exchange w ih =>
    cases exchange with
    | write address value =>
      rw [replay, ih, lastWrite?_congr (putByte_pages bus address value), lastWrite?]
      by_cases hcell : bus.cell? address = some (block, offset)
      · rw [get?_putByte_self hcell, if_pos hcell, Option.map_map]
        refine congrArg (Option.map · _) (funext fun byte => ?_)
        cases bus.lastWrite? (block, offset) w <;> rfl
      · rw [get?_putByte value hcell, if_neg hcell, Option.or_none]
    | releaseNmi =>
      have hpages : (bus.setLine .nmi false).pages = bus.pages := rfl
      have hrest := ih (bus.setLine .nmi false)
      rw [lastWrite?_congr hpages] at hrest
      exact hrest
    | read | report => exact ih bus

/-- To replay exchanges once more changes nothing. -/
theorem replay_replay {w : List Exchange} (h : .releaseNmi ∉ w) :
    (bus.replay w).replay w = bus.replay w := by
  have hstore : ((bus.replay w).replay w).store = (bus.replay w).store := by
    refine Store.eq_of_get? (size_replay _ _) fun block offset => ?_
    rw [get?_replay, lastWrite?_congr (replay_pages bus w), get?_replay, Option.map_map]
    refine congrArg (Option.map · _) (funext fun byte => ?_)
    cases bus.lastWrite? (block, offset) w <;> rfl
  rw [replay_eq (bus.replay w) w, hstore, replay_lines _ _ h]

end Bus

/-! ## Views of blocks that exist -/

namespace Bus

variable {σ : Type} {bus : Bus σ}

/-- Every view is one of a block that exists. -/
structure Backed (bus : Bus σ) : Prop where
  readView : ∀ number view, (bus.pages.page number).readView = some view →
    view.block.index < bus.store.blocks.size
  writeView : ∀ number view, (bus.pages.page number).writeView = some view →
    view.block.index < bus.store.blocks.size

/-- What can be mapped is a page of a block that exists. -/
theorem Backed.mapBlock {pages : PageTable} {first last : UInt8} {block : BlockId} {index : Nat}
    {access : Access} (hbacked : bus.Backed)
    (h : bus.pages.mapBlock bus.store first last block index access = .ok pages) :
    { bus with pages }.Backed := by
  refine ⟨fun number view hview => ?_, fun number view hview => ?_⟩
  · obtain hpage | ⟨-, added, place, hadded, hpage⟩ := PageTable.page_of_mapBlock h number
    · exact hbacked.readView number view (hpage ▸ hview)
    · dsimp only at hview
      rw [hpage, Page.readView_putView] at hview
      split at hview
      · cases hview
        exact Store.lt_of_page hadded
      · exact hbacked.readView number view hview
  · obtain hpage | ⟨-, added, place, hadded, hpage⟩ := PageTable.page_of_mapBlock h number
    · exact hbacked.writeView number view (hpage ▸ hview)
    · dsimp only at hview
      rw [hpage, Page.writeView_putView] at hview
      split at hview
      · cases hview
        exact Store.lt_of_page hadded
      · exact hbacked.writeView number view hview

end Bus

/-! ## Courses without handlers -/

namespace Bus

variable {σ : Type} {devices : Devices σ} {bus : Bus σ}

/-- The block and the offset of the byte that a read from an address gets, if the page has a view
for reads. -/
def source? (bus : Bus σ) (address : UInt16) : Option (BlockId × Nat) :=
  (bus.pages.page (highByte address)).readView.map fun view =>
    (view.block, view.base + (lowByte address).toNat)

/-- The byte of a cell. Views made by `Store.page` have no cell past its block. -/
def cellByte (bus : Bus σ) (cell : BlockId × Nat) : UInt8 :=
  (bus.store.get? cell.1 cell.2).getD 0

theorem readResult_of_plain (h : bus.pages.Plain) (address : UInt16) :
    bus.readResult devices address = (match bus.source? address with
      | some cell => .ok (bus.cellByte cell)
      | none => .error (.unmappedRead address), bus) := by
  have hroute := (h (highByte address)).1
  rw [readResult_eq]
  unfold source?
  unfold Page.readRoute at hroute
  cases hview : (bus.pages.page (highByte address)).readView with
  | some view => rfl
  | none =>
    cases hhandler : (bus.pages.page (highByte address)).readHandler with
    | none => rfl
    | some handler => simp [hview, hhandler] at hroute

theorem writeResult_of_plain (h : bus.pages.Plain) (address : UInt16) (value : UInt8) :
    bus.writeResult devices address value = (match bus.cell? address with
      | some _ => .ok ()
      | none => .error (.unmappedWrite address value), bus.putByte address value) := by
  have hroute := (h (highByte address)).2
  rw [writeResult_eq]
  unfold putByte cell?
  unfold Page.writeRoute at hroute
  cases hview : (bus.pages.page (highByte address)).writeView with
  | some view => rfl
  | none =>
    cases hhandler : (bus.pages.page (highByte address)).writeHandler with
    | none => rfl
    | some handler => simp [hview, hhandler] at hroute

theorem Backed.source (h : bus.Backed) {address : UInt16} {cell : BlockId × Nat}
    (hcell : bus.source? address = some cell) : cell.1.index < bus.store.blocks.size := by
  obtain ⟨view, hview, rfl⟩ := Option.map_eq_some_iff.mp hcell
  exact h.readView _ view hview

theorem Backed.target (h : bus.Backed) {address : UInt16} {cell : BlockId × Nat}
    (hcell : bus.cell? address = some cell) : cell.1.index < bus.store.blocks.size := by
  obtain ⟨view, hview, rfl⟩ := Option.map_eq_some_iff.mp hcell
  exact h.writeView _ view hview

theorem Backed.putByte (h : bus.Backed) (address : UInt16) (value : UInt8) :
    (bus.putByte address value).Backed := by
  refine ⟨?_, ?_⟩
  · rw [putByte_pages, size_putByte]
    exact h.readView
  · rw [putByte_pages, size_putByte]
    exact h.writeView

end Bus

namespace Traffic

variable {σ α : Type} {devices : Devices σ} {bus : Bus σ}

theorem course_read_of_plain (h : bus.pages.Plain) (address : UInt16) (next : UInt8 → Traffic α) :
    (read address next).course devices bus = match bus.source? address with
      | some cell => ((next (bus.cellByte cell)).course devices bus).after
          (.read address (bus.cellByte cell)) false
      | none => ⟨[], false, .error (.unmappedRead address), bus⟩ := by
  have hroute : decide (bus.readRoute address = .handler) = false := decide_eq_false (h _).1
  rw [course, Bus.readResult_of_plain h, hroute]
  cases bus.source? address <;> rfl

theorem course_write_of_plain (h : bus.pages.Plain) (address : UInt16) (value : UInt8)
    (next : Traffic α) : (write address value next).course devices bus =
      match bus.cell? address with
      | some _ => (next.course devices (bus.putByte address value)).after
          (.write address value) false
      | none => ⟨[], false, .error (.unmappedWrite address value), bus⟩ := by
  have hroute : decide (bus.writeRoute address = .handler) = false := decide_eq_false (h _).2
  rw [course, Bus.writeResult_of_plain h, hroute]
  cases hcell : bus.cell? address with
  | some _ => rfl
  | none =>
    have hput : bus.putByte address value = bus := by
      unfold Bus.putByte
      rw [hcell]
    rw [hput]

theorem handled_of_plain (h : bus.pages.Plain) (t : Traffic α) :
    (t.course devices bus).handled = false := by
  induction t generalizing bus with
  | done result => rfl
  | read address next ih =>
    rw [course_read_of_plain h]
    cases bus.source? address with
    | none => rfl
    | some cell => exact ih _ h
  | write address value next ih =>
    rw [course_write_of_plain h]
    cases bus.cell? address with
    | none => rfl
    | some cell =>
      refine ih ?_
      rw [Bus.putByte_pages]
      exact h
  | releaseNmi next ih => exact ih h
  | report event next ih => exact ih h

/-- On a plain bus the exchanges say what becomes of it. -/
theorem course_of_plain (h : bus.pages.Plain) (t : Traffic α) :
    (t.course devices bus).bus = bus.replay (t.course devices bus).exchanges :=
  course_of_unhandled devices t bus (handled_of_plain h t)

end Traffic

end Mc6809
