/-
  Mapping a block, as a computation on machine words that edits the bus page by page.

  The indices of the pages are sums, and the first of them can be any number that a word holds. No
  sum is ever too large, however near the end of the words it starts: the pages are looked up one
  after the other, and a sum is computed only once the page before it has been found in the block,
  whose length is a word (`Store.lookUp?_eq`). And as all pages are looked up before the first one
  is changed, a call that is refused has changed nothing. So the computation comes to what
  `PageTable.mapBlock` says (`Bus.run_mapBlockInWords`), and `mapBlock_exact` says what that is.
-/
import Mathlib.Order.Bounds.Defs
import Mc6809.Proofs.Banking

namespace Mc6809

/-! ## Slots of a page that a block is mapped on -/

/-- The page that shows a view in both directions. -/
def Page.buffered (view : PageView) : Page := { readView := some view, writeView := some view }

/-- A view takes the slots of the chosen directions, and the other ones stay. -/
theorem Page.slot_putView (page : Page) (access : Access) (view : PageView) (slot : Slot) :
    (page.putView access (some view)).slot slot =
      if access.concerns slot then (Page.buffered view).slot slot else page.slot slot := by
  cases access <;> cases slot <;> rfl

/-! ## Looking up pages -/

/-- A number, if a word can hold it. -/
def word? (limit number : Nat) : Option Nat := if number < limit then some number else none

theorem word?_eq {limit number : Nat} (h : number < limit) : word? limit number = some number :=
  if_pos h

namespace Store

/-- Looks up pages of a block one after the other, so many from a distance to an index on, up to the
first that the block does not have. There is no result if an index or the base of a view gets too
large for a word. -/
def lookUp? (store : Store) (limit : Nat) (block : BlockId) (index distance : Nat) :
    Nat → Option (Except MapError (List PageView))
  | 0 => some (.ok [])
  | count + 1 => do
    let place ← word? limit (index + distance)
    match store.page block place with
    | .error error => return .error error
    | .ok view =>
      let base ← word? limit view.base
      let views ← store.lookUp? limit block index (distance + 1) count
      return ({ view with base } :: ·) <$> views

variable {store : Store} {limit : Nat} {block : BlockId} {index : Nat}

/-- If a word can hold the first index and the length of the block, it can hold all that follows:
the page before an index has been found in the block. -/
theorem lookUp?_eq (hlength : store.length block < limit) {distance : Nat}
    (hplace : index + distance < limit) (count : Nat) :
    store.lookUp? limit block index distance count =
      some ((List.range' distance count).mapM fun i => store.page block (index + i)) := by
  induction count generalizing distance with
  | zero => rfl
  | succ count ih =>
    rw [lookUp?, word?_eq hplace, List.range'_succ, List.mapM_cons]
    by_cases hfound : index + distance < store.pageCount block
    · have hpage : store.page block (index + distance) = .ok ⟨block, 256 * (index + distance)⟩ :=
        if_pos hfound
      have hpages : 256 * store.pageCount block ≤ store.length block := Nat.mul_div_le _ _
      have hbase : word? limit (256 * (index + distance)) = some (256 * (index + distance)) :=
        word?_eq (by omega)
      have hrest := ih (show index + (distance + 1) < limit by omega)
      simp only [Option.bind_eq_bind, Option.bind_some, hpage, hbase, hrest]
      generalize (List.range' (distance + 1) count).mapM
        (fun i => store.page block (index + i)) = rest
      cases rest <;> rfl
    · have hpage : store.page block (index + distance) =
          .error (.pageOutOfRange (index + distance) (store.length block)) := if_neg hfound
      simp only [Option.bind_eq_bind, Option.bind_some, hpage]
      rfl

end Store

/-! ## One page after the other -/

namespace PageTable

/-- The pages of a range, in order. -/
def rangeNumbers (first last : UInt8) : List UInt8 :=
  (List.range (rangeLength first last)).map fun distance => first + .ofNat distance

/-- The change of the first so many pages of a range, one after the other. -/
theorem page_foldl_update (table : PageTable) (first : UInt8) (f : Nat → Page → Page) {count : Nat}
    (hcount : first.toNat + count ≤ 256) (number : UInt8) :
    ((List.range count).foldl
        (fun table distance => table.update (first + .ofNat distance) (f distance)) table).page
          number =
      if first ≤ number ∧ number.toNat < first.toNat + count then
        f (number.toNat - first.toNat) (table.page number)
      else table.page number := by
  induction count with
  | zero =>
    refine (if_neg fun h => ?_).symm
    have hle : first.toNat ≤ number.toNat := h.1
    omega
  | succ count ih =>
    have hlast : (first + .ofNat count).toNat = first.toNat + count := by
      rw [UInt8.toNat_add, UInt8.toNat_ofNat', Nat.mod_eq_of_lt (a := count) (by omega)]
      exact Nat.mod_eq_of_lt (by omega)
    rw [List.range_succ, List.foldl_append, List.foldl_cons, List.foldl_nil, page_update]
    by_cases hsame : first + .ofNat count = number
    · subst hsame
      rw [ih (by omega), hlast]
      have hle : first ≤ first + .ofNat count := UInt8.le_iff_toNat_le.mpr (by omega)
      rw [if_pos rfl, if_neg (by omega), if_pos ⟨hle, by omega⟩, Nat.add_sub_cancel_left]
    · have hne : number.toNat ≠ first.toNat + count := fun h =>
        hsame (UInt8.toNat_inj.mp (hlast.trans h.symm))
      rw [if_neg hsame, ih (by omega)]
      refine if_congr (and_congr_right fun _ => ?_) rfl rfl
      omega

/-- A change of each page of a range, one after the other, is the change of the range. -/
theorem foldl_update (table : PageTable) {first last : UInt8} (h : first ≤ last)
    (f : Nat → Page → Page) :
    (List.range (rangeLength first last)).foldl
        (fun table distance => table.update (first + .ofNat distance) (f distance)) table =
      table.updateRange first last f := by
  have hle : first.toNat ≤ last.toNat := h
  have hlast := last.toNat_lt
  have hlength : first.toNat + rangeLength first last = last.toNat + 1 := by
    unfold rangeLength
    omega
  refine ext fun number => ?_
  rw [page_foldl_update _ _ _ (by omega), page_updateRange, hlength]
  simp only [Nat.lt_succ_iff, UInt8.le_iff_toNat_le]

end PageTable

/-! ## Words -/

/-- A computation that changes the bus. It can be refused with an error, or come to no result when a
number gets too large for a word. -/
abbrev WordM (σ : Type) := ExceptT MapError (StateT (Bus σ) Option)

namespace Bus

variable {σ : Type}

/-- Shows a view in a page, in the chosen directions. -/
def showView (access : Access) (bus : Bus σ) (number : UInt8) (view : PageView) : Bus σ :=
  { bus with pages := bus.pages.update number (·.putView access (some view)) }

/-- Maps consecutive pages of a block on a range as a host does that computes in words: it looks up
all the pages, then changes one page of the bus after the other. -/
def mapBlockInWords (limit : Nat) (first last : UInt8) (block : BlockId) (index : Nat)
    (access : Access) : WordM σ Unit :=
  if last < first then throw (.emptyRange first last)
  else do
    let views ← ExceptT.mk (StateT.lift
      ((← get).store.lookUp? limit block index 0 (PageTable.rangeLength first last)))
    ((PageTable.rangeNumbers first last).zip views).forM fun (number, view) =>
      modify (showView access · number view)

/-- What a mapping of a block comes to. A call that is refused leaves the bus as it is. -/
def mappedBlock (bus : Bus σ) (first last : UInt8) (block : BlockId) (index : Nat)
    (access : Access) : Except MapError Unit × Bus σ :=
  match bus.editPages (·.mapBlock bus.store first last block index access) with
  | .ok after => (.ok (), after)
  | .error error => (.error error, bus)

theorem run_lift_bind {α : Type} (found : Option (Except MapError α)) (next : α → WordM σ Unit)
    (bus : Bus σ) : ((ExceptT.mk (StateT.lift found) >>= next).run.run bus) = match found with
      | none => none
      | some (.error error) => some (.error error, bus)
      | some (.ok a) => (next a).run.run bus := by
  cases found with
  | none => rfl
  | some result => cases result <;> rfl

theorem run_forM_showView (access : Access) (places : List (UInt8 × PageView)) (bus : Bus σ) :
    ((places.forM fun (number, view) => modify (showView access · number view) :
        WordM σ Unit).run.run bus) =
      some (.ok (), places.foldl (fun bus (number, view) => showView access bus number view) bus) :=
  by
  induction places generalizing bus with
  | nil => rfl
  | cons place places ih => exact ih _

/-- The views of consecutive pages of a block, shown one after the other in the pages of a range. -/
theorem foldl_showView (bus : Bus σ) {first last : UInt8} (h : first ≤ last) (access : Access)
    (view : Nat → PageView) :
    ((PageTable.rangeNumbers first last).zip
        ((List.range (PageTable.rangeLength first last)).map view)).foldl
          (fun bus (number, view) => showView access bus number view) bus =
      { bus with pages := bus.pages.updateRange first last fun distance page =>
          page.putView access (some (view distance)) } := by
  have hpages (places : List (UInt8 × PageView)) (bus : Bus σ) :
      places.foldl (fun bus (number, view) => showView access bus number view) bus =
        { bus with pages := places.foldl (fun pages (number, view) =>
            pages.update number (·.putView access (some view))) bus.pages } := by
    induction places generalizing bus with
    | nil => rfl
    | cons place places ih => exact ih _
  unfold PageTable.rangeNumbers
  rw [hpages, List.zip_map', List.foldl_map, ← PageTable.foldl_update _ h]

section

variable (bus : Bus σ) {first last : UInt8} {block : BlockId} {index : Nat} (access : Access)

theorem mappedBlock_of_empty (h : last < first) :
    bus.mappedBlock first last block index access = (.error (.emptyRange first last), bus) := by
  unfold mappedBlock editPages
  dsimp only
  rw [PageTable.mapBlock_eq, if_pos h]
  rfl

theorem mappedBlock_of_fits (hrange : first ≤ last)
    (hfits : index + PageTable.rangeLength first last ≤ bus.store.pageCount block) :
    bus.mappedBlock first last block index access =
      (.ok (), { bus with
        pages := bus.pages.updateRange first last fun distance page =>
          page.putView access (some ⟨block, 256 * (index + distance)⟩) }) := by
  unfold mappedBlock editPages
  dsimp only
  rw [PageTable.mapBlock_eq, if_neg (UInt8.not_lt.mpr hrange), if_pos hfits]
  rfl

theorem mappedBlock_of_short (hrange : first ≤ last)
    (hshort : bus.store.pageCount block < index + PageTable.rangeLength first last) :
    bus.mappedBlock first last block index access =
      (.error (.pageOutOfRange (max index (bus.store.pageCount block)) (bus.store.length block)),
        bus) := by
  unfold mappedBlock editPages
  dsimp only
  rw [PageTable.mapBlock_eq, if_neg (UInt8.not_lt.mpr hrange), if_neg (Nat.not_le.mpr hshort)]
  rfl

end

/-- Words are large enough, and the pages that are changed one by one make up the range. -/
theorem run_mapBlockInWords (bus : Bus σ) {limit : Nat} (first last : UInt8) {block : BlockId}
    {index : Nat} (access : Access) (hlength : bus.store.length block < limit)
    (hindex : index < limit) :
    ((mapBlockInWords limit first last block index access : WordM σ Unit).run.run bus) =
      some (bus.mappedBlock first last block index access) := by
  unfold mapBlockInWords
  by_cases hempty : last < first
  · rw [if_pos hempty, mappedBlock_of_empty bus access hempty]
    rfl
  · have hordered := UInt8.not_lt.mp hempty
    have hcount := PageTable.rangeLength_pos hordered
    have hviews := Store.lookUp?_eq hlength (show index + 0 < limit from hindex)
      (PageTable.rangeLength first last)
    rw [← List.range_eq_range', Store.mapM_page] at hviews
    rw [if_neg hempty, run_get_bind, run_lift_bind, hviews]
    rcases Nat.lt_or_ge (bus.store.pageCount block) (index + PageTable.rangeLength first last) with
      hshort | hfits
    · rw [mappedBlock_of_short bus access hordered hshort, if_neg (by omega)]
    · rw [mappedBlock_of_fits bus access hordered hfits, if_pos (.inl hfits)]
      dsimp only
      rw [run_forM_showView, foldl_showView bus hordered]

/-- Of consecutive pages that the block does not all have, the first one that it lacks. -/
theorem isLeast_missing {index count pageCount : Nat} (hcount : 0 < count)
    (hshort : pageCount < index + count) :
    IsLeast { place | index ≤ place ∧ place < index + count ∧ pageCount ≤ place }
      (max index pageCount) :=
  ⟨⟨Nat.le_max_left _ _, by omega, Nat.le_max_right _ _⟩,
    fun _ h => Nat.max_le.mpr ⟨h.1, h.2.2⟩⟩

/-- A mapping of a block is accepted if the range is not empty and the block has as many pages from
the index on. It then shows them in the pages of the range, in the chosen directions, in place of
whatever was there, and changes nothing else. One that is refused changes nothing at all; it names
the range if that is empty, and otherwise the first page that the block does not have. All that is
so for a host that computes in words: if a word can hold the index and the length of the block, no
number that comes up is too large for one. -/
theorem mapBlock_exact (bus : Bus σ) (first last : UInt8) (block : BlockId) (index : Nat)
    (access : Access) :
    let count := PageTable.rangeLength first last
    let pageCount := bus.store.length block / 256
    let outcome := bus.mappedBlock first last block index access
    (outcome.1 = .ok () ↔ first ≤ last ∧ index + count ≤ pageCount) ∧
    (outcome.1 = .ok () → outcome.2 = { bus with pages := outcome.2.pages } ∧
      ∀ number slot, (outcome.2.pages.page number).slot slot =
        if (first ≤ number ∧ number ≤ last) ∧ access.concerns slot then
          (Page.buffered ⟨block, 256 * (index + (number.toNat - first.toNat))⟩).slot slot
        else (bus.pages.page number).slot slot) ∧
    (∀ error, outcome.1 = .error error → outcome.2 = bus ∧
      if last < first then error = .emptyRange first last
      else ∃ place, error = .pageOutOfRange place (bus.store.length block) ∧
        IsLeast { place | index ≤ place ∧ place < index + count ∧ pageCount ≤ place } place) ∧
    ∀ limit, index < limit → bus.store.length block < limit →
      (mapBlockInWords limit first last block index access : WordM σ Unit).run.run bus =
        some outcome := by
  intro count pageCount outcome
  have hwords (limit : Nat) (hindex : index < limit) (hlength : bus.store.length block < limit) :=
    bus.run_mapBlockInWords first last access hlength hindex
  by_cases hempty : last < first
  · have houtcome : outcome = _ := bus.mappedBlock_of_empty access hempty
    refine ⟨iff_of_false ?_ fun h => UInt8.not_lt.mpr h.1 hempty, ?_, ?_, hwords⟩ <;> rw [houtcome]
    · exact nofun
    · exact nofun
    · rintro error ⟨⟩
      exact ⟨rfl, (if_pos hempty).mpr rfl⟩
  have hordered := UInt8.not_lt.mp hempty
  rcases Nat.lt_or_ge pageCount (index + count) with hshort | hfits
  · have houtcome : outcome = _ := bus.mappedBlock_of_short access hordered hshort
    refine ⟨iff_of_false ?_ fun h => Nat.not_le.mpr hshort h.2, ?_, ?_, hwords⟩ <;> rw [houtcome]
    · exact nofun
    · exact nofun
    · rintro error ⟨⟩
      exact ⟨rfl, (if_neg hempty).mpr ⟨_, rfl,
        isLeast_missing (PageTable.rangeLength_pos hordered) hshort⟩⟩
  · have houtcome : outcome = _ := bus.mappedBlock_of_fits access hordered hfits
    refine ⟨iff_of_true ?_ ⟨hordered, hfits⟩, ?_, ?_, hwords⟩ <;> rw [houtcome]
    · refine fun _ => ⟨rfl, fun number slot => ?_⟩
      dsimp only
      rw [PageTable.page_updateRange]
      by_cases hin : first ≤ number ∧ number ≤ last
      · rw [if_pos hin, Page.slot_putView]
        exact if_congr (and_iff_right hin).symm rfl rfl
      · rw [if_neg hin, if_neg fun h => hin h.1]
    · exact nofun

/-- A block of one page and 255 bytes: its page can be mapped for reads. Of 256 pages from the last
index of a word on it has not even the first, and no index gets larger than that. -/
theorem mapBlock_exact_lastIndex :
    let bus : Bus Unit := { store := ⟨#[Array.replicate 511 0]⟩, devices := () }
    ((bus.mappedBlock 0x20 0x20 ⟨0⟩ 0 .read).1 = .ok () ∧
      ((bus.mappedBlock 0x20 0x20 ⟨0⟩ 0 .read).2.pages.page 0x20).readView = some ⟨⟨0⟩, 0⟩ ∧
      ((bus.mappedBlock 0x20 0x20 ⟨0⟩ 0 .read).2.pages.page 0x20).writeView = none) ∧
    (mapBlockInWords UInt64.size 0x00 0xFF ⟨0⟩ (UInt64.size - 1) .readWrite :
        WordM Unit Unit).run.run bus =
      some (.error (.pageOutOfRange (UInt64.size - 1) 511), bus) := by
  intro bus
  have hlength : bus.store.length ⟨0⟩ = 511 := Array.size_replicate
  obtain ⟨hok, hmapped, -, -⟩ := mapBlock_exact bus 0x20 0x20 ⟨0⟩ 0 .read
  have hfirst := hok.mpr ⟨by decide, by rw [hlength]; decide⟩
  obtain ⟨-, hslot⟩ := hmapped hfirst
  obtain ⟨-, -, -, hwords⟩ := mapBlock_exact bus 0x00 0xFF ⟨0⟩ (UInt64.size - 1) .readWrite
  refine ⟨⟨hfirst, hslot 0x20 .readView, (hslot 0x20 .writeView).trans ?_⟩, ?_⟩
  · exact (if_neg fun h => Bool.false_ne_true h.2).trans
      (congrArg Page.writeView (PageTable.page_unmapped 0x20))
  · have hpages : bus.store.pageCount ⟨0⟩ = 1 := congrArg (· / 256) hlength
    rw [hwords _ (by decide) (by rw [hlength]; decide),
      bus.mappedBlock_of_short _ (by decide) (by rw [hpages]; decide), hpages, hlength]
    rfl

end Bus

end Mc6809
