/-
  Page tables and the range calls that edit them.

  A table is known by its pages, and a call that is accepted changes each page of its range on its
  own (`PageTable.page_updateRange`). When a block is accepted, and with which error it is refused,
  is told by `PageTable.mapBlock_eq`. What is mapped so are views of pages that the block has, and
  nothing else changes (`PageTable.page_of_mapBlock`); so a table without handlers stays without
  them, and one whose range was free only gets more views.
-/
import Mc6809.Memory.PageTable

namespace Mc6809

theorem of_bind_ok {ε α β : Type} {first : Except ε α} {next : α → Except ε β} {b : β}
    (h : first >>= next = .ok b) : ∃ a, first = .ok a ∧ next a = .ok b := by
  cases first with
  | error e => cases h
  | ok a => exact ⟨a, rfl, h⟩

/-! ## Pages -/

theorem Page.readView_putView (page : Page) (access : Access) (view : Option PageView) :
    (page.putView access view).readView = if access.reads then view else page.readView := by
  cases access <;> rfl

theorem Page.writeView_putView (page : Page) (access : Access) (view : Option PageView) :
    (page.putView access view).writeView = if access.writes then view else page.writeView := by
  cases access <;> rfl

namespace PageTable

/-- A table is known by its pages. -/
theorem ext {table other : PageTable} (h : ∀ number, other.page number = table.page number) :
    other = table :=
  Vector.ext fun i hi => by
    have hnumber : (UInt8.ofNat i).toNat = i := UInt8.toNat_ofNat_of_lt' hi
    have hpage := h (.ofNat i)
    unfold page at hpage
    simp only [hnumber] at hpage
    exact hpage

theorem page_unmapped (number : UInt8) : unmapped.page number = {} :=
  Vector.getElem_replicate number.toNat_lt

theorem page_updateRange (table : PageTable) (first last : UInt8) (f : Nat → Page → Page)
    (number : UInt8) : (table.updateRange first last f).page number =
      if first ≤ number ∧ number ≤ last then f (number.toNat - first.toNat) (table.page number)
      else table.page number :=
  Vector.getElem_mapIdx number.toNat_lt

theorem page_update (table : PageTable) (number other : UInt8) (f : Page → Page) :
    (table.update number f).page other =
      if number = other then f (table.page number) else table.page other := by
  refine (Vector.getElem_set number.toNat_lt other.toNat_lt).trans ?_
  simp only [UInt8.toNat_inj]
  rfl

end PageTable

/-! ## Ranges -/

namespace PageTable

theorem rangeLength_pos {first last : UInt8} (h : first ≤ last) : 0 < rangeLength first last := by
  have hle : first.toNat ≤ last.toNat := h
  unfold rangeLength
  omega

/-- How far a page is from the first one of its range. -/
theorem sub_lt_rangeLength {first last number : UInt8} (h : first ≤ number ∧ number ≤ last) :
    number.toNat - first.toNat < rangeLength first last := by
  have hfirst : first.toNat ≤ number.toNat := h.1
  have hlast : number.toNat ≤ last.toNat := h.2
  unfold rangeLength
  omega

theorem checkRange_eq (first last : UInt8) : checkRange first last =
    if last < first then .error (.emptyRange first last) else .ok () := by
  unfold checkRange
  by_cases h : last < first
  · rw [if_pos h, if_neg (UInt8.not_le.mpr h)]
  · rw [if_neg h, if_pos (UInt8.not_lt.mp h)]

/-- What is done to a range once it has been checked. -/
theorem checkRange_bind {α : Type} (first last : UInt8) (next : Except MapError α) :
    (checkRange first last >>= fun _ => next) =
      if last < first then .error (.emptyRange first last) else next := by
  rw [checkRange_eq]
  split <;> rfl

/-- A change of one page is one of a range. -/
theorem update_eq_updateRange (table : PageTable) (number : UInt8) (f : Page → Page) :
    table.update number f = table.updateRange number number fun _ page => f page := by
  refine ext fun other => ?_
  rw [page_update, page_updateRange]
  by_cases hother : number = other
  · subst hother
    rw [if_pos rfl, if_pos ⟨UInt8.le_refl _, UInt8.le_refl _⟩]
  · rw [if_neg hother, if_neg fun h => hother (UInt8.le_antisymm h.1 h.2)]

/-- Two changes of a range are one. -/
theorem updateRange_updateRange (table : PageTable) (first last : UInt8) (f g : Nat → Page → Page) :
    (table.updateRange first last f).updateRange first last g =
      table.updateRange first last fun distance page => g distance (f distance page) := by
  refine ext fun number => ?_
  rw [page_updateRange, page_updateRange, page_updateRange]
  split <;> rfl

theorem mapNull_eq (table : PageTable) (first last : UInt8) : table.mapNull first last =
    if last < first then .error (.emptyRange first last)
    else .ok (table.updateRange first last fun _ page =>
      (page.putRead none (some .null)).putWrite none (some .null)) := by
  unfold mapNull mapReadHandler mapWriteHandler
  rw [checkRange_bind]
  by_cases h : last < first
  · rw [if_pos h, if_pos h]
    rfl
  · rw [if_neg h, if_neg h]
    refine (checkRange_bind first last _).trans ?_
    rw [if_neg h, updateRange_updateRange]
    rfl

end PageTable

/-! ## Mapping a block -/

/-- The views of consecutive pages of a block. If the block ends before the last of them, the error
names the first one that it does not have. -/
theorem Store.mapM_page (store : Store) (block : BlockId) (index count : Nat) :
    (List.range count).mapM (fun i => store.page block (index + i)) =
      if index + count ≤ store.pageCount block ∨ count = 0 then
        .ok ((List.range count).map fun i => ⟨block, 256 * (index + i)⟩)
      else .error (.pageOutOfRange (max index (store.pageCount block)) (store.length block)) := by
  induction count with
  | zero =>
    rw [List.range_zero, List.mapM_nil, if_pos (Or.inr rfl)]
    rfl
  | succ count ih =>
    rw [List.range_succ, List.mapM_append, ih, List.mapM_cons, List.mapM_nil]
    by_cases hfirst : index + count ≤ store.pageCount block ∨ count = 0
    · rw [if_pos hfirst]
      unfold page
      by_cases hlast : index + count < store.pageCount block
      · rw [if_pos hlast, if_pos (Or.inl (by omega)), List.map_append]
        rfl
      · have hindex : max index (store.pageCount block) = index + count := by omega
        rw [if_neg hlast, if_neg (by omega), hindex]
        rfl
    · rw [if_neg hfirst, if_neg (by omega)]
      rfl

namespace PageTable

/-- A block is mapped if the range is not empty and the block has as many pages. -/
theorem mapBlock_eq (table : PageTable) (store : Store) (first last : UInt8) (block : BlockId)
    (index : Nat) (access : Access) : table.mapBlock store first last block index access =
      if last < first then .error (.emptyRange first last)
      else if index + rangeLength first last ≤ store.pageCount block then
        .ok (table.updateRange first last fun distance page =>
          page.putView access (some ⟨block, 256 * (index + distance)⟩))
      else .error (.pageOutOfRange (max index (store.pageCount block)) (store.length block)) := by
  unfold mapBlock
  rw [checkRange_bind]
  split
  · rfl
  · rename_i hrange
    have hlength := rangeLength_pos (UInt8.not_lt.mp hrange)
    rw [Store.mapM_page]
    by_cases hfits : index + rangeLength first last ≤ store.pageCount block
    · rw [if_pos hfits, if_pos (Or.inl hfits)]
      refine congrArg Except.ok (ext fun number => ?_)
      rw [page_updateRange, page_updateRange]
      split
      · rename_i hin
        rw [List.getElem?_map, List.getElem?_range (sub_lt_rangeLength hin)]
        rfl
      · rfl
    · rw [if_neg hfits, if_neg (by omega)]
      rfl

/-- A range of one page. -/
theorem mapBlock_one (table : PageTable) (store : Store) (number : UInt8) (block : BlockId)
    (index : Nat) (access : Access) :
    table.mapBlock store number number block index access =
      (store.page block index).map fun view =>
        table.update number (·.putView access (some view)) := by
  have hlength : rangeLength number number = 1 := by
    unfold rangeLength
    omega
  rw [mapBlock_eq, if_neg (UInt8.lt_irrefl number), hlength]
  unfold Store.page
  by_cases hindex : index < store.pageCount block
  · rw [if_pos hindex, if_pos (Nat.succ_le_of_lt hindex)]
    refine congrArg Except.ok (ext fun other => ?_)
    rw [page_updateRange, page_update]
    by_cases hother : number = other
    · subst hother
      rw [if_pos ⟨UInt8.le_refl _, UInt8.le_refl _⟩, if_pos rfl, Nat.sub_self]
      rfl
    · rw [if_neg fun h => hother (UInt8.le_antisymm h.1 h.2), if_neg hother]
  · rw [if_neg hindex, if_neg (by omega), Nat.max_eq_left (Nat.not_lt.mp hindex)]
    rfl

variable {table later : PageTable} {store : Store} {first last : UInt8} {block : BlockId}
  {index : Nat} {access : Access}

/-- A block that is mapped on a range changes nothing but the chosen views of these pages, and
shows a page of its own in each of them. -/
theorem page_of_mapBlock
    (h : table.mapBlock store first last block index access = .ok later) (number : UInt8) :
    later.page number = table.page number ∨ (first ≤ number ∧ number ≤ last) ∧
      ∃ view place, store.page block place = .ok view ∧
        later.page number = (table.page number).putView access (some view) := by
  rw [mapBlock_eq] at h
  split at h
  · cases h
  · split at h
    · rename_i hfits
      obtain rfl := Except.ok.inj h
      rw [page_updateRange]
      split
      · rename_i hin
        have hplace : index + (number.toNat - first.toNat) < store.pageCount block :=
          Nat.lt_of_lt_of_le (Nat.add_lt_add_left (sub_lt_rangeLength hin) index) hfits
        exact .inr ⟨hin, _, _, if_pos hplace, rfl⟩
      · exact .inl rfl
    · cases h

end PageTable

/-! ## Tables without handlers -/

namespace PageTable

variable {table later : PageTable} {store : Store} {first last : UInt8} {block : BlockId}
  {index : Nat} {access : Access}

/-- Every slot of every page holds a view or nothing. -/
def Plain (table : PageTable) : Prop :=
  ∀ number, (table.page number).readRoute ≠ .handler ∧ (table.page number).writeRoute ≠ .handler

/-- No page gets a handler by that. -/
theorem Plain.mapBlock (hplain : table.Plain)
    (h : table.mapBlock store first last block index access = .ok later) : later.Plain := by
  intro number
  obtain ⟨hread, hwrite⟩ := hplain number
  obtain hpage | ⟨-, view, -, -, hpage⟩ := page_of_mapBlock h number
  · rw [hpage]
    exact ⟨hread, hwrite⟩
  · rw [hpage]
    cases access
    · exact ⟨nofun, hwrite⟩
    · exact ⟨hread, nofun⟩
    · exact ⟨nofun, nofun⟩

/-- The later table has the views of the earlier one, and perhaps more. -/
structure Extends (later earlier : PageTable) : Prop where
  readView : ∀ number view, (earlier.page number).readView = some view →
    (later.page number).readView = some view
  writeView : ∀ number view, (earlier.page number).writeView = some view →
    (later.page number).writeView = some view

/-- Where the chosen slots of the range are unmapped, the other ones are left alone. -/
theorem extends_of_mapBlock (h : table.mapBlock store first last block index access = .ok later)
    (hfree : ∀ number, first ≤ number → number ≤ last →
      (access.reads → (table.page number).readRoute = .unmapped) ∧
      (access.writes → (table.page number).writeRoute = .unmapped)) : later.Extends table := by
  refine ⟨fun number view hview => ?_, fun number view hview => ?_⟩
  · obtain hpage | ⟨⟨hfirst, hlast⟩, added, -, -, hpage⟩ := page_of_mapBlock h number
    · rw [hpage, hview]
    · have hreads : access.reads = false := by
        refine Bool.eq_false_iff.mpr fun hreads => ?_
        have hroute := (hfree number hfirst hlast).1 hreads
        simp [Page.readRoute, hview] at hroute
      rw [hpage, Page.readView_putView, hreads, if_neg Bool.false_ne_true, hview]
  · obtain hpage | ⟨⟨hfirst, hlast⟩, added, -, -, hpage⟩ := page_of_mapBlock h number
    · rw [hpage, hview]
    · have hwrites : access.writes = false := by
        refine Bool.eq_false_iff.mpr fun hwrites => ?_
        have hroute := (hfree number hfirst hlast).2 hwrites
        simp [Page.writeRoute, hview] at hroute
      rw [hpage, Page.writeView_putView, hwrites, if_neg Bool.false_ne_true, hview]

end PageTable

end Mc6809
