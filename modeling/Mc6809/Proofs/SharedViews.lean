/-
  Pages that show the same storage. A block can be shown by any number of pages, a page can show one
  place for reads and another one for writes, and what is written through one view is read through
  every view of the same bytes.

  Two views could also share only some of their bytes, and a write would then turn up at another
  offset. That does not happen, since every view that a host gets hold of is a page of its block
  (`Store.Has`): its base is a multiple of 256, so views that share a byte are equal
  (`Store.Has.eq_of_cell_eq`). `Bus.Framed` is the invariant, and every bus that a host has put
  together from blocks and mapping calls has it (`Bus.Assembled.framed`).
-/
import Mc6809.Proofs.Mapping
import Mc6809.Proofs.Storage

namespace Mc6809

/-! ## Pages of a block -/

namespace Store

variable {store later : Store} {view target source : PageView}

/-- The view is that of a page which its block has. -/
def Has (store : Store) (view : PageView) : Prop :=
  ∃ index, store.page view.block index = .ok view

/-- Such a view lies within its block, on a multiple of its own length. -/
theorem has_iff : store.Has view ↔
    256 ∣ view.base ∧ view.base + 256 ≤ store.length view.block := by
  obtain ⟨block, base⟩ := view
  unfold Has page pageCount
  dsimp only
  constructor
  · rintro ⟨index, h⟩
    split at h
    · rename_i hindex
      cases h
      exact ⟨Nat.dvd_mul_right _ _, by omega⟩
    · cases h
  · rintro ⟨⟨index, rfl⟩, hlength⟩
    exact ⟨index, if_pos (by omega)⟩

theorem has_congr (h : ∀ block, later.length block = store.length block) :
    later.Has view ↔ store.Has view := by
  rw [has_iff, has_iff, h]

/-- A block that is added is another one. -/
theorem Has.add (h : store.Has view) (bytes : Array UInt8) : (store.add bytes).2.Has view := by
  obtain ⟨index, hpage⟩ := h
  have hlt := lt_of_page hpage
  have hlength : (store.add bytes).2.length view.block = store.length view.block := by
    unfold length Store.bytes Store.add
    rw [Array.getD_eq_getD_getElem?, Array.getD_eq_getD_getElem?, Array.getElem?_push_lt hlt,
      Array.getElem?_eq_getElem hlt]
  refine ⟨index, ?_⟩
  unfold page pageCount
  rw [hlength]
  exact hpage

/-- Views that share a byte are the same, and the byte has the same offset in both. -/
theorem Has.eq_of_cell_eq (hsource : store.Has source) (htarget : store.Has target)
    {place offset : UInt8} (hblock : source.block = target.block)
    (hcell : source.base + place.toNat = target.base + offset.toNat) :
    source = target ∧ place = offset := by
  obtain ⟨⟨index, hsourceBase⟩, -⟩ := has_iff.mp hsource
  obtain ⟨⟨index', htargetBase⟩, -⟩ := has_iff.mp htarget
  have hplace := place.toNat_lt
  have hoffset := offset.toNat_lt
  have hsame : place.toNat = offset.toNat := by omega
  have hbase : source.base = target.base := by omega
  obtain ⟨block, base⟩ := source
  obtain ⟨block', base'⟩ := target
  exact ⟨(PageView.mk.injEq ..).mpr ⟨hblock, hbase⟩, UInt8.toNat_inj.mp hsame⟩

/-- Every byte of such a view exists. -/
theorem Has.get? (h : store.Has view) (offset : UInt8) :
    ∃ byte, store.get? view.block (view.base + offset.toNat) = some byte := by
  have hlength := (has_iff.mp h).2
  have hoffset := offset.toNat_lt
  exact ⟨_, Array.getElem?_eq_getElem (show _ < store.length view.block by omega)⟩

/-- What is written through a view is read through it, and through no other one. -/
theorem readView_writeView (hsource : store.Has source) (htarget : store.Has target)
    (place offset value : UInt8) :
    (store.writeView target offset value).readView source place =
      if source = target ∧ place = offset then value else store.readView source place := by
  unfold writeView readView
  rw [get?_set]
  by_cases hsame : source = target ∧ place = offset
  · obtain ⟨rfl, rfl⟩ := hsame
    obtain ⟨byte, hbyte⟩ := hsource.get? place
    rw [if_pos ⟨rfl, rfl⟩, if_pos ⟨rfl, rfl⟩, hbyte]
    rfl
  · rw [if_neg hsame, if_neg fun h => hsame (hsource.eq_of_cell_eq htarget h.1 h.2)]

end Store

/-! ## Buses that a host has put together -/

/-- The view that a call installs, if it is given one. -/
def Mapping.view? : Mapping → Option PageView
  | setReadView _ view | setWriteView _ view => view
  | _ => none

/-- What a call that is not refused puts into a slot for views is a page of a block. -/
theorem Mapping.has_of_contents {mapping : Mapping} {store : Store}
    (hrefusal : mapping.refusal? store = none) (hviews : ∀ view ∈ mapping.view?, store.Has view)
    {distance : Nat} (hdistance : distance < PageTable.rangeLength mapping.first mapping.last)
    {view : PageView} (h : mapping.contents distance .readView = some (some view) ∨
      mapping.contents distance .writeView = some (some view)) : store.Has view := by
  cases mapping with
  | setReadView number given | setWriteView number given =>
    have hgiven : given = some view := by simpa [contents] using h
    exact hviews view hgiven
  | mapBlock first last block index access =>
    have hview : (⟨block, 256 * (index + distance)⟩ : PageView) = view := by
      cases access <;> simpa [contents, Access.reads, Access.writes] using h
    have hfits : index + PageTable.rangeLength first last ≤ store.pageCount block := by
      by_contra hshort
      simp only [refusal?, if_neg hshort] at hrefusal
      split at hrefusal <;> cases hrefusal
    rw [← hview]
    exact ⟨_, if_pos (Nat.lt_of_lt_of_le (Nat.add_lt_add_left hdistance index) hfits)⟩
  | setReadHandler | clearReadHandler | setWriteHandler | clearWriteHandler | mapReadHandler
  | mapWriteHandler | mapNull | unmap => simp [contents] at h

/-- After a call a slot holds what it held before or what the call puts there. -/
theorem Mapping.slot_cases {mapping : Mapping} {store : Store} {table later : PageTable}
    (h : mapping.apply store table = .ok later) (number : UInt8) (slot : Slot) :
    (later.page number).slot slot = (table.page number).slot slot ∨
      ∃ distance < PageTable.rangeLength mapping.first mapping.last,
        mapping.contents distance slot = some ((later.page number).slot slot) := by
  have hslot := slot_of_apply h number slot
  unfold puts at hslot
  split at hslot
  · rename_i hcovers
    cases hput : mapping.contents (number.toNat - mapping.first.toNat) slot with
    | none =>
      rw [hput] at hslot
      exact .inl hslot
    | some content =>
      rw [hput] at hslot
      exact .inr ⟨_, PageTable.sub_lt_rangeLength hcovers, hput.trans (congrArg some hslot.symm)⟩
  · exact .inl hslot

namespace Bus

variable {σ : Type}

/-- A host has put the bus together: it has added blocks, and it has made mapping calls with views
that it got from blocks. The rest of the board has done what it likes in between, short of mapping
pages and changing the length of a block. -/
inductive Assembled : Bus σ → Prop where
  | new (devices : σ) : Assembled { devices }
  | addBlock {bus : Bus σ} (bytes : Array UInt8) :
      Assembled bus → Assembled { bus with store := (bus.store.add bytes).2 }
  | map {bus : Bus σ} (mapping : Mapping) {pages : PageTable} :
      Assembled bus → (∀ view ∈ mapping.view?, bus.store.Has view) →
      mapping.apply bus.store bus.pages = .ok pages → Assembled { bus with pages }
  | other {bus later : Bus σ} :
      Assembled bus → later.pages = bus.pages →
      (∀ block, later.store.length block = bus.store.length block) → Assembled later

/-- Every view of the page table is that of a page which its block has. -/
structure Framed (bus : Bus σ) : Prop where
  readView : ∀ number view, (bus.pages.page number).readView = some view → bus.store.Has view
  writeView : ∀ number view, (bus.pages.page number).writeView = some view → bus.store.Has view

/-- A slot for views that a call has filled holds what was there or a page of a block. -/
theorem Framed.map {bus : Bus σ} (h : bus.Framed) {mapping : Mapping} {pages : PageTable}
    (hviews : ∀ view ∈ mapping.view?, bus.store.Has view)
    (hpages : mapping.apply bus.store bus.pages = .ok pages) : { bus with pages }.Framed := by
  have hrefusal : mapping.refusal? bus.store = none := by
    rw [Mapping.apply_eq] at hpages
    split at hpages
    · cases hpages
    · assumption
  refine ⟨fun number view hview => ?_, fun number view hview => ?_⟩
  · obtain hkept | ⟨distance, hdistance, hput⟩ := Mapping.slot_cases hpages number .readView
    · exact h.readView number view (hkept.symm.trans hview)
    · exact Mapping.has_of_contents hrefusal hviews hdistance
        (.inl (hput.trans (congrArg some hview)))
  · obtain hkept | ⟨distance, hdistance, hput⟩ := Mapping.slot_cases hpages number .writeView
    · exact h.writeView number view (hkept.symm.trans hview)
    · exact Mapping.has_of_contents hrefusal hviews hdistance
        (.inr (hput.trans (congrArg some hview)))

theorem Assembled.framed {bus : Bus σ} (h : bus.Assembled) : bus.Framed := by
  induction h with
  | new devices =>
    refine ⟨fun number view hview => ?_, fun number view hview => ?_⟩ <;>
    · dsimp only at hview
      rw [PageTable.page_unmapped] at hview
      cases hview
  | addBlock bytes _ ih =>
    exact ⟨fun number view hview => (ih.readView number view hview).add bytes,
      fun number view hview => (ih.writeView number view hview).add bytes⟩
  | map mapping _ hviews hpages ih => exact ih.map hviews hpages
  | other _ hpages hlength ih =>
    refine ⟨fun number view hview => ?_, fun number view hview => ?_⟩ <;>
      rw [hpages] at hview <;> rw [Store.has_congr hlength]
    · exact ih.readView number view hview
    · exact ih.writeView number view hview

/-! ## Writes -/

/-- On a page with a view for reads, what a read gives, and a peek with it. -/
theorem read_of_view (devices : Devices σ) {bus : Bus σ} {address : UInt16} {source : PageView}
    (h : (bus.pages.page (highByte address)).readView = some source) :
    (read devices address).run.run bus =
        ⟨(.ok (bus.store.readView source (lowByte address)), bus), []⟩ ∧
      bus.peek address = some (bus.store.readView source (lowByte address)) := by
  have hreads := bus.readsBy_page devices address rfl
  rw [h] at hreads
  exact ⟨hreads.1, hreads.2.2⟩

/-- On a page with a view for writes, what a write does. -/
theorem write_of_view (devices : Devices σ) {bus : Bus σ} {address : UInt16} {target : PageView}
    (h : (bus.pages.page (highByte address)).writeView = some target) (value : UInt8) :
    (write devices address value).run.run bus =
      ⟨(.ok (), { bus with store := bus.store.writeView target (lowByte address) value }), []⟩ := by
  have hwrites := bus.writesBy_page devices address value rfl
  rw [h] at hwrites
  exact hwrites.1

/-- On a bus that a host has put together, a write through a view succeeds and leaves the page table
as it is. Every page whose view for reads is the same then gives the new byte at the same offset, to
a read and to a peek alike. What is read anywhere else through a view is what was read there before,
and of all the blocks only the byte that has been written is another one. -/
theorem write_coherent (devices : Devices σ) {bus : Bus σ} (hbus : bus.Assembled)
    {address : UInt16} {target : PageView}
    (htarget : (bus.pages.page (highByte address)).writeView = some target) (value : UInt8) :
    ∃ after, (write devices address value).run.run bus = ⟨(.ok (), after), []⟩ ∧
      after = { bus with store := after.store } ∧
      (∀ other source, (bus.pages.page (highByte other)).readView = some source →
        ∃ byte, (read devices other).run.run bus = ⟨(.ok byte, bus), []⟩ ∧
          bus.peek other = some byte ∧
          let now := if source = target ∧ lowByte other = lowByte address then value else byte
          (read devices other).run.run after = ⟨(.ok now, after), []⟩ ∧
            after.peek other = some now) ∧
      ∀ block offset, after.store.get? block offset =
        if block = target.block ∧ offset = target.base + (lowByte address).toNat then some value
        else bus.store.get? block offset := by
  have hframed := hbus.framed
  have hhas := hframed.writeView _ _ htarget
  refine ⟨_, write_of_view devices htarget value, rfl, fun other source hsource => ?_,
    fun block offset => ?_⟩
  · obtain ⟨hread, hpeek⟩ := read_of_view devices hsource
    refine ⟨_, hread, hpeek, ?_⟩
    rw [← Store.readView_writeView (hframed.readView _ _ hsource) hhas]
    exact read_of_view devices hsource
  · obtain ⟨byte, hbyte⟩ := hhas.get? (lowByte address)
    unfold Store.writeView
    rw [Store.get?_set, hbyte]
    rfl

/-- A page that is read from one page of a block and written to another one, and a second page that
is read where the first one is written. -/
def crossed : Bus Unit where
  pages := ((PageTable.unmapped.update 0x20 fun page => { page with readView := some ⟨⟨0⟩, 256⟩ })
    |>.update 0x20 fun page => { page with writeView := some ⟨⟨0⟩, 0⟩ })
    |>.update 0x30 fun page => { page with readView := some ⟨⟨0⟩, 0⟩ }
  store := ⟨#[Array.replicate 512 0]⟩
  devices := ()

theorem assembled_crossed : crossed.Assembled := by
  have hlength : crossed.store.length ⟨0⟩ = 512 := Array.size_replicate
  have hhas (base : Nat) (hdvd : 256 ∣ base) (hbound : base + 256 ≤ 512) :
      crossed.store.Has ⟨⟨0⟩, base⟩ := Store.has_iff.mpr ⟨hdvd, hlength ▸ hbound⟩
  have hfirst := hhas 0 (by decide) (by decide)
  have hsecond := hhas 256 (by decide) (by decide)
  have hblock := (Assembled.new ()).addBlock (Array.replicate 512 0)
  have hread := hblock.map (.setReadView 0x20 (some ⟨⟨0⟩, 256⟩)) (by rintro _ ⟨⟩; exact hsecond) rfl
  have hwrite := hread.map (.setWriteView 0x20 (some ⟨⟨0⟩, 0⟩)) (by rintro _ ⟨⟩; exact hfirst) rfl
  exact hwrite.map (.setReadView 0x30 (some ⟨⟨0⟩, 0⟩)) (by rintro _ ⟨⟩; exact hfirst) rfl

theorem write_coherent_crossed :
    ∃ after, (write Devices.none 0x2010 0xAB).run.run crossed = ⟨(.ok (), after), []⟩ ∧
      (read Devices.none 0x3010).run.run after = ⟨(.ok 0xAB, after), []⟩ ∧
      after.peek 0x2010 = crossed.peek 0x2010 := by
  have htarget : (crossed.pages.page (highByte 0x2010)).writeView = some ⟨⟨0⟩, 0⟩ := by
    decide +kernel
  have hsame : (crossed.pages.page (highByte 0x3010)).readView = some ⟨⟨0⟩, 0⟩ := by
    decide +kernel
  have hother : (crossed.pages.page (highByte 0x2010)).readView = some ⟨⟨0⟩, 256⟩ := by
    decide +kernel
  obtain ⟨after, hwrite, -, hreads, -⟩ :=
    write_coherent Devices.none assembled_crossed htarget 0xAB
  obtain ⟨_, -, -, hread, -⟩ := hreads 0x3010 _ hsame
  obtain ⟨_, -, hbefore, -, hafter⟩ := hreads 0x2010 _ hother
  exact ⟨after, hwrite, hread, hafter.trans hbefore.symm⟩

end Bus

end Mc6809
