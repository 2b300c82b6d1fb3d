/-
  What a select register leaves in its window.

  A region that `BankedRegion.create` accepts is a whole number of banks (`BankedRegion.Fits`),
  so no selection is ever refused: it changes each page of the window as `BankedRegion.shown`
  says and nothing else of the page table (`BankSwitch.select_eq`).

  The two kinds of selection do not write the same slots. A bank that exists takes the directions
  of the region's access and lets the others be. The null page takes both directions. Two results
  come from that:

  * The register always tells what the window shows (`selected_matches_window`). The invariant is
    that one more selection of the bank named last would change no page (`Reflects.pages`). It
    holds after every request, since what a selection leaves in a page it leaves there again
    (`BankedRegion.shown_shown`), and it is what makes it safe to skip a write.
  * The bank named last decides what the window shows, in the directions of the access
    (`selections_agree`). In the other directions the null page stays once it has been there
    (`slot_shownAll`), so there the earlier selections can be told from it
    (`missing_bank_leaves_trace`).
-/
import Mc6809.Proofs.Mapping

namespace Mc6809

/-! ## Regions -/

/-- The page that reads as zero and drops writes. -/
def Page.null : Page := { readHandler := some .null, writeHandler := some .null }

/-- The access has to do with the slot. -/
def Access.concerns (access : Access) : Slot → Bool
  | .readView | .readHandler => access.reads
  | .writeView | .writeHandler => access.writes

namespace BankedRegion

/-- The page belongs to the window. -/
def Covers (region : BankedRegion) (number : UInt8) : Prop :=
  region.first ≤ number ∧ number ≤ region.last

instance (region : BankedRegion) (number : UInt8) : Decidable (region.Covers number) :=
  inferInstanceAs (Decidable (region.first ≤ number ∧ number ≤ region.last))

/-- What `create` has made sure of: the block is a whole, non-zero number of banks. -/
structure Fits (region : BankedRegion) (store : Store) : Prop where
  ordered : region.first ≤ region.last
  length : store.length region.block = region.bankCount * (256 * region.pagesPerBank)
  bankCount_pos : 0 < region.bankCount

/-- The bank of this number, if the region has it. -/
def bank? (region : BankedRegion) (bank : Nat) : Option Nat :=
  if bank < region.bankCount then some bank else none

/-- How far a page is from the first one of the window. -/
def distance (region : BankedRegion) (number : UInt8) : Nat :=
  number.toNat - region.first.toNat

/-- The view that a bank has for a page of the window. -/
def view (region : BankedRegion) (bank distance : Nat) : PageView :=
  ⟨region.block, 256 * (bank * region.pagesPerBank + distance)⟩

/-- What a page of the window becomes when a bank is selected. -/
def shown (region : BankedRegion) (bank distance : Nat) (page : Page) : Page :=
  if bank < region.bankCount then page.putView region.access (some (region.view bank distance))
  else Page.null

/-- What a table becomes when a bank is selected. -/
def showIn (region : BankedRegion) (table : PageTable) (bank : Nat) : PageTable :=
  table.updateRange region.first region.last (region.shown bank)

variable {region : BankedRegion} {store : Store} {block : BlockId} {first last : UInt8}
  {access : Access} {bank distance : Nat}

theorem bank?_eq_some_iff {other : Nat} :
    region.bank? bank = some other ↔ bank < region.bankCount ∧ bank = other := by
  unfold bank?
  split <;> simp [*]

theorem fits_of_create (h : create store block first last access = .ok region) :
    region = ⟨block, first, last, access, region.bankCount⟩ ∧ region.Fits store := by
  unfold create at h
  obtain ⟨_, hrange, h⟩ := of_bind_ok h
  dsimp only at h
  split at h
  · cases h
  · rename_i hgeometry
    obtain rfl := Except.ok.inj h
    obtain ⟨hlength, hmod⟩ := not_or.mp hgeometry
    have hordered : first ≤ last := by
      rw [PageTable.checkRange_eq] at hrange
      split at hrange
      · cases hrange
      · exact UInt8.not_lt.mp ‹_›
    have hbanks : store.pageCount block / PageTable.rangeLength first last *
        (256 * PageTable.rangeLength first last) = store.length block := by
      unfold Store.pageCount
      rw [Nat.div_div_eq_div_mul]
      exact Nat.div_mul_cancel (Nat.dvd_of_mod_eq_zero (Decidable.not_not.mp hmod))
    refine ⟨rfl, hordered, hbanks.symm, Nat.pos_of_ne_zero fun hzero => hlength ?_⟩
    dsimp only at hzero
    rw [← hbanks, hzero, Nat.zero_mul]

theorem Fits.pageCount_eq (h : region.Fits store) :
    store.pageCount region.block = region.bankCount * region.pagesPerBank := by
  unfold Store.pageCount
  rw [h.length, Nat.mul_left_comm, Nat.mul_div_cancel_left _ (by decide)]

/-- Every bank that exists lies in the block. -/
theorem Fits.bank_le (h : region.Fits store) (hbank : bank < region.bankCount) :
    bank * region.pagesPerBank + region.pagesPerBank ≤ store.pageCount region.block := by
  rw [h.pageCount_eq, ← Nat.succ_mul]
  exact Nat.mul_le_mul_right _ hbank

theorem distance_lt {number : UInt8} (h : region.Covers number) :
    region.distance number < region.pagesPerBank := PageTable.sub_lt_rangeLength h

theorem shown_of_lt (hbank : bank < region.bankCount) (page : Page) :
    region.shown bank distance page =
      page.putView region.access (some (region.view bank distance)) := if_pos hbank

theorem shown_of_le (hbank : region.bankCount ≤ bank) (page : Page) :
    region.shown bank distance page = Page.null := if_neg (Nat.not_lt.mpr hbank)

/-- What a selection leaves in a page it leaves there again. -/
theorem shown_shown (page : Page) :
    region.shown bank distance (region.shown bank distance page) =
      region.shown bank distance page := by
  unfold shown
  split
  · cases region.access <;> rfl
  · rfl

/-- Where the access has to do with the slot, and everywhere if the bank is missing, the selection
forgets what the page was. -/
theorem slot_shown_congr {slot : Slot}
    (h : region.access.concerns slot ∨ region.bankCount ≤ bank) (page other : Page) :
    (region.shown bank distance page).slot slot = (region.shown bank distance other).slot slot := by
  rcases Nat.lt_or_ge bank region.bankCount with hbank | hbank
  · rw [shown_of_lt hbank, shown_of_lt hbank]
    have hconcerns := h.resolve_right (Nat.not_le.mpr hbank)
    revert hconcerns
    cases region.access <;> cases slot <;> simp [Access.concerns, Access.reads, Access.writes,
      Page.putView, Page.putRead, Page.putWrite, Page.slot]
  · rw [shown_of_le hbank, shown_of_le hbank]

/-- A bank that exists leaves the other slots alone. -/
theorem slot_shown_of_not_concerns {slot : Slot} (h : ¬ region.access.concerns slot)
    (hbank : bank < region.bankCount) (page : Page) :
    (region.shown bank distance page).slot slot = page.slot slot := by
  rw [shown_of_lt hbank]
  revert h
  cases region.access <;> cases slot <;> simp [Access.concerns, Access.reads, Access.writes,
    Page.putView, Page.putRead, Page.putWrite, Page.slot]

theorem page_showIn (region : BankedRegion) (table : PageTable) (bank : Nat) (number : UInt8) :
    (region.showIn table bank).page number =
      if region.Covers number then
        region.shown bank (region.distance number) (table.page number)
      else table.page number := PageTable.page_updateRange _ _ _ _ _

/-- Several selections change each page of the window on its own. -/
theorem page_showAll (region : BankedRegion) (banks : List Nat) (table : PageTable)
    (number : UInt8) : (banks.foldl region.showIn table).page number =
      if region.Covers number then
        banks.foldl (fun page bank => region.shown bank (region.distance number) page)
          (table.page number)
      else table.page number := by
  induction banks generalizing table with
  | nil => rw [List.foldl_nil, List.foldl_nil, ite_self]
  | cons bank banks ih =>
    rw [List.foldl_cons, ih, page_showIn]
    split <;> rfl

/-- In a slot that the access has nothing to do with, banks that exist leave what was there, and
one that is missing leaves the null page for good. -/
theorem slot_shownAll {slot : Slot} (h : ¬ region.access.concerns slot) (banks : List Nat)
    (page : Page) :
    (banks.foldl (fun page bank => region.shown bank distance page) page).slot slot =
      if ∀ bank ∈ banks, bank < region.bankCount then page.slot slot else Page.null.slot slot := by
  induction banks using List.reverseRecOn with
  | nil => exact (if_pos nofun).symm
  | append_singleton banks bank ih =>
    rw [List.foldl_append, List.foldl_cons, List.foldl_nil]
    simp only [List.forall_mem_append, List.forall_mem_singleton]
    rcases Nat.lt_or_ge bank region.bankCount with hbank | hbank
    · rw [slot_shown_of_not_concerns h hbank, ih]
      simp only [hbank, and_true]
    · rw [shown_of_le hbank, if_neg fun hall => Nat.not_lt.mpr hbank hall.2]

end BankedRegion

/-! ## Registers -/

namespace BankSwitch

/-- The register after a selection. -/
def turned (register : BankSwitch) (bank : Nat) : BankSwitch :=
  { register with selected := register.region.bank? bank }

/-- A selection is never refused. -/
theorem select_eq {register : BankSwitch} {store : Store} (h : register.region.Fits store)
    (table : PageTable) (bank : Nat) : register.select store table bank =
      .ok (register.turned bank, register.region.showIn table bank) := by
  have hrange : ¬ register.region.last < register.region.first := UInt8.not_lt.mpr h.ordered
  unfold select turned BankedRegion.bank? BankedRegion.showIn
  by_cases hbank : bank < register.region.bankCount
  · have hmap : register.region.map store table bank =
        .ok (table.updateRange register.region.first register.region.last
          (register.region.shown bank)) := by
      have hshown : register.region.shown bank = fun distance page => page.putView
          register.region.access (some (register.region.view bank distance)) := by
        funext distance page
        exact BankedRegion.shown_of_lt hbank page
      unfold BankedRegion.map
      rw [if_pos hbank, PageTable.mapBlock_eq, if_neg hrange, hshown]
      exact if_pos (h.bank_le hbank)
    rw [if_pos hbank, if_pos hbank, hmap]
    rfl
  · have hmap : register.region.mapNull table =
        .ok (table.updateRange register.region.first register.region.last
          (register.region.shown bank)) := by
      have hshown : register.region.shown bank = fun _ _ => Page.null := by
        funext distance page
        exact BankedRegion.shown_of_le (Nat.not_lt.mp hbank) page
      unfold BankedRegion.mapNull
      rw [PageTable.mapNull_eq, if_neg hrange, hshown]
      rfl
    rw [if_neg hbank, if_neg hbank, hmap]
    rfl

end BankSwitch

namespace Bus

variable {σ : Type} {bus : Bus σ} {id : Nat} {register : BankSwitch}

/-- The bus after a selection through a register. -/
def turned (bus : Bus σ) (id : Nat) (register : BankSwitch) (bank : Nat) : Bus σ :=
  { bus with
    switches := bus.switches.setIfInBounds id (register.turned bank)
    pages := register.region.showIn bus.pages bank }

/-- A selection turns the register, and the only event is that it has done so. -/
theorem run_select (hregister : bus.switches[id]? = some register)
    (hfits : register.region.Fits bus.store) (bank : Nat) :
    (select (σ := σ) id bank).run.run bus = ⟨(.ok (), bus.turned id register bank),
      [.bankSwitched bank register.region.first register.region.last]⟩ := by
  unfold select
  rw [run_get_bind, hregister]
  dsimp only
  rw [BankSwitch.select_eq hfits]
  rfl

/-- A write selects the bank that it names, unless that is selected already. -/
theorem run_writeSwitch (hregister : bus.switches[id]? = some register)
    (hfits : register.region.Fits bus.store) (value : UInt8) :
    (writeSwitch (σ := σ) id value).run bus =
      if register.selected = some (value &&& register.mask).toNat then ⟨((), bus), []⟩
      else ⟨((), bus.turned id register (value &&& register.mask).toNat),
        [.bankSwitched (value &&& register.mask).toNat register.region.first
          register.region.last]⟩ := by
  unfold writeSwitch
  rw [StateT.run_bind, StateT.run_get, pure_bind, hregister]
  dsimp only
  split
  · rfl
  · have hselect := run_select hregister hfits (value &&& register.mask).toNat
    rw [StateT.run_bind, Reported.bind_eq, hselect]
    rfl

end Bus

/-! ## Requests -/

/-- What a select register is asked: by a call of the host, or by a write to it. -/
inductive BankRequest where
  | select (bank : Nat)
  | write (value : UInt8)
deriving DecidableEq, Repr

/-- The bank that a request names. The mask concerns written values only. -/
def BankRequest.bank (mask : UInt8) : BankRequest → Nat
  | select bank => bank
  | write value => (value &&& mask).toNat

namespace Bus

variable {σ : Type} {bus after : Bus σ} {id : Nat} {region : BankedRegion} {mask : UInt8}

/-- What a request comes to. A write cannot fail. -/
def request (bus : Bus σ) (id : Nat) : BankRequest → Except MapError Unit × Bus σ
  | .select bank => ((select (σ := σ) id bank).run.run bus).value
  | .write value => (.ok (), ((writeSwitch (σ := σ) id value).run bus).value.2)

/-- Whatever has happened to the bus, it has left a register and the slots of its window alone.
Blocks keep their lengths in any case. -/
structure Spares (id : Nat) (region : BankedRegion) (bus after : Bus σ) : Prop where
  register : after.switches[id]? = bus.switches[id]?
  page : ∀ number, region.Covers number → after.pages.page number = bus.pages.page number
  length : after.store.length region.block = bus.store.length region.block

/-- A register has been asked for banks, in this order. Between the requests the rest of the board
has done what it likes, as long as that spares the window. -/
inductive Asked (id : Nat) (region : BankedRegion) (bus : Bus σ) :
    List BankRequest → Bus σ → Prop where
  | start : Asked id region bus [] bus
  | other {requests : List BankRequest} {before after : Bus σ} :
      Asked id region bus requests before → Spares id region before after →
      Asked id region bus requests after
  | ask {requests : List BankRequest} {before : Bus σ} (request : BankRequest) :
      Asked id region bus requests before →
      Asked id region bus (requests ++ [request]) (before.request id request).2

/-- The register and the window agree on the bank that was named last. -/
structure Reflects (id : Nat) (region : BankedRegion) (mask : UInt8) (named : Option Nat)
    (bus : Bus σ) : Prop where
  fits : region.Fits bus.store
  register : bus.switches[id]? = some { region, mask, selected := named.bind region.bank? }
  pages : ∀ bank ∈ named, ∀ number, region.Covers number →
    region.shown bank (region.distance number) (bus.pages.page number) = bus.pages.page number

namespace Reflects

variable {named : Option Nat}

theorem of_spares (h : Reflects id region mask named bus) (hspares : Spares id region bus after) :
    Reflects id region mask named after where
  fits := ⟨h.fits.ordered, hspares.length.trans h.fits.length, h.fits.bankCount_pos⟩
  register := hspares.register.trans h.register
  pages bank hbank number hcovers := by
    rw [hspares.page number hcovers]
    exact h.pages bank hbank number hcovers

/-- A selection establishes the agreement. -/
theorem turned (h : Reflects id region mask named bus) (bank : Nat) :
    Reflects id region mask (some bank)
      (bus.turned id { region, mask, selected := named.bind region.bank? } bank) where
  fits := h.fits
  register := by
    have hbound := (Array.getElem?_eq_some_iff.mp h.register).1
    unfold Bus.turned
    dsimp only
    rw [Array.getElem?_setIfInBounds_self_of_lt hbound]
    rfl
  pages bank' hbank number hcovers := by
    obtain rfl := Option.mem_some.mp hbank
    unfold Bus.turned
    dsimp only
    rw [BankedRegion.page_showIn, if_pos hcovers]
    exact BankedRegion.shown_shown _

/-- To select the bank once more that is selected already changes nothing. -/
theorem turned_eq {bank : Nat} (h : Reflects id region mask named bus)
    (hselected : named.bind region.bank? = some bank) :
    bus.turned id { region, mask, selected := named.bind region.bank? } bank = bus := by
  obtain ⟨bank, rfl, hbank⟩ := Option.bind_eq_some_iff.mp hselected
  obtain ⟨-, rfl⟩ := BankedRegion.bank?_eq_some_iff.mp hbank
  have hpages : region.showIn bus.pages bank = bus.pages := by
    refine PageTable.ext fun number => ?_
    rw [BankedRegion.page_showIn]
    split
    · exact h.pages bank rfl number ‹_›
    · rfl
  have hswitches : bus.switches.setIfInBounds id
      { region, mask, selected := region.bank? bank } = bus.switches := by
    refine Array.ext_getElem? fun other => ?_
    rw [Array.getElem?_setIfInBounds]
    split
    · rename_i hsame
      subst hsame
      rw [if_pos (Array.getElem?_eq_some_iff.mp h.register).1, h.register]
      rfl
    · rfl
  unfold Bus.turned BankSwitch.turned
  dsimp only
  rw [hpages, hswitches]

/-- No request is refused, and each does what the selection of the bank that it names does: also
the write that is skipped, because that selection would change nothing. -/
theorem request_eq (h : Reflects id region mask named bus) (request : BankRequest) :
    bus.request id request = (.ok (), bus.turned id
      { region, mask, selected := named.bind region.bank? } (request.bank mask)) := by
  cases request with
  | select bank =>
    show ((Bus.select (σ := σ) id bank).run.run bus).value = _
    rw [run_select h.register h.fits]
    rfl
  | write value =>
    show (Except.ok (), ((writeSwitch (σ := σ) id value).run bus).value.2) = _
    rw [run_writeSwitch h.register h.fits]
    split
    · exact congrArg (Prod.mk _) (h.turned_eq ‹_›).symm
    · rfl

end Reflects

theorem Asked.reflects {requests : List BankRequest} (h : Asked id region bus requests after)
    (hfits : region.Fits bus.store) (hregister : bus.switches[id]? = some { region, mask }) :
    Reflects id region mask (requests.getLast?.map (·.bank mask)) after := by
  induction h with
  | start => exact ⟨hfits, hregister, nofun⟩
  | other _ hspares ih => exact ih.of_spares hspares
  | ask request _ ih =>
    rw [ih.request_eq, List.getLast?_concat]
    exact ih.turned _

/-! ## What the window shows -/

/-- Two banks of one page. -/
def twoBanks (access : Access) : BankedRegion := ⟨⟨0⟩, 0x20, 0x20, access, 2⟩

/-- A board with these banks in its only block, and with a register for them that looks at the low
four bits of what is written. -/
def banked (access : Access) : Bus Unit where
  store := ⟨#[Array.replicate 512 0]⟩
  switches := #[{ region := twoBanks access, mask := 0x0F }]
  devices := ()

theorem create_twoBanks (access : Access) :
    BankedRegion.create (banked access).store ⟨0⟩ 0x20 0x20 access = .ok (twoBanks access) := by
  cases access <;> decide +kernel

/-- In the directions of the region's access each page of the window has the page of the bank for
its view, and no handler. -/
def ShowsBank (bus : Bus σ) (region : BankedRegion) (bank : Nat) : Prop :=
  ∀ number, region.Covers number → ∃ view,
    bus.store.page region.block (bank * region.pagesPerBank + region.distance number) = .ok view ∧
    let page := bus.pages.page number
    (region.access.reads → page.readView = some view ∧ page.readHandler = none) ∧
    (region.access.writes → page.writeView = some view ∧ page.writeHandler = none)

/-- Every address of the window reads as zero and drops writes, and nothing else comes of it. -/
def ShowsNull (devices : Devices σ) (bus : Bus σ) (region : BankedRegion) : Prop :=
  ∀ address, region.Covers (highByte address) →
    (read devices address).run.run bus = ⟨(.ok 0, bus), []⟩ ∧
    ∀ value, (write devices address value).run.run bus = ⟨(.ok (), bus), []⟩

theorem Reflects.showsBank {bank : Nat} (h : Reflects id region mask (some bank) bus)
    (hbank : bank < region.bankCount) : bus.ShowsBank region bank := by
  intro number hcovers
  have hview : bus.store.page region.block
      (bank * region.pagesPerBank + region.distance number) =
        .ok (region.view bank (region.distance number)) := by
    have hbound := h.fits.bank_le hbank
    have hdistance := BankedRegion.distance_lt hcovers
    exact if_pos (by omega)
  refine ⟨_, hview, ?_⟩
  rw [← h.pages bank rfl number hcovers, BankedRegion.shown_of_lt hbank]
  cases region.access <;> simp [Access.reads, Access.writes, Page.putView, Page.putRead,
    Page.putWrite]

theorem Reflects.showsNull {bank : Nat} (devices : Devices σ)
    (h : Reflects id region mask (some bank) bus) (hbank : region.bankCount ≤ bank) :
    bus.ShowsNull devices region := by
  intro address hcovers
  have hpage : bus.pages.page (highByte address) = Page.null := by
    rw [← h.pages bank rfl _ hcovers, BankedRegion.shown_of_le hbank]
  exact ⟨(bus.readsBy_page devices address hpage).1, fun value =>
    (bus.writesBy_page devices address value hpage).1⟩

variable {block : BlockId} {first last : UInt8} {access : Access}

/-- Whatever a register has been asked for, by calls and by writes and with anything else going on
in between that spares the window, it tells what the window shows: the bank that was named last, if
the region has it, and otherwise the null page. No selection is ever refused. A write that names
the selected bank is skipped, and the selection would have left the same bus. -/
theorem selected_matches_window {requests : List BankRequest} (devices : Devices σ)
    (hcreate : BankedRegion.create bus.store block first last access = .ok region)
    (hregister : bus.switches[id]? = some { region, mask })
    (hasked : Asked id region bus requests after) :
    (∀ bank, ((select (σ := σ) id bank).run.run after).value.1 = .ok ()) ∧
    (∀ value error,
      .bankSwitchRejected error ∉ ((writeSwitch (σ := σ) id value).run after).events) ∧
    (∀ request ∈ requests.getLast?,
      let bank := request.bank mask
      if bank < region.bankCount then
        after.switches[id]? = some { region, mask, selected := some bank } ∧
          after.ShowsBank region bank
      else
        after.switches[id]? = some { region, mask, selected := none } ∧
          after.ShowsNull devices region) ∧
    ∀ value register, after.switches[id]? = some register →
      register.selected = some (value &&& mask).toNat →
      (writeSwitch (σ := σ) id value).run after = ⟨((), after), []⟩ ∧
      ((select (σ := σ) id (value &&& mask).toNat).run.run after).value = (.ok (), after) := by
  have hreflects := hasked.reflects (BankedRegion.fits_of_create hcreate).2 hregister
  refine ⟨fun bank => ?_, fun value error => ?_, fun request hrequest => ?_,
    fun value register hregister hselected => ?_⟩
  · rw [run_select hreflects.register hreflects.fits]
  · rw [run_writeSwitch hreflects.register hreflects.fits]
    split <;> simp
  · rw [Option.mem_def.mp hrequest, Option.map_some] at hreflects
    have hselected := hreflects.register
    rw [Option.bind_some, BankedRegion.bank?] at hselected
    intro bank
    split
    · rename_i hbank
      rw [if_pos hbank] at hselected
      exact ⟨hselected, hreflects.showsBank hbank⟩
    · rename_i hbank
      rw [if_neg hbank] at hselected
      exact ⟨hselected, hreflects.showsNull devices (Nat.not_lt.mp hbank)⟩
  · obtain rfl := Option.some.inj (hreflects.register.symm.trans hregister)
    constructor
    · rw [run_writeSwitch hreflects.register hreflects.fits]
      exact if_pos hselected
    · rw [run_select hreflects.register hreflects.fits]
      exact congrArg (Prod.mk _) (hreflects.turned_eq hselected)

/-- A bank that is missing is called for, and then bank 1 is written to the register. -/
theorem written_bank_shown :
    let bus := banked .readWrite
    let after := ((bus.request 0 (.select 5)).2.request 0 (.write 0x41)).2
    after.switches[0]? = some { region := twoBanks .readWrite, mask := 0x0F, selected := some 1 } ∧
      after.ShowsBank (twoBanks .readWrite) 1 := by
  intro bus after
  have hasked : Asked 0 (twoBanks .readWrite) bus [.select 5, .write 0x41] after :=
    (Asked.start.ask (.select 5)).ask (.write 0x41)
  obtain ⟨-, -, hshown, -⟩ :=
    selected_matches_window Devices.none (create_twoBanks .readWrite) rfl hasked
  exact hshown (.write 0x41) rfl

/-! ## Selections one after the other -/

/-- The bus after several selections through one register. -/
def selectAll (bus : Bus σ) (id : Nat) (banks : List Nat) : Bus σ :=
  banks.foldl (fun bus bank => (bus.request id (.select bank)).2) bus

theorem request_select_snd {register : BankSwitch} (hregister : bus.switches[id]? = some register)
    (hfits : register.region.Fits bus.store) (bank : Nat) :
    (bus.request id (.select bank)).2 = bus.turned id register bank := by
  show ((Bus.select (σ := σ) id bank).run.run bus).value.2 = _
  rw [run_select hregister hfits]

/-- Only the pages remember more than the last selection. -/
theorem selectAll_eq {register : BankSwitch} (hregister : bus.switches[id]? = some register)
    (hfits : register.region.Fits bus.store) (before : List Nat) (bank : Nat) :
    bus.selectAll id (before ++ [bank]) = { bus with
      switches := bus.switches.setIfInBounds id (register.turned bank)
      pages := (before ++ [bank]).foldl register.region.showIn bus.pages } := by
  induction before generalizing bus register with
  | nil => exact request_select_snd hregister hfits bank
  | cons first before ih =>
    have hturned : (bus.turned id register first).switches[id]? = some (register.turned first) := by
      unfold turned
      exact Array.getElem?_setIfInBounds_self_of_lt (Array.getElem?_eq_some_iff.mp hregister).1
    unfold selectAll at ih ⊢
    rw [List.cons_append, List.foldl_cons, request_select_snd hregister hfits, ih hturned hfits]
    unfold turned
    dsimp only
    rw [Array.setIfInBounds_setIfInBounds]
    rfl

theorem page_selectAll {register : BankSwitch} (hregister : bus.switches[id]? = some register)
    (hfits : register.region.Fits bus.store) (before : List Nat) (bank : Nat) (number : UInt8) :
    let region := register.region
    (bus.selectAll id (before ++ [bank])).pages.page number =
      if region.Covers number then
        region.shown bank (region.distance number)
          (before.foldl (fun page bank => region.shown bank (region.distance number) page)
            (bus.pages.page number))
      else bus.pages.page number := by
  intro region
  rw [selectAll_eq hregister hfits, BankedRegion.page_showAll, List.foldl_append, List.foldl_cons,
    List.foldl_nil]

/-- Two buses read an address alike: the same slots of its page say what comes of a read. -/
structure ReadsAlike (devices : Devices σ) (bus other : Bus σ) (address : UInt16) : Prop where
  view : (other.pages.page (highByte address)).readView =
    (bus.pages.page (highByte address)).readView
  route : other.readRoute address = bus.readRoute address
  outcome : ∃ view handler, bus.ReadsBy devices address view handler ∧
    other.ReadsBy devices address view handler

/-- Two buses write to an address alike. -/
structure WritesAlike (devices : Devices σ) (bus other : Bus σ) (address : UInt16) : Prop where
  view : (other.pages.page (highByte address)).writeView =
    (bus.pages.page (highByte address)).writeView
  route : other.writeRoute address = bus.writeRoute address
  outcome : ∀ value, ∃ view handler, bus.WritesBy devices address value view handler ∧
    other.WritesBy devices address value view handler

/-- Accesses to a page follow from its slots. -/
theorem readsAlike_of_slots {other : Bus σ} {address : UInt16} (devices : Devices σ)
    (hview : (other.pages.page (highByte address)).readView =
      (bus.pages.page (highByte address)).readView)
    (hhandler : (other.pages.page (highByte address)).readHandler =
      (bus.pages.page (highByte address)).readHandler) : ReadsAlike devices bus other address where
  view := hview
  route := by
    unfold readRoute Page.readRoute
    rw [hview, hhandler]
  outcome := by
    have hother := other.readsBy_page devices address rfl
    rw [hview, hhandler] at hother
    exact ⟨_, _, bus.readsBy_page devices address rfl, hother⟩

theorem writesAlike_of_slots {other : Bus σ} {address : UInt16} (devices : Devices σ)
    (hview : (other.pages.page (highByte address)).writeView =
      (bus.pages.page (highByte address)).writeView)
    (hhandler : (other.pages.page (highByte address)).writeHandler =
      (bus.pages.page (highByte address)).writeHandler) :
    WritesAlike devices bus other address where
  view := hview
  route := by
    unfold writeRoute Page.writeRoute
    rw [hview, hhandler]
  outcome value := by
    have hother := other.writesBy_page devices address value rfl
    rw [hview, hhandler] at hother
    exact ⟨_, _, bus.writesBy_page devices address value rfl, hother⟩

/-- Two sequences of selections on the same bus that end with the same bank leave buses that agree
on everything but pages of the window, on what the access has to do with in those, and on all of
their slots if the last bank is missing; so accesses there come to the same. In the other slots a
bank that exists leaves what the bus had there at first, or the null page if an earlier bank was
missing. The whole buses are the same when both sequences or neither went through a missing bank. -/
theorem selections_agree (devices : Devices σ) {selected : Option Nat}
    (hcreate : BankedRegion.create bus.store block first last access = .ok region)
    (hregister : bus.switches[id]? = some { region, mask, selected })
    (before before' : List Nat) (bank : Nat) :
    let one := bus.selectAll id (before ++ [bank])
    let other := bus.selectAll id (before' ++ [bank])
    { other with pages := one.pages } = one ∧
    (∀ number slot,
      ¬ region.Covers number ∨ access.concerns slot ∨ region.bankCount ≤ bank →
      (other.pages.page number).slot slot = (one.pages.page number).slot slot) ∧
    (∀ address,
      (¬ region.Covers (highByte address) ∨ access.reads ∨ region.bankCount ≤ bank →
        ReadsAlike devices one other address) ∧
      (¬ region.Covers (highByte address) ∨ access.writes ∨ region.bankCount ≤ bank →
        WritesAlike devices one other address)) ∧
    (∀ number slot, region.Covers number → ¬ access.concerns slot → bank < region.bankCount →
      (one.pages.page number).slot slot =
        if ∀ bank ∈ before, bank < region.bankCount then (bus.pages.page number).slot slot
        else Page.null.slot slot) ∧
    (((∀ bank ∈ before, bank < region.bankCount) ↔ ∀ bank ∈ before', bank < region.bankCount) →
      other = one) := by
  intro one other
  obtain ⟨hregion, hfits⟩ := BankedRegion.fits_of_create hcreate
  have haccess : region.access = access := congrArg BankedRegion.access hregion
  have hpage := page_selectAll hregister hfits
  have hrest : { other with pages := one.pages } = one := by
    unfold one other
    rw [selectAll_eq hregister hfits, selectAll_eq hregister hfits]
  have hslot (number : UInt8) (slot : Slot)
      (h : ¬ region.Covers number ∨ access.concerns slot ∨ region.bankCount ≤ bank) :
      (other.pages.page number).slot slot = (one.pages.page number).slot slot := by
    unfold one other
    rw [hpage, hpage]
    split
    · rw [← haccess] at h
      exact BankedRegion.slot_shown_congr (h.resolve_left (not_not_intro ‹_›)) _ _
    · rfl
  have hfree (before : List Nat) (number : UInt8) (slot : Slot) (hcovers : region.Covers number)
      (hslot : ¬ access.concerns slot) (hbank : bank < region.bankCount) :
      ((bus.selectAll id (before ++ [bank])).pages.page number).slot slot =
        if ∀ bank ∈ before, bank < region.bankCount then (bus.pages.page number).slot slot
        else Page.null.slot slot := by
    rw [← haccess] at hslot
    rw [hpage, if_pos hcovers, BankedRegion.slot_shown_of_not_concerns hslot hbank,
      BankedRegion.slot_shownAll hslot]
  refine ⟨hrest, hslot, fun address => ⟨fun h => ?_, fun h => ?_⟩, hfree before, fun hmissing => ?_⟩
  · exact readsAlike_of_slots devices (hslot _ .readView h) (hslot _ .readHandler h)
  · exact writesAlike_of_slots devices (hslot _ .writeView h) (hslot _ .writeHandler h)
  · have hpages : one.pages = other.pages := by
      refine PageTable.ext fun number => Page.ext_slot fun slot => ?_
      by_cases h : ¬ region.Covers number ∨ access.concerns slot ∨ region.bankCount ≤ bank
      · exact (hslot number slot h).symm
      · obtain ⟨hcovers, hslot, hbank⟩ : region.Covers number ∧ ¬ access.concerns slot ∧
            bank < region.bankCount := by simpa using h
        exact (hfree before number slot hcovers hslot hbank).trans
          ((if_congr hmissing rfl rfl).trans (hfree before' number slot hcovers hslot hbank).symm)
    rw [← hrest, hpages]

/-- A missing bank that came before leaves no trace where reads go, in a window for reads. -/
theorem missing_bank_forgotten :
    let bus := banked .read
    ReadsAlike Devices.none (bus.selectAll 0 [0]) (bus.selectAll 0 [2, 0]) 0x2000 := by
  intro bus
  have hregister : bus.switches[0]? = some { region := twoBanks .read, mask := 0x0F } := rfl
  obtain ⟨-, -, haccesses, -⟩ :=
    selections_agree Devices.none (create_twoBanks .read) hregister [] [2] 0
  exact (haccesses 0x2000).1 (.inr (.inl rfl))

/-- A selection of bank 0 and one that comes after the missing bank 2 leave different routes in a
window that is for reads only: the null page stays where writes go. -/
theorem missing_bank_leaves_trace :
    let bus := banked .read
    let one := bus.selectAll 0 [0]
    let other := bus.selectAll 0 [2, 0]
    BankedRegion.create bus.store ⟨0⟩ 0x20 0x20 .read = .ok (twoBanks .read) ∧
    one.writeRoute 0x2000 = .unmapped ∧ other.writeRoute 0x2000 = .handler ∧
    (one.writeResult Devices.none 0x2000 1).1 = .error (.unmappedWrite 0x2000 1) ∧
    (other.writeResult Devices.none 0x2000 1).1 = .ok () := by
  intro bus one other
  have hpage (before : List Nat) : (bus.selectAll 0 (before ++ [0])).pages.page 0x20 =
      (twoBanks .read).shown 0 0
        (before.foldl (fun page bank => (twoBanks .read).shown bank 0 page) {}) :=
    (page_selectAll rfl (BankedRegion.fits_of_create (create_twoBanks .read)).2 before 0
      0x20).trans (PageTable.page_unmapped 0x20 ▸ rfl)
  have hone : one.pages.page (highByte 0x2000) = { readView := some ⟨⟨0⟩, 0⟩ } :=
    (hpage []).trans (by decide)
  have hother : other.pages.page (highByte 0x2000) =
      { readView := some ⟨⟨0⟩, 0⟩, writeHandler := some .null } := (hpage [2]).trans (by decide)
  refine ⟨create_twoBanks .read, ?_, ?_, ?_, ?_⟩
  · exact congrArg Page.writeRoute hone
  · exact congrArg Page.writeRoute hother
  · rw [writeResult_eq, hone]
  · rw [writeResult_eq, hother]

end Bus

end Mc6809
