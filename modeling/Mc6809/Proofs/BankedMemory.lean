/-
  Banked memory as separate banks.

  A window for reads and writes that only its select register maps, with a block that nothing else
  reaches, is compared with a machine that has no pages, no block and no register: `Banks` has an
  array of bytes for each bank and remembers the number that was asked for last. Both get the same
  calls and have to give the same replies (`Bus.Holds.answer` for one call, `Bus.Runs.holds` for a
  run). Between the calls the rest of the board does what it likes.

  The byte of a bank at an address of the window lies in one place of the block, its cell, and each
  byte of the block is the cell of one bank and one address (`BankedRegion.existsUnique_cell`). So
  a write to one bank is seen in no other. What a bank holds at last can be told from the calls
  alone (`Banks.bytes_after`): the value that was last written there while the bank was shown.
-/
import Mc6809.Proofs.Banking

namespace Mc6809

/-! ## Cells -/

namespace BankedRegion

/-- The addresses of the window. -/
abbrev Window (region : BankedRegion) : Type :=
  { address : UInt16 // region.Covers (highByte address) }

/-- Where the byte of a bank at an address of the window lies in the block. -/
def cell (region : BankedRegion) (bank : Nat) (address : UInt16) : Nat :=
  bank * (256 * region.pagesPerBank) + (address.toNat - 256 * region.first.toNat)

variable {region : BankedRegion} {store : Store}

/-- An address of the window, counted from its first one, and the size of a bank. -/
theorem Window.bounds (address : region.Window) :
    256 * region.first.toNat ≤ address.val.toNat ∧
      address.val.toNat - 256 * region.first.toNat < 256 * region.pagesPerBank := by
  have hfirst : region.first.toNat ≤ (highByte address.val).toNat := address.property.1
  have hlast : (highByte address.val).toNat ≤ region.last.toNat := address.property.2
  rw [toNat_highByte] at hfirst hlast
  unfold pagesPerBank PageTable.rangeLength
  omega

/-- The view of the page, with the low byte as the offset, leads to the cell. -/
theorem view_eq_cell (bank : Nat) (address : region.Window) :
    (region.view bank (region.distance (highByte address.val))).base +
      (lowByte address.val).toNat = region.cell bank address := by
  have hfirst : region.first.toNat ≤ (highByte address.val).toNat := address.property.1
  have hassoc : bank * (256 * region.pagesPerBank) = 256 * (bank * region.pagesPerBank) :=
    Nat.mul_left_comm ..
  unfold view distance cell
  rw [toNat_highByte] at hfirst ⊢
  rw [toNat_lowByte, hassoc]
  dsimp only
  omega

theorem Fits.cell_lt (h : region.Fits store) {bank : Nat} (hbank : bank < region.bankCount)
    (address : region.Window) : region.cell bank address < store.length region.block := by
  have hnext : (bank + 1) * (256 * region.pagesPerBank) ≤ store.length region.block := by
    rw [h.length]
    exact Nat.mul_le_mul_right _ hbank
  have hbounds := address.bounds
  rw [Nat.succ_mul] at hnext
  unfold cell
  omega

/-- The bank and the address can be told from the cell. -/
theorem cell_div (bank : Nat) (address : region.Window) :
    region.cell bank address / (256 * region.pagesPerBank) = bank := by
  have hbounds := address.bounds
  unfold cell
  rw [Nat.add_comm, Nat.add_mul_div_right _ _ (by omega), Nat.div_eq_of_lt hbounds.2, Nat.zero_add]

theorem cell_inj {bank other : Nat} {address address' : region.Window} :
    region.cell bank address = region.cell other address' ↔ bank = other ∧ address = address' := by
  constructor
  · intro h
    have hbank : bank = other := by
      rw [← cell_div bank address, h, cell_div]
    subst hbank
    have hbounds := address.bounds
    have hbounds' := address'.bounds
    unfold cell at h
    exact ⟨rfl, Subtype.ext (UInt16.toNat_inj.mp (by omega))⟩
  · rintro ⟨rfl, rfl⟩
    rfl

theorem exists_cell (h : region.Fits store) {offset : Nat}
    (hoffset : offset < store.length region.block) :
    ∃ bank < region.bankCount, ∃ address : region.Window, region.cell bank address = offset := by
  have hordered : region.first.toNat ≤ region.last.toNat := h.ordered
  have hlast := region.last.toNat_lt
  have hpages : region.pagesPerBank = region.last.toNat + 1 - region.first.toNat := rfl
  have hrest := Nat.mod_lt offset (show 0 < 256 * region.pagesPerBank by omega)
  obtain ⟨address, haddress⟩ : ∃ address : UInt16, address.toNat =
      256 * region.first.toNat + offset % (256 * region.pagesPerBank) :=
    ⟨.ofNat _, UInt16.toNat_ofNat_of_lt' (show _ < 65536 by omega)⟩
  have hcovers : region.Covers (highByte address) := by
    constructor <;> rw [UInt8.le_iff_toNat_le, toNat_highByte] <;> omega
  refine ⟨offset / (256 * region.pagesPerBank), ?_, ⟨address, hcovers⟩, ?_⟩
  · rw [h.length] at hoffset
    exact Nat.div_lt_of_lt_mul (Nat.mul_comm _ _ ▸ hoffset)
  · have hdiv := Nat.div_add_mod' offset (256 * region.pagesPerBank)
    unfold cell
    dsimp only
    omega

/-- The offsets of the block are the cells of the pairs of a bank and an address. -/
theorem existsUnique_cell (h : region.Fits store) (offset : Nat) :
    offset < store.length region.block ↔
      ∃! place : Fin region.bankCount × region.Window, region.cell place.1 place.2 = offset := by
  constructor
  · intro hoffset
    obtain ⟨bank, hbank, address, hcell⟩ := exists_cell h hoffset
    refine ⟨(⟨bank, hbank⟩, address), hcell, fun place hplace => ?_⟩
    obtain ⟨hsame, haddress⟩ := cell_inj.mp (hplace.trans hcell.symm)
    exact Prod.ext (Fin.ext hsame) haddress
  · rintro ⟨⟨bank, address⟩, rfl, -⟩
    exact h.cell_lt bank.isLt address

end BankedRegion

/-! ## Separate banks -/

/-- What is done at a window: a request to its register, or an access. -/
inductive WindowCall (region : BankedRegion) where
  | request (request : BankRequest)
  | read (address : region.Window)
  | write (address : region.Window) (value : UInt8)
deriving DecidableEq

/-- What comes back. -/
inductive WindowReply where
  | done
  | byte (value : UInt8)
  | fault (fault : Fault)
  | refused (error : MapError)
deriving DecidableEq

/-- An array of bytes for each bank, and the number that was asked for last, if any was. -/
structure Banks (region : BankedRegion) where
  bytes : Fin region.bankCount → region.Window → UInt8
  named : Option Nat := none

namespace Banks

variable {region : BankedRegion} (mask : UInt8)

/-- The banks that a block holds, before any is asked for. -/
def ofStore (region : BankedRegion) (store : Store) : Banks region where
  bytes bank address := (store.get? region.block (region.cell bank address)).getD 0

/-- Writes a byte into the bank that was asked for. If there is none, no byte changes. -/
def put (banks : Banks region) (address : region.Window) (value : UInt8) : Banks region :=
  { banks with bytes := fun bank place =>
      if banks.named = some bank.val ∧ address = place then value else banks.bytes bank place }

/-- What a call comes to. A missing bank reads as zero. -/
def answer (banks : Banks region) : WindowCall region → WindowReply × Banks region
  | .request request => (.done, { banks with named := some (request.bank mask) })
  | .read address =>
    (match banks.named with
      | none => .fault (.unmappedRead address)
      | some bank =>
        .byte (if h : bank < region.bankCount then banks.bytes ⟨bank, h⟩ address else 0), banks)
  | .write address value =>
    (match banks.named with
      | none => .fault (.unmappedWrite address value)
      | some _ => .done, banks.put address value)

theorem put_of_none {banks : Banks region} (h : banks.named.bind region.bank? = none)
    (address : region.Window) (value : UInt8) : banks.put address value = banks := by
  refine congrArg (Banks.mk · banks.named) (funext fun bank => funext fun place => if_neg ?_)
  rintro ⟨hnamed, -⟩
  rw [hnamed, Option.bind_some, BankedRegion.bank?, if_pos bank.isLt] at h
  cases h

/-- The banks after calls, one after the other. -/
def after (banks : Banks region) (calls : List (WindowCall region)) : Banks region :=
  calls.foldl (fun banks call => (banks.answer mask call).2) banks

/-- The calls with what comes back for each. -/
def log (banks : Banks region) : List (WindowCall region) → List (WindowCall region × WindowReply)
  | [] => []
  | call :: calls => (call, (banks.answer mask call).1) :: (banks.answer mask call).2.log calls

theorem log_concat (banks : Banks region) (calls : List (WindowCall region))
    (call : WindowCall region) : banks.log mask (calls ++ [call]) =
      banks.log mask calls ++ [(call, ((banks.after mask calls).answer mask call).1)] := by
  induction calls generalizing banks with
  | nil => rfl
  | cons first calls ih =>
    rw [List.cons_append, log, ih]
    rfl

/-- The values that calls write to an address while a bank is shown. -/
def written (bank : Nat) (address : region.Window) :
    Option Nat → List (WindowCall region) → List UInt8
  | _, [] => []
  | _, .request request :: calls => written bank address (some (request.bank mask)) calls
  | named, .read _ :: calls => written bank address named calls
  | named, .write place value :: calls =>
    if named = some bank ∧ place = address then value :: written bank address named calls
    else written bank address named calls

/-- Each byte of each bank is the value that was last written to it, by a write to its address
while its bank was shown. -/
theorem bytes_after (banks : Banks region) (calls : List (WindowCall region))
    (bank : Fin region.bankCount) (address : region.Window) :
    (banks.after mask calls).bytes bank address =
      (written mask bank address banks.named calls).getLastD (banks.bytes bank address) := by
  induction calls generalizing banks with
  | nil => rfl
  | cons call calls ih =>
    have hcons : banks.after mask (call :: calls) =
        (banks.answer mask call).2.after mask calls := rfl
    rw [hcons, ih]
    cases call with
    | request | read => rfl
    | write place value =>
      show (written mask bank address banks.named calls).getLastD
        (if banks.named = some bank.val ∧ place = address then value
          else banks.bytes bank address) = _
      rw [written]
      split
      · rw [List.getLastD_cons]
      · rfl

end Banks

/-! ## The window -/

namespace Bus

variable {σ : Type} {bus after : Bus σ} {id : Nat} {region : BankedRegion} {mask : UInt8}
  {banks : Banks region} (devices : Devices σ)

/-- What a call at the window comes to. -/
def answer (bus : Bus σ) (id : Nat) : WindowCall region → WindowReply × Bus σ
  | .request request =>
    match bus.request id request with
    | (.ok (), later) => (.done, later)
    | (.error error, later) => (.refused error, later)
  | .read address =>
    match bus.readResult devices address with
    | (.ok value, later) => (.byte value, later)
    | (.error fault, later) => (.fault fault, later)
  | .write address value =>
    match bus.writeResult devices address value with
    | (.ok (), later) => (.done, later)
    | (.error fault, later) => (.fault fault, later)

/-- Calls have been made at a window, with these replies. Between them the rest of the board has
done what it likes, as long as that spares the window and does not reach its block. -/
inductive Runs (id : Nat) (region : BankedRegion) (bus : Bus σ) :
    List (WindowCall region × WindowReply) → Bus σ → Prop where
  | start : Runs id region bus [] bus
  | other {log : List (WindowCall region × WindowReply)} {before after : Bus σ} :
      Runs id region bus log before → Spares id region before after →
      after.store.bytes region.block = before.store.bytes region.block →
      Runs id region bus log after
  | call {log : List (WindowCall region × WindowReply)} {before : Bus σ}
      (call : WindowCall region) : Runs id region bus log before →
      Runs id region bus (log ++ [(call, (before.answer devices id call).1)])
        (before.answer devices id call).2

/-- The block holds the banks, and the window shows the one that was asked for last. Before any was
asked for it maps nothing. -/
structure Holds (id : Nat) (mask : UInt8) (banks : Banks region) (bus : Bus σ) : Prop where
  access : region.access = .readWrite
  reflects : Reflects id region mask banks.named bus
  unmapped : banks.named = none → ∀ number, region.Covers number → bus.pages.page number = {}
  bytes : ∀ (bank : Fin region.bankCount) (address : region.Window),
    bus.store.get? region.block (region.cell bank address) = some (banks.bytes bank address)

namespace Holds

variable {bank : Nat} (h : Holds id mask banks bus) (address : region.Window)

include h

/-- A bank that is shown has its views in the page. -/
theorem page_of_lt (hnamed : banks.named = some bank) (hbank : bank < region.bankCount) :
    let view := region.view bank (region.distance (highByte address.val))
    bus.pages.page (highByte address.val) = { readView := some view, writeView := some view } := by
  intro view
  rw [← h.reflects.pages bank hnamed _ address.property, BankedRegion.shown_of_lt hbank, h.access]
  rfl

/-- Reads and writes of a bank that is shown go to the cell of the address. -/
theorem run_read (hnamed : banks.named = some bank) (hbank : bank < region.bankCount) :
    (read devices address).run.run bus = ⟨(.ok (banks.bytes ⟨bank, hbank⟩ address), bus), []⟩ := by
  have hread := bus.readsBy_page devices address (h.page_of_lt address hnamed hbank)
  have hbyte : bus.store.readView (region.view bank (region.distance (highByte address.val)))
      (lowByte address.val) = banks.bytes ⟨bank, hbank⟩ address := by
    unfold Store.readView
    rw [BankedRegion.view_eq_cell]
    exact congrArg (·.getD 0) (h.bytes ⟨bank, hbank⟩ address)
  rw [← hbyte]
  exact hread.1

theorem run_write (hnamed : banks.named = some bank) (hbank : bank < region.bankCount)
    (value : UInt8) : (write devices address value).run.run bus =
      ⟨(.ok (), { bus with store := bus.store.set region.block (region.cell bank address) value }),
        []⟩ := by
  rw [← BankedRegion.view_eq_cell]
  exact (bus.writesBy_page devices address value (h.page_of_lt address hnamed hbank)).1

omit h in
theorem of_spares (h : Holds id mask banks bus) (hspares : Spares id region bus after)
    (hbytes : after.store.bytes region.block = bus.store.bytes region.block) :
    Holds id mask banks after where
  access := h.access
  reflects := h.reflects.of_spares hspares
  unmapped hnamed number hcovers :=
    (hspares.page number hcovers).trans (h.unmapped hnamed number hcovers)
  bytes bank address := by
    have hbyte := h.bytes bank address
    unfold Store.get? at hbyte ⊢
    rw [hbytes]
    exact hbyte

/-- To write the cell is to write the byte of the bank, and no other. -/
theorem put (hnamed : banks.named = some bank) (hbank : bank < region.bankCount) (value : UInt8) :
    Holds id mask (banks.put address value)
      { bus with store := bus.store.set region.block (region.cell bank address) value } where
  access := h.access
  reflects := h.reflects.of_spares ⟨rfl, fun _ _ => rfl, Store.length_set _ _ _ _ _⟩
  unmapped := h.unmapped
  bytes other place := by
    have hcell := h.bytes ⟨bank, hbank⟩ address
    dsimp only [Banks.put] at hcell ⊢
    rw [Store.get?_set, h.bytes other place, hcell, hnamed]
    by_cases hplace : bank = other.val ∧ address = place
    · obtain ⟨rfl, rfl⟩ := hplace
      rw [if_pos ⟨rfl, rfl⟩, if_pos ⟨rfl, rfl⟩]
      rfl
    · have hcells : ¬ (region.block = region.block ∧
          region.cell other place = region.cell bank address) := by
        rintro ⟨-, hsame⟩
        obtain ⟨hbanks, haddresses⟩ := BankedRegion.cell_inj.mp hsame
        exact hplace ⟨hbanks.symm, haddresses.symm⟩
      rw [if_neg hcells, if_neg fun hsame => hplace ⟨Option.some.inj hsame.1, hsame.2⟩]

/-- Before a bank is asked for, the window refuses every access. -/
theorem run_read_of_none (hnamed : banks.named = none) : (read devices address).run.run bus =
    ⟨(.error (.unmappedRead address), bus), []⟩ :=
  (bus.readsBy_page devices address (h.unmapped hnamed _ address.property)).1

theorem run_write_of_none (hnamed : banks.named = none) (value : UInt8) :
    (write devices address value).run.run bus =
      ⟨(.error (.unmappedWrite address value), bus), []⟩ :=
  (bus.writesBy_page devices address value (h.unmapped hnamed _ address.property)).1

omit address in
theorem showsNull (hnamed : banks.named = some bank) (hbank : region.bankCount ≤ bank) :
    bus.ShowsNull devices region := by
  have hreflects := h.reflects
  rw [hnamed] at hreflects
  exact hreflects.showsNull devices hbank

theorem answer_read :
    bus.answer devices id (.read address) = ((banks.answer mask (.read address)).1, bus) := by
  unfold Bus.answer readResult Banks.answer
  dsimp only
  cases hnamed : banks.named with
  | none => rw [h.run_read_of_none devices address hnamed]
  | some bank =>
    rcases Nat.lt_or_ge bank region.bankCount with hbank | hbank
    · rw [h.run_read devices address hnamed hbank]
      simp only [hbank, dite_true]
    · rw [(h.showsNull devices hnamed hbank address address.property).1]
      simp only [Nat.not_lt.mpr hbank, dite_false]

theorem answer_write (value : UInt8) :
    (bus.answer devices id (.write address value)).1 =
      (banks.answer mask (.write address value)).1 ∧
    Holds id mask (banks.answer mask (.write address value)).2
      (bus.answer devices id (.write address value)).2 := by
  unfold Bus.answer writeResult Banks.answer
  dsimp only
  cases hnamed : banks.named with
  | none =>
    rw [h.run_write_of_none devices address hnamed, Banks.put_of_none (by rw [hnamed]; rfl)]
    exact ⟨rfl, h⟩
  | some bank =>
    rcases Nat.lt_or_ge bank region.bankCount with hbank | hbank
    · rw [h.run_write devices address hnamed hbank]
      exact ⟨rfl, h.put address hnamed hbank value⟩
    · have hmissing : banks.named.bind region.bank? = none := by
        rw [hnamed]
        exact if_neg (Nat.not_lt.mpr hbank)
      rw [(h.showsNull devices hnamed hbank address address.property).2 value,
        Banks.put_of_none hmissing]
      exact ⟨rfl, h⟩

/-- Every call gets the reply that the banks give, and leaves the window holding what they have
become. -/
theorem answer (call : WindowCall region) :
    (bus.answer devices id call).1 = (banks.answer mask call).1 ∧
      Holds id mask (banks.answer mask call).2 (bus.answer devices id call).2 := by
  cases call with
  | request request =>
    unfold Bus.answer
    dsimp only
    rw [h.reflects.request_eq]
    exact ⟨rfl, h.access, h.reflects.turned _, nofun, h.bytes⟩
  | read address =>
    rw [h.answer_read devices address]
    exact ⟨rfl, h⟩
  | write address value => exact h.answer_write devices address value

end Holds

/-- A run gets the replies of the banks. -/
theorem Runs.holds {log : List (WindowCall region × WindowReply)}
    (hruns : Runs devices id region bus log after) (h : Holds id mask banks bus) :
    let calls := log.map Prod.fst
    log = banks.log mask calls ∧ Holds id mask (banks.after mask calls) after := by
  induction hruns with
  | start => exact ⟨rfl, h⟩
  | other _ hspares hbytes ih => exact ⟨ih.1, ih.2.of_spares hspares hbytes⟩
  | call call _ ih =>
    obtain ⟨hlog, hholds⟩ := ih
    obtain ⟨hreply, hlater⟩ := hholds.answer devices call
    dsimp only
    rw [List.map_append, List.map_cons, List.map_nil]
    constructor
    · rw [Banks.log_concat, ← hlog, hreply]
    · unfold Banks.after at hlater ⊢
      rw [List.foldl_append]
      exact hlater

variable {block : BlockId} {first last : UInt8}

/-- What a window holds at first are the banks of its block. -/
theorem holds_ofStore
    (hcreate : BankedRegion.create bus.store block first last .readWrite = .ok region)
    (hregister : bus.switches[id]? = some { region, mask })
    (hunmapped : ∀ number, region.Covers number → bus.pages.page number = {}) :
    Holds id mask (Banks.ofStore region bus.store) bus := by
  obtain ⟨hregion, hfits⟩ := BankedRegion.fits_of_create hcreate
  refine ⟨congrArg BankedRegion.access hregion, ⟨hfits, hregister, nofun⟩, fun _ => hunmapped,
    fun bank address => ?_⟩
  have hcell : region.cell bank address < (bus.store.bytes region.block).size :=
    hfits.cell_lt bank.isLt address
  unfold Banks.ofStore Store.get?
  dsimp only
  rw [Array.getElem?_eq_getElem hcell]
  rfl

/-- Banked memory for reads and writes refines separate banks. Whatever calls are made at a window
that only its register maps, while nothing else reaches the block:

* each call gets the reply that separate arrays give, one for each bank, with the bank that was
  asked for last as the one that is shown;
* the block holds these arrays at the cells, and each of its bytes is the cell of one bank and one
  address;
* what a bank has at an address is the value that was last written there while it was shown, or the
  byte of the start;
* while a bank is selected, its address reads and writes the cell, and while none is, no write
  changes anything. -/
theorem window_refines_banks {log : List (WindowCall region × WindowReply)}
    (hcreate : BankedRegion.create bus.store block first last .readWrite = .ok region)
    (hregister : bus.switches[id]? = some { region, mask })
    (hunmapped : ∀ number, region.Covers number → bus.pages.page number = {})
    (hruns : Runs devices id region bus log after) :
    let calls := log.map Prod.fst
    let banks := Banks.ofStore region bus.store
    log = banks.log mask calls ∧
    after.switches[id]? = some
      { region, mask, selected := (banks.after mask calls).named.bind region.bank? } ∧
    (∀ (bank : Fin region.bankCount) (address : region.Window),
      after.store.get? region.block (region.cell bank address) =
        some ((banks.after mask calls).bytes bank address) ∧
      (banks.after mask calls).bytes bank address =
        (Banks.written mask bank address none calls).getLastD (banks.bytes bank address)) ∧
    (∀ offset, offset < after.store.length region.block ↔
      ∃! place : Fin region.bankCount × region.Window,
        region.cell place.1 place.2 = offset) ∧
    ∀ register, after.switches[id]? = some register → ∀ address : region.Window,
      match register.selected with
      | some bank =>
        (∃ byte, after.store.get? region.block (region.cell bank address) = some byte ∧
          (read devices address).run.run after = ⟨(.ok byte, after), []⟩) ∧
        ∀ value, (write devices address value).run.run after = ⟨(.ok (), { after with
          store := after.store.set region.block (region.cell bank address) value }), []⟩
      | none => ∀ value, (after.writeResult devices address value).2 = after := by
  intro calls banks
  obtain ⟨hlog, h⟩ := hruns.holds devices (holds_ofStore hcreate hregister hunmapped)
  refine ⟨hlog, h.reflects.register, fun bank address => ⟨h.bytes bank address,
    Banks.bytes_after mask banks calls bank address⟩,
    BankedRegion.existsUnique_cell h.reflects.fits, fun register hregister address => ?_⟩
  obtain rfl := Option.some.inj (h.reflects.register.symm.trans hregister)
  dsimp only
  cases hnamed : (banks.after mask calls).named with
  | none =>
    intro value
    unfold writeResult
    rw [h.run_write_of_none devices address hnamed]
  | some bank =>
    rw [Option.bind_some, BankedRegion.bank?]
    rcases Nat.lt_or_ge bank region.bankCount with hbank | hbank
    · rw [if_pos hbank]
      exact ⟨⟨_, h.bytes ⟨bank, hbank⟩ address, h.run_read devices address hnamed hbank⟩,
        h.run_write devices address hnamed hbank⟩
    · rw [if_neg (Nat.not_lt.mpr hbank)]
      intro value
      unfold writeResult
      rw [(h.showsNull devices hnamed hbank address address.property).2 value]

/-- A byte is written to bank 1, bank 0 does not have it, and it is there when bank 1 comes back. -/
theorem banked_byte_comes_back :
    let bus := banked .readWrite
    let place : (twoBanks .readWrite).Window := ⟨0x2000, by decide⟩
    ∃ log after, Runs Devices.none 0 (twoBanks .readWrite) bus log after ∧
      log = [(.request (.select 1), .done), (.write place 7, .done),
        (.request (.write 0x50), .done), (.read place, .byte 0),
        (.request (.select 1), .done), (.read place, .byte 7)] ∧
      after.store.get? ⟨0⟩ 256 = some 7 := by
  intro bus place
  have hstart : Runs Devices.none 0 (twoBanks .readWrite) bus [] bus := .start
  have hruns := (((((hstart.call (.request (.select 1))).call (.write place 7)).call
    (.request (.write 0x50))).call (.read place)).call (.request (.select 1))).call (.read place)
  obtain ⟨hlog, -, hbytes, -⟩ :=
    window_refines_banks Devices.none (create_twoBanks .readWrite) rfl
      (fun _ _ => PageTable.page_unmapped _) hruns
  have hreplies : (Banks.ofStore (twoBanks .readWrite) bus.store).log 0x0F
      [.request (.select 1), .write place 7, .request (.write 0x50), .read place,
        .request (.select 1), .read place] =
      [(.request (.select 1), .done), (.write place 7, .done),
        (.request (.write 0x50), .done), (.read place, .byte 0),
        (.request (.select 1), .done), (.read place, .byte 7)] := by
    decide +kernel
  have hcell : (twoBanks .readWrite).cell 1 place = 256 := by decide
  obtain ⟨hbyte, hlast⟩ := hbytes ⟨1, by decide⟩ place
  rw [hlast, hcell] at hbyte
  exact ⟨_, _, hruns, hlog.trans hreplies, hbyte⟩

end Bus

end Mc6809
