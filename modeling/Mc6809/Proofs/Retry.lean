/-
  Retries. A step that ends in a bus fault leaves the processor as it was, but the writes that it
  has completed stay in memory. The host may then map memory where the access was refused and
  try again. The new attempt comes to the same as one on a machine that has had this memory from
  the start, provided it does not read what the first attempt has written.

  The argument is about traffic. On a bus without handlers the exchanges of a course say what
  becomes of the bus (`Traffic.course_of_plain`). With more memory a course begins with the
  exchanges that it has without (`Traffic.course_extend`), so the retry starts on the bus that the
  first of its own exchanges leave behind. It makes the same exchanges there
  (`Traffic.course_congr`), and to make some of them twice makes no difference
  (`Bus.replay_replay`).
-/
import Mc6809.Proofs.Storage
import Mc6809.Proofs.Transaction

namespace Mc6809

/-! ## More memory -/

namespace Store

/-- The store with further blocks. -/
def append (store : Store) (blocks : Array (Array UInt8)) : Store := ⟨store.blocks ++ blocks⟩

theorem get?_append {store : Store} {block : BlockId} (h : block.index < store.blocks.size)
    (blocks : Array (Array UInt8)) (offset : Nat) :
    (store.append blocks).get? block offset = store.get? block offset := by
  unfold get? bytes append
  simp [Array.getElem?_append_left h]

/-- Further blocks do not tell apart stores of one size. -/
theorem get?_append_congr {store other : Store} (hsize : other.blocks.size = store.blocks.size)
    {block : BlockId} {offset : Nat} (h : other.get? block offset = store.get? block offset)
    (blocks : Array (Array UInt8)) :
    (other.append blocks).get? block offset = (store.append blocks).get? block offset := by
  by_cases hblock : block.index < store.blocks.size
  · rw [get?_append hblock, get?_append (hsize ▸ hblock), h]
  · unfold get? bytes append
    simp [Array.getElem?_append_right (Nat.le_of_not_lt hblock),
      Array.getElem?_append_right (hsize ▸ Nat.le_of_not_lt hblock), hsize]

theorem set_append {store : Store} {block : BlockId} (h : block.index < store.blocks.size)
    (blocks : Array (Array UInt8)) (offset : Nat) (value : UInt8) :
    (store.append blocks).set block offset value =
      (store.set block offset value).append blocks := by
  refine congrArg Store.mk ?_
  show (store.blocks ++ blocks).modify block.index (·.setIfInBounds offset value) =
    store.blocks.modify block.index (·.setIfInBounds offset value) ++ blocks
  refine Array.ext_getElem? fun i => ?_
  simp only [Array.getElem?_modify, Array.getElem?_append, Array.size_modify]
  by_cases hi : i < store.blocks.size
  · simp only [if_pos hi]
  · have hne : block.index ≠ i := by omega
    simp only [if_neg hi, if_neg hne]

end Store

namespace Bus

variable {σ : Type} {bus : Bus σ} {pages : PageTable} {blocks : Array (Array UInt8)}

/-- The bus with other pages and with further blocks. -/
def extend (bus : Bus σ) (pages : PageTable) (blocks : Array (Array UInt8)) : Bus σ :=
  { bus with pages, store := bus.store.append blocks }

theorem source?_extend (hextends : pages.Extends bus.pages) {address : UInt16}
    {cell : BlockId × Nat} (h : bus.source? address = some cell) :
    (bus.extend pages blocks).source? address = some cell := by
  obtain ⟨view, hview, rfl⟩ := Option.map_eq_some_iff.mp h
  exact Option.map_eq_some_iff.mpr ⟨view, hextends.readView _ view hview, rfl⟩

theorem cell?_extend (hextends : pages.Extends bus.pages) {address : UInt16}
    {cell : BlockId × Nat} (h : bus.cell? address = some cell) :
    (bus.extend pages blocks).cell? address = some cell := by
  obtain ⟨view, hview, rfl⟩ := Option.map_eq_some_iff.mp h
  exact Option.map_eq_some_iff.mpr ⟨view, hextends.writeView _ view hview, rfl⟩

theorem cellByte_extend {cell : BlockId × Nat} (h : cell.1.index < bus.store.blocks.size) :
    (bus.extend pages blocks).cellByte cell = bus.cellByte cell := by
  unfold cellByte extend
  rw [Store.get?_append h]

theorem putByte_extend (hbacked : bus.Backed) (hextends : pages.Extends bus.pages)
    {address : UInt16} {cell : BlockId × Nat} (h : bus.cell? address = some cell) (value : UInt8) :
    (bus.extend pages blocks).putByte address value =
      (bus.putByte address value).extend pages blocks := by
  have hlater : (bus.extend pages blocks).cell? address = some cell := cell?_extend hextends h
  unfold putByte
  rw [h, hlater]
  unfold extend
  dsimp only
  rw [Store.set_append (hbacked.target h)]

end Bus

namespace Traffic

variable {σ α : Type} {devices : Devices σ} {bus : Bus σ}

/-- With more memory, traffic begins as it goes without, and the storage that there has been sees
the same writes up to there. -/
theorem course_extend {pages : PageTable} (hplain : bus.pages.Plain) (hbacked : bus.Backed)
    (hmapped : pages.Plain) (hextends : pages.Extends bus.pages)
    (blocks : Array (Array UInt8)) (t : Traffic α) :
    (∃ rest, (t.course devices (bus.extend pages blocks)).exchanges =
      (t.course devices bus).exchanges ++ rest) ∧
    (t.course devices bus).bus.extend pages blocks =
      (bus.extend pages blocks).replay (t.course devices bus).exchanges := by
  induction t generalizing bus with
  | done result => exact ⟨⟨[], rfl⟩, rfl⟩
  | read address next ih =>
    rw [course_read_of_plain hplain]
    cases hsource : bus.source? address with
    | none => exact ⟨⟨_, rfl⟩, rfl⟩
    | some cell =>
      obtain ⟨⟨rest, hrest⟩, hbus⟩ := ih (bus.cellByte cell) hplain hbacked hextends
      refine ⟨⟨rest, ?_⟩, hbus⟩
      rw [course_read_of_plain hmapped, Bus.source?_extend hextends hsource]
      dsimp only
      rw [Bus.cellByte_extend (hbacked.source hsource)]
      exact congrArg (_ :: ·) hrest
  | write address value next ih =>
    rw [course_write_of_plain hplain]
    cases hcell : bus.cell? address with
    | none => exact ⟨⟨_, rfl⟩, rfl⟩
    | some cell =>
      have hpages := Bus.putByte_pages bus address value
      obtain ⟨⟨rest, hrest⟩, hbus⟩ := ih (hpages ▸ hplain) (hbacked.putByte address value)
        (hpages ▸ hextends)
      rw [← Bus.putByte_extend hbacked hextends hcell] at hrest hbus
      refine ⟨⟨rest, ?_⟩, hbus⟩
      rw [course_write_of_plain hmapped, Bus.cell?_extend hextends hcell]
      exact congrArg (_ :: ·) hrest
  | releaseNmi next ih =>
    have hplain' : (bus.setLine .nmi false).pages.Plain := hplain
    have hbacked' : (bus.setLine .nmi false).Backed := ⟨hbacked.readView, hbacked.writeView⟩
    obtain ⟨⟨rest, hrest⟩, hbus⟩ := ih hplain' hbacked' hextends
    exact ⟨⟨rest, congrArg (_ :: ·) hrest⟩, hbus⟩
  | report event next ih =>
    obtain ⟨⟨rest, hrest⟩, hbus⟩ := ih hplain hbacked hextends
    exact ⟨⟨rest, congrArg (_ :: ·) hrest⟩, hbus⟩

end Traffic

/-! ## Cells apart -/

namespace Bus

variable {σ : Type}

/-- The cells of storage from which exchanges read. -/
def readCells (bus : Bus σ) (w : List Exchange) : List (BlockId × Nat) :=
  w.filterMap fun
    | .read address _ => bus.source? address
    | _ => none

/-- The cells of storage to which exchanges write. -/
def writtenCells (bus : Bus σ) (w : List Exchange) : List (BlockId × Nat) :=
  w.filterMap fun
    | .write address _ => bus.cell? address
    | _ => none

theorem source?_congr {bus other : Bus σ} (h : other.pages = bus.pages) (address : UInt16) :
    other.source? address = bus.source? address := by
  unfold source?
  rw [h]

/-- The cells read by later exchanges are among the cells read by all of them. -/
theorem mem_readCells_cons {bus other : Bus σ} {w : List Exchange} {cell : BlockId × Nat}
    (h : cell ∈ other.readCells w) (hpages : other.pages = bus.pages) (exchange : Exchange) :
    cell ∈ bus.readCells (exchange :: w) := by
  obtain ⟨read, hmem, hcell⟩ := List.mem_filterMap.mp h
  refine List.mem_filterMap.mpr ⟨read, List.mem_cons_of_mem _ hmem, ?_⟩
  cases read with
  | read address value => exact (source?_congr hpages address).symm.trans hcell
  | write | releaseNmi | report => cases hcell

/-- Two buses have the same pages, and the same bytes except perhaps in some cells. -/
structure AgreeOff (cells : BlockId × Nat → Prop) (bus other : Bus σ) : Prop where
  pages : other.pages = bus.pages
  get? : ∀ block offset, ¬ cells (block, offset) →
    other.store.get? block offset = bus.store.get? block offset

variable {cells : BlockId × Nat → Prop} {bus other : Bus σ}

theorem AgreeOff.symm (h : AgreeOff cells bus other) : AgreeOff cells other bus where
  pages := h.pages.symm
  get? block offset hcell := (h.get? block offset hcell).symm

theorem AgreeOff.putByte (h : AgreeOff cells bus other) (address : UInt16) (value : UInt8) :
    AgreeOff cells (bus.putByte address value) (other.putByte address value) where
  pages := by
    rw [putByte_pages, putByte_pages, h.pages]
  get? := by
    intro block offset hcell
    have hsame := cell?_congr h.pages address
    by_cases htarget : bus.cell? address = some (block, offset)
    · rw [get?_putByte_self htarget, get?_putByte_self (hsame.trans htarget), h.get? _ _ hcell]
    · rw [get?_putByte value htarget, get?_putByte value (hsame ▸ htarget), h.get? _ _ hcell]

/-- Exchanges make a difference only to the cells to which they write. -/
theorem agreeOff_replay (bus : Bus σ) (w : List Exchange) :
    AgreeOff (· ∈ bus.writtenCells w) bus (bus.replay w) where
  pages := replay_pages bus w
  get? := by
    intro block offset hcell
    refine Decidable.byContradiction fun hne => ?_
    obtain ⟨address, value, hwrite, htarget⟩ := exists_write_of_replay_ne hne
    exact hcell (List.mem_filterMap.mpr ⟨_, hwrite, htarget⟩)

theorem AgreeOff.extend (h : AgreeOff cells bus other)
    (hsize : other.store.blocks.size = bus.store.blocks.size) (pages : PageTable)
    (blocks : Array (Array UInt8)) :
    AgreeOff cells (bus.extend pages blocks) (other.extend pages blocks) where
  pages := rfl
  get? block offset hcell := Store.get?_append_congr hsize (h.get? block offset hcell) blocks

end Bus

namespace Traffic

variable {σ α : Type} {devices : Devices σ} {bus other : Bus σ} {cells : BlockId × Nat → Prop}

/-- Traffic that does not read the cells in which two buses differ goes the same way on both. -/
theorem course_congr (hplain : bus.pages.Plain) (hagree : Bus.AgreeOff cells bus other)
    (t : Traffic α)
    (hapart : ∀ cell, cells cell → cell ∉ bus.readCells (t.course devices bus).exchanges) :
    (t.course devices other).exchanges = (t.course devices bus).exchanges ∧
      (t.course devices other).outcome = (t.course devices bus).outcome := by
  induction t generalizing bus other with
  | done result => exact ⟨rfl, rfl⟩
  | read address next ih =>
    have hplain' : other.pages.Plain := hagree.pages ▸ hplain
    rw [course_read_of_plain hplain', Bus.source?_congr hagree.pages]
    rw [course_read_of_plain hplain] at hapart ⊢
    cases hsource : bus.source? address with
    | none => exact ⟨rfl, rfl⟩
    | some cell =>
      rw [hsource] at hapart
      have hcell : ¬ cells cell := fun hmem =>
        hapart cell hmem (List.mem_filterMap.mpr ⟨_, List.mem_cons_self, hsource⟩)
      have hbyte : other.cellByte cell = bus.cellByte cell :=
        congrArg (Option.getD · 0) (hagree.get? _ _ hcell)
      obtain ⟨hexchanges, houtcome⟩ := ih (bus.cellByte cell) hplain hagree
        fun cell hmem hreads => hapart cell hmem (Bus.mem_readCells_cons hreads rfl _)
      dsimp only
      rw [hbyte]
      exact ⟨congrArg (_ :: ·) hexchanges, houtcome⟩
  | write address value next ih =>
    have hplain' : other.pages.Plain := hagree.pages ▸ hplain
    have hpages := Bus.putByte_pages bus address value
    rw [course_write_of_plain hplain', Bus.cell?_congr hagree.pages]
    rw [course_write_of_plain hplain] at hapart ⊢
    cases hcell : bus.cell? address with
    | none => exact ⟨rfl, rfl⟩
    | some cell =>
      rw [hcell] at hapart
      obtain ⟨hexchanges, houtcome⟩ := ih (hpages ▸ hplain) (hagree.putByte address value)
        fun cell hmem hreads => hapart cell hmem (Bus.mem_readCells_cons hreads hpages _)
      exact ⟨congrArg (_ :: ·) hexchanges, houtcome⟩
  | releaseNmi next ih =>
    have hset : Bus.AgreeOff cells (bus.setLine .nmi false) (other.setLine .nmi false) :=
      ⟨hagree.pages, hagree.get?⟩
    have hpages : (bus.setLine .nmi false).pages = bus.pages := rfl
    obtain ⟨hexchanges, houtcome⟩ := ih (hpages ▸ hplain) hset
      fun cell hmem hreads => hapart cell hmem (Bus.mem_readCells_cons hreads hpages _)
    exact ⟨congrArg (_ :: ·) hexchanges, houtcome⟩
  | report event next ih =>
    obtain ⟨hexchanges, houtcome⟩ := ih hplain hagree
      fun cell hmem hreads => hapart cell hmem (Bus.mem_readCells_cons hreads rfl _)
    exact ⟨congrArg (_ :: ·) hexchanges, houtcome⟩

/-- Traffic is not changed by the first of its exchanges having been made before, if it reads none
of the cells that they write. -/
theorem course_replay {w rest : List Exchange} (hplain : bus.pages.Plain) (t : Traffic α)
    (hfirst : (t.course devices bus).exchanges = w ++ rest) (hquiet : .releaseNmi ∉ w)
    (hagree : Bus.AgreeOff cells bus (bus.replay w))
    (hapart : (∀ cell, cells cell → cell ∉ bus.readCells (t.course devices bus).exchanges) ∨
      ∀ cell, cells cell →
        cell ∉ (bus.replay w).readCells (t.course devices (bus.replay w)).exchanges) :
    (t.course devices (bus.replay w)).outcome = (t.course devices bus).outcome ∧
      (t.course devices (bus.replay w)).bus = (t.course devices bus).bus := by
  have hplain' : (bus.replay w).pages.Plain := hagree.pages ▸ hplain
  obtain ⟨hexchanges, houtcome⟩ :
      (t.course devices (bus.replay w)).exchanges = (t.course devices bus).exchanges ∧
        (t.course devices (bus.replay w)).outcome = (t.course devices bus).outcome := by
    obtain hapart | hapart := hapart
    · exact course_congr hplain hagree t hapart
    · obtain ⟨hexchanges, houtcome⟩ := course_congr hplain' hagree.symm t hapart
      exact ⟨hexchanges.symm, houtcome.symm⟩
  refine ⟨houtcome, ?_⟩
  rw [course_of_plain hplain', course_of_plain hplain, hexchanges, hfirst, Bus.replay_append,
    Bus.replay_append, Bus.replay_replay hquiet]

end Traffic

/-! ## Retries -/

namespace Machine

variable {σ : Type} (devices : Devices σ) (m : Machine σ)

/-- The machine with more memory. -/
def extend (pages : PageTable) (blocks : Array (Array UInt8)) : Machine σ :=
  { m with bus := m.bus.extend pages blocks }

/-- The step of the later machine reads no byte of storage that the step of the first has
written. -/
def Apart (later : Machine σ) : Prop :=
  ∀ cell ∈ m.bus.writtenCells (m.course devices).exchanges,
    cell ∉ later.bus.readCells (later.course devices).exchanges

instance (later : Machine σ) : Decidable (m.Apart devices later) :=
  inferInstanceAs (Decidable (∀ cell ∈ m.bus.writtenCells (m.course devices).exchanges,
    cell ∉ later.bus.readCells (later.course devices).exchanges))

variable {m}

/-- A retry is transparent. Let a step end in a bus fault on a machine whose pages show memory or
nothing, and let the host map more memory and try again. Then the step comes to the same, on the
processor and in memory, as it does where that memory has been mapped from the start, if it reads
no byte that the first attempt has written. -/
theorem step_retry {fault : Fault} {pages : PageTable} {blocks : Array (Array UInt8)}
    (hplain : m.bus.pages.Plain) (hbacked : m.bus.Backed)
    (hstep : (m.step devices).1 = .error fault) (hfault : fault.isBusFault)
    (hmapped : pages.Plain) (hextends : pages.Extends m.bus.pages)
    (hapart : m.Apart devices (m.extend pages blocks) ∨
      m.Apart devices ((m.step devices).2.extend pages blocks)) :
    let fresh := (m.extend pages blocks).step devices
    let retry := ((m.step devices).2.extend pages blocks).step devices
    retry.1 = fresh.1 ∧ retry.2.cpu = fresh.2.cpu ∧ retry.2.fault = fresh.2.fault ∧
      retry.2.bus = fresh.2.bus := by
  obtain ⟨houtcome, log, hafter⟩ := m.step_of_busFault devices hstep hfault
  have hquiet := Action.not_mem_of_step_refused (m.course_ends devices houtcome)
  obtain ⟨⟨rest, hfirst⟩, hreplay⟩ : (∃ rest, ((m.extend pages blocks).course devices).exchanges =
      (m.course devices).exchanges ++ rest) ∧ (m.course devices).bus.extend pages blocks =
        (m.bus.extend pages blocks).replay (m.course devices).exchanges :=
    Traffic.course_extend hplain hbacked hmapped hextends blocks _
  have hagree : Bus.AgreeOff (· ∈ m.bus.writtenCells (m.course devices).exchanges)
      (m.bus.extend pages blocks)
      ((m.bus.extend pages blocks).replay (m.course devices).exchanges) := by
    rw [← hreplay, course, Traffic.course_of_plain hplain]
    exact (Bus.agreeOff_replay _ _).extend (Bus.size_replay _ _) pages blocks
  have hretry : (m.step devices).2.extend pages blocks = { m with
      fault := some fault
      bus := (m.bus.extend pages blocks).replay (m.course devices).exchanges
      log } := by
    rw [hafter, ← hreplay]
    rfl
  have hcourse : ((m.step devices).2.extend pages blocks).course devices =
      ((Action.step m.bus.lines).start m.cpu).course devices
        ((m.bus.extend pages blocks).replay (m.course devices).exchanges) := by
    rw [hretry, course]
    dsimp only
    rw [Bus.replay_lines _ _ hquiet]
    rfl
  have hbus : ((m.step devices).2.extend pages blocks).bus =
      (m.bus.extend pages blocks).replay (m.course devices).exchanges := by
    rw [hretry]
  unfold Apart at hapart
  rw [hcourse, hbus] at hapart
  obtain ⟨hsame, hleft⟩ : (((m.step devices).2.extend pages blocks).course devices).outcome =
      ((m.extend pages blocks).course devices).outcome ∧
        (((m.step devices).2.extend pages blocks).course devices).bus =
          ((m.extend pages blocks).course devices).bus := by
    rw [hcourse]
    exact Traffic.course_replay hmapped _ hfirst hquiet hagree hapart
  have hcpu : ((m.step devices).2.extend pages blocks).cpu = (m.extend pages blocks).cpu := by
    rw [hretry]
    rfl
  obtain ⟨hresult, hcpu', hfault'⟩ := (m.extend pages blocks).step_congr devices hcpu hsame
  refine ⟨hresult, hcpu', hfault', ?_⟩
  rw [step_bus, step_bus]
  exact hleft

/-- A page of memory for the end of the address space of `edge`. -/
def edgePages : PageTable := edge.bus.pages.update 0xFF (·.putView .readWrite (some ⟨⟨1⟩, 0⟩))

theorem step_retry_edge :
    let blocks := #[Array.replicate 256 0]
    let retry := ((edge.step Devices.none).2.extend edgePages blocks).step Devices.none
    retry.1 = .ok () ∧
      retry.2.bus = ((edge.extend edgePages blocks).step Devices.none).2.bus := by
  have hstep : (edge.step Devices.none).1 = .error (.unmappedWrite 0xFFFF 0x78) := by
    decide +kernel
  have hpage (number) : edge.bus.pages.page number =
      if number = 0 then ({} : Page).putView .readWrite (some ⟨⟨0⟩, 0⟩) else {} := by
    refine (PageTable.page_update _ _ _ _).trans ?_
    rw [PageTable.page_unmapped, PageTable.page_unmapped]
    simp only [eq_comm]
  have hplain : edge.bus.pages.Plain := by
    intro number
    rw [hpage]
    split <;> decide
  have hbacked : edge.bus.Backed := by
    refine ⟨fun number view hview => ?_, fun number view hview => ?_⟩ <;>
      rw [hpage] at hview <;>
      split at hview <;>
      cases hview <;>
      exact Nat.one_pos
  have hmap : edge.bus.pages.mapBlock ⟨#[Array.replicate 256 0x34, Array.replicate 256 0]⟩
      0xFF 0xFF ⟨1⟩ 0 .readWrite = .ok edgePages := by
    have hview : Store.page ⟨#[Array.replicate 256 0x34, Array.replicate 256 0]⟩ ⟨1⟩ 0 =
        .ok ⟨⟨1⟩, 0⟩ := by
      decide +kernel
    rw [PageTable.mapBlock_one, hview]
    rfl
  have hfree : ∀ number, (0xFF : UInt8) ≤ number → number ≤ 0xFF →
      (Access.readWrite.reads → (edge.bus.pages.page number).readRoute = .unmapped) ∧
      (Access.readWrite.writes → (edge.bus.pages.page number).writeRoute = .unmapped) := by
    intro number hfirst hlast
    obtain rfl : number = 0xFF := UInt8.le_antisymm hlast hfirst
    decide +kernel
  have hapart : edge.Apart Devices.none (edge.extend edgePages #[Array.replicate 256 0]) := by
    decide +kernel
  have hdone : ((edge.extend edgePages #[Array.replicate 256 0]).step Devices.none).1 = .ok () := by
    decide +kernel
  obtain ⟨hresult, -, -, hbus⟩ := step_retry Devices.none hplain hbacked hstep rfl
    (hplain.mapBlock hmap) (PageTable.extends_of_mapBlock hmap hfree) (.inl hapart)
  exact ⟨hresult.trans hdone, hbus⟩

end Machine

end Mc6809
