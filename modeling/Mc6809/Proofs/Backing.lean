/-
  Memory behind views and memory behind handlers. The same bytes can be put before the processor as
  views of a block, page `i` showing page `i`, or by handlers that read and write the block at the
  address that they are given. A program cannot tell the one from the other
  (`Machine.backing_invisible`): page and offset of a view make up the address that a handler sees
  (`readResult_viewed`), and the rest is lockstep. Slots that answer nothing refuse both ways alike.
-/
import Mc6809.Proofs.Flat
import Mc6809.Proofs.Lockstep

namespace Mc6809

/-- Which pages answer reads, and which take writes. -/
structure Slots where
  reads : UInt8 → Bool
  writes : UInt8 → Bool

namespace PageTable

variable (slots : Slots) (block : BlockId) (number : UInt8)

/-- The pages that answer show their own pages of a block. -/
def viewed : PageTable := Vector.ofFn fun i =>
  { readView := if slots.reads (.ofFin i) then some ⟨block, 256 * i.val⟩ else none
    writeView := if slots.writes (.ofFin i) then some ⟨block, 256 * i.val⟩ else none }

/-- The pages that answer have a device and no view. -/
def handled : PageTable := Vector.ofFn fun i =>
  { readHandler := if slots.reads (.ofFin i) then some (.device 0) else none
    writeHandler := if slots.writes (.ofFin i) then some (.device 0) else none }

theorem page_viewed : (viewed slots block).page number =
    { readView := if slots.reads number then some ⟨block, 256 * number.toNat⟩ else none
      writeView := if slots.writes number then some ⟨block, 256 * number.toNat⟩ else none } :=
  Vector.getElem_ofFn number.toNat_lt

theorem page_handled : (handled slots).page number =
    { readHandler := if slots.reads number then some (.device 0) else none
      writeHandler := if slots.writes number then some (.device 0) else none } :=
  Vector.getElem_ofFn number.toNat_lt

end PageTable

/-- The handlers of a block: a read returns the byte at its address, and a write stores it there. -/
def Devices.ofBlock {σ : Type} (block : BlockId) : Devices σ where
  read _ address := return ((← get).store.get? block address.toNat).getD 0
  write _ address value :=
    modify fun bus => { bus with store := bus.store.set block address.toNat value }
  tick _ := return ()

namespace Bus

variable {σ : Type} {slots : Slots} {block : BlockId} {bus : Bus σ} {address : UInt16}
  {value : UInt8}

/-! ## Accesses -/

/-- The offset in the page that an address names makes up the address again. -/
theorem readResult_viewed {devices : Devices σ} (h : bus.pages = .viewed slots block) :
    bus.readResult devices address =
      (if slots.reads (highByte address) then .ok ((bus.store.get? block address.toNat).getD 0)
        else .error (.unmappedRead address), bus) := by
  rw [readResult_eq, h, PageTable.page_viewed, ← toNat_page_offset address]
  cases slots.reads (highByte address) <;> rfl

theorem readResult_handled (h : bus.pages = .handled slots) :
    bus.readResult (.ofBlock block) address =
      (if slots.reads (highByte address) then .ok ((bus.store.get? block address.toNat).getD 0)
        else .error (.unmappedRead address), bus) := by
  rw [readResult_eq, h, PageTable.page_handled]
  cases slots.reads (highByte address) <;> rfl

theorem writeResult_viewed {devices : Devices σ} (h : bus.pages = .viewed slots block) :
    bus.writeResult devices address value =
      if slots.writes (highByte address) then
        (.ok (), { bus with store := bus.store.set block address.toNat value })
      else (.error (.unmappedWrite address value), bus) := by
  rw [writeResult_eq, congrArg (·.page (highByte address)) h, PageTable.page_viewed,
    ← toNat_page_offset address]
  cases slots.writes (highByte address) <;> rfl

theorem writeResult_handled (h : bus.pages = .handled slots) :
    bus.writeResult (.ofBlock block) address value =
      if slots.writes (highByte address) then
        (.ok (), { bus with store := bus.store.set block address.toNat value })
      else (.error (.unmappedWrite address value), bus) := by
  rw [writeResult_eq, congrArg (·.page (highByte address)) h, PageTable.page_handled]
  cases slots.writes (highByte address) <;> rfl

/-- The first bus shows the block by views and the second by handlers, and there is no other
difference that an access could meet. -/
structure Backs (slots : Slots) (block : BlockId) (bus other : Bus σ) : Prop where
  viewed : bus.pages = .viewed slots block
  handled : other.pages = .handled slots
  lines : other.lines = bus.lines
  store : other.store = bus.store

theorem Backs.bisimulation (devices : Devices σ) :
    Bisimulation devices (.ofBlock block) (Backs slots block) where
  lines h := h.lines
  store h := h.store
  read h address := by
    rw [readResult_viewed h.viewed, readResult_handled h.handled, h.store]
    exact ⟨rfl, h⟩
  write h address value := by
    rw [writeResult_viewed h.viewed, writeResult_handled h.handled, h.store]
    split
    · exact ⟨rfl, h.viewed, h.handled, h.lines, rfl⟩
    · exact ⟨rfl, h⟩
  setLine h interrupt asserted :=
    ⟨h.viewed, h.handled, congrArg (·.set interrupt asserted) h.lines, h.store⟩

end Bus

namespace Machine

variable {σ : Type}

/-- The same machine with other pages. -/
def withPages (m : Machine σ) (pages : PageTable) : Machine σ :=
  { m with bus := { m.bus with pages } }

/-- Takes so many steps, or as many as succeed and the first that fails; what a host sees of each of
them. -/
def steps (devices : Devices σ) : Nat → Machine σ → List Observation × Machine σ
  | 0, m => ([], m)
  | count + 1, m =>
    let (result, next) := m.obey devices .step
    match result.1 with
    | .stepped (.ok ()) =>
      let (rest, last) := next.steps devices count
      (next.observed result :: rest, last)
    | _ => ([next.observed result], next)

/-- Alike machines take the same steps. -/
theorem Alike.steps {τ : Type} {devices : Devices σ} {others : Devices τ}
    {R : Bus σ → Bus τ → Prop} (hbus : Bus.Bisimulation devices others R) {m : Machine σ}
    {other : Machine τ} (h : Alike R m other) (count : Nat) :
    (other.steps others count).1 = (m.steps devices count).1 ∧
      Alike R (m.steps devices count).2 (other.steps others count).2 := by
  induction count generalizing m other with
  | zero => exact ⟨rfl, h⟩
  | succ count ih =>
    obtain ⟨hresult, -, hafter⟩ := h.obey hbus .step nofun
    obtain ⟨hrest, hend⟩ := ih hafter
    unfold Machine.steps
    dsimp only
    rw [hresult, hafter.observed hbus]
    split
    · exact ⟨congrArg _ hrest, hend⟩
    · exact ⟨rfl, hafter⟩

/-- **Views and handlers of the same block cannot be told apart.** Whichever pages answer, whatever
the block contains and in whatever state the processor starts, so many steps, the first that fails
being the last, come to the same results, with the same registers, clocks, latches, lines and
memory after each of them. -/
theorem backing_invisible (slots : Slots) (block : BlockId) (devices : Devices σ) (m : Machine σ)
    (count : Nat) :
    ((m.withPages (.handled slots)).steps (.ofBlock block) count).1 =
        ((m.withPages (.viewed slots block)).steps devices count).1 ∧
      ((m.withPages (.handled slots)).steps (.ofBlock block) count).2.bus.store =
        ((m.withPages (.viewed slots block)).steps devices count).2.bus.store := by
  have halike : Alike (Bus.Backs slots block) (m.withPages (.viewed slots block))
      (m.withPages (.handled slots)) := by
    unfold withPages
    exact ⟨rfl, rfl, rfl, rfl, rfl⟩
  obtain ⟨hobservations, hend⟩ := halike.steps (Bus.Backs.bisimulation devices) count
  exact ⟨hobservations, hend.bus.store⟩

end Machine

end Mc6809
