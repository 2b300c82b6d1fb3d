/-
  The bus: page table, interrupt lines, storage, bank-select registers, and the devices
  of the board.

  Devices are what the host attaches to pages that no view covers. They are given by the
  type `σ` of their state and by `Devices σ`, which says what each does when it is read,
  written or called by the timer. A device gets the whole bus, so it can remap pages,
  drive lines and make accesses of its own; each reaction is a total function of the bus
  and so ends. It cannot see the processor or what has been reported.

  The traffic of a step is performed access by access (`Traffic.perform`). The first access
  that no route takes ends it with a bus fault; what was done before stays done.
-/
import Mc6809.Memory.Banking
import Mc6809.Traffic

namespace Mc6809

/-! ## Reports -/

/-- A value and the events reported on the way to it, oldest first. -/
structure Reported (α : Type) where
  value : α
  events : List Event := []

namespace Reported

instance : Monad Reported where
  pure value := { value }
  bind
    | ⟨value, events⟩, f =>
      let ⟨result, later⟩ := f value
      ⟨result, events ++ later⟩

instance : LawfulMonad Reported := LawfulMonad.mk' Reported
  (fun r => by simp [Functor.map])
  (fun a f => by simp [Bind.bind, Pure.pure])
  (fun r f g => by simp [Bind.bind])

/-- The events of a sequence are those of its parts, in order. -/
theorem bind_eq {α β : Type} (first : Reported α) (second : α → Reported β) :
    first >>= second = ⟨(second first.value).value, first.events ++ (second first.value).events⟩ :=
  rfl

end Reported

/-! ## Bus and devices -/

/-- Everything outside the processor, with devices whose state is `σ`. -/
structure Bus (σ : Type) where
  pages : PageTable := PageTable.unmapped
  lines : InterruptLines := {}
  store : Store := {}
  switches : Array BankSwitch := #[]
  devices : σ
deriving DecidableEq

/-- A change of the bus that may report events. -/
abbrev BusM (σ : Type) := StateT (Bus σ) Reported

/-- What the devices of a board do. -/
structure Devices (σ : Type) where
  /-- Device `id` answers a read of an address. -/
  read : Nat → UInt16 → BusM σ UInt8
  /-- Device `id` takes a write of a value to an address. -/
  write : Nat → UInt16 → UInt8 → BusM σ Unit
  /-- Timer routine `id` runs. -/
  tick : Nat → BusM σ Unit

/-- A board without devices. -/
def Devices.none : Devices Unit where
  read _ _ := return 0
  write _ _ _ := return ()
  tick _ := return ()

namespace Bus

variable {σ : Type}

/-- Reports one event. -/
def report (event : Event) : BusM σ Unit := fun bus => ⟨((), bus), [event]⟩

/-- One block of 64 KB at its own addresses, and nothing else. -/
def flat (bytes : Array UInt8) (devices : σ) : Bus σ where
  pages := PageTable.flat ⟨0⟩
  store := ⟨#[bytes]⟩
  devices

/-- What a person is shown of a bus: how many pages have which slots filled, and the lines. -/
def text (bus : Bus σ) : String :=
  let count (filled : Page → Bool) : String := toString (bus.pages.toList.countP filled)
  "Bus \x7b read_buffers: " ++ count (·.readView.isSome) ++
  ", write_buffers: " ++ count (·.writeView.isSome) ++
  ", read_handlers: " ++ count (·.readHandler.isSome) ++
  ", write_handlers: " ++ count (·.writeHandler.isSome) ++
  ", lines: InterruptLines \x7b nmi: " ++ toString bus.lines.nmi ++
  ", firq: " ++ toString bus.lines.firq ++ ", irq: " ++ toString bus.lines.irq ++ " \x7d \x7d"

/-! ## Sequences of actions -/

/-- An action that begins by looking at the bus. -/
theorem run_get_bind {ε α : Type} {m : Type → Type} [Monad m] [LawfulMonad m]
    (f : Bus σ → ExceptT ε (StateT (Bus σ) m) α) (bus : Bus σ) :
    (get >>= f).run.run bus = (f bus).run.run bus := by
  have hget : (get : ExceptT ε (StateT (Bus σ) m) (Bus σ)) = ExceptT.lift get := rfl
  rw [hget, ExceptT.run_bind_lift, StateT.run_bind, StateT.run_get, pure_bind]

/-- An action that goes on after another one, unless that fails. -/
theorem run_bind {ε α β : Type} (first : ExceptT ε (BusM σ) α)
    (second : α → ExceptT ε (BusM σ) β) (bus : Bus σ) :
    (first >>= second).run.run bus = match first.run.run bus with
      | ⟨(.ok a, after), events⟩ =>
        ⟨((second a).run.run after).value, events ++ ((second a).run.run after).events⟩
      | ⟨(.error error, after), events⟩ => ⟨(.error error, after), events⟩ := by
  rw [ExceptT.run_bind, StateT.run_bind, Reported.bind_eq]
  rcases first.run.run bus with ⟨⟨error | a, after⟩, events⟩
  · exact congrArg _ (List.append_nil _)
  · rfl

/-! ## Edits -/

/-- Replaces the page table, unless the new one is refused. -/
def editPages (bus : Bus σ) (f : PageTable → Except MapError PageTable) :
    Except MapError (Bus σ) := do
  let pages ← f bus.pages
  return { bus with pages }

/-- Asserts or releases a line. -/
def setLine (bus : Bus σ) (interrupt : Interrupt) (asserted : Bool) : Bus σ :=
  { bus with lines := bus.lines.set interrupt asserted }

/-- Shows a bank through a select register and reports it. A refusal changes nothing. -/
def select (switch : Nat) (bank : Nat) : ExceptT MapError (BusM σ) Unit := do
  let bus ← get
  match bus.switches[switch]? with
  | none => return ()
  | some register =>
    match register.select bus.store bus.pages bank with
    | .error error => throw error
    | .ok (register, pages) =>
      set { bus with switches := bus.switches.setIfInBounds switch register, pages }
      (report (.bankSwitched bank register.region.first register.region.last) : BusM σ Unit)

/-- A write to a select register: the masked value names the bank, and the bank that is
shown already is left as it is. -/
def writeSwitch (switch : Nat) (value : UInt8) : BusM σ Unit := do
  match (← get).switches[switch]? with
  | none => return ()
  | some register =>
    let bank := (value &&& register.mask).toNat
    if register.selected = some bank then return ()
    match ← (select switch bank).run with
    | .ok () => return ()
    | .error error => report (.bankSwitchRejected error)

/-! ## Accesses -/

/-- Reads a byte: from the view of the page, else by its handler. -/
def read (devices : Devices σ) (address : UInt16) : ExceptT Fault (BusM σ) UInt8 := do
  let bus ← get
  let page := bus.pages.page (highByte address)
  match page.readView with
  | some view => return bus.store.readView view (lowByte address)
  | none =>
    match page.readHandler with
    | some .null => return 0
    | some (.device id) => devices.read id address
    | none => throw (.unmappedRead address)

/-- Writes a byte: through the view of the page, else by its handler. -/
def write (devices : Devices σ) (address : UInt16) (value : UInt8) :
    ExceptT Fault (BusM σ) Unit := do
  let page := (← get).pages.page (highByte address)
  match page.writeView with
  | some view =>
    modify fun bus => { bus with store := bus.store.writeView view (lowByte address) value }
  | none =>
    match page.writeHandler with
    | some .null => return ()
    | some (.bankSwitch id) => (writeSwitch id value : BusM σ Unit)
    | some (.device id) => devices.write id address value
    | none => throw (.unmappedWrite address value)

/-- The byte of a page that has a read view; no handler runs. -/
def peek (bus : Bus σ) (address : UInt16) : Option UInt8 :=
  (bus.pages.page (highByte address)).readView.map
    (bus.store.readView · (lowByte address))

end Bus

/-- Performs the requests of a computation on the bus, up to the first that is refused. -/
def Traffic.perform {σ α : Type} (devices : Devices σ) :
    Traffic α → ExceptT Fault (BusM σ) α
  | .done result => return result
  | .read address next => do
    let value ← Bus.read devices address
    (next value).perform devices
  | .write address value next => do
    Bus.write devices address value
    next.perform devices
  | .releaseNmi next => do
    modify (·.setLine .nmi false)
    next.perform devices
  | .report event next => do
    (Bus.report event : BusM σ Unit)
    next.perform devices

namespace Traffic

variable {σ α : Type} (devices : Devices σ)

@[simp] theorem perform_read (address : UInt16) (next : UInt8 → Traffic α) :
    (read address next).perform devices =
      (Bus.read devices address >>= fun value => (next value).perform devices) := rfl

@[simp] theorem perform_write (address : UInt16) (value : UInt8) (next : Traffic α) :
    (write address value next).perform devices =
      (Bus.write devices address value >>= fun _ => next.perform devices) := rfl

end Traffic

end Mc6809
