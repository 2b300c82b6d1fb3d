/-
  The course of traffic on a bus: which requests the bus accepted and what it answered,
  in order, whether a handler had a part in it, and how it ended.

  `Traffic.course` is the interpreter `Traffic.perform` with notes: leaving the notes out
  gives `perform` back (`perform_eq_course`). `Traffic.Ends` says the same without a bus: it
  relates a tree to every list of exchanges along which some world could lead it, and to the
  end of that list. A course follows one of them (`course_ends`), so what holds of every list
  of exchanges of a tree holds of every bus, with any devices. The other way round, a bus that
  performs the exchanges of an end comes to that end (`Ends.course_eq`).

  At the end stand the laws of buses whose handlers keep out: pages, switches and devices
  stay, the lines lose at most NMI, and storage takes the written bytes and nothing else
  (`course_of_unhandled`).
-/
import Mc6809.Machine

namespace Mc6809

/-- A request that the bus accepted, with its answer. -/
inductive Exchange where
  | read (address : UInt16) (value : UInt8)
  | write (address : UInt16) (value : UInt8)
  | releaseNmi
  | report (event : Event)
deriving DecidableEq, Repr

instance Except.decidableEq {ε α : Type} [DecidableEq ε] [DecidableEq α] :
    DecidableEq (Except ε α)
  | .ok a, .ok b => decidable_of_iff (a = b) (Except.ok.injEq a b ▸ Iff.rfl)
  | .error a, .error b => decidable_of_iff (a = b) (Except.error.injEq a b ▸ Iff.rfl)
  | .ok _, .error _ | .error _, .ok _ => isFalse (by intro h; cases h)

/-- What became of a computation's traffic on a bus. -/
structure Course (σ α : Type) where
  /-- The accepted requests, in order. -/
  exchanges : List Exchange
  /-- Whether a handler took one of them. -/
  handled : Bool
  /-- The result, or the fault for the request that no route took. -/
  outcome : Except Fault α
  /-- The bus as it is left. -/
  bus : Bus σ

namespace Course

variable {σ α : Type}

/-- The course with one more exchange in front. -/
def after (rest : Course σ α) (exchange : Exchange) (handled : Bool) : Course σ α :=
  { rest with exchanges := exchange :: rest.exchanges, handled := handled || rest.handled }

@[simp] theorem after_exchanges (rest : Course σ α) (exchange : Exchange) (handled : Bool) :
    (rest.after exchange handled).exchanges = exchange :: rest.exchanges := rfl

@[simp] theorem after_handled (rest : Course σ α) (exchange : Exchange) (handled : Bool) :
    (rest.after exchange handled).handled = (handled || rest.handled) := rfl

@[simp] theorem after_outcome (rest : Course σ α) (exchange : Exchange) (handled : Bool) :
    (rest.after exchange handled).outcome = rest.outcome := rfl

@[simp] theorem after_bus (rest : Course σ α) (exchange : Exchange) (handled : Bool) :
    (rest.after exchange handled).bus = rest.bus := rfl

end Course

/-! ## Exchanges without a bus -/

/-- The bytes read along a list of exchanges, in order. -/
def readBytes : List Exchange → List UInt8
  | [] => []
  | .read _ value :: rest => value :: readBytes rest
  | _ :: rest => readBytes rest

@[simp] theorem readBytes_append (first second : List Exchange) :
    readBytes (first ++ second) = readBytes first ++ readBytes second := by
  induction first with
  | nil => rfl
  | cons exchange first ih => cases exchange <;> simp [readBytes, ih]

/-- The traffic can lead along the exchanges to the end: to a result, or to a request that
is refused. -/
inductive Traffic.Ends {α : Type} : Traffic α → List Exchange → Except Fault α → Prop where
  | done (result : α) : Ends (.done result) [] (.ok result)
  | read {address value next w r} :
      Ends (next value) w r → Ends (.read address next) (.read address value :: w) r
  | readRefused {address next} : Ends (.read address next) [] (.error (.unmappedRead address))
  | write {address value next w r} :
      Ends next w r → Ends (.write address value next) (.write address value :: w) r
  | writeRefused {address value next} :
      Ends (.write address value next) [] (.error (.unmappedWrite address value))
  | releaseNmi {next w r} : Ends next w r → Ends (.releaseNmi next) (.releaseNmi :: w) r
  | report {event next w r} : Ends next w r → Ends (.report event next) (.report event :: w) r

namespace Traffic

variable {σ α β : Type}

@[simp] theorem ends_done {a : α} {w r} : (done a).Ends w r ↔ w = [] ∧ r = .ok a := by
  constructor
  · rintro ⟨⟩
    exact ⟨rfl, rfl⟩
  · rintro ⟨rfl, rfl⟩
    exact .done a

@[simp] theorem ends_read_ok {address} {next : UInt8 → Traffic α} {w a} :
    (read address next).Ends w (.ok a) ↔
      ∃ value rest, w = .read address value :: rest ∧ (next value).Ends rest (.ok a) := by
  constructor
  · rintro ⟨⟩
    exact ⟨_, _, rfl, ‹_›⟩
  · rintro ⟨value, rest, rfl, h⟩
    exact .read h

@[simp] theorem ends_write_ok {address value} {next : Traffic α} {w a} :
    (write address value next).Ends w (.ok a) ↔
      ∃ rest, w = .write address value :: rest ∧ next.Ends rest (.ok a) := by
  constructor
  · rintro ⟨⟩
    exact ⟨_, rfl, ‹_›⟩
  · rintro ⟨rest, rfl, h⟩
    exact .write h

@[simp] theorem ends_releaseNmi {next : Traffic α} {w r} :
    (releaseNmi next).Ends w r ↔ ∃ rest, w = .releaseNmi :: rest ∧ next.Ends rest r := by
  constructor
  · rintro ⟨⟩
    exact ⟨_, rfl, ‹_›⟩
  · rintro ⟨rest, rfl, h⟩
    exact .releaseNmi h

@[simp] theorem ends_report {event} {next : Traffic α} {w r} :
    (report event next).Ends w r ↔ ∃ rest, w = .report event :: rest ∧ next.Ends rest r := by
  constructor
  · rintro ⟨⟩
    exact ⟨_, rfl, ‹_›⟩
  · rintro ⟨rest, rfl, h⟩
    exact .report h

/-- The second part takes over where the first ends with a result. -/
theorem Ends.bind_ok {t : Traffic α} {f : α → Traffic β} {first second a r}
    (h : t.Ends first (.ok a)) (h' : (f a).Ends second r) :
    (t >>= f).Ends (first ++ second) r := by
  generalize hr : (Except.ok a : Except Fault α) = ra at h
  induction h with
  | done => cases hr; exact h'
  | read _ ih => exact .read (ih hr)
  | readRefused => cases hr
  | write _ ih => exact .write (ih hr)
  | writeRefused => cases hr
  | releaseNmi _ ih => exact .releaseNmi (ih hr)
  | report _ ih => exact .report (ih hr)

/-- Nothing else ends a sequence. -/
theorem Ends.of_bind {t : Traffic α} {f : α → Traffic β} {w r} (h : (t >>= f).Ends w r) :
    (∃ fault, t.Ends w (.error fault) ∧ r = .error fault) ∨
      ∃ a first second, w = first ++ second ∧ t.Ends first (.ok a) ∧ (f a).Ends second r := by
  induction t generalizing w with
  | done a => exact .inr ⟨a, [], w, rfl, .done a, h⟩
  | read address next ih =>
    cases h with
    | read h =>
      obtain ⟨fault, he, hr⟩ | ⟨a, first, second, rfl, h1, h2⟩ := ih _ h
      · exact .inl ⟨fault, .read he, hr⟩
      · exact .inr ⟨a, _ :: first, second, rfl, .read h1, h2⟩
    | readRefused => exact .inl ⟨_, .readRefused, rfl⟩
  | write address value next ih =>
    cases h with
    | write h =>
      obtain ⟨fault, he, hr⟩ | ⟨a, first, second, rfl, h1, h2⟩ := ih h
      · exact .inl ⟨fault, .write he, hr⟩
      · exact .inr ⟨a, _ :: first, second, rfl, .write h1, h2⟩
    | writeRefused => exact .inl ⟨_, .writeRefused, rfl⟩
  | releaseNmi next ih =>
    cases h with
    | releaseNmi h =>
      obtain ⟨fault, he, hr⟩ | ⟨a, first, second, rfl, h1, h2⟩ := ih h
      · exact .inl ⟨fault, .releaseNmi he, hr⟩
      · exact .inr ⟨a, _ :: first, second, rfl, .releaseNmi h1, h2⟩
  | report event next ih =>
    cases h with
    | report h =>
      obtain ⟨fault, he, hr⟩ | ⟨a, first, second, rfl, h1, h2⟩ := ih h
      · exact .inl ⟨fault, .report he, hr⟩
      · exact .inr ⟨a, _ :: first, second, rfl, .report h1, h2⟩

/-- Only an address without a route ends traffic before its result. -/
theorem Ends.isBusFault {t : Traffic α} {w fault} (h : t.Ends w (.error fault)) :
    fault.isBusFault := by
  generalize hr : (Except.error fault : Except Fault α) = r at h
  induction h with
  | done => cases hr
  | readRefused => cases hr; rfl
  | writeRefused => cases hr; rfl
  | read _ ih | write _ ih | releaseNmi _ ih | report _ ih => exact ih hr

end Traffic

/-! ## Accesses to a bus -/

namespace Bus

variable {σ : Type} {devices : Devices σ} {bus after : Bus σ} {address : UInt16} {value : UInt8}
  {fault : Fault}

/-- What a read comes to. -/
def readResult (devices : Devices σ) (bus : Bus σ) (address : UInt16) :
    Except Fault UInt8 × Bus σ := ((read devices address).run.run bus).value

/-- What a write comes to. -/
def writeResult (devices : Devices σ) (bus : Bus σ) (address : UInt16) (value : UInt8) :
    Except Fault Unit × Bus σ := ((write devices address value).run.run bus).value

/-- Where the bus sends a read. -/
def readRoute (bus : Bus σ) (address : UInt16) : Route :=
  (bus.pages.page (highByte address)).readRoute

/-- Where the bus sends a write. -/
def writeRoute (bus : Bus σ) (address : UInt16) : Route :=
  (bus.pages.page (highByte address)).writeRoute

/-- What a read does, by the slots of the page. -/
theorem run_read_eq : (read devices address).run.run bus =
    match (bus.pages.page (highByte address)).readView,
        (bus.pages.page (highByte address)).readHandler with
    | some view, _ => ⟨(.ok (bus.store.readView view (lowByte address)), bus), []⟩
    | none, some .null => ⟨(.ok 0, bus), []⟩
    | none, some (.device id) => (.ok <$> devices.read id address).run bus
    | none, none => ⟨(.error (.unmappedRead address), bus), []⟩ := by
  unfold read
  rw [run_get_bind]
  dsimp only
  cases (bus.pages.page (highByte address)).readView with
  | some view => rfl
  | none =>
    cases (bus.pages.page (highByte address)).readHandler with
    | none => rfl
    | some handler => cases handler <;> rfl

/-- What a write does, by the slots of the page. -/
theorem run_write_eq : (write devices address value).run.run bus =
    match (bus.pages.page (highByte address)).writeView,
        (bus.pages.page (highByte address)).writeHandler with
    | some view, _ =>
      ⟨(.ok (), { bus with store := bus.store.writeView view (lowByte address) value }), []⟩
    | none, some .null => ⟨(.ok (), bus), []⟩
    | none, some (.bankSwitch id) => (.ok <$> writeSwitch id value).run bus
    | none, some (.device id) => (.ok <$> devices.write id address value).run bus
    | none, none => ⟨(.error (.unmappedWrite address value), bus), []⟩ := by
  unfold write
  rw [run_get_bind]
  dsimp only
  cases (bus.pages.page (highByte address)).writeView with
  | some view => rfl
  | none =>
    cases (bus.pages.page (highByte address)).writeHandler with
    | none => rfl
    | some handler => cases handler <;> rfl

theorem readResult_eq : bus.readResult devices address =
    match (bus.pages.page (highByte address)).readView,
        (bus.pages.page (highByte address)).readHandler with
    | some view, _ => (.ok (bus.store.readView view (lowByte address)), bus)
    | none, some .null => (.ok 0, bus)
    | none, some (.device id) =>
      let answer := ((devices.read id address).run bus).value
      (.ok answer.1, answer.2)
    | none, none => (.error (.unmappedRead address), bus) := by
  unfold readResult
  rw [run_read_eq]
  split <;> rfl

theorem writeResult_eq : bus.writeResult devices address value =
    match (bus.pages.page (highByte address)).writeView,
        (bus.pages.page (highByte address)).writeHandler with
    | some view, _ =>
      (.ok (), { bus with store := bus.store.writeView view (lowByte address) value })
    | none, some .null => (.ok (), bus)
    | none, some (.bankSwitch id) => (.ok (), ((writeSwitch id value).run bus).value.2)
    | none, some (.device id) => (.ok (), ((devices.write id address value).run bus).value.2)
    | none, none => (.error (.unmappedWrite address value), bus) := by
  unfold writeResult
  rw [run_write_eq]
  split <;> rfl

/-- A refused read leaves the bus alone, and its fault names the address. -/
theorem readResult_error (h : bus.readResult devices address = (.error fault, after)) :
    fault = .unmappedRead address ∧ after = bus := by
  rw [readResult_eq] at h
  split at h <;> cases h
  exact ⟨rfl, rfl⟩

/-- A refused write leaves the bus alone, and its fault names the address and the value. -/
theorem writeResult_error (h : bus.writeResult devices address value = (.error fault, after)) :
    fault = .unmappedWrite address value ∧ after = bus := by
  rw [writeResult_eq] at h
  split at h <;> cases h
  exact ⟨rfl, rfl⟩

/-- Without a handler a read changes nothing. -/
theorem bus_eq_of_readResult {result : UInt8} (hroute : bus.readRoute address ≠ .handler)
    (h : bus.readResult devices address = (.ok result, after)) : after = bus := by
  rw [readResult_eq] at h
  unfold readRoute Page.readRoute at hroute
  split at h <;> cases h
  · rfl
  · rfl
  · next hview hhandler => simp [hview, hhandler] at hroute

/-- Without a handler a write changes the byte that the page's view names, and nothing else. -/
theorem bus_eq_of_writeResult (hroute : bus.writeRoute address ≠ .handler)
    (h : bus.writeResult devices address value = (.ok (), after)) :
    ∃ view, (bus.pages.page (highByte address)).writeView = some view ∧
      after = { bus with store := bus.store.writeView view (lowByte address) value } := by
  rw [writeResult_eq] at h
  unfold writeRoute Page.writeRoute at hroute
  split at h <;> cases h
  · next view hview => exact ⟨_, hview, rfl⟩
  all_goals
    next hview hhandler => simp [hview, hhandler] at hroute

end Bus

/-! ## Courses on a bus -/

/-- Performs the requests of a computation on the bus and takes notes. -/
def Traffic.course {σ α : Type} (devices : Devices σ) : Traffic α → Bus σ → Course σ α
  | .done result, bus => ⟨[], false, .ok result, bus⟩
  | .read address next, bus =>
    match bus.readResult devices address with
    | (.ok value, after) => ((next value).course devices after).after (.read address value)
        (bus.readRoute address = .handler)
    | (.error fault, after) => ⟨[], false, .error fault, after⟩
  | .write address value next, bus =>
    match bus.writeResult devices address value with
    | (.ok (), after) => (next.course devices after).after (.write address value)
        (bus.writeRoute address = .handler)
    | (.error fault, after) => ⟨[], false, .error fault, after⟩
  | .releaseNmi next, bus =>
    (next.course devices (bus.setLine .nmi false)).after .releaseNmi false
  | .report event next, bus => (next.course devices bus).after (.report event) false

namespace Traffic

variable {σ α β : Type} (devices : Devices σ)

/-- What a sequence of bus actions comes to. -/
theorem value_bind (first : ExceptT Fault (BusM σ) α) (second : α → ExceptT Fault (BusM σ) β)
    (bus : Bus σ) : ((first >>= second).run.run bus).value =
      match (first.run.run bus).value with
      | (.ok a, after) => ((second a).run.run after).value
      | (.error fault, after) => (.error fault, after) := by
  rw [Bus.run_bind]
  rcases first.run.run bus with ⟨⟨fault | a, after⟩, events⟩ <;> rfl

/-- Leaving out the notes gives the performance. -/
theorem perform_eq_course (t : Traffic α) (bus : Bus σ) :
    ((t.perform devices).run.run bus).value =
      ((t.course devices bus).outcome, (t.course devices bus).bus) := by
  induction t generalizing bus with
  | done result => rfl
  | read address next ih =>
    rw [perform_read, value_bind, course, ← Bus.readResult]
    rcases bus.readResult devices address with ⟨fault | value, after⟩
    · rfl
    · dsimp only
      rw [ih value after, Course.after_outcome, Course.after_bus]
  | write address value next ih =>
    rw [perform_write, value_bind, course, ← Bus.writeResult]
    rcases bus.writeResult devices address value with ⟨fault | _, after⟩
    · rfl
    · dsimp only
      rw [ih after, Course.after_outcome, Course.after_bus]
  | releaseNmi next ih => exact ih (bus.setLine .nmi false)
  | report event next ih => exact ih bus

/-- A course follows one of the lists of exchanges of its traffic to its end. -/
theorem course_ends (t : Traffic α) (bus : Bus σ) :
    t.Ends (t.course devices bus).exchanges (t.course devices bus).outcome := by
  induction t generalizing bus with
  | done result => exact .done result
  | read address next ih =>
    rw [course]
    cases h : bus.readResult devices address with
    | mk result after =>
      cases result with
      | ok value => exact .read (ih value after)
      | error fault =>
        obtain ⟨rfl, -⟩ := Bus.readResult_error h
        exact .readRefused
  | write address value next ih =>
    rw [course]
    cases h : bus.writeResult devices address value with
    | mk result after =>
      cases result with
      | ok _ => exact .write (ih after)
      | error fault =>
        obtain ⟨rfl, -⟩ := Bus.writeResult_error h
        exact .writeRefused
  | releaseNmi next ih => exact .releaseNmi (ih (bus.setLine .nmi false))
  | report event next ih => exact .report (ih bus)

end Traffic

/-! ## Exchanges on a bus -/

/-- On the bus the requests of the exchanges are accepted one after the other, with these answers,
and leave it as the second bus. -/
def Bus.Performs {σ : Type} (devices : Devices σ) : Bus σ → List Exchange → Bus σ → Prop
  | bus, [], after => after = bus
  | bus, .read address value :: rest, after =>
    ∃ mid, bus.readResult devices address = (.ok value, mid) ∧ mid.Performs devices rest after
  | bus, .write address value :: rest, after =>
    ∃ mid, bus.writeResult devices address value = (.ok (), mid) ∧
      mid.Performs devices rest after
  | bus, .releaseNmi :: rest, after => (bus.setLine .nmi false).Performs devices rest after
  | bus, .report _ :: rest, after => bus.Performs devices rest after

namespace Traffic

variable {σ α : Type}

/-- The bus performs the exchanges of a course. -/
theorem course_performs (devices : Devices σ) (t : Traffic α) (bus : Bus σ) :
    bus.Performs devices (t.course devices bus).exchanges (t.course devices bus).bus := by
  induction t generalizing bus with
  | done result => exact rfl
  | read address next ih =>
    rw [course]
    cases h : bus.readResult devices address with
    | mk result after =>
      cases result with
      | ok value => exact ⟨after, h, ih value after⟩
      | error fault => exact (Bus.readResult_error h).2
  | write address value next ih =>
    rw [course]
    cases h : bus.writeResult devices address value with
    | mk result after =>
      cases result with
      | ok _ => exact ⟨after, h, ih after⟩
      | error fault => exact (Bus.writeResult_error h).2
  | releaseNmi next ih => exact ih (bus.setLine .nmi false)
  | report event next ih => exact ih bus

/-- Exchanges that lead traffic to a result are its course on every bus that performs them. -/
theorem Ends.course_eq {devices : Devices σ} {t : Traffic α} {w a} (h : t.Ends w (.ok a))
    {bus after : Bus σ} (hbus : bus.Performs devices w after) :
    (t.course devices bus).exchanges = w ∧ (t.course devices bus).outcome = .ok a ∧
      (t.course devices bus).bus = after := by
  generalize hr : (Except.ok a : Except Fault α) = r at h
  induction h generalizing bus with
  | done result => exact ⟨rfl, rfl, Eq.symm hbus⟩
  | readRefused | writeRefused => cases hr
  | read _ ih =>
    obtain ⟨mid, hread, hrest⟩ := hbus
    obtain ⟨hexchanges, houtcome, hafter⟩ := ih hrest hr
    rw [course, hread]
    exact ⟨congrArg (_ :: ·) hexchanges, houtcome, hafter⟩
  | write _ ih =>
    obtain ⟨mid, hwrite, hrest⟩ := hbus
    obtain ⟨hexchanges, houtcome, hafter⟩ := ih hrest hr
    rw [course, hwrite]
    exact ⟨congrArg (_ :: ·) hexchanges, houtcome, hafter⟩
  | releaseNmi _ ih =>
    obtain ⟨hexchanges, houtcome, hafter⟩ := ih hbus hr
    exact ⟨congrArg (_ :: ·) hexchanges, houtcome, hafter⟩
  | report _ ih =>
    obtain ⟨hexchanges, houtcome, hafter⟩ := ih hbus hr
    exact ⟨congrArg (_ :: ·) hexchanges, houtcome, hafter⟩

end Traffic

/-- The exchanges that are not mere reports. -/
def requests : List Exchange → List Exchange
  | [] => []
  | .report _ :: rest => requests rest
  | exchange :: rest => exchange :: requests rest

@[simp] theorem requests_append (first second : List Exchange) :
    requests (first ++ second) = requests first ++ requests second := by
  induction first with
  | nil => rfl
  | cons exchange first ih => cases exchange <;> simp [requests, ih]

/-- Reports do not matter to the bus. -/
theorem Bus.performs_requests {σ : Type} {devices : Devices σ} {bus after : Bus σ}
    {w : List Exchange} :
    bus.Performs devices (requests w) after ↔ bus.Performs devices w after := by
  induction w generalizing bus with
  | nil => exact Iff.rfl
  | cons exchange w ih =>
    cases exchange with
    | read | write => exact exists_congr fun _ => and_congr_right fun _ => ih
    | releaseNmi | report => exact ih

/-! ## Courses without handlers -/

namespace Bus

variable {σ : Type}

/-- The block and the offset of the byte that a write to an address changes, if the page has
a view for writes. -/
def cell? (bus : Bus σ) (address : UInt16) : Option (BlockId × Nat) :=
  (bus.pages.page (highByte address)).writeView.map fun view =>
    (view.block, view.base + (lowByte address).toNat)

/-- Stores a byte in the cell of an address. -/
def putByte (bus : Bus σ) (address : UInt16) (value : UInt8) : Bus σ :=
  match bus.cell? address with
  | some (block, offset) => { bus with store := bus.store.set block offset value }
  | none => bus

/-- The bus after exchanges in which no handler has a part. -/
def replay (bus : Bus σ) : List Exchange → Bus σ
  | [] => bus
  | .write address value :: rest => (bus.putByte address value).replay rest
  | .releaseNmi :: rest => (bus.setLine .nmi false).replay rest
  | .read .. :: rest | .report _ :: rest => bus.replay rest

@[simp] theorem putByte_pages (bus : Bus σ) (address : UInt16) (value : UInt8) :
    (bus.putByte address value).pages = bus.pages := by
  unfold putByte
  split <;> rfl

@[simp] theorem putByte_lines (bus : Bus σ) (address : UInt16) (value : UInt8) :
    (bus.putByte address value).lines = bus.lines := by
  unfold putByte
  split <;> rfl

@[simp] theorem putByte_cell? (bus : Bus σ) (address other : UInt16) (value : UInt8) :
    (bus.putByte address value).cell? other = bus.cell? other := by
  unfold cell?
  rw [putByte_pages]

@[simp] theorem setLine_cell? (bus : Bus σ) (interrupt : Interrupt) (asserted : Bool)
    (address : UInt16) : (bus.setLine interrupt asserted).cell? address = bus.cell? address := rfl

theorem replay_pages (bus : Bus σ) (w : List Exchange) : (bus.replay w).pages = bus.pages := by
  induction w generalizing bus with
  | nil => rfl
  | cons exchange w ih =>
    cases exchange with
    | write address value => rw [replay, ih, putByte_pages]
    | releaseNmi => exact ih _
    | read | report => exact ih bus

/-- Only the release of NMI changes a line. -/
theorem replay_lines (bus : Bus σ) (w : List Exchange) (h : .releaseNmi ∉ w) :
    (bus.replay w).lines = bus.lines := by
  induction w generalizing bus with
  | nil => rfl
  | cons exchange w ih =>
    have hrest : .releaseNmi ∉ w := fun hmem => h (List.mem_cons_of_mem _ hmem)
    cases exchange with
    | write address value => rw [replay, ih _ hrest, putByte_lines]
    | releaseNmi => exact absurd List.mem_cons_self h
    | read | report => exact ih bus hrest

theorem get?_putByte {bus : Bus σ} {address : UInt16} (value : UInt8) {block : BlockId}
    {offset : Nat} (h : bus.cell? address ≠ some (block, offset)) :
    (bus.putByte address value).store.get? block offset = bus.store.get? block offset := by
  unfold putByte
  split
  · next target place hcell =>
    rw [Store.get?_set, if_neg]
    rintro ⟨rfl, rfl⟩
    exact h hcell
  · rfl

/-- A byte of storage that changes is the cell of a write among the exchanges. -/
theorem exists_write_of_replay_ne {bus : Bus σ} {w : List Exchange} {block : BlockId}
    {offset : Nat} (h : (bus.replay w).store.get? block offset ≠ bus.store.get? block offset) :
    ∃ address value, .write address value ∈ w ∧ bus.cell? address = some (block, offset) := by
  induction w generalizing bus with
  | nil => exact absurd rfl h
  | cons exchange w ih =>
    have lift : (∃ address value, .write address value ∈ w ∧
        bus.cell? address = some (block, offset)) →
        ∃ address value, .write address value ∈ exchange :: w ∧
          bus.cell? address = some (block, offset) := fun ⟨address, value, hmem, hcell⟩ =>
      ⟨address, value, List.mem_cons_of_mem _ hmem, hcell⟩
    cases exchange with
    | write address value =>
      by_cases hcell : bus.cell? address = some (block, offset)
      · exact ⟨address, value, List.mem_cons_self, hcell⟩
      · refine lift ?_
        rw [replay, ← get?_putByte value hcell] at h
        simpa using ih h
    | releaseNmi =>
      obtain ⟨address, value, hmem, hcell⟩ := ih h
      rw [setLine_cell?] at hcell
      exact lift ⟨address, value, hmem, hcell⟩
    | read | report => exact lift (ih h)

end Bus

/-- Without handlers the exchanges say what becomes of the bus. -/
theorem Traffic.course_of_unhandled {σ α : Type} (devices : Devices σ) (t : Traffic α)
    (bus : Bus σ) (h : (t.course devices bus).handled = false) :
    (t.course devices bus).bus = bus.replay (t.course devices bus).exchanges := by
  induction t generalizing bus with
  | done result => rfl
  | read address next ih =>
    rw [course] at h ⊢
    cases hread : bus.readResult devices address with
    | mk result after =>
      rw [hread] at h
      cases result with
      | ok value =>
        rw [Course.after_handled, Bool.or_eq_false_iff] at h
        obtain ⟨hroute, hrest⟩ := h
        obtain rfl := Bus.bus_eq_of_readResult (of_decide_eq_false hroute) hread
        exact ih value after hrest
      | error fault => exact (Bus.readResult_error hread).2
  | write address value next ih =>
    rw [course] at h ⊢
    cases hwrite : bus.writeResult devices address value with
    | mk result after =>
      rw [hwrite] at h
      cases result with
      | ok _ =>
        rw [Course.after_handled, Bool.or_eq_false_iff] at h
        obtain ⟨hroute, hrest⟩ := h
        obtain ⟨view, hview, rfl⟩ := Bus.bus_eq_of_writeResult (of_decide_eq_false hroute) hwrite
        have hput : bus.putByte address value =
            { bus with store := bus.store.writeView view (lowByte address) value } := by
          simp [Bus.putByte, Bus.cell?, hview, Store.writeView]
        simpa [Bus.replay, hput] using ih _ hrest
      | error fault => exact (Bus.writeResult_error hwrite).2
  | releaseNmi next ih => exact ih (bus.setLine .nmi false) h
  | report event next ih => exact ih bus h

end Mc6809
