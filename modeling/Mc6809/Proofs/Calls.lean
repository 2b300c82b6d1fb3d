/-
  What a step of a run invokes on the board: the handlers of the pages that it accesses, and then
  the routines of the timer that are due. `Machine.calls` lists these invocations in order, each
  with the bus that it finds.

  Nothing of the devices matters but their answers to these calls. Two boards that answer them
  alike take the same step (`Machine.timedStep_congr`), so the list misses no invocation.
-/
import Mc6809.Proofs.Transaction

namespace Mc6809

/-- What a machine can invoke on the board: the handler of a page, for a read or a write, and a
routine of the timer. -/
inductive Callee where
  | read (handler : ReadHandler) (address : UInt16)
  | write (handler : WriteHandler) (address : UInt16) (value : UInt8)
  | routine (id : Nat)
deriving DecidableEq, Repr

/-- An invocation, with the bus that it finds. What it does from there, accesses of its own
included, is a function of that bus. -/
structure Call (σ : Type) where
  callee : Callee
  bus : Bus σ

/-- Two boards answer a call alike. The handlers that the bus itself provides leave them no
choice. -/
def Devices.Agree {σ : Type} (devices other : Devices σ) (call : Call σ) : Prop :=
  match call.callee with
  | .read (.device id) address =>
    (devices.read id address).run call.bus = (other.read id address).run call.bus
  | .write (.device id) address value =>
    (devices.write id address value).run call.bus = (other.write id address value).run call.bus
  | .routine id => (devices.tick id).run call.bus = (other.tick id).run call.bus
  | _ => True

/-! ## Handlers -/

namespace Bus

variable {σ : Type} {devices other : Devices σ} (bus : Bus σ) {address : UInt16} {value : UInt8}

/-- What a read invokes: the handler of its page, unless the page has a view. -/
def readCalls (address : UInt16) : List (Call σ) :=
  let page := bus.pages.page (highByte address)
  if page.readView.isSome then []
  else page.readHandler.toList.map fun handler => ⟨.read handler address, bus⟩

/-- What a write invokes. -/
def writeCalls (address : UInt16) (value : UInt8) : List (Call σ) :=
  let page := bus.pages.page (highByte address)
  if page.writeView.isSome then []
  else page.writeHandler.toList.map fun handler => ⟨.write handler address value, bus⟩

theorem read_congr (h : ∀ call ∈ bus.readCalls address, devices.Agree other call) :
    (read devices address).run.run bus = (read other address).run.run bus := by
  unfold readCalls at h
  rw [run_read_eq, run_read_eq]
  dsimp only at h
  cases hview : (bus.pages.page (highByte address)).readView with
  | some view => rfl
  | none =>
    rw [hview] at h
    cases hhandler : (bus.pages.page (highByte address)).readHandler with
    | none => rfl
    | some handler =>
      rw [hhandler] at h
      cases handler with
      | null => rfl
      | device id =>
        have hagree : (devices.read id address).run bus = (other.read id address).run bus :=
          h _ (List.mem_singleton_self _)
        dsimp only
        rw [StateT.run_map, StateT.run_map, hagree]

theorem write_congr (h : ∀ call ∈ bus.writeCalls address value, devices.Agree other call) :
    (write devices address value).run.run bus = (write other address value).run.run bus := by
  unfold writeCalls at h
  rw [run_write_eq, run_write_eq]
  dsimp only at h
  cases hview : (bus.pages.page (highByte address)).writeView with
  | some view => rfl
  | none =>
    rw [hview] at h
    cases hhandler : (bus.pages.page (highByte address)).writeHandler with
    | none => rfl
    | some handler =>
      rw [hhandler] at h
      cases handler with
      | null | bankSwitch _ => rfl
      | device id =>
        have hagree : (devices.write id address value).run bus =
            (other.write id address value).run bus := h _ (List.mem_singleton_self _)
        dsimp only
        rw [StateT.run_map, StateT.run_map, hagree]

end Bus

namespace Traffic

variable {σ α β : Type} {devices other : Devices σ}

/-- What traffic invokes on a bus, up to the first request that is refused. -/
def calls (devices : Devices σ) : Traffic α → Bus σ → List (Call σ)
  | .done _, _ => []
  | .read address next, bus => bus.readCalls address ++
    match bus.readResult devices address with
    | (.ok value, after) => (next value).calls devices after
    | (.error _, _) => []
  | .write address value next, bus => bus.writeCalls address value ++
    match bus.writeResult devices address value with
    | (.ok (), after) => next.calls devices after
    | (.error _, _) => []
  | .releaseNmi next, bus => next.calls devices (bus.setLine .nmi false)
  | .report _ next, bus => next.calls devices bus

/-- Sequences do the same on a bus when their first parts do, and their second parts after that. -/
theorem run_bind_congr {first first' : ExceptT Fault (BusM σ) α}
    {second second' : α → ExceptT Fault (BusM σ) β} {bus : Bus σ}
    (hfirst : first.run.run bus = first'.run.run bus)
    (hsecond : ∀ a after, (first.run.run bus).value = (.ok a, after) →
      (second a).run.run after = (second' a).run.run after) :
    (first >>= second).run.run bus = (first' >>= second').run.run bus := by
  rw [Bus.run_bind, Bus.run_bind, ← hfirst]
  rcases hrun : first.run.run bus with ⟨⟨fault | a, after⟩, events⟩
  · rfl
  · have hrest := hsecond a after (by rw [hrun])
    dsimp only
    rw [hrest]

theorem perform_congr (t : Traffic α) (bus : Bus σ)
    (h : ∀ call ∈ t.calls devices bus, devices.Agree other call) :
    (t.perform devices).run.run bus = (t.perform other).run.run bus := by
  induction t generalizing bus with
  | done result => rfl
  | read address next ih =>
    rw [calls, List.forall_mem_append] at h
    refine run_bind_congr (bus.read_congr h.1) fun value after hvalue => ih value after ?_
    have hresult : bus.readResult devices address = (.ok value, after) := hvalue
    have hlater := h.2
    rw [hresult] at hlater
    exact hlater
  | write address value next ih =>
    rw [calls, List.forall_mem_append] at h
    refine run_bind_congr (bus.write_congr h.1) fun _ after hvalue => ih after ?_
    have hresult : bus.writeResult devices address value = (.ok (), after) := hvalue
    have hlater := h.2
    rw [hresult] at hlater
    exact hlater
  | releaseNmi next ih =>
    refine run_bind_congr rfl fun _ after hvalue => ?_
    cases hvalue
    exact ih _ h
  | report event next ih =>
    refine run_bind_congr rfl fun _ after hvalue => ?_
    cases hvalue
    exact ih _ h

end Traffic

/-! ## Routines -/

namespace Devices

variable {σ : Type} {devices other : Devices σ}

/-- The bus after a routine has run. -/
def ticked (devices : Devices σ) (id : Nat) (bus : Bus σ) : Bus σ :=
  ((devices.tick id).run bus).value.2

/-- The invocations of routines that run one after the other. -/
def routineCalls (devices : Devices σ) : List Nat → Bus σ → List (Call σ)
  | [], _ => []
  | id :: rest, bus => ⟨.routine id, bus⟩ :: devices.routineCalls rest (devices.ticked id bus)

theorem run_forM_tick_cons (id : Nat) (rest : List Nat) (bus : Bus σ) :
    ((id :: rest).forM devices.tick).run bus =
      let later := (rest.forM devices.tick).run (devices.ticked id bus)
      ⟨later.value, ((devices.tick id).run bus).events ++ later.events⟩ := rfl

/-- Each routine finds the bus that the one before it has left. -/
theorem forM_tick_bus (routines : List Nat) (bus : Bus σ) :
    ((routines.forM devices.tick).run bus).value.2 =
      routines.foldl (fun bus id => devices.ticked id bus) bus := by
  induction routines generalizing bus with
  | nil => rfl
  | cons id rest ih => exact ih (devices.ticked id bus)

theorem forM_tick_congr (routines : List Nat) (bus : Bus σ)
    (h : ∀ call ∈ devices.routineCalls routines bus, devices.Agree other call) :
    (routines.forM devices.tick).run bus = (routines.forM other.tick).run bus := by
  induction routines generalizing bus with
  | nil => rfl
  | cons id rest ih =>
    rw [routineCalls, List.forall_mem_cons] at h
    obtain ⟨hfirst, hrest⟩ := h
    have hagree : (devices.tick id).run bus = (other.tick id).run bus := hfirst
    have hticked : devices.ticked id bus = other.ticked id bus := by
      unfold ticked
      rw [hagree]
    rw [run_forM_tick_cons, run_forM_tick_cons, ih _ hrest, hticked, hagree]

end Devices

/-! ## Steps of a run -/

namespace Machine

variable {σ : Type} (devices : Devices σ) (m : Machine σ)

/-- What a step adds to the clock, modulo 2^64. -/
def elapsed : UInt64 := (m.step devices).2.cpu.clock - m.cpu.clock

/-- The routines that the timer runs after a step. -/
def due : List Nat :=
  match m.timer with
  | none => []
  | some timer => List.replicate (timer.advance (m.elapsed devices)).1 timer.routine

/-- What a step of a run invokes: handlers for its accesses, then the routines that are due. -/
def calls : List (Call σ) :=
  ((Action.step m.bus.lines).start m.cpu).calls devices m.bus ++
    devices.routineCalls (m.due devices) (m.step devices).2.bus

/-- Steps do not touch the timer. -/
theorem step_timer : (m.step devices).2.timer = m.timer := by
  obtain ⟨_, _, _, hstep⟩ | ⟨_, _, _, _, hstep⟩ | ⟨_, _, _, hstep⟩ := m.step_cases devices <;>
    rw [hstep]

/-- After a step of a run the timer has advanced, and the routines that are due have run. -/
theorem timedStep_eq : m.timedStep devices = ((m.step devices).1,
    ({ (m.step devices).2 with
      timer := m.timer.map fun timer : Timer => (timer.advance (m.elapsed devices)).2 }.onBus
        ((m.due devices).forM devices.tick)).2) := by
  have htimer := m.step_timer devices
  unfold timedStep advanceTimer due elapsed
  dsimp only
  rw [htimer]
  cases hm : m.timer with
  | some timer => rfl
  | none =>
    rw [hm] at htimer
    have hempty (next : Machine σ) : next = { next with log := next.log ++ #[] } := by
      rw [Array.append_empty]
    refine Prod.ext rfl ?_
    show (m.step devices).2 = { (m.step devices).2 with
      timer := none
      log := (m.step devices).2.log ++ #[] }
    rw [← htimer]
    exact hempty _

/-- The bus after a step of a run is what the routines that are due have made of it. -/
theorem timedStep_bus : (m.timedStep devices).2.bus =
    (m.due devices).foldl (fun bus id => devices.ticked id bus) (m.step devices).2.bus := by
  rw [timedStep_eq]
  exact Devices.forM_tick_bus _ _

variable {devices m} {other : Devices σ}

/-- A change of the bus that does the same on it does the same to the machine. -/
theorem onBus_congr {α : Type} {change change' : BusM σ α}
    (h : change.run m.bus = change'.run m.bus) : m.onBus change = m.onBus change' := by
  obtain ⟨cpu, fault, timer, bus, log⟩ := m
  have hrun : change.run bus = change'.run bus := h
  unfold onBus
  dsimp only
  rw [hrun]

/-- Boards that answer its calls alike take the same step. -/
theorem timedStep_congr (h : ∀ call ∈ m.calls devices, devices.Agree other call) :
    m.timedStep devices = m.timedStep other := by
  rw [calls, List.forall_mem_append] at h
  obtain ⟨haccesses, hroutines⟩ := h
  have hperform : m.perform devices ((Action.step m.bus.lines).start m.cpu) =
      m.perform other ((Action.step m.bus.lines).start m.cpu) :=
    onBus_congr (Traffic.perform_congr _ _ haccesses)
  have hstep : m.step devices = m.step other := by
    unfold step
    rw [hperform]
  have helapsed : m.elapsed devices = m.elapsed other := by
    unfold elapsed
    rw [hstep]
  have hdue : m.due devices = m.due other := by
    unfold due
    rw [helapsed]
  rw [timedStep_eq, timedStep_eq, ← hstep, ← helapsed, ← hdue]
  have hrun : ((m.due devices).forM devices.tick).run (m.step devices).2.bus =
      ((m.due devices).forM other.tick).run (m.step devices).2.bus :=
    Devices.forM_tick_congr _ _ hroutines
  exact congrArg (fun ran : Unit × Machine σ => ((m.step devices).1, ran.2)) (onBus_congr hrun)

end Machine

end Mc6809
