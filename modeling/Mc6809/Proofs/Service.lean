/-
  Serving an interrupt. What it asks of the bus can be listed (`ends_service`): it pushes what the
  interrupt saves, unless CWAI has pushed that before, reads the two bytes of the vector, and, if it
  is NMI, releases the line.

  `Machine.step_arbitrates` says what a step does about the lines. The choice of the interrupt is
  in `Arbitration`; here are the service of the one that wins (`Machine.Serves`) and the
  lines themselves. The processor releases NMI where it has served it and touches no line
  otherwise (`releaseNmi_mem_iff`), so whatever else happens to the lines is the work of the
  handlers that the step calls (`Traffic.course_lines`).
-/
import Mc6809.Proofs.Calls
import Mc6809.Proofs.Frame

namespace Mc6809

/-- The bytes written below a pointer, one after the other. -/
def pushes (pointer : UInt16) : List UInt8 → List Exchange
  | [] => []
  | byte :: rest => .write (pointer - 1) byte :: pushes (pointer - 1) rest

namespace Traffic

variable {α : Type}

theorem ends_pushing_ok {pointer : UInt16} {next : Traffic α} {bytes : List UInt8} {w a} :
    (next.pushing pointer bytes).Ends w (.ok a) ↔
      ∃ rest, w = pushes pointer bytes ++ rest ∧ next.Ends rest (.ok a) := by
  induction bytes generalizing pointer w with
  | nil => exact ⟨fun h => ⟨w, rfl, h⟩, fun ⟨_, hw, h⟩ => hw ▸ h⟩
  | cons byte bytes ih =>
    simp only [pushing, ends_write_ok, ih, pushes, List.cons_append]
    constructor
    · rintro ⟨_, rfl, rest, rfl, h⟩
      exact ⟨rest, rfl, h⟩
    · rintro ⟨rest, rfl, h⟩
      exact ⟨_, rfl, rest, rfl, h⟩

end Traffic

namespace Interrupt

/-- The bytes that an interrupt pushes on S. In CWAI they are there already. -/
def saves (interrupt : Interrupt) (cpu : Cpu) : List UInt8 :=
  if cpu.cwai then [] else (cpu.regs.withEntire (interrupt != .firq)).frame.reverse

/-- The processor that has saved its registers and masked interrupts, and is about to look for the
handler. -/
def saved (interrupt : Interrupt) (cpu : Cpu) : Cpu :=
  let saved : Cpu := if cpu.cwai then cpu else { cpu with
    regs := { cpu.regs.withEntire (interrupt != .firq) with
      s := cpu.regs.s - .ofNat (cpu.regs.withEntire (interrupt != .firq)).frame.length }
    clock := cpu.clock + .ofNat interrupt.cost }
  { saved with regs.cc := Action.maskFor interrupt saved.regs.cc }

/-- The exchanges after the vector has been read. -/
def enters (interrupt : Interrupt) (handler : UInt16) : List Exchange :=
  if interrupt = .nmi then [.releaseNmi, .report (.serviced interrupt handler)]
  else [.report (.serviced interrupt handler)]

end Interrupt

namespace Action

variable {cpu cpu' : Cpu} {w : List Exchange}

theorem start_service (interrupt : Interrupt) : (service interrupt).start cpu =
    (Traffic.read interrupt.vector fun high => .read (interrupt.vector + 1) fun low =>
      (enter interrupt (joinBytes high low)).start (interrupt.saved cpu)).pushing cpu.regs.s
        (interrupt.saves cpu) := by
  rw [service_eq]
  unfold prepare Interrupt.saves Interrupt.saved
  cases hcwai : cpu.cwai with
  | true =>
    simp only [start_bind, start_get, Traffic.done_bind, hcwai]
    rfl
  | false =>
    simp only [start_bind, start_get, Traffic.done_bind, hcwai, start_saveState,
      Bool.not_false, if_true, Traffic.pushing_bind]
    rfl

theorem start_enter (interrupt : Interrupt) (handler : UInt16) :
    (enter interrupt handler).start cpu =
      (if interrupt = .nmi then Traffic.releaseNmi else id) (.report (.serviced interrupt handler)
        (.done (.ok (), { cpu with regs.pc := handler, cwai := false }))) := by
  cases interrupt <;> rfl

theorem ends_enter {interrupt : Interrupt} {handler : UInt16} {r : Except Fault Unit} :
    (enter interrupt handler).Ends cpu w r cpu' ↔
      w = interrupt.enters handler ∧ r = .ok () ∧
        cpu' = { cpu with regs.pc := handler, cwai := false } := by
  rw [Ends, start_enter]
  unfold Interrupt.enters
  by_cases hnmi : interrupt = .nmi
  · rw [if_pos hnmi, if_pos hnmi, Traffic.ends_releaseNmi]
    simp only [ends_report_leaf]
    constructor
    · rintro ⟨rest, hw, hrest, hend⟩
      rw [hw, hrest]
      exact ⟨rfl, hend⟩
    · rintro ⟨hw, hend⟩
      exact ⟨_, hw, rfl, hend⟩
  · rw [if_neg hnmi, if_neg hnmi]
    exact ends_report_leaf

/-- Servicing an interrupt saves registers, reads the vector and enters the handler. It finds no
fault of its own. -/
theorem ends_service {interrupt : Interrupt} {r : Except Fault Unit} :
    (service interrupt).Ends cpu w r cpu' ↔ ∃ high low,
      w = pushes cpu.regs.s (interrupt.saves cpu) ++ [.read interrupt.vector high,
        .read (interrupt.vector + 1) low] ++ interrupt.enters (joinBytes high low) ∧
      r = .ok () ∧
      cpu' = { interrupt.saved cpu with regs.pc := joinBytes high low, cwai := false } := by
  rw [Ends, start_service, Traffic.ends_pushing_ok]
  simp only [Traffic.ends_read_ok]
  constructor
  · intro ⟨_, hw, high, _, hhigh, low, _, hlow, henter⟩
    obtain ⟨hrest, hr, hcpu⟩ := ends_enter.mp henter
    refine ⟨high, low, ?_, hr, hcpu⟩
    rw [hw, hhigh, hlow, hrest, List.append_assoc]
    rfl
  · intro ⟨high, low, hw, hr, hcpu⟩
    rw [hw, List.append_assoc]
    exact ⟨_, rfl, high, _, rfl, low, _, rfl, ends_enter.mpr ⟨rfl, hr, hcpu⟩⟩

end Action

/-! ## Lines -/

/-- A call leaves the interrupt lines alone. The handlers that the bus itself provides always do. -/
def Devices.KeepsLines {σ : Type} (devices : Devices σ) (call : Call σ) : Prop :=
  match call.callee with
  | .read (.device id) address =>
    ((devices.read id address).run call.bus).value.2.lines = call.bus.lines
  | .write (.device id) address value =>
    ((devices.write id address value).run call.bus).value.2.lines = call.bus.lines
  | .routine id => ((devices.tick id).run call.bus).value.2.lines = call.bus.lines
  | _ => True

namespace Bus

variable {σ : Type} {devices : Devices σ} {bus after : Bus σ} {address : UInt16} {value : UInt8}

/-- A selection that is not refused turns the register and changes the pages; one that is changes
nothing. -/
theorem select_bus_cases (switch bank : Nat) (bus : Bus σ) :
    ((select switch bank).run.run bus).value.2 = bus ∨
      ∃ (register turned : BankSwitch) (pages : PageTable),
        register.select bus.store bus.pages bank = .ok (turned, pages) ∧
        ((select switch bank).run.run bus).value.2 =
          { bus with switches := bus.switches.setIfInBounds switch turned, pages } := by
  unfold select
  rw [run_get_bind]
  cases bus.switches[switch]? with
  | none => exact .inl rfl
  | some register =>
    dsimp only
    cases hselect : register.select bus.store bus.pages bank with
    | error _ => exact .inl rfl
    | ok selected => exact .inr ⟨register, selected.1, selected.2, hselect, rfl⟩

/-- A write to a select register selects a bank if it does anything. -/
theorem writeSwitch_bus_cases (switch : Nat) (value : UInt8) (bus : Bus σ) :
    ((writeSwitch switch value).run bus).value.2 = bus ∨
      ∃ bank, ((writeSwitch switch value).run bus).value.2 =
        ((select switch bank).run.run bus).value.2 := by
  unfold writeSwitch
  rw [StateT.run_bind, StateT.run_get, pure_bind]
  dsimp only
  cases bus.switches[switch]? with
  | none => exact .inl rfl
  | some register =>
    dsimp only
    split
    · exact .inl rfl
    · refine .inr ⟨(value &&& register.mask).toNat, ?_⟩
      rw [StateT.run_bind, Reported.bind_eq]
      cases ((select switch (value &&& register.mask).toNat).run.run bus).value.1 <;> rfl

/-- A read leaves the bus as it is, or as the device has left it that it has called. -/
theorem readResult_bus_cases : (bus.readResult devices address).2 = bus ∨
    ∃ id, ⟨.read (.device id) address, bus⟩ ∈ bus.readCalls address ∧
      (bus.readResult devices address).2 = ((devices.read id address).run bus).value.2 := by
  rw [readResult_eq]
  unfold readCalls
  dsimp only
  cases (bus.pages.page (highByte address)).readView with
  | some view => exact .inl rfl
  | none =>
    cases (bus.pages.page (highByte address)).readHandler with
    | none => exact .inl rfl
    | some handler =>
      cases handler with
      | null => exact .inl rfl
      | device id => exact .inr ⟨id, List.mem_singleton_self _, rfl⟩

/-- A write leaves the bus as it is, but for a byte, or as its handler has left it. -/
theorem writeResult_bus_cases : (bus.writeResult devices address value).2 = bus ∨
    (∃ view, (bus.pages.page (highByte address)).writeView = some view ∧
      (bus.writeResult devices address value).2 =
        { bus with store := bus.store.writeView view (lowByte address) value }) ∨
    (∃ switch, (bus.writeResult devices address value).2 =
      ((writeSwitch switch value).run bus).value.2) ∨
    ∃ id, ⟨.write (.device id) address value, bus⟩ ∈ bus.writeCalls address value ∧
      (bus.writeResult devices address value).2 =
        ((devices.write id address value).run bus).value.2 := by
  rw [writeResult_eq]
  unfold writeCalls
  dsimp only
  cases (bus.pages.page (highByte address)).writeView with
  | some view => exact .inr (.inl ⟨view, rfl, rfl⟩)
  | none =>
    cases (bus.pages.page (highByte address)).writeHandler with
    | none => exact .inl rfl
    | some handler =>
      cases handler with
      | null => exact .inl rfl
      | bankSwitch switch => exact .inr (.inr (.inl ⟨switch, rfl⟩))
      | device id => exact .inr (.inr (.inr ⟨id, List.mem_singleton_self _, rfl⟩))

theorem select_lines (switch bank : Nat) (bus : Bus σ) :
    ((select switch bank).run.run bus).value.2.lines = bus.lines := by
  obtain hbus | ⟨_, _, _, -, hbus⟩ := select_bus_cases switch bank bus <;> rw [hbus]

/-- Bank switching does not concern the lines. -/
theorem writeSwitch_lines (switch : Nat) (value : UInt8) (bus : Bus σ) :
    ((writeSwitch switch value).run bus).value.2.lines = bus.lines := by
  obtain hbus | ⟨bank, hbus⟩ := writeSwitch_bus_cases switch value bus
  · rw [hbus]
  · rw [hbus, select_lines]

theorem readResult_lines (h : ∀ call ∈ bus.readCalls address, devices.KeepsLines call) :
    (bus.readResult devices address).2.lines = bus.lines := by
  obtain hbus | ⟨_, hcall, hbus⟩ := bus.readResult_bus_cases
  · rw [hbus]
  · rw [hbus]
    exact h _ hcall

theorem writeResult_lines (h : ∀ call ∈ bus.writeCalls address value, devices.KeepsLines call) :
    (bus.writeResult devices address value).2.lines = bus.lines := by
  obtain hbus | ⟨_, -, hbus⟩ | ⟨switch, hbus⟩ | ⟨_, hcall, hbus⟩ := bus.writeResult_bus_cases
  · rw [hbus]
  · rw [hbus]
  · rw [hbus, writeSwitch_lines]
  · rw [hbus]
    exact h _ hcall

end Bus

/-- Traffic whose calls leave the lines alone changes at most NMI, and that by releasing it. -/
theorem Traffic.course_lines {σ α : Type} (devices : Devices σ) (t : Traffic α) (bus : Bus σ)
    (h : ∀ call ∈ t.calls devices bus, devices.KeepsLines call) :
    (t.course devices bus).bus.lines =
      if .releaseNmi ∈ (t.course devices bus).exchanges then bus.lines.set .nmi false
      else bus.lines := by
  induction t generalizing bus with
  | done result => rfl
  | read address next ih =>
    rw [calls, List.forall_mem_append] at h
    obtain ⟨haccess, hrest⟩ := h
    have hlines := Bus.readResult_lines haccess
    rw [course]
    cases hread : bus.readResult devices address with
    | mk result after =>
      rw [hread] at hlines hrest
      cases result with
      | error fault => exact hlines
      | ok value =>
        have hafter := ih value after hrest
        rw [hlines] at hafter
        simpa using hafter
  | write address value next ih =>
    rw [calls, List.forall_mem_append] at h
    obtain ⟨haccess, hrest⟩ := h
    have hlines := Bus.writeResult_lines haccess
    rw [course]
    cases hwrite : bus.writeResult devices address value with
    | mk result after =>
      rw [hwrite] at hlines hrest
      cases result with
      | error fault => exact hlines
      | ok _ =>
        have hafter := ih after hrest
        rw [hlines] at hafter
        simpa using hafter
  | releaseNmi next ih =>
    have hafter := ih (bus.setLine .nmi false) h
    have hset : (bus.setLine .nmi false).lines.set .nmi false = bus.lines.set .nmi false := rfl
    have hlines : (bus.setLine .nmi false).lines = bus.lines.set .nmi false := rfl
    rw [hset, hlines, ite_self] at hafter
    rw [course, Course.after_bus, Course.after_exchanges, hafter, if_pos List.mem_cons_self]
  | report event next ih =>
    have hafter := ih bus h
    rw [course]
    simpa using hafter

/-! ## Steps -/

namespace Action

variable {lines : InterruptLines} {cpu cpu' : Cpu} {w : List Exchange} {interrupt : Interrupt}

theorem any_of_eligible (h : interrupt.Eligible lines cpu) : lines.any := by
  unfold InterruptLines.any
  cases interrupt <;> simp [Interrupt.Eligible] at h <;> simp [h]

/-- An asserted line ends SYNC before its interrupt is served. -/
theorem sampled_of_wins (h : interrupt.Wins lines cpu) :
    sampled lines cpu = { cpu with sync := false } := if_pos (any_of_eligible h.1)

theorem wins_unique {other : Interrupt} (h : interrupt.Wins lines cpu)
    (hother : other.Wins lines cpu) : other = interrupt := by
  rw [← pending?_eq_some_iff] at h hother
  exact Option.some.inj (hother.symm.trans h)

theorem releaseNmi_not_mem_pushes (pointer : UInt16) (bytes : List UInt8) :
    .releaseNmi ∉ pushes pointer bytes := by
  induction bytes generalizing pointer with
  | nil => exact List.not_mem_nil
  | cons byte bytes ih => simp [pushes, ih]

/-- A step releases NMI just when it has served it. -/
theorem releaseNmi_mem_iff {outcome} (h : ((step lines).start cpu).Ends w outcome) :
    .releaseNmi ∈ w ↔ Interrupt.nmi.Wins lines cpu ∧ ∃ ended, outcome = .ok ended := by
  by_cases hquiet : ∀ interrupt : Interrupt, ¬ interrupt.Eligible lines cpu
  · refine iff_of_false ?_ fun hwins => hquiet .nmi hwins.1.1
    by_cases hwaits : cpu.Waits lines
    · rw [start_step_of_waits hquiet hwaits] at h
      cases h
      exact List.not_mem_nil
    · rw [start_step_of_not_waits hquiet hwaits] at h
      exact releaseNmi_not_mem h
  · obtain ⟨interrupt, hwins⟩ := exists_wins hquiet
    rw [start_step_of_wins hwins] at h
    cases outcome with
    | error fault =>
      refine iff_of_false (not_mem_of_service_refused h) ?_
      rintro ⟨-, _, hended⟩
      cases hended
    | ok ended =>
      obtain ⟨result, cpu'⟩ := ended
      obtain ⟨high, low, rfl, -, -⟩ := ends_service.mp h
      have hnmi : Interrupt.nmi.Wins lines cpu ↔ interrupt = .nmi :=
        ⟨fun hnmi => wins_unique hnmi hwins, fun hnmi => hnmi ▸ hwins⟩
      rw [hnmi]
      by_cases hi : interrupt = .nmi
      · simp [Interrupt.enters, hi]
      · simp [Interrupt.enters, hi, releaseNmi_not_mem_pushes]

end Action

namespace Machine

variable {σ : Type} (devices : Devices σ) (m : Machine σ)

/-- The accesses of a step that ends in no bus fault have all succeeded. -/
theorem exists_outcome
    (h : ∀ fault, (m.step devices).1 = .error fault → fault.isBusFault = false) :
    ∃ ended, (m.course devices).outcome = .ok ended := by
  cases houtcome : (m.course devices).outcome with
  | ok ended => exact ⟨ended, rfl⟩
  | error fault =>
    have hbus : fault.isBusFault := (m.course_ends devices houtcome).isBusFault
    obtain ⟨_, hok, -⟩ | ⟨_, _, hok, -⟩ | ⟨_, herror, _, hstep⟩ := m.step_cases devices
    · rw [houtcome] at hok
      cases hok
    · rw [houtcome] at hok
      cases hok
    · rw [houtcome] at herror
      cases herror
      rw [h fault (by rw [hstep])] at hbus
      cases hbus

/-- The step serves the interrupt and executes nothing: it saves what the interrupt saves, reads the
two bytes of the interrupt's vector, and goes on there with the interrupt's masks set and both wait
states ended. -/
structure Serves (interrupt : Interrupt) (high low : UInt8) : Prop where
  ok : (m.step devices).1 = .ok ()
  exchanges : (m.course devices).exchanges = pushes m.cpu.regs.s (interrupt.saves m.cpu) ++
    [.read interrupt.vector high, .read (interrupt.vector + 1) low] ++
    interrupt.enters (joinBytes high low)
  pc : (m.step devices).2.cpu.regs.pc = joinBytes high low
  cc : (m.step devices).2.cpu.regs.cc = { m.cpu.regs.cc with
    entire := if m.cpu.cwai then m.cpu.regs.cc.entire else interrupt != .firq
    firqMask := interrupt != .irq || m.cpu.regs.cc.firqMask
    irqMask := interrupt != .firq || m.cpu.regs.cc.irqMask }
  cwai : (m.step devices).2.cpu.cwai = false
  sync : (m.step devices).2.cpu.sync = false

variable {m}

/-- A step that the bus does not refuse serves the interrupt that wins. -/
theorem serves_of_wins {interrupt : Interrupt} (hwins : interrupt.Wins m.bus.lines m.cpu)
    {ended} (houtcome : (m.course devices).outcome = .ok ended) :
    ∃ high low, m.Serves devices interrupt high low := by
  obtain ⟨result, cpu⟩ := ended
  have hends := m.course_ends devices houtcome
  rw [Action.start_step_of_wins hwins, Action.sampled_of_wins hwins] at hends
  obtain ⟨high, low, hexchanges, rfl, rfl⟩ := Action.ends_service.mp hends
  obtain ⟨hresult, hcpu, -⟩ := m.step_of_outcome devices houtcome
  refine ⟨high, low, hresult, hexchanges, ?_, ?_, ?_, ?_⟩
  · rw [hcpu]
  · rw [hcpu]
    unfold Interrupt.saved
    cases interrupt <;> cases m.cpu.cwai <;> rfl
  · rw [hcpu]
  · rw [hcpu]
    unfold Interrupt.saved
    cases m.cpu.cwai <;> rfl

/-- A step without an eligible interrupt idles just while the processor waits: an instruction reads
its opcode or is refused it. -/
theorem waits_iff_of_quiet (hquiet : m.Quiet) : m.cpu.Waits m.bus.lines ↔
    (m.course devices).exchanges = [] ∧ (m.step devices).1 = .ok () := by
  constructor
  · intro hwaits
    rw [m.step_of_waits devices hquiet hwaits, course, Action.start_step_of_waits hquiet hwaits]
    exact ⟨rfl, rfl⟩
  · rintro ⟨hnone, hok⟩
    by_contra hawake
    obtain ⟨ended, houtcome⟩ := m.exists_outcome devices fun fault herror => by
      rw [hok] at herror
      cases herror
    have hends := m.course_ends devices houtcome
    rw [hnone, Action.start_step_of_not_waits hquiet hawake] at hends
    unfold Action.instruction at hends
    rw [Action.start_bind, Action.start_fetch, Traffic.read_bind, Traffic.ends_read_ok] at hends
    obtain ⟨_, _, hread, -⟩ := hends
    cases hread

variable (m)

/-- What a step does about the interrupt lines. Of the eligible interrupts it serves the first. With
none it idles while the processor waits, and an asserted line ends SYNC; or it executes an
instruction, with SYNC clear. It releases no line but NMI, and that when it has served NMI. So lines
are lost only to handlers. -/
theorem step_arbitrates :
    (¬ m.Quiet → (∀ fault, (m.step devices).1 = .error fault → fault.isBusFault = false) →
      ∃ interrupt : Interrupt, interrupt.Wins m.bus.lines m.cpu ∧
        ∃ high low, m.Serves devices interrupt high low) ∧
    (m.Quiet →
      (m.cpu.Waits m.bus.lines ↔
        (m.course devices).exchanges = [] ∧ (m.step devices).1 = .ok ()) ∧
      (m.cpu.Waits m.bus.lines → m.step devices = (.ok (), { m with
        cpu := { m.cpu with
          sync := m.cpu.sync && !m.bus.lines.any
          clock := m.cpu.clock + 1 }
        fault := none })) ∧
      (¬ m.cpu.Waits m.bus.lines → m.course devices =
        (Action.instruction.start { m.cpu with sync := false }).course devices m.bus)) ∧
    (.releaseNmi ∈ (m.course devices).exchanges ↔
      Interrupt.nmi.Wins m.bus.lines m.cpu ∧ (m.step devices).1 = .ok ()) ∧
    ((∀ call ∈ ((Action.step m.bus.lines).start m.cpu).calls devices m.bus,
        devices.KeepsLines call) →
      (m.step devices).2.bus.lines =
        if .releaseNmi ∈ (m.course devices).exchanges then m.bus.lines.set .nmi false
        else m.bus.lines) := by
  refine ⟨fun hsome haccesses => ?_, fun hquiet => ⟨waits_iff_of_quiet devices hquiet,
    fun hwaits => ?_, fun hawake => ?_⟩, ?_, fun hcalls => ?_⟩
  · obtain ⟨interrupt, hwins⟩ := Action.exists_wins hsome
    obtain ⟨ended, houtcome⟩ := m.exists_outcome devices haccesses
    exact ⟨interrupt, hwins, serves_of_wins devices hwins houtcome⟩
  · have hsampled : Action.sampled m.bus.lines m.cpu =
        { m.cpu with sync := m.cpu.sync && !m.bus.lines.any } := by
      unfold Action.sampled
      cases m.bus.lines.any <;> simp
    rw [m.step_of_waits devices hquiet hwaits, hsampled]
  · rw [course, Action.start_step_of_not_waits hquiet hawake]
  · rw [Action.releaseNmi_mem_iff (m.course_ends devices rfl)]
    refine and_congr_right fun hwins => ⟨?_, fun hok => ?_⟩
    · rintro ⟨ended, houtcome⟩
      obtain ⟨_, _, hserves⟩ := serves_of_wins devices hwins houtcome
      exact hserves.ok
    · refine m.exists_outcome devices fun fault herror => ?_
      rw [hok] at herror
      cases herror
  · rw [step_bus]
    exact Traffic.course_lines devices _ _ hcalls

/-- In CWAI and SYNC with all lines asserted, NMI not armed and FIRQ masked. Memory is full of
RTI. -/
def lastInLine : Machine Unit where
  cpu := {
    regs := { cc := { firqMask := true }, pc := 0x4000, s := 0x8000 }
    cwai := true
    sync := true }
  bus := { Bus.ofMemory (fun _ => 0x3B) () with
    lines := { nmi := true, firq := true, irq := true } }

theorem step_arbitrates_lastInLine :
    (∃ high low, lastInLine.Serves Devices.none .irq high low) ∧
      (lastInLine.step Devices.none).2.bus.lines = { nmi := true, firq := true, irq := true } := by
  have hwins : Interrupt.irq.Wins lastInLine.bus.lines lastInLine.cpu := by
    refine ⟨⟨rfl, by decide⟩, ?_⟩
    rw [Interrupt.forall_iff]
    exact ⟨fun _ h => absurd h.2 (by decide), fun _ h => h.2 rfl,
      fun hlt => absurd hlt (by decide)⟩
  have hflat : lastInLine.bus.IsFlat := ((Bus.isFlat_ofMemory (fun _ => 0x3B) ()).withLines _).1
  have haccesses (fault : Fault) (hstep : (lastInLine.step Devices.none).1 = .error fault) :
      fault.isBusFault = false := by
    by_contra hfault
    obtain ⟨hrefused, -⟩ := lastInLine.step_of_busFault Devices.none hstep (by simpa using hfault)
    have hreturned := (Traffic.course_of_isFlat Devices.none
      ((Action.step lastInLine.bus.lines).start lastInLine.cpu) hflat).1
    rw [← course, hrefused] at hreturned
    cases hreturned
  have hcalls (call : Call Unit) : Devices.none.KeepsLines call := by
    unfold Devices.KeepsLines
    split <;> trivial
  obtain ⟨hserves, -, hrelease, hlines⟩ := lastInLine.step_arbitrates Devices.none
  obtain ⟨interrupt, hinterrupt, hserved⟩ := hserves (fun hquiet => hquiet .irq hwins.1) haccesses
  obtain rfl := Action.wins_unique hwins hinterrupt
  refine ⟨hserved, ?_⟩
  rw [hlines fun call _ => hcalls call, if_neg fun hmem => ?_]
  · rfl
  · exact absurd (hrelease.mp hmem).1.1.2 (by decide)

end Machine

end Mc6809
