/-
  A step of the machine is a transaction on the processor. `Machine.course` is the course of
  its traffic, and `step_cases` says what each of the three outcomes of the course makes of the
  machine: a return and a decode fault keep the processor's new state, a refusal keeps the old
  one.

  `step_busFault_atomic` is the law for refusals as a host sees it. What it needs of the
  code are two facts about every path: the processor throws no bus fault of its own
  (`Law.decoding`), and once it has released NMI it asks for nothing that could be refused
  (`not_mem_of_step_refused`).
-/
import Mc6809.Proofs.Law

namespace Mc6809

namespace Action

/-! ## The NMI line -/

/-- The NMI line is left alone. -/
def Law.quiet : Law where
  Returned _ w _ := .releaseNmi ∉ w
  Thrown _ w _ _ := .releaseNmi ∉ w
  Refused _ w := .releaseNmi ∉ w
  refl _ := List.not_mem_nil
  returned h h' hmem := (List.mem_append.mp hmem).elim h h'
  thrown h h' hmem := (List.mem_append.mp hmem).elim h h'
  refused h h' hmem := (List.mem_append.mp hmem).elim h h'

instance : AllowsRegs Law.quiet := ⟨fun _ _ => List.not_mem_nil⟩
instance : AllowsReads Law.quiet where
  read _ _ _ := by simp [Law.quiet]
  refused _ := List.not_mem_nil
instance : AllowsWrites Law.quiet where
  write _ _ _ := by simp [Law.quiet]
  refused _ := List.not_mem_nil
instance : AllowsReports Law.quiet where
  report _ _ := by simp [Law.quiet]
instance : AllowsCharges Law.quiet := ⟨fun _ _ => List.not_mem_nil⟩
instance : AllowsArming Law.quiet := ⟨fun _ => List.not_mem_nil⟩
instance : AllowsWaiting Law.quiet := ⟨fun _ => List.not_mem_nil, fun _ => List.not_mem_nil⟩
instance : AllowsWaking Law.quiet := ⟨fun _ => List.not_mem_nil, fun _ => List.not_mem_nil⟩
instance : AllowsFaults Law.quiet := ⟨fun _ _ _ => List.not_mem_nil⟩

/-- However it ends, an action under this law has not released NMI. -/
theorem releaseNmi_not_mem {α : Type} {action : Action α} [Obeys Law.quiet action] {cpu : Cpu}
    {w : List Exchange} {outcome} (h : (action.start cpu).Ends w outcome) : .releaseNmi ∉ w := by
  cases outcome with
  | error fault => exact Law.quiet.of_refused h
  | ok ended =>
    obtain ⟨result, cpu'⟩ := ended
    cases result with
    | ok _ => exact Law.quiet.of_returned h
    | error _ => exact Law.quiet.of_thrown h

/-- Entering a handler asks for nothing that can be refused. -/
theorem enter_not_refused {interrupt : Interrupt} {handler : UInt16} {cpu : Cpu}
    {w : List Exchange} {fault : Fault} :
    ¬ ((enter interrupt handler).start cpu).Ends w (.error fault) := by
  intro h
  unfold enter at h
  by_cases hnmi : interrupt = .nmi
  · simp only [hnmi, if_true, start_bind, start_modify, Traffic.done_bind, start_releaseNmi,
      Traffic.releaseNmi_bind, start_report] at h
    cases h with
    | releaseNmi h =>
      cases h with
      | report h => cases h
  · simp only [hnmi, if_false, start_bind, start_modify, Traffic.done_bind, start_report] at h
    cases h with
    | report h => cases h

/-- Servicing an interrupt is refused, if at all, before it releases NMI. -/
theorem not_mem_of_service_refused {interrupt : Interrupt} {cpu : Cpu} {w : List Exchange}
    {fault : Fault} (h : ((service interrupt).start cpu).Ends w (.error fault)) :
    .releaseNmi ∉ w := by
  rw [service_eq, start_bind] at h
  obtain ⟨_, hprepare, -⟩ | ⟨⟨result, mid⟩, first, second, rfl, -, henter⟩ := h.of_bind
  · exact releaseNmi_not_mem hprepare
  · cases result with
    | ok handler => exact absurd henter enter_not_refused
    | error _ => cases henter

/-- A step is refused, if at all, before it releases NMI. -/
theorem not_mem_of_step_refused {lines : InterruptLines} {cpu : Cpu} {w : List Exchange}
    {fault : Fault} (h : ((step lines).start cpu).Ends w (.error fault)) :
    .releaseNmi ∉ w := by
  rw [start_step] at h
  split at h
  · exact not_mem_of_service_refused h
  · split at h
    · cases h
    · exact releaseNmi_not_mem h

/-- Only an instruction finds a fault. -/
theorem instruction_of_step_error {lines : InterruptLines} {cpu cpu' : Cpu} {w : List Exchange}
    {fault : Fault} (h : (step lines).Ends cpu w (.error fault) cpu') :
    instruction.Ends (sampled lines cpu) w (.error fault) cpu' := by
  rw [Ends, start_step] at h
  split at h
  · exact (Law.faultless.of_thrown h).elim
  · split at h
    · exact (Law.faultless.of_thrown h).elim
    · exact h

end Action

namespace Machine

variable {σ : Type} (devices : Devices σ) (m : Machine σ)

/-- The course of a step's traffic on the machine's bus. -/
def course : Course σ (Except Fault Unit × Cpu) :=
  ((Action.step m.bus.lines).start m.cpu).course devices m.bus

/-- The course of a step leads along its exchanges to its outcome. -/
theorem course_ends {outcome} (h : (m.course devices).outcome = outcome) :
    ((Action.step m.bus.lines).start m.cpu).Ends (m.course devices).exchanges outcome := by
  rw [← h]
  exact Traffic.course_ends devices _ m.bus

/-- A change of the bus touches the bus and the log. -/
theorem onBus_eq {α : Type} (change : BusM σ α) :
    ∃ log, m.onBus change =
      ((change.run m.bus).value.1, { m with bus := (change.run m.bus).value.2, log }) :=
  ⟨_, rfl⟩

/-- Performing traffic changes the bus and the log as the course says. -/
theorem perform_eq {α : Type} (traffic : Traffic α) :
    ∃ log, m.perform devices traffic =
      ((traffic.course devices m.bus).outcome,
        { m with bus := (traffic.course devices m.bus).bus, log }) := by
  obtain ⟨log, honBus⟩ := m.onBus_eq (traffic.perform devices).run
  rw [traffic.perform_eq_course devices m.bus] at honBus
  exact ⟨log, honBus⟩

/-- What a step makes of the machine. -/
theorem step_cases :
    (∃ cpu, (m.course devices).outcome = .ok (.ok (), cpu) ∧ ∃ log, m.step devices =
      (.ok (), { m with cpu, fault := none, bus := (m.course devices).bus, log })) ∨
    (∃ fault cpu, (m.course devices).outcome = .ok (.error fault, cpu) ∧ ∃ log, m.step devices =
      (.error fault, { m with cpu, fault := some fault, bus := (m.course devices).bus, log })) ∨
    (∃ fault, (m.course devices).outcome = .error fault ∧ ∃ log, m.step devices =
      (.error fault, { m with fault := some fault, bus := (m.course devices).bus, log })) := by
  obtain ⟨log, hperform⟩ := m.perform_eq devices ((Action.step m.bus.lines).start m.cpu)
  rw [← course] at hperform
  unfold step
  rw [hperform]
  rcases (m.course devices).outcome with fault | ⟨fault | _, cpu⟩
  · exact .inr (.inr ⟨fault, rfl, _, rfl⟩)
  · exact .inr (.inl ⟨fault, cpu, rfl, _, rfl⟩)
  · exact .inl ⟨cpu, rfl, log, rfl⟩

/-- A step that the bus does not refuse ends as its course does, and records how. -/
theorem step_of_outcome {result : Except Fault Unit} {cpu : Cpu}
    (h : (m.course devices).outcome = .ok (result, cpu)) :
    (m.step devices).1 = result ∧ (m.step devices).2.cpu = cpu ∧
      (m.step devices).2.bus = (m.course devices).bus ∧
      ∀ fault, result = .error fault → (m.step devices).2.fault = some fault := by
  obtain ⟨_, houtcome, _, hstep⟩ | ⟨_, _, houtcome, _, hstep⟩ | ⟨_, houtcome, -⟩ :=
    m.step_cases devices
  · rw [h] at houtcome
    cases houtcome
    rw [hstep]
    exact ⟨rfl, rfl, rfl, fun fault hfault => nomatch hfault⟩
  · rw [h] at houtcome
    cases houtcome
    rw [hstep]
    exact ⟨rfl, rfl, rfl, fun fault hfault => congrArg some (Except.error.inj hfault)⟩
  · rw [h] at houtcome
    cases houtcome

variable {τ : Type} {others : Devices τ} {other : Machine τ} in
/-- What a step comes to is fixed by its outcome and by the processor before it, whatever the
board. -/
theorem step_congr (hcpu : other.cpu = m.cpu)
    (houtcome : (other.course others).outcome = (m.course devices).outcome) :
    (other.step others).1 = (m.step devices).1 ∧
      (other.step others).2.cpu = (m.step devices).2.cpu ∧
      (other.step others).2.fault = (m.step devices).2.fault := by
  obtain ⟨_, hm, _, hstep⟩ | ⟨_, _, hm, _, hstep⟩ | ⟨_, hm, _, hstep⟩ := m.step_cases devices <;>
    obtain ⟨_, ho, _, hstep'⟩ | ⟨_, _, ho, _, hstep'⟩ | ⟨_, ho, _, hstep'⟩ :=
      other.step_cases others <;>
    rw [houtcome, hm] at ho <;>
    cases ho <;>
    rw [hstep, hstep'] <;>
    simp [hcpu]

/-- The bus is left as the course of the step leaves it. -/
theorem step_bus : (m.step devices).2.bus = (m.course devices).bus := by
  obtain ⟨_, _, _, hstep⟩ | ⟨_, _, _, _, hstep⟩ | ⟨_, _, _, hstep⟩ := m.step_cases devices <;>
    rw [hstep]

/-! ## Resets -/

/-- The machine that a reset has cleared and that has not found its vector yet. -/
def cleared : Machine σ := { m with
  cpu := { regs := { m.cpu.regs with dp := 0, cc := Flags.afterReset } }
  fault := none
  timer := m.timer.map Timer.restart
  bus := { m.bus with lines := {} } }

/-- What a reset makes of a machine, whether the vector can be read or not. -/
theorem reset_cases :
    (∃ pc bus log, m.reset devices =
      (.ok (), { m.cleared with cpu.regs.pc := pc, bus := bus, log := log })) ∨
    ∃ fault bus log, fault.isBusFault ∧ m.reset devices =
      (.error fault, { m.cleared with fault := some fault, bus := bus, log := log }) := by
  obtain ⟨log, hperform⟩ := m.cleared.perform_eq devices
    ((Action.readWord resetVector).start { regs := { m.cpu.regs with dp := 0, cc := .afterReset } })
  have hends := Traffic.course_ends devices
    ((Action.readWord resetVector).start { regs := { m.cpu.regs with dp := 0, cc := .afterReset } })
    m.cleared.bus
  unfold reset
  dsimp only
  rw [← cleared, hperform]
  rcases houtcome : (Traffic.course devices _ _).outcome with fault | ⟨fault | pc, cpu⟩
  · rw [houtcome] at hends
    exact .inr ⟨fault, _, _, hends.isBusFault, rfl⟩
  · rw [houtcome] at hends
    exact (Action.Law.faultless.of_thrown hends).elim
  · rw [houtcome] at hends
    have hcpu : cpu = m.cleared.cpu := (Action.Law.keeps id).of_returned hends
    rw [hcpu]
    exact .inl ⟨pc, _, _, rfl⟩

/-! ## Bus faults -/

/-- A bus fault is a refusal: the processor throws none itself. -/
theorem step_of_busFault {fault : Fault} (hstep : (m.step devices).1 = .error fault)
    (hfault : fault.isBusFault) :
    (m.course devices).outcome = .error fault ∧ ∃ log, (m.step devices).2 =
      { m with fault := some fault, bus := (m.course devices).bus, log } := by
  obtain ⟨cpu, -, log, h⟩ | ⟨thrown, cpu, houtcome, log, h⟩ | ⟨refused, houtcome, log, h⟩ :=
    m.step_cases devices
  · rw [h] at hstep
    cases hstep
  · rw [h] at hstep
    cases hstep
    have hdecode : fault.isBusFault = false :=
      Action.Law.decoding.of_thrown (m.course_ends devices houtcome)
    rw [hdecode] at hfault
    cases hfault
  · rw [h] at hstep ⊢
    cases hstep
    exact ⟨houtcome, log, rfl⟩

/-- Any other fault is one that the processor throws. -/
theorem outcome_of_decodeFault {fault : Fault} (hstep : (m.step devices).1 = .error fault)
    (hfault : fault.isBusFault = false) :
    ∃ cpu, (m.course devices).outcome = .ok (.error fault, cpu) := by
  obtain ⟨cpu, -, log, h⟩ | ⟨thrown, cpu, houtcome, log, h⟩ | ⟨refused, houtcome, log, h⟩ :=
    m.step_cases devices
  · rw [h] at hstep
    cases hstep
  · rw [h] at hstep
    cases hstep
    exact ⟨cpu, houtcome⟩
  · rw [h] at hstep
    cases hstep
    have hbus : fault.isBusFault := (m.course_ends devices houtcome).isBusFault
    rw [hfault] at hbus
    cases hbus

/-- A step that ends in a bus fault leaves the processor as it was and records the fault. If
no handler took part, the lines and the pages are as they were too, and a byte of storage that
changed is the target of a write that the step had completed. -/
theorem step_busFault_atomic {fault : Fault} (hstep : (m.step devices).1 = .error fault)
    (hfault : fault.isBusFault) :
    (m.step devices).2.cpu = m.cpu ∧ (m.step devices).2.fault = some fault ∧
      ((m.course devices).handled = false →
        (m.step devices).2.bus.lines = m.bus.lines ∧
        (m.step devices).2.bus.pages = m.bus.pages ∧
        ∀ block offset,
          (m.step devices).2.bus.store.get? block offset ≠ m.bus.store.get? block offset →
          ∃ address value, .write address value ∈ (m.course devices).exchanges ∧
            m.bus.cell? address = some (block, offset)) := by
  obtain ⟨houtcome, log, hafter⟩ := m.step_of_busFault devices hstep hfault
  rw [hafter]
  refine ⟨rfl, rfl, fun hquiet => ?_⟩
  have hbus := Traffic.course_of_unhandled devices _ m.bus hquiet
  rw [← course] at hbus
  dsimp only
  rw [hbus]
  refine ⟨?_, Bus.replay_pages _ _, fun block offset => Bus.exists_write_of_replay_ne⟩
  exact Bus.replay_lines _ _ (Action.not_mem_of_step_refused (m.course_ends devices houtcome))

/-- A processor on one page of memory. Every byte of it is 0x34, so the first instruction
pushes Y, X and B, and S stands three bytes above the end of the page. -/
def edge : Machine Unit where
  cpu := { regs := { b := 0x56, x := 0x789A, y := 0xBCDE, s := 0x0003, pc := 0x0080 } }
  bus := {
    pages := PageTable.unmapped.update 0 (·.putView .readWrite (some ⟨⟨0⟩, 0⟩))
    store := ⟨#[Array.replicate 256 0x34]⟩
    devices := () }

theorem step_busFault_atomic_edge :
    (edge.step Devices.none).2.cpu = edge.cpu ∧
      (edge.step Devices.none).2.fault = some (.unmappedWrite 0xFFFF 0x78) ∧
      (edge.step Devices.none).2.bus.pages = edge.bus.pages := by
  have hstep : (edge.step Devices.none).1 = .error (.unmappedWrite 0xFFFF 0x78) := by
    decide +kernel
  have hquiet : (edge.course Devices.none).handled = false := by
    decide +kernel
  obtain ⟨hcpu, hrecorded, hbus⟩ := edge.step_busFault_atomic Devices.none hstep rfl
  exact ⟨hcpu, hrecorded, (hbus hquiet).2.1⟩

end Machine

end Mc6809
