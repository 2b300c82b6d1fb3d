/-
  The clock is written and never read. An action that starts later asks the same of the bus,
  ends with the same result and in the same state, and is later by as much (`Action.Timeless`).
  This passes from the parts of a sequence to the whole, so that for the code of an instruction it
  is found part by part, as obedience to a law is.

  Hence machines that agree but for their clocks (`Machine.Later`) stay so by steps and by
  the steps of a run, with the same results and the same costs. A run tells the time only by
  differences, so it does the same from both (`Later.runSteps`).
-/
import Mc6809.Laps
import Mc6809.Proofs.Visits

namespace Mc6809

namespace Action

variable {α β γ : Type}

/-! ## Actions -/

/-- How an action ends, later. -/
def laterEnd (cycles : UInt64) (ended : Except Fault α × Cpu) : Except Fault α × Cpu :=
  (ended.1, ended.2.later cycles)

/-- Started later, the action does the same and ends later. -/
class Timeless (action : Action α) : Prop where
  start_later : ∀ cpu cycles,
    action.start (cpu.later cycles) = laterEnd cycles <$> action.start cpu

/-- An action that asks for nothing and looks at no clock. -/
theorem timeless_of_done {action : Action α} (result : Cpu → Except Fault α) (next : Cpu → Cpu)
    (hstart : ∀ cpu, action.start cpu = .done (result cpu, next cpu))
    (hresult : ∀ cpu cycles, result (cpu.later cycles) = result cpu)
    (hnext : ∀ cpu cycles, next (cpu.later cycles) = (next cpu).later cycles) :
    Timeless action where
  start_later cpu cycles := by
    rw [hstart, hstart, hresult, hnext]
    rfl

instance timeless_pure (a : α) : Timeless (pure a : Action α) :=
  timeless_of_done (fun _ => .ok a) id (fun _ => rfl) (fun _ _ => rfl) fun _ _ => rfl

instance timeless_throw {fault : Fault} : Timeless (throw fault : Action α) :=
  timeless_of_done (fun _ => .error fault) id (fun _ => rfl) (fun _ _ => rfl) fun _ _ => rfl

instance timeless_ofExcept {result : Except Fault α} :
    Timeless (MonadExcept.ofExcept result : Action α) :=
  timeless_of_done (fun _ => result) id (start_ofExcept result) (fun _ _ => rfl) fun _ _ => rfl

instance timeless_regs : Timeless regs :=
  timeless_of_done (fun cpu => .ok cpu.regs) id (fun _ => rfl) (fun _ _ => rfl) fun _ _ => rfl

theorem timeless_modify {f : Cpu → Cpu} (h : ∀ cpu cycles, f (cpu.later cycles) =
    (f cpu).later cycles) : Timeless (modify f : Action Unit) :=
  timeless_of_done (fun _ => .ok ()) f (fun _ => rfl) (fun _ _ => rfl) h

/-- The second part starts where the first one has ended, and that is later by as much. -/
instance timeless_bind {action : Action α} {f : α → Action β} [Timeless action]
    [∀ a, Timeless (f a)] : Timeless (action >>= f) where
  start_later cpu cycles := by
    rw [start_bind, start_bind, Timeless.start_later, bind_map_left, map_bind]
    refine bind_congr fun ended => ?_
    obtain ⟨fault | a, mid⟩ := ended
    · rfl
    · exact Timeless.start_later mid cycles

instance timeless_map {f : α → β} {action : Action α} [Timeless action] :
    Timeless (f <$> action) :=
  inferInstanceAs (Timeless (action >>= fun a => pure (f a)))

instance timeless_ite {p : Prop} [Decidable p] {yes no : Action α} [Timeless yes]
    [Timeless no] : Timeless (if p then yes else no) := by
  split <;> infer_instance

instance timeless_forM {l : List γ} {f : γ → Action PUnit} [h : ∀ x, Timeless (f x)] :
    Timeless (l.forM f) := by
  induction l with
  | nil => exact timeless_pure _
  | cons x l ih => exact inferInstanceAs (Timeless (f x >>= fun _ => l.forM f))

/-! ### Registers, clock and bus -/

instance timeless_modifyRegs {f : Registers → Registers} : Timeless (modifyRegs f) :=
  timeless_modify fun _ _ => rfl

instance timeless_modifyFlags {f : Flags → Flags} : Timeless (modifyFlags f) :=
  timeless_modifyRegs

instance timeless_jump {address : UInt16} : Timeless (jump address) :=
  timeless_modifyRegs

instance timeless_charge {cost : UInt64} : Timeless (charge cost) := by
  refine timeless_modify fun cpu cycles => ?_
  have hclock : cpu.clock + cycles + cost = cpu.clock + cost + cycles := by grind
  exact congrArg (fun clock => { cpu with clock }) hclock

instance timeless_read {address : UInt16} : Timeless (read address) := ⟨fun _ _ => rfl⟩

instance timeless_write {address : UInt16} {value : UInt8} : Timeless (write address value) :=
  ⟨fun _ _ => rfl⟩

instance timeless_releaseNmi : Timeless releaseNmi := ⟨fun _ _ => rfl⟩

instance timeless_report {event : Event} : Timeless (report event) := ⟨fun _ _ => rfl⟩

instance timeless_loadRegister {reg : Register} {value : UInt16} :
    Timeless (loadRegister reg value) := by
  have : Timeless (modify fun cpu => { cpu with nmiArmed := true } : Action Unit) :=
    timeless_modify fun _ _ => rfl
  unfold loadRegister
  infer_instance

instance timeless_fetch : Timeless fetch := by
  unfold fetch
  infer_instance

instance timeless_fetchWord : Timeless fetchWord := by
  unfold fetchWord
  infer_instance

instance timeless_readWord {address : UInt16} : Timeless (readWord address) := by
  unfold readWord
  infer_instance

instance timeless_writeWord {address value : UInt16} : Timeless (writeWord address value) := by
  unfold writeWord
  infer_instance

/-! ### Stacks -/

section Stacks

variable {stack : IndexRegister}

instance timeless_pushByte {value : UInt8} : Timeless (pushByte stack value) := by
  unfold pushByte
  infer_instance

instance timeless_pushWord {value : UInt16} : Timeless (pushWord stack value) := by
  unfold pushWord
  infer_instance

instance timeless_pullByte : Timeless (pullByte stack) := by
  unfold pullByte
  infer_instance

instance timeless_pullWord : Timeless (pullWord stack) := by
  unfold pullWord
  infer_instance

set_option synthInstance.maxSize 4000 in
instance timeless_stackEntireState : Timeless stackEntireState := by
  unfold stackEntireState
  infer_instance

instance timeless_pushRegister {reg : Register} : Timeless (pushRegister stack reg) := by
  unfold pushRegister
  infer_instance

instance timeless_pullRegister {reg : Register} : Timeless (pullRegister stack reg) := by
  unfold pullRegister
  infer_instance

end Stacks

/-! ### Operands -/

section Operands

variable {mode : AddressingMode}

instance timeless_directAddress : Timeless directAddress := by
  unfold directAddress
  infer_instance

instance timeless_relativeAddress : Timeless relativeAddress := by
  unfold relativeAddress
  infer_instance

instance timeless_longRelativeAddress : Timeless longRelativeAddress := by
  unfold longRelativeAddress
  infer_instance

instance timeless_indexedBase {register : IndexRegister} {mode : IndexedMode} :
    Timeless (indexedBase register mode) := by
  unfold indexedBase
  cases mode <;> infer_instance

instance timeless_indexedAddress : Timeless indexedAddress := by
  unfold indexedAddress
  infer_instance

instance timeless_effectiveAddress : Timeless (effectiveAddress mode) := by
  cases mode <;> unfold effectiveAddress <;> infer_instance

instance timeless_operand8 : Timeless (operand8 mode) := by
  cases mode <;> unfold operand8 <;> infer_instance

instance timeless_operand16 : Timeless (operand16 mode) := by
  cases mode <;> unfold operand16 <;> infer_instance

end Operands

/-! ### Operations and instructions -/

instance timeless_softwareInterrupt {kind : SoftwareInterrupt} :
    Timeless (Action.softwareInterrupt kind) := by
  unfold Action.softwareInterrupt
  infer_instance

set_option synthInstance.maxSize 4000 in
instance timeless_returnFromInterrupt : Timeless returnFromInterrupt := by
  unfold returnFromInterrupt
  infer_instance

instance timeless_waitForInterrupt : Timeless waitForInterrupt := by
  have : Timeless (modify fun cpu => { cpu with cwai := true } : Action Unit) :=
    timeless_modify fun _ _ => rfl
  unfold waitForInterrupt
  infer_instance

instance timeless_execute {operation : Operation} {mode : AddressingMode} :
    Timeless (operation.execute mode) := by
  have : Timeless (modify fun cpu => { cpu with sync := true } : Action Unit) :=
    timeless_modify fun _ _ => rfl
  cases operation <;>
    simp only [Operation.execute, Action.modifyMemory, modifyAccumulator, binary8, compare8,
      binary16, compare16, load8, store8, load16, store16, Action.loadAddress, Action.branch,
      Action.longBranch, Action.call, Action.push, Action.pull, Action.exchange,
      Action.transfer] <;>
    infer_instance

instance timeless_dispatch {page : OpcodePage} {opcode : UInt8} {length : UInt16} :
    Timeless (dispatch page opcode length) := by
  unfold dispatch
  cases Opcode.find? page opcode with
  | none => infer_instance
  | some entry => cases Operation.ofOpcode page opcode <;> infer_instance

instance timeless_instruction : Timeless instruction := by
  unfold instruction
  infer_instance

/-! ### Interrupts and steps -/

/-- Whether the registers are stacked does not depend on the clock. -/
instance timeless_prepare {interrupt : Interrupt} : Timeless (prepare interrupt) where
  start_later cpu cycles := by
    have hsave : Timeless (saveState interrupt) := by
      cases interrupt <;> unfold saveState <;> infer_instance
    have hprepare (stacked : Bool) : Timeless (do
        if !stacked then saveState interrupt
        modifyFlags (maskFor interrupt)
        readWord interrupt.vector) := inferInstance
    exact (hprepare cpu.cwai).start_later cpu cycles

instance timeless_enter {interrupt : Interrupt} {handler : UInt16} :
    Timeless (enter interrupt handler) := by
  have : Timeless (modify fun cpu => { cpu with regs.pc := handler, cwai := false }
      : Action Unit) := timeless_modify fun _ _ => rfl
  unfold enter
  infer_instance

instance timeless_service {interrupt : Interrupt} : Timeless (service interrupt) := by
  rw [service_eq]
  infer_instance

theorem sampled_later (lines : InterruptLines) (cpu : Cpu) (cycles : UInt64) :
    sampled lines (cpu.later cycles) = (sampled lines cpu).later cycles := by
  unfold sampled
  split <;> rfl

/-- Nor does it matter for what the processor does in a step. -/
instance timeless_step {lines : InterruptLines} : Timeless (step lines) where
  start_later cpu cycles := by
    have hpending : pending? lines ((sampled lines cpu).later cycles) =
        pending? lines (sampled lines cpu) := rfl
    rw [start_step, start_step, sampled_later, hpending]
    cases pending? lines (sampled lines cpu) with
    | some interrupt => exact Timeless.start_later _ cycles
    | none =>
      have hidle (waits : Bool) : Timeless (if waits then charge 1 else instruction) :=
        inferInstance
      exact (hidle _).start_later _ cycles

/-- The cost of a step does not depend on when it is taken. -/
theorem stepCost?_later (lines : InterruptLines) (cpu : Cpu) (cycles : UInt64)
    (bytes : List UInt8) (r : Except Fault Unit) :
    stepCost? lines (cpu.later cycles) bytes r = stepCost? lines cpu bytes r := by
  cases r with
  | error fault => rfl
  | ok _ =>
    unfold stepCost?
    rw [sampled_later]
    rfl

end Action

/-! ## Courses -/

/-- The course with another result, when there is a result. -/
def Course.map {σ α β : Type} (f : α → β) (course : Course σ α) : Course σ β :=
  ⟨course.exchanges, course.handled, course.outcome.map f, course.bus⟩

theorem Traffic.course_map {σ α β : Type} (devices : Devices σ) (f : α → β) (t : Traffic α)
    (bus : Bus σ) : (f <$> t).course devices bus = (t.course devices bus).map f := by
  rw [map_eq_pure_bind]
  induction t generalizing bus with
  | done result => rfl
  | read address next ih =>
    rw [read_bind, course, course]
    rcases bus.readResult devices address with ⟨fault | value, after⟩
    · rfl
    · exact congrArg (Course.after · (.read address value) _) (ih value after)
  | write address value next ih =>
    rw [write_bind, course, course]
    rcases bus.writeResult devices address value with ⟨fault | _, after⟩
    · rfl
    · exact congrArg (Course.after · (.write address value) _) (ih after)
  | releaseNmi next ih =>
    exact congrArg (Course.after · .releaseNmi false) (ih (bus.setLine .nmi false))
  | report event next ih => exact congrArg (Course.after · (.report event) false) (ih bus)

/-! ## Machines -/

namespace Machine

variable {σ : Type}

/-- The other machine is where this one is, later. The fault that was recorded before and the
log have no part in it. -/
structure Later (shift : UInt64) (m other : Machine σ) : Prop where
  cpu : other.cpu = m.cpu.later shift
  timer : other.timer = m.timer
  bus : other.bus = m.bus

namespace Later

variable {m other third : Machine σ} {shift : UInt64}

theorem refl (m : Machine σ) : Later 0 m m :=
  ⟨congrArg (fun clock => { m.cpu with clock }) (UInt64.add_zero m.cpu.clock).symm, rfl, rfl⟩

/-- No later at all, and with the same fault recorded, only the logs can differ. -/
theorem eq_of_zero (h : Later 0 m other) (hfault : other.fault = m.fault) :
    ∃ log, other = { m with log } := by
  have hcpu : other.cpu = m.cpu := h.cpu.trans (refl m).cpu.symm
  obtain ⟨cpu, fault, timer, bus, log⟩ := other
  obtain rfl : cpu = m.cpu := hcpu
  obtain rfl : fault = m.fault := hfault
  obtain rfl : timer = m.timer := h.timer
  obtain rfl : bus = m.bus := h.bus
  exact ⟨log, rfl⟩

theorem trans {further : UInt64} (h : Later shift m other) (h' : Later further other third) :
    Later (shift + further) m third where
  cpu := by
    rw [h'.cpu, h.cpu]
    exact congrArg (fun clock => { m.cpu with clock }) (UInt64.add_assoc ..)
  timer := h'.timer.trans h.timer
  bus := h'.bus.trans h.bus

variable (devices : Devices σ)

theorem course (h : Later shift m other) :
    other.course devices = (m.course devices).map (Action.laterEnd shift) := by
  unfold Machine.course
  rw [h.cpu, h.bus, Action.Timeless.start_later, Traffic.course_map]

/-- A step ends in the same way and leaves the machines as they were to each other. -/
theorem step (h : Later shift m other) :
    (other.step devices).1 = (m.step devices).1 ∧
      (other.step devices).2.fault = (m.step devices).2.fault ∧
      Later shift (m.step devices).2 (other.step devices).2 := by
  have hbus : (other.course devices).bus = (m.course devices).bus := by
    rw [h.course devices]
    rfl
  obtain ⟨_, hm, _, hstep⟩ | ⟨_, _, hm, _, hstep⟩ | ⟨_, hm, _, hstep⟩ := m.step_cases devices <;>
    obtain ⟨_, ho, _, hstep'⟩ | ⟨_, _, ho, _, hstep'⟩ | ⟨_, ho, _, hstep'⟩ :=
      other.step_cases devices <;>
    rw [h.course devices, Course.map, hm] at ho <;>
    cases ho <;>
    rw [hstep, hstep'] <;>
    refine ⟨rfl, rfl, ?_, h.timer, hbus⟩
  · rfl
  · rfl
  · exact h.cpu

theorem cost (h : Later shift m other) : other.cost devices = m.cost devices := by
  unfold Machine.cost Machine.stepCost?
  rw [(h.step devices).1, h.course devices, h.cpu, h.bus, Action.stepCost?_later]
  rfl

theorem elapsed (h : Later shift m other) : other.elapsed devices = m.elapsed devices := by
  unfold Machine.elapsed
  rw [(h.step devices).2.2.cpu, h.cpu]
  unfold Cpu.later
  grind

/-- So does a step of a run: as many calls of the timer's routine fall due after it. -/
theorem timedStep (h : Later shift m other) :
    (other.timedStep devices).1 = (m.timedStep devices).1 ∧
      (other.timedStep devices).2.fault = (m.timedStep devices).2.fault ∧
      Later shift (m.timedStep devices).2 (other.timedStep devices).2 := by
  obtain ⟨hresult, hfault, hafter⟩ := h.step devices
  have hdue : other.due devices = m.due devices := by
    unfold due
    rw [h.timer, h.elapsed]
  rw [timedStep_eq, timedStep_eq, hdue, h.timer, h.elapsed]
  refine ⟨hresult, hfault, hafter.cpu, rfl, ?_⟩
  exact congrArg (fun bus => (((m.due devices).forM devices.tick).run bus).value.2) hafter.bus

/-- A run that counts from a later reading of the clock does the same later. -/
theorem runSteps (h : Later shift m other) (cycles start : UInt64) (limit : Nat) :
    (other.runSteps devices cycles (start + shift) limit).1 =
        (m.runSteps devices cycles start limit).1 ∧
      (0 < limit ∨ other.fault = m.fault →
        (other.runSteps devices cycles (start + shift) limit).2.fault =
          (m.runSteps devices cycles start limit).2.fault) ∧
      Later shift (m.runSteps devices cycles start limit).2
        (other.runSteps devices cycles (start + shift) limit).2 := by
  induction limit generalizing m other with
  | zero => exact ⟨rfl, fun hfault => hfault.resolve_left (Nat.lt_irrefl 0), h⟩
  | succ limit ih =>
    obtain ⟨hresult, hfault, hafter⟩ := h.timedStep devices
    have helapsed : (other.timedStep devices).2.cpu.clock - (start + shift) =
        (m.timedStep devices).2.cpu.clock - start := by
      rw [hafter.cpu]
      unfold Cpu.later
      grind
    have hcontinues : other.Continues devices cycles (start + shift) ↔
        m.Continues devices cycles start := by
      unfold Continues
      rw [hresult, helapsed]
    rw [runSteps_succ, runSteps_succ]
    by_cases hgo : m.Continues devices cycles start
    · rw [if_pos hgo, if_pos (hcontinues.mpr hgo)]
      obtain ⟨hrest, hlast, hend⟩ := ih hafter
      exact ⟨hrest, fun _ => hlast (.inr hfault), hend⟩
    · rw [if_neg hgo, if_neg fun h => hgo (hcontinues.mp h), hresult, helapsed]
      exact ⟨rfl, fun _ => hfault, hafter⟩

/-! ### Steps of a run, one by one -/

variable (n : Nat)

theorem after (h : Later shift m other) :
    Later shift (m.after devices n) (other.after devices n) := by
  induction n with
  | zero => exact h
  | succ n ih => exact (ih.timedStep devices).2.2

theorem result (h : Later shift m other) : other.result devices n = m.result devices n :=
  ((h.after devices n).timedStep devices).1

theorem totalCost (h : Later shift m other) :
    other.totalCost devices n = m.totalCost devices n := by
  induction n with
  | zero => rfl
  | succ n ih => rw [Machine.totalCost, Machine.totalCost, ih, (h.after devices n).cost]

end Later

end Machine

end Mc6809
