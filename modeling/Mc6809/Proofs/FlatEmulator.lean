/-
  The ready-made machine is a flat machine and stays one. Its 64 KB are mapped once, and nothing
  that a host or a program can do maps anything else: traffic leaves the page table of a flat bus
  alone, and every call of a host either runs the processor or changes bytes, registers and lines
  (`Emulator.IsFlat.obey`). So no access is ever refused, and of the faults only those of decoding
  are left (`code_of_step`).

  Host and processor see the same bytes. What the processor reads is what the host is shown, and a
  write of the one does the same to the bus as a write of the other. `history_flat` puts this
  together for the machine after any history of calls.
-/
import Mc6809.Emulator
import Mc6809.Proofs.Decode
import Mc6809.Proofs.Flat
import Mc6809.Proofs.Laps
import Mc6809.Proofs.Lockstep

namespace Mc6809

namespace Machine

variable {σ : Type} (devices : Devices σ) {m : Machine σ} {block : BlockId}

/-! ## Machines on flat memory -/

/-- On flat memory an instruction can fail only where it is decoded. -/
theorem code_of_step (h : m.bus.IsFlat) {fault : Fault}
    (hstep : (m.step devices).1 = .error fault) : fault.code ∈ [2, 3, 4] := by
  have hdecode : fault.isBusFault = false := by
    by_contra hbus
    rw [Bool.not_eq_false] at hbus
    obtain ⟨hrefused, -⟩ := m.step_of_busFault devices hstep hbus
    have houtcome := (Traffic.course_of_isFlat devices
      ((Action.step m.bus.lines).start m.cpu) h).1
    rw [← course, hrefused] at houtcome
    cases houtcome
  cases fault with
  | internal pc => exact (m.step_ne_internal devices pc hstep).elim
  | undefinedOpcode | undefinedPostbyte | registerSelection => simp [Fault.code]
  | unmappedRead | unmappedWrite => cases hdecode

/-- On flat memory a word can be read, and reading changes nothing. -/
theorem perform_readWord_of_isFlat (h : m.bus.IsFlat) (address : UInt16) (cpu : Cpu) :
    ∃ log, m.perform devices ((Action.readWord address).start cpu) =
      (.ok (.ok (m.bus.memory.word address), cpu), { m with log }) := by
  obtain ⟨log, hperform⟩ := m.perform_eq devices ((Action.readWord address).start cpu)
  obtain ⟨houtcome, -, -⟩ := Traffic.course_of_isFlat devices
    ((Action.readWord address).start cpu) h
  have hbus : (((Action.readWord address).start cpu).course devices m.bus).bus = m.bus := by
    unfold Action.readWord
    simp only [Action.start_bind, Action.start_read, Traffic.read_bind, Traffic.done_bind,
      Traffic.course, h.readResult_eq, Course.after_bus]
    rfl
  rw [houtcome, hbus] at hperform
  exact ⟨log, hperform⟩

/-- On flat memory a reset succeeds and continues where the vector points to. Of the bus it
changes the lines. -/
theorem reset_of_isFlat (h : m.bus.IsFlat) :
    (m.reset devices).1 = .ok () ∧
      (m.reset devices).2.cpu = { regs := { m.cpu.regs with
        dp := 0, cc := .afterReset, pc := m.bus.memory.word resetVector } } ∧
      (m.reset devices).2.fault = none ∧
      (m.reset devices).2.bus = { m.bus with lines := {} } ∧
      (m.reset devices).2.timer = m.timer.map Timer.restart := by
  have hcleared : m.cleared.bus.IsFlat := (h.withLines {}).1
  obtain ⟨log, hperform⟩ := perform_readWord_of_isFlat devices hcleared resetVector
    { regs := { m.cpu.regs with dp := 0, cc := .afterReset } }
  unfold reset
  dsimp only
  rw [← cleared, hperform]
  exact ⟨rfl, rfl, rfl, rfl, rfl⟩

/-- Every page of the bus shows its own page of one block of 64 KB and nothing else, and no
timer runs. -/
structure OnRam (m : Machine σ) (block : BlockId) : Prop where
  pages : m.bus.pages = .flat block
  length : m.bus.store.length block = 65536
  untimed : m.timer = none

namespace OnRam

theorem flatOn (h : m.OnRam block) : m.bus.FlatOn block := Bus.flatOn_of_pages h.pages h.length

theorem isFlat (h : m.OnRam block) : m.bus.IsFlat := ⟨block, h.flatOn⟩

theorem step (h : m.OnRam block) : (m.step devices).2.OnRam block := by
  obtain ⟨hflat, hpages⟩ := Traffic.course_of_flatOn devices
    ((Action.step m.bus.lines).start m.cpu) h.flatOn
  rw [← course, ← step_bus] at hflat hpages
  exact ⟨hpages.trans h.pages, hflat.length, (m.step_timer devices).trans h.untimed⟩

theorem reset (h : m.OnRam block) : (m.reset devices).2.OnRam block := by
  obtain ⟨-, -, -, hbus, htimer⟩ := reset_of_isFlat devices h.isFlat
  rw [h.untimed] at htimer
  refine ⟨?_, ?_, htimer⟩
  · rw [hbus]
    exact h.pages
  · rw [hbus]
    exact h.length

/-- So are all machines that a run goes through. -/
theorem runSteps (h : m.OnRam block) (cycles start : UInt64) (limit : Nat) :
    (m.runSteps devices cycles start limit).2.OnRam block ∧
      ∀ visited ∈ visits devices cycles start limit m, visited.OnRam block := by
  induction limit generalizing m with
  | zero => exact ⟨h, List.forall_mem_nil _⟩
  | succ limit ih =>
    rw [runSteps_succ, visits, timedStep_of_untimed h.untimed]
    have hnext := h.step devices
    split
    · obtain ⟨hlast, hvisited⟩ := ih hnext
      exact ⟨hlast, List.forall_mem_cons.mpr ⟨h, hvisited⟩⟩
    · exact ⟨hnext, List.forall_mem_singleton.mpr h⟩

end OnRam

end Machine

/-- The memory with bytes put at consecutive addresses, in order. -/
def Memory.load (memory : Memory) (address : UInt16) : List UInt8 → Memory
  | [] => memory
  | value :: rest => (memory.set address value).load (address + 1) rest

/-- Bytes that do not reach an address leave it as it is. -/
theorem Memory.load_of_not_reached (memory : Memory) (address other : UInt16) (bytes : List UInt8)
    (h : ∀ i < bytes.length, address + .ofNat i ≠ other) :
    memory.load address bytes other = memory other := by
  induction bytes generalizing memory address with
  | nil => rfl
  | cons value rest ih =>
    have hne : other ≠ address := (UInt16.add_zero address ▸ h 0 (Nat.succ_pos _)).symm
    rw [load, ih _ _ fun i hi => ?_, set_of_ne _ _ hne]
    rw [← add_ofNat_succ]
    exact h (i + 1) (Nat.succ_lt_succ hi)

/-- An address holds the last of the bytes that reach it. -/
theorem Memory.load_apply_of_last (memory : Memory) (address : UInt16) (bytes : List UInt8)
    {i : Nat} (hi : i < bytes.length)
    (hlast : ∀ j < bytes.length, i < j → address + .ofNat j ≠ address + .ofNat i) :
    memory.load address bytes (address + .ofNat i) = bytes[i] := by
  induction bytes generalizing memory address i with
  | nil => exact absurd hi (Nat.not_lt_zero i)
  | cons value rest ih =>
    cases i with
    | zero =>
      have hzero : address + .ofNat 0 = address := UInt16.add_zero address
      rw [hzero] at hlast ⊢
      rw [load, load_of_not_reached _ _ _ _ fun j hj => ?_, set_self]
      · rfl
      · rw [← add_ofNat_succ]
        exact hlast (j + 1) (Nat.succ_lt_succ hj) (Nat.succ_pos j)
    | succ i =>
      rw [add_ofNat_succ, load]
      refine ih _ _ (Nat.lt_of_succ_lt_succ hi) fun j hj hij => ?_
      rw [← add_ofNat_succ, ← add_ofNat_succ]
      exact hlast (j + 1) (Nat.succ_lt_succ hj) (Nat.succ_lt_succ hij)

/-- Each byte lies as far behind the address as it stands in the list, unless the bytes come round
to it again. -/
theorem Memory.load_apply (memory : Memory) (address : UInt16) (bytes : List UInt8)
    (hlength : bytes.length ≤ 65536) {i : Nat} (hi : i < bytes.length) :
    memory.load address bytes (address + .ofNat i) = bytes[i] := by
  refine load_apply_of_last _ _ _ hi fun j hj hij hsame => ?_
  have hnat := congrArg UInt16.toNat ((UInt16.add_right_inj address).mp hsame)
  rw [UInt16.toNat_ofNat_of_lt' (Nat.lt_of_lt_of_le hj hlength),
    UInt16.toNat_ofNat_of_lt' (Nat.lt_of_lt_of_le hi hlength)] at hnat
  omega

/-- The address of a start, written behind everything else, is what a reset finds. -/
theorem Memory.word_resetVector (memory : Memory) (start : UInt16) :
    ((memory.set 0xFFFE (highByte start)).set 0xFFFF (lowByte start)).word resetVector = start := by
  have hne : (0xFFFE : UInt16) ≠ 0xFFFF := by decide
  have hnext : (0xFFFE : UInt16) + 1 = 0xFFFF := rfl
  rw [word, resetVector, hnext, set_of_ne _ _ hne, set_self, set_self, joinBytes_highByte_lowByte]

namespace Emulator

variable {e : Emulator}

/-! ## Calls of a host -/

/-- What a host can call for, apart from looking at the state. -/
inductive Call where
  | step
  | run (cycles : UInt32)
  | reset
  | setPC (address : UInt16)
  | setS (address : UInt16)
  | setLine (interrupt : Interrupt) (asserted : Bool)
  | writeMemory (address : UInt16) (value : UInt8)
  | loadProgram (program : List UInt8) (start : UInt16)
  | clearTimer

/-- The emulator after a call. -/
def obey (e : Emulator) : Call → Emulator
  | .step => e.step.2
  | .run cycles => (e.run cycles).2
  | .reset => e.reset.2
  | .setPC address => e.setPC address
  | .setS address => e.setS address
  | .setLine interrupt asserted => e.setLine interrupt asserted
  | .writeMemory address value => e.writeMemory address value
  | .loadProgram program start => e.loadProgram program start
  | .clearTimer => e.clearTimer

/-! ## One memory -/

/-- What the host is shown of a page is what it is shown of its addresses. -/
theorem memoryPage_getElem? (e : Emulator) (address : UInt16) :
    (e.memoryPage (highByte address))[(lowByte address).toNat]? = some (e.readMemory address) := by
  unfold memoryPage readMemory
  rw [List.getElem?_map, List.getElem?_range (lowByte address).toNat_lt, Option.map_some,
    Bus.toNat_page_offset]

section Flat

variable (h : e.machine.bus.FlatOn ram)

include h

/-- What the host is shown is what the processor reads. -/
theorem readMemory_of_flatOn : e.readMemory = e.machine.bus.memory :=
  funext fun address => (h.memory_apply address).symm

/-- A write of the host stores a byte as the processor does. -/
theorem bus_writeMemory (address : UInt16) (value : UInt8) :
    (e.writeMemory address value).machine.bus = e.machine.bus.putByte address value :=
  (h.putByte_eq address value).symm

theorem flatOn_writeMemory (address : UInt16) (value : UInt8) :
    (e.writeMemory address value).machine.bus.FlatOn ram := by
  rw [bus_writeMemory h]
  exact h.putByte address value

theorem memory_writeMemory (address : UInt16) (value : UInt8) :
    (e.writeMemory address value).readMemory = Memory.set e.readMemory address value := by
  rw [readMemory_of_flatOn (flatOn_writeMemory h address value), readMemory_of_flatOn h,
    bus_writeMemory h, h.memory_putByte]

/-- Writing a program is writing its bytes. -/
theorem writeProgram_spec (address : UInt16) (program : List UInt8) :
    (e.modifyStore (writeProgram · address program)).machine.bus.FlatOn ram ∧
      (e.modifyStore (writeProgram · address program)).readMemory =
        Memory.load e.readMemory address program := by
  induction program generalizing e address with
  | nil => exact ⟨h, rfl⟩
  | cons byte rest ih =>
    obtain ⟨hflat, hmemory⟩ := ih (flatOn_writeMemory h address byte) (address + 1)
    rw [memory_writeMemory h] at hmemory
    exact ⟨hflat, hmemory⟩

/-- A loaded program lies in memory from its start on, and the vector points to it. -/
theorem memory_loadProgram (program : List UInt8) (start : UInt16) :
    (e.loadProgram program start).machine.bus.FlatOn ram ∧
      (e.loadProgram program start).readMemory =
        ((Memory.load e.readMemory start program).set 0xFFFE (highByte start)).set 0xFFFF
          (lowByte start) := by
  obtain ⟨hwritten, hmemory⟩ := writeProgram_spec h start program
  have hhigh := flatOn_writeMemory hwritten 0xFFFE (highByte start)
  have hlow := flatOn_writeMemory hhigh 0xFFFF (lowByte start)
  rw [← hmemory, ← memory_writeMemory hwritten, ← memory_writeMemory hhigh]
  exact ⟨hlow, rfl⟩

end Flat

section Views

variable (h : e.machine.OnRam ram)

include h

theorem readMemory_eq : e.readMemory = e.machine.bus.memory := readMemory_of_flatOn h.flatOn

theorem readResult_eq (address : UInt16) :
    e.machine.bus.readResult Devices.none address =
      (.ok (e.readMemory address), e.machine.bus) := by
  rw [h.isFlat.readResult_eq, readMemory_eq h]

/-- A write of the processor does to the bus what a write of the host does. -/
theorem writeResult_eq (address : UInt16) (value : UInt8) :
    e.machine.bus.writeResult Devices.none address value =
      (.ok (), (e.writeMemory address value).machine.bus) := by
  rw [h.isFlat.writeResult_eq, bus_writeMemory h.flatOn]

theorem onRam_writeMemory (address : UInt16) (value : UInt8) :
    (e.writeMemory address value).machine.OnRam ram :=
  ⟨h.pages, (flatOn_writeMemory h.flatOn address value).length, h.untimed⟩

theorem readMemory_writeMemory (address : UInt16) (value : UInt8) :
    (e.writeMemory address value).readMemory = Memory.set e.readMemory address value :=
  memory_writeMemory h.flatOn address value

theorem loadProgram_spec (program : List UInt8) (start : UInt16) :
    (e.loadProgram program start).machine.OnRam ram ∧
      (e.loadProgram program start).readMemory =
        ((Memory.load e.readMemory start program).set 0xFFFE (highByte start)).set 0xFFFF
          (lowByte start) := by
  obtain ⟨hflat, hmemory⟩ := memory_loadProgram h.flatOn program start
  exact ⟨⟨h.pages, hflat.length, h.untimed⟩, hmemory⟩

/-- A step of the emulator is a step on the memory that the host is shown. -/
theorem readMemory_step : e.step.2.readMemory =
    ((Action.step e.machine.bus.lines).onMemory e.machine.cpu e.readMemory).2 := by
  have hstepped : e.step.2.machine.OnRam ram := h.step Devices.none
  obtain ⟨-, -, -, hmemory⟩ := Machine.step_of_isFlat Devices.none h.isFlat rfl
  rw [readMemory_eq hstepped, readMemory_eq h]
  exact hmemory

end Views

theorem modifyStore_withResetVector (e : Emulator) (start : UInt16) :
    e.modifyStore (withResetVector · start) =
      (e.writeMemory 0xFFFE (highByte start)).writeMemory 0xFFFF (lowByte start) := rfl

/-! ## Histories -/

/-- The emulator before its first reset. -/
def blank : Emulator :=
  ⟨{ bus := Bus.flat (Array.replicate 65536 0) () }, defaultStart, defaultStart⟩

/-- A new emulator is flat, and its first reset has found the vector. -/
theorem new_spec : new.machine.OnRam ram ∧ new.machine.fault = none ∧
    new.machine.cpu = { regs := { cc := .afterReset, pc := defaultStart } } ∧
    new.machine.bus.lines = {} := by
  have hblank : blank.machine.OnRam ram := ⟨rfl, Array.size_replicate, rfl⟩
  have hhigh := onRam_writeMemory hblank 0xFFFE (highByte defaultStart)
  have hlow := onRam_writeMemory hhigh 0xFFFF (lowByte defaultStart)
  obtain ⟨-, hcpu, hfault, hbus, -⟩ := Machine.reset_of_isFlat Devices.none hlow.isFlat
  have hnew : new.machine = (((blank.writeMemory 0xFFFE (highByte defaultStart)).writeMemory 0xFFFF
      (lowByte defaultStart)).machine.reset Devices.none).2 := by
    unfold new
    dsimp only
    rw [← modifyStore_withResetVector, ← blank]
  rw [← readMemory_eq hlow, readMemory_writeMemory hhigh, readMemory_writeMemory hblank,
    Memory.word_resetVector] at hcpu
  rw [hnew]
  exact ⟨hlow.reset Devices.none, hfault, hcpu, congrArg Bus.lines hbus⟩

/-- The cycles of a call are few for the clock. -/
theorem toNat_cycles_le (cycles : UInt32) : cycles.toUInt64.toNat ≤ UInt64.size - 20 := by
  have hlt := cycles.toNat_lt
  have hsize : UInt64.size = 18446744073709551616 := rfl
  rw [UInt32.toNat_toUInt64]
  omega

/-- A run stops with the first step with which it can, and returns the low 32 bits. -/
theorem run_of_stopsFirst {cycles : UInt32} {k : Nat}
    (hstop : e.machine.StopsFirst Devices.none cycles.toUInt64 k) :
    (e.run cycles).1 = some (((e.machine.outcome Devices.none k).map
        UInt64.toUInt32).mapError HostError.ofFault) ∧
      ∃ log, (e.run cycles).2.machine = { e.machine.after Devices.none (k + 1) with log } := by
  obtain ⟨hresult, log, hlast⟩ := e.machine.runInLaps_eq Devices.none (toNat_cycles_le cycles)
  rw [hstop.run_eq (toNat_cycles_le cycles)] at hresult hlast
  exact ⟨congrArg (Option.map _) hresult, log, hlast⟩

/-- A run comes to an end, on flat memory, and fails only where an instruction is decoded. -/
theorem run_spec (h : e.machine.OnRam ram) (cycles : UInt32) :
    (e.run cycles).2.machine.OnRam ram ∧
      ∃ outcome, (e.run cycles).1 = some outcome ∧
        ∀ error, outcome = .error error → error.code ∈ [2, 3, 4] := by
  obtain ⟨k, hstop⟩ := e.machine.exists_stopsFirst Devices.none cycles.toUInt64
  obtain ⟨hreturned, log, hlast⟩ := run_of_stopsFirst hstop
  obtain ⟨hram, hvisited⟩ := h.runSteps Devices.none cycles.toUInt64 e.machine.cpu.clock
    (2 * cycles.toUInt64.toNat + 1)
  have hrun : e.machine.runSteps Devices.none cycles.toUInt64 e.machine.cpu.clock
      (2 * cycles.toUInt64.toNat + 1) =
        (some (e.machine.outcome Devices.none k), e.machine.after Devices.none (k + 1)) :=
    hstop.run_eq (toNat_cycles_le cycles)
  rw [hrun] at hram
  refine ⟨?_, _, hreturned, fun error herror => ?_⟩
  · rw [hlast]
    exact ⟨hram.pages, hram.length, hram.untimed⟩
  · cases houtcome : e.machine.outcome Devices.none k with
    | ok n =>
      rw [houtcome] at herror
      cases herror
    | error fault =>
      rw [houtcome] at herror hrun
      cases herror
      obtain ⟨visited, hmem, hstep⟩ :=
        Machine.exists_step_of_runSteps (congrArg Prod.fst hrun)
      exact Machine.code_of_step Devices.none (hvisited visited hmem).isFlat hstep

/-- Every call keeps the memory flat. -/
theorem onRam_obey (h : e.machine.OnRam ram) (call : Call) : (e.obey call).machine.OnRam ram := by
  cases call with
  | step => exact h.step Devices.none
  | run cycles => exact (run_spec h cycles).1
  | reset => exact h.reset Devices.none
  | setPC | setS | setLine => exact ⟨h.pages, h.length, h.untimed⟩
  | writeMemory address value => exact onRam_writeMemory h address value
  | loadProgram program start => exact (loadProgram_spec h program start).1
  | clearTimer => exact ⟨h.pages, h.length, rfl⟩

theorem onRam_foldl_obey (h : e.machine.OnRam ram) (calls : List Call) :
    (calls.foldl obey e).machine.OnRam ram := by
  induction calls generalizing e with
  | nil => exact h
  | cons call calls ih => exact ih (onRam_obey h call)

/-- After any history of calls the machine is the flat one that it was at first. Every page of its
bus shows its own page of the 64 KB in both directions. A reset succeeds; a step or a run that
fails does so with the code of a decode fault. What the host is shown of an address or of a page
is what the processor reads there. A write of the processor does to the bus just what a write of
the host does, and both are seen at once; so are the writes of a step and the bytes of a
program. -/
theorem history_flat (calls : List Call) :
    new.machine.fault = none ∧
    let e := calls.foldl obey new
    e.machine.bus.pages = .flat ram ∧ e.machine.bus.store.length ram = 65536 ∧
    e.reset.1 = .ok () ∧
    (∀ error, e.step.1 = .error error → error.code ∈ [2, 3, 4]) ∧
    (∀ cycles, ∃ outcome, (e.run cycles).1 = some outcome ∧
      ∀ error, outcome = .error error → error.code ∈ [2, 3, 4]) ∧
    (∀ address,
      e.machine.bus.readResult Devices.none address =
        (.ok (e.readMemory address), e.machine.bus) ∧
      (e.memoryPage (highByte address))[(lowByte address).toNat]? = some (e.readMemory address)) ∧
    (∀ address value,
      e.machine.bus.writeResult Devices.none address value =
        (.ok (), (e.writeMemory address value).machine.bus) ∧
      (e.writeMemory address value).readMemory = Memory.set e.readMemory address value) ∧
    e.step.2.readMemory =
      ((Action.step e.machine.bus.lines).onMemory e.machine.cpu e.readMemory).2 ∧
    ∀ program start, (e.loadProgram program start).readMemory =
      ((Memory.load e.readMemory start program).set 0xFFFE (highByte start)).set 0xFFFF
        (lowByte start) := by
  refine ⟨new_spec.2.1, ?_⟩
  intro e
  have h : e.machine.OnRam ram := onRam_foldl_obey new_spec.1 calls
  refine ⟨h.pages, h.length, ?_, fun error herror => ?_, fun cycles => (run_spec h cycles).2,
    fun address => ⟨readResult_eq h address, e.memoryPage_getElem? address⟩,
    fun address value => ⟨writeResult_eq h address value, readMemory_writeMemory h address value⟩,
    readMemory_step h, fun program start => (loadProgram_spec h program start).2⟩
  · unfold reset
    dsimp only
    rw [(Machine.reset_of_isFlat Devices.none h.isFlat).1]
    rfl
  · unfold step at herror
    dsimp only at herror
    cases hstep : (e.machine.step Devices.none).1 with
    | ok _ =>
      rw [hstep] at herror
      cases herror
    | error fault =>
      rw [hstep] at herror
      cases herror
      exact Machine.code_of_step Devices.none h.isFlat hstep

end Emulator

end Mc6809
