/-
  Completed instructions. A step that neither serves an interrupt nor waits, and that returns, has
  executed one instruction of the tables (`exists_completes`). The bytes that it has read are the
  bytes of the opcode, then those of the operand, then data (`Machine.Completes`). They fix the
  instruction and its entry, and they fix where the next one is (`Instruction.next`).

  `Completes.exists_ends` gives the rest of the step as an end of the operation's effect, from
  which everything else about it follows. `Machine.fate` lists what else can become of a step, with
  what it leaves of the processor.
-/
import Mc6809.Proofs.Located
import Mc6809.Proofs.Service

namespace Mc6809

/-! ## Transfers -/

/-- The number by which a transfer byte names a register, the source in its high digit and the
destination in its low one. -/
def Register.code : Register → Nat
  | d => 0x0
  | x => 0x1
  | y => 0x2
  | u => 0x3
  | s => 0x4
  | pc => 0x5
  | a => 0x8
  | b => 0x9
  | cc => 0xA
  | dp => 0xB

theorem Register.code_inj {reg other : Register} : reg.code = other.code ↔ reg = other := by
  cases reg <;> cases other <;> decide

/-- The byte names two registers of one width. -/
structure Register.Pair (postbyte : UInt8) (source destination : Register) : Prop where
  high : postbyte.toNat / 16 = source.code
  low : postbyte.toNat % 16 = destination.code
  isWide : source.isWide = destination.isWide

theorem Register.code_of_ofCode {byte : UInt8} {reg : Register} (h : ofCode byte = some reg) :
    byte.toNat % 16 = reg.code := by
  have all : ∀ n : Fin 256, (ofCode (.ofFin n)).all fun reg => n.val % 16 = reg.code := by
    decide +kernel
  have hbyte : (ofCode byte).all fun reg => byte.toNat % 16 = reg.code := all byte.toFin
  rw [h, Option.all_some, decide_eq_true_iff] at hbyte
  exact hbyte

theorem Register.ofCode_of_code {byte : UInt8} {reg : Register} (h : byte.toNat % 16 = reg.code) :
    ofCode byte = some reg := by
  have all : ∀ n : Fin 256, ∀ reg ∈ [d, x, y, u, s, pc, a, b, cc, dp], n.val % 16 = code reg →
      ofCode (.ofFin n) = some reg := by decide +kernel
  exact all byte.toFin reg (by cases reg <;> decide) h

/-- The upper digit of a byte, shifted down. -/
theorem upperDigit (byte : UInt8) : (byte >>> 4).toNat % 16 = byte.toNat / 16 := by
  have hlt := byte.toNat_lt
  rw [UInt8.toNat_shiftRight]
  show byte.toNat >>> 4 % 16 = _
  rw [Nat.shiftRight_eq_div_pow]
  omega

theorem Register.pair_of_transferPair {postbyte : UInt8} {source destination : Register}
    (h : Action.transferPair postbyte = .ok (source, destination)) :
    Pair postbyte source destination := by
  have hhigh := upperDigit postbyte
  unfold Action.transferPair at h
  split at h
  · next hsource hdestination =>
    split at h <;> cases h
    next hwide =>
    exact ⟨hhigh.symm.trans (code_of_ofCode hsource), code_of_ofCode hdestination, hwide⟩
  · cases h

theorem Register.Pair.transferPair_eq {postbyte : UInt8} {source destination : Register}
    (h : Pair postbyte source destination) :
    Action.transferPair postbyte = .ok (source, destination) := by
  unfold Action.transferPair
  rw [ofCode_of_code ((upperDigit postbyte).trans h.high), ofCode_of_code h.low]
  exact if_pos h.isWide

/-- The processor with a register loaded on behalf of the program. -/
def Cpu.loaded (cpu : Cpu) (reg : Register) (value : UInt16) : Cpu := { cpu with
  regs := cpu.regs.set reg value
  nmiArmed := cpu.nmiArmed || reg = .s }

namespace Action

variable {cpu cpu' : Cpu} {w : List Exchange}

theorem ends_loadRegister {reg : Register} {value : UInt16} {r} :
    (loadRegister reg value).Ends cpu w r cpu' ↔
      w = [] ∧ r = .ok () ∧ cpu' = cpu.loaded reg value := by
  have hstart : (loadRegister reg value).start cpu = .done (.ok (), cpu.loaded reg value) := by
    unfold loadRegister Cpu.loaded
    by_cases h : reg = .s <;> simp [h]
  rw [Ends, hstart]
  exact ends_leaf

/-- TFR loads one of the registers that its byte names with the value of the other. -/
theorem ends_transfer
    (h : (Operation.transfer.effect.resolve .immediate).Ends cpu w (.ok ()) cpu') :
    ∃ postbyte source destination, readBytes w = [postbyte] ∧
      Register.Pair postbyte source destination ∧
      cpu' = { cpu with regs := cpu.regs.past 1 }.loaded destination
        ((cpu.regs.past 1).get source) := by
  obtain ⟨postbyte, _, rfl, hdecoding⟩ := ends_onByte_immediate h
  obtain ⟨⟨source, destination⟩, _, _, _, rfl, hdecode, hloading⟩ := ends_bind_ok.mp hdecoding
  obtain ⟨rfl, hpair, rfl⟩ := ends_ofExcept.mp hdecode
  obtain ⟨_, _, _, _, rfl, hregs, hload⟩ := ends_bind_ok.mp hloading
  obtain ⟨rfl, hregs, rfl⟩ := ends_regs.mp hregs
  cases hregs
  obtain ⟨rfl, -, rfl⟩ := ends_loadRegister.mp hload
  exact ⟨postbyte, source, destination, rfl, Register.pair_of_transferPair hpair.symm, rfl⟩

/-- EXG loads each of the registers that its byte names with the value of the other. -/
theorem ends_exchange
    (h : (Operation.exchange.effect.resolve .immediate).Ends cpu w (.ok ()) cpu') :
    ∃ postbyte first second, readBytes w = [postbyte] ∧ Register.Pair postbyte first second ∧
      cpu' = ({ cpu with regs := cpu.regs.past 1 }.loaded first
        ((cpu.regs.past 1).get second)).loaded second ((cpu.regs.past 1).get first) := by
  obtain ⟨postbyte, _, rfl, hdecoding⟩ := ends_onByte_immediate h
  obtain ⟨⟨first, second⟩, _, _, _, rfl, hdecode, hloading⟩ := ends_bind_ok.mp hdecoding
  obtain ⟨rfl, hpair, rfl⟩ := ends_ofExcept.mp hdecode
  obtain ⟨_, _, _, _, rfl, hregs, hloading⟩ := ends_bind_ok.mp hloading
  obtain ⟨rfl, hregs, rfl⟩ := ends_regs.mp hregs
  cases hregs
  obtain ⟨_, _, _, _, rfl, hload, hloading⟩ := ends_bind_ok.mp hloading
  obtain ⟨rfl, -, rfl⟩ := ends_loadRegister.mp hload
  obtain ⟨rfl, -, rfl⟩ := ends_loadRegister.mp hloading
  exact ⟨postbyte, first, second, rfl, Register.pair_of_transferPair hpair.symm, rfl⟩

end Action

/-! ## Instructions -/

/-- The effect wants a word. -/
def Effect.isWide : Effect → Bool
  | onWord _ => true
  | _ => false

/-- The registers that the operation names are such as the instructions of the tables name: its
stack is S or U, and it does not load PC from memory. -/
def Operation.regular : Operation → Bool
  | push stack | pull stack => stack = .s ∨ stack = .u
  | load16 reg => reg ≠ .pc
  | _ => true

/-- Every row documents as its size what opcode and operand take. -/
theorem Opcode.rows_sized (page : OpcodePage) : ∀ row ∈ rows page,
    row.2.mnemonic.operation.all fun operation => operation.regular ∧ row.2.size.toNat =
      (page.code 0).length + row.2.mode.operandBytes operation.effect.isWide := by
  cases page <;> decide +kernel

/-- An instruction of the tables: an opcode, its entry, and the operation that the entry names. -/
structure Instruction where
  page : OpcodePage
  opcode : UInt8
  entry : Opcode.Entry
  operation : Operation
  find : Opcode.find? page opcode = some entry
  names : entry.mnemonic.operation = some operation

namespace Instruction

variable (instruction : Instruction)

/-- The bytes of the opcode. -/
def code : List UInt8 := instruction.page.code instruction.opcode

/-- The processor when the bytes of the opcode have been fetched and the cycles of the entry have
been charged. -/
def begun (cpu : Cpu) : Cpu := { cpu with
  regs := cpu.regs.past instruction.code.length
  clock := cpu.clock + instruction.entry.cycles.toUInt64
  sync := false }

/-- The number of bytes: the documented size, and what an indexed post-byte asks for. -/
def length (bytes : List UInt8) : Nat :=
  instruction.entry.size.toNat + instruction.entry.mode.extensionBytes bytes

/-- The address behind an instruction at `pc`, if these bytes follow its opcode. -/
def next (pc : UInt16) (bytes : List UInt8) : UInt16 := pc + .ofNat (instruction.length bytes)

theorem plain : instruction.entry.mnemonic.prefixOf? = none :=
  Mnemonic.prefixOf?_of_operation instruction.names

theorem not_leads : ¬ instruction.page.Leads instruction.opcode :=
  (Opcode.prefixOf?_eq_none_iff instruction.find).mp instruction.plain

theorem admits : instruction.operation.admits instruction.entry.mode := by
  obtain ⟨operation, hnames, hadmits⟩ := Action.exists_operation instruction.find instruction.plain
  cases instruction.names.symm.trans hnames
  exact hadmits

theorem suits : instruction.operation.effect.suits instruction.entry.mode := by
  have hrow := Opcode.rows_suited instruction.page _ (Opcode.mem_rows_of_find? instruction.find)
  rw [instruction.names, Option.all_some, decide_eq_true_iff] at hrow
  exact hrow.1

theorem regular_and_size : instruction.operation.regular ∧ instruction.entry.size.toNat =
    instruction.code.length +
      instruction.entry.mode.operandBytes instruction.operation.effect.isWide := by
  have hrow := Opcode.rows_sized instruction.page _ (Opcode.mem_rows_of_find? instruction.find)
  rw [instruction.names, Option.all_some, decide_eq_true_iff] at hrow
  obtain ⟨hregular, hsize⟩ := hrow
  refine ⟨hregular, hsize.trans ?_⟩
  unfold code OpcodePage.code
  cases instruction.page <;> rfl

/-- Of the bytes, those of the operand lie between opcode and next instruction. -/
theorem next_eq (pc : UInt16) (bytes : List UInt8) : instruction.next pc bytes =
    pc + .ofNat instruction.code.length + .ofNat (instruction.entry.mode.operandBytes
      instruction.operation.effect.isWide + instruction.entry.mode.extensionBytes bytes) := by
  unfold next length
  rw [instruction.regular_and_size.2, Nat.add_assoc, UInt16.ofNat_add, UInt16.add_assoc]

end Instruction

/-- The bytes of an opcode do not begin another opcode. -/
theorem OpcodePage.code_append_inj {page other : OpcodePage} {opcode byte : UInt8}
    {rest more : List UInt8} (hpage : ¬ page.Leads opcode) (hother : ¬ other.Leads byte)
    (h : page.code opcode ++ rest = other.code byte ++ more) :
    page = other ∧ opcode = byte ∧ rest = more := by
  unfold Leads at hpage hother
  cases page <;> cases other <;> simp [code] at h hpage hother ⊢ <;> grind

/-- The bytes of an opcode fix the instruction. -/
theorem Instruction.eq_of_code_append {instruction other : Instruction} {rest more : List UInt8}
    (h : instruction.code ++ rest = other.code ++ more) : instruction = other ∧ rest = more := by
  obtain ⟨hpage, hopcode, hrest⟩ :=
    OpcodePage.code_append_inj instruction.not_leads other.not_leads h
  refine ⟨?_, hrest⟩
  obtain ⟨page, opcode, entry, operation, hfind, hnames⟩ := instruction
  obtain ⟨page', opcode', entry', operation', hfind', hnames'⟩ := other
  cases hpage
  cases hopcode
  cases hfind.symm.trans hfind'
  cases hnames.symm.trans hnames'
  rfl

/-! ## Steps -/

namespace Machine

variable {σ : Type} (devices : Devices σ) {m : Machine σ}

/-- The step executes the instruction and completes it. These bytes have been read after those of
the opcode. -/
structure Completes (m : Machine σ) (instruction : Instruction) (bytes : List UInt8) : Prop where
  quiet : m.Quiet
  awake : ¬ m.cpu.Waits m.bus.lines
  ok : (m.step devices).1 = .ok ()
  read : readBytes (m.course devices).exchanges = instruction.code ++ bytes

/-- After its opcode the step fetches the bytes that give an address, follows a pointer if there is
one, and does at the address found what the operation does. -/
def ActsAt (m : Machine σ) (instruction : Instruction) (bytes : List UInt8) (located : Located) :
    Prop := ∃ clock rest,
  instruction.entry.mode.locate? (m.cpu.regs.past instruction.code.length) bytes =
    some (located, readBytes rest) ∧
  requests (m.course devices).exchanges =
    fetched m.cpu.regs.pc (instruction.code ++ located.code) ++ located.follows ++ requests rest ∧
  (instruction.operation.effect.atAddress located.address).Ends
    { instruction.begun m.cpu with regs := located.regs, clock } rest (.ok ())
    (m.step devices).2.cpu

variable {devices}

/-- A step that returns has had all its accesses and keeps what its traffic has come to. -/
theorem ends_of_ok (hok : (m.step devices).1 = .ok ()) : (Action.step m.bus.lines).Ends m.cpu
    (m.course devices).exchanges (.ok ()) (m.step devices).2.cpu := by
  obtain ⟨cpu, houtcome, _, hstep⟩ | ⟨_, _, _, _, hstep⟩ | ⟨_, _, _, hstep⟩ := m.step_cases devices
  · rw [hstep]
    exact m.course_ends devices houtcome
  · rw [hstep] at hok
    cases hok
  · rw [hstep] at hok
    cases hok

/-- A step that executes and returns has fetched an opcode, reported its instruction, and ended as
the effect of the operation does. -/
theorem exists_instruction (hquiet : m.Quiet) (hawake : ¬ m.cpu.Waits m.bus.lines)
    (hok : (m.step devices).1 = .ok ()) : ∃ (instruction : Instruction) (w : List Exchange),
      (m.course devices).exchanges = fetched m.cpu.regs.pc instruction.code ++
        .report (.execute m.cpu.regs.pc instruction.entry.mnemonic) :: w ∧
      (instruction.operation.effect.resolve instruction.entry.mode).Ends
        (instruction.begun m.cpu) w (.ok ()) (m.step devices).2.cpu := by
  have hends := ends_of_ok hok
  rw [Action.Ends, Action.start_step_of_not_waits hquiet hawake] at hends
  obtain ⟨_, _, -, -, hr, -⟩ | ⟨page, opcode, entry, rest, hfind, hplain, hexchanges, hrest⟩ :=
    Action.ends_instruction.mp hends
  · cases hr
  obtain ⟨operation, hnames, -⟩ := Action.exists_operation hfind hplain
  obtain ⟨w, rfl, hresolve⟩ := (Action.ends_documented hnames).mp hrest
  have hpc : m.cpu.regs.pc + .ofNat (page.code opcode).length - .ofNat (page.code opcode).length =
      m.cpu.regs.pc := UInt16.add_sub_cancel _ _
  dsimp only at hexchanges
  rw [hpc] at hexchanges
  exact ⟨⟨page, opcode, entry, operation, hfind, hnames⟩, w, hexchanges, hresolve⟩

variable (devices) in
/-- The next step executes what begins with these bytes: nothing is eligible, the processor does not
wait, and the bus answers reads from PC upwards with them. -/
structure Takes (m : Machine σ) (code : List UInt8) : Prop where
  quiet : m.Quiet
  awake : ¬ m.cpu.Waits m.bus.lines
  fetches : m.Fetches devices code

theorem Executes.takes (hflat : m.bus.IsFlat) {code : List UInt8} (h : m.Executes code) :
    m.Takes devices code :=
  ⟨h.quiet, h.awake, _, hflat.performs_fetched h.code⟩

/-- An instruction that accesses nothing but its own bytes is completed, and ends as its effect
does. -/
theorem Takes.completes {instruction : Instruction} {bytes : List UInt8} {cpu : Cpu}
    (h : m.Takes devices (instruction.code ++ bytes))
    (hends : (instruction.operation.effect.resolve instruction.entry.mode).Ends
      (instruction.begun m.cpu) (fetched (instruction.begun m.cpu).regs.pc bytes) (.ok ()) cpu) :
    m.Completes devices instruction bytes ∧ (m.step devices).2.cpu = cpu := by
  obtain ⟨hquiet, hawake, after, hperforms⟩ := h
  obtain ⟨w, hw, hread, hdocumented⟩ : ∃ w,
      requests w = fetched (instruction.begun m.cpu).regs.pc bytes ∧ readBytes w = bytes ∧
      (Action.documented instruction.entry (.ofNat instruction.code.length)).Ends
        { m.cpu with sync := false, regs := m.cpu.regs.past instruction.code.length } w (.ok ())
        cpu := by
    refine ⟨_, ?_, ?_, (Action.ends_documented instruction.names).mpr ⟨_, rfl, hends⟩⟩
    · exact requests_fetched _ bytes
    · exact Action.readBytes_fetched _ bytes
  have hstep : (Action.step m.bus.lines).Ends m.cpu
      (fetched m.cpu.regs.pc instruction.code ++ w) (.ok ()) cpu := by
    rw [Action.Ends, Action.start_step_of_not_waits hquiet hawake]
    exact Action.ends_instruction.mpr
      (.inr ⟨_, _, _, w, instruction.find, instruction.plain, rfl, hdocumented⟩)
  have hrequests : requests (fetched m.cpu.regs.pc instruction.code ++ w) =
      fetched m.cpu.regs.pc (instruction.code ++ bytes) := by
    rw [requests_append, requests_fetched, hw, fetched_append]
    rfl
  rw [← hrequests, Bus.performs_requests] at hperforms
  obtain ⟨hexchanges, houtcome, -⟩ := hstep.course_eq hperforms
  obtain ⟨hok, hcpu, -⟩ := m.step_of_outcome devices houtcome
  refine ⟨⟨hquiet, hawake, hok, ?_⟩, hcpu⟩
  rw [course, hexchanges, readBytes_append, Action.readBytes_fetched, hread]

theorem exists_completes (hquiet : m.Quiet) (hawake : ¬ m.cpu.Waits m.bus.lines)
    (hok : (m.step devices).1 = .ok ()) :
    ∃ instruction bytes, m.Completes devices instruction bytes := by
  obtain ⟨instruction, w, hexchanges, -⟩ := exists_instruction hquiet hawake hok
  refine ⟨instruction, readBytes w, hquiet, hawake, hok, ?_⟩
  rw [hexchanges, readBytes_append, Action.readBytes_fetched]
  rfl

/-- Memory that holds two bytes over and over again. -/
def twoBytes (first second : UInt8) : Memory := fun address =>
  if address.toNat % 2 = 0 then first else second

/-- A processor on such memory. -/
def repeating (first second : UInt8) (regs : Registers) : Machine Unit where
  cpu := { regs }
  bus := Bus.ofMemory (twoBytes first second) ()

theorem repeating_takes {first second : UInt8} {regs : Registers} (h : regs.pc.toNat % 2 = 0) :
    (repeating first second regs).Takes Devices.none [first, second] := by
  have hodd : (regs.pc + 1).toNat % 2 ≠ 0 := by
    rw [UInt16.toNat_add]
    have hone : (1 : UInt16).toNat = 1 := rfl
    omega
  have hflat : (repeating first second regs).bus.IsFlat :=
    Bus.isFlat_ofMemory (twoBytes first second) ()
  have hexecutes : (repeating first second regs).Executes [first, second] := by
    refine executes_of_released rfl rfl rfl ?_
    show (Bus.ofMemory (twoBytes first second) ()).memory.slice regs.pc 2 = [first, second]
    rw [Bus.memory_ofMemory]
    show [if regs.pc.toNat % 2 = 0 then first else second,
      if (regs.pc + 1).toNat % 2 = 0 then first else second] = [first, second]
    rw [if_pos h, if_neg hodd]
  exact hexecutes.takes hflat

variable (devices) in
/-- What can become of a step. -/
inductive Fate (m : Machine σ) : Prop where
  /-- It serves the interrupt that wins. -/
  | served {interrupt : Interrupt} {high low : UInt8}
      (wins : interrupt.Wins m.bus.lines m.cpu) (serves : m.Serves devices interrupt high low)
      (cpu : (m.step devices).2.cpu = { interrupt.saved { m.cpu with sync := false } with
        regs.pc := joinBytes high low
        cwai := false })
  /-- It waits. -/
  | idle (quiet : m.Quiet) (waits : m.cpu.Waits m.bus.lines)
      (cpu : (m.step devices).2.cpu =
        { Action.sampled m.bus.lines m.cpu with clock := m.cpu.clock + 1 })
  /-- It completes an instruction. -/
  | completed {instruction : Instruction} {bytes : List UInt8}
      (completes : m.Completes devices instruction bytes)
  /-- It fetches bytes that have no meaning. -/
  | undecodable {fault : Fault} {code : List UInt8} {cycles : Nat} (quiet : m.Quiet)
      (awake : ¬ m.cpu.Waits m.bus.lines) (error : (m.step devices).1 = .error fault)
      (cpu : (m.step devices).2.cpu = { m.cpu with sync := false }.past code cycles)
  /-- The bus refuses it an access. -/
  | refused {fault : Fault} (error : (m.step devices).1 = .error fault)
      (bus : fault.isBusFault) (cpu : (m.step devices).2.cpu = m.cpu)

theorem step_of_wins {interrupt : Interrupt} (hwins : interrupt.Wins m.bus.lines m.cpu)
    (hok : (m.step devices).1 = .ok ()) : ∃ high low, m.Serves devices interrupt high low ∧
      (m.step devices).2.cpu = { interrupt.saved { m.cpu with sync := false } with
        regs.pc := joinBytes high low
        cwai := false } := by
  obtain ⟨ended, houtcome⟩ := m.exists_outcome devices fun fault herror => by
    cases hok.symm.trans herror
  obtain ⟨high, low, hserves⟩ := serves_of_wins devices hwins houtcome
  have hends := ends_of_ok hok
  rw [Action.Ends, Action.start_step_of_wins hwins, Action.sampled_of_wins hwins] at hends
  obtain ⟨_, _, -, -, hcpu⟩ := Action.ends_service.mp hends
  have hpc := hserves.pc
  rw [hcpu] at hpc
  exact ⟨high, low, hserves, hcpu.trans (by rw [← hpc])⟩

/-- Only a step that executes ends in a fault that is not the bus's. -/
theorem executes_of_decodeFault {fault : Fault} (hstep : (m.step devices).1 = .error fault)
    (hfault : fault.isBusFault = false) : m.Quiet ∧ ¬ m.cpu.Waits m.bus.lines := by
  have hquiet : m.Quiet := by
    by_contra hsome
    obtain ⟨interrupt, hwins⟩ := Action.exists_wins hsome
    obtain ⟨_, houtcome⟩ := m.outcome_of_decodeFault devices hstep hfault
    obtain ⟨_, _, hserves⟩ := serves_of_wins devices hwins houtcome
    cases hserves.ok.symm.trans hstep
  refine ⟨hquiet, fun hwaits => ?_⟩
  rw [m.step_of_waits devices hquiet hwaits] at hstep
  cases hstep

variable (devices m) in
theorem fate : m.Fate devices := by
  cases hresult : (m.step devices).1 with
  | error fault =>
    by_cases hfault : fault.isBusFault
    · obtain ⟨-, _, hafter⟩ := m.step_of_busFault devices hresult hfault
      exact .refused hresult hfault (by rw [hafter])
    · have hdecode : fault.isBusFault = false := Bool.eq_false_iff.mpr hfault
      obtain ⟨hquiet, hawake⟩ := executes_of_decodeFault hresult hdecode
      obtain ⟨_, _, -, -, -, hcpu, -⟩ := decodeFault_of_step devices hawake hresult hdecode
      exact .undecodable hquiet hawake hresult hcpu
  | ok _ =>
    by_cases hquiet : m.Quiet
    · by_cases hwaits : m.cpu.Waits m.bus.lines
      · exact .idle hquiet hwaits (by rw [m.step_of_waits devices hquiet hwaits])
      · obtain ⟨_, _, hcompletes⟩ := exists_completes hquiet hwaits hresult
        exact .completed hcompletes
    · obtain ⟨interrupt, hwins⟩ := Action.exists_wins hquiet
      obtain ⟨_, _, hserves, hcpu⟩ := step_of_wins hwins hresult
      exact .served hwins hserves hcpu

variable (devices m) in
/-- A reset, also one that fails, keeps accumulators, index registers and stack pointers, and
nothing else of the processor. -/
theorem reset_cpu : ∃ pc, (m.reset devices).2.cpu =
    { regs := { m.cpu.regs with dp := 0, cc := Flags.afterReset, pc } } := by
  obtain ⟨pc, _, _, hreset⟩ | ⟨_, _, _, -, hreset⟩ := m.reset_cases devices
  · exact ⟨pc, by rw [hreset]; rfl⟩
  · exact ⟨m.cpu.regs.pc, by rw [hreset]; rfl⟩

namespace Completes

variable {instruction : Instruction} {bytes : List UInt8}

/-- The rest of the step is an end of the operation's effect. -/
theorem exists_ends (h : m.Completes devices instruction bytes) : ∃ w,
    (m.course devices).exchanges = fetched m.cpu.regs.pc instruction.code ++
      .report (.execute m.cpu.regs.pc instruction.entry.mnemonic) :: w ∧ readBytes w = bytes ∧
    (instruction.operation.effect.resolve instruction.entry.mode).Ends
      (instruction.begun m.cpu) w (.ok ()) (m.step devices).2.cpu := by
  obtain ⟨other, w, hexchanges, hends⟩ := exists_instruction h.quiet h.awake h.ok
  have hread := h.read
  rw [hexchanges, readBytes_append, Action.readBytes_fetched] at hread
  obtain ⟨rfl, hbytes⟩ := Instruction.eq_of_code_append hread
  exact ⟨w, hexchanges, hbytes, hends⟩

theorem exists_located (h : m.Completes devices instruction bytes)
    (hmode : instruction.entry.mode.addresses) :
    ∃ located, m.ActsAt devices instruction bytes located := by
  obtain ⟨w, hexchanges, rfl, hends⟩ := h.exists_ends
  obtain ⟨located, clock, rest, hlocate, rfl, hacting⟩ :=
    Action.ends_resolve_located instruction.suits hmode hends
  refine ⟨located, clock, rest, hlocate, ?_, hacting⟩
  have hreads : requests (located.reads (instruction.begun m.cpu).regs.pc ++ rest) =
      fetched (instruction.begun m.cpu).regs.pc located.code ++ located.follows ++
        requests rest := by
    rw [requests_append, located.requests_reads]
    rfl
  rw [hexchanges, requests_append, requests_fetched, fetched_append, List.append_assoc,
    List.append_assoc]
  refine congrArg (_ ++ ·) (hreads.trans ?_)
  rw [List.append_assoc]
  rfl

end Completes

end Machine

end Mc6809
