/-
  What a step writes. Of the instructions only stores, the operations that modify memory, calls,
  pushes, software interrupts and CWAI write at all, and each of them writes what its
  documentation says: `Operation.stores?` lists it, in order, from the registers behind the opcode
  and the bytes read from there on. An interrupt writes what it saves, and a step that idles writes
  nothing.

  That all else writes nothing is one law (`Law.unwritten`), which every operation without
  the mark `Operation.writes` obeys; the others are followed to their ends. The two meet in
  `Action.stores?_of_ends`, and `Machine.step_writes` says what this makes of a step.
-/
import Mc6809.Proofs.Completed
import Mc6809.Proofs.Service
import Mc6809.Proofs.Wait

namespace Mc6809

/-! ## Writes among exchanges -/

/-- The writes among exchanges, in order. -/
def writesOf : List Exchange → List Exchange
  | [] => []
  | .write address value :: rest => .write address value :: writesOf rest
  | _ :: rest => writesOf rest

@[simp] theorem writesOf_append (first second : List Exchange) :
    writesOf (first ++ second) = writesOf first ++ writesOf second := by
  induction first with
  | nil => rfl
  | cons exchange first ih => cases exchange <;> simp [writesOf, ih]

@[simp] theorem writesOf_fetched (address : UInt16) (bytes : List UInt8) :
    writesOf (fetched address bytes) = [] := by
  induction bytes generalizing address with
  | nil => rfl
  | cons byte bytes ih => exact ih (address + 1)

@[simp] theorem writesOf_pushes (pointer : UInt16) (bytes : List UInt8) :
    writesOf (pushes pointer bytes) = pushes pointer bytes := by
  induction bytes generalizing pointer with
  | nil => rfl
  | cons byte bytes ih => exact congrArg (_ :: ·) (ih (pointer - 1))

@[simp] theorem readBytes_pushes (pointer : UInt16) (bytes : List UInt8) :
    readBytes (pushes pointer bytes) = [] := by
  induction bytes generalizing pointer with
  | nil => rfl
  | cons byte bytes ih => exact ih (pointer - 1)

@[simp] theorem Located.writesOf_reads (located : Located) (pc : UInt16) :
    writesOf (located.reads pc) = [] := by
  unfold reads follows
  rw [writesOf_append, writesOf_fetched]
  cases located.pointer <;> rfl

@[simp] theorem Interrupt.writesOf_enters (interrupt : Interrupt) (handler : UInt16) :
    writesOf (interrupt.enters handler) = [] := by
  cases interrupt <;> rfl

theorem pushes_append (pointer : UInt16) (first second : List UInt8) :
    pushes pointer (first ++ second) =
      pushes pointer first ++ pushes (pointer - .ofNat first.length) second := by
  induction first generalizing pointer with
  | nil =>
    have hzero : pointer - .ofNat 0 = pointer := UInt16.sub_zero pointer
    rw [List.length_nil, hzero]
    rfl
  | cons byte first ih =>
    rw [List.length_cons, sub_ofNat_succ, List.cons_append, pushes, pushes, ih, List.cons_append]

/-! ## What operations document -/

/-- The bytes of a register as they are pushed. -/
def Registers.stackBytes (regs : Registers) (reg : Register) : List UInt8 :=
  if reg.isWide then [lowByte (regs.get reg), highByte (regs.get reg)] else [lowByte (regs.get reg)]

@[simp] theorem Registers.index_setIndex (regs : Registers) (stack : IndexRegister)
    (pointer : UInt16) : (regs.setIndex stack pointer).index stack = pointer := by
  cases stack <;> rfl

theorem Registers.setIndex_index (regs : Registers) (stack : IndexRegister) :
    regs.setIndex stack (regs.index stack) = regs := by
  cases stack <;> rfl

@[simp] theorem Registers.setIndex_setIndex (regs : Registers) (stack : IndexRegister)
    (pointer lowered : UInt16) :
    (regs.setIndex stack pointer).setIndex stack lowered = regs.setIndex stack lowered := by
  cases stack <;> rfl

/-- A stack pointer may move without a change of what the other registers push. -/
theorem Registers.stackBytes_setIndex {stack : IndexRegister} {reg : Register}
    (h : reg ≠ stack.toRegister) (regs : Registers) (pointer : UInt16) :
    (regs.setIndex stack pointer).stackBytes reg = regs.stackBytes reg := by
  cases stack <;> cases reg <;> first | rfl | exact absurd rfl h

theorem Registers.flatMap_stackBytes_setIndex {stack : IndexRegister} {list : List Register}
    (h : stack.toRegister ∉ list) (regs : Registers) (pointer : UInt16) :
    list.flatMap (regs.setIndex stack pointer).stackBytes = list.flatMap regs.stackBytes := by
  rw [List.flatMap_def, List.flatMap_def]
  refine congrArg _ (List.map_congr_left fun reg hmem => stackBytes_setIndex ?_ _ _)
  rintro rfl
  exact h hmem

/-- The register that a bit of a push or pull mask stands for. Bit 6 is the stack pointer that is
not the stack itself. -/
def Register.ofMaskBit (stack : IndexRegister) : Nat → Register
  | 7 => pc
  | 6 => if stack = .u then s else u
  | 5 => y
  | 4 => x
  | 3 => dp
  | 2 => b
  | 1 => a
  | _ => cc

/-- The registers that a mask names, from bit 7 to bit 0. -/
def Register.ofMask (stack : IndexRegister) (mask : UInt8) : List Register :=
  ([7, 6, 5, 4, 3, 2, 1, 0].filter mask.toNat.testBit).map (ofMaskBit stack)

theorem Register.ofMaskBit_inj {stack : IndexRegister} {bit other : Nat} (hbit : bit ≤ 7)
    (hother : other ≤ 7) (h : ofMaskBit stack bit = ofMaskBit stack other) : bit = other := by
  have all : ∀ stack ∈ [IndexRegister.x, .y, .u, .s], ∀ bit ≤ 7, ∀ other ≤ 7,
      ofMaskBit stack bit = ofMaskBit stack other → bit = other := by
    decide
  exact all stack (by cases stack <;> decide) bit hbit other hother h

/-- A mask names the register of a bit just when the bit is set. -/
theorem Register.mem_ofMask_iff {stack : IndexRegister} {mask : UInt8} (bit : Nat)
    (hbit : bit ≤ 7) : ofMaskBit stack bit ∈ ofMask stack mask ↔ mask.toNat.testBit bit := by
  have hbits (other : Nat) : other ∈ [7, 6, 5, 4, 3, 2, 1, 0] ↔ other ≤ 7 := by
    simp only [List.mem_cons, List.not_mem_nil, or_false]
    omega
  unfold ofMask
  simp only [List.mem_map, List.mem_filter, hbits]
  constructor
  · rintro ⟨other, ⟨hother, hset⟩, heq⟩
    rwa [← ofMaskBit_inj hother hbit heq]
  · intro hset
    exact ⟨bit, ⟨hbit, hset⟩, rfl⟩

/-- What an operation writes, from the registers with PC behind the opcode and the bytes read from
there on. -/
def Operation.stores? (operation : Operation) (mode : AddressingMode) (regs : Registers)
    (bytes : List UInt8) : Option (List Exchange) :=
  match operation with
  | modifyMemory op =>
    match mode.locate? regs bytes with
    | some (located, value :: _) => some [.write located.address (op.apply regs.cc value).1]
    | _ => none
  | store8 acc => (mode.locate? regs bytes).map fun (located, _) =>
    [.write located.address (located.regs.accumulator acc)]
  | store16 reg => (mode.locate? regs bytes).map fun (located, _) =>
    [.write located.address (highByte (located.regs.get reg)),
      .write (located.address + 1) (lowByte (located.regs.get reg))]
  | call => (mode.locate? regs bytes).map fun (located, _) =>
    pushes located.regs.s [lowByte located.regs.pc, highByte located.regs.pc]
  | push stack => bytes.head?.map fun mask =>
    pushes (regs.index stack) ((Register.ofMask stack mask).flatMap (regs.past 1).stackBytes)
  | softwareInterrupt _ => some (pushes regs.s (regs.withEntire true).frame.reverse)
  | waitForInterrupt => bytes.head?.map fun mask =>
    pushes regs.s ((regs.masked mask).past 1).frame.reverse
  | _ => some []

theorem Operation.stores?_of_not_writes {operation : Operation} (h : ¬ operation.writes)
    (mode : AddressingMode) (regs : Registers) (bytes : List UInt8) :
    operation.stores? mode regs bytes = some [] := by
  unfold stores?
  cases operation <;> first | rfl | exact absurd rfl h

namespace Action

variable {cpu cpu' : Cpu} {w : List Exchange} {mode : AddressingMode} {stack : IndexRegister}

/-! ## Operations that write nothing -/

/-- Until it returns the action writes nothing. -/
def Law.unwritten : Law where
  Returned _ w _ := writesOf w = []
  Thrown _ _ _ _ := True
  Refused _ _ := True
  refl _ := rfl
  returned h h' := by rw [writesOf_append, h, h', List.append_nil]
  thrown _ _ := trivial
  refused _ _ := trivial

instance : AllowsRegs Law.unwritten := ⟨fun _ _ => rfl⟩
instance : AllowsReads Law.unwritten := ⟨fun _ _ _ => rfl, fun _ => trivial⟩
instance : AllowsReports Law.unwritten := ⟨fun _ _ => rfl⟩
instance : AllowsCharges Law.unwritten := ⟨fun _ _ => rfl⟩
instance : AllowsArming Law.unwritten := ⟨fun _ => rfl⟩
instance : AllowsWaiting Law.unwritten := ⟨fun _ => rfl, fun _ => rfl⟩
instance : AllowsFaults Law.unwritten := ⟨fun _ _ _ => trivial⟩

theorem writesOf_of_not_writes {operation : Operation} (hwrites : ¬ operation.writes)
    (h : (operation.effect.resolve mode).Ends cpu w (.ok ()) cpu') : writesOf w = [] := by
  have hobeys : operation.effect.Obeys Law.unwritten :=
    Operation.effect_obeys_of (fun _ => inferInstance) (fun _ => inferInstance)
      (fun h => absurd h hwrites) (fun _ => inferInstance) fun _ => inferInstance
  have := obeys_resolve hobeys mode
  exact Law.unwritten.of_returned h

/-! ## Pushes -/

/-- A push lowers the stack pointer by the bytes that it stores below it. -/
theorem ends_pushRegister {reg : Register}
    (h : (pushRegister stack reg).Ends cpu w (.ok ()) cpu') :
    w = pushes (cpu.regs.index stack) (cpu.regs.stackBytes reg) ∧ ∃ clock, cpu' = { cpu with
      regs := cpu.regs.setIndex stack
        (cpu.regs.index stack - .ofNat (cpu.regs.stackBytes reg).length)
      clock } := by
  unfold Ends pushRegister pushWord at h
  unfold Registers.stackBytes
  cases hwide : reg.isWide with
  | true =>
    simp only [hwide, if_true, bind_assoc, start_bind, start_regs, start_pushByte, start_charge,
      Traffic.done_bind, Traffic.write_bind, Registers.index_setIndex, Registers.setIndex_setIndex,
      Traffic.ends_write_ok, ends_leaf] at h
    obtain ⟨_, rfl, _, rfl, rfl, -, rfl⟩ := h
    have htwo : cpu.regs.index stack - .ofNat 2 = cpu.regs.index stack - 1 - 1 := by
      show cpu.regs.index stack - 2 = _
      grind
    rw [if_pos rfl, List.length_cons, List.length_singleton, htwo]
    exact ⟨rfl, _, rfl⟩
  | false =>
    simp only [hwide, Bool.false_eq_true, if_false, start_bind, start_regs, start_pushByte,
      start_charge, Traffic.done_bind, Traffic.write_bind, Traffic.ends_write_ok, ends_leaf] at h
    obtain ⟨_, rfl, rfl, -, rfl⟩ := h
    exact ⟨rfl, _, rfl⟩

/-- Pushes of several registers, none of them the stack itself, store their bytes one after the
other. -/
theorem ends_forM_pushRegister {regs : List Register} (hstack : stack.toRegister ∉ regs)
    (h : (regs.forM (pushRegister stack)).Ends cpu w (.ok ()) cpu') :
    w = pushes (cpu.regs.index stack) (regs.flatMap cpu.regs.stackBytes) := by
  induction regs generalizing cpu w with
  | nil =>
    obtain ⟨rfl, -, -⟩ := ends_pure.mp h
    rfl
  | cons reg regs ih =>
    have hrest : stack.toRegister ∉ regs := fun hmem => hstack (List.mem_cons_of_mem _ hmem)
    obtain ⟨_, mid, first, second, rfl, hfirst, hsecond⟩ := ends_bind_ok.mp h
    obtain ⟨rfl, clock, rfl⟩ := ends_pushRegister hfirst
    rw [ih hrest hsecond, Registers.index_setIndex, Registers.flatMap_stackBytes_setIndex hrest,
      List.flatMap_cons, pushes_append]

/-- The registers that the processor pushes are those that the mask names. -/
theorem stackedRegisters_eq (hstack : stack = .s ∨ stack = .u) (mask : UInt8) :
    stackedRegisters stack mask = Register.ofMask stack mask := by
  have all : ∀ n : Fin 256, ∀ stack ∈ [IndexRegister.s, .u],
      stackedRegisters stack (.ofFin n) = Register.ofMask stack (.ofFin n) := by
    decide +kernel
  exact all mask.toFin stack (by simpa using hstack)

theorem stack_not_mem_ofMask (hstack : stack = .s ∨ stack = .u) (mask : UInt8) :
    stack.toRegister ∉ Register.ofMask stack mask := by
  unfold Register.ofMask
  obtain rfl | rfl := hstack <;> simp [Register.ofMaskBit, IndexRegister.toRegister]

/-! ## All operations -/

theorem ends_stackEntireState {r} : stackEntireState.Ends cpu w r cpu' ↔
    w = pushes cpu.regs.s (cpu.regs.withEntire true).frame.reverse ∧ r = .ok () ∧
      cpu' = { cpu with regs := { cpu.regs.withEntire true with s := cpu.regs.s - 12 } } := by
  rw [Ends, start_stackEntireState, Traffic.ends_pushing_ok]
  simp only [ends_leaf]
  constructor
  · rintro ⟨_, rfl, rfl, hend⟩
    exact ⟨List.append_nil _, hend⟩
  · rintro ⟨rfl, hend⟩
    exact ⟨[], (List.append_nil _).symm, rfl, hend⟩

theorem addresses_of_suits {action : UInt16 → Action Unit}
    (h : (Effect.onAddress action).suits mode) : mode.addresses := by
  obtain ⟨hinherent, himmediate⟩ : mode ≠ .inherent ∧ mode ≠ .immediate := of_decide_eq_true h
  cases mode with
  | inherent => exact absurd rfl hinherent
  | immediate => exact absurd rfl himmediate
  | _ => rfl

/-- An operation in memory reads the byte at its address once and stores the result there. -/
theorem ends_modifyMemory {op : UnaryOp} {address : UInt16}
    (h : ((Operation.modifyMemory op).effect.atAddress address).Ends cpu w (.ok ()) cpu') :
    ∃ value, w = [.read address value, .write address (op.apply cpu.regs.cc value).1] := by
  unfold Ends Effect.atAddress Operation.effect at h
  simp only [start_bind, start_regs, start_modifyFlags, start_read, start_write, Traffic.done_bind,
    Traffic.read_bind, Traffic.ends_read_ok, Traffic.ends_write_ok, ends_leaf] at h
  obtain ⟨value, _, rfl, _, rfl, rfl, -, rfl⟩ := h
  exact ⟨value, rfl⟩

/-- CWAI pushes every register with CC masked and E set, and waits. -/
theorem ends_waitForInterrupt
    (h : (Operation.waitForInterrupt.effect.resolve .immediate).Ends cpu w (.ok ()) cpu') :
    ∃ mask, readBytes w = [mask] ∧
      writesOf w = pushes cpu.regs.s ((cpu.regs.masked mask).past 1).frame.reverse ∧
      cpu' = { cpu with
        regs := { (cpu.regs.masked mask).past 1 with s := cpu.regs.s - 12 }
        cwai := true } := by
  obtain ⟨mask, _, rfl, hmasking⟩ := ends_onByte_immediate h
  obtain ⟨_, _, _, _, rfl, hflags, hstacking⟩ := ends_bind_ok.mp hmasking
  obtain ⟨rfl, -, rfl⟩ := ends_modifyFlags.mp hflags
  obtain ⟨_, _, first, second, rfl, hstacking, hwaiting⟩ := ends_bind_ok.mp hstacking
  obtain ⟨rfl, -, rfl⟩ := ends_stackEntireState.mp hstacking
  unfold Ends at hwaiting
  simp only [start_bind, start_modify, start_regs, start_report, Traffic.done_bind,
    ends_report_leaf] at hwaiting
  obtain ⟨rfl, -, rfl⟩ := hwaiting
  have hmasked : cpu.regs.masked mask = { cpu.regs with
      cc := { Flags.ofByte (cpu.regs.cc.toByte &&& mask) with entire := true } } :=
    congrArg (fun cc => { cpu.regs with cc }) (Flags.ofByte_or_entire _)
  refine ⟨mask, ?_, ?_, ?_⟩
  · show mask :: readBytes (pushes _ _ ++ _) = [mask]
    rw [readBytes_append, readBytes_pushes]
    rfl
  · show writesOf (pushes _ _ ++ _) = pushes _ _
    rw [hmasked, writesOf_append, writesOf_pushes]
    exact List.append_nil _
  · rw [hmasked]
    rfl

/-- An operation writes what it documents. -/
theorem stores?_of_ends {operation : Operation} (hregular : operation.regular)
    (hsuits : operation.effect.suits mode) (hadmits : operation.admits mode)
    (h : (operation.effect.resolve mode).Ends cpu w (.ok ()) cpu') :
    operation.stores? mode cpu.regs (readBytes w) = some (writesOf w) := by
  by_cases hwrites : operation.writes
  · cases operation with
    | modifyMemory op =>
      obtain ⟨located, clock, rest, hlocate, rfl, hacting⟩ :=
        ends_resolve_located hsuits (addresses_of_suits hsuits) h
      obtain ⟨value, rfl⟩ := ends_modifyMemory hacting
      have hcc := (AddressingMode.locate?_spec hlocate false).2.2.1
      rw [hcc] at hlocate ⊢
      simp only [Operation.stores?, hlocate, writesOf_append, Located.writesOf_reads]
      rfl
    | call =>
      obtain ⟨located, clock, rest, hlocate, rfl, hacting⟩ :=
        ends_resolve_located hsuits (addresses_of_suits hsuits) h
      unfold Ends Effect.atAddress Operation.effect pushWord at hacting
      simp only [bind_assoc, start_bind, start_regs, start_pushByte, start_jump, Traffic.done_bind,
        Traffic.write_bind, Registers.index_setIndex, Registers.setIndex_setIndex,
        Traffic.ends_write_ok, ends_leaf] at hacting
      obtain ⟨_, rfl, _, rfl, rfl, -, rfl⟩ := hacting
      simp only [Operation.stores?, hlocate, writesOf_append, Located.writesOf_reads]
      rfl
    | store8 acc =>
      obtain ⟨located, clock, rest, hlocate, rfl, hacting⟩ :=
        ends_resolve_located hsuits (addresses_of_suits hsuits) h
      unfold Ends Effect.atAddress Operation.effect at hacting
      simp only [start_bind, start_regs, start_modifyFlags, start_write, Traffic.done_bind,
        Traffic.ends_write_ok, ends_leaf] at hacting
      obtain ⟨_, rfl, rfl, -, rfl⟩ := hacting
      simp only [Operation.stores?, hlocate, writesOf_append, Located.writesOf_reads]
      rfl
    | store16 reg =>
      obtain ⟨located, clock, rest, hlocate, rfl, hacting⟩ :=
        ends_resolve_located hsuits (addresses_of_suits hsuits) h
      unfold Ends Effect.atAddress Operation.effect writeWord at hacting
      simp only [start_bind, start_regs, start_modifyFlags, start_write, Traffic.done_bind,
        Traffic.write_bind, Traffic.ends_write_ok, ends_leaf] at hacting
      obtain ⟨_, rfl, _, rfl, rfl, -, rfl⟩ := hacting
      simp only [Operation.stores?, hlocate, writesOf_append, Located.writesOf_reads]
      rfl
    | push stack =>
      have hstack : stack = .s ∨ stack = .u := of_decide_eq_true hregular
      obtain rfl := fixedMode_of_admits hadmits rfl
      obtain ⟨mask, rest, rfl, hpushing⟩ := ends_onByte_immediate h
      rw [stackedRegisters_eq hstack] at hpushing
      obtain rfl := ends_forM_pushRegister (stack_not_mem_ofMask hstack mask) hpushing
      show some (pushes _ _) = some (writesOf (pushes _ _))
      rw [writesOf_pushes]
      cases stack <;> rfl
    | softwareInterrupt kind =>
      obtain rfl := fixedMode_of_admits hadmits rfl
      obtain ⟨_, _, first, second, rfl, hstacking, hentering⟩ := ends_bind_ok.mp h
      obtain ⟨rfl, -, rfl⟩ := ends_stackEntireState.mp hstacking
      have hnone : writesOf second = [] := Law.unwritten.of_returned hentering
      rw [writesOf_append, hnone, writesOf_pushes, List.append_nil]
      rfl
    | waitForInterrupt =>
      obtain rfl := fixedMode_of_admits hadmits rfl
      obtain ⟨mask, hbytes, hwritten, -⟩ := ends_waitForInterrupt h
      rw [hbytes, hwritten]
      rfl
    | _ => cases hwrites
  · rw [Operation.stores?_of_not_writes hwrites, writesOf_of_not_writes hwrites h]

end Action

/-! ## Steps -/

/-- What an instruction writes from these registers, if these bytes are read after its opcode. -/
def Instruction.stores? (instruction : Instruction) (regs : Registers) (bytes : List UInt8) :
    Option (List Exchange) :=
  instruction.operation.stores? instruction.entry.mode (regs.past instruction.code.length) bytes

namespace Machine

variable {σ : Type} (devices : Devices σ) (m : Machine σ)

/-- What the processor writes in a step, in order. -/
def written : List Exchange := writesOf (m.course devices).exchanges

variable {devices m} {instruction : Instruction} {bytes : List UInt8}

theorem Completes.stores?_eq (h : m.Completes devices instruction bytes) :
    instruction.stores? m.cpu.regs bytes = some (m.written devices) := by
  obtain ⟨w, hexchanges, rfl, hends⟩ := h.exists_ends
  unfold Machine.written
  rw [hexchanges, writesOf_append, writesOf_fetched]
  exact Action.stores?_of_ends instruction.regular_and_size.1 instruction.suits instruction.admits
    hends

/-- An operation in memory fetches its instruction, follows a pointer if it has one, and then does
no more than read the byte and write the result. -/
theorem Completes.requests_of_modifyMemory {op : UnaryOp}
    (h : m.Completes devices instruction bytes) (hop : instruction.operation = .modifyMemory op) :
    ∃ located value,
      instruction.entry.mode.locate? (m.cpu.regs.past instruction.code.length) bytes =
        some (located, [value]) ∧
      requests (m.course devices).exchanges =
        fetched m.cpu.regs.pc (instruction.code ++ located.code) ++ located.follows ++
          [.read located.address value,
            .write located.address (op.apply m.cpu.regs.cc value).1] := by
  have hsuits := instruction.suits
  rw [hop] at hsuits
  obtain ⟨located, clock, rest, hlocate, hrequests, hacting⟩ :=
    h.exists_located (Action.addresses_of_suits hsuits)
  rw [hop] at hacting
  obtain ⟨value, rfl⟩ := Action.ends_modifyMemory hacting
  have hcc : located.regs.cc = m.cpu.regs.cc := (AddressingMode.locate?_spec hlocate false).2.2.1
  rw [← hcc]
  exact ⟨located, value, hlocate, hrequests⟩

variable (devices) in
/-- Every write of a step that returns. An interrupt pushes what it saves, which is nothing in CWAI,
and an idle step writes nothing. An instruction writes what its operation documents, and if that is
to modify memory, then just after the one time that it reads the byte. -/
theorem step_writes (hok : (m.step devices).1 = .ok ()) :
    (∀ interrupt : Interrupt, interrupt.Wins m.bus.lines m.cpu →
      m.written devices = pushes m.cpu.regs.s (interrupt.saves m.cpu)) ∧
    (m.Quiet → m.cpu.Waits m.bus.lines → m.written devices = []) ∧
    (m.Quiet → ¬ m.cpu.Waits m.bus.lines → ∃ instruction bytes,
      m.Completes devices instruction bytes ∧
      instruction.stores? m.cpu.regs bytes = some (m.written devices) ∧
      ∀ op, instruction.operation = .modifyMemory op → ∃ located value,
        instruction.entry.mode.locate? (m.cpu.regs.past instruction.code.length) bytes =
          some (located, [value]) ∧
        requests (m.course devices).exchanges =
          fetched m.cpu.regs.pc (instruction.code ++ located.code) ++ located.follows ++
            [.read located.address value,
              .write located.address (op.apply m.cpu.regs.cc value).1]) := by
  refine ⟨fun interrupt hwins => ?_, fun hquiet hwaits => ?_, fun hquiet hawake => ?_⟩
  · have hends := ends_of_ok hok
    rw [Action.Ends, Action.start_step_of_wins hwins, Action.sampled_of_wins hwins] at hends
    obtain ⟨high, low, hexchanges, -⟩ := Action.ends_service.mp hends
    unfold written
    rw [hexchanges, writesOf_append, writesOf_append, writesOf_pushes, Interrupt.writesOf_enters,
      List.append_nil]
    exact List.append_nil _
  · unfold written
    rw [((m.waits_iff_of_quiet devices hquiet).mp hwaits).1]
    rfl
  · obtain ⟨instruction, bytes, hcompletes⟩ := exists_completes hquiet hawake hok
    exact ⟨instruction, bytes, hcompletes, hcompletes.stores?_eq, fun op =>
      hcompletes.requests_of_modifyMemory⟩

/-- A fresh processor on one page of memory, which begins with this code and is the last page as
well. -/
def onePage (code : Array UInt8) : Machine Unit where
  bus := {
    pages := (PageTable.unmapped.update 0 (·.putView .readWrite (some ⟨⟨0⟩, 0⟩))).update 0xFF
      (·.putView .readWrite (some ⟨⟨0⟩, 0⟩))
    store := ⟨#[code ++ Array.replicate (256 - code.size) 0]⟩
    devices := () }

/-- A processor on one page of memory, before an STX that steps X by two. -/
def storing : Machine Unit where
  cpu := { regs := { x := 0x00FE } }
  bus := {
    pages := PageTable.unmapped.update 0 (·.putView .readWrite (some ⟨⟨0⟩, 0⟩))
    store := ⟨#[#[0xAF, 0x81] ++ Array.replicate 254 0]⟩
    devices := () }

/-- What its first step comes to. -/
theorem storing_step : (storing.step Devices.none).1 = .ok () ∧
    readBytes (storing.course Devices.none).exchanges = [0xAF, 0x81] ∧
    storing.written Devices.none = [.write 0x00FE 0x01, .write 0x00FF 0x00] := by
  decide +kernel

theorem storing_executes : storing.Executes [] := executes_of_released rfl rfl rfl rfl

/-- STX with an indexed address. -/
def stx : Instruction where
  page := .page1
  opcode := 0xAF
  entry := ⟨.stx, .indexed, 5, 2⟩
  operation := .store16 .x
  find := by
    rw [Opcode.find?_eq_lookup]
    rfl
  names := rfl

theorem storing_completes : storing.Completes Devices.none stx [0x81] :=
  ⟨storing_executes.quiet, storing_executes.awake, storing_step.1, storing_step.2.1⟩

theorem step_writes_stepped : ∃ instruction bytes,
    storing.Completes Devices.none instruction bytes ∧
      instruction.stores? storing.cpu.regs bytes =
        some [.write 0x00FE 0x01, .write 0x00FF 0x00] := by
  obtain ⟨hok, -, hwritten⟩ := storing_step
  obtain ⟨-, -, hexecutes⟩ := step_writes Devices.none hok
  obtain ⟨instruction, bytes, hcompletes, hstores, -⟩ :=
    hexecutes storing_executes.quiet storing_executes.awake
  rw [hwritten] at hstores
  exact ⟨instruction, bytes, hcompletes, hstores⟩

end Machine

end Mc6809
