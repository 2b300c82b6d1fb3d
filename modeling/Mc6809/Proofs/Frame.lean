/-
  Interrupt frames. NMI and IRQ, the three software interrupts and CWAI stack every register
  with E set; FIRQ stacks PC and CC with E clear. RTI reads from the E that it pulls which of
  the two it stands before, so a frame is a list of bytes that is fixed by the registers it
  stands for (`Registers.frame`), and RTI brings those registers back (`Registers.unstack`).

  The two directions meet in `step_of_entry`, which says which frame an entry leaves above S,
  and `step_of_return`, which says what RTI makes of a frame wherever it finds one. That the
  frame is intact in between is all that matters, so the handler may do what it likes
  (`returnFromInterrupt_restores`). Interrupts that end a CWAI are in `Wait`.
-/
import Mc6809.Proofs.Flat

namespace Mc6809

/-! ## Frames -/

namespace Registers

/-- The bytes of a frame that holds these registers, from the lowest address upwards. E says
whether it holds all of them or only PC and CC. -/
def frame (regs : Registers) : List UInt8 :=
  if regs.cc.entire then
    [regs.cc.toByte, regs.a, regs.b, regs.dp, highByte regs.x, lowByte regs.x,
      highByte regs.y, lowByte regs.y, highByte regs.u, lowByte regs.u,
      highByte regs.pc, lowByte regs.pc]
  else [regs.cc.toByte, highByte regs.pc, lowByte regs.pc]

/-- The registers after a return from the frame of others: those that are in the frame are
back, and S stands above it. -/
def unstack (regs saved : Registers) : Registers :=
  if saved.cc.entire then { saved with s := regs.s + 12 }
  else { regs with pc := saved.pc, cc := saved.cc, s := regs.s + 3 }

theorem length_frame (regs : Registers) :
    regs.frame.length = if regs.cc.entire then 12 else 3 := by
  unfold frame
  split <;> rfl

/-- A frame that has been pushed, its last byte first, stands above the lowered pointer. -/
theorem slice_push_frame (regs : Registers) (memory : Memory) (pointer : UInt16) :
    (memory.push pointer regs.frame.reverse).slice (pointer - .ofNat regs.frame.length)
      regs.frame.length = regs.frame := by
  have hlength := regs.length_frame
  exact Memory.slice_push_reverse _ _ _ (by split at hlength <;> omega)

/-- The same registers with E as given. -/
def withEntire (regs : Registers) (entire : Bool) : Registers :=
  { regs with cc := { regs.cc with entire } }

end Registers

/-! ## Stacking and unstacking -/

namespace Traffic

variable {α : Type}

/-- Pushes bytes below a pointer and continues. -/
def pushing (pointer : UInt16) (next : Traffic α) : List UInt8 → Traffic α
  | [] => next
  | byte :: rest => .write (pointer - 1) byte (pushing (pointer - 1) next rest)

@[simp] theorem pushing_bind {β : Type} (pointer : UInt16) (next : Traffic α) (bytes : List UInt8)
    (f : α → Traffic β) :
    next.pushing pointer bytes >>= f = (next >>= f).pushing pointer bytes := by
  induction bytes generalizing pointer with
  | nil => rfl
  | cons byte bytes ih => rw [pushing, write_bind, ih, pushing]

theorem onMemory_pushing (pointer : UInt16) (next : Traffic α) (bytes : List UInt8)
    (memory : Memory) :
    (next.pushing pointer bytes).onMemory memory = next.onMemory (memory.push pointer bytes) := by
  induction bytes generalizing pointer memory with
  | nil => rfl
  | cons byte bytes ih => exact ih (pointer - 1) (memory.set (pointer - 1) byte)

end Traffic

namespace Action

variable (cpu : Cpu) (memory : Memory)

theorem start_stackEntireState : stackEntireState.start cpu = (Traffic.done (.ok (), { cpu with
      regs := { cpu.regs.withEntire true with s := cpu.regs.s - 12 } })).pushing cpu.regs.s
        (cpu.regs.withEntire true).frame.reverse := by
  have hpointer : cpu.regs.s - 12 =
      cpu.regs.s - 1 - 1 - 1 - 1 - 1 - 1 - 1 - 1 - 1 - 1 - 1 - 1 := by grind
  unfold stackEntireState pushWord
  simp only [start_bind, start_modifyFlags, start_regs, start_pushByte, Traffic.done_bind,
    Traffic.write_bind, Registers.index, Registers.setIndex]
  rw [hpointer]
  rfl

theorem start_saveState (interrupt : Interrupt) : (saveState interrupt).start cpu =
    (Traffic.done (.ok (), { cpu with
      regs := { cpu.regs.withEntire (interrupt != .firq) with
        s := cpu.regs.s - .ofNat (cpu.regs.withEntire (interrupt != .firq)).frame.length }
      clock := cpu.clock + .ofNat interrupt.cost })).pushing cpu.regs.s
        (cpu.regs.withEntire (interrupt != .firq)).frame.reverse := by
  cases interrupt with
  | firq =>
    have hpointer : cpu.regs.s - .ofNat (cpu.regs.withEntire false).frame.length =
        cpu.regs.s - 1 - 1 - 1 := by
      show cpu.regs.s - 3 = _
      grind
    unfold saveState pushWord
    simp only [start_bind, start_charge, start_modifyFlags, start_regs, start_pushByte,
      Traffic.done_bind, Traffic.write_bind, Registers.index, Registers.setIndex, bne_self_eq_false]
    rw [hpointer]
    rfl
  | nmi | irq =>
    unfold saveState
    rw [start_bind, start_charge, Traffic.done_bind]
    exact start_stackEntireState _

theorem onMemory_stackEntireState : stackEntireState.onMemory cpu memory =
    ((.ok (), { cpu with regs := { cpu.regs.withEntire true with s := cpu.regs.s - 12 } }),
      memory.push cpu.regs.s (cpu.regs.withEntire true).frame.reverse) := by
  rw [onMemory, start_stackEntireState, Traffic.onMemory_pushing]
  rfl

theorem onMemory_saveState (interrupt : Interrupt) :
    (saveState interrupt).onMemory cpu memory =
      ((.ok (), { cpu with
        regs := { cpu.regs.withEntire (interrupt != .firq) with
          s := cpu.regs.s - .ofNat (cpu.regs.withEntire (interrupt != .firq)).frame.length }
        clock := cpu.clock + .ofNat interrupt.cost }),
      memory.push cpu.regs.s (cpu.regs.withEntire (interrupt != .firq)).frame.reverse) := by
  rw [onMemory, start_saveState, Traffic.onMemory_pushing]
  rfl

variable {cpu memory} {saved : Registers}

theorem onMemory_returnFromInterrupt
    (hframe : memory.slice cpu.regs.s saved.frame.length = saved.frame) :
    returnFromInterrupt.onMemory cpu memory = ((.ok (), { cpu with
      regs := cpu.regs.unstack saved
      clock := cpu.clock + if saved.cc.entire then 9 else 0 }), memory) := by
  unfold returnFromInterrupt pullWord
  -- RTI goes on by the E that it has just pulled, which is the one in the frame.
  cases hentire : saved.cc.entire with
  | true =>
    have hpointer : cpu.regs.s + 1 + 1 + 1 + 1 + 1 + 1 + 1 + 1 + 1 + 1 + 1 + 1 =
        cpu.regs.s + 12 := by grind
    simp only [Registers.frame, hentire, if_true, Memory.slice, List.length_cons, List.length_nil,
      List.cons.injEq, and_true] at hframe
    obtain ⟨hcc, ha, hb, hdp, hxh, hxl, hyh, hyl, huh, hul, hpch, hpcl⟩ := hframe
    simp only [onMemory_bind, onMemory_pullByte, onMemory_modifyFlags, onMemory_regs,
      onMemory_modifyRegs, onMemory_charge, onMemory_pure, onMemory_jump, Registers.index,
      Registers.setIndex, hcc, Flags.ofByte_toByte, hentire, if_true, ha, hb, hdp, hxh, hxl, hyh,
      hyl, huh, hul, hpch, hpcl, joinBytes_highByte_lowByte, Registers.unstack]
    rw [hpointer]
  | false =>
    have hpointer : cpu.regs.s + 1 + 1 + 1 = cpu.regs.s + 3 := by grind
    simp only [Registers.frame, hentire, Bool.false_eq_true, if_false, Memory.slice,
      List.length_cons, List.length_nil, List.cons.injEq, and_true] at hframe
    obtain ⟨hcc, hpch, hpcl⟩ := hframe
    simp only [onMemory_bind, onMemory_pullByte, onMemory_modifyFlags, onMemory_regs,
      onMemory_pure, onMemory_jump, Registers.index, Registers.setIndex, hcc,
      Flags.ofByte_toByte, hentire, Bool.false_eq_true, if_false, hpch, hpcl,
      joinBytes_highByte_lowByte, Registers.unstack, UInt64.add_zero]
    rw [hpointer]

variable (cpu memory) (interrupt : Interrupt)

theorem onMemory_enter (handler : UInt16) : (enter interrupt handler).onMemory cpu memory =
    ((.ok (), { cpu with regs.pc := handler, cwai := false }), memory) := by
  cases interrupt <;> rfl

/-- Outside CWAI an interrupt leaves its frame above S, and handler and masks come after that. -/
theorem onMemory_service (hcwai : cpu.cwai = false) :
    ∃ cc pc clock, (service interrupt).onMemory cpu memory = ((.ok (), { cpu with
      regs := { cpu.regs with
        s := cpu.regs.s - .ofNat (cpu.regs.withEntire (interrupt != .firq)).frame.length
        cc
        pc }
      clock
      cwai := false }),
      memory.push cpu.regs.s (cpu.regs.withEntire (interrupt != .firq)).frame.reverse) := by
  rw [service_eq]
  unfold prepare
  simp only [onMemory_bind, onMemory_get, hcwai, Bool.not_false, if_true, onMemory_saveState,
    onMemory_modifyFlags, onMemory_readWord, onMemory_enter]
  exact ⟨_, _, _, rfl⟩

theorem onMemory_softwareInterrupt (kind : SoftwareInterrupt) :
    ∃ cc pc, (softwareInterrupt kind).onMemory cpu memory = ((.ok (), { cpu with
      regs := { cpu.regs with s := cpu.regs.s - 12, cc, pc } }),
      memory.push cpu.regs.s (cpu.regs.withEntire true).frame.reverse) := by
  unfold softwareInterrupt
  cases kind <;>
    simp only [onMemory_bind, onMemory_stackEntireState, onMemory_modifyFlags,
      onMemory_readWord, onMemory_jump, onMemory_report, if_true, reduceCtorEq, if_false] <;>
    exact ⟨_, _, rfl⟩

end Action

/-! ## Entries -/

/-- The ways into a handler. -/
inductive Entry where
  | line (interrupt : Interrupt)
  | software (kind : SoftwareInterrupt)
deriving DecidableEq, Repr

/-- The table in which the instruction stands that makes a software interrupt. -/
def SoftwareInterrupt.page : SoftwareInterrupt → OpcodePage
  | swi => .page1
  | swi2 => .page2
  | swi3 => .page3

namespace Entry

/-- Whether every register is stacked. -/
def entire : Entry → Bool
  | line interrupt => interrupt != .firq
  | software _ => true

/-- The bytes of the instruction that makes the entry. A line needs none. -/
def code : Entry → List UInt8
  | line _ => []
  | software kind => kind.page.code 0x3F

/-- The registers that the entry stacks: PC behind the instruction, and E for the kind of
frame. -/
def stacked (entry : Entry) (regs : Registers) : Registers :=
  { regs.withEntire entry.entire with pc := regs.pc + .ofNat entry.code.length }

/-- The number of bytes that the entry stacks. -/
def frameLength (entry : Entry) : Nat := if entry.entire then 12 else 3

theorem length_frame_stacked (entry : Entry) (regs : Registers) :
    (entry.stacked regs).frame.length = entry.frameLength := Registers.length_frame _

/-- The next step of the machine makes the entry, outside CWAI. -/
def Taken {σ : Type} (m : Machine σ) : Entry → Prop
  | line interrupt => interrupt.Wins m.bus.lines m.cpu ∧ m.cpu.cwai = false
  | software kind => m.Executes (kind.page.code 0x3F)

end Entry

namespace Machine

variable {σ : Type} (devices : Devices σ) {m : Machine σ}

/-- An entry stacks its frame and leaves S below it. -/
theorem step_of_entry {entry : Entry} (hflat : m.bus.IsFlat) (h : entry.Taken m) :
    (m.step devices).1 = .ok () ∧ (m.step devices).2.bus.IsFlat ∧
      (m.step devices).2.cpu.regs.s = m.cpu.regs.s - .ofNat entry.frameLength ∧
      (m.step devices).2.bus.memory =
        m.bus.memory.push m.cpu.regs.s (entry.stacked m.cpu.regs).frame.reverse := by
  rw [← entry.length_frame_stacked m.cpu.regs]
  cases entry with
  | line interrupt =>
    obtain ⟨hwins, hcwai⟩ := h
    have hstacked : (Entry.line interrupt).stacked m.cpu.regs =
        m.cpu.regs.withEntire (interrupt != .firq) := by
      show { m.cpu.regs.withEntire _ with pc := m.cpu.regs.pc + 0 } = _
      rw [UInt16.add_zero]
      rfl
    obtain ⟨sync, hsampled⟩ := Action.sampled_eq m.bus.lines m.cpu
    obtain ⟨cc, pc, clock, hservice⟩ := Action.onMemory_service { m.cpu with sync } m.bus.memory
      interrupt hcwai
    have heval := congrArg (Traffic.onMemory · m.bus.memory) (Action.start_step_of_wins hwins)
    rw [hsampled] at heval
    obtain ⟨hok, hcpu, hflat', hmemory⟩ := step_of_isFlat devices hflat (heval.trans hservice)
    rw [hstacked, hcpu]
    exact ⟨hok, hflat', rfl, hmemory⟩
  | software kind =>
    have hcode : m.Executes (kind.page.code 0x3F ++ []) := by
      rw [List.append_nil]
      exact h
    obtain ⟨⟨mnemonic, _, cycles, size⟩, hfind, rfl, hoperation⟩ : ∃ entry,
        Opcode.find? kind.page 0x3F = some entry ∧ entry.mode = .inherent ∧
          entry.mnemonic.operation = some (.softwareInterrupt kind) := by
      rw [Opcode.find?_eq_lookup]
      cases kind <;> exact ⟨_, rfl, rfl, rfl⟩
    obtain ⟨cc, pc, hsoftware⟩ := Action.onMemory_softwareInterrupt { m.cpu with
      sync := false
      regs.pc := m.cpu.regs.pc + .ofNat (kind.page.code 0x3F).length
      clock := m.cpu.clock + cycles.toUInt64 } m.bus.memory kind
    obtain ⟨hok, hcpu, hflat', hmemory⟩ :=
      step_of_executes devices hflat hcode hfind hoperation hsoftware
    rw [hcpu]
    exact ⟨hok, hflat', rfl, hmemory⟩

/-- Wherever RTI finds a frame, it brings back the registers that the frame holds. -/
theorem step_of_return {saved : Registers} (hflat : m.bus.IsFlat) (h : m.Executes [0x3B])
    (hframe : m.bus.memory.slice m.cpu.regs.s saved.frame.length = saved.frame) :
    (m.step devices).1 = .ok () ∧ (m.step devices).2.cpu.regs = m.cpu.regs.unstack saved := by
  have hfind : Opcode.find? .page1 0x3B = some ⟨.rti, .inherent, 6, 1⟩ := by
    rw [Opcode.find?_eq_lookup]
    rfl
  have hcode : m.Executes (OpcodePage.page1.code 0x3B ++ []) := h
  obtain ⟨hok, hcpu, -⟩ := step_of_executes devices hflat hcode hfind rfl
    (Action.onMemory_returnFromInterrupt hframe)
  rw [hcpu]
  refine ⟨hok, ?_⟩
  unfold Registers.unstack
  split <;> rfl

/-! ## Entry and return -/

/-- The frame of an entry stands above the S that it leaves. -/
theorem slice_of_entry {entry : Entry} (hflat : m.bus.IsFlat) (h : entry.Taken m) :
    (m.step devices).2.bus.memory.slice (m.step devices).2.cpu.regs.s entry.frameLength =
      (entry.stacked m.cpu.regs).frame := by
  obtain ⟨-, -, hs, hmemory⟩ := step_of_entry devices hflat h
  rw [hs, hmemory, ← entry.length_frame_stacked m.cpu.regs]
  exact Registers.slice_push_frame _ _ _

/-- An interrupt of any kind and the RTI that ends its handler. Whatever the handler made of the
machine, if S is where the entry left it and the bytes of the frame are intact, RTI puts S and PC
back, CC with E for the kind of frame, and from a full frame every other register too; from a
short one the others stay as the handler has them. -/
theorem returnFromInterrupt_restores {entry : Entry} {later : Machine σ} (hflat : m.bus.IsFlat)
    (hentry : entry.Taken m) (hlater : later.bus.IsFlat) (hreturn : later.Executes [0x3B])
    (hs : later.cpu.regs.s = (m.step devices).2.cpu.regs.s)
    (hframe : later.bus.memory.slice later.cpu.regs.s entry.frameLength =
      (m.step devices).2.bus.memory.slice (m.step devices).2.cpu.regs.s entry.frameLength) :
    (m.step devices).1 = .ok () ∧ (later.step devices).1 = .ok () ∧
      (later.step devices).2.cpu.regs =
        if entry.entire then { m.cpu.regs with
          pc := m.cpu.regs.pc + .ofNat entry.code.length
          cc := { m.cpu.regs.cc with entire := true } }
        else { later.cpu.regs with
          s := m.cpu.regs.s
          pc := m.cpu.regs.pc + .ofNat entry.code.length
          cc := { m.cpu.regs.cc with entire := false } } := by
  obtain ⟨hentered, -, hlowered, -⟩ := step_of_entry devices hflat hentry
  have hintact : later.bus.memory.slice later.cpu.regs.s
      (entry.stacked m.cpu.regs).frame.length = (entry.stacked m.cpu.regs).frame := by
    rw [entry.length_frame_stacked, hframe]
    exact slice_of_entry devices hflat hentry
  obtain ⟨hok, hregs⟩ := step_of_return devices hlater hreturn hintact
  refine ⟨hentered, hok, ?_⟩
  have htwelve : m.cpu.regs.s - .ofNat 12 + 12 = m.cpu.regs.s := UInt16.sub_add_cancel _ _
  have hthree : m.cpu.regs.s - .ofNat 3 + 3 = m.cpu.regs.s := UInt16.sub_add_cancel _ _
  rw [hregs, Registers.unstack, hs, hlowered, Entry.frameLength, Entry.stacked,
    Registers.withEntire]
  cases entry.entire with
  | true => simp only [if_true, htwelve]
  | false => simp only [Bool.false_eq_true, if_false, hthree]

/-- Memory full of RTI, and an FIRQ whose frame wraps around. -/
def wrappingFirq : Machine Unit where
  cpu.regs := { pc := 0x4000, s := 1 }
  bus := { Bus.ofMemory (fun _ => 0x3B) () with lines := { firq := true } }

/-- The same machine at the end of a handler that has changed X. -/
def wrappingFirqHandled : Machine Unit := { (wrappingFirq.step Devices.none).2 with
  cpu := { regs := { pc := 0x5000, s := 0xFFFE, x := 0x1234 } }
  bus := { (wrappingFirq.step Devices.none).2.bus with lines := {} } }

theorem returnFromInterrupt_restores_wrapping :
    (wrappingFirq.step Devices.none).2.cpu.regs.s = 0xFFFE ∧
      (wrappingFirqHandled.step Devices.none).2.cpu.regs =
        { pc := 0x4000, s := 1, x := 0x1234 } := by
  have hflat : wrappingFirq.bus.IsFlat := ((Bus.isFlat_ofMemory _ ()).withLines _).1
  have hentry : (Entry.line .firq).Taken wrappingFirq := by
    refine ⟨⟨⟨rfl, by decide⟩, ?_⟩, rfl⟩
    rw [Interrupt.forall_iff]
    exact ⟨fun _ h => absurd h.1 (by decide), fun hlt => absurd hlt (by decide),
      fun hlt => absurd hlt (by decide)⟩
  obtain ⟨-, hflat', hs, hmemory⟩ := step_of_entry Devices.none hflat hentry
  have hlater : wrappingFirqHandled.bus.IsFlat := (hflat'.withLines {}).1
  have hkept : wrappingFirqHandled.bus.memory = (wrappingFirq.step Devices.none).2.bus.memory :=
    (hflat'.withLines {}).2
  have hreturn : wrappingFirqHandled.Executes [0x3B] := by
    refine executes_of_released rfl rfl rfl ?_
    show [wrappingFirqHandled.bus.memory 0x5000] = [0x3B]
    rw [hkept, hmemory, Memory.push_apply _ _ _ _ (by decide)]
    show [(Bus.ofMemory (fun _ => 0x3B) ()).memory 0x5000] = [0x3B]
    rw [Bus.memory_ofMemory]
  have hlowered : (wrappingFirq.step Devices.none).2.cpu.regs.s = 0xFFFE := hs
  obtain ⟨-, -, hregs⟩ := returnFromInterrupt_restores Devices.none hflat hentry hlater hreturn
    hlowered.symm (by rw [hkept, hlowered]; rfl)
  exact ⟨hlowered, hregs⟩

end Machine

end Mc6809
