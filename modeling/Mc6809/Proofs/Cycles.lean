/-
  What a step costs. `Machine.stepCost?` is the documented cost: it goes by how the step
  ended, by the interrupt or the waiting it found, and for an instruction by its table entry,
  the flags and the bytes that the step read. `step_clock` says that the clock advances by
  just that, whatever the state and the bus.

  The processor charges in pieces. Finding an operand charges for an indexed post-byte
  (`Finds`); four operations charge for what they do (`clock_resolve`); an entry charges its
  base cycles (`clock_documented`); an interrupt charges for stacking (`clock_service`). Two
  laws keep the rest out of it: all other code leaves the clock alone (`Law.keeps`), and
  nothing that follows the charge of an operand can find a fault (`Law.faultless`).
-/
import Mc6809.Proofs.Transaction

namespace Mc6809

/-! ## The documented cost -/

/-- The entry that an instruction's bytes select, and the bytes after the opcode. -/
def Opcode.select? : List UInt8 → Option (Entry × List UInt8)
  | [] => none
  | opcode :: rest => (find? .page1 opcode).bind fun entry =>
    match entry.mnemonic.prefixOf?, rest with
    | none, _ => some (entry, rest)
    | some page, opcode :: rest => (find? page opcode).map (·, rest)
    | some _, [] => none

/-- Finding the operand costs what an indexed post-byte asks for, and nothing in the other
modes. -/
def AddressingMode.operandCycles : AddressingMode → List UInt8 → Nat
  | .indexed, postbyte :: _ =>
    match Postbyte.decode postbyte with
    | .ok decoded => decoded.extraCycles.toNat
    | .error _ => 0
  | _, _ => 0

/-- A push or pull costs two cycles for each of PC, U or S, Y and X, which bits 7 to 4 of its
mask stand for, and one for each of DP, B, A and CC. -/
def maskCycles (mask : UInt8) : Nat :=
  2 * [7, 6, 5, 4].countP mask.toNat.testBit + [3, 2, 1, 0].countP mask.toNat.testBit

/-- What an operation costs by the flags and by the first byte it reads: a long branch that
is taken, a push or pull by its mask, and a return from interrupt by the E that it pulls. -/
def Operation.dataCycles (cc : Flags) : Operation → List UInt8 → Nat
  | longBranch condition, _ => if condition.holds cc then 1 else 0
  | push _, mask :: _ | pull _, mask :: _ => maskCycles mask
  | returnFromInterrupt, pulled :: _ => if (Flags.ofByte pulled).entire then 9 else 0
  | _, _ => 0

/-- The cycles of an instruction with the given flags at its start and the given bytes after
its opcode. -/
def Opcode.Entry.cost (entry : Entry) (cc : Flags) (rest : List UInt8) : Nat :=
  entry.cycles.toNat + entry.mode.operandCycles rest +
    entry.mnemonic.operation.elim 0 (·.dataCycles cc rest)

/-- The cycles of an interrupt that has to stack what it saves. -/
def Interrupt.cost : Interrupt → Nat
  | .nmi | .irq => 19
  | .firq => 10

namespace Action

/-- The cycles of a step that found the given lines and processor, read the given bytes and
ended in the given way. A bus fault costs nothing, and a decode fault costs the base cycles of
the entry or, without an entry, one cycle per opcode byte. A completed instruction without an
entry would have no cost. -/
def stepCost? (lines : InterruptLines) (cpu : Cpu) (bytes : List UInt8) :
    Except Fault Unit → Option Nat
  | .error fault =>
    if fault.isBusFault then some 0
    else some ((Opcode.select? bytes).elim bytes.length fun (entry, _) => entry.cycles.toNat)
  | .ok () =>
    match pending? lines (sampled lines cpu) with
    | some interrupt => some (if cpu.cwai then 0 else interrupt.cost)
    | none =>
      if (sampled lines cpu).cwai || (sampled lines cpu).sync then some 1
      else (Opcode.select? bytes).map fun (entry, rest) => entry.cost cpu.regs.cc rest

end Action

/-- The cycles that the step of a machine has to cost. -/
def Machine.stepCost? {σ : Type} (devices : Devices σ) (m : Machine σ) : Option Nat :=
  Action.stepCost? m.bus.lines m.cpu (readBytes (m.course devices).exchanges) (m.step devices).1

namespace Action

instance : AllowsRegs (Law.keeps Cpu.clock) := ⟨fun _ _ => rfl⟩
instance : AllowsArming (Law.keeps Cpu.clock) := ⟨fun _ => rfl⟩
instance : AllowsWaiting (Law.keeps Cpu.clock) := ⟨fun _ => rfl, fun _ => rfl⟩
instance : AllowsWaking (Law.keeps Cpu.clock) := ⟨fun _ => rfl, fun _ => rfl⟩

/-! ## Operands -/

section Operands

variable {α β : Type} {mode : AddressingMode} {action : Action α}

/-- The action charges just what finding an operand in the mode costs, by the bytes it reads
and whatever is read after them. If it finds a fault, it has charged nothing. -/
structure Finds (mode : AddressingMode) (action : Action α) : Prop where
  returned : ∀ {cpu w a cpu'}, action.Ends cpu w (.ok a) cpu' → ∀ more,
    cpu'.clock = cpu.clock + .ofNat (mode.operandCycles (readBytes w ++ more))
  thrown : ∀ {cpu w fault cpu'}, action.Ends cpu w (.error fault) cpu' → cpu'.clock = cpu.clock

theorem operandCycles_eq_zero (h : mode ≠ .indexed) (bytes : List UInt8) :
    mode.operandCycles bytes = 0 := by
  cases mode <;> first | rfl | exact absurd rfl h

theorem Finds.of_keeps [Obeys (Law.keeps Cpu.clock) action] (h : mode ≠ .indexed) :
    Finds mode action where
  returned := by
    intro cpu w a cpu' hends more
    rw [operandCycles_eq_zero h]
    have hclock : cpu'.clock = cpu.clock := (Law.keeps Cpu.clock).of_returned hends
    rw [hclock]
    exact (UInt64.add_zero _).symm
  thrown := fun hends => (Law.keeps Cpu.clock).of_thrown hends

/-- A fault after the operand is not of the processor's making, so one that it finds lies
before the charge. -/
theorem Finds.bind_thrown {f : α → Action β} (h : Finds mode action)
    (hfaultless : ∀ a, Obeys Law.faultless (f a)) {cpu w fault cpu'}
    (hends : (action >>= f).Ends cpu w (.error fault) cpu') : cpu'.clock = cpu.clock := by
  obtain ⟨_, hr, hfirst⟩ | ⟨a, mid, first, second, rfl, -, hsecond⟩ := ends_bind.mp hends
  · cases hr
    exact h.thrown hfirst
  · exact (Law.faultless.of_thrown hsecond).elim

theorem Finds.bind {f : α → Action β} (h : Finds mode action)
    (hkeeps : ∀ a, Obeys (Law.keeps Cpu.clock) (f a))
    (hfaultless : ∀ a, Obeys Law.faultless (f a)) : Finds mode (action >>= f) where
  returned := by
    intro cpu w b cpu' hends more
    obtain ⟨a, mid, first, second, rfl, hfirst, hsecond⟩ := ends_bind_ok.mp hends
    have hclock : cpu'.clock = mid.clock := (Law.keeps Cpu.clock).of_returned hsecond
    rw [hclock, readBytes_append, List.append_assoc]
    exact h.returned hfirst _
  thrown := h.bind_thrown hfaultless

theorem finds_indexedAddress : Finds .indexed indexedAddress where
  returned := by
    intro cpu w address cpu' hends more
    unfold indexedAddress at hends
    obtain ⟨postbyte, mid, _, w₁, rfl, hfetch, hdecoding⟩ := ends_bind_ok.mp hends
    obtain ⟨_, rfl, hpostbyte, rfl⟩ := ends_fetch.mp hfetch
    cases hpostbyte
    obtain ⟨decoded, _, _, w₂, rfl, hdecode, hcharging⟩ := ends_bind_ok.mp hdecoding
    obtain ⟨rfl, hmeaning, rfl⟩ := ends_ofExcept.mp hdecode
    obtain ⟨_, _, _, w₃, rfl, hcharge, hforming⟩ := ends_bind_ok.mp hcharging
    obtain ⟨rfl, -, rfl⟩ := ends_charge.mp hcharge
    have hclock := (Law.keeps Cpu.clock).of_returned hforming
    simp only [Law.keeps] at hclock
    rw [hclock]
    simp only [List.nil_append, List.cons_append, readBytes, AddressingMode.operandCycles,
      ← hmeaning, UInt64.ofNat_uInt8ToNat]
  thrown := by
    intro cpu w fault cpu' hends
    unfold indexedAddress at hends
    obtain ⟨_, -, hfetch⟩ | ⟨postbyte, mid, _, w₁, rfl, hfetch, hdecoding⟩ := ends_bind.mp hends
    · exact (Law.keeps Cpu.clock).of_thrown hfetch
    obtain ⟨_, -, -, rfl⟩ := ends_fetch.mp hfetch
    obtain ⟨_, -, hdecode⟩ | ⟨decoded, _, _, w₂, rfl, hdecode, hforming⟩ := ends_bind.mp hdecoding
    · exact ((Law.keeps Cpu.clock).of_thrown hdecode :)
    · exact (Law.faultless.of_thrown hforming).elim

theorem finds_effectiveAddress (mode : AddressingMode) : Finds mode (effectiveAddress mode) := by
  cases mode with
  | indexed => exact finds_indexedAddress
  | _ =>
    unfold effectiveAddress
    exact .of_keeps (by decide)

theorem finds_operand8 (mode : AddressingMode) : Finds mode (operand8 mode) := by
  cases mode with
  | immediate =>
    unfold operand8
    exact .of_keeps (by decide)
  | _ => exact (finds_effectiveAddress _).bind (fun _ => inferInstance) fun _ => inferInstance

theorem finds_operand16 (mode : AddressingMode) : Finds mode (operand16 mode) := by
  cases mode with
  | immediate =>
    unfold operand16
    exact .of_keeps (by decide)
  | _ => exact (finds_effectiveAddress _).bind (fun _ => inferInstance) fun _ => inferInstance

end Operands

/-! ## Fixed costs -/

section Costs

variable {α β : Type} {action : Action α} {f : α → Action β} {m n : Nat}

/-- Whenever the action returns, it has charged just so many cycles. -/
structure Costs (n : Nat) (action : Action α) : Prop where
  returned : ∀ {cpu w a cpu'}, action.Ends cpu w (.ok a) cpu' → cpu'.clock = cpu.clock + .ofNat n

theorem Costs.of_keeps [Obeys (Law.keeps Cpu.clock) action] : Costs 0 action where
  returned := by
    intro cpu w a cpu' h
    have hclock : cpu'.clock = cpu.clock := (Law.keeps Cpu.clock).of_returned h
    rw [hclock]
    exact (UInt64.add_zero _).symm

theorem Costs.bind (h : Costs m action) (hf : ∀ a, Costs n (f a)) :
    Costs (m + n) (action >>= f) where
  returned := by
    intro cpu w b cpu' hends
    obtain ⟨a, mid, first, second, rfl, hfirst, hsecond⟩ := ends_bind_ok.mp hends
    rw [(hf a).returned hsecond, h.returned hfirst, UInt64.ofNat_add, UInt64.add_assoc]

/-- What leaves the clock alone may stand in front. -/
theorem Costs.keep [Obeys (Law.keeps Cpu.clock) action] (hf : ∀ a, Costs n (f a)) :
    Costs n (action >>= f) := by
  rw [← Nat.zero_add n]
  exact Costs.of_keeps.bind hf

theorem costs_charge (n : Nat) : Costs n (charge (.ofNat n)) where
  returned := by
    intro cpu w a cpu' h
    obtain ⟨-, -, rfl⟩ := ends_charge.mp h
    rfl

/-- A round of a loop over registers may cost a cycle, and one more for a wide register. -/
theorem Costs.forM {f : Register → Action Unit}
    (hf : ∀ reg, Costs (if reg.isWide then 2 else 1) (f reg)) (regs : List Register) :
    Costs (regs.length + regs.countP Register.isWide) (regs.forM f) := by
  induction regs with
  | nil => exact (Costs.of_keeps : Costs 0 (pure () : Action Unit))
  | cons reg regs ih =>
    have hsum : (reg :: regs).length + (reg :: regs).countP Register.isWide =
        (if reg.isWide then 2 else 1) + (regs.length + regs.countP Register.isWide) := by
      rw [List.length_cons, List.countP_cons]
      split <;> omega
    rw [hsum]
    exact (hf reg).bind fun _ => ih

end Costs

/-! ## Stacks -/

theorem stackCycles_eq (reg : Register) :
    stackCycles reg = .ofNat (if reg.isWide then 2 else 1) := by
  cases reg <;> rfl

theorem costs_pushRegister (stack : IndexRegister) (reg : Register) :
    Costs (if reg.isWide then 2 else 1) (pushRegister stack reg) := by
  unfold pushRegister
  rw [stackCycles_eq]
  refine .keep fun regs => ?_
  dsimp only
  cases reg.isWide with
  | true => exact .keep fun _ => costs_charge 2
  | false => exact .keep fun _ => costs_charge 1

theorem costs_pullRegister (stack : IndexRegister) (reg : Register) :
    Costs (if reg.isWide then 2 else 1) (pullRegister stack reg) := by
  unfold pullRegister
  rw [stackCycles_eq, ← Nat.add_zero (if reg.isWide then 2 else 1)]
  exact (costs_charge _).bind fun _ => .of_keeps

/-- The bits of a mask, and whether they stand for wide registers. -/
def maskBits : List (UInt8 × Bool) :=
  [(0x80, true), (0x40, true), (0x20, true), (0x10, true), (0x08, false), (0x04, false),
    (0x02, false), (0x01, false)]

theorem stackOrder_bits (stack : IndexRegister) :
    (stackOrder stack).map (fun entry => (entry.1, entry.2.isWide)) = maskBits := by
  cases stack <;> rfl

theorem maskCycles_eq (mask : UInt8) :
    maskCycles mask = (maskBits.countP fun bit => mask &&& bit.1 != 0) +
      maskBits.countP fun bit => bit.2 && mask &&& bit.1 != 0 := by
  have all : ∀ n : Fin 256, maskCycles (UInt8.ofFin n) =
      (maskBits.countP fun bit => UInt8.ofFin n &&& bit.1 != 0) +
        maskBits.countP fun bit => bit.2 && UInt8.ofFin n &&& bit.1 != 0 := by
    decide +kernel
  exact all mask.toFin

/-- The registers that a mask names cost what the mask says. -/
theorem cycles_stackedRegisters (stack : IndexRegister) (mask : UInt8) :
    (stackedRegisters stack mask).length + (stackedRegisters stack mask).countP Register.isWide =
      maskCycles mask := by
  rw [maskCycles_eq, ← stackOrder_bits stack, List.countP_map, List.countP_map]
  unfold stackedRegisters
  rw [List.length_map, ← List.countP_eq_length_filter, List.countP_map, List.countP_filter]
  rfl

/-! ## Operations -/

/-- An effect whose actions neither charge nor find faults costs what its operand costs. -/
theorem finds_resolve {effect : Effect} (hkeeps : effect.Obeys (Law.keeps Cpu.clock))
    (hfaultless : effect.Obeys Law.faultless) (mode : AddressingMode) :
    Finds mode (effect.resolve mode) := by
  cases effect with
  | implied action =>
    simp only [Effect.Obeys] at hkeeps
    by_cases hmode : mode = .inherent
    · subst hmode
      show Finds .inherent action
      exact .of_keeps (by decide)
    · simp only [Effect.resolve, if_neg hmode]
      exact ⟨fun h => by simp at h, fun h => (Law.keeps Cpu.clock).of_thrown h⟩
  | onByte action => exact (finds_operand8 mode).bind hkeeps hfaultless
  | onWord action => exact (finds_operand16 mode).bind hkeeps hfaultless
  | onAddress action => exact (finds_effectiveAddress mode).bind hkeeps hfaultless

/-- Fetching leaves flags and clock alone. -/
instance obeys_fetch_flags : Obeys (Law.keeps fun cpu => (cpu.clock, cpu.regs.cc)) fetch where
  returned := by
    intro cpu w a cpu' h
    obtain ⟨_, -, -, rfl⟩ := ends_fetch.mp h
    rfl
  thrown := by
    intro cpu w fault cpu' h
    obtain ⟨_, -, hr, -⟩ := ends_fetch.mp h
    cases hr
  refused := fun _ _ _ _ => trivial

theorem clock_longBranch {condition : Condition} {cpu w cpu'}
    (h : ((Operation.longBranch condition).effect.resolve .longRelative).Ends cpu w (.ok ()) cpu') :
    cpu'.clock = cpu.clock +
      .ofNat ((Operation.longBranch condition).dataCycles cpu.regs.cc (readBytes w)) := by
  obtain ⟨target, mid, first, rest, rfl, htarget, hbranching⟩ := ends_bind_ok.mp h
  have hkeeps : Obeys (Law.keeps fun cpu => (cpu.clock, cpu.regs.cc))
      (effectiveAddress .longRelative) := by
    unfold effectiveAddress longRelativeAddress fetchWord
    infer_instance
  have hmid : (mid.clock, mid.regs.cc) = (cpu.clock, cpu.regs.cc) :=
    (Law.keeps fun cpu => (cpu.clock, cpu.regs.cc)).of_returned htarget
  obtain ⟨hclock, hflags⟩ := Prod.mk.inj hmid
  obtain ⟨regs, _, _, _, rfl, hregs, hdeciding⟩ := ends_bind_ok.mp hbranching
  obtain ⟨rfl, hregs, rfl⟩ := ends_regs.mp hregs
  cases hregs
  rw [hflags] at hdeciding
  rw [← hclock]
  simp only [Operation.dataCycles]
  split at hdeciding
  · next hholds =>
    rw [if_pos hholds]
    exact (Costs.keep fun _ => costs_charge 1).returned hdeciding
  · next hholds =>
    rw [if_neg hholds]
    exact Costs.of_keeps.returned hdeciding

theorem clock_push {stack : IndexRegister} {cpu w cpu'}
    (h : ((Operation.push stack).effect.resolve .immediate).Ends cpu w (.ok ()) cpu') :
    cpu'.clock = cpu.clock +
      .ofNat ((Operation.push stack).dataCycles cpu.regs.cc (readBytes w)) := by
  obtain ⟨mask, mid, _, rest, rfl, hfetch, hpushing⟩ := ends_bind_ok.mp h
  obtain ⟨_, rfl, hmask, rfl⟩ := ends_fetch.mp hfetch
  cases hmask
  have hclock := Costs.forM (costs_pushRegister stack) _ |>.returned hpushing
  rw [cycles_stackedRegisters] at hclock
  exact hclock

theorem clock_pull {stack : IndexRegister} {cpu w cpu'}
    (h : ((Operation.pull stack).effect.resolve .immediate).Ends cpu w (.ok ()) cpu') :
    cpu'.clock = cpu.clock +
      .ofNat ((Operation.pull stack).dataCycles cpu.regs.cc (readBytes w)) := by
  obtain ⟨mask, mid, _, rest, rfl, hfetch, hpulling⟩ := ends_bind_ok.mp h
  obtain ⟨_, rfl, hmask, rfl⟩ := ends_fetch.mp hfetch
  cases hmask
  have hclock := Costs.forM (costs_pullRegister stack) _ |>.returned hpulling
  rw [List.length_reverse, List.countP_reverse, cycles_stackedRegisters] at hclock
  exact hclock

theorem clock_returnFromInterrupt {cpu w cpu'}
    (h : (Operation.returnFromInterrupt.effect.resolve .inherent).Ends cpu w (.ok ()) cpu') :
    cpu'.clock = cpu.clock +
      .ofNat (Operation.returnFromInterrupt.dataCycles cpu.regs.cc (readBytes w)) := by
  have hreturning : returnFromInterrupt.Ends cpu w (.ok ()) cpu' := h
  unfold returnFromInterrupt at hreturning
  obtain ⟨pulled, _, _, w₁, rfl, hpull, hflags⟩ := ends_bind_ok.mp hreturning
  obtain ⟨_, rfl, hpulled, rfl⟩ := ends_pullByte.mp hpull
  cases hpulled
  obtain ⟨_, _, _, w₂, rfl, hset, hsaved⟩ := ends_bind_ok.mp hflags
  obtain ⟨rfl, -, rfl⟩ := ends_modifyFlags.mp hset
  obtain ⟨regs, _, _, w₃, rfl, hregs, hdeciding⟩ := ends_bind_ok.mp hsaved
  obtain ⟨rfl, hregs, rfl⟩ := ends_regs.mp hregs
  cases hregs
  dsimp only at hdeciding
  simp only [Operation.dataCycles, List.cons_append, readBytes]
  split at hdeciding
  · next hentire =>
    rw [if_pos hentire]
    refine (Costs.returned ?_ hdeciding :)
    refine .keep fun a => .keep fun b => .keep fun dp => .keep fun x => .keep fun y => ?_
    exact .keep fun u => .keep fun _ => (costs_charge 9).bind fun _ => .of_keeps
  · next hentire =>
    rw [if_neg hentire]
    exact (Costs.of_keeps.returned hdeciding :)

/-- Apart from the operations that charge for what they do, cycles are those of the operand. -/
theorem dataCycles_eq_zero {operation : Operation} (h : ¬ operation.charges) (cc : Flags)
    (bytes : List UInt8) : operation.dataCycles cc bytes = 0 := by
  cases operation <;> first | rfl | exact absurd rfl h

theorem fixedMode_of_admits {operation : Operation} {mode fixed : AddressingMode}
    (h : operation.admits mode) (hfixed : operation.fixedMode? = some fixed) : fixed = mode := by
  simpa [Operation.admits, hfixed] using h

/-- The operations that charge for what they do have no indexed operand to charge for. -/
theorem fixedMode_of_charges {operation : Operation} (h : operation.charges) :
    ∃ fixed, operation.fixedMode? = some fixed ∧ fixed ≠ .indexed := by
  cases operation with
  | longBranch | push | pull | returnFromInterrupt => exact ⟨_, rfl, by decide⟩
  | _ => cases h

/-- The operations that decode a byte read it with their opcode. -/
theorem keeps_of_decodes {operation : Operation} (h : operation.decodes) :
    operation.fixedMode? = some .immediate ∧
      Obeys (Law.keeps Cpu.clock) (operation.effect.resolve .immediate) := by
  have hkeeps : operation.effect.Obeys (Law.keeps Cpu.clock) := by
    refine Operation.effect_obeys (fun hcharges => ?_) fun _ => inferInstance
    cases operation with
    | exchange | transfer => cases hcharges
    | _ => cases h
  cases operation with
  | exchange | transfer =>
    refine ⟨rfl, ?_⟩
    simp only [Effect.Obeys, Operation.effect] at hkeeps
    simp only [Operation.effect, Effect.resolve, operand8]
    infer_instance
  | _ => cases h

/-- An operation that charges for nothing costs what its operand costs. -/
theorem finds_of_not_charges {operation : Operation} {mode : AddressingMode}
    (hadmits : operation.admits mode) (hcharges : ¬ operation.charges) :
    Finds mode (operation.effect.resolve mode) := by
  by_cases hdecodes : operation.decodes
  · obtain ⟨hfixed, hkeeps⟩ := keeps_of_decodes hdecodes
    obtain rfl := fixedMode_of_admits hadmits hfixed
    exact .of_keeps (by decide)
  · refine finds_resolve ?_ ?_ mode
    · exact Operation.effect_obeys (fun h => absurd h hcharges) fun _ => inferInstance
    · exact Operation.effect_obeys (fun _ => inferInstance) fun h => absurd h hdecodes

/-- What an operation costs in a mode that it admits. -/
theorem clock_resolve {operation : Operation} {mode : AddressingMode}
    (hadmits : operation.admits mode) {cpu w cpu'}
    (h : (operation.effect.resolve mode).Ends cpu w (.ok ()) cpu') :
    cpu'.clock = cpu.clock + .ofNat (mode.operandCycles (readBytes w) +
      operation.dataCycles cpu.regs.cc (readBytes w)) := by
  by_cases hcharges : operation.charges
  · obtain ⟨fixed, hfixed, hindexed⟩ := fixedMode_of_charges hcharges
    obtain rfl := fixedMode_of_admits hadmits hfixed
    rw [operandCycles_eq_zero hindexed, Nat.zero_add]
    cases operation with
    | longBranch =>
      cases hfixed
      exact clock_longBranch h
    | push =>
      cases hfixed
      exact clock_push h
    | pull =>
      cases hfixed
      exact clock_pull h
    | returnFromInterrupt =>
      cases hfixed
      exact clock_returnFromInterrupt h
    | _ => cases hcharges
  · rw [dataCycles_eq_zero hcharges, Nat.add_zero, ← List.append_nil (readBytes w)]
    exact (finds_of_not_charges hadmits hcharges).returned h []

/-- An effect without faults of its own can find one only in its operand. -/
theorem clock_of_faultless {effect : Effect} (hfaultless : effect.Obeys Law.faultless)
    {mode : AddressingMode} {cpu w fault cpu'}
    (h : (effect.resolve mode).Ends cpu w (.error fault) cpu') : cpu'.clock = cpu.clock := by
  cases effect with
  | implied action =>
    simp only [Effect.Obeys] at hfaultless
    simp only [Effect.resolve] at h
    split at h
    · exact (Law.faultless.of_thrown h).elim
    · exact (Law.keeps Cpu.clock).of_thrown h
  | onByte action => exact (finds_operand8 mode).bind_thrown hfaultless h
  | onWord action => exact (finds_operand16 mode).bind_thrown hfaultless h
  | onAddress action => exact (finds_effectiveAddress mode).bind_thrown hfaultless h

/-- An operation that finds a fault has charged nothing. -/
theorem clock_resolve_error {operation : Operation} {mode : AddressingMode}
    (hadmits : operation.admits mode) {cpu w fault cpu'}
    (h : (operation.effect.resolve mode).Ends cpu w (.error fault) cpu') :
    cpu'.clock = cpu.clock := by
  by_cases hdecodes : operation.decodes
  · obtain ⟨hfixed, hkeeps⟩ := keeps_of_decodes hdecodes
    obtain rfl := fixedMode_of_admits hadmits hfixed
    exact (Law.keeps Cpu.clock).of_thrown h
  · refine clock_of_faultless ?_ h
    exact Operation.effect_obeys (fun _ => inferInstance) fun h => absurd h hdecodes

/-! ## Instructions -/

section Instructions

variable {cpu cpu' : Cpu} {w : List Exchange} {fault : Fault}

/-- Fetching an entry reads an opcode and steps past it. -/
theorem ends_fetchEntry {page : OpcodePage} {r : Except Fault Opcode.Entry} :
    (fetchEntry page).Ends cpu w r cpu' ↔ ∃ opcode, w = [.read cpu.regs.pc opcode] ∧
      (r, cpu') = match Opcode.find? page opcode with
        | some entry => (.ok entry, { cpu with regs.pc := cpu.regs.pc + 1 })
        | none => (.error (.undefinedOpcode page opcode), { cpu with
            regs.pc := cpu.regs.pc + 1
            clock := cpu.clock + page.undefinedCost }) := by
  have hstart : (fetchEntry page).start cpu = .read cpu.regs.pc fun opcode =>
      .done (match Opcode.find? page opcode with
        | some entry => (.ok entry, { cpu with regs.pc := cpu.regs.pc + 1 })
        | none => (.error (.undefinedOpcode page opcode), { cpu with
            regs.pc := cpu.regs.pc + 1
            clock := cpu.clock + page.undefinedCost })) := by
    unfold fetchEntry
    rw [start_bind, start_fetch, Traffic.read_bind]
    refine congrArg (Traffic.read cpu.regs.pc) (funext fun opcode => ?_)
    rw [Traffic.done_bind]
    cases hfind : Opcode.find? page opcode <;> simp only [hfind] <;> rfl
  rw [Ends, hstart, Traffic.ends_read_ok]
  constructor
  · rintro ⟨opcode, rest, rfl, h⟩
    obtain ⟨rfl, hend⟩ := Traffic.ends_done.mp h
    exact ⟨opcode, rfl, Except.ok.inj hend⟩
  · rintro ⟨opcode, rfl, hend⟩
    exact ⟨opcode, [], rfl, Traffic.ends_done.mpr ⟨rfl, congrArg Except.ok hend⟩⟩

theorem ends_fetchEntry_ok {page : OpcodePage} {entry : Opcode.Entry}
    (h : (fetchEntry page).Ends cpu w (.ok entry) cpu') :
    ∃ opcode, readBytes w = [opcode] ∧ Opcode.find? page opcode = some entry ∧
      cpu'.clock = cpu.clock ∧ cpu'.regs.cc = cpu.regs.cc := by
  obtain ⟨opcode, rfl, hend⟩ := ends_fetchEntry.mp h
  cases hfind : Opcode.find? page opcode <;> rw [hfind] at hend <;> cases hend
  exact ⟨opcode, rfl, hfind, rfl, rfl⟩

theorem ends_fetchEntry_error {page : OpcodePage}
    (h : (fetchEntry page).Ends cpu w (.error fault) cpu') :
    ∃ opcode, readBytes w = [opcode] ∧ Opcode.find? page opcode = none ∧
      cpu'.clock = cpu.clock + page.undefinedCost := by
  obtain ⟨opcode, rfl, hend⟩ := ends_fetchEntry.mp h
  cases hfind : Opcode.find? page opcode <;> rw [hfind] at hend <;> cases hend
  exact ⟨opcode, rfl, hfind, rfl⟩

variable {page : OpcodePage} {opcode : UInt8} {entry : Opcode.Entry} {length : UInt16}

/-- A documented instruction reports itself and charges its base cycles before it goes to its
operand. -/
theorem ends_documented {operation : Operation}
    (hoperation : entry.mnemonic.operation = some operation) {r : Except Fault Unit} :
    (documented entry length).Ends cpu w r cpu' ↔
      ∃ rest, w = .report (.execute (cpu.regs.pc - length) entry.mnemonic) :: rest ∧
        (operation.effect.resolve entry.mode).Ends
          { cpu with clock := cpu.clock + entry.cycles.toUInt64 } rest r cpu' := by
  have hstart : (documented entry length).start cpu =
      .report (.execute (cpu.regs.pc - length) entry.mnemonic)
        ((operation.effect.resolve entry.mode).start
          { cpu with clock := cpu.clock + entry.cycles.toUInt64 }) := by
    unfold documented
    simp only [start_bind, start_regs, Traffic.done_bind, start_report, Traffic.report_bind,
      start_charge, hoperation]
  rw [Ends, hstart, Traffic.ends_report]
  rfl

/-- The operation of an entry, and that it admits the entry's mode. -/
theorem exists_operation (hfind : Opcode.find? page opcode = some entry)
    (hplain : entry.mnemonic.prefixOf? = none) :
    ∃ operation, entry.mnemonic.operation = some operation ∧ operation.admits entry.mode := by
  obtain ⟨-, hadmits⟩ := Opcode.rows_decoded page _ (Opcode.mem_rows_of_find? hfind) hplain
  exact (Option.any_eq_true _ _).mp hadmits

theorem clock_documented (hfind : Opcode.find? page opcode = some entry)
    (hplain : entry.mnemonic.prefixOf? = none)
    (h : (documented entry length).Ends cpu w (.ok ()) cpu') :
    cpu'.clock = cpu.clock + .ofNat (entry.cost cpu.regs.cc (readBytes w)) := by
  obtain ⟨operation, hoperation, hadmits⟩ := exists_operation hfind hplain
  obtain ⟨rest, rfl, hresolve⟩ := (ends_documented hoperation).mp h
  have hcost : entry.cost cpu.regs.cc (readBytes rest) = entry.cycles.toNat +
      (entry.mode.operandCycles (readBytes rest) +
        operation.dataCycles cpu.regs.cc (readBytes rest)) := by
    unfold Opcode.Entry.cost
    rw [hoperation, Nat.add_assoc]
    rfl
  show cpu'.clock = cpu.clock + .ofNat (entry.cost cpu.regs.cc (readBytes rest))
  rw [hcost, UInt64.ofNat_add, UInt64.ofNat_uInt8ToNat, ← UInt64.add_assoc]
  exact clock_resolve hadmits hresolve

theorem clock_documented_error (hfind : Opcode.find? page opcode = some entry)
    (hplain : entry.mnemonic.prefixOf? = none)
    (h : (documented entry length).Ends cpu w (.error fault) cpu') :
    cpu'.clock = cpu.clock + .ofNat entry.cycles.toNat := by
  obtain ⟨operation, hoperation, hadmits⟩ := exists_operation hfind hplain
  obtain ⟨rest, rfl, hresolve⟩ := (ends_documented hoperation).mp h
  rw [clock_resolve_error hadmits hresolve, UInt64.ofNat_uInt8ToNat]

end Instructions

end Action

namespace Opcode

theorem select?_plain {opcode : UInt8} {entry : Entry} (hfind : find? .page1 opcode = some entry)
    (hplain : entry.mnemonic.prefixOf? = none) (rest : List UInt8) :
    select? (opcode :: rest) = some (entry, rest) := by
  simp only [select?, hfind, Option.bind_some, hplain]

theorem select?_prefixed {first : UInt8} {entry : Entry} {page : OpcodePage}
    (hfind : find? .page1 first = some entry) (hpage : entry.mnemonic.prefixOf? = some page)
    (opcode : UInt8) (rest : List UInt8) :
    select? (first :: opcode :: rest) = (find? page opcode).map (·, rest) := by
  simp only [select?, hfind, Option.bind_some, hpage]

end Opcode

theorem Mnemonic.ne_page1_of_prefixOf? {mnemonic : Mnemonic} {page : OpcodePage}
    (h : mnemonic.prefixOf? = some page) : page ≠ .page1 := by
  unfold prefixOf? at h
  split at h <;> cases h <;> decide

namespace Action

section Instructions

open Opcode

variable {cpu cpu' : Cpu} {w : List Exchange} {fault : Fault}

/-- The tables behind a prefix lead no further. -/
theorem plain_of_find? {page : OpcodePage} {opcode : UInt8} {entry : Entry}
    (hpage : page ≠ .page1) (hfind : find? page opcode = some entry) :
    entry.mnemonic.prefixOf? = none := by
  rw [prefixOf?_eq hfind, if_neg fun h => hpage h.1, if_neg fun h => hpage h.1]

/-- A completed instruction has an entry and costs what the entry says. -/
theorem clock_instruction (h : instruction.Ends cpu w (.ok ()) cpu') :
    ∃ entry rest, select? (readBytes w) = some (entry, rest) ∧
      cpu'.clock = cpu.clock + .ofNat (entry.cost cpu.regs.cc rest) := by
  rw [instruction_eq_documented] at h
  obtain ⟨entry, mid, w₁, w₂, rfl, hentry, hrest⟩ := ends_bind_ok.mp h
  obtain ⟨first, hbytes, hfind, hclock, hflags⟩ := ends_fetchEntry_ok hentry
  rw [readBytes_append, hbytes, ← hclock, ← hflags]
  split at hrest
  · next page hpage =>
    obtain ⟨entry', mid', w₃, w₄, rfl, hentry', hdocumented⟩ := ends_bind_ok.mp hrest
    obtain ⟨opcode, hbytes', hfind', hclock', hflags'⟩ := ends_fetchEntry_ok hentry'
    have hplain := plain_of_find? (Mnemonic.ne_page1_of_prefixOf? hpage) hfind'
    refine ⟨entry', readBytes w₄, ?_, ?_⟩
    · rw [readBytes_append, hbytes', List.singleton_append, List.singleton_append,
        select?_prefixed hfind hpage, hfind', Option.map_some]
    · rw [← hclock', ← hflags']
      exact clock_documented hfind' hplain hdocumented
  · next hplain =>
    exact ⟨entry, readBytes w₂, select?_plain hfind hplain _, clock_documented hfind hplain hrest⟩

/-- An instruction that finds a fault has cost its base cycles or, without an entry, one cycle
for each byte of its opcode. -/
theorem clock_instruction_error (h : instruction.Ends cpu w (.error fault) cpu') :
    cpu'.clock = cpu.clock + .ofNat ((select? (readBytes w)).elim (readBytes w).length
      fun (entry, _) => entry.cycles.toNat) := by
  rw [instruction_eq_documented] at h
  obtain ⟨_, -, hfetch⟩ | ⟨entry, mid, w₁, w₂, rfl, hentry, hrest⟩ := ends_bind.mp h
  · obtain ⟨opcode, hbytes, hfind, hclock⟩ := ends_fetchEntry_error hfetch
    have hselect : select? [opcode] = none := by
      rw [select?, hfind, Option.bind_none]
    rw [hbytes, hselect]
    exact hclock
  obtain ⟨first, hbytes, hfind, hclock, -⟩ := ends_fetchEntry_ok hentry
  rw [readBytes_append, hbytes, ← hclock]
  split at hrest
  · next page hpage =>
    have hne := Mnemonic.ne_page1_of_prefixOf? hpage
    obtain ⟨_, -, hfetch⟩ | ⟨entry', mid', w₃, w₄, rfl, hentry', hdocumented⟩ := ends_bind.mp hrest
    · obtain ⟨opcode, hbytes', hfind', hclock'⟩ := ends_fetchEntry_error hfetch
      have hselect : select? [first, opcode] = none := by
        rw [select?_prefixed hfind hpage, hfind', Option.map_none]
      have hcost : page.undefinedCost = .ofNat 2 := by
        cases page with
        | page1 => exact absurd rfl hne
        | page2 | page3 => rfl
      rw [hbytes', List.singleton_append, hselect, hclock', hcost]
      rfl
    · obtain ⟨opcode, hbytes', hfind', hclock', -⟩ := ends_fetchEntry_ok hentry'
      have hplain := plain_of_find? hne hfind'
      rw [readBytes_append, hbytes', ← hclock', List.singleton_append, List.singleton_append,
        select?_prefixed hfind hpage, hfind', Option.map_some]
      exact clock_documented_error hfind' hplain hdocumented
  · next hplain =>
    rw [List.singleton_append, select?_plain hfind hplain]
    exact clock_documented_error hfind hplain hrest

end Instructions

/-! ## Interrupts -/

theorem costs_saveState (interrupt : Interrupt) :
    Costs interrupt.cost (saveState interrupt) := by
  cases interrupt with
  | firq =>
    unfold saveState
    exact (costs_charge 10).bind fun _ => .of_keeps
  | nmi | irq =>
    unfold saveState
    exact (costs_charge 19).bind fun _ => .of_keeps

theorem clock_service {interrupt : Interrupt} {cpu cpu' : Cpu} {w : List Exchange}
    (h : (service interrupt).Ends cpu w (.ok ()) cpu') :
    cpu'.clock = cpu.clock + .ofNat (if cpu.cwai then 0 else interrupt.cost) := by
  rw [service_eq] at h
  obtain ⟨handler, mid, w₁, w₂, rfl, hprepare, henter⟩ := ends_bind_ok.mp h
  have hclock : cpu'.clock = mid.clock := (Law.keeps Cpu.clock).of_returned henter
  rw [hclock]
  obtain ⟨_, _, _, w₃, rfl, hget, hstacking⟩ := ends_bind_ok.mp hprepare
  obtain ⟨rfl, hget, rfl⟩ := ends_get.mp hget
  cases hget
  dsimp only at hstacking
  split at hstacking
  · next hcwai =>
    rw [if_neg (by simpa using hcwai), ← Nat.add_zero interrupt.cost]
    exact ((costs_saveState interrupt).bind fun _ => .of_keeps).returned hstacking
  · next hcwai =>
    rw [if_pos (by simpa using hcwai)]
    exact Costs.of_keeps.returned hstacking

/-! ## Steps -/

/-- Sampling the lines touches only SYNC. -/
theorem sampled_eq (lines : InterruptLines) (cpu : Cpu) :
    ∃ sync, sampled lines cpu = { cpu with sync } := by
  unfold sampled
  split
  · exact ⟨false, rfl⟩
  · exact ⟨cpu.sync, rfl⟩

/-- A step that the bus does not refuse has a documented cost, which it charges. -/
theorem clock_step {lines : InterruptLines} {cpu cpu' : Cpu} {w : List Exchange}
    {r : Except Fault Unit} (h : (step lines).Ends cpu w r cpu') :
    ∃ cost, stepCost? lines cpu (readBytes w) r = some cost ∧
      cpu'.clock = cpu.clock + .ofNat cost := by
  obtain ⟨sync, hsampled⟩ := sampled_eq lines cpu
  have hdecode : ∀ fault, r = .error fault → fault.isBusFault = false := by
    rintro fault rfl
    exact Law.decoding.of_thrown h
  unfold stepCost?
  cases r with
  | ok _ =>
    rw [Ends, start_step] at h
    rw [hsampled] at h ⊢
    dsimp only
    cases hpending : pending? lines { cpu with sync } with
    | some interrupt =>
      rw [hpending] at h
      exact ⟨_, rfl, (clock_service h :)⟩
    | none =>
      rw [hpending] at h
      dsimp only at h ⊢
      by_cases hwaiting : (cpu.cwai || sync) = true
      · rw [if_pos hwaiting] at h ⊢
        exact ⟨1, rfl, ((costs_charge 1).returned h :)⟩
      · rw [if_neg hwaiting] at h ⊢
        obtain ⟨entry, rest, hselect, hclock⟩ := clock_instruction h
        rw [hselect]
        exact ⟨_, rfl, hclock⟩
  | error fault =>
    dsimp only
    rw [hdecode fault rfl, if_neg Bool.false_ne_true]
    have hclock := clock_instruction_error (instruction_of_step_error h)
    rw [hsampled] at hclock
    exact ⟨_, rfl, hclock⟩

end Action

/-- Every step has a documented cost, and the clock advances by just that, modulo 2^64. -/
theorem Machine.step_clock {σ : Type} (devices : Devices σ) (m : Machine σ) :
    ∃ cost, m.stepCost? devices = some cost ∧
      (m.step devices).2.cpu.clock = m.cpu.clock + .ofNat cost := by
  unfold stepCost?
  obtain ⟨cpu, houtcome, log, hstep⟩ | ⟨fault, cpu, houtcome, log, hstep⟩ |
    ⟨fault, houtcome, log, hstep⟩ := m.step_cases devices
  · rw [hstep]
    exact Action.clock_step (m.course_ends devices houtcome)
  · rw [hstep]
    exact Action.clock_step (m.course_ends devices houtcome)
  · have hbus : fault.isBusFault := (m.course_ends devices houtcome).isBusFault
    rw [hstep]
    unfold Action.stepCost?
    dsimp only
    rw [if_pos hbus]
    exact ⟨0, rfl, (UInt64.add_zero _).symm⟩

end Mc6809
