/-
  A reference interpreter that works by the opcode tables alone. It takes the operation and
  its registers from the mnemonic of a table entry, finds the operand by the entry's
  addressing mode, and charges the entry's cycles; the number of an opcode only selects the
  entry. So it is what the tables document.

  The processor decodes by the shape of the opcode map instead. `instruction_eq_documented`
  says that the two are the same action, prefixes and undefined opcodes included, and
  `step_eq_documentedStep` that a machine takes the same steps with either. What joins them
  are a check of every row (`rows_decoded`) and the remark that an operation with a fixed
  way to find its operand is documented with just that mode (`execute_eq_resolve`).
-/
import Mc6809.Machine

namespace Mc6809

/-! ## The meaning of a mnemonic -/

/-- The operation and the registers that a mnemonic names. The names of the prefix bytes stand
for no operation. -/
def Mnemonic.operation : Mnemonic → Option Operation
  | .page2 | .page3 => none
  | .neg => some (.modifyMemory .neg)
  | .com => some (.modifyMemory .com)
  | .lsr => some (.modifyMemory .lsr)
  | .ror => some (.modifyMemory .ror)
  | .asr => some (.modifyMemory .asr)
  | .lsl => some (.modifyMemory .lsl)
  | .rol => some (.modifyMemory .rol)
  | .dec => some (.modifyMemory .dec)
  | .inc => some (.modifyMemory .inc)
  | .clr => some (.modifyMemory .clr)
  | .nega => some (.modifyAccumulator .neg .a)
  | .coma => some (.modifyAccumulator .com .a)
  | .lsra => some (.modifyAccumulator .lsr .a)
  | .rora => some (.modifyAccumulator .ror .a)
  | .asra => some (.modifyAccumulator .asr .a)
  | .lsla => some (.modifyAccumulator .lsl .a)
  | .rola => some (.modifyAccumulator .rol .a)
  | .deca => some (.modifyAccumulator .dec .a)
  | .inca => some (.modifyAccumulator .inc .a)
  | .clra => some (.modifyAccumulator .clr .a)
  | .negb => some (.modifyAccumulator .neg .b)
  | .comb => some (.modifyAccumulator .com .b)
  | .lsrb => some (.modifyAccumulator .lsr .b)
  | .rorb => some (.modifyAccumulator .ror .b)
  | .asrb => some (.modifyAccumulator .asr .b)
  | .lslb => some (.modifyAccumulator .lsl .b)
  | .rolb => some (.modifyAccumulator .rol .b)
  | .decb => some (.modifyAccumulator .dec .b)
  | .incb => some (.modifyAccumulator .inc .b)
  | .clrb => some (.modifyAccumulator .clr .b)
  | .tst => some .testMemory
  | .tsta => some (.testAccumulator .a)
  | .tstb => some (.testAccumulator .b)
  | .jmp => some .jump
  | .jsr | .bsr | .lbsr => some .call
  | .rts => some .returnFromSubroutine
  | .nop => some .nop
  | .sync => some .sync
  | .daa => some .decimalAdjust
  | .orcc => some .orFlags
  | .andcc => some .andFlags
  | .sex => some .signExtend
  | .exg => some .exchange
  | .tfr => some .transfer
  | .bra => some (.branch .always)
  | .brn => some (.branch .never)
  | .bhi => some (.branch .higher)
  | .bls => some (.branch .lowerOrSame)
  | .bhs => some (.branch .higherOrSame)
  | .blo => some (.branch .lower)
  | .bne => some (.branch .notEqual)
  | .beq => some (.branch .equal)
  | .bvc => some (.branch .overflowClear)
  | .bvs => some (.branch .overflowSet)
  | .bpl => some (.branch .plus)
  | .bmi => some (.branch .minus)
  | .bge => some (.branch .greaterOrEqual)
  | .blt => some (.branch .less)
  | .bgt => some (.branch .greater)
  | .ble => some (.branch .lessOrEqual)
  | .lbra => some .longBranchAlways
  | .lbrn => some (.longBranch .never)
  | .lbhi => some (.longBranch .higher)
  | .lbls => some (.longBranch .lowerOrSame)
  | .lbhs => some (.longBranch .higherOrSame)
  | .lblo => some (.longBranch .lower)
  | .lbne => some (.longBranch .notEqual)
  | .lbeq => some (.longBranch .equal)
  | .lbvc => some (.longBranch .overflowClear)
  | .lbvs => some (.longBranch .overflowSet)
  | .lbpl => some (.longBranch .plus)
  | .lbmi => some (.longBranch .minus)
  | .lbge => some (.longBranch .greaterOrEqual)
  | .lblt => some (.longBranch .less)
  | .lbgt => some (.longBranch .greater)
  | .lble => some (.longBranch .lessOrEqual)
  | .leax => some (.loadAddress .x)
  | .leay => some (.loadAddress .y)
  | .leas => some (.loadAddress .s)
  | .leau => some (.loadAddress .u)
  | .pshs => some (.push .s)
  | .puls => some (.pull .s)
  | .pshu => some (.push .u)
  | .pulu => some (.pull .u)
  | .abx => some .addBToX
  | .mul => some .multiply
  | .rti => some .returnFromInterrupt
  | .cwai => some .waitForInterrupt
  | .swi => some (.softwareInterrupt .swi)
  | .swi2 => some (.softwareInterrupt .swi2)
  | .swi3 => some (.softwareInterrupt .swi3)
  | .suba => some (.binary8 .sub .a)
  | .sbca => some (.binary8 .sbc .a)
  | .anda => some (.binary8 .and .a)
  | .eora => some (.binary8 .eor .a)
  | .adca => some (.binary8 .adc .a)
  | .ora => some (.binary8 .or .a)
  | .adda => some (.binary8 .add .a)
  | .subb => some (.binary8 .sub .b)
  | .sbcb => some (.binary8 .sbc .b)
  | .andb => some (.binary8 .and .b)
  | .eorb => some (.binary8 .eor .b)
  | .adcb => some (.binary8 .adc .b)
  | .orb => some (.binary8 .or .b)
  | .addb => some (.binary8 .add .b)
  | .cmpa => some (.compare8 .cmp .a)
  | .bita => some (.compare8 .bit .a)
  | .cmpb => some (.compare8 .cmp .b)
  | .bitb => some (.compare8 .bit .b)
  | .lda => some (.load8 .a)
  | .ldb => some (.load8 .b)
  | .sta => some (.store8 .a)
  | .stb => some (.store8 .b)
  | .addd => some (.binary16 .add)
  | .subd => some (.binary16 .sub)
  | .cmpd => some (.compare16 .d)
  | .cmpx => some (.compare16 .x)
  | .cmpy => some (.compare16 .y)
  | .cmpu => some (.compare16 .u)
  | .cmps => some (.compare16 .s)
  | .ldd => some (.load16 .d)
  | .ldx => some (.load16 .x)
  | .ldy => some (.load16 .y)
  | .ldu => some (.load16 .u)
  | .lds => some (.load16 .s)
  | .std => some (.store16 .d)
  | .stx => some (.store16 .x)
  | .sty => some (.store16 .y)
  | .stu => some (.store16 .u)
  | .sts => some (.store16 .s)

/-! ## Operands by addressing mode -/

/-- What an operation does, by the kind of operand it wants: none, a byte, a word, or an
address. -/
inductive Effect where
  | implied (action : Action Unit)
  | onByte (action : UInt8 → Action Unit)
  | onWord (action : UInt16 → Action Unit)
  | onAddress (action : UInt16 → Action Unit)

open Mc6809.Action in
/-- Finds the operand by an addressing mode and acts on it. Only the inherent mode goes with
no operand. -/
def Effect.resolve (mode : AddressingMode) : Effect → Action Unit
  | implied action => if mode = .inherent then action else do throw (.internal (← regs).pc)
  | onByte action => operand8 mode >>= action
  | onWord action => operand16 mode >>= action
  | onAddress action => effectiveAddress mode >>= action

namespace Operation

open Mc6809.Action

/-- The effect of an operation. -/
def effect : Operation → Effect
  | modifyMemory op => .onAddress fun address => do
    let value ← read address
    let (result, cc) := op.apply (← regs).cc value
    modifyFlags fun _ => cc
    write address result
  | modifyAccumulator op acc => .implied (Action.modifyAccumulator op acc)
  | testMemory => .onAddress fun address => do
    let value ← read address
    modifyFlags (Alu.load8 · value)
  | testAccumulator acc => .implied <|
    modifyRegs fun regs => { regs with cc := Alu.load8 regs.cc (regs.accumulator acc) }
  | jump => .onAddress Action.jump
  | call => .onAddress fun target => do
    pushWord .s (← regs).pc
    Action.jump target
  | nop => .implied (pure ())
  | sync => .implied do
    modify fun cpu => { cpu with sync := true }
    report (.syncWait (← regs).pc)
  | decimalAdjust => .implied <| modifyRegs fun regs =>
    let (result, cc) := Alu.daa regs.cc regs.a
    { regs with a := result, cc }
  | orFlags => .onByte fun bits => modifyFlags fun cc => Flags.ofByte (cc.toByte ||| bits)
  | andFlags => .onByte fun mask => modifyFlags fun cc => Flags.ofByte (cc.toByte &&& mask)
  | signExtend => .implied <| modifyRegs fun regs =>
    let (result, cc) := Alu.sex regs.cc regs.b
    { regs with cc }.setD result
  | exchange => .onByte fun postbyte => do
    let (first, second) ← MonadExcept.ofExcept (transferPair postbyte)
    let before ← regs
    loadRegister first (before.get second)
    loadRegister second (before.get first)
  | transfer => .onByte fun postbyte => do
    let (source, destination) ← MonadExcept.ofExcept (transferPair postbyte)
    loadRegister destination ((← regs).get source)
  | branch condition => .onAddress fun target => do
    if condition.holds (← regs).cc then Action.jump target
  | longBranch condition => .onAddress fun target => do
    if condition.holds (← regs).cc then
      Action.jump target
      charge 1
  | longBranchAlways => .onAddress Action.jump
  | loadAddress reg => .onAddress fun address => do
    loadRegister reg.toRegister address
    if reg = .x ∨ reg = .y then
      modifyFlags fun cc => { cc with zero := address == 0 }
  | push stack => .onByte fun mask => (stackedRegisters stack mask).forM (pushRegister stack)
  | pull stack => .onByte fun mask =>
    (stackedRegisters stack mask).reverse.forM (pullRegister stack)
  | returnFromSubroutine => .implied do Action.jump (← pullWord .s)
  | addBToX => .implied <| modifyRegs fun regs => { regs with x := regs.x + regs.b.toUInt16 }
  | returnFromInterrupt => .implied Action.returnFromInterrupt
  | waitForInterrupt => .onByte fun mask => do
    modifyFlags fun cc => Flags.ofByte (cc.toByte &&& mask)
    stackEntireState
    modify fun cpu => { cpu with cwai := true }
    report (.cwaiWait (← regs).pc)
  | multiply => .implied <| modifyRegs fun regs =>
    let (product, cc) := Alu.mul regs.cc regs.a regs.b
    { regs with cc }.setD product
  | softwareInterrupt kind => .implied (Action.softwareInterrupt kind)
  | binary8 op acc => .onByte fun operand => modifyRegs fun regs =>
    let (result, cc) := op.apply regs.cc (regs.accumulator acc) operand
    { regs with cc }.setAccumulator acc result
  | compare8 op acc => .onByte fun operand => modifyRegs fun regs =>
    { regs with cc := op.apply regs.cc (regs.accumulator acc) operand }
  | load8 acc => .onByte fun value => modifyRegs fun regs =>
    { regs with cc := Alu.load8 regs.cc value }.setAccumulator acc value
  | store8 acc => .onAddress fun address => do
    let value := (← regs).accumulator acc
    modifyFlags (Alu.load8 · value)
    write address value
  | binary16 op => .onWord fun operand => modifyRegs fun regs =>
    let (result, cc) := op.apply regs.cc regs.d operand
    { regs with cc }.setD result
  | compare16 reg => .onWord fun operand => modifyRegs fun regs =>
    { regs with cc := (Alu.sub16 regs.cc (regs.get reg) operand).2 }
  | load16 reg => .onWord fun value => do
    modifyFlags (Alu.load16 · value)
    loadRegister reg value
  | store16 reg => .onAddress fun address => do
    let value := (← regs).get reg
    modifyFlags (Alu.load16 · value)
    writeWord address value

/-- The mode to which an operation is tied in the processor, where it does not go by the
mode it is given. -/
def fixedMode? : Operation → Option AddressingMode
  | modifyAccumulator .. | testAccumulator _ | nop | sync | decimalAdjust | signExtend
  | returnFromSubroutine | addBToX | returnFromInterrupt | multiply | softwareInterrupt _ =>
    some .inherent
  | orFlags | andFlags | exchange | transfer | push _ | pull _ | waitForInterrupt =>
    some .immediate
  | branch _ => some .relative
  | longBranch _ | longBranchAlways => some .longRelative
  | loadAddress _ => some .indexed
  | _ => none

/-- An operation can be told a mode unless it is tied to another one. -/
def admits (operation : Operation) (mode : AddressingMode) : Bool :=
  operation.fixedMode?.all (· = mode)

/-- In a mode that it admits, an operation acts on the operand of that mode. -/
theorem execute_eq_resolve {operation : Operation} {mode : AddressingMode}
    (h : operation.admits mode) : operation.execute mode = operation.effect.resolve mode := by
  cases hfixed : operation.fixedMode? with
  | none => cases operation <;> first | rfl | cases hfixed
  | some fixed =>
    have hmode : fixed = mode := by simpa [admits, hfixed] using h
    subst hmode
    cases operation <;> cases hfixed <;> rfl

end Operation

/-! ## The interpreter -/

/-- The table to which the name of a prefix byte leads. -/
def Mnemonic.prefixOf? : Mnemonic → Option OpcodePage
  | .page2 => some .page2
  | .page3 => some .page3
  | _ => none

namespace Action

/-- Does what an entry documents, after `length` opcode bytes. -/
def documented (entry : Opcode.Entry) (length : UInt16) : Action Unit := do
  report (.execute ((← regs).pc - length) entry.mnemonic)
  charge entry.cycles.toUInt64
  match entry.mnemonic.operation with
  | some operation => operation.effect.resolve entry.mode
  | none => throw (.internal (← regs).pc)

/-- Fetches an opcode and looks its entry up. -/
def fetchEntry (page : OpcodePage) : Action Opcode.Entry := do
  let opcode ← fetch
  match Opcode.find? page opcode with
  | some entry => return entry
  | none =>
    charge page.undefinedCost
    throw (.undefinedOpcode page opcode)

/-- Fetches and does one instruction by the tables. -/
def documentedInstruction : Action Unit := do
  let entry ← fetchEntry .page1
  match entry.mnemonic.prefixOf? with
  | some page => documented (← fetchEntry page) 2
  | none => documented entry 1

/-- A step whose instructions go by the tables. -/
def documentedStep (lines : InterruptLines) : Action Unit := do
  if lines.any then
    modify fun cpu => { cpu with sync := false }
  match pending? lines (← get) with
  | some interrupt => service interrupt
  | none =>
    let cpu ← get
    if cpu.cwai || cpu.sync then charge 1 else documentedInstruction

end Action

/-- One step of a machine whose instructions go by the tables. -/
def Machine.documentedStep {σ : Type} (devices : Devices σ) (m : Machine σ) :
    Except Fault Unit × Machine σ :=
  match m.perform devices ((Action.documentedStep m.bus.lines).start m.cpu) with
  | (.ok (.ok (), cpu), m) => (.ok (), { m with cpu, fault := none })
  | (.ok (.error fault, cpu), m) => { m with cpu }.fail fault
  | (.error fault, m) => m.fail fault

/-! ## Decoding against the tables -/

namespace Opcode

/-- Only two rows of the first table lead to other tables. -/
theorem rows_prefixOf? (page : OpcodePage) : ∀ row ∈ rows page, row.2.mnemonic.prefixOf? =
    if page = .page1 ∧ row.1 = 0x10 then some .page2
    else if page = .page1 ∧ row.1 = 0x11 then some .page3
    else none := by
  cases page <;> decide +kernel

/-- The decoder finds for every other row the operation that the row names, and that
operation admits the row's mode. -/
theorem rows_decoded (page : OpcodePage) : ∀ row ∈ rows page, row.2.mnemonic.prefixOf? = none →
    Operation.ofOpcode page (UInt8.ofNat row.1) = row.2.mnemonic.operation ∧
      row.2.mnemonic.operation.any (·.admits row.2.mode) := by
  cases page <;> decide +kernel

/-- An entry comes from a row. -/
theorem mem_rows_of_find? {page : OpcodePage} {opcode : UInt8} {entry : Entry}
    (h : find? page opcode = some entry) : (opcode.toNat, entry) ∈ rows page := by
  rw [find?_eq_lookup] at h
  obtain ⟨before, after, hrows, -⟩ := List.lookup_eq_some_iff.mp h
  rw [hrows]
  exact List.mem_append_right before List.mem_cons_self

/-- Of the defined opcodes only 0x10 and 0x11 lead to other tables. -/
theorem prefixOf?_eq {page : OpcodePage} {opcode : UInt8} {entry : Entry}
    (h : find? page opcode = some entry) : entry.mnemonic.prefixOf? =
      if page = .page1 ∧ opcode = 0x10 then some .page2
      else if page = .page1 ∧ opcode = 0x11 then some .page3
      else none := by
  have hrow := rows_prefixOf? page _ (mem_rows_of_find? h)
  have h10 : opcode.toNat = 0x10 ↔ opcode = 0x10 := UInt8.toNat_inj (b := 0x10)
  have h11 : opcode.toNat = 0x11 ↔ opcode = 0x11 := UInt8.toNat_inj (b := 0x11)
  simpa only [h10, h11] using hrow

end Opcode

namespace Action

open Opcode

/-- The decoder does what the entry of a defined opcode documents. -/
theorem dispatch_of_find? {page : OpcodePage} {opcode : UInt8} {entry : Entry}
    (length : UInt16) (h : find? page opcode = some entry)
    (hplain : entry.mnemonic.prefixOf? = none) :
    dispatch page opcode length = documented entry length := by
  obtain ⟨hdecoded, hadmits⟩ := rows_decoded page _ (mem_rows_of_find? h) hplain
  rw [UInt8.ofNat_toNat] at hdecoded
  unfold dispatch documented
  simp only [h, hdecoded]
  refine bind_congr fun regs => bind_congr fun _ => bind_congr fun _ => ?_
  cases hoperation : entry.mnemonic.operation with
  | none => rfl
  | some operation =>
    rw [hoperation] at hadmits
    exact Operation.execute_eq_resolve hadmits

/-- Where no opcode is a prefix, fetching and dispatching goes by the table. -/
theorem fetch_dispatch {page : OpcodePage} (hpage : page ≠ .page1) (length : UInt16) :
    (fetch >>= fun opcode => dispatch page opcode length) =
      fetchEntry page >>= fun entry => documented entry length := by
  unfold fetchEntry
  rw [bind_assoc]
  refine bind_congr fun opcode => ?_
  cases h : find? page opcode with
  | none =>
    unfold dispatch
    simp only [h, bind_assoc]
    rfl
  | some entry =>
    rw [dispatch_of_find? length h]
    · rfl
    · rw [prefixOf?_eq h]
      simp [hpage]

/-- The processor's decoder and the tables describe the same instructions. -/
theorem instruction_eq_documented : instruction = documentedInstruction := by
  unfold instruction documentedInstruction
  rw [fetchEntry, bind_assoc]
  refine bind_congr fun opcode => ?_
  cases h : find? .page1 opcode with
  | none =>
    have h10 : opcode ≠ 0x10 := by
      rintro rfl
      rw [find?_eq_lookup] at h
      cases h
    have h11 : opcode ≠ 0x11 := by
      rintro rfl
      rw [find?_eq_lookup] at h
      cases h
    rw [if_neg h10, if_neg h11]
    unfold dispatch
    simp only [h, bind_assoc]
    rfl
  | some entry =>
    rw [pure_bind, prefixOf?_eq h]
    by_cases h10 : opcode = 0x10
    · subst h10
      exact fetch_dispatch (by decide) 2
    by_cases h11 : opcode = 0x11
    · subst h11
      exact fetch_dispatch (by decide) 2
    have hplain : entry.mnemonic.prefixOf? = none := by
      rw [prefixOf?_eq h, if_neg (fun hp => h10 hp.2), if_neg (fun hp => h11 hp.2)]
    rw [if_neg h10, if_neg h11, if_neg (fun hp => h10 hp.2), if_neg (fun hp => h11 hp.2)]
    exact dispatch_of_find? 1 h hplain

end Action

/-- A machine takes the same steps whether its instructions are decoded or go by the tables:
the same result, processor, bus and log. -/
theorem Machine.step_eq_documentedStep {σ : Type} (devices : Devices σ) (m : Machine σ) :
    m.step devices = m.documentedStep devices := by
  unfold step documentedStep
  rw [Action.step, Action.instruction_eq_documented]
  rfl

end Mc6809
