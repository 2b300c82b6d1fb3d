/-
  Which instructions change which condition codes. `Operation.writesFlags` names those that write CC
  as a whole, some of them only with certain bytes; `Operation.sets` names, flag by flag, those that
  set it by a rule of their own. Every other instruction leaves the flag alone, and so does a step
  that executes none, but that an interrupt sets the masks and E (`Machine.step_flags`).

  For most operations that is a law of their effect (`Law.keepsFlag`). Those in memory take the new
  flags from a byte that they read, and those that load registers by name can load CC, so these are
  followed to their ends (`Action.get_of_ends`).
-/
import Mc6809.Proofs.NextAddress

namespace Mc6809

/-! ## Flags by name -/

/-- The names of the condition codes. -/
inductive Flag where
  | carry | overflow | zero | negative | irqMask | halfCarry | firqMask | entire
deriving DecidableEq, Repr

/-- Whether the flag is set. -/
def Flags.get (cc : Flags) : Flag → Bool
  | .carry => cc.carry
  | .overflow => cc.overflow
  | .zero => cc.zero
  | .negative => cc.negative
  | .irqMask => cc.irqMask
  | .halfCarry => cc.halfCarry
  | .firqMask => cc.firqMask
  | .entire => cc.entire

/-- The flags that serving an interrupt sets: the masks, and E for the kind of frame. -/
def Flag.setByService : Flag → Bool
  | irqMask | firqMask | entire => true
  | _ => false

namespace Operation

/-- The operation writes CC as a whole, if these are the bytes behind its opcode. -/
def writesFlags : Operation → List UInt8 → Bool
  | andFlags, _ | orFlags, _ | waitForInterrupt, _ | returnFromInterrupt, _ => true
  | pull _, mask :: _ => mask.toNat.testBit 0
  | transfer, postbyte :: _ => postbyte.toNat % 16 = Register.cc.code
  | exchange, postbyte :: _ =>
    postbyte.toNat / 16 = Register.cc.code ∨ postbyte.toNat % 16 = Register.cc.code
  | _, _ => false

/-- The operation sets the flag by a rule of its own. -/
def sets (operation : Operation) : Flag → Bool
  | .carry => match operation with
    | modifyMemory op | modifyAccumulator op _ => op ≠ .dec ∧ op ≠ .inc
    | binary8 op _ => op = .add ∨ op = .adc ∨ op = .sub ∨ op = .sbc
    | compare8 op _ => op = .cmp
    | binary16 _ | compare16 _ | multiply | decimalAdjust => true
    | _ => false
  | .overflow => match operation with
    | modifyMemory op | modifyAccumulator op _ => op ≠ .lsr ∧ op ≠ .ror ∧ op ≠ .asr
    | binary8 .. | compare8 .. | binary16 _ | compare16 _ | decimalAdjust | signExtend
    | testMemory | testAccumulator _ | load8 _ | load16 _ | store8 _ | store16 _ => true
    | _ => false
  | .zero => match operation with
    | modifyMemory _ | modifyAccumulator .. | binary8 .. | compare8 .. | binary16 _ | compare16 _
    | multiply | decimalAdjust | signExtend | testMemory | testAccumulator _ | load8 _ | load16 _
    | store8 _ | store16 _ => true
    | loadAddress reg => reg = .x ∨ reg = .y
    | _ => false
  | .negative => match operation with
    | modifyMemory _ | modifyAccumulator .. | binary8 .. | compare8 .. | binary16 _ | compare16 _
    | decimalAdjust | signExtend | testMemory | testAccumulator _ | load8 _ | load16 _ | store8 _
    | store16 _ => true
    | _ => false
  | .halfCarry => match operation with
    | binary8 op _ => op = .add ∨ op = .adc
    | _ => false
  | .irqMask | .firqMask => match operation with
    | softwareInterrupt kind => kind = .swi
    | _ => false
  | .entire => match operation with
    | softwareInterrupt _ => true
    | _ => false

/-- The operation changes flags, if at all, where it changes registers that no byte names. -/
def setsDirectly : Operation → Bool
  | modifyMemory _ | exchange | transfer | pull _ | orFlags | andFlags | waitForInterrupt
  | returnFromInterrupt => false
  | _ => true

end Operation

/-! ## Arithmetic -/

section Arithmetic

variable {flag : Flag} {acc : Accumulator}

theorem UnaryOp.get_apply {op : UnaryOp} (h : ¬ (Operation.modifyMemory op).sets flag) (cc : Flags)
    (value : UInt8) : (op.apply cc value).2.get flag = cc.get flag := by
  cases op <;> cases flag <;> first | rfl | exact absurd rfl h

theorem BinaryOp.get_apply {op : BinaryOp} (h : ¬ (Operation.binary8 op acc).sets flag)
    (cc : Flags) (a b : UInt8) : (op.apply cc a b).2.get flag = cc.get flag := by
  cases op <;> cases flag <;> first | rfl | exact absurd rfl h

theorem CompareOp.get_apply {op : CompareOp} (h : ¬ (Operation.compare8 op acc).sets flag)
    (cc : Flags) (a b : UInt8) : (op.apply cc a b).get flag = cc.get flag := by
  cases op <;> cases flag <;> first | rfl | exact absurd rfl h

theorem WideOp.get_apply {op : WideOp} (h : ¬ (Operation.binary16 op).sets flag) (cc : Flags)
    (a b : UInt16) : (op.apply cc a b).2.get flag = cc.get flag := by
  cases op <;> cases flag <;> first | rfl | exact absurd rfl h

end Arithmetic

/-! ## What keeps a flag -/

namespace Action

/-- The flag stays. -/
abbrev Law.keepsFlag (flag : Flag) : Law := .keeps fun cpu => cpu.regs.cc.get flag

section KeepsFlag

variable {flag : Flag}

instance : AllowsCharges (Law.keepsFlag flag) := ⟨fun _ _ => rfl⟩
instance : AllowsArming (Law.keepsFlag flag) := ⟨fun _ => rfl⟩
instance : AllowsWaiting (Law.keepsFlag flag) := ⟨fun _ => rfl, fun _ => rfl⟩
instance : AllowsIndex (Law.keepsFlag flag) := ⟨fun _ reg _ => by cases reg <;> rfl⟩

theorem obeys_modifyRegs_keepsFlag {f : Registers → Registers}
    (h : ∀ regs, (f regs).cc.get flag = regs.cc.get flag) :
    Obeys (Law.keepsFlag flag) (modifyRegs f) := obeys_modify fun cpu => h cpu.regs

theorem obeys_modifyFlags_keepsFlag {f : Flags → Flags}
    (h : ∀ cc, (f cc).get flag = cc.get flag) :
    Obeys (Law.keepsFlag flag) (modifyFlags f) := obeys_modifyRegs_keepsFlag fun regs => h regs.cc

theorem get_set {reg : Register} (h : reg ≠ .cc) (regs : Registers) (value : UInt16) :
    (regs.set reg value).cc.get flag = regs.cc.get flag := by
  cases reg <;> first | rfl | exact absurd rfl h

theorem obeys_loadRegister_keepsFlag {reg : Register} (h : reg ≠ .cc) (value : UInt16) :
    Obeys (Law.keepsFlag flag) (loadRegister reg value) :=
  obeys_loadRegister_of fun cpu => get_set h cpu.regs value

instance {address : UInt16} : Obeys (Law.keepsFlag flag) (jump address) :=
  obeys_modifyRegs_keepsFlag fun _ => rfl

end KeepsFlag

end Action

open Mc6809.Action in
/-- What does not set a flag leaves it alone. -/
theorem Operation.effect_keepsFlag {operation : Operation} {flag : Flag}
    (hwide : ∀ reg, operation = .load16 reg → reg.isWide) (hdirect : operation.setsDirectly)
    (h : ¬ operation.sets flag) : operation.effect.Obeys (Law.keepsFlag flag) := by
  cases operation with
  | nop | jump | call | branch | longBranch | longBranchAlways | push | returnFromSubroutine =>
    simp only [effect, Effect.Obeys]
    infer_instance
  | sync =>
    have : Obeys (Law.keepsFlag flag) (modify fun cpu => { cpu with sync := true } : Action Unit) :=
      obeys_modify AllowsWaiting.sync
    simp only [effect, Effect.Obeys]
    infer_instance
  | addBToX => exact obeys_modifyRegs_keepsFlag fun _ => rfl
  | modifyAccumulator op acc =>
    refine obeys_modifyRegs_keepsFlag fun regs => ?_
    cases acc <;> exact UnaryOp.get_apply h regs.cc _
  | testAccumulator | decimalAdjust | signExtend | multiply =>
    refine obeys_modifyRegs_keepsFlag fun regs => ?_
    cases flag <;> first | rfl | exact absurd rfl h
  | binary8 op acc =>
    refine fun operand => obeys_modifyRegs_keepsFlag fun regs => ?_
    cases acc <;> exact BinaryOp.get_apply h regs.cc _ operand
  | compare8 op acc =>
    exact fun operand => obeys_modifyRegs_keepsFlag fun regs =>
      CompareOp.get_apply h regs.cc _ operand
  | binary16 op =>
    exact fun operand => obeys_modifyRegs_keepsFlag fun regs =>
      WideOp.get_apply h regs.cc _ operand
  | compare16 reg =>
    refine fun operand => obeys_modifyRegs_keepsFlag fun regs => ?_
    cases flag <;> first | rfl | exact absurd rfl h
  | load8 acc =>
    refine fun value => obeys_modifyRegs_keepsFlag fun regs => ?_
    cases acc <;> cases flag <;> first | rfl | exact absurd rfl h
  | testMemory | store8 | store16 =>
    have (value : UInt8) : Obeys (Law.keepsFlag flag) (modifyFlags (Alu.load8 · value)) :=
      obeys_modifyFlags_keepsFlag fun _ => by cases flag <;> first | rfl | exact absurd rfl h
    have (value : UInt16) : Obeys (Law.keepsFlag flag) (modifyFlags (Alu.load16 · value)) :=
      obeys_modifyFlags_keepsFlag fun _ => by cases flag <;> first | rfl | exact absurd rfl h
    simp only [effect, Effect.Obeys]
    infer_instance
  | load16 reg =>
    have hcc : reg ≠ .cc := by
      rintro rfl
      cases hwide _ rfl
    have : ∀ value, Obeys (Law.keepsFlag flag) (loadRegister reg value) :=
      obeys_loadRegister_keepsFlag hcc
    have (value : UInt16) : Obeys (Law.keepsFlag flag) (modifyFlags (Alu.load16 · value)) :=
      obeys_modifyFlags_keepsFlag fun _ => by cases flag <;> first | rfl | exact absurd rfl h
    simp only [effect, Effect.Obeys]
    infer_instance
  | loadAddress reg =>
    intro address
    have hcc : reg.toRegister ≠ .cc := by cases reg <;> decide
    have : Obeys (Law.keepsFlag flag) (loadRegister reg.toRegister address) :=
      obeys_loadRegister_keepsFlag hcc address
    -- The one flag that LEA can set is Z, and that for X and Y only.
    by_cases hreg : reg = .x ∨ reg = .y
    · have : Obeys (Law.keepsFlag flag)
          (modifyFlags fun cc => { cc with zero := address == 0 }) := by
        refine obeys_modifyFlags_keepsFlag fun _ => ?_
        cases flag <;> first | rfl | exact absurd (decide_eq_true hreg) h
      infer_instance
    · simp only [if_neg hreg]
      infer_instance
  | softwareInterrupt kind =>
    have : Obeys (Law.keepsFlag flag) (modifyFlags fun cc => { cc with entire := true }) :=
      obeys_modifyFlags_keepsFlag fun _ => by cases flag <;> first | rfl | exact absurd rfl h
    simp only [effect, Effect.Obeys, Action.softwareInterrupt]
    by_cases hkind : kind = .swi
    · have : Obeys (Law.keepsFlag flag)
          (modifyFlags fun cc => { cc with firqMask := true, irqMask := true }) := by
        refine obeys_modifyFlags_keepsFlag fun _ => ?_
        cases flag <;> first | rfl | exact absurd (decide_eq_true hkind) h
      infer_instance
    · simp only [if_neg hkind]
      infer_instance
  | _ => cases hdirect

namespace Action

variable {cpu cpu' : Cpu} {w : List Exchange} {mode : AddressingMode} {flag : Flag}

/-- An operation in memory leaves CC as its arithmetic does. -/
theorem cc_of_modifyMemory {op : UnaryOp} {address : UInt16}
    (h : ((Operation.modifyMemory op).effect.atAddress address).Ends cpu w (.ok ()) cpu') :
    ∃ value, cpu'.regs.cc = (op.apply cpu.regs.cc value).2 := by
  unfold Ends Effect.atAddress Operation.effect at h
  simp only [start_bind, start_regs, start_modifyFlags, start_read, start_write, Traffic.done_bind,
    Traffic.read_bind, Traffic.ends_read_ok, Traffic.ends_write_ok, ends_leaf] at h
  obtain ⟨value, _, -, _, -, -, -, rfl⟩ := h
  exact ⟨value, rfl⟩

/-- A flag that changes is one that the operation sets, or CC has been written as a whole. -/
theorem get_of_ends {operation : Operation} (hregular : operation.regular)
    (hwide : ∀ reg, operation = .load16 reg → reg.isWide)
    (hsuits : operation.effect.suits mode) (hadmits : operation.admits mode)
    (h : (operation.effect.resolve mode).Ends cpu w (.ok ()) cpu')
    (hwrites : ¬ operation.writesFlags (readBytes w)) (hsets : ¬ operation.sets flag) :
    cpu'.regs.cc.get flag = cpu.regs.cc.get flag := by
  by_cases hdirect : operation.setsDirectly
  · obtain ⟨body, regs, clock, rest, hbody, -, hcc, hends⟩ := exists_body hsuits h
    have := (Operation.effect_keepsFlag hwide hdirect hsets).of_body hbody
    have hkept : cpu'.regs.cc.get flag = regs.cc.get flag := (Law.keepsFlag flag).of_returned hends
    rw [hkept, hcc]
  · cases operation with
    | orFlags | andFlags | waitForInterrupt | returnFromInterrupt => exact absurd rfl hwrites
    | modifyMemory op =>
      obtain ⟨located, clock, rest, hlocate, -, hacting⟩ :=
        ends_resolve_located hsuits (addresses_of_suits hsuits) h
      obtain ⟨value, hcc⟩ := cc_of_modifyMemory hacting
      have hkept : located.regs.cc = cpu.regs.cc :=
        (AddressingMode.locate?_spec hlocate false).2.2.1
      rw [hcc, UnaryOp.get_apply hsets]
      exact congrArg (·.get flag) hkept
    | transfer =>
      obtain rfl := fixedMode_of_admits hadmits rfl
      obtain ⟨postbyte, source, destination, hbytes, hpair, rfl⟩ := ends_transfer h
      rw [hbytes] at hwrites
      refine get_set ?_ _ _
      rintro rfl
      exact hwrites (decide_eq_true hpair.low)
    | exchange =>
      obtain rfl := fixedMode_of_admits hadmits rfl
      obtain ⟨postbyte, first, second, hbytes, hpair, rfl⟩ := ends_exchange h
      rw [hbytes] at hwrites
      refine (get_set ?_ _ _).trans (get_set ?_ _ _)
      · rintro rfl
        exact hwrites (decide_eq_true (.inr hpair.low))
      · rintro rfl
        exact hwrites (decide_eq_true (.inl hpair.high))
    | pull stack =>
      have hstack : stack = .s ∨ stack = .u := of_decide_eq_true hregular
      obtain rfl := fixedMode_of_admits hadmits rfl
      obtain ⟨mask, rest, rfl, hpulling⟩ := ends_onByte_immediate h
      rw [stackedRegisters_eq hstack] at hpulling
      have hunnamed : .cc ∉ Register.ofMask stack mask := fun hmem =>
        hwrites ((Register.mem_ofMask_iff 0 (by decide)).mp hmem)
      have : Obeys (Law.keepsFlag flag)
          ((Register.ofMask stack mask).reverse.forM (pullRegister stack)) := by
        refine obeys_forM_of_mem fun reg hmem => ?_
        have hreg : reg ≠ .cc := by
          rintro rfl
          exact hunnamed (List.mem_reverse.mp hmem)
        have : ∀ value, Obeys (Law.keepsFlag flag) (loadRegister reg value) :=
          obeys_loadRegister_keepsFlag hreg
        infer_instance
      exact ((Law.keepsFlag flag).of_returned hpulling :)
    | _ => exact absurd rfl hdirect

/-- DAA keeps a carry. -/
theorem carry_of_decimalAdjust
    (h : (Operation.decimalAdjust.effect.resolve .inherent).Ends cpu w (.ok ()) cpu')
    (hcarry : cpu.regs.cc.carry = true) : cpu'.regs.cc.carry = true := by
  obtain ⟨-, -, rfl⟩ := ends_leaf.mp h
  exact (congrArg (· || _) hcarry).trans (Bool.true_or _)

end Action

/-- The instructions that load a word from memory load it into a wide register. -/
theorem Instruction.isWide_of_load16 (instruction : Instruction) {reg : Register}
    (h : instruction.operation = .load16 reg) : reg.isWide := by
  have hnames := instruction.names
  rw [h] at hnames
  cases hmnemonic : instruction.entry.mnemonic <;> rw [hmnemonic] at hnames <;> cases hnames <;> rfl

/-! ## Steps -/

namespace Machine

variable {σ : Type} (devices : Devices σ) (m : Machine σ)

variable {devices m} {instruction : Instruction} {bytes : List UInt8} {flag : Flag} in
theorem Completes.get_eq (h : m.Completes devices instruction bytes)
    (hwrites : ¬ instruction.operation.writesFlags bytes)
    (hsets : ¬ instruction.operation.sets flag) :
    (m.step devices).2.cpu.regs.cc.get flag = m.cpu.regs.cc.get flag := by
  obtain ⟨w, -, rfl, hends⟩ := h.exists_ends
  exact (Action.get_of_ends instruction.regular_and_size.1
    (fun _ => instruction.isWide_of_load16) instruction.suits instruction.admits hends hwrites
    hsets :)

/-- What a step changes of the condition codes. A flag changes only where an interrupt is served,
and then it is a mask or E, or where an instruction completes that writes CC as a whole or sets
this flag. DAA never clears C. -/
theorem step_flags :
    (∀ flag, (m.step devices).2.cpu.regs.cc.get flag ≠ m.cpu.regs.cc.get flag →
      (flag.setByService ∧ ∃ interrupt high low, m.Serves devices interrupt high low) ∨
      ∃ instruction bytes, m.Completes devices instruction bytes ∧
        (instruction.operation.writesFlags bytes ∨ instruction.operation.sets flag)) ∧
    ∀ instruction bytes, m.Completes devices instruction bytes →
      instruction.operation = .decimalAdjust → m.cpu.regs.cc.carry →
      (m.step devices).2.cpu.regs.cc.carry := by
  refine ⟨fun flag hchanged => ?_, fun instruction bytes hcompletes hop hcarry => ?_⟩
  · cases m.fate devices with
    | served _ hserves _ =>
      refine .inl ⟨?_, _, _, _, hserves⟩
      rw [hserves.cc] at hchanged
      cases flag <;> first | rfl | exact absurd rfl hchanged
    | idle _ _ hcpu =>
      rw [hcpu] at hchanged
      unfold Action.sampled at hchanged
      split at hchanged <;> exact absurd rfl hchanged
    | completed hcompletes =>
      refine .inr ⟨_, _, hcompletes, ?_⟩
      by_contra hneither
      obtain ⟨hwrites, hsets⟩ := not_or.mp hneither
      exact hchanged (hcompletes.get_eq hwrites hsets)
    | undecodable _ _ _ hcpu =>
      rw [hcpu] at hchanged
      exact absurd rfl hchanged
    | refused _ _ hcpu =>
      rw [hcpu] at hchanged
      exact absurd rfl hchanged
  · obtain ⟨w, -, -, hends⟩ := hcompletes.exists_ends
    have hadmits := instruction.admits
    rw [hop] at hends hadmits
    rw [← Action.fixedMode_of_admits hadmits rfl] at hends
    exact Action.carry_of_decimalAdjust hends hcarry

/-- A program that begins with DAA, with C and V set. -/
def adjusting : Machine Unit :=
  (onePage #[0x19]).modifyRegs ({ · with a := 0x0A, cc := { carry := true, overflow := true } })

/-- DAA. -/
def daa : Instruction where
  page := .page1
  opcode := 0x19
  entry := ⟨.daa, .inherent, 2, 1⟩
  operation := .decimalAdjust
  find := by
    rw [Opcode.find?_eq_lookup]
    rfl
  names := rfl

theorem step_flags_adjusting : ∃ instruction bytes,
    adjusting.Completes Devices.none instruction bytes ∧
      instruction.operation = .decimalAdjust ∧ instruction.operation.sets .overflow ∧
      (adjusting.step Devices.none).2.cpu.regs.cc.carry := by
  obtain ⟨hflags, hcarry⟩ := adjusting.step_flags Devices.none
  have ⟨hchanged, hread⟩ : (adjusting.step Devices.none).2.cpu.regs.cc.get .overflow ≠
        adjusting.cpu.regs.cc.get .overflow ∧
      readBytes (adjusting.course Devices.none).exchanges = [0x19] := by
    decide +kernel
  obtain ⟨hservice, -⟩ | ⟨instruction, bytes, hcompletes, -⟩ := hflags .overflow hchanged
  · cases hservice
  have hcode : instruction.code ++ bytes = daa.code ++ [] := hcompletes.read.symm.trans hread
  obtain ⟨rfl, rfl⟩ := Instruction.eq_of_code_append hcode
  exact ⟨daa, _, hcompletes, rfl, rfl, hcarry _ _ hcompletes rfl rfl⟩

end Machine

end Mc6809
