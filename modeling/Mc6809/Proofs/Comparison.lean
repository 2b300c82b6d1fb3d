/-
  Comparisons and the branches that go by them. CMP and SUB take one number from another and leave
  flags from which the order of the two can be told, without and with a sign
  (`Flags.OfComparison`); each of ten conditions tells one relation (`Mnemonic.exists_condition`).
  That the flags say so for bytes and for words comes from differences of any width.

  `branches_after_comparison` puts together what a step that compares leaves and what a later step
  that branches does. The operand of a comparison is what the step has read last, whatever the
  addressing mode. A branch reads its own bytes only, so it ends wherever the bus answers with them,
  and so does every instruction like it (`Machine.Takes.completes`).
-/
import Mathlib.Data.List.Basic
import Mc6809.Proofs.CarryChain
import Mc6809.Proofs.FlagFrame

namespace Mc6809

/-! ## What the flags tell -/

namespace Flags

/-- C, Z, N and V tell the order of two numbers of so many bits, without and with a sign. -/
structure OfComparison (bits a b : Nat) (cc : Flags) : Prop where
  carry : cc.carry ↔ a < b
  zero : cc.zero ↔ a = b
  less : cc.negative ≠ cc.overflow ↔ twosComplement bits a < twosComplement bits b
  same : twosComplement bits a = twosComplement bits b ↔ a = b

theorem OfDifference.ofComparison {bits a b result : Nat} {cc : Flags}
    (h : OfDifference bits a b false result cc) (hbits : 0 < bits) (ha : a < 2 ^ bits)
    (hb : b < 2 ^ bits) (hzero : cc.zero ↔ result = 0) : OfComparison bits a b cc where
  carry := h.carry_iff
  zero := hzero.trans (h.eq_zero_iff hb)
  less := h.less_iff hbits ha hb
  same := twosComplement_inj hbits ha hb

/-- Only four flags matter. -/
theorem OfComparison.congr {bits a b : Nat} {cc other : Flags} (h : cc.OfComparison bits a b)
    (hsame : ∀ flag ∈ [Flag.carry, .overflow, .zero, .negative], other.get flag = cc.get flag) :
    other.OfComparison bits a b := by
  have hcarry : other.carry = cc.carry := hsame .carry (by decide)
  have hoverflow : other.overflow = cc.overflow := hsame .overflow (by decide)
  have hzero : other.zero = cc.zero := hsame .zero (by decide)
  have hnegative : other.negative = cc.negative := hsame .negative (by decide)
  obtain ⟨hc, hz, hless, hsigned⟩ := h
  exact ⟨hcarry ▸ hc, hzero ▸ hz, hnegative ▸ hoverflow ▸ hless, hsigned⟩

theorem ofComparison_sub (cc : Flags) (a b : UInt8) :
    OfComparison 8 a.toNat b.toNat (Alu.sub cc a b).2 := by
  refine (Alu.ofDifference_subtractWithBorrow cc a b false).ofComparison (by decide) a.toNat_lt
    b.toNat_lt ?_
  exact beq_iff_eq.trans UInt8.toNat_inj.symm

theorem ofComparison_sub16 (cc : Flags) (a b : UInt16) :
    OfComparison 16 a.toNat b.toNat (Alu.sub16 cc a b).2 := by
  refine (Alu.ofDifference_sub16 cc a b).ofComparison (by decide) a.toNat_lt b.toNat_lt ?_
  exact beq_iff_eq.trans UInt16.toNat_inj.symm

end Flags

/-- The relation between two numbers of so many bits that a conditional branch asks for, if it
asks for one. -/
def Mnemonic.asks? (bits : Nat) : Mnemonic → Option (Nat → Nat → Prop)
  | .bhi | .lbhi => some fun a b => a > b
  | .bls | .lbls => some fun a b => a ≤ b
  | .bhs | .lbhs => some fun a b => a ≥ b
  | .blo | .lblo => some fun a b => a < b
  | .bgt | .lbgt => some fun a b => twosComplement bits a > twosComplement bits b
  | .ble | .lble => some fun a b => twosComplement bits a ≤ twosComplement bits b
  | .bge | .lbge => some fun a b => twosComplement bits a ≥ twosComplement bits b
  | .blt | .lblt => some fun a b => twosComplement bits a < twosComplement bits b
  | .beq | .lbeq => some fun a b => a = b
  | .bne | .lbne => some fun a b => a ≠ b
  | _ => none

/-- A branch that asks for a relation is taken after a comparison of two numbers if they are so
related. -/
theorem Mnemonic.exists_condition {mnemonic : Mnemonic} {operation : Operation} {bits : Nat}
    {relation : Nat → Nat → Prop} (hnames : mnemonic.operation = some operation)
    (hasks : mnemonic.asks? bits = some relation) : ∃ condition : Condition,
      (operation = .branch condition ∨ operation = .longBranch condition) ∧
      ∀ {a b : Nat} {cc : Flags}, cc.OfComparison bits a b →
        (condition.holds cc ↔ relation a b) := by
  -- Only the twenty mnemonics that ask for something are left, each short or long.
  cases mnemonic <;> cases hasks <;> cases hnames <;>
    first | refine ⟨_, .inl rfl, ?_⟩ | refine ⟨_, .inr rfl, ?_⟩
  all_goals
    intro a b cc ⟨hcarry, hzero, hless, hsame⟩
    have hnotLess : cc.negative = cc.overflow ↔
        ¬ twosComplement bits a < twosComplement bits b := by
      rw [← hless, ne_eq, not_not]
    simp only [Condition.holds, Bool.and_eq_true, Bool.or_eq_true, Bool.not_eq_true', beq_iff_eq,
      bne_iff_ne, Bool.eq_false_iff, ne_eq, hcarry, hzero, hnotLess] <;> omega

/-! ## Comparisons -/

namespace Action

/-- Accumulators stay. -/
abbrev Law.keepsAccumulators : Law := .keeps fun cpu => (cpu.regs.a, cpu.regs.b)

instance : AllowsCharges Law.keepsAccumulators := ⟨fun _ _ => rfl⟩
instance : AllowsIndex Law.keepsAccumulators := ⟨fun _ reg _ => by cases reg <;> rfl⟩

instance obeys_fetch_accumulators : Obeys Law.keepsAccumulators fetch where
  returned := by
    intro cpu w a cpu' h
    obtain ⟨_, -, -, rfl⟩ := ends_fetch.mp h
    rfl
  thrown := by
    intro cpu w fault cpu' h
    obtain ⟨_, -, hr, -⟩ := ends_fetch.mp h
    cases hr
  refused := fun _ _ _ _ => trivial

variable {cpu cpu' : Cpu} {w : List Exchange} {mode : AddressingMode}

/-- A byte operand is the last byte that is read for it. -/
theorem ends_operand8_ok {value : UInt8} (h : (operand8 mode).Ends cpu w (.ok value) cpu') :
    (∃ read, readBytes w = read ++ [value]) ∧
      cpu'.regs.a = cpu.regs.a ∧ cpu'.regs.b = cpu.regs.b := by
  refine ⟨?_, Prod.mk.inj (Law.keepsAccumulators.of_returned h)⟩
  by_cases hmode : mode = .immediate
  · subst hmode
    obtain ⟨_, rfl, hvalue, -⟩ := ends_fetch.mp h
    cases hvalue
    exact ⟨[], rfl⟩
  · have hread : operand8 mode = effectiveAddress mode >>= read := by
      cases mode <;> first | rfl | exact absurd rfl hmode
    rw [hread] at h
    obtain ⟨_, _, first, _, rfl, -, hreading⟩ := ends_bind_ok.mp h
    obtain ⟨_, rfl, hvalue, -⟩ := ends_read.mp hreading
    cases hvalue
    exact ⟨readBytes first, readBytes_append _ _⟩

/-- A word operand is the last two bytes that are read for it. -/
theorem ends_operand16_ok {word : UInt16} (h : (operand16 mode).Ends cpu w (.ok word) cpu') :
    (∃ read high low, readBytes w = read ++ [high, low] ∧ word = joinBytes high low) ∧
      cpu'.regs.a = cpu.regs.a ∧ cpu'.regs.b = cpu.regs.b := by
  refine ⟨?_, Prod.mk.inj (Law.keepsAccumulators.of_returned h)⟩
  by_cases hmode : mode = .immediate
  · subst hmode
    obtain ⟨high, low, rfl, rfl, -⟩ := ends_fetchWord_ok.mp h
    exact ⟨[], high, low, readBytes_fetched _ _, rfl⟩
  · have hread : operand16 mode = effectiveAddress mode >>= readWord := by
      cases mode <;> first | rfl | exact absurd rfl hmode
    rw [hread] at h
    obtain ⟨_, _, first, _, rfl, -, hreading⟩ := ends_bind_ok.mp h
    obtain ⟨high, low, rfl, rfl, -⟩ := ends_readWord_ok.mp hreading
    exact ⟨readBytes first, high, low, readBytes_append _ _, rfl⟩

/-- An operation that finds a byte and then works on registers works on the accumulators that it
has begun with. -/
theorem ends_onByte_modifyRegs {f : UInt8 → Registers → Registers}
    (h : ((Effect.onByte fun operand => modifyRegs (f operand)).resolve mode).Ends cpu w (.ok ())
      cpu') : ∃ read value regs, readBytes w = read ++ [value] ∧ regs.a = cpu.regs.a ∧
        regs.b = cpu.regs.b ∧ cpu'.regs = f value regs := by
  obtain ⟨value, mid, _, _, rfl, hoperand, hmodify⟩ := ends_bind_ok.mp h
  obtain ⟨⟨read, hread⟩, ha, hb⟩ := ends_operand8_ok hoperand
  obtain ⟨rfl, -, rfl⟩ := ends_leaf.mp hmodify
  exact ⟨read, value, mid.regs, by rw [List.append_nil, hread], ha, hb, rfl⟩

/-- An operation that finds a word and then works on registers does so too. -/
theorem ends_onWord_modifyRegs {f : UInt16 → Registers → Registers}
    (h : ((Effect.onWord fun operand => modifyRegs (f operand)).resolve mode).Ends cpu w (.ok ())
      cpu') : ∃ read high low regs, readBytes w = read ++ [high, low] ∧ regs.a = cpu.regs.a ∧
        regs.b = cpu.regs.b ∧ cpu'.regs = f (joinBytes high low) regs := by
  obtain ⟨_, mid, _, _, rfl, hoperand, hmodify⟩ := ends_bind_ok.mp h
  obtain ⟨⟨read, high, low, hread, rfl⟩, ha, hb⟩ := ends_operand16_ok hoperand
  obtain ⟨rfl, -, rfl⟩ := ends_leaf.mp hmodify
  exact ⟨read, high, low, mid.regs, by rw [List.append_nil, hread], ha, hb, rfl⟩

end Action

/-- What a comparison or a subtraction takes its operand from, with the number of its bytes. A
comparison leaves it in a register, and a subtraction finds it there. -/
def Mnemonic.minuend? (before after : Registers) : Mnemonic → Option (Nat × UInt16)
  | .cmpa => some (1, after.get .a)
  | .cmpb => some (1, after.get .b)
  | .suba => some (1, before.get .a)
  | .subb => some (1, before.get .b)
  | .cmpd => some (2, after.get .d)
  | .cmpx => some (2, after.get .x)
  | .cmpy => some (2, after.get .y)
  | .cmpu => some (2, after.get .u)
  | .cmps => some (2, after.get .s)
  | .subd => some (2, before.get .d)
  | _ => none

/-- A comparison or subtraction by its operation. -/
inductive Operation.TakesFrom (before after : Registers) : Operation → Nat → UInt16 → Prop
  | compare8 (acc : Accumulator) :
    TakesFrom before after (.compare8 .cmp acc) 1 (after.accumulator acc).toUInt16
  | subtract8 (acc : Accumulator) :
    TakesFrom before after (.binary8 .sub acc) 1 (before.accumulator acc).toUInt16
  | compare16 (reg : Register) (h : reg ≠ .cc) :
    TakesFrom before after (.compare16 reg) 2 (after.get reg)
  | subtract16 : TakesFrom before after (.binary16 .sub) 2 before.d

theorem Mnemonic.takesFrom {mnemonic : Mnemonic} {operation : Operation} {before after : Registers}
    {width : Nat} {minuend : UInt16} (hnames : mnemonic.operation = some operation)
    (h : mnemonic.minuend? before after = some (width, minuend)) :
    operation.TakesFrom before after width minuend := by
  cases mnemonic <;> cases h <;> cases hnames
  case cmpa => exact .compare8 .a
  case cmpb => exact .compare8 .b
  case suba => exact .subtract8 .a
  case subb => exact .subtract8 .b
  case subd => exact .subtract16
  all_goals exact .compare16 _ (by decide)

/-- The number that bytes stand for, the most significant byte first. -/
def bigEndian (bytes : List UInt8) : Nat := littleEndian bytes.reverse

theorem bigEndian_pair (high low : UInt8) :
    bigEndian [high, low] = (joinBytes high low).toNat := by
  rw [toNat_joinBytes]
  show littleEndian [low, high] = _
  rw [littleEndian_cons, littleEndian_cons, littleEndian_nil]
  omega

theorem bigEndian_single (byte : UInt8) : bigEndian [byte] = byte.toNat := by
  show littleEndian [byte] = _
  rw [littleEndian_cons, littleEndian_nil]
  omega

namespace Machine.Completes

variable {σ : Type} {devices : Devices σ} {m : Machine σ} {instruction : Instruction}
  {bytes : List UInt8} {width : Nat} {minuend : UInt16}

/-- A comparison or subtraction leaves the flags of a comparison with the bytes that it has read
last. -/
theorem ofComparison (h : m.Completes devices instruction bytes)
    (hminuend : instruction.entry.mnemonic.minuend? m.cpu.regs (m.step devices).2.cpu.regs =
      some (width, minuend)) : ∃ read operand, bytes = read ++ operand ∧ operand.length = width ∧
      (m.step devices).2.cpu.regs.cc.OfComparison (8 * width) minuend.toNat
        (bigEndian operand) := by
  obtain ⟨w, -, rfl, hends⟩ := h.exists_ends
  generalize hafter : (m.step devices).2.cpu = after at hends hminuend ⊢
  generalize hmode : instruction.entry.mode = mode at hends
  have htakes := Mnemonic.takesFrom instruction.names hminuend
  generalize instruction.operation = operation at hends htakes
  cases htakes with
  | compare8 acc =>
    obtain ⟨read, value, regs, hread, -, -, hregs⟩ := Action.ends_onByte_modifyRegs hends
    refine ⟨read, [value], hread, rfl, ?_⟩
    have hkept : after.regs.accumulator acc = regs.accumulator acc := by
      rw [hregs]
      cases acc <;> rfl
    rw [hkept, UInt8.toNat_toUInt16, bigEndian_single, hregs]
    exact Flags.ofComparison_sub _ _ _
  | subtract8 acc =>
    obtain ⟨read, value, regs, hread, ha, hb, hregs⟩ := Action.ends_onByte_modifyRegs hends
    refine ⟨read, [value], hread, rfl, ?_⟩
    have hfound : m.cpu.regs.accumulator acc = regs.accumulator acc := by
      cases acc
      · exact ha.symm
      · exact hb.symm
    have hcc : after.regs.cc = (Alu.sub regs.cc (regs.accumulator acc) value).2 := by
      rw [hregs]
      cases acc <;> rfl
    rw [hfound, UInt8.toNat_toUInt16, bigEndian_single, hcc]
    exact Flags.ofComparison_sub _ _ _
  | compare16 reg hreg =>
    obtain ⟨read, high, low, regs, hread, -, -, hregs⟩ := Action.ends_onWord_modifyRegs hends
    refine ⟨read, [high, low], hread, rfl, ?_⟩
    have hkept : after.regs.get reg = regs.get reg := by
      rw [hregs]
      cases reg <;> first | rfl | exact absurd rfl hreg
    rw [hkept, bigEndian_pair, hregs]
    exact Flags.ofComparison_sub16 _ _ _
  | subtract16 =>
    obtain ⟨read, high, low, regs, hread, ha, hb, hregs⟩ := Action.ends_onWord_modifyRegs hends
    refine ⟨read, [high, low], hread, rfl, ?_⟩
    have hfound : m.cpu.regs.d = regs.d := by
      rw [Registers.d, Registers.d, ha, hb]
      rfl
    rw [hfound, bigEndian_pair, hregs]
    exact Flags.ofComparison_sub16 _ _ _

end Machine.Completes

/-! ## Branches -/

/-- The signed number that the bytes of an offset stand for. -/
def displacement (offset : List UInt8) : Int :=
  twosComplement (8 * offset.length) (bigEndian offset)

theorem displacement_single (byte : UInt8) :
    displacement [byte] = if byte.toNat < 128 then (byte.toNat : Int) else byte.toNat - 256 := by
  show twosComplement 8 (bigEndian [byte]) = _
  rw [bigEndian_single, twosComplement_eq (by decide) byte.toNat_lt]
  rfl

theorem displacement_pair (high low : UInt8) : displacement [high, low] =
    if (joinBytes high low).toNat < 32768 then ((joinBytes high low).toNat : Int)
    else (joinBytes high low).toNat - 65536 := by
  show twosComplement 16 (bigEndian [high, low]) = _
  rw [bigEndian_pair, twosComplement_eq (by decide) (UInt16.toNat_lt _)]
  rfl

theorem toNat_signExtend (byte : UInt8) : (signExtend byte).toNat =
    if byte.toNat < 128 then byte.toNat else byte.toNat + 65280 := by
  have all : ∀ n : Fin 256, (signExtend (.ofFin n)).toNat =
      if n.val < 128 then n.val else n.val + 65280 := by decide +kernel
  exact all byte.toFin

/-- The address at a signed distance, modulo 2^16. -/
def Displaces (address target : UInt16) (distance : Int) : Prop :=
  (target.toNat : Int) = (address.toNat + distance) % 65536

theorem displaces_signExtend (address : UInt16) (byte : UInt8) :
    Displaces address (address + signExtend byte) (displacement [byte]) := by
  have hlt := byte.toNat_lt
  unfold Displaces
  rw [UInt16.toNat_add, toNat_signExtend, displacement_single]
  split <;> omega

theorem displaces_joinBytes (address : UInt16) (high low : UInt8) :
    Displaces address (address + joinBytes high low) (displacement [high, low]) := by
  unfold Displaces
  rw [UInt16.toNat_add, displacement_pair]
  split <;> omega

namespace Action

variable (cpu : Cpu)

/-- The bytes behind the opcode of a branch give its target. -/
theorem exists_ends_target {offset : List UInt8} {mode : AddressingMode}
    (h : mode = .relative ∧ offset.length = 1 ∨ mode = .longRelative ∧ offset.length = 2) :
    ∃ target, (effectiveAddress mode).Ends cpu (fetched cpu.regs.pc offset) (.ok target)
        { cpu with regs := cpu.regs.past offset.length } ∧
      Displaces (cpu.regs.past offset.length).pc target (displacement offset) := by
  obtain ⟨rfl, hlength⟩ | ⟨rfl, hlength⟩ := h
  · obtain ⟨byte, rfl⟩ := List.length_eq_one_iff.mp hlength
    refine ⟨cpu.regs.pc + 1 + signExtend byte, ?_, displaces_signExtend _ byte⟩
    refine ends_bind_ok.mpr ⟨byte, _, _, [], rfl, ends_fetch.mpr ⟨_, rfl, rfl, rfl⟩, ?_⟩
    exact ends_bind_ok.mpr ⟨_, _, [], [], rfl, ends_regs.mpr ⟨rfl, rfl, rfl⟩,
      ends_pure.mpr ⟨rfl, rfl, rfl⟩⟩
  · obtain ⟨high, low, rfl⟩ := List.length_eq_two.mp hlength
    refine ⟨(cpu.regs.past 2).pc + joinBytes high low, ?_, displaces_joinBytes _ high low⟩
    refine ends_bind_ok.mpr ⟨joinBytes high low, _, _, [], rfl,
      ends_fetchWord_ok.mpr ⟨_, _, rfl, rfl, rfl⟩, ?_⟩
    exact ends_bind_ok.mpr ⟨_, _, [], [], rfl, ends_regs.mpr ⟨rfl, rfl, rfl⟩,
      ends_pure.mpr ⟨rfl, rfl, rfl⟩⟩

/-- A branch goes to its target if its condition holds, and on if not. -/
theorem exists_ends_branching {operation : Operation} {condition : Condition}
    (h : operation = .branch condition ∨ operation = .longBranch condition) (target : UInt16) :
    ∃ cpu', (operation.effect.atAddress target).Ends cpu [] (.ok ()) cpu' ∧
      cpu'.regs.pc = if condition.holds cpu.regs.cc then target else cpu.regs.pc := by
  obtain rfl | rfl := h
  all_goals
    unfold Ends Effect.atAddress
    simp only [Operation.effect, start_bind, start_regs, Traffic.done_bind]
    by_cases hholds : condition.holds cpu.regs.cc
    · simp only [hholds, if_true, start_bind, start_jump, Traffic.done_bind, start_charge]
      exact ⟨_, .done _, rfl⟩
    · simp only [hholds, Bool.false_eq_true, if_false]
      exact ⟨_, .done _, rfl⟩

end Action

namespace Machine

variable {σ : Type} {devices : Devices σ} {m : Machine σ}

/-- A branch ends at its target if its condition holds, and behind its own bytes if not. -/
theorem Takes.branch {branch : Instruction} {condition : Condition} {offset : List UInt8}
    (hoperation : branch.operation = .branch condition ∨ branch.operation = .longBranch condition)
    (hsize : (branch.code ++ offset).length = branch.entry.size.toNat)
    (h : m.Takes devices (branch.code ++ offset)) : (m.step devices).1 = .ok () ∧
      ∃ target, Displaces (m.cpu.regs.past (branch.code ++ offset).length).pc target
          (displacement offset) ∧
        (m.step devices).2.cpu.regs.pc = if condition.holds m.cpu.regs.cc then target
          else (m.cpu.regs.past (branch.code ++ offset).length).pc := by
  have hlength := branch.regular_and_size.2
  rw [← hsize, List.length_append, Nat.add_left_cancel_iff] at hlength
  have hadmits := branch.admits
  -- A branch can have no other mode, and the mode says how long the offset is.
  have hmode : branch.entry.mode = .relative ∧ offset.length = 1 ∨
      branch.entry.mode = .longRelative ∧ offset.length = 2 := by
    obtain hshort | hlong := hoperation
    · rw [hshort] at hadmits
      have hmode := Action.fixedMode_of_admits hadmits rfl
      rw [← hmode] at hlength
      exact .inl ⟨hmode.symm, hlength⟩
    · rw [hlong] at hadmits
      have hmode := Action.fixedMode_of_admits hadmits rfl
      rw [← hmode] at hlength
      exact .inr ⟨hmode.symm, hlength⟩
  have hpast : (branch.begun m.cpu).regs.past offset.length =
      m.cpu.regs.past (branch.code ++ offset).length := by
    rw [List.length_append]
    exact Registers.past_past _ _ _
  obtain ⟨target, htarget, hdisplaces⟩ := Action.exists_ends_target (branch.begun m.cpu) hmode
  obtain ⟨cpu, hbranching, hpc⟩ := Action.exists_ends_branching
    { branch.begun m.cpu with regs := (branch.begun m.cpu).regs.past offset.length } hoperation
    target
  have haddresses : branch.entry.mode.addresses := by
    obtain ⟨hmode, -⟩ | ⟨hmode, -⟩ := hmode <;> rw [hmode] <;> rfl
  have hends : (branch.operation.effect.resolve branch.entry.mode).Ends (branch.begun m.cpu)
      (fetched (branch.begun m.cpu).regs.pc offset) (.ok ()) cpu := by
    rw [Effect.resolve_of_addresses branch.suits haddresses]
    exact Action.ends_bind_ok.mpr
      ⟨target, _, _, [], (List.append_nil _).symm, htarget, hbranching⟩
  obtain ⟨hcompletes, hcpu⟩ := h.completes hends
  rw [hpast] at hdisplaces hpc
  refine ⟨hcompletes.ok, target, hdisplaces, ?_⟩
  rw [hcpu, hpc]
  rfl

variable {instruction : Instruction} {bytes : List UInt8} {width : Nat} {minuend : UInt16}

variable (devices) in
/-- A comparison or a subtraction reads its second operand last, and the branches that follow go by
the order of the two. However many instructions lie between, so long as C, V, Z and N are as they
have been left, a short or long branch that asks for a relation between numbers of that width goes
to its target if the operands are so related, and if not, to the next instruction. The target lies
at the signed distance that the offset gives from the next instruction, modulo 2^16. -/
theorem branches_after_comparison (h : m.Completes devices instruction bytes)
    (hminuend : instruction.entry.mnemonic.minuend? m.cpu.regs (m.step devices).2.cpu.regs =
      some (width, minuend)) :
    ∃ read operand, bytes = read ++ operand ∧ operand.length = width ∧
      ∀ (later : Machine σ) (branch : Instruction) (offset : List UInt8)
        (relation : Nat → Nat → Prop),
        (∀ flag ∈ [Flag.carry, .overflow, .zero, .negative],
          later.cpu.regs.cc.get flag = (m.step devices).2.cpu.regs.cc.get flag) →
        branch.entry.mnemonic.asks? (8 * width) = some relation →
        (branch.code ++ offset).length = branch.entry.size.toNat →
        later.Takes devices (branch.code ++ offset) →
        (later.step devices).1 = .ok () ∧
        (relation minuend.toNat (bigEndian operand) →
          Displaces (later.cpu.regs.past branch.entry.size.toNat).pc
            (later.step devices).2.cpu.regs.pc (displacement offset)) ∧
        (¬ relation minuend.toNat (bigEndian operand) →
          (later.step devices).2.cpu.regs.pc =
            (later.cpu.regs.past branch.entry.size.toNat).pc) := by
  obtain ⟨read, operand, hbytes, hwidth, hcomparison⟩ := h.ofComparison hminuend
  refine ⟨read, operand, hbytes, hwidth, ?_⟩
  intro later branch offset relation hsame hasks hsize htakes
  obtain ⟨condition, hoperation, hholds⟩ := Mnemonic.exists_condition branch.names hasks
  obtain ⟨hok, target, htarget, hpc⟩ := htakes.branch hoperation hsize
  have htaken := hholds (hcomparison.congr hsame)
  rw [hsize] at htarget hpc
  refine ⟨hok, fun hrelated => ?_, fun hunrelated => ?_⟩
  · rw [hpc, if_pos (htaken.mpr hrelated)]
    exact htarget
  · rw [hpc, if_neg (mt htaken.mp hunrelated)]

/-- CMPA with a byte of the instruction. -/
def cmpa : Instruction where
  page := .page1
  opcode := 0x81
  entry := ⟨.cmpa, .immediate, 2, 2⟩
  operation := .compare8 .cmp .a
  find := by
    rw [Opcode.find?_eq_lookup]
    rfl
  names := rfl

def bhi : Instruction where
  page := .page1
  opcode := 0x22
  entry := ⟨.bhi, .relative, 3, 2⟩
  operation := .branch .higher
  find := by
    rw [Opcode.find?_eq_lookup]
    rfl
  names := rfl

def bgt : Instruction where
  page := .page1
  opcode := 0x2E
  entry := ⟨.bgt, .relative, 3, 2⟩
  operation := .branch .greater
  find := by
    rw [Opcode.find?_eq_lookup]
    rfl
  names := rfl

/-- A comparison of 0x80 with 1. -/
def comparing : Machine Unit := repeating 0x81 0x01 { pc := 0x4000, a := 0x80 }

/-- What the comparison leaves. -/
def compared : Cpu := { cmpa.begun comparing.cpu with
  regs := { comparing.cpu.regs.past 2 with cc := (Alu.sub {} 0x80 0x01).2 } }

theorem comparing_completes : comparing.Completes Devices.none cmpa [0x01] ∧
    (comparing.step Devices.none).2.cpu = compared := by
  have htakes : comparing.Takes Devices.none (cmpa.code ++ [0x01]) :=
    repeating_takes (by decide)
  refine htakes.completes ?_
  exact Action.ends_bind_ok.mpr ⟨0x01, _, _, [], rfl, Action.ends_fetch.mpr ⟨_, rfl, rfl, rfl⟩,
    Action.ends_leaf.mpr ⟨rfl, rfl, rfl⟩⟩

/-- 0x80 is higher than 1, so that BHI goes back from 0x4004. As a signed number it is less, and BGT
goes on. -/
theorem branches_after_comparison_signs :
    ((repeating 0x22 0x80 compared.regs).step Devices.none).2.cpu.regs.pc.toNat = 0x3F84 ∧
      ((repeating 0x2E 0x10 compared.regs).step Devices.none).2.cpu.regs.pc = 0x4004 := by
  obtain ⟨hcompletes, hcpu⟩ := comparing_completes
  obtain ⟨read, operand, hbytes, hwidth, hbranches⟩ :=
    branches_after_comparison Devices.none hcompletes rfl
  have hread : read = [] := by
    have hlength := congrArg List.length hbytes
    rw [List.length_append, hwidth] at hlength
    exact List.length_eq_zero_iff.mp (Nat.succ_inj.mp hlength.symm)
  rw [hread, List.nil_append] at hbytes
  rw [hcpu, ← hbytes] at hbranches
  obtain ⟨-, htaken, -⟩ := hbranches (repeating 0x22 0x80 compared.regs) bhi [0x80] _
    (fun _ _ => rfl) rfl rfl (repeating_takes (by decide))
  obtain ⟨-, -, hnotTaken⟩ := hbranches (repeating 0x2E 0x10 compared.regs) bgt [0x10] _
    (fun _ _ => rfl) rfl rfl (repeating_takes (by decide))
  refine ⟨?_, (hnotTaken (by decide)).trans (by decide)⟩
  exact Int.ofNat_inj.mp ((htaken (by decide)).trans (by decide))

end Machine

end Mc6809
