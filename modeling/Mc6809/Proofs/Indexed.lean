/-
  Indexed addresses by the bits of the post-byte. `Located` goes by the decoder's sub-modes; here
  is a second account of the same addresses, which does not decode. Bits 6 and 5 name a register,
  the other bits say what is added to what and how the register is stepped
  (`IndexedForm.documented?`), and the sum is one of integers, taken modulo 2^16
  (`IndexedForm.base`). `Postbyte.Locates` is the whole rule: what a post-byte finds, with its
  extension and with the two bytes of a pointer if bit 4 asks for one.

  The two accounts agree on every post-byte (`Postbyte.found_eq_located`). What an operation does at
  the address that has been found is in `Operation.accesses?`, from the registers as they are then:
  an index register has been stepped before it is stored, and a load overwrites the step.
-/
import Mathlib.Data.List.Basic
import Mc6809.Proofs.Writes

namespace Mc6809

/-! ## Forms -/

/-- What an indexed address starts from. -/
inductive Origin where
  /-- The register that the post-byte names. -/
  | register
  /-- The address behind the instruction. -/
  | next
  | zero
deriving DecidableEq, Repr

/-- What is added to it. -/
inductive Displacement where
  | none
  /-- The low five bits of the post-byte. -/
  | field
  | a
  | b
  | d
  /-- A byte behind the post-byte. -/
  | byte
  /-- A word behind the post-byte. -/
  | word
deriving DecidableEq, Repr

/-- How an indexed address is formed. -/
structure IndexedForm where
  origin : Origin := .register
  displacement : Displacement := .none
  /-- By how much the register is stepped. -/
  step : Int := 0
deriving DecidableEq, Repr

/-- The bytes that follow the post-byte. -/
def Displacement.length : Displacement → Nat
  | byte => 1
  | word => 2
  | _ => 0

/-- The number that is added. Single bytes and the field are two's complement. -/
def Displacement.value (postbyte : UInt8) (regs : Registers) (extension : List UInt8) :
    Displacement → Int
  | none => 0
  | field =>
    let field : Int := postbyte.toNat % 32
    if field < 16 then field else field - 32
  | a => regs.a.toInt8.toInt
  | b => regs.b.toInt8.toInt
  | d => regs.d.toNat
  | byte => match extension with
    | offset :: _ => offset.toInt8.toInt
    | [] => 0
  | word => match extension with
    | high :: low :: _ => 256 * high.toNat + low.toNat
    | _ => 0

namespace Postbyte

/-- The register that bits 6 and 5 name. -/
def named (postbyte : UInt8) : IndexRegister :=
  match postbyte.toNat / 32 % 4 with
  | 0 => .x
  | 1 => .y
  | 2 => .u
  | _ => .s

/-- The address is that of a pointer. -/
def Follows (postbyte : UInt8) : Prop :=
  postbyte.toNat.testBit 7 ∧ postbyte.toNat.testBit 4

instance (postbyte : UInt8) : Decidable (Follows postbyte) :=
  inferInstanceAs (Decidable (_ ∧ _))

end Postbyte

namespace IndexedForm

/-- The form that a post-byte stands for. -/
def documented? (postbyte : UInt8) : Option IndexedForm :=
  if ¬ postbyte.toNat.testBit 7 then some { displacement := .field }
  else match postbyte.toNat % 16 with
    | 0x0 => if postbyte.toNat.testBit 4 then none else some { step := 1 }
    | 0x1 => some { step := 2 }
    | 0x2 => if postbyte.toNat.testBit 4 then none else some { step := -1 }
    | 0x3 => some { step := -2 }
    | 0x4 => some {}
    | 0x5 => some { displacement := .b }
    | 0x6 => some { displacement := .a }
    | 0x8 => some { displacement := .byte }
    | 0x9 => some { displacement := .word }
    | 0xB => some { displacement := .d }
    | 0xC => some { origin := .next, displacement := .byte }
    | 0xD => some { origin := .next, displacement := .word }
    | 0xF => if postbyte = 0x9F then some { origin := .zero, displacement := .word } else none
    | _ => none

variable (form : IndexedForm) (postbyte : UInt8) (regs : Registers) (extension : List UInt8)

/-- The address before indirection, where the instruction ends at `next`. A register that is
stepped downwards counts as it is afterwards, else as it was before. -/
def base (next : UInt16) : UInt16 :=
  let origin : Int := match form.origin with
    | .register => (regs.index (Postbyte.named postbyte)).toNat
    | .next => next.toNat
    | .zero => 0
  .ofInt (origin + form.displacement.value postbyte regs extension + min form.step 0)

/-- The registers with the named one stepped. -/
def stepped : Registers :=
  let register := Postbyte.named postbyte
  regs.setIndex register (.ofInt ((regs.index register).toNat + form.step))

/-- What has been found from the registers with PC at the post-byte. -/
def located (pointer : Option (UInt8 × UInt8)) : Located :=
  let next := regs.pc + .ofNat (1 + extension.length)
  { code := postbyte :: extension
    base := form.base postbyte regs extension next
    pointer
    regs := { form.stepped postbyte regs with pc := next } }

end IndexedForm

/-- From the registers with PC at the post-byte this is found: by the form of the post-byte, with
as many bytes behind it as the form asks for, and through a pointer just if bits 7 and 4 ask for
one. -/
def Postbyte.Locates (postbyte : UInt8) (regs : Registers) (located : Located) : Prop :=
  ∃ form extension pointer, IndexedForm.documented? postbyte = some form ∧
    extension.length = form.displacement.length ∧
    (pointer.isSome ↔ Postbyte.Follows postbyte) ∧
    located = form.located postbyte regs extension pointer

/-! ## The two accounts -/

/-- The form of a sub-mode. -/
def IndexedMode.form : IndexedMode → IndexedForm
  | offset5 _ => { displacement := .field }
  | postIncrement1 => { step := 1 }
  | postIncrement2 => { step := 2 }
  | preDecrement1 => { step := -1 }
  | preDecrement2 => { step := -2 }
  | noOffset => {}
  | accumulatorB => { displacement := .b }
  | accumulatorA => { displacement := .a }
  | offset8 => { displacement := .byte }
  | offset16 => { displacement := .word }
  | accumulatorD => { displacement := .d }
  | pcOffset8 => { origin := .next, displacement := .byte }
  | pcOffset16 => { origin := .next, displacement := .word }
  | extendedIndirect => { origin := .zero, displacement := .word }

/-- The offset of a sub-mode that has one in the post-byte. -/
def IndexedMode.shortOffset? : IndexedMode → Option UInt16
  | offset5 offset => some offset
  | _ => none

namespace Postbyte

/-- What the decoder makes of a post-byte is what its bits say. -/
def Means (decoded : Postbyte) (postbyte : UInt8) : Prop :=
  IndexedForm.documented? postbyte = some decoded.mode.form ∧
    decoded.register = named postbyte ∧ (decoded.indirect ↔ Follows postbyte) ∧
    decoded.mode.shortOffset?.all fun offset =>
      offset = .ofInt (Displacement.field.value postbyte {} [])

instance (decoded : Postbyte) (postbyte : UInt8) : Decidable (decoded.Means postbyte) :=
  inferInstanceAs (Decidable (_ ∧ _))

variable {postbyte : UInt8} {decoded : Postbyte}

theorem means_of_decode (h : decode postbyte = .ok decoded) : decoded.Means postbyte := by
  have all : ∀ n : Fin 256, ∀ decoded ∈ (decode (.ofFin n)).toOption, decoded.Means (.ofFin n) := by
    decide +kernel
  refine all postbyte.toFin decoded ?_
  show decoded ∈ (decode postbyte).toOption
  rw [h]
  rfl

/-- The account of the bits has as many bytes in the extension. -/
theorem extensionBytes_eq (decoded : Postbyte) :
    decoded.extensionBytes.toNat = decoded.mode.form.displacement.length := by
  obtain ⟨register, mode, indirect⟩ := decoded
  cases mode <;> rfl

theorem ofInt_toNat (word : UInt16) : UInt16.ofInt word.toNat = word := by
  have := word.toNat_lt
  apply UInt16.toNat_inj.mp
  unfold UInt16.ofInt
  rw [UInt16.toNat_ofNat']
  omega

theorem signExtend_eq (byte : UInt8) : signExtend byte = .ofInt byte.toInt8.toInt := by
  have all : ∀ n : Fin 256, signExtend (.ofFin n) = .ofInt (UInt8.ofFin n).toInt8.toInt := by
    decide +kernel
  exact all byte.toFin

theorem joinBytes_eq (high low : UInt8) :
    joinBytes high low = .ofInt (256 * high.toNat + low.toNat) := by
  rw [← ofInt_toNat (joinBytes high low), toNat_joinBytes]
  rfl

/-- Both accounts add the same. -/
theorem base_eq (h : decoded.Means postbyte) (regs : Registers) (next : UInt16)
    {extension : List UInt8} (hlength : extension.length = decoded.extensionBytes.toNat) :
    decoded.base regs next extension =
      decoded.mode.form.base postbyte regs extension next := by
  obtain ⟨register, mode, indirect⟩ := decoded
  obtain ⟨-, rfl, -, hfield⟩ := h
  have hstays : UInt16.ofInt 0 = 0 := by decide
  have hup : ∀ step ∈ [(0 : Int), 1, 2], UInt16.ofInt (min step 0) = 0 := by decide
  have hdown : ∀ step ∈ [(1 : Int), 2], UInt16.ofInt (min (-step) 0) = -.ofInt step := by decide
  unfold base IndexedForm.base
  rw [UInt16.ofInt_add, UInt16.ofInt_add]
  cases mode with
  | offset5 offset =>
    obtain rfl := of_decide_eq_true hfield
    simp only [IndexedMode.form, ofInt_toNat, hup 0 (by decide), UInt16.add_zero,
      Displacement.value]
  | offset8 | pcOffset8 =>
    obtain ⟨offset, rfl⟩ := List.length_eq_one_iff.mp hlength
    simp only [IndexedMode.form, ofInt_toNat, hup 0 (by decide), UInt16.add_zero,
      Displacement.value, signExtend_eq]
  | offset16 | pcOffset16 | extendedIndirect =>
    obtain ⟨high, low, rfl⟩ := List.length_eq_two.mp hlength
    simp only [IndexedMode.form, ofInt_toNat, hup 0 (by decide), UInt16.add_zero,
      UInt16.zero_add, Displacement.value, joinBytes_eq, hstays]
  | accumulatorA | accumulatorB | accumulatorD =>
    simp only [IndexedMode.form, ofInt_toNat, hup 0 (by decide), UInt16.add_zero,
      Displacement.value, signExtend_eq]
  | noOffset =>
    simp only [IndexedMode.form, ofInt_toNat, hup 0 (by decide), UInt16.add_zero,
      Displacement.value, hstays]
  | postIncrement1 | postIncrement2 =>
    simp only [IndexedMode.form, ofInt_toNat, hup 1 (by decide), hup 2 (by decide),
      UInt16.add_zero, Displacement.value, hstays]
  | preDecrement1 | preDecrement2 =>
    simp only [IndexedMode.form, ofInt_toNat, hdown 1 (by decide), hdown 2 (by decide),
      UInt16.add_zero, Displacement.value, hstays]
    exact UInt16.sub_eq_add_neg _ _

/-- Both accounts step the register in the same way. -/
theorem stepped_eq (h : decoded.Means postbyte) (regs : Registers) :
    decoded.stepped regs = decoded.mode.form.stepped postbyte regs := by
  obtain ⟨register, mode, indirect⟩ := decoded
  obtain ⟨-, rfl, -, -⟩ := h
  unfold IndexedForm.stepped
  dsimp only
  rw [UInt16.ofInt_add, ofInt_toNat]
  have hstays : UInt16.ofInt 0 = 0 := by decide
  have hone : UInt16.ofInt 1 = 1 := by decide
  have htwo : UInt16.ofInt 2 = 2 := by decide
  have hbackOne : UInt16.ofInt (-1) = -1 := by decide
  have hbackTwo : UInt16.ofInt (-2) = -2 := by decide
  cases mode with
  | postIncrement1 | postIncrement2 =>
    simp only [stepped, IndexedMode.form, hone, htwo]
  | preDecrement1 | preDecrement2 =>
    simp only [stepped, IndexedMode.form, hbackOne, hbackTwo, UInt16.sub_eq_add_neg]
  | _ =>
    simp only [IndexedMode.form, hstays, UInt16.add_zero, Registers.setIndex_index]
    rfl

/-- Both accounts find the same. -/
theorem found_eq_located (h : decoded.Means postbyte) (regs : Registers) {extension : List UInt8}
    (hlength : extension.length = decoded.extensionBytes.toNat)
    (pointer : Option (UInt8 × UInt8)) :
    decoded.found postbyte (regs.past 1) extension pointer =
      decoded.mode.form.located postbyte regs extension pointer := by
  have hnext : (regs.past 1).pc + .ofNat extension.length =
      regs.pc + .ofNat (1 + extension.length) := by
    rw [UInt16.ofNat_add, ← UInt16.add_assoc]
    rfl
  unfold found IndexedForm.located
  rw [base_eq h _ _ hlength, stepped_eq h, hnext]
  unfold IndexedForm.base IndexedForm.stepped
  rw [Registers.index_past]
  cases named postbyte <;> rfl

/-- What the sub-mode finds is what the bits of the post-byte say. -/
theorem locates_of_locate? {regs : Registers} {bytes more : List UInt8} {located : Located}
    (hdecode : decode postbyte = .ok decoded)
    (h : decoded.locate? postbyte (regs.past 1) bytes = some (located, more)) :
    Locates postbyte regs located := by
  have hmeans := means_of_decode hdecode
  unfold locate? at h
  dsimp only at h
  split at h
  · next hlength =>
    have hfound := found_eq_located hmeans regs hlength
    obtain ⟨hform, -, hfollows, -⟩ := hmeans
    have hbytes : (bytes.take decoded.extensionBytes.toNat).length =
        decoded.mode.form.displacement.length := hlength.trans decoded.extensionBytes_eq
    split at h
    · next hindirect =>
      cases h
      rw [hindirect] at hfollows
      exact ⟨_, _, none, hform, hbytes, hfollows, hfound none⟩
    · next high low _ hindirect _ =>
      cases h
      rw [hindirect] at hfollows
      exact ⟨_, _, some (high, low), hform, hbytes, hfollows, hfound (some (high, low))⟩
    · cases h
  · cases h

end Postbyte

/-- An address of the indexed mode is that of its post-byte. -/
theorem AddressingMode.locates_of_locate? {regs : Registers} {bytes more : List UInt8}
    {located : Located} (h : AddressingMode.indexed.locate? regs bytes = some (located, more)) :
    ∃ postbyte, bytes.head? = some postbyte ∧ Postbyte.Locates postbyte regs located := by
  obtain ⟨postbyte, rest, decoded, rfl, hdecode, hlocate⟩ := exists_of_locate?_indexed h
  exact ⟨postbyte, rfl, Postbyte.locates_of_locate? hdecode hlocate⟩

/-! ## Operands -/

/-- What an operation does with the operand at the address that has been found: its accesses there,
and the registers that it leaves, if it reads these bytes. It finds the registers as they are when
the address has been found. -/
def Operation.accesses? (operation : Operation) (located : Located) (data : List UInt8) :
    Option (List Exchange × Registers) :=
  let regs := located.regs
  let address := located.address
  let reads (high low : UInt8) : List Exchange := [.read address high, .read (address + 1) low]
  match operation, data with
  | loadAddress reg, [] =>
    let loaded := regs.setIndex reg address
    some ([], if reg = .x ∨ reg = .y then { loaded with cc.zero := address == 0 } else loaded)
  | jump, [] => some ([], { regs with pc := address })
  | call, [] => some (pushes regs.s [lowByte regs.pc, highByte regs.pc],
    { regs with s := regs.s - 2, pc := address })
  | load8 acc, [value] => some ([.read address value],
    { regs with cc := Alu.load8 regs.cc value }.setAccumulator acc value)
  | store8 acc, [] =>
    let value := regs.accumulator acc
    some ([.write address value], { regs with cc := Alu.load8 regs.cc value })
  | load16 reg, [high, low] =>
    let value := joinBytes high low
    some (reads high low, { regs with cc := Alu.load16 regs.cc value }.set reg value)
  | store16 reg, [] =>
    let value := regs.get reg
    some ([.write address (highByte value), .write (address + 1) (lowByte value)],
      { regs with cc := Alu.load16 regs.cc value })
  | modifyMemory op, [value] =>
    let (result, cc) := op.apply regs.cc value
    some ([.read address value, .write address result], { regs with cc })
  | testMemory, [value] => some ([.read address value], { regs with cc := Alu.load8 regs.cc value })
  | binary8 op acc, [value] =>
    let (result, cc) := op.apply regs.cc (regs.accumulator acc) value
    some ([.read address value], { regs with cc }.setAccumulator acc result)
  | compare8 op acc, [value] => some ([.read address value],
    { regs with cc := op.apply regs.cc (regs.accumulator acc) value })
  | binary16 op, [high, low] =>
    let (result, cc) := op.apply regs.cc regs.d (joinBytes high low)
    some (reads high low, { regs with cc }.setD result)
  | compare16 reg, [high, low] => some (reads high low,
    { regs with cc := (Alu.sub16 regs.cc (regs.get reg) (joinBytes high low)).2 })
  | _, _ => none

theorem readBytes_requests (w : List Exchange) : readBytes (requests w) = readBytes w := by
  induction w with
  | nil => rfl
  | cons exchange w ih =>
    cases exchange with
    | read address value => exact congrArg (value :: ·) ih
    | _ => exact ih

namespace Action

variable {cpu cpu' : Cpu} {w : List Exchange}

/-- In the indexed mode an operation does that with its operand. -/
theorem accesses?_of_ends {operation : Operation} {located : Located}
    (hadmits : operation.admits .indexed) (hregs : cpu.regs = located.regs)
    (h : (operation.effect.atAddress located.address).Ends cpu w (.ok ()) cpu') :
    operation.accesses? located (readBytes w) = some (requests w, cpu'.regs) := by
  unfold Operation.accesses?
  rw [← hregs]
  unfold Ends Effect.atAddress Operation.effect at h
  cases operation with
  | store8 acc =>
    simp only [start_bind, start_regs, start_modifyFlags, start_write, Traffic.done_bind,
      Traffic.ends_write_ok, ends_leaf] at h
    obtain ⟨_, rfl, rfl, -, rfl⟩ := h
    rfl
  | store16 reg =>
    unfold writeWord at h
    simp only [start_bind, start_regs, start_modifyFlags, start_write, Traffic.done_bind,
      Traffic.write_bind, Traffic.ends_write_ok, ends_leaf] at h
    obtain ⟨_, rfl, _, rfl, rfl, -, rfl⟩ := h
    rfl
  | modifyMemory op =>
    simp only [start_bind, start_regs, start_modifyFlags, start_read, start_write,
      Traffic.done_bind, Traffic.read_bind, Traffic.ends_read_ok, Traffic.ends_write_ok,
      ends_leaf] at h
    obtain ⟨value, _, rfl, _, rfl, rfl, -, rfl⟩ := h
    rfl
  | call =>
    have htwo : cpu.regs.s - 1 - 1 = cpu.regs.s - 2 := by grind
    unfold pushWord at h
    simp only [bind_assoc, start_bind, start_regs, start_pushByte, start_jump, Traffic.done_bind,
      Traffic.write_bind, Registers.index_setIndex, Registers.setIndex_setIndex,
      Traffic.ends_write_ok, ends_leaf] at h
    obtain ⟨_, rfl, _, rfl, rfl, -, rfl⟩ := h
    show some (_, { cpu.regs with s := cpu.regs.s - 2, pc := located.address }) = _
    rw [← htwo]
    rfl
  | jump =>
    obtain ⟨rfl, -, rfl⟩ := ends_leaf.mp h
    rfl
  | loadAddress reg =>
    obtain ⟨_, _, _, _, rfl, hload, hflags⟩ := ends_bind_ok.mp h
    obtain ⟨rfl, -, rfl⟩ := ends_loadRegister.mp hload
    cases reg with
    | x | y =>
      rw [if_pos (by decide)] at hflags
      obtain ⟨rfl, -, rfl⟩ := ends_modifyFlags.mp hflags
      rfl
    | u | s =>
      obtain ⟨rfl, -, rfl⟩ := ends_pure.mp hflags
      rfl
  | load8 acc | testMemory | compare8 op acc | binary8 op acc =>
    simp only [start_bind, start_modifyRegs, start_modifyFlags, start_read, Traffic.done_bind,
      Traffic.read_bind, Traffic.ends_read_ok, ends_leaf] at h
    obtain ⟨value, _, rfl, rfl, -, rfl⟩ := h
    rfl
  | load16 reg =>
    obtain ⟨_, _, _, _, rfl, hread, hloading⟩ := ends_bind_ok.mp h
    obtain ⟨high, low, rfl, rfl, rfl⟩ := ends_readWord_ok.mp hread
    obtain ⟨_, _, _, _, rfl, hflags, hload⟩ := ends_bind_ok.mp hloading
    obtain ⟨rfl, -, rfl⟩ := ends_modifyFlags.mp hflags
    obtain ⟨rfl, -, rfl⟩ := ends_loadRegister.mp hload
    rfl
  | binary16 op | compare16 reg =>
    obtain ⟨_, _, _, _, rfl, hread, hmodify⟩ := ends_bind_ok.mp h
    obtain ⟨high, low, rfl, rfl, rfl⟩ := ends_readWord_ok.mp hread
    obtain ⟨rfl, -, rfl⟩ := ends_modify.mp hmodify
    rfl
  | _ => cases hadmits

end Action

namespace Machine

variable {σ : Type} {devices : Devices σ} {m : Machine σ} {instruction : Instruction}
  {bytes : List UInt8}

/-- An instruction in the indexed mode finds the address of its post-byte and does there what its
operation says. -/
theorem Completes.locates (h : m.Completes devices instruction bytes)
    (hmode : instruction.entry.mode = .indexed) : ∃ postbyte located accesses,
      bytes.head? = some postbyte ∧
      Postbyte.Locates postbyte (m.cpu.regs.past instruction.code.length) located ∧
      requests (m.course devices).exchanges =
        fetched m.cpu.regs.pc (instruction.code ++ located.code) ++ located.follows ++ accesses ∧
      instruction.operation.accesses? located (readBytes accesses) =
        some (accesses, (m.step devices).2.cpu.regs) := by
  obtain ⟨located, clock, rest, hlocate, hrequests, hacting⟩ :=
    h.exists_located (by rw [hmode]; rfl)
  rw [hmode] at hlocate
  obtain ⟨postbyte, hhead, hlocates⟩ := AddressingMode.locates_of_locate? hlocate
  refine ⟨postbyte, located, requests rest, hhead, hlocates, hrequests, ?_⟩
  rw [readBytes_requests]
  exact Action.accesses?_of_ends (hmode ▸ instruction.admits) rfl hacting

variable (devices) in
/-- Indexed addresses. If the bus refuses nothing and the post-byte has a meaning, forming an
address reads the post-byte, its extension and, with indirection, the pointer at the address so far,
and returns what the bits of the post-byte say; of the processor only PC, the clock and the register
that is stepped change. And every instruction that completes in the indexed mode acts at that
address, on the registers as they are then. -/
theorem indexedAddress_documented :
    (∀ (bus : Bus σ) (cpu : Cpu) (ended : Except Fault UInt16 × Cpu) (postbyte : UInt8)
      (rest : List UInt8),
      ((Action.indexedAddress.start cpu).course devices bus).outcome = .ok ended →
      readBytes ((Action.indexedAddress.start cpu).course devices bus).exchanges =
        postbyte :: rest →
      ¬ Postbyte.Undefined postbyte →
      ∃ located clock, Postbyte.Locates postbyte cpu.regs located ∧
        ((Action.indexedAddress.start cpu).course devices bus).exchanges =
          located.reads cpu.regs.pc ∧
        ended = (.ok located.address, { cpu with regs := located.regs, clock })) ∧
    ∀ (m : Machine σ) (instruction : Instruction) (bytes : List UInt8),
      m.Completes devices instruction bytes → instruction.entry.mode = .indexed →
      ∃ postbyte located accesses, bytes.head? = some postbyte ∧
        Postbyte.Locates postbyte (m.cpu.regs.past instruction.code.length) located ∧
        requests (m.course devices).exchanges =
          fetched m.cpu.regs.pc (instruction.code ++ located.code) ++ located.follows ++
            accesses ∧
        instruction.operation.accesses? located (readBytes accesses) =
          some (accesses, (m.step devices).2.cpu.regs) := by
  refine ⟨fun bus cpu ended postbyte rest houtcome hread hdefined => ?_,
    fun m instruction bytes hcompletes hmode => hcompletes.locates hmode⟩
  obtain ⟨result, cpu'⟩ := ended
  have hends := Traffic.course_ends devices (Action.indexedAddress.start cpu) bus
  rw [houtcome] at hends
  cases result with
  | error fault =>
    obtain ⟨postbyte, ⟨hundefined, -⟩, hexchanges, -⟩ :=
      Action.ends_indexedAddress_error.mp hends
    rw [hexchanges] at hread
    cases hread
    exact absurd hundefined hdefined
  | ok address =>
    obtain ⟨located, clock, hlocate, hexchanges, rfl, rfl⟩ :=
      Action.ends_indexedAddress_ok hends []
    rw [List.append_nil, hread] at hlocate
    obtain ⟨_, hhead, hlocates⟩ := AddressingMode.locates_of_locate? hlocate
    cases hhead
    exact ⟨located, clock, hlocates, hexchanges, rfl⟩

/-- The processor that stores behind the opcode of its STX ,X++. -/
def behindStx : Cpu where
  regs := { x := 0x00FE, pc := 1 }

/-- What it reads when it forms the address. -/
theorem behindStx_course :
    ((Action.indexedAddress.start behindStx).course Devices.none storing.bus).outcome.isOk ∧
      readBytes ((Action.indexedAddress.start behindStx).course Devices.none
        storing.bus).exchanges = [0x81] := by
  decide +kernel

/-- Its post-byte finds the address in X and steps X by two. -/
theorem behindStx_located {located : Located}
    (h : Postbyte.Locates 0x81 behindStx.regs located) :
    located = IndexedForm.located { step := 2 } 0x81 behindStx.regs [] none := by
  obtain ⟨form, extension, pointer, hform, hlength, hfollows, rfl⟩ := h
  have hstep : IndexedForm.documented? 0x81 = some { step := 2 } := by decide
  cases hstep.symm.trans hform
  cases List.length_eq_zero_iff.mp hlength
  cases pointer with
  | none => rfl
  | some pointer => exact absurd (hfollows.mp rfl) (by decide)

/-- The address is the one that X held, and what is stored there is X with the step in it. -/
theorem indexedAddress_documented_stepped :
    (∃ (located : Located) (clock : UInt64),
      ((Action.indexedAddress.start behindStx).course Devices.none storing.bus).outcome =
        .ok (.ok located.address, { behindStx with regs := located.regs, clock }) ∧
      located.address = 0x00FE ∧ located.regs.x = 0x0100) ∧
    ∃ located, Postbyte.Locates 0x81 behindStx.regs located ∧
      stx.operation.accesses? located [] = some ([.write 0x00FE 0x01, .write 0x00FF 0x00],
        (storing.step Devices.none).2.cpu.regs) := by
  obtain ⟨haddress, hinstruction⟩ := indexedAddress_documented Devices.none
  constructor
  · obtain ⟨hok, hread⟩ := behindStx_course
    cases houtcome :
        ((Action.indexedAddress.start behindStx).course Devices.none storing.bus).outcome with
    | error fault =>
      rw [houtcome] at hok
      exact nomatch hok
    | ok ended =>
      obtain ⟨located, clock, hlocates, -, rfl⟩ :=
        haddress storing.bus behindStx ended 0x81 [] houtcome hread (by decide)
      refine ⟨located, clock, rfl, ?_, ?_⟩ <;> rw [behindStx_located hlocates] <;> decide
  · obtain ⟨postbyte, located, accesses, hhead, hlocates, -, haccesses⟩ :=
      hinstruction storing stx [0x81] storing_completes rfl
    cases hhead
    have hregs : storing.cpu.regs.past stx.code.length = behindStx.regs := by decide
    rw [hregs] at hlocates
    refine ⟨located, hlocates, ?_⟩
    rw [behindStx_located hlocates] at haccesses ⊢
    cases hdata : readBytes accesses with
    | nil =>
      rw [hdata] at haccesses
      refine haccesses.trans ?_
      obtain ⟨hstored, -⟩ := Prod.mk.inj (Option.some.inj haccesses)
      rw [← hstored]
      rfl
    | cons byte rest =>
      rw [hdata] at haccesses
      exact nomatch haccesses

end Machine

end Mc6809
