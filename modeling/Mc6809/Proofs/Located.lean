/-
  Where operands lie. An instruction with an operand in memory finds its address from the bytes
  behind its opcode, from the registers and, with indirection, from a pointer in memory.
  `AddressingMode.locate?` is the rule as the modes are documented. From the bytes that are read it
  says which belong to the instruction, which address they give, and what the registers are
  then: PC stands behind the instruction, and an index register may have been stepped.

  `ends_effectiveAddress_ok` says that the processor finds addresses by this rule, with the reads
  that the rule lists and no others. So an effect whose operand lies in memory comes to what it does
  at the address found (`ends_resolve_located`), and one whose operand stands in the instruction
  itself to what it does with the byte or the word fetched (`ends_onByte_immediate`,
  `ends_onWord_immediate`).
-/
import Mc6809.Proofs.Decode

namespace Mc6809

/-! ## The rule -/

/-- The registers with PC so many bytes further on. -/
def Registers.past (regs : Registers) (bytes : Nat) : Registers :=
  { regs with pc := regs.pc + .ofNat bytes }

theorem Registers.past_past (regs : Registers) (first second : Nat) :
    (regs.past first).past second = regs.past (first + second) := by
  unfold past
  rw [UInt16.ofNat_add, ← UInt16.add_assoc]

theorem Registers.index_past (regs : Registers) (bytes : Nat) (reg : IndexRegister) :
    (regs.past bytes).index reg = regs.index reg := by
  cases reg <;> rfl

/-- An address that has been found. -/
structure Located where
  /-- The bytes of the instruction that give it. -/
  code : List UInt8
  /-- The address before indirection. -/
  base : UInt16
  /-- The two bytes that stand there, if they are followed as a pointer. -/
  pointer : Option (UInt8 × UInt8)
  /-- The registers when it has been found. -/
  regs : Registers
deriving DecidableEq, Repr

namespace Located

/-- The address itself. -/
def address (located : Located) : UInt16 :=
  match located.pointer with
  | none => located.base
  | some (high, low) => joinBytes high low

/-- The reads that follow a pointer. -/
def follows (located : Located) : List Exchange :=
  match located.pointer with
  | none => []
  | some (high, low) => [.read located.base high, .read (located.base + 1) low]

/-- The reads that find an address, where the bytes of the instruction stand at `pc`. -/
def reads (located : Located) (pc : UInt16) : List Exchange :=
  fetched pc located.code ++ located.follows

@[simp] theorem requests_reads (located : Located) (pc : UInt16) :
    requests (located.reads pc) = located.reads pc := by
  unfold reads follows
  rw [requests_append, requests_fetched]
  cases located.pointer <;> rfl

end Located

namespace Postbyte

/-- The registers after the steps that a post-byte asks for. -/
def stepped (decoded : Postbyte) (regs : Registers) : Registers :=
  match decoded.mode with
  | .postIncrement1 => regs.setIndex decoded.register (regs.index decoded.register + 1)
  | .postIncrement2 => regs.setIndex decoded.register (regs.index decoded.register + 2)
  | .preDecrement1 => regs.setIndex decoded.register (regs.index decoded.register - 1)
  | .preDecrement2 => regs.setIndex decoded.register (regs.index decoded.register - 2)
  | _ => regs

/-- The address that a post-byte gives before indirection, from the registers before any step, the
address of the next instruction, and the bytes between the two. -/
def base (decoded : Postbyte) (regs : Registers) (next : UInt16) (extension : List UInt8) :
    UInt16 :=
  let register := regs.index decoded.register
  match decoded.mode, extension with
  | .offset5 offset, _ => register + offset
  | .postIncrement1, _ | .postIncrement2, _ | .noOffset, _ => register
  | .preDecrement1, _ => register - 1
  | .preDecrement2, _ => register - 2
  | .accumulatorB, _ => register + signExtend regs.b
  | .accumulatorA, _ => register + signExtend regs.a
  | .accumulatorD, _ => register + regs.d
  | .offset8, offset :: _ => register + signExtend offset
  | .offset16, high :: low :: _ => register + joinBytes high low
  | .pcOffset8, offset :: _ => next + signExtend offset
  | .pcOffset16, high :: low :: _ => next + joinBytes high low
  | .extendedIndirect, high :: low :: _ => joinBytes high low
  | _, _ => 0

/-- What a post-byte finds with its extension and, with indirection, the bytes of the pointer, from
the registers with PC behind the post-byte. -/
def found (decoded : Postbyte) (postbyte : UInt8) (regs : Registers) (extension : List UInt8)
    (pointer : Option (UInt8 × UInt8)) : Located where
  code := postbyte :: extension
  base := decoded.base regs (regs.pc + .ofNat extension.length) extension
  pointer
  regs := { decoded.stepped regs with pc := regs.pc + .ofNat extension.length }

/-- What a post-byte finds, from the registers with PC behind it and the bytes read from there on,
and the bytes left over. -/
def locate? (decoded : Postbyte) (postbyte : UInt8) (regs : Registers) (bytes : List UInt8) :
    Option (Located × List UInt8) :=
  let extension := bytes.take decoded.extensionBytes.toNat
  let found := decoded.found postbyte regs extension
  if extension.length = decoded.extensionBytes.toNat then
    match decoded.indirect, bytes.drop decoded.extensionBytes.toNat with
    | false, rest => some (found none, rest)
    | true, high :: low :: rest => some (found (some (high, low)), rest)
    | true, _ => none
  else none

section Locate

variable {decoded : Postbyte} {extension : List UInt8} {postbyte : UInt8} {regs : Registers}

theorem locate?_direct (hlength : extension.length = decoded.extensionBytes.toNat)
    (h : decoded.indirect = false) (more : List UInt8) :
    decoded.locate? postbyte regs (extension ++ more) =
      some (decoded.found postbyte regs extension none, more) := by
  unfold locate?
  rw [List.take_left' hlength, List.drop_left' hlength, h]
  exact if_pos hlength

theorem locate?_indirect (hlength : extension.length = decoded.extensionBytes.toNat)
    (h : decoded.indirect = true) (high low : UInt8) (more : List UInt8) :
    decoded.locate? postbyte regs (extension ++ high :: low :: more) =
      some (decoded.found postbyte regs extension (some (high, low)), more) := by
  unfold locate?
  rw [List.take_left' hlength, List.drop_left' hlength, h]
  exact if_pos hlength

/-- What has been found comes from all of the extension. -/
theorem eq_found_of_locate? {bytes more : List UInt8} {located : Located}
    (h : decoded.locate? postbyte regs bytes = some (located, more)) :
    (bytes.take decoded.extensionBytes.toNat).length = decoded.extensionBytes.toNat ∧
      ∃ pointer, located =
        decoded.found postbyte regs (bytes.take decoded.extensionBytes.toNat) pointer := by
  unfold locate? at h
  dsimp only at h
  split at h
  · next hlength =>
    refine ⟨hlength, ?_⟩
    split at h <;> cases h <;> exact ⟨_, rfl⟩
  · cases h

theorem stepped_cc (decoded : Postbyte) (regs : Registers) :
    (decoded.stepped regs).cc = regs.cc := by
  obtain ⟨register, mode, indirect⟩ := decoded
  unfold stepped
  cases mode <;> cases register <;> rfl

end Locate

end Postbyte

/-- The address that a mode finds, from the registers with PC behind the opcode and the bytes read
from there on, and the bytes left over. -/
def AddressingMode.locate? (mode : AddressingMode) (regs : Registers) (bytes : List UInt8) :
    Option (Located × List UInt8) :=
  match mode, bytes with
  | .direct, low :: rest => some (⟨[low], joinBytes regs.dp low, none, regs.past 1⟩, rest)
  | .extended, high :: low :: rest =>
    some (⟨[high, low], joinBytes high low, none, regs.past 2⟩, rest)
  | .relative, offset :: rest =>
    some (⟨[offset], regs.pc + 1 + signExtend offset, none, regs.past 1⟩, rest)
  | .longRelative, high :: low :: rest =>
    some (⟨[high, low], regs.pc + 2 + joinBytes high low, none, regs.past 2⟩, rest)
  | .indexed, postbyte :: rest =>
    match Postbyte.decode postbyte with
    | .ok decoded => decoded.locate? postbyte (regs.past 1) rest
    | .error _ => none
  | _, _ => none

/-- The bytes that a mode takes behind the opcode, for a byte or for a word. Those that an indexed
post-byte asks for come on top. -/
def AddressingMode.operandBytes (wide : Bool) : AddressingMode → Nat
  | inherent => 0
  | immediate => if wide then 2 else 1
  | direct | indexed | relative => 1
  | extended | longRelative => 2

/-- The offset or address bytes that an indexed post-byte asks for. -/
def AddressingMode.extensionBytes : AddressingMode → List UInt8 → Nat
  | .indexed, postbyte :: _ =>
    match Postbyte.decode postbyte with
    | .ok decoded => decoded.extensionBytes.toNat
    | .error _ => 0
  | _, _ => 0

/-- The address that an offset from PC gives, where the instruction ends at `next`. -/
def IndexedMode.pcRelative? (next : UInt16) : IndexedMode → List UInt8 → Option UInt16
  | .pcOffset8, offset :: _ => some (next + signExtend offset)
  | .pcOffset16, high :: low :: _ => some (next + joinBytes high low)
  | _, _ => none

@[inherit_doc IndexedMode.pcRelative?]
def AddressingMode.pcRelative? (next : UInt16) : AddressingMode → List UInt8 → Option UInt16
  | .relative, offset :: _ => some (next + signExtend offset)
  | .longRelative, high :: low :: _ => some (next + joinBytes high low)
  | .indexed, postbyte :: extension =>
    match Postbyte.decode postbyte with
    | .ok decoded => decoded.mode.pcRelative? next extension
    | .error _ => none
  | _, _ => none

section Locate

variable {mode : AddressingMode} {regs : Registers} {bytes more : List UInt8} {located : Located}

/-- What an indexed mode finds, the meaning of its post-byte finds. -/
theorem AddressingMode.exists_of_locate?_indexed
    (h : AddressingMode.indexed.locate? regs bytes = some (located, more)) :
    ∃ postbyte rest decoded, bytes = postbyte :: rest ∧ Postbyte.decode postbyte = .ok decoded ∧
      decoded.locate? postbyte (regs.past 1) rest = some (located, more) := by
  cases bytes with
  | nil => cases h
  | cons postbyte rest =>
    unfold AddressingMode.locate? at h
    dsimp only at h
    cases hdecode : Postbyte.decode postbyte with
    | ok decoded =>
      rw [hdecode] at h
      exact ⟨postbyte, rest, decoded, rfl, hdecode, h⟩
    | error fault =>
      rw [hdecode] at h
      cases h

/-- PC has moved past the bytes that the mode takes, the flags are as they were, and an offset from
PC has been added to the address behind these bytes. -/
theorem AddressingMode.locate?_spec (h : mode.locate? regs bytes = some (located, more))
    (wide : Bool) :
    located.code.length = mode.operandBytes wide + mode.extensionBytes bytes ∧
      located.regs.pc = regs.pc + .ofNat located.code.length ∧ located.regs.cc = regs.cc ∧
      ∀ target, mode.pcRelative? located.regs.pc bytes = some target → located.base = target := by
  cases mode with
  | inherent | immediate => cases bytes <;> cases h
  | direct =>
    obtain _ | ⟨low, rest⟩ := bytes <;> cases h
    exact ⟨rfl, rfl, rfl, fun _ h => nomatch h⟩
  | relative =>
    obtain _ | ⟨offset, rest⟩ := bytes <;> cases h
    exact ⟨rfl, rfl, rfl, fun _ h => Option.some.inj h⟩
  | extended =>
    obtain _ | ⟨high, _ | ⟨low, rest⟩⟩ := bytes <;> cases h
    exact ⟨rfl, rfl, rfl, fun _ h => nomatch h⟩
  | longRelative =>
    obtain _ | ⟨high, _ | ⟨low, rest⟩⟩ := bytes <;> cases h
    exact ⟨rfl, rfl, rfl, fun _ h => Option.some.inj h⟩
  | indexed =>
    obtain ⟨postbyte, rest, decoded, rfl, hdecode, hlocate⟩ := exists_of_locate?_indexed h
    obtain ⟨hlength, pointer, rfl⟩ := Postbyte.eq_found_of_locate? hlocate
    refine ⟨?_, ?_, decoded.stepped_cc _, fun target htarget => ?_⟩
    · rw [extensionBytes, hdecode]
      exact (Nat.add_comm _ 1).trans (congrArg (1 + ·) hlength)
    · exact (add_ofNat_succ regs.pc _).symm
    · obtain ⟨register, submode, indirect⟩ := decoded
      simp only [pcRelative?, hdecode] at htarget
      cases submode with
      | pcOffset8 =>
        obtain _ | ⟨offset, rest⟩ := rest <;> cases htarget
        rfl
      | pcOffset16 =>
        obtain _ | ⟨high, _ | ⟨low, rest⟩⟩ := rest <;> cases htarget
        rfl
      | _ => cases htarget

/-- Only indexed modes follow a pointer. -/
theorem AddressingMode.address_of_locate? (h : mode.locate? regs bytes = some (located, more))
    (hmode : mode ≠ .indexed) : located.address = located.base := by
  cases mode with
  | inherent | immediate => cases bytes <;> cases h
  | direct | relative =>
    obtain _ | ⟨byte, rest⟩ := bytes <;> cases h
    rfl
  | extended | longRelative =>
    obtain _ | ⟨high, _ | ⟨low, rest⟩⟩ := bytes <;> cases h
    rfl
  | indexed => exact absurd rfl hmode

end Locate

/-! ## Indexed addresses -/

namespace Action

variable {α β : Type} {cpu cpu' : Cpu} {w : List Exchange} {mode : AddressingMode}

theorem readBytes_fetched (address : UInt16) (bytes : List UInt8) :
    readBytes (fetched address bytes) = bytes := by
  induction bytes generalizing address with
  | nil => rfl
  | cons byte bytes ih => exact congrArg (byte :: ·) (ih (address + 1))

/-- A sub-mode reads its extension and steps its register. -/
theorem ends_indexedBase {decoded : Postbyte} {address : UInt16}
    (h : (indexedBase decoded.register decoded.mode).Ends cpu w (.ok address) cpu') :
    ∃ extension, extension.length = decoded.extensionBytes.toNat ∧
      w = fetched cpu.regs.pc extension ∧
      address = decoded.base cpu.regs (cpu.regs.pc + .ofNat extension.length) extension ∧
      cpu' = { cpu with regs := { decoded.stepped cpu.regs with
        pc := cpu.regs.pc + .ofNat extension.length } } := by
  obtain ⟨register, submode, indirect⟩ := decoded
  have hzero : cpu.regs.pc + .ofNat 0 = cpu.regs.pc := UInt16.add_zero _
  have htwo : cpu.regs.pc + .ofNat 2 = cpu.regs.pc + 1 + 1 := (UInt16.add_assoc _ 1 1).symm
  unfold Ends indexedBase relativeAddress longRelativeAddress fetchWord at h
  cases submode <;> simp only [bind_pure_comp, bind_assoc, map_bind, bind_map_left,
    Functor.map_map, start_bind, start_map, start_regs, start_modifyRegs, start_fetch,
    Traffic.done_bind, Traffic.read_bind, Traffic.ends_read_ok, ends_leaf, Except.ok.injEq] at h
  case offset8 | pcOffset8 =>
    obtain ⟨offset, _, rfl, rfl, rfl, rfl⟩ := h
    exact ⟨[offset], rfl, rfl, rfl, rfl⟩
  case offset16 | pcOffset16 | extendedIndirect =>
    obtain ⟨high, _, rfl, low, _, rfl, rfl, rfl, rfl⟩ := h
    refine ⟨[high, low], rfl, rfl, ?_, ?_⟩
    · rw [List.length_cons, List.length_singleton, htwo]
      rfl
    · rw [List.length_cons, List.length_singleton, htwo]
      rfl
  all_goals
    obtain ⟨rfl, rfl, rfl⟩ := h
    refine ⟨[], rfl, rfl, rfl, ?_⟩
    rw [List.length_nil, hzero]
    cases register <;> rfl

theorem ends_readWord_ok {address word : UInt16} :
    (readWord address).Ends cpu w (.ok word) cpu' ↔
      ∃ high low, w = [.read address high, .read (address + 1) low] ∧
        word = joinBytes high low ∧ cpu' = cpu := by
  unfold Ends readWord
  simp only [bind_pure_comp, start_bind, start_map, start_read, Traffic.done_bind,
    Traffic.read_bind, Traffic.ends_read_ok, ends_leaf, Except.ok.injEq]
  constructor
  · rintro ⟨high, _, rfl, low, _, rfl, rfl, rfl, rfl⟩
    exact ⟨high, low, rfl, rfl, rfl⟩
  · rintro ⟨high, low, rfl, rfl, rfl⟩
    exact ⟨high, _, rfl, low, _, rfl, rfl, rfl, rfl⟩

/-- An indexed address is found by the rule for its post-byte. -/
theorem ends_indexedAddress_ok {address : UInt16}
    (h : indexedAddress.Ends cpu w (.ok address) cpu') (more : List UInt8) :
    ∃ located clock,
      AddressingMode.indexed.locate? cpu.regs (readBytes w ++ more) = some (located, more) ∧
      w = located.reads cpu.regs.pc ∧ address = located.address ∧
      cpu' = { cpu with regs := located.regs, clock } := by
  unfold indexedAddress at h
  obtain ⟨postbyte, mid, _, w₁, rfl, hfetch, hdecoding⟩ := ends_bind_ok.mp h
  obtain ⟨_, rfl, hpostbyte, rfl⟩ := ends_fetch.mp hfetch
  cases hpostbyte
  obtain ⟨decoded, _, _, w₂, rfl, hdecode, hcharging⟩ := ends_bind_ok.mp hdecoding
  obtain ⟨rfl, hmeaning, rfl⟩ := ends_ofExcept.mp hdecode
  obtain ⟨_, _, _, w₃, rfl, hcharge, hforming⟩ := ends_bind_ok.mp hcharging
  obtain ⟨rfl, -, rfl⟩ := ends_charge.mp hcharge
  obtain ⟨base, mid, w₄, w₅, rfl, hbase, hfollowing⟩ := ends_bind_ok.mp hforming
  obtain ⟨extension, hlength, rfl, rfl, rfl⟩ := ends_indexedBase hbase
  cases hindirect : decoded.indirect with
  | false =>
    rw [hindirect, if_neg Bool.false_ne_true] at hfollowing
    obtain ⟨rfl, haddress, rfl⟩ := ends_pure.mp hfollowing
    cases haddress
    refine ⟨decoded.found postbyte (cpu.regs.past 1) extension none, _, ?_, rfl, rfl, rfl⟩
    simp only [readBytes, readBytes_fetched, List.nil_append, List.append_nil,
      List.cons_append, AddressingMode.locate?, ← hmeaning]
    exact Postbyte.locate?_direct hlength hindirect _
  | true =>
    rw [hindirect, if_pos rfl] at hfollowing
    obtain ⟨high, low, rfl, rfl, rfl⟩ := ends_readWord_ok.mp hfollowing
    refine ⟨decoded.found postbyte (cpu.regs.past 1) extension (some (high, low)), _, ?_, rfl, rfl,
      rfl⟩
    simp only [readBytes_append, readBytes, readBytes_fetched, List.nil_append, List.append_assoc,
      List.cons_append, AddressingMode.locate?, ← hmeaning]
    exact Postbyte.locate?_indirect hlength hindirect _ _ _

theorem ends_fetchWord_ok {word : UInt16} :
    fetchWord.Ends cpu w (.ok word) cpu' ↔
      ∃ high low, w = fetched cpu.regs.pc [high, low] ∧ word = joinBytes high low ∧
        cpu' = { cpu with regs := cpu.regs.past 2 } := by
  have htwo : cpu.regs.pc + .ofNat 2 = cpu.regs.pc + 1 + 1 := (UInt16.add_assoc _ 1 1).symm
  unfold Ends fetchWord Registers.past
  rw [htwo]
  simp only [bind_pure_comp, start_bind, start_map, start_fetch, Traffic.done_bind,
    Traffic.read_bind, Traffic.ends_read_ok, ends_leaf, Except.ok.injEq]
  constructor
  · rintro ⟨high, _, rfl, low, _, rfl, rfl, rfl, rfl⟩
    exact ⟨high, low, rfl, rfl, rfl⟩
  · rintro ⟨high, low, rfl, rfl, rfl⟩
    exact ⟨high, _, rfl, low, _, rfl, rfl, rfl, rfl⟩

/-! ## Addresses -/

/-- An address is found by the rule for its mode. -/
theorem ends_effectiveAddress_ok {address : UInt16}
    (h : (effectiveAddress mode).Ends cpu w (.ok address) cpu') (more : List UInt8) :
    ∃ located clock, mode.locate? cpu.regs (readBytes w ++ more) = some (located, more) ∧
      w = located.reads cpu.regs.pc ∧ address = located.address ∧
      cpu' = { cpu with regs := located.regs, clock } := by
  cases mode with
  | inherent | immediate =>
    obtain ⟨_, _, _, _, -, -, hthrow⟩ := ends_bind_ok.mp h
    obtain ⟨-, hfault, -⟩ := ends_throw.mp hthrow
    cases hfault
  | indexed => exact ends_indexedAddress_ok h more
  | direct =>
    unfold Ends effectiveAddress directAddress at h
    simp only [bind_pure_comp, start_bind, start_map, start_regs, start_fetch, Traffic.done_bind,
      Traffic.read_bind, Traffic.ends_read_ok, ends_leaf, Except.ok.injEq] at h
    obtain ⟨low, _, rfl, rfl, rfl, rfl⟩ := h
    exact ⟨⟨[low], _, none, cpu.regs.past 1⟩, _, rfl, rfl, rfl, rfl⟩
  | relative =>
    unfold Ends effectiveAddress relativeAddress at h
    simp only [bind_pure_comp, start_bind, start_map, start_regs, start_fetch, Traffic.done_bind,
      Traffic.read_bind, Traffic.ends_read_ok, ends_leaf, Except.ok.injEq] at h
    obtain ⟨offset, _, rfl, rfl, rfl, rfl⟩ := h
    exact ⟨⟨[offset], _, none, cpu.regs.past 1⟩, _, rfl, rfl, rfl, rfl⟩
  | extended =>
    obtain ⟨high, low, rfl, rfl, rfl⟩ := ends_fetchWord_ok.mp h
    exact ⟨⟨[high, low], _, none, cpu.regs.past 2⟩, _, rfl, rfl, rfl, rfl⟩
  | longRelative =>
    unfold effectiveAddress longRelativeAddress at h
    obtain ⟨offset, _, first, _, rfl, hfetch, hadding⟩ := ends_bind_ok.mp h
    obtain ⟨high, low, rfl, rfl, rfl⟩ := ends_fetchWord_ok.mp hfetch
    obtain ⟨_, _, _, _, rfl, hregs, hreturn⟩ := ends_bind_ok.mp hadding
    obtain ⟨rfl, hregs, rfl⟩ := ends_regs.mp hregs
    cases hregs
    obtain ⟨rfl, haddress, rfl⟩ := ends_pure.mp hreturn
    cases haddress
    exact ⟨⟨[high, low], _, none, cpu.regs.past 2⟩, _, rfl, rfl, rfl, rfl⟩

end Action

/-! ## Effects -/

/-- The modes that give an address. -/
def AddressingMode.addresses : AddressingMode → Bool
  | inherent | immediate => false
  | _ => true

open Mc6809.Action in
/-- What an effect does when its operand lies at the address. -/
def Effect.atAddress (address : UInt16) : Effect → Action Unit
  | implied action => action
  | onByte action => read address >>= action
  | onWord action => readWord address >>= action
  | onAddress action => action address

theorem Effect.resolve_of_addresses {effect : Effect} {mode : AddressingMode}
    (hsuits : effect.suits mode) (h : mode.addresses) :
    effect.resolve mode = Action.effectiveAddress mode >>= effect.atAddress := by
  cases effect with
  | implied action =>
    obtain rfl : mode = .inherent := of_decide_eq_true hsuits
    cases h
  | onByte action | onWord action =>
    cases mode with
    | inherent | immediate => cases h
    | _ => exact bind_assoc _ _ _
  | onAddress action => rfl

namespace Action

variable {cpu cpu' : Cpu} {w : List Exchange} {mode : AddressingMode}

/-- An effect finds the address of its operand and acts there. -/
theorem ends_resolve_located {effect : Effect} (hsuits : effect.suits mode) (hmode : mode.addresses)
    (h : (effect.resolve mode).Ends cpu w (.ok ()) cpu') :
    ∃ located clock rest, mode.locate? cpu.regs (readBytes w) = some (located, readBytes rest) ∧
      w = located.reads cpu.regs.pc ++ rest ∧
      (effect.atAddress located.address).Ends { cpu with regs := located.regs, clock } rest (.ok ())
        cpu' := by
  rw [Effect.resolve_of_addresses hsuits hmode] at h
  obtain ⟨_, _, first, rest, rfl, haddress, hacting⟩ := ends_bind_ok.mp h
  obtain ⟨located, clock, hlocate, rfl, rfl, rfl⟩ :=
    ends_effectiveAddress_ok haddress (readBytes rest)
  rw [readBytes_append]
  exact ⟨located, clock, rest, hlocate, rfl, hacting⟩

/-- A byte that stands in the instruction is fetched. -/
theorem ends_onByte_immediate {action : UInt8 → Action Unit}
    (h : ((Effect.onByte action).resolve .immediate).Ends cpu w (.ok ()) cpu') :
    ∃ value rest, w = .read cpu.regs.pc value :: rest ∧
      (action value).Ends { cpu with regs := cpu.regs.past 1 } rest (.ok ()) cpu' := by
  unfold Effect.resolve operand8 at h
  obtain ⟨_, _, _, rest, rfl, hfetch, hacting⟩ := ends_bind_ok.mp h
  obtain ⟨_, rfl, hvalue, rfl⟩ := ends_fetch.mp hfetch
  cases hvalue
  exact ⟨_, rest, rfl, hacting⟩

/-- A word that stands in the instruction is fetched. -/
theorem ends_onWord_immediate {action : UInt16 → Action Unit}
    (h : ((Effect.onWord action).resolve .immediate).Ends cpu w (.ok ()) cpu') :
    ∃ high low rest, w = fetched cpu.regs.pc [high, low] ++ rest ∧
      (action (joinBytes high low)).Ends { cpu with regs := cpu.regs.past 2 } rest (.ok ())
        cpu' := by
  unfold Effect.resolve operand16 at h
  obtain ⟨_, _, _, rest, rfl, hfetch, hacting⟩ := ends_bind_ok.mp h
  obtain ⟨high, low, rfl, rfl, rfl⟩ := ends_fetchWord_ok.mp hfetch
  exact ⟨high, low, rest, rfl, hacting⟩

end Action

end Mc6809
