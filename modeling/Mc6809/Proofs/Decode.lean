/-
  Code that does not decode. An instruction can be undefined in three ways: its opcode has no
  entry in its table, the post-byte of an indexed operand has no meaning, or the byte behind TFR
  or EXG does not name two registers of one width. `Undecodable` lists the three, each with the
  bytes up to the one that shows it, the fault that reports it, and the cycles charged by then.

  The processor finds just these (`ends_instruction_error`). When it does, it has read those
  bytes and nothing else: no register but PC has changed, and nothing has been written. So a decode
  fault can be kept without a rollback (`Machine.step_decodeFault`).

  That there is no further way to fail rests on the tables. Every row suits its operation
  (`Opcode.rows_suited`): no operation that wants an address is given the inherent or the immediate
  mode, and the decoder has an operation for every entry (`Opcode.rows_decoded`). Hence the fault
  for a decoder at odds with its tables never occurs (`Machine.internal_unreachable`).
-/
import Mc6809.Proofs.Flat
import Mc6809.Proofs.Visits

namespace Mc6809

/-! ## Bytes without a meaning -/

/-- Post-bytes without a meaning. Bit 7 is set, and the low digit is 7, A or E, or it is 0 or 2
with the bit for indirection, or it is F in another byte than 0x9F. -/
def Postbyte.Undefined (postbyte : UInt8) : Prop :=
  postbyte.toNat.testBit 7 ∧
    (postbyte.toNat % 16 ∈ [0x7, 0xA, 0xE] ∨
      postbyte.toNat % 16 ∈ [0x0, 0x2] ∧ postbyte.toNat.testBit 4 ∨
      postbyte.toNat % 16 = 0xF ∧ postbyte ≠ 0x9F)

instance (postbyte : UInt8) : Decidable (Postbyte.Undefined postbyte) :=
  inferInstanceAs (Decidable (_ ∧ _))

/-- The digits that name no register. Of the others those below 8 name the wide ones. -/
def Register.undefinedDigits : List Nat := [0x6, 0x7, 0xC, 0xD, 0xE, 0xF]

/-- Transfer bytes without a meaning: one of the digits names no register, or the two name
registers of different width. -/
def Register.UndefinedPair (postbyte : UInt8) : Prop :=
  postbyte.toNat / 16 ∈ undefinedDigits ∨ postbyte.toNat % 16 ∈ undefinedDigits ∨
    ¬ (postbyte.toNat / 16 < 8 ↔ postbyte.toNat % 16 < 8)

instance (postbyte : UInt8) : Decidable (Register.UndefinedPair postbyte) :=
  inferInstanceAs (Decidable (_ ∨ _ ∨ _))

/-- The byte after an opcode with this entry has no meaning there, and the fault says so. -/
inductive Opcode.Entry.Misreads (entry : Entry) : UInt8 → Fault → Prop where
  | indexed {postbyte : UInt8} : entry.mode = .indexed → Postbyte.Undefined postbyte →
      Misreads entry postbyte (.undefinedPostbyte postbyte)
  | transfer {postbyte : UInt8} : entry.mnemonic = .tfr ∨ entry.mnemonic = .exg →
      Register.UndefinedPair postbyte → Misreads entry postbyte (.registerSelection postbyte)

theorem Opcode.Entry.misreads_iff {entry : Entry} {byte : UInt8} {fault : Fault} :
    entry.Misreads byte fault ↔
      entry.mode = .indexed ∧ Postbyte.Undefined byte ∧ fault = .undefinedPostbyte byte ∨
      (entry.mnemonic = .tfr ∨ entry.mnemonic = .exg) ∧ Register.UndefinedPair byte ∧
        fault = .registerSelection byte := by
  constructor
  · rintro (⟨hmode, hundefined⟩ | ⟨hmnemonic, hundefined⟩)
    · exact .inl ⟨hmode, hundefined, rfl⟩
    · exact .inr ⟨hmnemonic, hundefined, rfl⟩
  · rintro (⟨hmode, hundefined, rfl⟩ | ⟨hmnemonic, hundefined, rfl⟩)
    · exact .indexed hmode hundefined
    · exact .transfer hmnemonic hundefined

/-- The bytes begin an instruction that does not decode, and the last of them shows it. The fault
reports it, and so many cycles have been charged by then: one for each byte of an opcode without an
entry, and else those of the entry. -/
inductive Undecodable : List UInt8 → Fault → Nat → Prop where
  | opcode {page : OpcodePage} {opcode : UInt8} : Opcode.find? page opcode = none →
      Undecodable (page.code opcode) (.undefinedOpcode page opcode) (page.code opcode).length
  | operand {page : OpcodePage} {opcode byte : UInt8} {entry : Opcode.Entry} {fault : Fault} :
      Opcode.find? page opcode = some entry → entry.Misreads byte fault →
      Undecodable (page.code opcode ++ [byte]) fault entry.cycles.toNat

/-- A result that can only be one fault is this fault just where it is not a value. -/
theorem eq_error_iff {α : Type} {result : Except Fault α} {undefined : Prop} {named fault : Fault}
    (hundefined : undefined ↔ result.toOption = none)
    (hnamed : ∀ fault, result = .error fault → fault = named) :
    result = .error fault ↔ undefined ∧ fault = named := by
  rw [hundefined]
  constructor
  · intro h
    refine ⟨?_, hnamed fault h⟩
    rw [h]
    rfl
  · rintro ⟨hnone, rfl⟩
    cases hresult : result with
    | ok value =>
      rw [hresult] at hnone
      cases hnone
    | error other => rw [hnamed other hresult]

theorem Postbyte.decode_eq_error_iff {postbyte : UInt8} {fault : Fault} :
    decode postbyte = .error fault ↔ Undefined postbyte ∧ fault = .undefinedPostbyte postbyte := by
  have all : ∀ n : Fin 256, Undefined (.ofFin n) ↔ (decode (.ofFin n)).toOption = none := by
    decide +kernel
  exact eq_error_iff (all postbyte.toFin) fun _ => Action.decode_error

theorem Register.transferPair_eq_error_iff {postbyte : UInt8} {fault : Fault} :
    Action.transferPair postbyte = .error fault ↔
      UndefinedPair postbyte ∧ fault = .registerSelection postbyte := by
  have all : ∀ n : Fin 256,
      UndefinedPair (.ofFin n) ↔ (Action.transferPair (.ofFin n)).toOption = none := by
    decide +kernel
  exact eq_error_iff (all postbyte.toFin) fun _ => Action.transferPair_error

/-! ## Modes that suit -/

/-- The mode has for the effect an operand of the kind that it wants. Only the inherent mode goes
with none, and neither the inherent nor the immediate mode has an address. -/
def Effect.suits (mode : AddressingMode) : Effect → Bool
  | implied _ => mode = .inherent
  | onByte _ | onWord _ => mode ≠ .inherent
  | onAddress _ => mode ≠ .inherent ∧ mode ≠ .immediate

/-- In every row the mode suits the operation, and only TFR and EXG decode their byte. -/
theorem Opcode.rows_suited (page : OpcodePage) : ∀ row ∈ rows page,
    row.2.mnemonic.operation.all fun operation => operation.effect.suits row.2.mode ∧
      (operation.decodes ↔ row.2.mnemonic = .tfr ∨ row.2.mnemonic = .exg) := by
  cases page <;> decide +kernel

/-- In the rows of one-operand instructions every defined column has an operation: TST, JMP where
there is an address, or one of those that the rows share. -/
theorem Opcode.rows_columns : ∀ row ∈ rows .page1, row.1 / 16 ∈ [0x0, 0x4, 0x5, 0x6, 0x7] →
    row.1 % 16 = 0xD ∨ row.1 % 16 = 0xE ∧ row.1 / 16 ∈ [0x0, 0x6, 0x7] ∨
      (UnaryOp.ofColumn (row.1 % 16)).isSome := by
  decide +kernel

/-! ## Where decoding stops -/

namespace Action

section Operands

variable {α β : Type} {cpu cpu' : Cpu} {w : List Exchange} {fault : Fault} {mode : AddressingMode}

/-- A fault of a sequence is one of its first part, if its second part throws none. -/
theorem ends_bind_error {action : Action α} {f : α → Action β}
    (hfaultless : ∀ a, Obeys Law.faultless (f a)) :
    (action >>= f).Ends cpu w (.error fault) cpu' ↔ action.Ends cpu w (.error fault) cpu' := by
  rw [ends_bind]
  constructor
  · rintro (⟨_, hr, h⟩ | ⟨a, mid, first, second, rfl, -, h⟩)
    · cases hr
      exact h
    · exact (Law.faultless.of_thrown h).elim
  · intro h
    exact .inl ⟨fault, rfl, h⟩

/-- Actions that read a byte and decode it stop with the fault that names it, just behind it. -/
theorem ends_fetch_decode_error {decode : UInt8 → Except Fault α} {f : α → Action β}
    (hfaultless : ∀ a, Obeys Law.faultless (f a)) :
    (fetch >>= fun byte => MonadExcept.ofExcept (decode byte) >>= f).Ends cpu w (.error fault)
        cpu' ↔
      ∃ byte, decode byte = .error fault ∧ w = [.read cpu.regs.pc byte] ∧
        cpu' = { cpu with regs.pc := cpu.regs.pc + 1 } := by
  rw [ends_bind]
  simp only [ends_bind_error hfaultless, ends_fetch, ends_ofExcept]
  constructor
  · rintro (⟨_, -, _, -, hr, -⟩ | ⟨byte, _, _, _, rfl, ⟨_, rfl, hbyte, rfl⟩, rfl, hdecode, rfl⟩)
    · cases hr
    · cases hbyte
      exact ⟨byte, hdecode.symm, rfl, rfl⟩
  · rintro ⟨byte, hdecode, rfl, rfl⟩
    exact .inr ⟨byte, _, _, [], rfl, ⟨byte, rfl, rfl, rfl⟩, rfl, hdecode.symm, rfl⟩

theorem ends_indexedAddress_error : indexedAddress.Ends cpu w (.error fault) cpu' ↔
    ∃ postbyte, (Postbyte.Undefined postbyte ∧ fault = .undefinedPostbyte postbyte) ∧
      w = [.read cpu.regs.pc postbyte] ∧ cpu' = { cpu with regs.pc := cpu.regs.pc + 1 } := by
  unfold indexedAddress
  rw [ends_fetch_decode_error fun _ => inferInstance]
  simp only [Postbyte.decode_eq_error_iff]

/-- An action that throws no fault ends with none. -/
theorem not_ends_error {action : Action α} [Obeys Law.faultless action] :
    ¬ action.Ends cpu w (.error fault) cpu' :=
  fun h => Law.faultless.of_thrown h

/-- Where there is an address, only a post-byte can keep it from being found. -/
theorem ends_effectiveAddress_error (hinherent : mode ≠ .inherent)
    (himmediate : mode ≠ .immediate) :
    (effectiveAddress mode).Ends cpu w (.error fault) cpu' ↔
      mode = .indexed ∧ indexedAddress.Ends cpu w (.error fault) cpu' := by
  cases mode with
  | inherent => exact absurd rfl hinherent
  | immediate => exact absurd rfl himmediate
  | indexed => exact (and_iff_right rfl).symm
  | direct | extended | relative | longRelative =>
    unfold effectiveAddress
    exact iff_of_false not_ends_error fun h => nomatch h.1

/-- An action on what lies at the effective address. -/
theorem ends_effectiveAddress_bind_error {f : UInt16 → Action β}
    (hfaultless : ∀ address, Obeys Law.faultless (f address)) (hinherent : mode ≠ .inherent)
    (himmediate : mode ≠ .immediate) :
    (effectiveAddress mode >>= f).Ends cpu w (.error fault) cpu' ↔
      mode = .indexed ∧ indexedAddress.Ends cpu w (.error fault) cpu' := by
  rw [ends_bind_error hfaultless, ends_effectiveAddress_error hinherent himmediate]

theorem ends_operand8_error (h : mode ≠ .inherent) :
    (operand8 mode).Ends cpu w (.error fault) cpu' ↔
      mode = .indexed ∧ indexedAddress.Ends cpu w (.error fault) cpu' := by
  cases mode with
  | immediate =>
    unfold operand8
    exact iff_of_false not_ends_error fun h => nomatch h.1
  | _ => exact ends_effectiveAddress_bind_error (fun _ => inferInstance) h (by decide)

theorem ends_operand16_error (h : mode ≠ .inherent) :
    (operand16 mode).Ends cpu w (.error fault) cpu' ↔
      mode = .indexed ∧ indexedAddress.Ends cpu w (.error fault) cpu' := by
  cases mode with
  | immediate =>
    unfold operand16
    exact iff_of_false not_ends_error fun h => nomatch h.1
  | _ => exact ends_effectiveAddress_bind_error (fun _ => inferInstance) h (by decide)

/-- In a mode that suits it, an effect without faults of its own meets one only in a post-byte. -/
theorem ends_resolve_error {effect : Effect} (hsuits : effect.suits mode)
    (hfaultless : effect.Obeys Law.faultless) :
    (effect.resolve mode).Ends cpu w (.error fault) cpu' ↔
      mode = .indexed ∧ indexedAddress.Ends cpu w (.error fault) cpu' := by
  cases effect with
  | implied action =>
    have hmode : mode = .inherent := of_decide_eq_true hsuits
    have : Obeys Law.faultless action := hfaultless
    subst hmode
    show action.Ends cpu w (.error fault) cpu' ↔ _
    exact iff_of_false not_ends_error fun h => nomatch h.1
  | onByte action =>
    have hmode : mode ≠ .inherent := of_decide_eq_true hsuits
    exact (ends_bind_error hfaultless).trans (ends_operand8_error hmode)
  | onWord action =>
    have hmode : mode ≠ .inherent := of_decide_eq_true hsuits
    exact (ends_bind_error hfaultless).trans (ends_operand16_error hmode)
  | onAddress action =>
    obtain ⟨hinherent, himmediate⟩ : mode ≠ .inherent ∧ mode ≠ .immediate :=
      of_decide_eq_true hsuits
    exact ends_effectiveAddress_bind_error hfaultless hinherent himmediate

/-- TFR and EXG meet a fault only in their byte. -/
theorem ends_decodes_error {operation : Operation} (h : operation.decodes) :
    (operation.effect.resolve .immediate).Ends cpu w (.error fault) cpu' ↔
      ∃ byte, (Register.UndefinedPair byte ∧ fault = .registerSelection byte) ∧
        w = [.read cpu.regs.pc byte] ∧ cpu' = { cpu with regs.pc := cpu.regs.pc + 1 } := by
  simp only [← Register.transferPair_eq_error_iff]
  cases operation with
  | exchange | transfer => exact ends_fetch_decode_error fun _ => inferInstance
  | _ => cases h

end Operands

end Action

/-! ## Fetching -/

/-- The bytes from an address upwards, read one after the other. -/
def fetched (address : UInt16) : List UInt8 → List Exchange
  | [] => []
  | byte :: rest => .read address byte :: fetched (address + 1) rest

theorem fetched_append (address : UInt16) (first second : List UInt8) :
    fetched address (first ++ second) =
      fetched address first ++ fetched (address + .ofNat first.length) second := by
  induction first generalizing address with
  | nil =>
    have hzero : address + .ofNat 0 = address := UInt16.add_zero address
    rw [List.length_nil, hzero]
    rfl
  | cons byte first ih =>
    rw [List.length_cons, add_ofNat_succ, List.cons_append, fetched, fetched, ih, List.cons_append]

theorem Bus.IsFlat.performs_fetched {σ : Type} {devices : Devices σ} {bus : Bus σ} (h : bus.IsFlat)
    {address : UInt16} {bytes : List UInt8}
    (hbytes : bus.memory.slice address bytes.length = bytes) :
    bus.Performs devices (fetched address bytes) bus := by
  induction bytes generalizing address with
  | nil => rfl
  | cons byte bytes ih =>
    obtain ⟨hbyte, hrest⟩ := List.cons.inj hbytes
    refine ⟨bus, ?_, ih hrest⟩
    rw [h.readResult_eq, hbyte]

@[simp] theorem requests_fetched (address : UInt16) (bytes : List UInt8) :
    requests (fetched address bytes) = fetched address bytes := by
  induction bytes generalizing address with
  | nil => rfl
  | cons byte bytes ih => exact congrArg (_ :: ·) (ih (address + 1))

/-- The processor behind the bytes of an instruction, with cycles charged for them. -/
def Cpu.past (cpu : Cpu) (code : List UInt8) (cycles : Nat) : Cpu := { cpu with
  regs.pc := cpu.regs.pc + .ofNat code.length
  clock := cpu.clock + .ofNat cycles }

theorem Cpu.past_append (cpu : Cpu) (code : List UInt8) (byte cycles : UInt8) :
    cpu.past (code ++ [byte]) cycles.toNat = { cpu with
      regs.pc := cpu.regs.pc + .ofNat code.length + 1
      clock := cpu.clock + cycles.toUInt64 } := by
  unfold past
  rw [List.length_append, UInt16.ofNat_add, ← UInt16.add_assoc, UInt64.ofNat_uInt8ToNat]
  rfl

/-- The byte stands for another table and not for an instruction. -/
def OpcodePage.Leads (page : OpcodePage) (opcode : UInt8) : Prop :=
  page = .page1 ∧ (opcode = 0x10 ∨ opcode = 0x11)

/-- The defined opcodes that lead to other tables. -/
theorem Opcode.prefixOf?_eq_none_iff {page : OpcodePage} {opcode : UInt8} {entry : Entry}
    (h : find? page opcode = some entry) :
    entry.mnemonic.prefixOf? = none ↔ ¬ page.Leads opcode := by
  rw [prefixOf?_eq h]
  unfold OpcodePage.Leads
  grind

/-- An opcode without an entry leads nowhere. -/
theorem Opcode.not_leads_of_find? {page : OpcodePage} {opcode : UInt8}
    (h : find? page opcode = none) : ¬ page.Leads opcode := by
  rw [find?_eq_lookup] at h
  rintro ⟨rfl, rfl | rfl⟩ <;> cases h

namespace Action

section Instructions

open Opcode

variable {cpu cpu' : Cpu} {w : List Exchange} {page : OpcodePage} {opcode : UInt8}

/-- Fetches the bytes of an opcode. -/
def fetchOpcode : Action (OpcodePage × UInt8) := do
  let opcode ← fetch
  if opcode = 0x10 then return (.page2, ← fetch)
  else if opcode = 0x11 then return (.page3, ← fetch)
  else return (.page1, opcode)

theorem instruction_eq_dispatch : instruction = fetchOpcode >>= fun (page, opcode) =>
    dispatch page opcode (.ofNat (page.code opcode).length) := by
  unfold instruction fetchOpcode
  rw [bind_assoc]
  refine bind_congr fun opcode => ?_
  split
  · simp only [bind_assoc, pure_bind, OpcodePage.code, List.length_cons, List.length_nil]
    rfl
  split
  · simp only [bind_assoc, pure_bind, OpcodePage.code, List.length_cons, List.length_nil]
    rfl
  · simp only [pure_bind, OpcodePage.code, List.length_cons, List.length_nil]
    rfl

/-- The bytes of an opcode are read from PC upwards. -/
theorem ends_fetchOpcode {r : Except Fault (OpcodePage × UInt8)} :
    fetchOpcode.Ends cpu w r cpu' ↔ ∃ page opcode, ¬ page.Leads opcode ∧
      w = fetched cpu.regs.pc (page.code opcode) ∧ r = .ok (page, opcode) ∧
      cpu' = { cpu with regs.pc := cpu.regs.pc + .ofNat (page.code opcode).length } := by
  have htwo (pc : UInt16) : pc + .ofNat 2 = pc + 1 + 1 := (UInt16.add_assoc pc 1 1).symm
  have hstart : fetchOpcode.start cpu = .read cpu.regs.pc fun first =>
      if first = 0x10 then .read (cpu.regs.pc + 1) fun opcode =>
        .done (.ok (.page2, opcode), { cpu with regs.pc := cpu.regs.pc + .ofNat 2 })
      else if first = 0x11 then .read (cpu.regs.pc + 1) fun opcode =>
        .done (.ok (.page3, opcode), { cpu with regs.pc := cpu.regs.pc + .ofNat 2 })
      else .done (.ok (.page1, first), { cpu with regs.pc := cpu.regs.pc + .ofNat 1 }) := by
    unfold fetchOpcode
    rw [start_bind, start_fetch, Traffic.read_bind, htwo]
    refine congrArg (Traffic.read cpu.regs.pc) (funext fun first => ?_)
    rw [Traffic.done_bind]
    dsimp only
    split
    · rfl
    split <;> rfl
  rw [Ends, hstart, Traffic.ends_read_ok]
  constructor
  · rintro ⟨first, rest, rfl, h⟩
    split at h
    · next h10 =>
      subst h10
      obtain ⟨opcode, rfl, rfl, rfl⟩ := ends_read_leaf.mp h
      refine ⟨.page2, opcode, ?_, rfl, rfl, rfl⟩
      rintro ⟨hpage, -⟩
      cases hpage
    split at h
    · next h11 =>
      subst h11
      obtain ⟨opcode, rfl, rfl, rfl⟩ := ends_read_leaf.mp h
      refine ⟨.page3, opcode, ?_, rfl, rfl, rfl⟩
      rintro ⟨hpage, -⟩
      cases hpage
    · next h10 h11 =>
      obtain ⟨rfl, rfl, rfl⟩ := ends_leaf.mp h
      exact ⟨.page1, first, fun h => h.2.elim h10 h11, rfl, rfl, rfl⟩
  · rintro ⟨page, opcode, hleads, rfl, rfl, rfl⟩
    cases page with
    | page1 =>
      refine ⟨opcode, [], rfl, ?_⟩
      rw [if_neg fun h => hleads ⟨rfl, .inl h⟩, if_neg fun h => hleads ⟨rfl, .inr h⟩]
      exact .done _
    | page2 => exact ⟨0x10, _, rfl, ends_read_leaf.mpr ⟨opcode, rfl, rfl, rfl⟩⟩
    | page3 => exact ⟨0x11, _, rfl, ends_read_leaf.mpr ⟨opcode, rfl, rfl, rfl⟩⟩

/-- An opcode without an entry has cost a cycle for each of its bytes. -/
theorem start_dispatch_undefined {length : UInt16} (h : find? page opcode = none) :
    (dispatch page opcode length).start cpu = .done (.error (.undefinedOpcode page opcode),
      { cpu with clock := cpu.clock + .ofNat (page.code opcode).length }) := by
  unfold dispatch
  simp only [h, start_bind, start_charge, Traffic.done_bind, start_throw]
  cases page <;> rfl

/-- An instruction reads the bytes of an opcode. If that has an entry, it does what the entry
documents, and else it stops. -/
theorem ends_instruction {r : Except Fault Unit} : instruction.Ends cpu w r cpu' ↔
    (∃ page opcode, find? page opcode = none ∧ w = fetched cpu.regs.pc (page.code opcode) ∧
      r = .error (.undefinedOpcode page opcode) ∧ cpu' = { cpu with
        regs.pc := cpu.regs.pc + .ofNat (page.code opcode).length
        clock := cpu.clock + .ofNat (page.code opcode).length }) ∨
    ∃ page opcode entry rest, find? page opcode = some entry ∧
      entry.mnemonic.prefixOf? = none ∧ w = fetched cpu.regs.pc (page.code opcode) ++ rest ∧
      (documented entry (.ofNat (page.code opcode).length)).Ends
        { cpu with regs.pc := cpu.regs.pc + .ofNat (page.code opcode).length } rest r cpu' := by
  rw [instruction_eq_dispatch, ends_bind]
  simp only [ends_fetchOpcode]
  constructor
  · rintro (⟨_, -, _, _, -, -, hr, -⟩ |
      ⟨_, _, _, rest, rfl, ⟨page, opcode, hleads, rfl, hr, rfl⟩, h⟩)
    · cases hr
    cases hr
    cases hfind : find? page opcode with
    | none =>
      rw [Ends, start_dispatch_undefined hfind, ends_leaf] at h
      obtain ⟨rfl, rfl, rfl⟩ := h
      exact .inl ⟨page, opcode, hfind, List.append_nil _, rfl, rfl⟩
    | some entry =>
      have hplain := (prefixOf?_eq_none_iff hfind).mpr hleads
      dsimp only at h
      rw [dispatch_of_find? _ hfind hplain] at h
      exact .inr ⟨page, opcode, entry, rest, hfind, hplain, rfl, h⟩
  · rintro (⟨page, opcode, hfind, rfl, rfl, rfl⟩ |
      ⟨page, opcode, entry, rest, hfind, hplain, rfl, h⟩)
    · refine .inr ⟨(page, opcode), _, _, [], (List.append_nil _).symm,
        ⟨page, opcode, not_leads_of_find? hfind, rfl, rfl, rfl⟩, ?_⟩
      rw [Ends, start_dispatch_undefined hfind]
      exact .done _
    · refine .inr ⟨(page, opcode), _, _, rest, rfl,
        ⟨page, opcode, (prefixOf?_eq_none_iff hfind).mp hplain, rfl, rfl, rfl⟩, ?_⟩
      dsimp only
      rw [dispatch_of_find? _ hfind hplain]
      exact h

variable {fault : Fault} {entry : Opcode.Entry}

/-- Past its opcode only one byte can stop an instruction, and PC is just behind it then. -/
theorem ends_operation_error {operation : Operation} (hfind : find? page opcode = some entry)
    (hplain : entry.mnemonic.prefixOf? = none)
    (hoperation : entry.mnemonic.operation = some operation) :
    (operation.effect.resolve entry.mode).Ends cpu w (.error fault) cpu' ↔
      ∃ byte, entry.Misreads byte fault ∧ w = [.read cpu.regs.pc byte] ∧
        cpu' = { cpu with regs.pc := cpu.regs.pc + 1 } := by
  have hrow := rows_suited page _ (mem_rows_of_find? hfind)
  rw [hoperation, Option.all_some, decide_eq_true_iff] at hrow
  obtain ⟨hsuits, hdecodes⟩ := hrow
  dsimp only at hsuits hdecodes
  simp only [Opcode.Entry.misreads_iff, ← hdecodes]
  by_cases hoperand : operation.decodes
  · obtain ⟨_, hoperation', hadmits⟩ := exists_operation hfind hplain
    cases hoperation.symm.trans hoperation'
    have hmode := fixedMode_of_admits hadmits (keeps_of_decodes hoperand).1
    rw [← hmode, ends_decodes_error hoperand]
    simp only [hoperand, reduceCtorEq, false_and, true_and, false_or]
  · have hfaultless : operation.effect.Obeys Law.faultless :=
      Operation.effect_obeys (fun _ => inferInstance) fun h => absurd h hoperand
    rw [ends_resolve_error hsuits hfaultless, ends_indexedAddress_error, ← exists_and_left]
    simp only [hoperand, Bool.false_eq_true, false_and, or_false, and_assoc]

theorem ends_documented_error {length : UInt16} (hfind : find? page opcode = some entry)
    (hplain : entry.mnemonic.prefixOf? = none) :
    (documented entry length).Ends cpu w (.error fault) cpu' ↔ ∃ byte, entry.Misreads byte fault ∧
      w = [.report (.execute (cpu.regs.pc - length) entry.mnemonic), .read cpu.regs.pc byte] ∧
      cpu' = { cpu with
        regs.pc := cpu.regs.pc + 1
        clock := cpu.clock + entry.cycles.toUInt64 } := by
  obtain ⟨operation, hoperation, -⟩ := exists_operation hfind hplain
  rw [ends_documented hoperation]
  simp only [ends_operation_error hfind hplain hoperation]
  constructor
  · rintro ⟨_, rfl, byte, hmisreads, rfl, rfl⟩
    exact ⟨byte, hmisreads, rfl, rfl⟩
  · rintro ⟨byte, hmisreads, rfl, rfl⟩
    exact ⟨_, rfl, byte, hmisreads, rfl, rfl⟩

/-- No byte is looked at behind one that leads to another table. -/
theorem not_leads_of_misreads {byte : UInt8} (hfind : find? page opcode = some entry)
    (h : entry.Misreads byte fault) : ¬ page.Leads opcode := by
  rw [find?_eq_lookup] at hfind
  rintro ⟨rfl, rfl | rfl⟩ <;>
    cases hfind <;>
    obtain ⟨hmode, -⟩ | ⟨hmnemonic, -⟩ := h <;>
    simp at *

/-- An instruction stops with a decode fault where its bytes do not decode. It has read just
these, and nothing but PC and the clock has changed. -/
theorem ends_instruction_error (h : instruction.Ends cpu w (.error fault) cpu') :
    ∃ code cycles, Undecodable code fault cycles ∧ requests w = fetched cpu.regs.pc code ∧
      cpu' = cpu.past code cycles := by
  rw [ends_instruction] at h
  obtain ⟨page, opcode, hfind, rfl, hr, rfl⟩ |
    ⟨page, opcode, entry, rest, hfind, hplain, rfl, h⟩ := h
  · cases hr
    exact ⟨_, _, .opcode hfind, requests_fetched _ _, rfl⟩
  · obtain ⟨byte, hmisreads, rfl, rfl⟩ := (ends_documented_error hfind hplain).mp h
    refine ⟨_, _, .operand hfind hmisreads, ?_, (cpu.past_append _ _ _).symm⟩
    rw [requests_append, requests_fetched, fetched_append]
    rfl

/-- Bytes that do not decode stop an instruction. -/
theorem exists_ends_of_undecodable {code : List UInt8} {cycles : Nat}
    (h : Undecodable code fault cycles) (cpu : Cpu) : ∃ w, requests w = fetched cpu.regs.pc code ∧
      instruction.Ends cpu w (.error fault) (cpu.past code cycles) := by
  cases h with
  | opcode hfind =>
    exact ⟨_, requests_fetched _ _, ends_instruction.mpr (.inl ⟨_, _, hfind, rfl, rfl, rfl⟩)⟩
  | operand hfind hmisreads =>
    have hplain := (prefixOf?_eq_none_iff hfind).mpr (not_leads_of_misreads hfind hmisreads)
    rw [cpu.past_append]
    refine ⟨_, ?_, ends_instruction.mpr (.inr ⟨_, _, _, _, hfind, hplain, rfl,
      (ends_documented_error hfind hplain).mpr ⟨_, hmisreads, rfl, rfl⟩⟩)⟩
    rw [requests_append, requests_fetched, fetched_append]
    rfl

end Instructions

end Action

/-! ## Steps -/

namespace Machine

variable {σ : Type} (devices : Devices σ) (m : Machine σ)

/-- The bus answers reads from PC upwards with these bytes. -/
def Fetches (code : List UInt8) : Prop :=
  ∃ after, m.bus.Performs devices (fetched m.cpu.regs.pc code) after

variable {m}

/-- Bytes that do not decode stop the step that fetches them. -/
theorem step_of_undecodable (hquiet : m.Quiet) (hawake : ¬ m.cpu.Waits m.bus.lines)
    {code : List UInt8} {fault : Fault} {cycles : Nat} (h : Undecodable code fault cycles)
    (hfetches : m.Fetches devices code) : (m.step devices).1 = .error fault := by
  obtain ⟨after, hperforms⟩ := hfetches
  obtain ⟨w, hrequests, hends⟩ := Action.exists_ends_of_undecodable h { m.cpu with sync := false }
  rw [Action.Ends, ← Action.start_step_of_not_waits hquiet hawake] at hends
  rw [← hrequests, Bus.performs_requests] at hperforms
  obtain ⟨-, houtcome, -⟩ := hends.course_eq hperforms
  exact (m.step_of_outcome devices houtcome).1

/-- A step that finds a decode fault has fetched bytes that do not decode. That is all it has done
to the bus, and of the processor only SYNC, PC and the clock have changed. -/
theorem decodeFault_of_step (hawake : ¬ m.cpu.Waits m.bus.lines) {fault : Fault}
    (hstep : (m.step devices).1 = .error fault) (hfault : fault.isBusFault = false) :
    ∃ code cycles, Undecodable code fault cycles ∧
      requests (m.course devices).exchanges = fetched m.cpu.regs.pc code ∧
      m.bus.Performs devices (fetched m.cpu.regs.pc code) (m.step devices).2.bus ∧
      (m.step devices).2.cpu = { m.cpu with sync := false }.past code cycles ∧
      (m.step devices).2.fault = some fault := by
  obtain ⟨cpu, houtcome⟩ := m.outcome_of_decodeFault devices hstep hfault
  obtain ⟨-, hcpu, hbus, hrecorded⟩ := m.step_of_outcome devices houtcome
  have hends := Action.instruction_of_step_error (m.course_ends devices houtcome)
  rw [Action.sampled_of_not_waits hawake] at hends
  obtain ⟨code, cycles, hundecodable, hrequests, hpast⟩ := Action.ends_instruction_error hends
  have hperforms := Traffic.course_performs devices ((Action.step m.bus.lines).start m.cpu) m.bus
  rw [← Bus.performs_requests] at hperforms
  rw [hcpu, hbus]
  refine ⟨code, cycles, hundecodable, hrequests, ?_, hpast, hrecorded fault rfl⟩
  rw [← hrequests]
  exact hperforms

/-- A step that executes stops with a decode fault just where the bytes that it fetches ask for it:
an undefined opcode, an undefined post-byte behind the opcode of an indexed instruction, or, behind
TFR or EXG, a byte that does not name two registers of one width. Such a step has read these bytes
and accessed nothing else. PC is behind them, the clock has advanced by their cost, and the rest of
the processor but SYNC, which is clear, is as it was. -/
theorem step_decodeFault (hquiet : m.Quiet) (hawake : ¬ m.cpu.Waits m.bus.lines) :
    (∀ page opcode, (m.step devices).1 = .error (.undefinedOpcode page opcode) ↔
      Opcode.find? page opcode = none ∧ m.Fetches devices (page.code opcode)) ∧
    (∀ postbyte, (m.step devices).1 = .error (.undefinedPostbyte postbyte) ↔
      ∃ page opcode entry, Opcode.find? page opcode = some entry ∧ entry.mode = .indexed ∧
        Postbyte.Undefined postbyte ∧ m.Fetches devices (page.code opcode ++ [postbyte])) ∧
    (∀ postbyte, (m.step devices).1 = .error (.registerSelection postbyte) ↔
      ∃ page opcode entry, Opcode.find? page opcode = some entry ∧
        (entry.mnemonic = .tfr ∨ entry.mnemonic = .exg) ∧
        Register.UndefinedPair postbyte ∧ m.Fetches devices (page.code opcode ++ [postbyte])) ∧
    ∀ fault, (m.step devices).1 = .error fault → fault.isBusFault = false →
      ∃ code cycles, Undecodable code fault cycles ∧
        requests (m.course devices).exchanges = fetched m.cpu.regs.pc code ∧
        m.bus.Performs devices (fetched m.cpu.regs.pc code) (m.step devices).2.bus ∧
        (m.step devices).2.cpu = { m.cpu with
          sync := false
          regs.pc := m.cpu.regs.pc + .ofNat code.length
          clock := m.cpu.clock + .ofNat cycles } ∧
        (m.step devices).2.fault = some fault := by
  have hcode {fault : Fault} (hstep : (m.step devices).1 = .error fault)
      (hfault : fault.isBusFault = false) :
      ∃ code cycles, Undecodable code fault cycles ∧ m.Fetches devices code := by
    obtain ⟨code, cycles, hundecodable, -, hperforms, -⟩ :=
      decodeFault_of_step devices hawake hstep hfault
    exact ⟨code, cycles, hundecodable, _, hperforms⟩
  refine ⟨fun page opcode => ⟨fun hstep => ?_, fun ⟨hfind, hfetches⟩ => ?_⟩,
    fun postbyte => ⟨fun hstep => ?_, ?_⟩, fun postbyte => ⟨fun hstep => ?_, ?_⟩,
    fun fault => decodeFault_of_step devices hawake⟩
  · obtain ⟨code, cycles, hundecodable, hfetches⟩ := hcode hstep rfl
    cases hundecodable with
    | opcode hfind => exact ⟨hfind, hfetches⟩
    | operand _ hmisreads => cases hmisreads
  · exact step_of_undecodable devices hquiet hawake (.opcode hfind) hfetches
  · obtain ⟨code, cycles, hundecodable, hfetches⟩ := hcode hstep rfl
    cases hundecodable with
    | operand hfind hmisreads =>
      cases hmisreads with
      | indexed hmode hundefined => exact ⟨_, _, _, hfind, hmode, hundefined, hfetches⟩
  · intro ⟨page, opcode, entry, hfind, hmode, hundefined, hfetches⟩
    exact step_of_undecodable devices hquiet hawake (.operand hfind (.indexed hmode hundefined))
      hfetches
  · obtain ⟨code, cycles, hundecodable, hfetches⟩ := hcode hstep rfl
    cases hundecodable with
    | operand hfind hmisreads =>
      cases hmisreads with
      | transfer hmnemonic hundefined => exact ⟨_, _, _, hfind, hmnemonic, hundefined, hfetches⟩
  · intro ⟨page, opcode, entry, hfind, hmnemonic, hundefined, hfetches⟩
    exact step_of_undecodable devices hquiet hawake
      (.operand hfind (.transfer hmnemonic hundefined)) hfetches

/-- Memory full of TFR. The byte behind the opcode asks for a transfer from X to no register. -/
def misreading : Machine Unit where
  cpu.regs := { pc := 0x4000 }
  bus := Bus.ofMemory (fun _ => 0x1F) ()

theorem step_decodeFault_misreading :
    (misreading.step Devices.none).1 = .error (.registerSelection 0x1F) ∧
      (misreading.step Devices.none).2.fault = some (.registerSelection 0x1F) := by
  have hflat : misreading.bus.IsFlat := Bus.isFlat_ofMemory (fun _ => 0x1F) ()
  have hexecutes : misreading.Executes (OpcodePage.page1.code 0x1F ++ [0x1F]) := by
    refine executes_of_released rfl rfl rfl ?_
    show (Bus.ofMemory (fun _ => 0x1F) ()).memory.slice 0x4000 2 = [0x1F, 0x1F]
    rw [Bus.memory_ofMemory]
    rfl
  obtain ⟨-, -, htransfer, heffects⟩ :=
    step_decodeFault Devices.none hexecutes.quiet hexecutes.awake
  have hfind : Opcode.find? .page1 0x1F = some ⟨.tfr, .immediate, 6, 2⟩ := by
    rw [Opcode.find?_eq_lookup]
    rfl
  have hfetches : misreading.Fetches Devices.none (OpcodePage.page1.code 0x1F ++ [0x1F]) :=
    ⟨_, hflat.performs_fetched hexecutes.code⟩
  have hstep := (htransfer 0x1F).mpr
    ⟨.page1, 0x1F, _, hfind, .inl rfl, by decide, hfetches⟩
  obtain ⟨-, -, -, -, -, -, hrecorded⟩ := heffects _ hstep rfl
  exact ⟨hstep, hrecorded⟩

/-! ## The fault that does not occur -/

theorem step_ne_internal (m : Machine σ) (pc : UInt16) :
    (m.step devices).1 ≠ .error (.internal pc) := by
  intro hstep
  obtain ⟨cpu, houtcome⟩ := m.outcome_of_decodeFault devices hstep rfl
  have hends := Action.instruction_of_step_error (m.course_ends devices houtcome)
  obtain ⟨code, cycles, hundecodable, -⟩ := Action.ends_instruction_error hends
  cases hundecodable with
  | operand _ hmisreads => cases hmisreads

/-- A reset fails only where its vector cannot be read. -/
theorem isBusFault_of_reset (m : Machine σ) {fault : Fault}
    (h : (m.reset devices).1 = .error fault) : fault.isBusFault := by
  obtain ⟨_, _, _, hreset⟩ | ⟨_, _, _, hfault, hreset⟩ := m.reset_cases devices
  · rw [hreset] at h
    cases h
  · rw [hreset] at h
    cases h
    exact hfault

/-- No step, run or reset ends in the fault that stands for a decoder at odds with its tables, on
whatever machine. For every entry but the prefixes the decoder has an operation whose effect the
entry's mode suits, and in the rows of one-operand instructions no defined column is without
one. -/
theorem internal_unreachable (m : Machine σ) (pc : UInt16) :
    (m.step devices).1 ≠ .error (.internal pc) ∧
    (∀ cycles, (m.run devices cycles).1 ≠ some (.error (.internal pc))) ∧
    (m.reset devices).1 ≠ .error (.internal pc) ∧
    (∀ page opcode entry, Opcode.find? page opcode = some entry →
      entry.mnemonic.prefixOf? = none → ∃ operation,
        Operation.ofOpcode page opcode = some operation ∧
        operation.execute entry.mode = operation.effect.resolve entry.mode ∧
        operation.effect.suits entry.mode) ∧
    ∀ opcode entry, Opcode.find? .page1 opcode = some entry →
      opcode.toNat / 16 ∈ [0x0, 0x4, 0x5, 0x6, 0x7] →
      opcode.toNat % 16 = 0xD ∨ opcode.toNat % 16 = 0xE ∧ opcode.toNat / 16 ∈ [0x0, 0x6, 0x7] ∨
        (UnaryOp.ofColumn (opcode.toNat % 16)).isSome := by
  refine ⟨m.step_ne_internal devices pc, fun cycles hrun => ?_, fun hreset => ?_, ?_, ?_⟩
  · obtain ⟨visited, -, hstep⟩ := exists_step_of_runSteps hrun
    exact visited.step_ne_internal devices pc hstep
  · cases m.isBusFault_of_reset devices hreset
  · intro page opcode entry hfind hplain
    obtain ⟨operation, hoperation, hadmits⟩ := Action.exists_operation hfind hplain
    have hmem := Opcode.mem_rows_of_find? hfind
    have hdecoded := (Opcode.rows_decoded page _ hmem hplain).1
    have hrow := Opcode.rows_suited page _ hmem
    rw [UInt8.ofNat_toNat] at hdecoded
    rw [hoperation, Option.all_some, decide_eq_true_iff] at hrow
    exact ⟨operation, hdecoded.trans hoperation, Operation.execute_eq_resolve hadmits, hrow.1⟩
  · intro opcode entry hfind
    exact Opcode.rows_columns _ (Opcode.mem_rows_of_find? hfind)

end Machine

end Mc6809
