/-
  The address behind an instruction. The tables document how long an instruction is, but the
  processor never looks there: it moves PC byte by byte while it finds its operand. Both come to the
  same address (`Action.exists_body`, by `Opcode.rows_sized`), and that address is what the
  instruction takes for its end wherever it matters (`Machine.Advances`): PC is left there unless
  the instruction goes elsewhere, it is what calls and interrupts stack and what transfers from PC
  transfer, and offsets from PC count from it.
-/
import Mc6809.Proofs.Writes

namespace Mc6809

namespace Operation

/-- Control goes elsewhere than to the next instruction: by a jump, a call, a return, a software
interrupt or a branch that is taken, or because PC is transferred to, exchanged or pulled. -/
def redirects (cc : Flags) : Operation → List UInt8 → Bool
  | jump, _ | call, _ | longBranchAlways, _ | returnFromSubroutine, _ | returnFromInterrupt, _
  | softwareInterrupt _, _ => true
  | branch condition, _ | longBranch condition, _ => condition.holds cc
  | transfer, postbyte :: _ => postbyte.toNat % 16 = Register.pc.code
  | exchange, postbyte :: _ =>
    postbyte.toNat / 16 = Register.pc.code ∨ postbyte.toNat % 16 = Register.pc.code
  | pull _, mask :: _ => mask.toNat.testBit 7
  | _, _ => false

/-- Control goes to the effective address. -/
def jumps (cc : Flags) : Operation → Bool
  | jump | call | longBranchAlways => true
  | branch condition | longBranch condition => condition.holds cc
  | _ => false

/-- PC is stacked. -/
def stacksPc : Operation → List UInt8 → Bool
  | call, _ | softwareInterrupt _, _ | waitForInterrupt, _ => true
  | push _, mask :: _ => mask.toNat.testBit 7
  | _, _ => false

/-- No flags and no byte can make the operation go elsewhere. -/
def sequential : Operation → Bool
  | jump | call | longBranchAlways | returnFromSubroutine | returnFromInterrupt
  | softwareInterrupt _ | branch _ | longBranch _ | transfer | exchange | pull _ => false
  | _ => true

end Operation

/-! ## What keeps PC -/

namespace Action

/-- PC stays. -/
abbrev Law.keepsPc : Law := .keeps fun cpu => cpu.regs.pc

section KeepsPc

variable {stack : IndexRegister}

instance : AllowsCharges Law.keepsPc := ⟨fun _ _ => rfl⟩
instance : AllowsArming Law.keepsPc := ⟨fun _ => rfl⟩
instance : AllowsWaiting Law.keepsPc := ⟨fun _ => rfl, fun _ => rfl⟩
instance : AllowsIndex Law.keepsPc := ⟨fun _ reg _ => by cases reg <;> rfl⟩

theorem obeys_modifyRegs_keepsPc {f : Registers → Registers} (h : ∀ regs, (f regs).pc = regs.pc) :
    Obeys Law.keepsPc (modifyRegs f) := obeys_modify fun cpu => h cpu.regs

instance {f : Flags → Flags} : Obeys Law.keepsPc (modifyFlags f) :=
  obeys_modifyRegs_keepsPc fun _ => rfl

theorem obeys_loadRegister_keepsPc {reg : Register} (h : reg ≠ .pc) (value : UInt16) :
    Obeys Law.keepsPc (loadRegister reg value) :=
  obeys_loadRegister_of fun _ => by cases reg <;> first | rfl | exact absurd rfl h

theorem obeys_pullRegister_keepsPc {reg : Register} (h : reg ≠ .pc) :
    Obeys Law.keepsPc (pullRegister stack reg) := by
  have := obeys_loadRegister_keepsPc h
  infer_instance

end KeepsPc

end Action

open Mc6809.Action in
/-- A sequential operation leaves PC behind its operand. -/
theorem Operation.effect_keepsPc {operation : Operation} (hregular : operation.regular)
    (h : operation.sequential) : operation.effect.Obeys Law.keepsPc := by
  cases operation with
  | load16 reg =>
    have := obeys_loadRegister_keepsPc (of_decide_eq_true hregular)
    simp only [effect, Effect.Obeys]
    infer_instance
  | loadAddress reg =>
    have := obeys_loadRegister_keepsPc (show reg.toRegister ≠ .pc by cases reg <;> decide)
    simp only [effect, Effect.Obeys]
    infer_instance
  | sync =>
    have : Obeys Law.keepsPc (modify fun cpu => { cpu with sync := true } : Action Unit) :=
      obeys_modify AllowsWaiting.sync
    simp only [effect, Effect.Obeys]
    infer_instance
  | waitForInterrupt =>
    have : Obeys Law.keepsPc (modify fun cpu => { cpu with cwai := true } : Action Unit) :=
      obeys_modify AllowsWaiting.cwai
    simp only [effect, Effect.Obeys]
    infer_instance
  | modifyMemory | testMemory | nop | orFlags | andFlags | push | store8 | store16 =>
    simp only [effect, Effect.Obeys]
    infer_instance
  | testAccumulator | decimalAdjust | signExtend | addBToX | multiply =>
    exact obeys_modifyRegs_keepsPc fun _ => rfl
  | modifyAccumulator op acc => exact obeys_modifyRegs_keepsPc fun _ => by cases acc <;> rfl
  | binary8 op acc | load8 acc =>
    exact fun _ => obeys_modifyRegs_keepsPc fun _ => by cases acc <;> rfl
  | compare8 | binary16 | compare16 => exact fun _ => obeys_modifyRegs_keepsPc fun _ => rfl
  | _ => cases h

/-! ## Behind the operand -/

/-- What an effect does, once its operand is known. -/
inductive Effect.Body : Effect → Action Unit → Prop where
  | implied (action : Action Unit) : Body (.implied action) action
  | onByte (action : UInt8 → Action Unit) (value : UInt8) : Body (.onByte action) (action value)
  | onWord (action : UInt16 → Action Unit) (value : UInt16) : Body (.onWord action) (action value)
  | onAddress (action : UInt16 → Action Unit) (address : UInt16) :
      Body (.onAddress action) (action address)

theorem Effect.Obeys.of_body {law : Action.Law} {effect : Effect} {body : Action Unit}
    (h : effect.Obeys law) (hbody : effect.Body body) : Action.Obeys law body := by
  cases hbody with
  | implied => exact h
  | onByte action value | onWord action value | onAddress action value => exact h value

namespace Action

variable {cpu cpu' : Cpu} {w : List Exchange} {mode : AddressingMode} {effect : Effect}

theorem eq_immediate (hinherent : mode ≠ .inherent) (haddresses : ¬ mode.addresses) :
    mode = .immediate := by
  cases mode with
  | inherent => exact absurd rfl hinherent
  | immediate => rfl
  | _ => exact absurd rfl haddresses

/-- When an effect has found its operand, PC is behind the bytes that the mode takes, and the flags
are as they were. -/
theorem exists_body (hsuits : effect.suits mode)
    (h : (effect.resolve mode).Ends cpu w (.ok ()) cpu') :
    ∃ body regs clock rest, effect.Body body ∧
      regs.pc = cpu.regs.pc +
        .ofNat (mode.operandBytes effect.isWide + mode.extensionBytes (readBytes w)) ∧
      regs.cc = cpu.regs.cc ∧ body.Ends { cpu with regs, clock } rest (.ok ()) cpu' := by
  by_cases hmode : mode.addresses
  · obtain ⟨located, clock, rest, hlocate, -, hacting⟩ := ends_resolve_located hsuits hmode h
    obtain ⟨hlength, hpc, hcc, -⟩ := AddressingMode.locate?_spec hlocate effect.isWide
    rw [hlength] at hpc
    -- An operand in memory is read after its address has been found, which does not move PC.
    cases effect with
    | implied action => exact ⟨_, _, clock, rest, .implied action, hpc, hcc, hacting⟩
    | onByte action =>
      obtain ⟨value, _, _, rest, rfl, hread, hbody⟩ := ends_bind_ok.mp hacting
      obtain ⟨_, -, -, rfl⟩ := ends_read.mp hread
      exact ⟨_, _, clock, rest, .onByte action value, hpc, hcc, hbody⟩
    | onWord action =>
      obtain ⟨value, _, _, rest, rfl, hread, hbody⟩ := ends_bind_ok.mp hacting
      obtain ⟨_, _, -, -, rfl⟩ := ends_readWord_ok.mp hread
      exact ⟨_, _, clock, rest, .onWord action value, hpc, hcc, hbody⟩
    | onAddress action => exact ⟨_, _, clock, rest, .onAddress action _, hpc, hcc, hacting⟩
  · cases effect with
    | implied action =>
      obtain rfl : mode = .inherent := of_decide_eq_true hsuits
      exact ⟨_, cpu.regs, cpu.clock, w, .implied action, (UInt16.add_zero _).symm, rfl, h⟩
    | onByte action =>
      obtain rfl := eq_immediate (of_decide_eq_true hsuits) hmode
      obtain ⟨value, rest, rfl, hbody⟩ := ends_onByte_immediate h
      exact ⟨_, cpu.regs.past 1, cpu.clock, rest, .onByte action value, rfl, rfl, hbody⟩
    | onWord action =>
      obtain rfl := eq_immediate (of_decide_eq_true hsuits) hmode
      obtain ⟨high, low, rest, rfl, hbody⟩ := ends_onWord_immediate h
      exact ⟨_, cpu.regs.past 2, cpu.clock, rest, .onWord action _, rfl, rfl, hbody⟩
    | onAddress action => exact absurd (addresses_of_suits hsuits) hmode

theorem pc_loaded {reg : Register} (h : reg ≠ .pc) (value : UInt16) :
    (cpu.loaded reg value).regs.pc = cpu.regs.pc := by
  cases reg <;> first | rfl | exact absurd rfl h

/-- An operation that does not send control elsewhere leaves PC behind its operand. -/
theorem pc_of_not_redirects {operation : Operation} (hregular : operation.regular)
    (hsuits : operation.effect.suits mode) (hadmits : operation.admits mode)
    (h : (operation.effect.resolve mode).Ends cpu w (.ok ()) cpu')
    (hstays : ¬ operation.redirects cpu.regs.cc (readBytes w)) :
    cpu'.regs.pc = cpu.regs.pc +
      .ofNat (mode.operandBytes operation.effect.isWide + mode.extensionBytes (readBytes w)) := by
  obtain ⟨body, regs, clock, rest, hbody, hpc, hcc, hends⟩ := exists_body hsuits h
  by_cases hsequential : operation.sequential
  · have := (Operation.effect_keepsPc hregular hsequential).of_body hbody
    have hkept : cpu'.regs.pc = regs.pc := Law.keepsPc.of_returned hends
    rw [hkept, hpc]
  · cases operation with
    | branch condition | longBranch condition =>
      have hfalse : condition.holds cpu.regs.cc = false := Bool.eq_false_iff.mpr hstays
      cases hbody with
      | onAddress action target =>
        unfold Ends at hends
        simp only [start_bind, start_regs, Traffic.done_bind, hcc, hfalse, Bool.false_eq_true,
          if_false, start_pure, ends_leaf] at hends
        obtain ⟨-, -, rfl⟩ := hends
        exact hpc
    | transfer =>
      obtain rfl := fixedMode_of_admits hadmits rfl
      obtain ⟨postbyte, source, destination, hbytes, hpair, rfl⟩ := ends_transfer h
      rw [hbytes] at hstays ⊢
      refine pc_loaded ?_ _
      rintro rfl
      exact hstays (decide_eq_true hpair.low)
    | exchange =>
      obtain rfl := fixedMode_of_admits hadmits rfl
      obtain ⟨postbyte, first, second, hbytes, hpair, rfl⟩ := ends_exchange h
      rw [hbytes] at hstays ⊢
      rw [pc_loaded, pc_loaded]
      · rfl
      · rintro rfl
        exact hstays (decide_eq_true (.inl hpair.high))
      · rintro rfl
        exact hstays (decide_eq_true (.inr hpair.low))
    | pull stack =>
      have hstack : stack = .s ∨ stack = .u := of_decide_eq_true hregular
      obtain rfl := fixedMode_of_admits hadmits rfl
      obtain ⟨mask, rest, rfl, hpulling⟩ := ends_onByte_immediate h
      rw [stackedRegisters_eq hstack] at hpulling
      have hunnamed : .pc ∉ Register.ofMask stack mask := fun hmem =>
        hstays ((Register.mem_ofMask_iff 7 (by decide)).mp hmem)
      have : Obeys Law.keepsPc
          ((Register.ofMask stack mask).reverse.forM (pullRegister stack)) := by
        refine obeys_forM_of_mem fun reg hmem => obeys_pullRegister_keepsPc ?_
        rintro rfl
        exact hunnamed (List.mem_reverse.mp hmem)
      exact Law.keepsPc.of_returned hpulling
    | jump | call | longBranchAlways | returnFromSubroutine | returnFromInterrupt
    | softwareInterrupt => exact absurd rfl hstays
    | _ => exact absurd rfl hsequential

end Action

/-! ## PC on a stack -/

/-- A full frame is pushed with PC first. -/
theorem Registers.frame_reverse {regs : Registers} (h : regs.cc.entire = true) :
    regs.frame.reverse = [lowByte regs.pc, highByte regs.pc, lowByte regs.u, highByte regs.u,
      lowByte regs.y, highByte regs.y, lowByte regs.x, highByte regs.x, regs.dp, regs.b, regs.a,
      regs.cc.toByte] := by
  rw [frame, if_pos h]
  rfl

/-- What stacks PC stacks the address behind the operand, low byte first, before anything else. -/
theorem Operation.stores?_of_stacksPc {operation : Operation} {mode : AddressingMode}
    {regs : Registers} {bytes : List UInt8} {writes : List Exchange} {next : UInt16}
    (hadmits : operation.admits mode) (hstacks : operation.stacksPc bytes)
    (h : operation.stores? mode regs bytes = some writes)
    (hnext : next = regs.pc +
      .ofNat (mode.operandBytes operation.effect.isWide + mode.extensionBytes bytes)) :
    ∃ pointer others, writes = pushes pointer (lowByte next :: highByte next :: others) := by
  cases operation with
  | call =>
    obtain ⟨⟨located, more⟩, hlocate, rfl⟩ := Option.map_eq_some_iff.mp h
    obtain ⟨hlength, hpc, -⟩ := AddressingMode.locate?_spec hlocate call.effect.isWide
    rw [hnext, ← hlength, ← hpc]
    exact ⟨_, _, rfl⟩
  | softwareInterrupt kind =>
    obtain rfl := Action.fixedMode_of_admits hadmits rfl
    obtain rfl : next = regs.pc := hnext.trans (UInt16.add_zero _)
    cases h
    rw [Registers.frame_reverse rfl]
    exact ⟨_, _, rfl⟩
  | waitForInterrupt =>
    obtain rfl := Action.fixedMode_of_admits hadmits rfl
    obtain ⟨mask, hmask, rfl⟩ := Option.map_eq_some_iff.mp h
    have hentire : ((regs.masked mask).past 1).cc.entire = true :=
      congrArg Flags.entire (Flags.ofByte_or_entire (regs.cc.toByte &&& mask))
    rw [Registers.frame_reverse hentire, hnext]
    exact ⟨_, _, rfl⟩
  | push stack =>
    obtain rfl := Action.fixedMode_of_admits hadmits rfl
    obtain ⟨mask, hmask, rfl⟩ := Option.map_eq_some_iff.mp h
    obtain ⟨rest, rfl⟩ := List.head?_eq_some_iff.mp hmask
    have hset : mask.toNat.testBit 7 = true := hstacks
    unfold Register.ofMask
    rw [List.filter_cons_of_pos hset, List.map_cons, List.flatMap_cons, hnext]
    exact ⟨_, _, rfl⟩
  | _ => cases hstacks

/-! ## Steps -/

theorem Registers.get_set {reg : Register} (h : reg.isWide) (regs : Registers) (value : UInt16) :
    (regs.set reg value).get reg = value := by
  cases reg with
  | d => exact regs.setD_d value
  | x | y | u | s | pc => rfl
  | _ => cases h

theorem Registers.get_set_pc {reg : Register} (h : reg ≠ .pc) (regs : Registers)
    (value : UInt16) : (regs.set .pc value).get reg = regs.get reg := by
  cases reg <;> first | rfl | exact absurd rfl h

namespace Action

variable {cpu cpu' : Cpu} {w : List Exchange}

/-- Jumps, calls and branches that are taken go to the address that they find. -/
theorem pc_of_jumps {operation : Operation} {address : UInt16}
    (hjumps : operation.jumps cpu.regs.cc)
    (h : (operation.effect.atAddress address).Ends cpu w (.ok ()) cpu') :
    cpu'.regs.pc = address := by
  unfold Ends Effect.atAddress at h
  cases operation with
  | jump | longBranchAlways =>
    obtain ⟨-, -, rfl⟩ := ends_leaf.mp h
    rfl
  | call =>
    obtain ⟨_, _, _, _, -, -, hpushing⟩ := ends_bind_ok.mp h
    obtain ⟨_, _, _, _, -, -, hjump⟩ := ends_bind_ok.mp hpushing
    obtain ⟨-, -, rfl⟩ := ends_leaf.mp hjump
    rfl
  | branch condition | longBranch condition =>
    have htaken : condition.holds cpu.regs.cc = true := hjumps
    simp only [Operation.effect, start_bind, start_regs, Traffic.done_bind, htaken, if_true,
      start_jump, start_charge, ends_leaf] at h
    obtain ⟨-, -, rfl⟩ := h
    rfl
  | _ => cases hjumps

end Action

namespace Machine

variable {σ : Type} (devices : Devices σ)

/-- The address `next` is the end of the instruction in every respect: PC stands there unless
control goes elsewhere, it is PC where PC is stacked or transferred, and offsets from PC are added
to it. -/
structure Advances (m : Machine σ) (instruction : Instruction) (bytes : List UInt8)
    (next : UInt16) : Prop where
  /-- PC stands there unless control goes elsewhere. -/
  stays : ¬ instruction.operation.redirects m.cpu.regs.cc bytes →
    (m.step devices).2.cpu.regs.pc = next
  /-- Where PC is stacked, it is pushed first, low byte in front. -/
  stacked : instruction.operation.stacksPc bytes →
    ∃ pointer others, m.written devices = pushes pointer (lowByte next :: highByte next :: others)
  /-- A transfer from PC transfers it. -/
  transferred : instruction.operation = .transfer → ∃ postbyte source destination,
    bytes = [postbyte] ∧ Register.Pair postbyte source destination ∧
      (source = .pc → (m.step devices).2.cpu.regs.get destination = next)
  /-- An exchange with PC leaves it in the other register. -/
  exchanged : instruction.operation = .exchange → ∃ postbyte first second,
    bytes = [postbyte] ∧ Register.Pair postbyte first second ∧
      (first = .pc → (m.step devices).2.cpu.regs.get second = next) ∧
      (second = .pc → (m.step devices).2.cpu.regs.get first = next)
  /-- Offsets from PC are added to it, for the address where the instruction acts and to which it
  goes if it goes anywhere. -/
  located : instruction.entry.mode.addresses → ∃ located,
    m.ActsAt devices instruction bytes located ∧ located.regs.pc = next ∧
      (∀ target, instruction.entry.mode.pcRelative? next bytes = some target →
        located.base = target) ∧
      (instruction.entry.mode ≠ .indexed → located.address = located.base) ∧
      (instruction.operation.jumps m.cpu.regs.cc →
        (m.step devices).2.cpu.regs.pc = located.address)

variable {devices} {m : Machine σ} {instruction : Instruction} {bytes : List UInt8}

theorem Completes.advances (h : m.Completes devices instruction bytes) :
    m.Advances devices instruction bytes (instruction.next m.cpu.regs.pc bytes) := by
  have hnext : instruction.next m.cpu.regs.pc bytes =
      (instruction.begun m.cpu).regs.pc + .ofNat (instruction.entry.mode.operandBytes
        instruction.operation.effect.isWide + instruction.entry.mode.extensionBytes bytes) :=
    instruction.next_eq m.cpu.regs.pc bytes
  have hregular := instruction.regular_and_size.1
  obtain ⟨w, -, rfl, hends⟩ := h.exists_ends
  refine ⟨fun hstays => ?_, fun hstacks => ?_, fun htransfer => ?_, fun hexchange => ?_,
    fun hmode => ?_⟩
  · rw [hnext]
    exact Action.pc_of_not_redirects hregular instruction.suits instruction.admits hends hstays
  · exact Operation.stores?_of_stacksPc instruction.admits hstacks h.stores?_eq hnext
  · have hadmits := instruction.admits
    rw [htransfer] at hends hadmits hnext
    rw [← Action.fixedMode_of_admits hadmits rfl] at hends hnext
    obtain ⟨postbyte, source, destination, hbytes, hpair, hcpu⟩ := Action.ends_transfer hends
    refine ⟨postbyte, source, destination, hbytes, hpair, ?_⟩
    rintro rfl
    have hwide : destination.isWide := hpair.isWide ▸ rfl
    rw [hcpu, hnext]
    exact Registers.get_set hwide _ _
  · have hadmits := instruction.admits
    rw [hexchange] at hends hadmits hnext
    rw [← Action.fixedMode_of_admits hadmits rfl] at hends hnext
    obtain ⟨postbyte, first, second, hbytes, hpair, hcpu⟩ := Action.ends_exchange hends
    refine ⟨postbyte, first, second, hbytes, hpair, ?_, ?_⟩
    · rintro rfl
      have hwide : second.isWide := hpair.isWide ▸ rfl
      rw [hcpu, hnext]
      exact Registers.get_set hwide _ _
    · rintro rfl
      have hwide : first.isWide := hpair.isWide.trans rfl
      rw [hcpu, hnext]
      by_cases hpc : first = .pc
      · subst hpc
        rfl
      · exact (Registers.get_set_pc hpc _ _).trans (Registers.get_set hwide _ _)
  · obtain ⟨located, hacts⟩ := h.exists_located hmode
    obtain ⟨clock, rest, hlocate, -, hacting⟩ := id hacts
    obtain ⟨hlength, hpc, hcc, hbase⟩ :=
      AddressingMode.locate?_spec hlocate instruction.operation.effect.isWide
    have hlocated : located.regs.pc = instruction.next m.cpu.regs.pc (readBytes w) := by
      rw [hpc, hlength, hnext]
      rfl
    rw [hlocated] at hbase
    refine ⟨located, hacts, hlocated, hbase, AddressingMode.address_of_locate? hlocate, ?_⟩
    intro hjumps
    refine Action.pc_of_jumps ?_ hacting
    rw [hcc]
    exact hjumps

variable (devices) in
/-- A step that executes completes an instruction of the tables, and the address behind that is the
old PC, the documented size and what an indexed post-byte asks for, modulo 2^16. -/
theorem step_pc (hquiet : m.Quiet) (hawake : ¬ m.cpu.Waits m.bus.lines)
    (hok : (m.step devices).1 = .ok ()) : ∃ instruction bytes,
      m.Completes devices instruction bytes ∧
      m.Advances devices instruction bytes (m.cpu.regs.pc + .ofNat
        (instruction.entry.size.toNat + instruction.entry.mode.extensionBytes bytes)) := by
  obtain ⟨instruction, bytes, hcompletes⟩ := exists_completes hquiet hawake hok
  exact ⟨instruction, bytes, hcompletes, hcompletes.advances⟩

theorem step_pc_stepped : ∃ instruction bytes,
    storing.Completes Devices.none instruction bytes ∧
      storing.Advances Devices.none instruction bytes 0x0002 := by
  obtain ⟨hok, hread, -⟩ := storing_step
  obtain ⟨instruction, bytes, hcompletes, hadvances⟩ :=
    step_pc Devices.none storing_executes.quiet storing_executes.awake hok
  have hcode : instruction.code ++ bytes = stx.code ++ [0x81] :=
    hcompletes.read.symm.trans hread
  obtain ⟨rfl, rfl⟩ := Instruction.eq_of_code_append hcode
  exact ⟨_, _, hcompletes, hadvances⟩

end Machine

end Mc6809
