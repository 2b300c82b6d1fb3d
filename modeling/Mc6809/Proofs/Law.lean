/-
  Laws: properties of what happens on the way from the start of an action to each of its
  ends, that pass from the parts of a sequence to the whole. A law says what may be true at a
  return, at a decode fault and at a refusal. An action that obeys a law does so whatever
  the world answers.

  Obedience is a class, so that for the code of an instruction it is found part by part. What
  has to be shown of a law is only that it allows the elementary actions (`AllowsRegs` to
  `AllowsFaults`); the code of addressing and stacks follows once for all laws. Operations
  are taken apart in one place, `Operation.effect_obeys`, and instructions and steps
  follow from their account by the tables.
-/
import Mc6809.Proofs.Action
import Mc6809.Proofs.Reference

namespace Mc6809

namespace Action

variable {α β γ : Type}

/-- What may happen between the start of an action and its return, its decode fault, or a
refusal, in a form that passes from the parts of a sequence to the whole. -/
structure Law where
  Returned : Cpu → List Exchange → Cpu → Prop
  Thrown : Cpu → List Exchange → Fault → Cpu → Prop
  Refused : Cpu → List Exchange → Prop
  refl : ∀ cpu, Returned cpu [] cpu
  returned : ∀ {cpu w mid w' cpu'}, Returned cpu w mid → Returned mid w' cpu' →
    Returned cpu (w ++ w') cpu'
  thrown : ∀ {cpu w mid w' fault cpu'}, Returned cpu w mid → Thrown mid w' fault cpu' →
    Thrown cpu (w ++ w') fault cpu'
  refused : ∀ {cpu w mid w'}, Returned cpu w mid → Refused mid w' → Refused cpu (w ++ w')

/-- Whatever the world answers, the action keeps the law. -/
class Obeys (law : Law) (action : Action α) : Prop where
  returned : ∀ ⦃cpu w a cpu'⦄, action.Ends cpu w (.ok a) cpu' → law.Returned cpu w cpu'
  thrown : ∀ ⦃cpu w fault cpu'⦄, action.Ends cpu w (.error fault) cpu' →
    law.Thrown cpu w fault cpu'
  refused : ∀ ⦃cpu w fault⦄, (action.start cpu).Ends w (.error fault) → law.Refused cpu w

section Obeys

/-- What a law says of a return. -/
theorem Law.of_returned (law : Law) {action : Action α} [Obeys law action] {cpu w a cpu'}
    (h : action.Ends cpu w (.ok a) cpu') : law.Returned cpu w cpu' := Obeys.returned h

/-- What a law says of a decode fault. -/
theorem Law.of_thrown (law : Law) {action : Action α} [Obeys law action] {cpu w fault cpu'}
    (h : action.Ends cpu w (.error fault) cpu') : law.Thrown cpu w fault cpu' := Obeys.thrown h

/-- What a law says of a refusal. -/
theorem Law.of_refused (law : Law) {action : Action α} [Obeys law action] {cpu w fault}
    (h : (action.start cpu).Ends w (.error fault)) : law.Refused cpu w := Obeys.refused h

variable {law : Law}

/-- An action that asks for nothing. -/
theorem obeys_of_done {action : Action α} (result : Cpu → Except Fault α) (next : Cpu → Cpu)
    (hstart : ∀ cpu, action.start cpu = .done (result cpu, next cpu))
    (hok : ∀ cpu a, result cpu = .ok a → law.Returned cpu [] (next cpu))
    (herror : ∀ cpu fault, result cpu = .error fault → law.Thrown cpu [] fault (next cpu)) :
    Obeys law action where
  returned := by
    intro cpu w a cpu' h
    rw [Ends, hstart] at h
    obtain ⟨rfl, hr, rfl⟩ := ends_leaf.mp h
    exact hok cpu a hr.symm
  thrown := by
    intro cpu w fault cpu' h
    rw [Ends, hstart] at h
    obtain ⟨rfl, hr, rfl⟩ := ends_leaf.mp h
    exact herror cpu fault hr.symm
  refused := by
    intro cpu w fault h
    rw [hstart] at h
    cases h

instance obeys_pure (a : α) : Obeys law (pure a : Action α) :=
  obeys_of_done (fun _ => .ok a) id (fun _ => rfl) (fun cpu _ _ => law.refl cpu)
    fun _ _ h => nomatch h

instance obeys_get : Obeys law (get : Action Cpu) :=
  obeys_of_done .ok id (fun _ => rfl) (fun cpu _ _ => law.refl cpu)
    fun _ _ h => nomatch h

instance obeys_regs : Obeys law regs :=
  obeys_of_done (fun cpu => .ok cpu.regs) id (fun _ => rfl) (fun cpu _ _ => law.refl cpu)
    fun _ _ h => nomatch h

theorem obeys_modify {f : Cpu → Cpu} (h : ∀ cpu, law.Returned cpu [] (f cpu)) :
    Obeys law (modify f : Action Unit) :=
  obeys_of_done (fun _ => .ok ()) f (fun _ => rfl) (fun cpu _ _ => h cpu) fun _ _ h => nomatch h

theorem obeys_throw {fault : Fault} (h : ∀ cpu, law.Thrown cpu [] fault cpu) :
    Obeys law (throw fault : Action α) :=
  obeys_of_done (fun _ => .error fault) id (fun _ => rfl) (fun _ _ h => nomatch h)
    fun cpu _ hr => Except.error.inj hr ▸ h cpu

theorem obeys_ofExcept {result : Except Fault α}
    (h : ∀ cpu fault, result = .error fault → law.Thrown cpu [] fault cpu) :
    Obeys law (MonadExcept.ofExcept result : Action α) :=
  obeys_of_done (fun _ => result) id (start_ofExcept result) (fun cpu _ _ => law.refl cpu) h

instance obeys_bind {action : Action α} {f : α → Action β} [Obeys law action]
    [∀ a, Obeys law (f a)] : Obeys law (action >>= f) where
  returned := by
    intro cpu w b cpu' h
    obtain ⟨a, mid, first, second, rfl, hfirst, hsecond⟩ := ends_bind_ok.mp h
    exact law.returned (Obeys.returned hfirst) (Obeys.returned hsecond)
  thrown := by
    intro cpu w fault cpu' h
    obtain ⟨_, hr, hfault⟩ | ⟨a, mid, first, second, rfl, hfirst, hsecond⟩ := ends_bind.mp h
    · cases hr
      exact Obeys.thrown hfault
    · exact law.thrown (Obeys.returned hfirst) (Obeys.thrown hsecond)
  refused := by
    intro cpu w fault h
    rw [start_bind] at h
    obtain ⟨_, hfault, -⟩ | ⟨⟨result, mid⟩, first, second, rfl, hfirst, hsecond⟩ := h.of_bind
    · exact Obeys.refused hfault
    · cases result with
      | ok a => exact law.refused (Obeys.returned hfirst) (Obeys.refused hsecond)
      | error _ => cases hsecond

instance obeys_map {f : α → β} {action : Action α} [Obeys law action] :
    Obeys law (f <$> action) :=
  inferInstanceAs (Obeys law (action >>= fun a => pure (f a)))

instance obeys_ite {p : Prop} [Decidable p] {yes no : Action α} [Obeys law yes]
    [Obeys law no] : Obeys law (if p then yes else no) := by
  split <;> infer_instance

theorem obeys_forM_of_mem {l : List γ} {f : γ → Action PUnit} (h : ∀ x ∈ l, Obeys law (f x)) :
    Obeys law (l.forM f) := by
  induction l with
  | nil => exact obeys_pure _
  | cons x l ih =>
    have := h x List.mem_cons_self
    have := ih fun y hy => h y (List.mem_cons_of_mem x hy)
    exact inferInstanceAs (Obeys law (f x >>= fun _ => l.forM f))

instance obeys_forM {l : List γ} {f : γ → Action PUnit} [h : ∀ x, Obeys law (f x)] :
    Obeys law (l.forM f) := obeys_forM_of_mem fun x _ => h x

/-! ## What a law allows -/

/-- Registers may change. -/
class AllowsRegs (law : Law) : Prop where
  regs : ∀ cpu regs, law.Returned cpu [] { cpu with regs }

/-- Index registers and stack pointers may change. -/
class AllowsIndex (law : Law) : Prop where
  index : ∀ cpu reg value, law.Returned cpu [] { cpu with regs := cpu.regs.setIndex reg value }

instance [AllowsRegs law] : AllowsIndex law :=
  ⟨fun cpu reg value => AllowsRegs.regs cpu (cpu.regs.setIndex reg value)⟩

/-- Bytes may be read, and reads be refused. -/
class AllowsReads (law : Law) : Prop where
  read : ∀ cpu address value, law.Returned cpu [.read address value] cpu
  refused : ∀ cpu, law.Refused cpu []

/-- Bytes may be written, and writes be refused. -/
class AllowsWrites (law : Law) : Prop where
  write : ∀ cpu address value, law.Returned cpu [.write address value] cpu
  refused : ∀ cpu, law.Refused cpu []

/-- Events may be reported. -/
class AllowsReports (law : Law) : Prop where
  report : ∀ cpu event, law.Returned cpu [.report event] cpu

/-- Cycles may be charged. -/
class AllowsCharges (law : Law) : Prop where
  charge : ∀ cpu cycles, law.Returned cpu [] { cpu with clock := cpu.clock + cycles }

/-- NMI may be armed. -/
class AllowsArming (law : Law) : Prop where
  arm : ∀ cpu, law.Returned cpu [] { cpu with nmiArmed := true }

/-- Waiting may begin. -/
class AllowsWaiting (law : Law) : Prop where
  cwai : ∀ cpu, law.Returned cpu [] { cpu with cwai := true }
  sync : ∀ cpu, law.Returned cpu [] { cpu with sync := true }

/-- Waiting may end. -/
class AllowsWaking (law : Law) : Prop where
  cwai : ∀ cpu, law.Returned cpu [] { cpu with cwai := false }
  sync : ∀ cpu, law.Returned cpu [] { cpu with sync := false }

/-- The NMI line may be released. -/
class AllowsRelease (law : Law) : Prop where
  release : ∀ cpu, law.Returned cpu [.releaseNmi] cpu

/-- Decoding may fail. -/
class AllowsFaults (law : Law) : Prop where
  fault : ∀ cpu fault, fault.isBusFault = false → law.Thrown cpu [] fault cpu

/-! ## Two families of laws -/

/-- A part of the processor's state stays the same. -/
def Law.keeps {β : Type} (part : Cpu → β) : Law where
  Returned cpu _ cpu' := part cpu' = part cpu
  Thrown cpu _ _ cpu' := part cpu' = part cpu
  Refused _ _ := True
  refl _ := rfl
  returned h h' := h'.trans h
  thrown h h' := h'.trans h
  refused _ _ := trivial

section Keeps

variable {β : Type} {part : Cpu → β}

instance : AllowsReads (Law.keeps part) := ⟨fun _ _ _ => rfl, fun _ => trivial⟩
instance : AllowsWrites (Law.keeps part) := ⟨fun _ _ _ => rfl, fun _ => trivial⟩
instance : AllowsReports (Law.keeps part) := ⟨fun _ _ => rfl⟩
instance : AllowsRelease (Law.keeps part) := ⟨fun _ => rfl⟩
instance : AllowsFaults (Law.keeps part) := ⟨fun _ _ _ => rfl⟩

end Keeps

/-- The processor throws only such faults. -/
def Law.throws (P : Fault → Prop) : Law where
  Returned _ _ _ := True
  Thrown _ _ fault _ := P fault
  Refused _ _ := True
  refl _ := trivial
  returned _ _ := trivial
  thrown _ h := h
  refused _ _ := trivial

section Throws

variable {P : Fault → Prop}

instance : AllowsRegs (Law.throws P) := ⟨fun _ _ => trivial⟩
instance : AllowsReads (Law.throws P) := ⟨fun _ _ _ => trivial, fun _ => trivial⟩
instance : AllowsWrites (Law.throws P) := ⟨fun _ _ _ => trivial, fun _ => trivial⟩
instance : AllowsReports (Law.throws P) := ⟨fun _ _ => trivial⟩
instance : AllowsCharges (Law.throws P) := ⟨fun _ _ => trivial⟩
instance : AllowsArming (Law.throws P) := ⟨fun _ => trivial⟩
instance : AllowsWaiting (Law.throws P) := ⟨fun _ => trivial, fun _ => trivial⟩
instance : AllowsWaking (Law.throws P) := ⟨fun _ => trivial, fun _ => trivial⟩
instance : AllowsRelease (Law.throws P) := ⟨fun _ => trivial⟩

end Throws

/-- There are only decode faults. -/
abbrev Law.decoding : Law := .throws fun fault => fault.isBusFault = false

instance : AllowsFaults Law.decoding := ⟨fun _ _ h => h⟩

/-- There are no decode faults either. -/
abbrev Law.faultless : Law := .throws fun _ => False

/-! ## Registers, clock and bus -/

instance obeys_modifyRegs [AllowsRegs law] {f : Registers → Registers} :
    Obeys law (modifyRegs f) :=
  obeys_modify fun cpu => AllowsRegs.regs cpu (f cpu.regs)

instance obeys_modifyFlags [AllowsRegs law] {f : Flags → Flags} : Obeys law (modifyFlags f) :=
  obeys_modifyRegs

instance obeys_setIndex [AllowsIndex law] {reg : IndexRegister} {value : UInt16} :
    Obeys law (modifyRegs (·.setIndex reg value)) :=
  obeys_modify fun cpu => AllowsIndex.index cpu reg value

instance obeys_jump [AllowsRegs law] {address : UInt16} : Obeys law (jump address) :=
  obeys_modifyRegs

instance obeys_charge [AllowsCharges law] {cycles : UInt64} : Obeys law (charge cycles) :=
  obeys_modify fun cpu => AllowsCharges.charge cpu cycles

instance obeys_read [AllowsReads law] {address : UInt16} : Obeys law (read address) where
  returned := by
    intro cpu w a cpu' h
    obtain ⟨value, rfl, -, rfl⟩ := ends_read.mp h
    exact AllowsReads.read cpu' address value
  thrown := by
    intro cpu w fault cpu' h
    obtain ⟨value, -, hr, -⟩ := ends_read.mp h
    cases hr
  refused := by
    intro cpu w fault h
    rw [start_read] at h
    cases h with
    | read h => cases h
    | readRefused => exact AllowsReads.refused cpu

instance obeys_write [AllowsWrites law] {address : UInt16} {value : UInt8} :
    Obeys law (write address value) where
  returned := by
    intro cpu w a cpu' h
    obtain ⟨rfl, -, rfl⟩ := ends_write.mp h
    exact AllowsWrites.write cpu' address value
  thrown := by
    intro cpu w fault cpu' h
    obtain ⟨-, hr, -⟩ := ends_write.mp h
    cases hr
  refused := by
    intro cpu w fault h
    rw [start_write] at h
    cases h with
    | write h => cases h
    | writeRefused => exact AllowsWrites.refused cpu

instance obeys_report [AllowsReports law] {event : Event} : Obeys law (report event) where
  returned := by
    intro cpu w a cpu' h
    obtain ⟨rfl, -, rfl⟩ := ends_report.mp h
    exact AllowsReports.report cpu' event
  thrown := by
    intro cpu w fault cpu' h
    obtain ⟨-, hr, -⟩ := ends_report.mp h
    cases hr
  refused := by
    intro cpu w fault h
    rw [start_report] at h
    cases h with
    | report h => cases h

instance obeys_releaseNmi [AllowsRelease law] : Obeys law releaseNmi where
  returned := by
    intro cpu w a cpu' h
    obtain ⟨rfl, -, rfl⟩ := ends_releaseNmi.mp h
    exact AllowsRelease.release cpu'
  thrown := by
    intro cpu w fault cpu' h
    obtain ⟨-, hr, -⟩ := ends_releaseNmi.mp h
    cases hr
  refused := by
    intro cpu w fault h
    rw [start_releaseNmi] at h
    cases h with
    | releaseNmi h => cases h

/-- A register may be loaded if it may be set. -/
theorem obeys_loadRegister_of [AllowsArming law] {reg : Register} {value : UInt16}
    (h : ∀ cpu, law.Returned cpu [] { cpu with regs := cpu.regs.set reg value }) :
    Obeys law (loadRegister reg value) := by
  have : Obeys law (modifyRegs (·.set reg value)) := obeys_modify h
  have : Obeys law (modify fun cpu => { cpu with nmiArmed := true } : Action Unit) :=
    obeys_modify AllowsArming.arm
  unfold loadRegister
  infer_instance

instance obeys_loadRegister [AllowsRegs law] [AllowsArming law] {reg : Register}
    {value : UInt16} : Obeys law (loadRegister reg value) :=
  obeys_loadRegister_of fun cpu => AllowsRegs.regs cpu (cpu.regs.set reg value)

instance obeys_fetch [AllowsRegs law] [AllowsReads law] : Obeys law fetch := by
  unfold fetch
  infer_instance

instance obeys_fetchWord [Obeys law fetch] : Obeys law fetchWord := by
  unfold fetchWord
  infer_instance

instance obeys_readWord [AllowsReads law] {address : UInt16} : Obeys law (readWord address) := by
  unfold readWord
  infer_instance

instance obeys_writeWord [AllowsWrites law] {address value : UInt16} :
    Obeys law (writeWord address value) := by
  unfold writeWord
  infer_instance

/-! ## Stacks -/

section Stacks

variable [AllowsIndex law] {stack : IndexRegister}

instance obeys_pushByte [AllowsWrites law] {value : UInt8} :
    Obeys law (pushByte stack value) := by
  unfold pushByte
  infer_instance

instance obeys_pushWord [AllowsWrites law] {value : UInt16} :
    Obeys law (pushWord stack value) := by
  unfold pushWord
  infer_instance

instance obeys_pullByte [AllowsReads law] : Obeys law (pullByte stack) := by
  unfold pullByte
  infer_instance

instance obeys_pullWord [AllowsReads law] : Obeys law (pullWord stack) := by
  unfold pullWord
  infer_instance

set_option synthInstance.maxSize 4000 in
instance obeys_stackEntireState [AllowsWrites law]
    [Obeys law (modifyFlags fun cc => { cc with entire := true })] :
    Obeys law stackEntireState := by
  unfold stackEntireState
  infer_instance

instance obeys_pushRegister [AllowsWrites law] [AllowsCharges law] {reg : Register} :
    Obeys law (pushRegister stack reg) := by
  unfold pushRegister
  infer_instance

instance obeys_pullRegister [AllowsReads law] [AllowsCharges law] {reg : Register}
    [∀ value, Obeys law (loadRegister reg value)] : Obeys law (pullRegister stack reg) := by
  unfold pullRegister
  infer_instance

end Stacks

/-! ## Operands -/

section Operands

variable [Obeys law fetch] [AllowsIndex law] [AllowsReads law]

instance obeys_directAddress : Obeys law directAddress := by
  unfold directAddress
  infer_instance

instance obeys_relativeAddress : Obeys law relativeAddress := by
  unfold relativeAddress
  infer_instance

instance obeys_longRelativeAddress : Obeys law longRelativeAddress := by
  unfold longRelativeAddress
  infer_instance

instance obeys_indexedBase {register : IndexRegister} {mode : IndexedMode} :
    Obeys law (indexedBase register mode) := by
  unfold indexedBase
  cases mode <;> infer_instance

/-- A post-byte without a meaning is named by its fault. -/
theorem decode_error {postbyte : UInt8} {fault : Fault}
    (h : Postbyte.decode postbyte = .error fault) : fault = .undefinedPostbyte postbyte := by
  unfold Postbyte.decode at h
  dsimp only at h
  split at h
  · cases h
  · split at h <;> cases h
    rfl

instance obeys_decode [AllowsFaults law] {postbyte : UInt8} :
    Obeys law (MonadExcept.ofExcept (Postbyte.decode postbyte) : Action Postbyte) :=
  obeys_ofExcept fun cpu _ h => decode_error h ▸ AllowsFaults.fault cpu _ rfl

instance obeys_internal [AllowsFaults law] {pc : UInt16} :
    Obeys law (throw (.internal pc) : Action α) :=
  obeys_throw fun cpu => AllowsFaults.fault cpu _ rfl

variable [AllowsCharges law] [AllowsFaults law]

instance obeys_indexedAddress : Obeys law indexedAddress := by
  unfold indexedAddress
  infer_instance

instance obeys_effectiveAddress {mode : AddressingMode} : Obeys law (effectiveAddress mode) := by
  cases mode <;> unfold effectiveAddress <;> infer_instance

instance obeys_operand8 {mode : AddressingMode} : Obeys law (operand8 mode) := by
  cases mode <;> unfold operand8 <;> infer_instance

instance obeys_operand16 {mode : AddressingMode} : Obeys law (operand16 mode) := by
  cases mode <;> unfold operand16 <;> infer_instance

end Operands

/-! ## Operations and instructions -/

/-- A transfer byte without a meaning is named by its fault. -/
theorem transferPair_error {postbyte : UInt8} {fault : Fault}
    (h : transferPair postbyte = .error fault) : fault = .registerSelection postbyte := by
  unfold transferPair at h
  split at h
  · split at h <;> cases h
    rfl
  · cases h
    rfl

instance obeys_transferPair [AllowsFaults law] {postbyte : UInt8} :
    Obeys law (MonadExcept.ofExcept (transferPair postbyte) : Action (Register × Register)) :=
  obeys_ofExcept fun cpu _ h => transferPair_error h ▸ AllowsFaults.fault cpu _ rfl

section Operations

variable [AllowsRegs law] [AllowsReads law] [AllowsWrites law] [AllowsReports law]

instance obeys_softwareInterrupt {kind : SoftwareInterrupt} :
    Obeys law (Action.softwareInterrupt kind) := by
  unfold Action.softwareInterrupt
  infer_instance

set_option synthInstance.maxSize 4000 in
instance obeys_returnFromInterrupt [AllowsCharges law] : Obeys law returnFromInterrupt := by
  unfold returnFromInterrupt
  infer_instance

end Operations

end Obeys

end Action

open Mc6809.Action

/-- Whatever operand it is given, the effect obeys the law. -/
def Effect.Obeys (law : Law) : Effect → Prop
  | .implied action => Action.Obeys law action
  | .onByte action => ∀ value, Action.Obeys law (action value)
  | .onWord action => ∀ value, Action.Obeys law (action value)
  | .onAddress action => ∀ address, Action.Obeys law (action address)

namespace Operation

/-- The operations that charge cycles of their own, on top of entry and operand. -/
def charges : Operation → Bool
  | longBranch _ | push _ | pull _ | returnFromInterrupt => true
  | _ => false

/-- The operations that decode a byte of their own and can find it without meaning. -/
def decodes : Operation → Bool
  | exchange | transfer => true
  | _ => false

/-- The operations that write to memory. -/
def writes : Operation → Bool
  | modifyMemory _ | call | push _ | waitForInterrupt | softwareInterrupt _ | store8 _
  | store16 _ => true
  | _ => false

/-- The operations that load registers of any name, S among them. -/
def loads : Operation → Bool
  | exchange | transfer | loadAddress _ | pull _ | load16 _ => true
  | _ => false

/-- The operations that begin to wait. -/
def waits : Operation → Bool
  | sync | waitForInterrupt => true
  | _ => false

variable {law : Law} [AllowsRegs law] [AllowsReads law] [AllowsReports law]

/-- An operation keeps a law that allows what this operation is made of. -/
theorem effect_obeys_of {operation : Operation} (hcharges : operation.charges → AllowsCharges law)
    (hdecodes : operation.decodes → AllowsFaults law)
    (hwrites : operation.writes → AllowsWrites law) (hloads : operation.loads → AllowsArming law)
    (hwaits : operation.waits → AllowsWaiting law) : operation.effect.Obeys law := by
  cases operation with
  | longBranch | returnFromInterrupt =>
    have := hcharges rfl
    simp only [effect, Effect.Obeys]
    infer_instance
  | push =>
    have := hcharges rfl
    have := hwrites rfl
    simp only [effect, Effect.Obeys]
    infer_instance
  | pull =>
    have := hcharges rfl
    have := hloads rfl
    simp only [effect, Effect.Obeys]
    infer_instance
  | exchange | transfer =>
    have := hdecodes rfl
    have := hloads rfl
    simp only [effect, Effect.Obeys]
    infer_instance
  | loadAddress | load16 =>
    have := hloads rfl
    simp only [effect, Effect.Obeys]
    infer_instance
  | modifyMemory | call | softwareInterrupt | store8 | store16 =>
    have := hwrites rfl
    simp only [effect, Effect.Obeys]
    infer_instance
  | sync =>
    have := hwaits rfl
    have : Action.Obeys law (modify fun cpu => { cpu with sync := true } : Action Unit) :=
      obeys_modify AllowsWaiting.sync
    simp only [effect, Effect.Obeys]
    infer_instance
  | waitForInterrupt =>
    have := hwrites rfl
    have := hwaits rfl
    have : Action.Obeys law (modify fun cpu => { cpu with cwai := true } : Action Unit) :=
      obeys_modify AllowsWaiting.cwai
    simp only [effect, Effect.Obeys]
    infer_instance
  | _ =>
    simp only [effect, Effect.Obeys, Action.modifyAccumulator]
    infer_instance

/-- An operation keeps a law that forbids none of writes, loads and waiting. -/
theorem effect_obeys [AllowsWrites law] [AllowsArming law] [AllowsWaiting law]
    {operation : Operation} (hcharges : operation.charges → AllowsCharges law)
    (hdecodes : operation.decodes → AllowsFaults law) : operation.effect.Obeys law :=
  effect_obeys_of hcharges hdecodes (fun _ => inferInstance) (fun _ => inferInstance)
    fun _ => inferInstance

end Operation

namespace Action

section Instructions

variable {law : Law} [AllowsRegs law] [AllowsReads law] [AllowsCharges law] [AllowsFaults law]

theorem obeys_resolve {effect : Effect} (h : effect.Obeys law) (mode : AddressingMode) :
    Obeys law (effect.resolve mode) := by
  cases effect <;>
    simp only [Effect.Obeys] at h <;>
    unfold Effect.resolve <;>
    infer_instance

instance obeys_fetchEntry {page : OpcodePage} : Obeys law (fetchEntry page) := by
  have (opcode : UInt8) : Obeys law (throw (.undefinedOpcode page opcode) : Action Opcode.Entry) :=
    obeys_throw fun cpu => AllowsFaults.fault cpu _ rfl
  unfold fetchEntry
  have (opcode : UInt8) : Obeys law (match Opcode.find? page opcode with
      | some entry => pure entry
      | none => do
        charge page.undefinedCost
        throw (.undefinedOpcode page opcode) : Action Opcode.Entry) := by
    split <;> infer_instance
  infer_instance

variable [AllowsWrites law] [AllowsReports law] [AllowsArming law] [AllowsWaiting law]

instance obeys_documented {entry : Opcode.Entry} {length : UInt16} :
    Obeys law (documented entry length) := by
  have (operation : Operation) : Obeys law (operation.effect.resolve entry.mode) :=
    obeys_resolve (Operation.effect_obeys (fun _ => inferInstance) fun _ => inferInstance) _
  unfold documented
  cases entry.mnemonic.operation <;> infer_instance

instance obeys_instruction : Obeys law instruction := by
  rw [instruction_eq_documented]
  have (entry : Opcode.Entry) : Obeys law (match entry.mnemonic.prefixOf? with
      | some page => do documented (← fetchEntry page) 2
      | none => documented entry 1) := by
    split <;> infer_instance
  unfold documentedInstruction
  infer_instance

end Instructions

/-! ## Interrupts and steps -/

/-- The part of servicing an interrupt that needs the bus: stacking what is to be saved,
masking, and reading the vector. -/
def prepare (interrupt : Interrupt) : Action UInt16 := do
  if !(← get).cwai then saveState interrupt
  modifyFlags (maskFor interrupt)
  readWord interrupt.vector

/-- The rest of servicing an interrupt, once its handler is known. -/
def enter (interrupt : Interrupt) (handler : UInt16) : Action Unit := do
  modify fun cpu => { cpu with regs.pc := handler, cwai := false }
  if interrupt = .nmi then releaseNmi
  report (.serviced interrupt handler)

theorem service_eq (interrupt : Interrupt) :
    service interrupt = prepare interrupt >>= enter interrupt := by
  unfold service prepare enter
  simp only [bind_assoc]
  refine bind_congr fun cpu => ?_
  split <;> simp only [bind_assoc]

/-- The processor once it has sampled the lines: any asserted line ends SYNC. -/
def sampled (lines : InterruptLines) (cpu : Cpu) : Cpu :=
  if lines.any then { cpu with sync := false } else cpu

/-- A step is one of three actions on the processor that has sampled the lines. -/
theorem start_step (lines : InterruptLines) (cpu : Cpu) :
    (step lines).start cpu =
      (match pending? lines (sampled lines cpu) with
      | some interrupt => service interrupt
      | none =>
        if (sampled lines cpu).cwai || (sampled lines cpu).sync then charge 1
        else instruction).start (sampled lines cpu) := by
  unfold step sampled
  by_cases hany : lines.any
  · simp only [if_pos hany, start_bind, start_modify, Traffic.done_bind, start_get]
    cases pending? lines { cpu with sync := false } <;> rfl
  · simp only [if_neg hany, start_bind, start_get, Traffic.done_bind]
    cases pending? lines cpu <;> rfl

section Steps

variable {law : Law} [AllowsRegs law] [AllowsReads law] [AllowsWrites law] [AllowsReports law]
  [AllowsCharges law] [AllowsWaking law] [AllowsRelease law]

instance obeys_saveState {interrupt : Interrupt} : Obeys law (saveState interrupt) := by
  cases interrupt <;> unfold saveState <;> infer_instance

instance obeys_prepare {interrupt : Interrupt} : Obeys law (prepare interrupt) := by
  unfold prepare
  infer_instance

instance obeys_enter {interrupt : Interrupt} {handler : UInt16} :
    Obeys law (enter interrupt handler) := by
  have : Obeys law (modify fun cpu => { cpu with regs.pc := handler, cwai := false }
      : Action Unit) :=
    obeys_modify fun cpu => law.returned (AllowsRegs.regs cpu { cpu.regs with pc := handler })
      (AllowsWaking.cwai _)
  unfold enter
  infer_instance

instance obeys_service {interrupt : Interrupt} : Obeys law (service interrupt) := by
  rw [service_eq]
  infer_instance

variable [AllowsArming law] [AllowsWaiting law] [AllowsFaults law]

instance obeys_step {lines : InterruptLines} : Obeys law (step lines) := by
  have : Obeys law (modify fun cpu => { cpu with sync := false } : Action Unit) :=
    obeys_modify AllowsWaking.sync
  have (cpu : Cpu) : Obeys law (match pending? lines cpu with
      | some interrupt => service interrupt
      | none => do
        let cpu ← get
        if cpu.cwai || cpu.sync then charge 1 else instruction) := by
    split <;> infer_instance
  unfold step
  infer_instance

end Steps

end Action

end Mc6809
