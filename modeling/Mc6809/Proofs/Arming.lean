/-
  The latch for NMI. A program arms NMI when it first loads S, and only five instructions count as
  loading it: LDS, LEAS, a transfer to S, an exchange with S, and PULU of S (`Operation.arms`). S
  also moves when something is pushed or pulled, by indexed addressing and from outside, and that
  arms nothing. A step arms NMI just when it completes one of the five (`Machine.armed_iff`); a step
  that fails leaves the latch as it was, and nothing but a reset clears it.

  What a host does between two resets is `Machine.Operated`. Along it the steps that have been taken
  determine the latch (`Machine.Latched`), so no NMI is served before one of the five has completed.
-/
import Mc6809.Proofs.NextAddress

namespace Mc6809

/-- The operation loads S, if these are the bytes behind its opcode. -/
def Operation.arms : Operation → List UInt8 → Bool
  | load16 .s, _ | loadAddress .s, _ => true
  | transfer, postbyte :: _ => postbyte.toNat % 16 = Register.s.code
  | exchange, postbyte :: _ =>
    postbyte.toNat / 16 = Register.s.code ∨ postbyte.toNat % 16 = Register.s.code
  | pull .u, mask :: _ => mask.toNat.testBit 6
  | _, _ => false

namespace Action

variable {cpu cpu' : Cpu} {w : List Exchange} {mode : AddressingMode}

/-! ## Operations -/

/-- The latch stays. -/
abbrev Law.keepsLatch : Law := .keeps Cpu.nmiArmed

instance : AllowsRegs Law.keepsLatch := ⟨fun _ _ => rfl⟩
instance : AllowsCharges Law.keepsLatch := ⟨fun _ _ => rfl⟩
instance : AllowsWaiting Law.keepsLatch := ⟨fun _ => rfl, fun _ => rfl⟩

/-- A register that is loaded at last arms NMI if it is S. -/
theorem armed_of_load {α : Type} {before : Action α} [Obeys Law.keepsLatch before]
    {reg : Register} {value : α → UInt16}
    (h : (before >>= fun a => loadRegister reg (value a)).Ends cpu w (.ok ()) cpu') :
    cpu'.nmiArmed = (cpu.nmiArmed || reg = .s) := by
  obtain ⟨_, mid, _, _, rfl, hbefore, hload⟩ := ends_bind_ok.mp h
  have hkept : mid.nmiArmed = cpu.nmiArmed := Law.keepsLatch.of_returned hbefore
  obtain ⟨-, -, rfl⟩ := ends_loadRegister.mp hload
  rw [← hkept]
  rfl

theorem armed_of_pullRegister {stack : IndexRegister} {reg : Register}
    (h : (pullRegister stack reg).Ends cpu w (.ok ()) cpu') :
    cpu'.nmiArmed = (cpu.nmiArmed || reg = .s) := by
  obtain ⟨_, _, _, _, rfl, hcharge, hpull⟩ := ends_bind_ok.mp h
  obtain ⟨-, -, rfl⟩ := ends_charge.mp hcharge
  cases hwide : reg.isWide with
  | true =>
    simp only [hwide, if_true] at hpull
    exact (armed_of_load hpull :)
  | false =>
    simp only [hwide, Bool.false_eq_true, if_false] at hpull
    exact (armed_of_load hpull :)

theorem armed_of_forM_pullRegister {stack : IndexRegister} {regs : List Register}
    (h : (regs.forM (pullRegister stack)).Ends cpu w (.ok ()) cpu') :
    cpu'.nmiArmed = (cpu.nmiArmed || .s ∈ regs) := by
  induction regs generalizing cpu w with
  | nil =>
    obtain ⟨-, -, rfl⟩ := ends_pure.mp h
    exact (Bool.or_false _).symm
  | cons reg regs ih =>
    obtain ⟨_, mid, _, _, rfl, hfirst, hrest⟩ := ends_bind_ok.mp h
    rw [ih hrest, armed_of_pullRegister hfirst, Bool.or_assoc]
    simp [eq_comm]

/-- An operation arms NMI just when it loads S. -/
theorem armed_of_ends {operation : Operation} (hregular : operation.regular)
    (hsuits : operation.effect.suits mode) (hadmits : operation.admits mode)
    (h : (operation.effect.resolve mode).Ends cpu w (.ok ()) cpu') :
    cpu'.nmiArmed = (cpu.nmiArmed || operation.arms (readBytes w)) := by
  by_cases hloads : operation.loads
  · cases operation with
    | load16 reg =>
      obtain ⟨body, regs, clock, rest, hbody, -, -, hends⟩ := exists_body hsuits h
      cases hbody with
      | onWord action value =>
        rw [armed_of_load hends]
        cases reg <;> rfl
    | loadAddress reg =>
      obtain ⟨body, regs, clock, rest, hbody, -, -, hends⟩ := exists_body hsuits h
      cases hbody with
      | onAddress action address =>
        obtain ⟨_, loaded, _, _, rfl, hload, hflags⟩ := ends_bind_ok.mp hends
        have hkept : cpu'.nmiArmed = loaded.nmiArmed := Law.keepsLatch.of_returned hflags
        obtain ⟨-, -, rfl⟩ := ends_loadRegister.mp hload
        rw [hkept]
        cases reg <;> rfl
    | transfer =>
      obtain rfl := fixedMode_of_admits hadmits rfl
      obtain ⟨postbyte, source, destination, hbytes, hpair, rfl⟩ := ends_transfer h
      rw [hbytes, Operation.arms, hpair.low]
      simp only [Register.code_inj]
      rfl
    | exchange =>
      obtain rfl := fixedMode_of_admits hadmits rfl
      obtain ⟨postbyte, first, second, hbytes, hpair, rfl⟩ := ends_exchange h
      rw [hbytes, Operation.arms, hpair.high, hpair.low]
      simp only [Register.code_inj, Bool.decide_or]
      exact Bool.or_assoc _ _ _
    | pull stack =>
      have hstack : stack = .s ∨ stack = .u := of_decide_eq_true hregular
      obtain rfl := fixedMode_of_admits hadmits rfl
      obtain ⟨mask, rest, rfl, hpulling⟩ := ends_onByte_immediate h
      rw [stackedRegisters_eq hstack] at hpulling
      rw [armed_of_forM_pullRegister hpulling]
      obtain rfl | rfl := hstack
      · have hstays : .s ∉ Register.ofMask .s mask := stack_not_mem_ofMask (.inl rfl) mask
        simp [hstays, Operation.arms]
      · have hnames : .s ∈ Register.ofMask .u mask ↔ mask.toNat.testBit 6 :=
          Register.mem_ofMask_iff 6 (by decide)
        simp [hnames, Operation.arms, readBytes]
    | _ => cases hloads
  · have hobeys : operation.effect.Obeys Law.keepsLatch :=
      Operation.effect_obeys_of (fun _ => inferInstance) (fun _ => inferInstance)
        (fun _ => inferInstance) (fun h => absurd h hloads) fun _ => inferInstance
    have := obeys_resolve hobeys mode
    have hkept : cpu'.nmiArmed = cpu.nmiArmed := Law.keepsLatch.of_returned h
    have hnone : operation.arms (readBytes w) = false := by
      unfold Operation.arms
      cases operation <;> first | rfl | exact absurd rfl hloads
    rw [hkept, hnone, Bool.or_false]

end Action

namespace Machine

variable {σ : Type} (devices : Devices σ)

/-! ## Steps -/

/-- The step completes an instruction that loads S. -/
def Arms (m : Machine σ) : Prop := ∃ instruction bytes, m.Completes devices instruction bytes ∧
  instruction.operation.arms bytes

variable {devices} {m : Machine σ}

theorem Completes.armed_eq {instruction : Instruction} {bytes : List UInt8}
    (h : m.Completes devices instruction bytes) : (m.step devices).2.cpu.nmiArmed =
      (m.cpu.nmiArmed || instruction.operation.arms bytes) := by
  obtain ⟨w, -, rfl, hends⟩ := h.exists_ends
  exact (Action.armed_of_ends instruction.regular_and_size.1 instruction.suits instruction.admits
    hends :)

/-- Nothing but a completed instruction concerns the latch. -/
theorem armed_eq_or_completes : (m.step devices).2.cpu.nmiArmed = m.cpu.nmiArmed ∨
    ∃ instruction bytes, m.Completes devices instruction bytes := by
  cases m.fate devices with
  | served _ _ hcpu =>
    left
    rw [hcpu]
    unfold Interrupt.saved
    split <;> rfl
  | idle _ _ hcpu =>
    left
    rw [hcpu]
    unfold Action.sampled
    split <;> rfl
  | completed hcompletes => exact .inr ⟨_, _, hcompletes⟩
  | undecodable _ _ _ hcpu =>
    left
    rw [hcpu]
    rfl
  | refused _ _ hcpu => exact .inl (congrArg Cpu.nmiArmed hcpu)

variable (devices m) in
/-- A step arms NMI just when it completes an instruction that loads S. -/
theorem armed_iff : (m.step devices).2.cpu.nmiArmed ↔ m.cpu.nmiArmed ∨ m.Arms devices := by
  constructor
  · intro harmed
    obtain hkept | ⟨_, _, hcompletes⟩ := m.armed_eq_or_completes
    · rw [hkept] at harmed
      exact .inl harmed
    · rw [hcompletes.armed_eq, Bool.or_eq_true] at harmed
      exact harmed.imp_right fun harms => ⟨_, _, hcompletes, harms⟩
  · rintro (harmed | ⟨_, _, hcompletes, harms⟩)
    · obtain hkept | ⟨_, _, hcompletes⟩ := m.armed_eq_or_completes
      · rwa [hkept]
      · rw [hcompletes.armed_eq, harmed, Bool.true_or]
    · rw [hcompletes.armed_eq, harms, Bool.or_true]

/-! ## Between resets -/

/-- What becomes of a machine by steps and runs, and by changes from outside of registers and clock,
and of timer, lines and bus, but neither by a reset nor by putting a copy back. The machines from
which steps have started are listed, in order. -/
inductive Operated (devices : Devices σ) (first : Machine σ) : List (Machine σ) → Machine σ → Prop
  where
  | first : Operated devices first [] first
  | step {visited : List (Machine σ)} {m : Machine σ} : Operated devices first visited m →
      Operated devices first (visited ++ [m]) (m.step devices).2
  | run {visited : List (Machine σ)} {m : Machine σ} (cycles : UInt64) :
      Operated devices first visited m →
      Operated devices first
        (visited ++ visits devices cycles m.cpu.clock (2 * cycles.toNat + 1) m)
        (m.run devices cycles).2
  | registers {visited : List (Machine σ)} {m : Machine σ} (regs : Registers) (clock : UInt64) :
      Operated devices first visited m →
      Operated devices first visited { m with cpu := { m.cpu with regs, clock } }
  | outside {visited : List (Machine σ)} {m : Machine σ} (timer : Option Timer) (bus : Bus σ)
      (log : Array Event) : Operated devices first visited m →
      Operated devices first visited { m with timer, bus, log }

namespace Operated

variable {devices : Devices σ} {first m : Machine σ} {visited : List (Machine σ)}

theorem setLine (h : Operated devices first visited m) (interrupt : Interrupt) (asserted : Bool) :
    Operated devices first visited (m.setLine interrupt asserted) :=
  h.outside m.timer (m.bus.setLine interrupt asserted) m.log

theorem modifyRegs (h : Operated devices first visited m) (f : Registers → Registers) :
    Operated devices first visited (m.modifyRegs f) :=
  h.registers (f m.cpu.regs) m.cpu.clock

end Operated

/-- Now, and before every step, NMI is armed just if it was at first or a step so far has armed
it. -/
structure Latched (devices : Devices σ) (first : Machine σ) (visited : List (Machine σ))
    (m : Machine σ) : Prop where
  now : m.cpu.nmiArmed ↔ first.cpu.nmiArmed ∨ ∃ v ∈ visited, v.Arms devices
  earlier : ∀ before v rest, visited = before ++ v :: rest →
    (v.cpu.nmiArmed ↔ first.cpu.nmiArmed ∨ ∃ v ∈ before, v.Arms devices)

variable {first : Machine σ} {visited : List (Machine σ)}

theorem Latched.step (h : Latched devices first visited m) :
    Latched devices first (visited ++ [m]) (m.step devices).2 where
  now := by
    rw [armed_iff, h.now, or_assoc]
    simp [or_and_right, exists_or]
  earlier before v rest heq := by
    obtain rfl | ⟨rest, last, rfl⟩ := rest.eq_nil_or_concat
    · obtain ⟨rfl, hlast⟩ := List.append_inj' heq rfl
      cases hlast
      exact h.now
    · rw [List.concat_eq_append, ← List.cons_append, ← List.append_assoc] at heq
      exact h.earlier before v rest (List.append_inj' heq rfl).1

theorem Latched.of_eq {m' : Machine σ} (h : Latched devices first visited m)
    (heq : m'.cpu.nmiArmed = m.cpu.nmiArmed) : Latched devices first visited m' :=
  ⟨by rw [heq]; exact h.now, h.earlier⟩

theorem Operated.latched (h : Operated devices first visited m) :
    Latched devices first visited m := by
  induction h with
  | first => exact ⟨by simp, fun before v rest heq => by simp at heq⟩
  | step _ ih => exact ih.step
  | run cycles _ ih => exact runSteps_induction .step (fun _ _ _ h => h.of_eq rfl) _ ih _
  | registers regs clock _ ih => exact ih.of_eq rfl
  | outside timer bus log _ ih => exact ih.of_eq rfl

/-- A step that serves NMI releases its line, so NMI is eligible. -/
theorem Serves.eligible {high low : UInt8} (h : m.Serves devices .nmi high low) :
    Interrupt.nmi.Eligible m.bus.lines m.cpu := by
  have hreleases : .releaseNmi ∈ (m.course devices).exchanges := by
    rw [h.exchanges]
    exact List.mem_append_right _ List.mem_cons_self
  exact ((Action.releaseNmi_mem_iff (m.course_ends devices rfl)).mp hreleases).1.1

variable (devices) in
/-- The latch for NMI. A step arms NMI just when it completes LDS, LEAS, a TFR to S, an EXG with S
or a PULU of S. What has been armed stays so up to the next reset, and a reset clears it: from there
on NMI is armed just when a step has done so. Before that NMI is not eligible and no step serves
it, whatever happens to S. -/
theorem nmi_latch : (∀ m : Machine σ,
      (m.step devices).2.cpu.nmiArmed ↔ m.cpu.nmiArmed ∨ m.Arms devices) ∧
    (∀ (first m : Machine σ) visited, Operated devices first visited m →
      first.cpu.nmiArmed → m.cpu.nmiArmed) ∧
    ∀ (fresh m : Machine σ) visited, Operated devices (fresh.reset devices).2 visited m →
      (m.cpu.nmiArmed ↔ ∃ v ∈ visited, v.Arms devices) ∧
      ∀ before v rest, visited = before ++ v :: rest → (∀ v ∈ before, ¬ v.Arms devices) →
        ¬ Interrupt.nmi.Eligible v.bus.lines v.cpu ∧
          ∀ high low, ¬ v.Serves devices .nmi high low := by
  refine ⟨fun m => m.armed_iff devices, fun first m visited h harmed => ?_,
    fun fresh m visited h => ?_⟩
  · exact h.latched.now.mpr (.inl harmed)
  · have hcleared : ¬ (fresh.reset devices).2.cpu.nmiArmed := by
      obtain ⟨_, hcpu⟩ := fresh.reset_cpu devices
      rw [hcpu]
      exact Bool.false_ne_true
    obtain ⟨hnow, hearlier⟩ := h.latched
    rw [or_iff_right hcleared] at hnow
    refine ⟨hnow, fun before v rest heq hnone => ?_⟩
    have hunarmed : ¬ v.cpu.nmiArmed := by
      rw [hearlier before v rest heq, or_iff_right hcleared]
      rintro ⟨earlier, hmem, harms⟩
      exact hnone earlier hmem harms
    exact ⟨fun heligible => hunarmed heligible.2,
      fun high low hserves => hunarmed hserves.eligible.2⟩

/-- A program that begins with LEAS 4,S. -/
def stackLoading : Machine Unit := onePage #[0x32, 0x64]

/-- The same after a reset, with S set and NMI asserted by the host. -/
def stackLoadingNmi : Machine Unit :=
  ((stackLoading.reset Devices.none).2.modifyRegs ({ · with s := 0x0080 })).setLine .nmi true

theorem nmi_latch_stackLoading : stackLoadingNmi.Arms Devices.none ∧
    ¬ Interrupt.nmi.Eligible stackLoadingNmi.bus.lines stackLoadingNmi.cpu := by
  obtain ⟨-, -, hoperated⟩ := nmi_latch Devices.none
  have hpending : Operated Devices.none (stackLoading.reset Devices.none).2 [] stackLoadingNmi :=
    (Operated.first.modifyRegs _).setLine .nmi true
  obtain ⟨harmed, hearlier⟩ := hoperated stackLoading _ _ hpending.step
  have hstep : (stackLoadingNmi.step Devices.none).2.cpu.nmiArmed = true := by
    decide +kernel
  obtain ⟨v, hmem, harms⟩ := harmed.mp hstep
  obtain rfl := List.mem_singleton.mp hmem
  exact ⟨harms, (hearlier [] _ [] rfl (List.forall_mem_nil _)).1⟩

end Machine

end Mc6809
