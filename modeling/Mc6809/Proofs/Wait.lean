/-
  Waiting in CWAI. CWAI masks CC, stacks every register ahead of time and waits. As long as no
  interrupt is eligible a step does nothing but let a cycle pass, so the machine stays as CWAI
  has left it, however the lines change in between (`InCwai.beforeStep_of_quiet`). The interrupt
  that ends the wait stacks nothing and costs nothing (`InCwai.step_of_wins`). Since E is set in the
  frame, RTI restores every register, also when the interrupt was FIRQ.

  `cwai_waits_and_returns` follows a CWAI through all of this.
-/
import Mc6809.Proofs.Frame

namespace Mc6809

/-- E is the topmost bit. -/
theorem Flags.ofByte_or_entire (byte : UInt8) :
    Flags.ofByte (byte ||| 0x80) = { Flags.ofByte byte with entire := true } := by
  have all : ∀ n : Fin 256, Flags.ofByte (UInt8.ofFin n ||| 0x80) =
      { Flags.ofByte (UInt8.ofFin n) with entire := true } := by
    decide +kernel
  exact all byte.toFin

namespace Registers

variable (regs : Registers) (mask : UInt8)

/-- The same registers with the flags masked and E set. -/
def masked : Registers := { regs with cc := .ofByte (regs.cc.toByte &&& mask ||| 0x80) }

/-- The registers that a CWAI at PC stacks. -/
def cwaiSaved : Registers := { regs.masked mask with pc := regs.pc + 2 }

/-- E is set in its frame, so the frame holds every register. -/
theorem entire_cwaiSaved : (regs.cwaiSaved mask).cc.entire = true :=
  congrArg Flags.entire (Flags.ofByte_or_entire (regs.cc.toByte &&& mask))

theorem length_frame_cwaiSaved : (regs.cwaiSaved mask).frame.length = 12 := by
  rw [length_frame, if_pos (entire_cwaiSaved ..)]

end Registers

namespace Action

variable (cpu : Cpu) (memory : Memory)

/-- CWAI masks CC by its operand, stacks every register and begins to wait. -/
theorem onMemory_waitForInterrupt {mask : UInt8} (hmask : memory cpu.regs.pc = mask) :
    (Operation.waitForInterrupt.effect.resolve .immediate).onMemory cpu memory =
      ((.ok (), { cpu with
        regs := { cpu.regs.masked mask with pc := cpu.regs.pc + 1, s := cpu.regs.s - 12 }
        cwai := true }),
      memory.push cpu.regs.s
        ({ cpu.regs.masked mask with pc := cpu.regs.pc + 1 } : Registers).frame.reverse) := by
  unfold Registers.masked
  rw [Flags.ofByte_or_entire]
  show (operand8 .immediate >>= _).onMemory cpu memory = _
  unfold operand8
  simp only [onMemory_bind, onMemory_fetch, onMemory_modifyFlags, onMemory_stackEntireState,
    onMemory_modify, onMemory_regs, onMemory_report, hmask]
  rfl

/-- In CWAI an interrupt only masks and jumps. -/
theorem onMemory_service_of_cwai (interrupt : Interrupt) (hcwai : cpu.cwai = true) :
    (service interrupt).onMemory cpu memory = ((.ok (), { cpu with
      regs := { cpu.regs with
        cc := maskFor interrupt cpu.regs.cc
        pc := memory.word interrupt.vector }
      cwai := false }), memory) := by
  rw [service_eq]
  unfold prepare
  simp only [onMemory_bind, onMemory_get, hcwai, Bool.not_true, Bool.false_eq_true, if_false,
    onMemory_modifyFlags, onMemory_readWord, onMemory_enter]

end Action

namespace Machine

variable {σ : Type} (devices : Devices σ) {m : Machine σ}

/-! ## The instruction -/

/-- CWAI leaves its frame, and the processor waits. -/
theorem step_of_cwai {mask : UInt8} (hflat : m.bus.IsFlat) (h : m.Executes [0x3C, mask]) :
    (m.step devices).1 = .ok () ∧
      (m.step devices).2.cpu = { m.cpu with
        regs := { m.cpu.regs.cwaiSaved mask with s := m.cpu.regs.s - 12 }
        clock := m.cpu.clock + 20
        cwai := true
        sync := false } ∧
      (m.step devices).2.bus.IsFlat ∧
      (m.step devices).2.bus.memory =
        m.bus.memory.push m.cpu.regs.s (m.cpu.regs.cwaiSaved mask).frame.reverse := by
  have hfind : Opcode.find? .page1 0x3C = some ⟨.cwai, .immediate, 20, 2⟩ := by
    rw [Opcode.find?_eq_lookup]
    rfl
  have hcode : m.Executes (OpcodePage.page1.code 0x3C ++ [mask]) := h
  have hmask : m.bus.memory (m.cpu.regs.pc + 1) = mask :=
    (List.cons.inj (List.cons.inj h.code).2).1
  have hpc : m.cpu.regs.pc + 2 = m.cpu.regs.pc + 1 + 1 := by grind
  unfold Registers.cwaiSaved
  rw [hpc]
  exact step_of_executes devices hflat hcode hfind rfl (Action.onMemory_waitForInterrupt _ _ hmask)

/-- The frame of CWAI stands above the S that it leaves. -/
theorem slice_of_cwai {mask : UInt8} (hflat : m.bus.IsFlat) (h : m.Executes [0x3C, mask]) :
    (m.step devices).2.bus.memory.slice (m.step devices).2.cpu.regs.s
      (m.cpu.regs.cwaiSaved mask).frame.length = (m.cpu.regs.cwaiSaved mask).frame := by
  obtain ⟨-, hcpu, -, hmemory⟩ := step_of_cwai devices hflat h
  have hs : (m.step devices).2.cpu.regs.s =
      m.cpu.regs.s - .ofNat (m.cpu.regs.cwaiSaved mask).frame.length := by
    rw [hcpu, Registers.length_frame_cwaiSaved]
    rfl
  rw [hs, hmemory]
  exact Registers.slice_push_frame _ _ _

/-! ## The wait -/

/-- A step that succeeds leaves no fault. -/
theorem fault_of_step (h : (m.step devices).1 = .ok ()) : (m.step devices).2.fault = none := by
  obtain ⟨_, _, _, hstep⟩ | ⟨_, _, _, _, hstep⟩ | ⟨_, _, _, hstep⟩ := m.step_cases devices
  · rw [hstep]
  · rw [hstep] at h
    cases h
  · rw [hstep] at h
    cases h

/-- Changes lines from outside, one after the other. -/
def setLines (m : Machine σ) (changes : List (Interrupt × Bool)) : Machine σ :=
  changes.foldl (fun m change => m.setLine change.1 change.2) m

theorem setLines_eq (m : Machine σ) (changes : List (Interrupt × Bool)) :
    ∃ lines, m.setLines changes = { m with bus := { m.bus with lines } } := by
  unfold setLines
  induction changes generalizing m with
  | nil => exact ⟨m.bus.lines, rfl⟩
  | cons change changes ih => exact ih (m.setLine change.1 change.2)

theorem setLines_cpu (m : Machine σ) (changes : List (Interrupt × Bool)) :
    (m.setLines changes).cpu = m.cpu := by
  obtain ⟨lines, hlines⟩ := m.setLines_eq changes
  rw [hlines]

/-- The machine just before step `n`, when before each step, from step zero on, the host has
changed lines. -/
def beforeStep (m : Machine σ) (changes : Nat → List (Interrupt × Bool)) : Nat → Machine σ
  | 0 => m.setLines (changes 0)
  | n + 1 => ((m.beforeStep changes n).step devices).2.setLines (changes (n + 1))

/-- The machine waits in CWAI and not in SYNC, and its latest step has succeeded. -/
structure InCwai (m : Machine σ) : Prop where
  cwai : m.cpu.cwai = true
  sync : m.cpu.sync = false
  fault : m.fault = none

/-- In CWAI a step without an eligible interrupt does nothing but let a cycle pass. -/
theorem InCwai.step_of_quiet (h : m.InCwai) (hquiet : m.Quiet) :
    m.step devices = (.ok (), { m with cpu.clock := m.cpu.clock + 1 }) := by
  rw [step_of_waits devices m hquiet (.inl h.cwai), Action.sampled_of_sync_eq_false h.sync,
    ← h.fault]

/-- However the lines change, as long as no interrupt is eligible the machine stays as CWAI has
left it, but for the lines and one cycle for each step. -/
theorem InCwai.beforeStep_of_quiet {changes : Nat → List (Interrupt × Bool)} {k : Nat}
    (h : m.InCwai) (hquiet : ∀ i < k, (m.beforeStep devices changes i).Quiet) :
    ∃ lines, m.beforeStep devices changes k = { m with
      cpu.clock := m.cpu.clock + .ofNat k
      bus := { m.bus with lines } } := by
  induction k with
  | zero =>
    obtain ⟨lines, hlines⟩ := m.setLines_eq (changes 0)
    have hclock : m.cpu.clock + .ofNat 0 = m.cpu.clock := UInt64.add_zero _
    rw [beforeStep, hlines, hclock]
    exact ⟨lines, rfl⟩
  | succ k ih =>
    obtain ⟨lines, hbefore⟩ := ih fun i hi => hquiet i (by omega)
    have hlast := hquiet k (by omega)
    rw [hbefore] at hlast
    -- Clock and lines are no part of being in CWAI, so the next step idles too.
    have hcwai : InCwai { m with
        cpu.clock := m.cpu.clock + .ofNat k
        bus := { m.bus with lines } } := ⟨h.cwai, h.sync, h.fault⟩
    have hclock : m.cpu.clock + .ofNat (k + 1) = m.cpu.clock + .ofNat k + 1 := by
      rw [UInt64.ofNat_add, UInt64.add_assoc]
      rfl
    rw [beforeStep, hbefore, hcwai.step_of_quiet devices hlast, hclock]
    exact setLines_eq _ _

/-- In CWAI an interrupt that is served stacks nothing and costs nothing. -/
theorem InCwai.step_of_wins {interrupt : Interrupt} (h : m.InCwai) (hflat : m.bus.IsFlat)
    (hwins : interrupt.Wins m.bus.lines m.cpu) :
    (m.step devices).1 = .ok () ∧ (m.step devices).2.bus.memory = m.bus.memory ∧
      (m.step devices).2.cpu = { m.cpu with
        regs := { m.cpu.regs with
          cc := Action.maskFor interrupt m.cpu.regs.cc
          pc := m.bus.memory.word interrupt.vector }
        cwai := false } := by
  have hstart := Action.start_step_of_wins hwins
  rw [Action.sampled_of_sync_eq_false h.sync] at hstart
  have heval : (Action.step m.bus.lines).onMemory m.cpu m.bus.memory = _ :=
    (congrArg (Traffic.onMemory · m.bus.memory) hstart).trans
      (Action.onMemory_service_of_cwai m.cpu m.bus.memory interrupt h.cwai)
  obtain ⟨hok, hcpu, -, hmemory⟩ := step_of_isFlat devices hflat heval
  exact ⟨hok, hmemory, hcpu⟩

/-! ## From CWAI to the return -/

/-- CWAI from its start to the return from the handler that ends it. However the lines change
between the steps, each step without an eligible interrupt does nothing but let a cycle pass.
The first step with one serves the first in order: it only masks, jumps and ends the wait. When
RTI then finds S and the bytes of the frame as CWAI has left them, the registers are those before
CWAI, with PC behind it and CC masked and E set, whichever interrupt it was. -/
theorem cwai_waits_and_returns {mask : UInt8} {changes : Nat → List (Interrupt × Bool)} {k : Nat}
    (hflat : m.bus.IsFlat) (h : m.Executes [0x3C, mask])
    (hquiet : ∀ i < k, ((m.step devices).2.beforeStep devices changes i).Quiet) :
    let cwai := (m.step devices).2
    let waiting := cwai.beforeStep devices changes
    (m.step devices).1 = .ok () ∧
      cwai.cpu.regs.cc = .ofByte (m.cpu.regs.cc.toByte &&& mask ||| 0x80) ∧
      (∀ i ≤ k, ∃ lines, waiting i = { cwai with
        cpu.clock := cwai.cpu.clock + .ofNat i
        bus := { cwai.bus with lines } }) ∧
      (∀ i < k, (waiting i).step devices =
        (.ok (), { waiting i with cpu.clock := (waiting i).cpu.clock + 1 })) ∧
      (¬ (waiting k).Quiet →
        ∃ interrupt : Interrupt, interrupt.Wins (waiting k).bus.lines (waiting k).cpu ∧
          ((waiting k).step devices).1 = .ok () ∧
          ((waiting k).step devices).2.bus.memory = (waiting k).bus.memory ∧
          ((waiting k).step devices).2.cpu = { (waiting k).cpu with
            regs := { (waiting k).cpu.regs with
              cc := Action.maskFor interrupt (waiting k).cpu.regs.cc
              pc := (waiting k).bus.memory.word interrupt.vector }
            cwai := false }) ∧
      ∀ later : Machine σ, later.bus.IsFlat → later.Executes [0x3B] →
        later.cpu.regs.s = cwai.cpu.regs.s →
        later.bus.memory.slice later.cpu.regs.s 12 =
          cwai.bus.memory.slice cwai.cpu.regs.s 12 →
        (later.step devices).1 = .ok () ∧ (later.step devices).2.cpu.regs = { m.cpu.regs with
          pc := m.cpu.regs.pc + 2
          cc := .ofByte (m.cpu.regs.cc.toByte &&& mask ||| 0x80) } := by
  intro cwai waiting
  obtain ⟨hok, hcpu, hflat', hmemory⟩ := step_of_cwai devices hflat h
  have hcwai : cwai.InCwai :=
    ⟨congrArg Cpu.cwai hcpu, congrArg Cpu.sync hcpu, fault_of_step devices hok⟩
  have hstays (i : Nat) (hi : i ≤ k) : ∃ lines, waiting i = { cwai with
      cpu.clock := cwai.cpu.clock + .ofNat i
      bus := { cwai.bus with lines } } :=
    hcwai.beforeStep_of_quiet devices fun j hj => hquiet j (by omega)
  have hwaits (i : Nat) (hi : i ≤ k) : (waiting i).InCwai ∧ (waiting i).bus.IsFlat := by
    obtain ⟨lines, hwaiting⟩ := hstays i hi
    rw [hwaiting]
    exact ⟨⟨hcwai.cwai, hcwai.sync, hcwai.fault⟩, (hflat'.withLines lines).1⟩
  refine ⟨hok, congrArg (Registers.cc ∘ Cpu.regs) hcpu, hstays, ?_, ?_, ?_⟩
  · intro i hi
    exact (hwaits i (Nat.le_of_lt hi)).1.step_of_quiet devices (hquiet i hi)
  · intro hnot
    obtain ⟨interrupt, hwins⟩ := Action.exists_wins hnot
    obtain ⟨hlast, hlastFlat⟩ := hwaits k (Nat.le_refl k)
    exact ⟨interrupt, hwins, hlast.step_of_wins devices hlastFlat hwins⟩
  · intro later hlater hreturn hs hframe
    have hintact : later.bus.memory.slice later.cpu.regs.s
        (m.cpu.regs.cwaiSaved mask).frame.length = (m.cpu.regs.cwaiSaved mask).frame := by
      rw [← slice_of_cwai devices hflat h, Registers.length_frame_cwaiSaved]
      exact hframe
    obtain ⟨hreturned, hregs⟩ := step_of_return devices hlater hreturn hintact
    have hlowered : later.cpu.regs.s = m.cpu.regs.s - 12 :=
      hs.trans (congrArg (Registers.s ∘ Cpu.regs) hcpu)
    refine ⟨hreturned, ?_⟩
    rw [hregs, Registers.unstack, if_pos (Registers.entire_cwaiSaved ..), hlowered,
      UInt16.sub_add_cancel]
    rfl

/-- Memory with CWAI in the lower half, its operand as well, and RTI in the upper half. -/
def waitBelowReturn : Memory := fun address => if address < 0x8000 then 0x3C else 0x3B

/-- A CWAI whose operand keeps I and clears F. -/
def maskedWait : Machine Unit where
  cpu.regs := { pc := 0x4000, s := 5, x := 0x1234, cc := { irqMask := true, firqMask := true } }
  bus := .ofMemory waitBelowReturn ()

/-- IRQ comes first and is masked, then FIRQ. -/
def maskedWaitChanges (step : Nat) : List (Interrupt × Bool) :=
  if step = 0 then [(.firq, false), (.irq, true)] else [(.firq, true)]

/-- The end of the handler. -/
def maskedWaitHandled : Machine Unit := { (maskedWait.step Devices.none).2 with
  cpu := { regs := { pc := 0x9000, s := 0xFFF9 } }
  bus := { (maskedWait.step Devices.none).2.bus with lines := {} } }

theorem cwai_waits_and_returns_masked :
    let waiting := (maskedWait.step Devices.none).2.beforeStep Devices.none maskedWaitChanges
    (waiting 0).bus.lines.irq = true ∧
      (waiting 0).step Devices.none =
        (.ok (), { waiting 0 with cpu.clock := (waiting 0).cpu.clock + 1 }) ∧
      ((waiting 1).step Devices.none).2.cpu.cwai = false ∧
      (maskedWaitHandled.step Devices.none).2.cpu.regs =
        { pc := 0x4002, s := 5, x := 0x1234, cc := { irqMask := true, entire := true } } := by
  intro waiting
  have hflat : maskedWait.bus.IsFlat := Bus.isFlat_ofMemory waitBelowReturn ()
  have hbytes : maskedWait.bus.memory = waitBelowReturn := Bus.memory_ofMemory waitBelowReturn ()
  have hexecutes : maskedWait.Executes [0x3C, 0x3C] := by
    refine executes_of_released rfl rfl rfl ?_
    rw [hbytes]
    decide
  obtain ⟨-, hcpu, hflat', hmemory⟩ := step_of_cwai Devices.none hflat hexecutes
  have hbefore : (waiting 0).cpu = (maskedWait.step Devices.none).2.cpu := setLines_cpu _ _
  have hquiet : ∀ i < 1, (waiting i).Quiet := by
    intro i hi
    obtain rfl : i = 0 := by omega
    rintro (_ | _ | _) ⟨hline, haccepts⟩
    · rw [hbefore, hcpu] at haccepts
      exact Bool.false_ne_true haccepts
    · exact Bool.false_ne_true hline
    · rw [hbefore, hcpu] at haccepts
      exact haccepts rfl
  obtain ⟨-, -, -, hidle, hserved, hreturned⟩ :=
    cwai_waits_and_returns Devices.none hflat hexecutes hquiet
  have heligible : ¬ (waiting 1).Quiet := by
    intro hquiet
    have hnext : (waiting 1).cpu = { (waiting 0).cpu with
        clock := (waiting 0).cpu.clock + 1 } := by
      refine (setLines_cpu _ _).trans ?_
      rw [hidle 0 (by omega)]
    refine hquiet .firq ⟨rfl, ?_⟩
    rw [hnext, hbefore, hcpu]
    exact Bool.false_ne_true
  obtain ⟨interrupt, -, -, -, hleft⟩ := hserved heligible
  have hlater : maskedWaitHandled.bus.IsFlat := (hflat'.withLines {}).1
  have hkept : maskedWaitHandled.bus.memory = (maskedWait.step Devices.none).2.bus.memory :=
    (hflat'.withLines {}).2
  have hreturn : maskedWaitHandled.Executes [0x3B] := by
    refine executes_of_released rfl rfl rfl ?_
    show [maskedWaitHandled.bus.memory 0x9000] = [0x3B]
    rw [hkept, hmemory, Memory.push_apply _ _ _ _ (by decide), hbytes]
    decide
  have hlowered : (maskedWait.step Devices.none).2.cpu.regs.s = 0xFFF9 := by
    rw [hcpu]
    decide
  obtain ⟨-, hregs⟩ := hreturned _ hlater hreturn hlowered.symm (by rw [hkept, hlowered]; rfl)
  refine ⟨rfl, hidle 0 (by omega), ?_, ?_⟩
  · rw [hleft]
  · rw [hregs]
    decide

end Machine

end Mc6809
