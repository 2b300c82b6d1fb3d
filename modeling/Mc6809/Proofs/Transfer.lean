/-
  Transfers and exchanges between registers. TFR and EXG load registers with what others read as.
  That copies exactly, as the two registers of a transfer byte have one width: what a register reads
  as fits into the other (`Registers.get_set_get`), CC included, whose packed byte stands for its
  flags. A load changes no register that has nothing in common with the one loaded
  (`Registers.get_set_of_not_overlaps`), and different registers of one width have nothing in
  common (`Register.not_overlaps_of_ne`), D being the only register made of others.

  Both instructions read PC behind their two bytes. An exchange is therefore its own inverse on what
  the registers read there, and `transfers_exact` states it so, for any later state in which the
  two registers read as they have been left.
-/
import Mc6809.Proofs.NextAddress
import Mc6809.Proofs.Stacking

namespace Mc6809

/-! ## What registers have in common -/

namespace Register

/-- The registers that a register is made of: D is A and B. -/
def parts : Register → List Register
  | d => [a, b]
  | reg => [reg]

/-- A part of the register is a part of the other. -/
def Overlaps (reg other : Register) : Prop := ∃ part ∈ reg.parts, part ∈ other.parts

instance (reg other : Register) : Decidable (reg.Overlaps other) :=
  inferInstanceAs (Decidable (∃ part ∈ _, _))

/-- Only registers of different widths share a part. -/
theorem not_overlaps_of_ne {reg other : Register} (hwide : reg.isWide = other.isWide)
    (hne : reg ≠ other) : ¬ reg.Overlaps other := by
  cases reg <;> cases other <;> first | decide | exact absurd rfl hne | cases hwide

end Register

namespace Registers

variable {reg target source first second : Register}

theorem get_set_of_not_overlaps (h : ¬ reg.Overlaps target) (regs : Registers) (value : UInt16) :
    (regs.set target value).get reg = regs.get reg := by
  cases reg <;> cases target <;> first | rfl | exact absurd (by decide) h

/-- A narrow register keeps the low byte. -/
theorem get_set_narrow (h : reg.isWide = false) (regs : Registers) (value : UInt16) :
    (regs.set reg value).get reg = (lowByte value).toUInt16 := by
  cases reg with
  | cc => exact congrArg UInt8.toUInt16 (Flags.toByte_ofByte _)
  | a | b | dp => rfl
  | _ => cases h

/-- What a register reads as fits into every register of its width. -/
theorem get_set_get (h : target.isWide = source.isWide) (regs before : Registers) :
    (regs.set target (before.get source)).get target = before.get source := by
  cases htarget : target.isWide with
  | true => exact get_set htarget _ _
  | false =>
    rw [get_set_narrow htarget]
    exact toUInt16_lowByte_get before (h ▸ htarget)

/-- The registers with two of them loaded with what the other has read as. -/
def exchanged (regs : Registers) (first second : Register) : Registers :=
  (regs.set first (regs.get second)).set second (regs.get first)

section

variable (hwide : first.isWide = second.isWide) (regs : Registers)
include hwide

theorem get_exchanged_second :
    (regs.exchanged first second).get second = regs.get first := get_set_get hwide.symm _ _

theorem get_exchanged_first :
    (regs.exchanged first second).get first = regs.get second := by
  -- The second load leaves the first register alone, unless they are one register.
  by_cases hsame : first = second
  · subst hsame
    exact get_exchanged_second rfl regs
  · rw [exchanged, get_set_of_not_overlaps (Register.not_overlaps_of_ne hwide hsame),
      get_set_get hwide]

end

theorem get_exchanged_of_not_overlaps (hfirst : ¬ reg.Overlaps first)
    (hsecond : ¬ reg.Overlaps second) (regs : Registers) :
    (regs.exchanged first second).get reg = regs.get reg := by
  rw [exchanged, get_set_of_not_overlaps hsecond, get_set_of_not_overlaps hfirst]

end Registers

/-! ## The instructions -/

/-- EXG, the only instruction of its operation. -/
def exg : Instruction where
  page := .page1
  opcode := 0x1E
  entry := ⟨.exg, .immediate, 8, 2⟩
  operation := .exchange
  find := by
    rw [Opcode.find?_eq_lookup]
    rfl
  names := rfl

/-- TFR, the only instruction of its operation. -/
def tfr : Instruction where
  page := .page1
  opcode := 0x1F
  entry := ⟨.tfr, .immediate, 6, 2⟩
  operation := .transfer
  find := by
    rw [Opcode.find?_eq_lookup]
    rfl
  names := rfl

namespace Action

variable {postbyte : UInt8} {first second : Register} (hpair : Register.Pair postbyte first second)
  (cpu : Cpu)
include hpair

/-- The bytes of an exchange lead to it. -/
theorem exchange_ends : (Operation.exchange.effect.resolve .immediate).Ends cpu
    (fetched cpu.regs.pc [postbyte]) (.ok ())
    (({ cpu with regs := cpu.regs.past 1 }.loaded first
      ((cpu.regs.past 1).get second)).loaded second ((cpu.regs.past 1).get first)) := by
  refine ends_bind_ok.mpr ⟨postbyte, _, _, [], rfl, ends_fetch.mpr ⟨_, rfl, rfl, rfl⟩, ?_⟩
  refine ends_bind_ok.mpr ⟨(first, second), _, [], [], rfl,
    ends_ofExcept.mpr ⟨rfl, hpair.transferPair_eq.symm, rfl⟩, ?_⟩
  refine ends_bind_ok.mpr ⟨_, _, [], [], rfl, ends_regs.mpr ⟨rfl, rfl, rfl⟩, ?_⟩
  exact ends_bind_ok.mpr ⟨(), _, [], [], rfl, ends_loadRegister.mpr ⟨rfl, rfl, rfl⟩,
    ends_loadRegister.mpr ⟨rfl, rfl, rfl⟩⟩

/-- The bytes of a transfer lead to it. -/
theorem transfer_ends : (Operation.transfer.effect.resolve .immediate).Ends cpu
    (fetched cpu.regs.pc [postbyte]) (.ok ())
    ({ cpu with regs := cpu.regs.past 1 }.loaded second ((cpu.regs.past 1).get first)) := by
  refine ends_bind_ok.mpr ⟨postbyte, _, _, [], rfl, ends_fetch.mpr ⟨_, rfl, rfl, rfl⟩, ?_⟩
  refine ends_bind_ok.mpr ⟨(first, second), _, [], [], rfl,
    ends_ofExcept.mpr ⟨rfl, hpair.transferPair_eq.symm, rfl⟩, ?_⟩
  exact ends_bind_ok.mpr ⟨_, _, [], [], rfl, ends_regs.mpr ⟨rfl, rfl, rfl⟩,
    ends_loadRegister.mpr ⟨rfl, rfl, rfl⟩⟩

end Action

namespace Machine

variable {σ : Type} {devices : Devices σ} {m : Machine σ} {postbyte : UInt8}
  {first second : Register}

theorem Takes.exchange (h : m.Takes devices [0x1E, postbyte])
    (hpair : Register.Pair postbyte first second) : (m.step devices).1 = .ok () ∧
      (m.step devices).2.cpu.regs = (m.cpu.regs.past 2).exchanged first second ∧
      (m.step devices).2.cpu.nmiArmed = (m.cpu.nmiArmed || first = .s || second = .s) := by
  have htakes : m.Takes devices (exg.code ++ [postbyte]) := h
  obtain ⟨hcompletes, hcpu⟩ := htakes.completes (Action.exchange_ends hpair (exg.begun m.cpu))
  have hregs : (exg.begun m.cpu).regs.past 1 = m.cpu.regs.past 2 :=
    Registers.past_past m.cpu.regs 1 1
  rw [hregs] at hcpu
  exact ⟨hcompletes.ok, congrArg Cpu.regs hcpu, congrArg Cpu.nmiArmed hcpu⟩

theorem Takes.transfer (h : m.Takes devices [0x1F, postbyte])
    (hpair : Register.Pair postbyte first second) : (m.step devices).1 = .ok () ∧
      (m.step devices).2.cpu.regs =
        (m.cpu.regs.past 2).set second ((m.cpu.regs.past 2).get first) ∧
      (m.step devices).2.cpu.nmiArmed = (m.cpu.nmiArmed || second = .s) := by
  have htakes : m.Takes devices (tfr.code ++ [postbyte]) := h
  obtain ⟨hcompletes, hcpu⟩ := htakes.completes (Action.transfer_ends hpair (tfr.begun m.cpu))
  have hregs : (tfr.begun m.cpu).regs.past 1 = m.cpu.regs.past 2 :=
    Registers.past_past m.cpu.regs 1 1
  rw [hregs] at hcpu
  exact ⟨hcompletes.ok, congrArg Cpu.regs hcpu, congrArg Cpu.nmiArmed hcpu⟩

variable (devices m) in
/-- EXG and TFR copy exactly between any two registers of one width. Both read PC behind their two
bytes. After EXG each register reads as the other did, after TFR the second reads as the first did;
registers that have nothing in common with those loaded read as they did, and NMI is armed if S has
been loaded. Where a machine takes the same EXG and the two registers read as they have been left,
they read afterwards as they did at first. -/
theorem transfers_exact (hpair : Register.Pair postbyte first second) :
    (m.Takes devices [0x1E, postbyte] →
      (m.step devices).1 = .ok () ∧
      (m.step devices).2.cpu.regs.get first = (m.cpu.regs.past 2).get second ∧
      (m.step devices).2.cpu.regs.get second = (m.cpu.regs.past 2).get first ∧
      (∀ reg : Register, ¬ reg.Overlaps first → ¬ reg.Overlaps second →
        (m.step devices).2.cpu.regs.get reg = (m.cpu.regs.past 2).get reg) ∧
      (m.step devices).2.cpu.nmiArmed = (m.cpu.nmiArmed || first = .s || second = .s) ∧
      ∀ again : Machine σ, again.Takes devices [0x1E, postbyte] →
        (again.cpu.regs.past 2).get first = (m.step devices).2.cpu.regs.get first →
        (again.cpu.regs.past 2).get second = (m.step devices).2.cpu.regs.get second →
        (again.step devices).2.cpu.regs.get first = (m.cpu.regs.past 2).get first ∧
          (again.step devices).2.cpu.regs.get second = (m.cpu.regs.past 2).get second) ∧
    (m.Takes devices [0x1F, postbyte] →
      (m.step devices).1 = .ok () ∧
      (m.step devices).2.cpu.regs.get second = (m.cpu.regs.past 2).get first ∧
      (first ≠ second →
        (m.step devices).2.cpu.regs.get first = (m.cpu.regs.past 2).get first) ∧
      (∀ reg : Register, ¬ reg.Overlaps second →
        (m.step devices).2.cpu.regs.get reg = (m.cpu.regs.past 2).get reg) ∧
      (m.step devices).2.cpu.nmiArmed = (m.cpu.nmiArmed || second = .s)) := by
  have hwide := hpair.isWide
  constructor
  · intro h
    obtain ⟨hok, hregs, hnmi⟩ := h.exchange hpair
    have hfirst := Registers.get_exchanged_first hwide (m.cpu.regs.past 2)
    have hsecond := Registers.get_exchanged_second hwide (m.cpu.regs.past 2)
    rw [hregs]
    refine ⟨hok, hfirst, hsecond,
      fun reg hapart hapart' => Registers.get_exchanged_of_not_overlaps hapart hapart' _, hnmi,
      fun again hagain hleft hleft' => ?_⟩
    obtain ⟨-, hregs', -⟩ := hagain.exchange hpair
    rw [hregs', Registers.get_exchanged_first hwide, Registers.get_exchanged_second hwide, hleft,
      hleft', hfirst, hsecond]
    exact ⟨rfl, rfl⟩
  · intro h
    obtain ⟨hok, hregs, hnmi⟩ := h.transfer hpair
    rw [hregs]
    exact ⟨hok, Registers.get_set_get hwide.symm _ _,
      fun hne => Registers.get_set_of_not_overlaps (Register.not_overlaps_of_ne hwide hne) _ _,
      fun reg hreg => Registers.get_set_of_not_overlaps hreg _ _, hnmi⟩

/-- EXG of X and S arms NMI, and a second one undoes it; TFR brings the flags into A. -/
theorem transfers_exact_stackPointer :
    (((repeating 0x1E 0x14 { pc := 0x4000, x := 0x1234, s := 0x8000 }).step
        Devices.none).2.cpu.regs.get .x = 0x8000 ∧
      ((repeating 0x1E 0x14 { pc := 0x4000, x := 0x1234, s := 0x8000 }).step
        Devices.none).2.cpu.nmiArmed = true) ∧
    ((repeating 0x1E 0x14 { pc := 0x5000, x := 0x8000, s := 0x1234 }).step
      Devices.none).2.cpu.regs.get .x = 0x1234 ∧
    ((repeating 0x1F 0xA8 { pc := 0x4000, cc := { zero := true, carry := true } }).step
      Devices.none).2.cpu.regs.get .a = 0x05 := by
  have hswap : Register.Pair 0x14 .x .s := ⟨rfl, rfl, rfl⟩
  have hcopy : Register.Pair 0xA8 .cc .a := ⟨rfl, rfl, rfl⟩
  obtain ⟨hexchange, -⟩ := transfers_exact Devices.none
    (repeating 0x1E 0x14 { pc := 0x4000, x := 0x1234, s := 0x8000 }) hswap
  obtain ⟨-, hx, hs, -, hnmi, hagain⟩ := hexchange (repeating_takes (by decide))
  obtain ⟨-, htransfer⟩ := transfers_exact Devices.none
    (repeating 0x1F 0xA8 { pc := 0x4000, cc := { zero := true, carry := true } }) hcopy
  obtain ⟨-, ha, -⟩ := htransfer (repeating_takes (by decide))
  have hx' := hx.trans (show _ = (0x8000 : UInt16) from by decide)
  have hs' := hs.trans (show _ = (0x1234 : UInt16) from by decide)
  obtain ⟨hrestored, -⟩ := hagain (repeating 0x1E 0x14 { pc := 0x5000, x := 0x8000, s := 0x1234 })
    (repeating_takes (by decide)) (by rw [hx']; decide) (by rw [hs']; decide)
  exact ⟨⟨hx', hnmi.trans (by decide)⟩, hrestored.trans (by decide), ha.trans (by decide)⟩

end Machine

end Mc6809
