/-
  What a run of the emulator reports. The clock advances by what the steps of the run cost, which is
  what was asked for or at most 19 cycles more, and the report is that number in 32 bits. So it is
  the true one exactly for runs of fewer than 2^32 cycles (`run_reports_iff`).

  Runs that are longer exist. A loop of fifteen multiplications and a branch takes 168 cycles, of
  which eleven or three fall to an instruction (`loopCycles`), and its machines are known at every
  step (`Machine.InLoop.after`). Started behind its first instruction, a run for the 2^32 - 1
  cycles that a host can ask for at most ends after 2^32, and reports none (`run_loses_cycles`).
-/
import Mc6809.Proofs.FlatEmulator

namespace Mc6809

/-! ## A loop -/

/-- Fifteen multiplications, and a branch back to the first. -/
def multiplyLoop : List UInt8 := List.replicate 15 0x3D ++ [0x20, 0xEF]

/-- The cycles of the first `n` instructions of the loop: eleven for each, but three for every
sixteenth. -/
def loopCycles (n : Nat) : Nat := 11 * n - 8 * (n / 16)

namespace Machine

variable {σ : Type} (devices : Devices σ) {m : Machine σ} {block : BlockId} {n : Nat}

/-- So many instructions into the loop, the machine stands before the next one, with all lines
released. -/
structure InLoop (m : Machine σ) (block : BlockId) (n : Nat) : Prop where
  ram : m.OnRam block
  code : ∀ i < 17, multiplyLoop[i]? = some (m.bus.memory (0x4000 + .ofNat i))
  pc : m.cpu.regs.pc = 0x4000 + .ofNat (n % 16)
  lines : m.bus.lines = {}
  cwai : m.cpu.cwai = false
  sync : m.cpu.sync = false

/-- The clock shows what a step has cost. -/
theorem cost_of_clock (h : (m.step devices).1 = .ok ()) {cost : Nat} (hcost : cost ≤ 20)
    (hclock : (m.step devices).2.cpu.clock = m.cpu.clock + .ofNat cost) :
    m.cost devices = cost := by
  obtain ⟨hle, hadvanced, -⟩ := m.step_advances devices h
  have hsame : UInt64.ofNat (m.cost devices) = .ofNat cost := by
    rw [hadvanced] at hclock
    grind
  have hsize : UInt64.size = 18446744073709551616 := rfl
  have htoNat (cycles : Nat) (hle : cycles ≤ 20) : (UInt64.ofNat cycles).toNat = cycles :=
    UInt64.toNat_ofNat_of_lt' (by omega)
  rw [← htoNat _ hle, hsame, htoNat _ hcost]

namespace InLoop

/-- The byte at PC. -/
theorem memory_pc (h : m.InLoop block n) :
    multiplyLoop[n % 16]? = some (m.bus.memory m.cpu.regs.pc) := by
  rw [h.pc]
  exact h.code (n % 16) (by omega)

/-- A step that leaves the memory alone, stays awake and goes on at the next instruction stays in
the loop. -/
theorem next (h : m.InLoop block n) (hmemory : (m.step devices).2.bus.memory = m.bus.memory)
    (hpc : (m.step devices).2.cpu.regs.pc = 0x4000 + .ofNat ((n + 1) % 16))
    (hcwai : (m.step devices).2.cpu.cwai = false) (hsync : (m.step devices).2.cpu.sync = false) :
    (m.step devices).2.InLoop block (n + 1) where
  ram := h.ram.step devices
  code := by
    rw [hmemory]
    exact h.code
  pc := hpc
  lines := by
    rw [step_bus]
    exact Traffic.course_released devices _ h.ram.isFlat h.lines
  cwai := hcwai
  sync := hsync

theorem step_multiply (h : m.InLoop block n) (hn : n % 16 < 15) :
    (m.step devices).1 = .ok () ∧ m.cost devices = 11 ∧
      (m.step devices).2.InLoop block (n + 1) := by
  have hmultiply : ∀ i < 15, multiplyLoop[i]? = some 0x3D := by decide
  have hbyte : m.bus.memory m.cpu.regs.pc = 0x3D :=
    Option.some.inj (h.memory_pc.symm.trans (hmultiply _ hn))
  have hcode : m.Executes (OpcodePage.page1.code 0x3D ++ []) :=
    executes_of_released h.lines h.cwai h.sync (congrArg (fun byte => [byte]) hbyte)
  have hfind : Opcode.find? .page1 0x3D = some ⟨.mul, .inherent, 11, 1⟩ := by
    rw [Opcode.find?_eq_lookup]
    rfl
  have hoperation : Mnemonic.mul.operation = some .multiply := rfl
  obtain ⟨hok, hcpu, -, hmemory⟩ :=
    step_of_executes devices h.ram.isFlat hcode hfind hoperation rfl
  refine ⟨hok, cost_of_clock devices hok (by decide) ?_, h.next devices hmemory ?_ ?_ ?_⟩
  · rw [hcpu]
    rfl
  · have hnext : (n + 1) % 16 = n % 16 + 1 := by omega
    rw [hcpu, hnext, UInt16.ofNat_add, ← UInt16.add_assoc, ← h.pc]
    rfl
  · rw [hcpu]
    exact h.cwai
  · rw [hcpu]

theorem step_branch (h : m.InLoop block n) (hn : n % 16 = 15) :
    (m.step devices).1 = .ok () ∧ m.cost devices = 3 ∧
      (m.step devices).2.InLoop block (n + 1) := by
  have hbranch : multiplyLoop[15]? = some 0x20 ∧ multiplyLoop[16]? = some 0xEF := by decide
  have hpc : m.cpu.regs.pc = 0x400F := by
    rw [h.pc, hn]
    rfl
  have hopcode : m.bus.memory 0x400F = 0x20 :=
    Option.some.inj ((h.code 15 (by decide)).symm.trans hbranch.1)
  have hoffset : m.bus.memory 0x4010 = 0xEF :=
    Option.some.inj ((h.code 16 (by decide)).symm.trans hbranch.2)
  have hslice : m.bus.memory.slice m.cpu.regs.pc 2 = [0x20, 0xEF] := by
    rw [hpc]
    show [m.bus.memory 0x400F, m.bus.memory 0x4010] = _
    rw [hopcode, hoffset]
  have hcode : m.Executes (OpcodePage.page1.code 0x20 ++ [0xEF]) :=
    executes_of_released h.lines h.cwai h.sync hslice
  have hfind : Opcode.find? .page1 0x20 = some ⟨.bra, .relative, 3, 2⟩ := by
    rw [Opcode.find?_eq_lookup]
    rfl
  have hoperation : Mnemonic.bra.operation = some (.branch .always) := rfl
  obtain ⟨hok, hcpu, -, hmemory⟩ :=
    step_of_executes devices h.ram.isFlat hcode hfind hoperation rfl
  refine ⟨hok, cost_of_clock devices hok (by decide) ?_, h.next devices hmemory ?_ ?_ ?_⟩
  · rw [hcpu]
    rfl
  · have hfirst : (n + 1) % 16 = 0 := by omega
    rw [hcpu, hfirst]
    show m.cpu.regs.pc + 1 + 1 + signExtend (m.bus.memory (m.cpu.regs.pc + 1)) = 0x4000
    rw [hpc]
    show 0x4011 + signExtend (m.bus.memory 0x4010) = (0x4000 : UInt16)
    rw [hoffset]
    decide
  · rw [hcpu]
    exact h.cwai
  · rw [hcpu]

/-- A step in the loop succeeds, costs what its instruction costs, and leads to the next one. -/
theorem step (h : m.InLoop block n) :
    (m.step devices).1 = .ok () ∧ m.cost devices + loopCycles n = loopCycles (n + 1) ∧
      (m.step devices).2.InLoop block (n + 1) := by
  obtain hlt | hlast : n % 16 < 15 ∨ n % 16 = 15 := by omega
  · obtain ⟨hok, hcost, hnext⟩ := h.step_multiply devices hlt
    refine ⟨hok, ?_, hnext⟩
    rw [hcost]
    unfold loopCycles
    omega
  · obtain ⟨hok, hcost, hnext⟩ := h.step_branch devices hlast
    refine ⟨hok, ?_, hnext⟩
    rw [hcost]
    unfold loopCycles
    omega

/-- So a run stays in the loop and succeeds, and its costs add up to those of the loop. -/
theorem after (h : m.InLoop block n) (k : Nat) :
    (m.after devices k).InLoop block (n + k) ∧ m.result devices k = .ok () ∧
      m.totalCost devices k + loopCycles n = loopCycles (n + k) := by
  have hstepped {other : Machine σ} {p : Nat} (hother : other.InLoop block p) :
      other.timedStep devices = other.step devices := timedStep_of_untimed hother.ram.untimed
  have hsucceeds {other : Machine σ} {p : Nat} (hother : other.InLoop block p) :
      (other.timedStep devices).1 = .ok () := by
    rw [hstepped hother]
    exact (hother.step devices).1
  induction k with
  | zero => exact ⟨h, hsucceeds h, Nat.zero_add _⟩
  | succ k ih =>
    obtain ⟨hloop, -, htotal⟩ := ih
    obtain ⟨-, hcost, hnext⟩ := hloop.step devices
    rw [← hstepped hloop] at hnext
    refine ⟨hnext, hsucceeds hnext, ?_⟩
    rw [totalCost, ← Nat.add_assoc n]
    omega

/-- Where a run in the loop stops. -/
theorem stopsFirst (h : m.InLoop block n) {cycles : UInt64} {k : Nat}
    (hbefore : loopCycles (n + k) < cycles.toNat + loopCycles n)
    (hafter : cycles.toNat + loopCycles n ≤ loopCycles (n + k + 1)) :
    m.StopsFirst devices cycles k where
  stops _ := by
    obtain ⟨-, -, htotal⟩ := h.after devices (k + 1)
    rw [← Nat.add_assoc] at htotal
    omega
  goes i hi hstops := by
    obtain ⟨-, hok, -⟩ := h.after devices i
    obtain ⟨-, -, htotal⟩ := h.after devices (i + 1)
    have henough := hstops hok
    have hmono : loopCycles (n + (i + 1)) ≤ loopCycles (n + k) := by
      unfold loopCycles
      omega
    omega

end InLoop

end Machine

namespace Emulator

variable {e : Emulator}

/-! ## The loop on the emulator -/

/-- What a run in the loop reports, and where it leads. -/
theorem run_inLoop {n : Nat} (h : e.machine.InLoop ram n) (cycles : UInt32) (k : Nat)
    (hbefore : loopCycles (n + k) < cycles.toNat + loopCycles n)
    (hafter : cycles.toNat + loopCycles n ≤ loopCycles (n + k + 1)) :
    (e.run cycles).1 = some (.ok (.ofNat (loopCycles (n + k + 1) - loopCycles n))) ∧
      (e.run cycles).2.machine.InLoop ram (n + k + 1) ∧
      (e.run cycles).2.machine.cpu.clock - e.machine.cpu.clock =
        .ofNat (loopCycles (n + k + 1) - loopCycles n) := by
  rw [← UInt32.toNat_toUInt64] at hbefore hafter
  have hstop := h.stopsFirst Devices.none hbefore hafter
  obtain ⟨hreturned, log, hlast⟩ := run_of_stopsFirst hstop
  obtain ⟨hloop, -, htotal⟩ := h.after Devices.none (k + 1)
  have htotal' : e.machine.totalCost Devices.none (k + 1) =
      loopCycles (n + k + 1) - loopCycles n := by
    rw [← Nat.add_assoc] at htotal
    omega
  refine ⟨?_, ?_, ?_⟩
  · rw [hreturned, Machine.outcome, (h.after Devices.none k).2.1, htotal']
    exact congrArg (fun returned => some (Except.ok returned)) (UInt64.toUInt32_ofNat' ..)
  · rw [hlast]
    exact ⟨⟨hloop.ram.pages, hloop.ram.length, hloop.ram.untimed⟩, hloop.code, hloop.pc,
      hloop.lines, hloop.cwai, hloop.sync⟩
  · rw [hlast]
    dsimp only
    rw [e.machine.clock_after Devices.none fun i _ => (h.after Devices.none i).2.1, htotal',
      UInt64.add_comm, UInt64.add_sub_cancel]

/-- Loading a program moves PC, and no line. -/
theorem loadProgram_frame (e : Emulator) (program : List UInt8) (start : UInt16) :
    (e.loadProgram program start).machine.cpu = { e.machine.cpu with regs.pc := start } ∧
      (e.loadProgram program start).machine.bus.lines = e.machine.bus.lines := ⟨rfl, rfl⟩

/-- Loading the program leads to the start of the loop. -/
theorem inLoop_loaded : (new.loadProgram multiplyLoop 0x4000).machine.InLoop ram 0 := by
  obtain ⟨hnew, -, hcpu, hlines⟩ := new_spec
  obtain ⟨hram, hmemory⟩ := loadProgram_spec hnew multiplyLoop 0x4000
  rw [readMemory_eq hram] at hmemory
  obtain ⟨hcpu', hlines'⟩ := loadProgram_frame new multiplyLoop 0x4000
  rw [hcpu] at hcpu'
  have hfar : ∀ i < 17, (0x4000 + .ofNat i : UInt16) ≠ 0xFFFE ∧
      (0x4000 + .ofNat i : UInt16) ≠ 0xFFFF := by
    decide
  refine ⟨hram, fun i hi => ?_, congrArg (·.regs.pc) hcpu', hlines'.trans hlines,
    congrArg Cpu.cwai hcpu', congrArg Cpu.sync hcpu'⟩
  rw [hmemory, Memory.set_of_ne _ _ (hfar i hi).2, Memory.set_of_ne _ _ (hfar i hi).1,
    Memory.load_apply _ _ _ (by decide) hi]
  exact List.getElem?_eq_getElem hi

/-- The first run: one multiplication. -/
theorem run_first : ((new.loadProgram multiplyLoop 0x4000).run 1).1 = some (.ok 11) ∧
    ((new.loadProgram multiplyLoop 0x4000).run 1).2.machine.InLoop ram 1 := by
  obtain ⟨hreturned, hloop, -⟩ := run_inLoop inLoop_loaded 1 0 (by decide) (by decide)
  exact ⟨hreturned, hloop⟩

/-! ## The report -/

variable {cycles n : UInt32}

/-- A run that returns has returned the cycles that its steps cost, in 32 bits. -/
theorem run_ok (h : (e.run cycles).1 = some (.ok n)) : ∃ k,
    e.machine.StopsFirst Devices.none cycles.toUInt64 k ∧ e.machine.result Devices.none k = .ok () ∧
      n = (UInt64.ofNat (e.machine.totalCost Devices.none (k + 1))).toUInt32 := by
  obtain ⟨k, hstop⟩ := e.machine.exists_stopsFirst Devices.none cycles.toUInt64
  rw [(run_of_stopsFirst hstop).1] at h
  refine ⟨k, hstop, ?_⟩
  cases houtcome : e.machine.outcome Devices.none k with
  | ok total =>
    rw [houtcome] at h
    cases h
    obtain ⟨hok, rfl⟩ := Machine.outcome_eq_ok houtcome
    exact ⟨hok, rfl⟩
  | error fault =>
    rw [houtcome] at h
    cases h

/-- The clock has advanced by what the steps of the run cost. -/
theorem advanced_of_run (h : (e.run cycles).1 = some (.ok n)) : ∃ steps, 1 ≤ steps ∧
    (∀ i < steps, e.machine.result Devices.none i = .ok ()) ∧
    (e.run cycles).2.machine.cpu = (e.machine.after Devices.none steps).cpu ∧
    ((e.run cycles).2.machine.cpu.clock - e.machine.cpu.clock).toNat =
      e.machine.totalCost Devices.none steps ∧
    cycles.toNat ≤ e.machine.totalCost Devices.none steps ∧
    e.machine.totalCost Devices.none steps ≤ max cycles.toNat 1 + 19 ∧
    n.toNat = e.machine.totalCost Devices.none steps % 4294967296 := by
  obtain ⟨k, hstop, hok, hn⟩ := run_ok h
  obtain ⟨-, log, hlast⟩ := run_of_stopsFirst hstop
  have hsucceeds : ∀ i < k + 1, e.machine.result Devices.none i = .ok () := by
    intro i hi
    obtain hlt | rfl := Nat.lt_succ_iff_lt_or_eq.mp hi
    · exact hstop.ok_of_lt hlt
    · exact hok
  have hle := e.machine.totalCost_succ_lt Devices.none hstop.goes hok
  have htotal := Machine.toNat_ofNat_of_le (toNat_cycles_le cycles) hle
  have hstops := hstop.stops hok
  rw [UInt32.toNat_toUInt64] at hle hstops
  have hcpu : (e.run cycles).2.machine.cpu = (e.machine.after Devices.none (k + 1)).cpu := by
    rw [hlast]
  refine ⟨k + 1, Nat.succ_pos k, hsucceeds, hcpu, ?_, hstops, hle, ?_⟩
  · rw [hcpu, e.machine.clock_after Devices.none hsucceeds, UInt64.add_comm,
      UInt64.add_sub_cancel, htotal]
  · rw [hn, UInt64.toNat_toUInt32, htotal]

/-- A run that returns `n` has advanced the clock by what its steps cost, and by as much as was
asked for at least and at most 19 cycles more. The number `n` is the low 32 bits of that. So it is
the true number of cycles, and not less than was asked for, exactly if fewer than 2^32 have
passed. -/
theorem run_reports_iff (h : (e.run cycles).1 = some (.ok n)) :
    let advanced := ((e.run cycles).2.machine.cpu.clock - e.machine.cpu.clock).toNat
    (∃ steps, 1 ≤ steps ∧ (∀ i < steps, e.machine.result Devices.none i = .ok ()) ∧
      (e.run cycles).2.machine.cpu = (e.machine.after Devices.none steps).cpu ∧
      advanced = e.machine.totalCost Devices.none steps) ∧
    cycles.toNat ≤ advanced ∧ advanced ≤ max cycles.toNat 1 + 19 ∧
    n.toNat = advanced % 4294967296 ∧
    (n.toNat = advanced ∧ cycles ≤ n ↔ advanced < 4294967296) := by
  obtain ⟨steps, hpos, hsucceeds, hcpu, hadvanced, hle, hlt, hn⟩ := advanced_of_run h
  intro advanced
  rw [← hadvanced] at hle hlt hn
  refine ⟨⟨steps, hpos, hsucceeds, hcpu, hadvanced⟩, hle, hlt, hn, ?_⟩
  rw [UInt32.le_iff_toNat_le]
  omega

theorem run_reports_iff_first : ((new.loadProgram multiplyLoop 0x4000).run 1).1 = some (.ok 11) ∧
    (((new.loadProgram multiplyLoop 0x4000).run 1).2.machine.cpu.clock -
      (new.loadProgram multiplyLoop 0x4000).machine.cpu.clock).toNat = 11 := by
  obtain ⟨hreturned, -⟩ := run_first
  obtain ⟨-, -, hle, -, hiff⟩ := run_reports_iff hreturned
  have hone : (1 : UInt32).toNat = 1 := rfl
  have heleven : (11 : UInt32).toNat = 11 := rfl
  exact ⟨hreturned, ((hiff.mpr (by omega)).1.symm).trans heleven⟩

/-- The next run, for as many cycles as a host can ask for, takes 2^32 of them and reports none. -/
theorem run_loses_cycles :
    let e := ((new.loadProgram multiplyLoop 0x4000).run 1).2
    (e.run 4294967295).1 = some (.ok 0) ∧
      ((e.run 4294967295).2.machine.cpu.clock - e.machine.cpu.clock).toNat = 4294967296 := by
  intro e
  obtain ⟨hreturned, -, hclock⟩ := run_inLoop run_first.2 4294967295 409044503 (by decide)
    (by decide)
  refine ⟨hreturned, ?_⟩
  rw [hclock]
  rfl

end Emulator

end Mc6809
