/-
  A run ends, and it ends close to where it was asked to. `Machine.after` follows the steps of
  a run without regard to where it stops; `run_stops` says after which of them it does, what
  it returns then, and that a larger limit on the steps would change nothing, so that the limit
  only makes the loop a definition.

  * A step that succeeds costs at most 20 cycles (`cost_bounds`, by the rows of the tables).
  * It costs none only by taking an interrupt out of CWAI, and CWAI is over after it
    (`step_succeeds`). Neither devices nor the timer's routine can bring it back, since they do
    not reach the processor, so of two successive steps one costs something (`costAt_pos`).
  * Hence the first step at which the run can stop exists (`exists_stop`), and the loop stops
    there (`runSteps_after`). Up to it the cycles counted are fewer than those asked for and 20,
    so that the difference of two clock readings is the true sum, also across a wrap.
-/
import Mathlib.Data.Nat.Find
import Mc6809.Proofs.Cycles

namespace Mc6809

/-! ## Bounds for one instruction -/

theorem maskCycles_le (mask : UInt8) : maskCycles mask ≤ 12 := by
  have hwide : [7, 6, 5, 4].countP mask.toNat.testBit ≤ 4 := List.countP_le_length
  have hnarrow : [3, 2, 1, 0].countP mask.toNat.testBit ≤ 4 := List.countP_le_length
  unfold maskCycles
  omega

/-- The most that an operation can cost by flags and data. -/
def Operation.maxDataCycles : Operation → Nat
  | longBranch _ => 1
  | push _ | pull _ => 12
  | returnFromInterrupt => 9
  | _ => 0

theorem Operation.dataCycles_le (operation : Operation) (cc : Flags) (bytes : List UInt8) :
    operation.dataCycles cc bytes ≤ operation.maxDataCycles := by
  unfold dataCycles
  split
  · show (if _ then 1 else 0) ≤ 1
    split <;> omega
  · exact maskCycles_le _
  · exact maskCycles_le _
  · show (if _ then 9 else 0) ≤ 9
    split <;> omega
  · exact Nat.zero_le _

theorem Postbyte.directCycles_le (mode : IndexedMode) : (directCycles mode).toNat ≤ 5 := by
  cases mode with
  | offset5 => exact (by decide : (1 : UInt8).toNat ≤ 5)
  | _ => decide

theorem Postbyte.extraCycles_le (decoded : Postbyte) : decoded.extraCycles.toNat ≤ 8 := by
  have hdirect := directCycles_le decoded.mode
  unfold extraCycles
  split
  · rw [UInt8.toNat_add]
    have hthree : (3 : UInt8).toNat = 3 := rfl
    omega
  · omega

/-- The most that finding an operand can cost. -/
def AddressingMode.maxOperandCycles : AddressingMode → Nat
  | .indexed => 8
  | _ => 0

theorem AddressingMode.operandCycles_le (mode : AddressingMode) (bytes : List UInt8) :
    mode.operandCycles bytes ≤ mode.maxOperandCycles := by
  unfold operandCycles
  split
  · split
    · exact Postbyte.extraCycles_le _
    · exact Nat.zero_le _
  · exact Nat.zero_le _

namespace Opcode

/-- Every row costs something, and 20 cycles cover it at its dearest. -/
theorem rows_bounds (page : OpcodePage) : ∀ row ∈ rows page, row.2.mnemonic.prefixOf? = none →
    1 ≤ row.2.cycles.toNat ∧ row.2.cycles.toNat + row.2.mode.maxOperandCycles +
      row.2.mnemonic.operation.elim 0 (·.maxDataCycles) ≤ 20 := by
  cases page <;> decide +kernel

/-- A selected entry stands in a table and is no prefix. -/
theorem find?_of_select? {bytes rest : List UInt8} {entry : Entry}
    (h : select? bytes = some (entry, rest)) :
    ∃ page opcode, find? page opcode = some entry ∧ entry.mnemonic.prefixOf? = none := by
  cases bytes with
  | nil => cases h
  | cons first bytes =>
    rw [select?] at h
    obtain ⟨entry', hfind, hselect⟩ := Option.bind_eq_some_iff.mp h
    cases hpage : entry'.mnemonic.prefixOf? with
    | none =>
      simp only [hpage] at hselect
      cases hselect
      exact ⟨.page1, first, hfind, hpage⟩
    | some page =>
      cases bytes with
      | nil => simp only [hpage] at hselect; cases hselect
      | cons opcode bytes =>
        simp only [hpage] at hselect
        obtain ⟨entry, hfind', hselect⟩ := Option.map_eq_some_iff.mp hselect
        cases hselect
        have hne := Mnemonic.ne_page1_of_prefixOf? hpage
        exact ⟨page, opcode, hfind', Action.plain_of_find? hne hfind'⟩

theorem cost_bounds {bytes rest : List UInt8} {entry : Entry}
    (h : select? bytes = some (entry, rest)) (cc : Flags) :
    1 ≤ entry.cost cc rest ∧ entry.cost cc rest ≤ 20 := by
  obtain ⟨page, opcode, hfind, hplain⟩ := find?_of_select? h
  obtain ⟨hpos, hle⟩ := rows_bounds page _ (mem_rows_of_find? hfind) hplain
  have hoperand := entry.mode.operandCycles_le rest
  have hdata : entry.mnemonic.operation.elim 0 (·.dataCycles cc rest) ≤
      entry.mnemonic.operation.elim 0 (·.maxDataCycles) := by
    cases entry.mnemonic.operation with
    | none => exact Nat.le_refl 0
    | some operation => exact operation.dataCycles_le cc rest
  unfold Entry.cost
  dsimp only at hpos hle
  omega

end Opcode

namespace Action

/-! ## Bounds for one step -/

/-- Of the costs of a step that succeeds only that of an interrupt out of CWAI is zero. -/
theorem stepCost?_bounds {lines : InterruptLines} {cpu : Cpu} {bytes : List UInt8} {cost : Nat}
    (h : stepCost? lines cpu bytes (.ok ()) = some cost) :
    cost ≤ 20 ∧ (cost = 0 → cpu.cwai ∧ (pending? lines (sampled lines cpu)).isSome) := by
  unfold stepCost? at h
  dsimp only at h
  split at h
  · next interrupt hpending =>
    cases h
    by_cases hcwai : cpu.cwai
    · rw [if_pos hcwai]
      exact ⟨by omega, fun _ => ⟨hcwai, by rw [hpending]; rfl⟩⟩
    · rw [if_neg hcwai]
      cases interrupt <;> exact ⟨by decide, fun hzero => absurd hzero (by decide)⟩
  · split at h
    · cases h
      exact ⟨by omega, fun hzero => absurd hzero (by decide)⟩
    · obtain ⟨⟨entry, rest⟩, hselect, rfl⟩ := Option.map_eq_some_iff.mp h
      obtain ⟨hpos, hle⟩ := Opcode.cost_bounds hselect cpu.regs.cc
      exact ⟨hle, fun hzero => (Nat.ne_of_gt hpos hzero).elim⟩

/-- Servicing an interrupt ends CWAI. -/
theorem cwai_of_service {interrupt : Interrupt} {cpu cpu' : Cpu} {w : List Exchange}
    (h : (service interrupt).Ends cpu w (.ok ()) cpu') : cpu'.cwai = false := by
  rw [service_eq] at h
  obtain ⟨handler, mid, _, _, rfl, -, henter⟩ := ends_bind_ok.mp h
  unfold enter at henter
  obtain ⟨_, _, _, _, rfl, hleave, hrest⟩ := ends_bind_ok.mp henter
  obtain ⟨rfl, -, rfl⟩ := ends_modify.mp hleave
  exact (Law.keeps Cpu.cwai).of_returned hrest

/-- What a step that succeeds does to the clock and to CWAI. -/
theorem step_succeeds {lines : InterruptLines} {cpu cpu' : Cpu} {w : List Exchange}
    (h : (step lines).Ends cpu w (.ok ()) cpu') :
    ∃ cost, stepCost? lines cpu (readBytes w) (.ok ()) = some cost ∧ cost ≤ 20 ∧
      cpu'.clock = cpu.clock + .ofNat cost ∧ (cost = 0 → cpu.cwai ∧ cpu'.cwai = false) := by
  obtain ⟨cost, hcost, hclock⟩ := clock_step h
  obtain ⟨hle, hzero⟩ := stepCost?_bounds hcost
  refine ⟨cost, hcost, hle, hclock, fun hcost => ?_⟩
  obtain ⟨hcwai, hpending⟩ := hzero hcost
  obtain ⟨interrupt, hpending⟩ := Option.isSome_iff_exists.mp hpending
  rw [Ends, start_step, hpending] at h
  exact ⟨hcwai, cwai_of_service h⟩

end Action

namespace Machine

variable {σ : Type} (devices : Devices σ) (m : Machine σ)

/-! ## Steps of a run -/

/-- The cycles of a step. -/
def cost : Nat := (m.stepCost? devices).getD 0

theorem step_advances (h : (m.step devices).1 = .ok ()) :
    m.cost devices ≤ 20 ∧
      (m.step devices).2.cpu.clock = m.cpu.clock + .ofNat (m.cost devices) ∧
      (m.cost devices = 0 → m.cpu.cwai ∧ (m.step devices).2.cpu.cwai = false) := by
  obtain ⟨cpu, houtcome, log, hstep⟩ | ⟨fault, _, -, log, hstep⟩ | ⟨fault, -, log, hstep⟩ :=
    m.step_cases devices
  · obtain ⟨cost, hcost, hle, hclock, hzero⟩ :=
      Action.step_succeeds (m.course_ends devices houtcome)
    have hcost' : m.cost devices = cost := by
      unfold Machine.cost stepCost?
      rw [h, hcost]
      rfl
    rw [hcost', hstep]
    exact ⟨hle, hclock, hzero⟩
  · rw [hstep] at h
    cases h
  · rw [hstep] at h
    cases h

/-- The timer's routine does not reach the processor. -/
theorem advanceTimer_cpu (elapsed : UInt64) : (m.advanceTimer devices elapsed).cpu = m.cpu := by
  unfold advanceTimer
  split <;> rfl

theorem timedStep_cpu : (m.timedStep devices).2.cpu = (m.step devices).2.cpu :=
  advanceTimer_cpu devices _ _

/-- The machine after so many steps of a run, whatever came of them. -/
def after : Nat → Machine σ
  | 0 => m
  | n + 1 => ((after n).timedStep devices).2

/-- How step `n` of a run ends, counted from zero. -/
def result (n : Nat) : Except Fault Unit := ((m.after devices n).timedStep devices).1

/-- The cycles of the first steps of a run. -/
def totalCost : Nat → Nat
  | 0 => 0
  | n + 1 => totalCost n + (m.after devices n).cost devices

/-- While the steps succeed, the clock shows what they cost. -/
theorem clock_after {n : Nat} (h : ∀ i < n, m.result devices i = .ok ()) :
    (m.after devices n).cpu.clock = m.cpu.clock + .ofNat (m.totalCost devices n) := by
  induction n with
  | zero => exact (UInt64.add_zero _).symm
  | succ n ih =>
    have hbefore := ih fun i hi => h i (by omega)
    obtain ⟨-, hclock, -⟩ := (m.after devices n).step_advances devices (h n (by omega))
    rw [totalCost, UInt64.ofNat_add, ← UInt64.add_assoc, ← hbefore, ← hclock]
    exact congrArg Cpu.clock (timedStep_cpu devices _)

/-- Of two successive steps that succeed one costs something. -/
theorem cost_succ_pos {n : Nat} (h : m.result devices n = .ok ())
    (hnext : m.result devices (n + 1) = .ok ()) (hzero : (m.after devices n).cost devices = 0) :
    1 ≤ (m.after devices (n + 1)).cost devices := by
  obtain ⟨-, -, hleft⟩ := (m.after devices n).step_advances devices h
  obtain ⟨-, -, hright⟩ := (m.after devices (n + 1)).step_advances devices hnext
  have hcwai : (m.after devices (n + 1)).cpu.cwai = false := by
    rw [after, timedStep_cpu]
    exact (hleft hzero).2
  by_contra hlt
  have hset := (hright (by omega)).1
  rw [hcwai] at hset
  cases hset

/-- Two steps for each cycle are enough. -/
theorem le_totalCost {n : Nat} (h : ∀ i < 2 * n, m.result devices i = .ok ()) :
    n ≤ m.totalCost devices (2 * n) := by
  induction n with
  | zero => exact Nat.zero_le _
  | succ n ih =>
    have hbefore := ih fun i hi => h i (by omega)
    have hpair : 1 ≤ (m.after devices (2 * n)).cost devices +
        (m.after devices (2 * n + 1)).cost devices := by
      have hpos := m.cost_succ_pos devices (h (2 * n) (by omega)) (h (2 * n + 1) (by omega))
      omega
    have htwo : 2 * (n + 1) = 2 * n + 1 + 1 := by omega
    rw [htwo, totalCost, totalCost]
    omega

/-! ## Where a run stops -/

variable (cycles : UInt64)

/-- A run for so many cycles can stop with step `n`: the step fails, or the cycles are used
up after it. -/
def StopsWith (n : Nat) : Prop :=
  m.result devices n = .ok () → cycles.toNat ≤ m.totalCost devices (n + 1)

theorem exists_stop : ∃ n, n < max 1 (2 * cycles.toNat) ∧ m.StopsWith devices cycles n := by
  by_contra hnone
  have hgo : ∀ n < max 1 (2 * cycles.toNat), m.result devices n = .ok () ∧
      m.totalCost devices (n + 1) < cycles.toNat := by
    intro n hn
    by_contra hstop
    refine hnone ⟨n, hn, fun hok => ?_⟩
    by_contra hlt
    exact hstop ⟨hok, by omega⟩
  have hfirst := (hgo 0 (by omega)).2
  have henough : cycles.toNat ≤ m.totalCost devices (2 * cycles.toNat) :=
    m.le_totalCost devices fun i hi => (hgo i (by omega)).1
  have hlast := (hgo (2 * cycles.toNat - 1) (by omega)).2
  have hcount : 2 * cycles.toNat - 1 + 1 = 2 * cycles.toNat := by omega
  rw [hcount] at hlast
  omega

/-- What a run returns that stops with step `n`. -/
def outcome (n : Nat) : Except Fault UInt64 :=
  (m.result devices n).map fun _ => .ofNat (m.totalCost devices (n + 1))

variable {cycles}

/-- The cycles counted when a run has not stopped before step `n` and the step succeeds. -/
theorem totalCost_succ_lt {n : Nat} (hgo : ∀ i < n, ¬ m.StopsWith devices cycles i)
    (hok : m.result devices n = .ok ()) :
    m.totalCost devices (n + 1) ≤ max cycles.toNat 1 + 19 := by
  have hlast := ((m.after devices n).step_advances devices hok).1
  rw [totalCost]
  cases n with
  | zero =>
    have hzero : m.totalCost devices 0 = 0 := rfl
    omega
  | succ n =>
    have hlt : m.totalCost devices (n + 1) < cycles.toNat := by
      by_contra hle
      exact hgo n (by omega) fun _ => by omega
    omega

/-- The cycles counted fit into the clock. -/
theorem toNat_ofNat_of_le {n : Nat} (hcycles : cycles.toNat ≤ UInt64.size - 20)
    (h : n ≤ max cycles.toNat 1 + 19) : (UInt64.ofNat n).toNat = n := by
  have hsize : UInt64.size = 18446744073709551616 := rfl
  exact UInt64.toNat_ofNat_of_lt' (by omega)

/-- The loop runs through the steps with which it cannot stop, and stops with the first with
which it can. -/
theorem runSteps_after {k : Nat} (hcycles : cycles.toNat ≤ UInt64.size - 20)
    (hstop : m.StopsWith devices cycles k) (hgo : ∀ i < k, ¬ m.StopsWith devices cycles i)
    {limit j : Nat} (hj : j ≤ k) (hlimit : k < j + limit) :
    (m.after devices j).runSteps devices cycles m.cpu.clock limit =
      (some (m.outcome devices k), m.after devices (k + 1)) := by
  induction limit generalizing j with
  | zero => omega
  | succ limit ih =>
    have hbefore : ∀ i < j, ¬ m.StopsWith devices cycles i := fun i hi => hgo i (by omega)
    have hlast : m.StopsWith devices cycles j → j = k := by
      intro hstops
      by_contra hne
      exact hgo j (by omega) hstops
    have hpair : (m.after devices j).timedStep devices =
        (m.result devices j, m.after devices (j + 1)) := rfl
    rw [runSteps, hpair]
    cases hresult : m.result devices j with
    | error fault =>
      obtain rfl := hlast fun hok => by rw [hresult] at hok; cases hok
      unfold outcome
      rw [hresult]
      rfl
    | ok _ =>
      have hsucceeds : ∀ i < j + 1, m.result devices i = .ok () := by
        intro i hi
        by_cases hij : i = j
        · rw [hij, hresult]
        · exact (Classical.not_imp.mp (hbefore i (by omega))).1
      have helapsed : (m.after devices (j + 1)).cpu.clock - m.cpu.clock =
          .ofNat (m.totalCost devices (j + 1)) := by
        rw [m.clock_after devices hsucceeds, UInt64.add_comm, UInt64.add_sub_cancel]
      have hbound := m.totalCost_succ_lt devices hbefore hresult
      have hiff : cycles ≤ .ofNat (m.totalCost devices (j + 1)) ↔
          cycles.toNat ≤ m.totalCost devices (j + 1) := by
        rw [UInt64.le_iff_toNat_le, toNat_ofNat_of_le hcycles hbound]
      dsimp only
      rw [helapsed]
      by_cases henough : cycles.toNat ≤ m.totalCost devices (j + 1)
      · obtain rfl := hlast fun _ => henough
        rw [if_pos (hiff.mpr henough)]
        unfold outcome
        rw [hresult]
        rfl
      · rw [if_neg fun hle => henough (hiff.mp hle)]
        have hne : j ≠ k := by
          rintro rfl
          exact henough (hstop hresult)
        exact ih (by omega) (by omega)

/-- A run for at most 2^64 - 20 cycles stops after one step at least and two for each cycle at
most, and a larger limit on the steps changes nothing. Every step before its last one
succeeds. If the last one fails, the run returns its fault; else it returns the true sum of the
costs of its steps, which is what was asked for and at most 19 cycles more. -/
theorem run_stops (cycles : UInt64) (hcycles : cycles.toNat ≤ UInt64.size - 20) :
    ∃ steps outcome, 1 ≤ steps ∧ steps ≤ max 1 (2 * cycles.toNat) ∧
      m.run devices cycles = (some outcome, m.after devices steps) ∧
      (∀ limit, steps ≤ limit → m.runSteps devices cycles m.cpu.clock limit =
        (some outcome, m.after devices steps)) ∧
      (∀ i, i + 1 < steps → m.result devices i = .ok ()) ∧
      (∀ fault, outcome = .error fault → m.result devices (steps - 1) = .error fault) ∧
      (∀ n, outcome = .ok n → m.result devices (steps - 1) = .ok () ∧
        n.toNat = m.totalCost devices steps ∧ cycles.toNat ≤ n.toNat ∧
        n.toNat ≤ max cycles.toNat 1 + 19) ∧
      (∀ i, m.result devices i = .ok () → m.result devices (i + 1) = .ok () →
        ¬ ((m.after devices i).cost devices = 0 ∧ (m.after devices (i + 1)).cost devices = 0)) := by
  classical
  have hexists := m.exists_stop devices cycles
  obtain ⟨hbound, hstop⟩ := Nat.find_spec hexists
  have hgo : ∀ i < Nat.find hexists, ¬ m.StopsWith devices cycles i := by
    intro i hi hstops
    exact Nat.find_min hexists hi ⟨by omega, hstops⟩
  generalize Nat.find hexists = k at hbound hstop hgo
  have hrun : ∀ limit, k + 1 ≤ limit → m.runSteps devices cycles m.cpu.clock limit =
      (some (m.outcome devices k), m.after devices (k + 1)) := by
    intro limit hlimit
    exact m.runSteps_after devices hcycles hstop hgo (Nat.zero_le k) (by omega)
  refine ⟨k + 1, m.outcome devices k, by omega, by omega, hrun _ (by omega), hrun, ?_, ?_, ?_, ?_⟩
  · intro i hi
    exact (Classical.not_imp.mp (hgo i (by omega))).1
  · intro fault hfault
    unfold outcome at hfault
    cases hresult : m.result devices k with
    | error _ =>
      rw [hresult] at hfault
      cases hfault
      exact hresult
    | ok _ =>
      rw [hresult] at hfault
      cases hfault
  · intro n hn
    unfold outcome at hn
    cases hresult : m.result devices k with
    | error _ =>
      rw [hresult] at hn
      cases hn
    | ok _ =>
      rw [hresult] at hn
      cases hn
      have hle := m.totalCost_succ_lt devices hgo hresult
      rw [toNat_ofNat_of_le hcycles hle]
      exact ⟨hresult, rfl, hstop hresult, hle⟩
  · intro i hok hnext hzero
    have hpos := m.cost_succ_pos devices hok hnext hzero.1
    omega

/-- A processor on one page of memory that starts with a branch to itself. -/
def spin : Machine Unit where
  bus := {
    pages := PageTable.unmapped.update 0 (·.putView .readWrite (some ⟨⟨0⟩, 0⟩))
    store := ⟨#[#[0x20, 0xFE] ++ Array.replicate 254 0]⟩
    devices := () }

theorem run_stops_spin : ∃ steps, 1 ≤ steps ∧ steps ≤ 20 ∧
    spin.run Devices.none 10 = (some (.ok 12), spin.after Devices.none steps) ∧
    spin.totalCost Devices.none steps = 12 := by
  obtain ⟨steps, outcome, hpos, hle, hrun, -, -, -, hok, -⟩ :=
    spin.run_stops Devices.none 10 (by decide)
  have hvalue : (spin.run Devices.none 10).1 = some (.ok 12) := by decide +kernel
  rw [hrun] at hvalue
  cases hvalue
  obtain ⟨-, htotal, -, -⟩ := hok 12 rfl
  exact ⟨steps, hpos, hle, hrun, htotal.symm⟩

end Machine

end Mc6809
