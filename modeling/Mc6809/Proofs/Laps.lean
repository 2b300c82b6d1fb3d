/-
  A run in laps is a run. If the first steps of a run succeed and lead back to where it began
  (`Machine.Lap`), then its machines come round with them, later each time by what the lap costs,
  since nothing that a step does depends on the clock. So a run for more cycles than some laps
  cost goes through them (`Lap.mul_le`), and leaping over them leads to the machine that it finds
  behind them. What is left is the same run (`runInLaps_eq`); only what the steps in between
  have reported is missing from the log.
-/
import Mc6809.Proofs.Split
import Mc6809.Proofs.Timeless

namespace Mc6809.Machine

variable {σ : Type} (devices : Devices σ) (m : Machine σ)

/-! ## Laps -/

/-- So many steps succeed and lead back to where they began, later by what they cost. -/
structure Lap (steps : Nat) : Prop where
  succeeds : ∀ i < steps, m.result devices i = .ok ()
  closes : Later (.ofNat (m.totalCost devices steps)) m (m.after devices steps)

/-- A run whose steps have succeeded and that stands where it began has completed a lap. -/
theorem lap_of_standsLike [DecidableEq σ] {steps : Nat}
    (hok : ∀ i < steps, m.result devices i = .ok ())
    (h : (m.after devices steps).standsLike m) : m.Lap devices steps where
  succeeds := hok
  closes := by
    simp only [standsLike, Bool.and_eq_true, decide_eq_true_eq] at h
    obtain ⟨⟨hcpu, htimer⟩, hbus⟩ := h
    refine ⟨?_, htimer, hbus⟩
    rw [hcpu, m.clock_after devices hok]
    rfl

variable {devices m} {steps : Nat}

namespace Lap

/-- After a lap the steps end as they did in it. -/
theorem result_add (h : m.Lap devices steps) (i : Nat) :
    m.result devices (steps + i) = m.result devices i :=
  (m.result_add devices steps i).trans (h.closes.result devices i)

theorem result_ok (h : m.Lap devices steps) (hsteps : 1 ≤ steps) (i : Nat) :
    m.result devices i = .ok () := by
  induction i using Nat.strong_induction_on with
  | _ i ih =>
    obtain hlt | hle := Nat.lt_or_ge i steps
    · exact h.succeeds i hlt
    · rw [← Nat.add_sub_of_le hle, h.result_add]
      exact ih (i - steps) (by omega)

theorem totalCost_mul (h : m.Lap devices steps) (laps : Nat) :
    m.totalCost devices (laps * steps) = laps * m.totalCost devices steps := by
  induction laps with
  | zero => rw [Nat.zero_mul, Nat.zero_mul, totalCost]
  | succ laps ih =>
    rw [Nat.succ_mul, Nat.succ_mul, Nat.add_comm, Machine.totalCost_add,
      h.closes.totalCost devices, ih, Nat.add_comm]

theorem after_mul (h : m.Lap devices steps) (laps : Nat) :
    Later (.ofNat (laps * m.totalCost devices steps)) m (m.after devices (laps * steps)) := by
  induction laps with
  | zero =>
    rw [Nat.zero_mul, Nat.zero_mul]
    exact .refl m
  | succ laps ih =>
    have hnext := ih.trans (h.closes.after devices (laps * steps))
    rw [Nat.succ_mul, Nat.succ_mul, UInt64.ofNat_add, Nat.add_comm _ steps, after_add]
    exact hnext

/-- A run for more cycles than some laps cost does not stop in them. -/
theorem mul_le (h : m.Lap devices steps) (hsteps : 1 ≤ steps) {cycles : UInt64} {k laps : Nat}
    (hstop : m.StopsFirst devices cycles k)
    (hmore : laps * m.totalCost devices steps < cycles.toNat) : laps * steps ≤ k := by
  by_contra hlt
  have henough := hstop.stops (h.result_ok hsteps k)
  have hrest : k + 1 + (laps * steps - (k + 1)) = laps * steps := by omega
  have htotal := m.totalCost_add devices (k + 1) (laps * steps - (k + 1))
  rw [hrest, h.totalCost_mul] at htotal
  omega

end Lap

/-! ## Leaps -/

/-- Of the laps of so many cycles some end before all cycles have passed, and that is where a leap
leads. Laps that cost nothing are not leapt over. -/
theorem leap_clock {cycles elapsed : UInt64} (h : elapsed < cycles) :
    ∃ laps, 1 ≤ laps ∧ laps * elapsed.toNat < cycles.toNat ∧
      elapsed + ((cycles - 1) / elapsed - 1) * elapsed = .ofNat (laps * elapsed.toNat) := by
  have hlt := UInt64.lt_iff_toNat_lt.mp h
  obtain hzero | hpos := Nat.eq_zero_or_pos elapsed.toNat
  · obtain rfl : elapsed = 0 := UInt64.toNat_inj.mp hzero
    exact ⟨1, Nat.le_refl 1, by omega, by simp⟩
  · have hone : (1 : UInt64).toNat = 1 := rfl
    have hbefore : (cycles - 1).toNat = cycles.toNat - 1 := by
      rw [UInt64.toNat_sub_of_le _ _ (UInt64.le_iff_toNat_le.mpr (by omega)), hone]
    have hlaps : 1 ≤ (cycles.toNat - 1) / elapsed.toNat :=
      (Nat.le_div_iff_mul_le hpos).mpr (by omega)
    have hquotient : ((cycles - 1) / elapsed).toNat = (cycles.toNat - 1) / elapsed.toNat := by
      rw [UInt64.toNat_div, hbefore]
    refine ⟨(cycles.toNat - 1) / elapsed.toNat, hlaps, ?_, ?_⟩
    · have hle := Nat.div_mul_le_self (cycles.toNat - 1) elapsed.toNat
      omega
    · rw [← hquotient, UInt64.ofNat_mul, UInt64.ofNat_toNat, UInt64.ofNat_toNat]
      grind

/-- A leap leads to where the run comes anyway. -/
theorem Lap.leap (h : m.Lap devices steps) {cycles elapsed : UInt64}
    (helapsed : elapsed.toNat = m.totalCost devices steps) (hmore : elapsed < cycles) :
    ∃ laps, 1 ≤ laps ∧ laps * m.totalCost devices steps < cycles.toNat ∧
      Later 0 (m.after devices (laps * steps))
        ((m.after devices steps).leap cycles elapsed) := by
  obtain ⟨laps, hpos, hlt, hclock⟩ := leap_clock hmore
  rw [helapsed] at hlt hclock
  have hmul := h.after_mul laps
  refine ⟨laps, hpos, hlt, ?_, ?_, ?_⟩
  · show (m.after devices steps).cpu.later _ = _
    rw [h.closes.cpu, hmul.cpu, ← helapsed, UInt64.ofNat_toNat]
    unfold Cpu.later
    dsimp only
    rw [UInt64.add_assoc, hclock, helapsed, UInt64.add_zero]
  · exact h.closes.timer.trans hmul.timer.symm
  · exact h.closes.bus.trans hmul.bus.symm

/-! ## Runs in laps -/

section Runs

variable [DecidableEq σ] {cycles : UInt64} {k : Nat}

theorem runLaps_succ (first : Machine σ) (limit : Nat) :
    runLaps devices cycles first (limit + 1) m =
      if m.Continues devices cycles first.cpu.clock then
        if (m.timedStep devices).2.standsLike first then
          ((m.timedStep devices).2.leap cycles
            ((m.timedStep devices).2.cpu.clock - first.cpu.clock)).runSteps devices cycles
              first.cpu.clock limit
        else runLaps devices cycles first limit (m.timedStep devices).2
      else (some ((m.timedStep devices).1.map fun _ =>
        (m.timedStep devices).2.cpu.clock - first.cpu.clock), (m.timedStep devices).2) := by
  rw [runLaps]
  exact m.timedStep_then devices cycles first.cpu.clock fun next =>
    if next.standsLike first then
      (next.leap cycles (next.cpu.clock - first.cpu.clock)).runSteps devices cycles
        first.cpu.clock limit
    else runLaps devices cycles first limit next

/-- From each of its machines on, the run ends in laps as it does step by step. -/
theorem StopsFirst.runLaps (h : m.StopsFirst devices cycles k)
    (hcycles : cycles.toNat ≤ UInt64.size - 20) {limit j : Nat} (hj : j ≤ k)
    (hlimit : k < j + limit) :
    ∃ log, Machine.runLaps devices cycles m limit (m.after devices j) =
      (some (m.outcome devices k), { m.after devices (k + 1) with log }) := by
  induction limit generalizing j with
  | zero => omega
  | succ limit ih =>
    have hnext : ((m.after devices j).timedStep devices).2 = m.after devices (j + 1) := rfl
    have hcontinues := h.continues_iff hcycles hj
    rw [runLaps_succ, hnext]
    obtain hlt | rfl := Nat.lt_or_eq_of_le hj
    · rw [if_pos (hcontinues.mpr hlt)]
      split
      · next hstands =>
        have hok : ∀ i < j + 1, m.result devices i = .ok () := fun i hi => h.ok_of_lt (by omega)
        have hlap := lap_of_standsLike devices m hok hstands
        have hmore := (hcontinues.mpr hlt).2
        have helapsed : ((m.after devices (j + 1)).cpu.clock - m.cpu.clock).toNat =
            m.totalCost devices (j + 1) := by
          rw [m.clock_after devices hok, UInt64.add_comm, UInt64.add_sub_cancel]
          exact toNat_ofNat_of_le hcycles
            (m.totalCost_succ_lt devices (fun i hi => h.goes i (by omega)) (h.ok_of_lt hlt))
        obtain ⟨laps, hpos, hbefore, hleap⟩ := hlap.leap helapsed (UInt64.not_le.mp hmore)
        -- The run has not stopped behind the leap, so it ends as it does from there.
        have hle := hlap.mul_le (Nat.succ_pos j) h hbefore
        have hpassed : j + 1 ≤ laps * (j + 1) := Nat.le_mul_of_pos_left _ hpos
        obtain ⟨hresult, hfault, hend⟩ := hleap.runSteps devices cycles m.cpu.clock limit
        rw [UInt64.add_zero,
          m.runSteps_after devices hcycles h.stops h.goes hle (by omega)] at hresult hfault hend
        obtain ⟨log, hlast⟩ := hend.eq_of_zero (hfault (.inl (by omega)))
        exact ⟨log, Prod.ext hresult hlast⟩
      · exact ih hlt (by omega)
    · have hgo : ¬ (m.after devices j).Continues devices cycles m.cpu.clock :=
        fun hgo => Nat.lt_irrefl _ (hcontinues.mp hgo)
      have hlast : (m.after devices j).runSteps devices cycles m.cpu.clock (0 + 1) =
          (some (m.outcome devices j), m.after devices (j + 1)) :=
        m.runSteps_after devices hcycles h.stops h.goes hj (by omega)
      rw [runSteps_succ, if_neg hgo, hnext] at hlast
      rw [if_neg hgo]
      exact ⟨_, hlast⟩

variable (devices m)

/-- A run in laps returns what the run returns and leaves the machine that the run leaves, with
the same fault recorded, except that its log can be shorter. -/
theorem runInLaps_eq (hcycles : cycles.toNat ≤ UInt64.size - 20) :
    (m.runInLaps devices cycles).1 = (m.run devices cycles).1 ∧
      ∃ log, (m.runInLaps devices cycles).2 = { (m.run devices cycles).2 with log } := by
  obtain ⟨k, hstop⟩ := m.exists_stopsFirst devices cycles
  have hlimit := hstop.lt_limit
  obtain ⟨log, hlaps⟩ : ∃ log, m.runInLaps devices cycles =
      (some (m.outcome devices k), { m.after devices (k + 1) with log }) :=
    hstop.runLaps hcycles (Nat.zero_le k) (by omega)
  rw [hstop.run_eq hcycles, hlaps]
  exact ⟨rfl, log, rfl⟩

end Runs

end Mc6809.Machine
