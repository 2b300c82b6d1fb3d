/-
  What a run goes through. `Machine.visits` lists the machines from which the steps of a run
  start, and what can be asked about a run is read off them: the cycles that its steps add to
  the clock, the calls of the timer's routine that fall due, and all that it invokes on the board,
  in order (`runCalls`). A run depends on the devices by these calls alone (`run_congr`).

  `runSteps_succ` gives the loop by the one question it asks after each step, whether it
  continues, and `visits` asks the same. A run for at most 2^64 - 20 cycles stops with the first
  step with which it can (`StopsFirst`), which fixes its result and its visits (`run_eq`,
  `visits_eq`).
-/
import Mc6809.Proofs.Calls
import Mc6809.Proofs.Run

namespace Mc6809

namespace Machine

variable {σ : Type} (devices : Devices σ) (m : Machine σ)

/-! ## The loop -/

variable (cycles start : UInt64)

/-- The loop takes another step after this one: it has succeeded, and the cycles since the clock
read `start` are not used up. -/
def Continues : Prop := (m.timedStep devices).1 = .ok () ∧
  ¬ cycles ≤ (m.timedStep devices).2.cpu.clock - start

instance : Decidable (m.Continues devices cycles start) := inferInstanceAs (Decidable (_ ∧ _))

/-- The machines from which the steps of a run start. -/
def visits : Nat → Machine σ → List (Machine σ)
  | 0, _ => []
  | limit + 1, m => m ::
    if m.Continues devices cycles start then visits limit (m.timedStep devices).2 else []

/-- A loop goes on from the step just when it continues, and else returns what came of it. -/
theorem timedStep_then (go : Machine σ → Option (Except Fault UInt64) × Machine σ) :
    (match m.timedStep devices with
    | (.error fault, m) => (some (.error fault), m)
    | (.ok (), m) =>
      let elapsed := m.cpu.clock - start
      if cycles ≤ elapsed then (some (.ok elapsed), m) else go m) =
      if m.Continues devices cycles start then go (m.timedStep devices).2
      else (some ((m.timedStep devices).1.map fun _ =>
        (m.timedStep devices).2.cpu.clock - start), (m.timedStep devices).2) := by
  by_cases hgo : m.Continues devices cycles start
  · have hpair : m.timedStep devices = (.ok (), (m.timedStep devices).2) := Prod.ext hgo.1 rfl
    rw [if_pos hgo, hpair]
    exact if_neg hgo.2
  · rw [if_neg hgo]
    cases hresult : (m.timedStep devices).1 with
    | error fault =>
      have hpair : m.timedStep devices = (.error fault, (m.timedStep devices).2) :=
        Prod.ext hresult rfl
      rw [hpair]
      rfl
    | ok _ =>
      have hpair : m.timedStep devices = (.ok (), (m.timedStep devices).2) :=
        Prod.ext hresult rfl
      have henough : cycles ≤ (m.timedStep devices).2.cpu.clock - start :=
        by_contra fun hmore => hgo ⟨hresult, hmore⟩
      rw [hpair]
      exact if_pos henough

theorem runSteps_succ (limit : Nat) : m.runSteps devices cycles start (limit + 1) =
    if m.Continues devices cycles start then
      (m.timedStep devices).2.runSteps devices cycles start limit
    else (some ((m.timedStep devices).1.map fun _ => (m.timedStep devices).2.cpu.clock - start),
      (m.timedStep devices).2) := by
  rw [runSteps]
  exact m.timedStep_then devices cycles start fun next =>
    next.runSteps devices cycles start limit

variable {devices m cycles start} in
/-- A run that fails does so with the fault of a step that it visits. -/
theorem exists_step_of_runSteps {limit : Nat} {fault : Fault}
    (h : (m.runSteps devices cycles start limit).1 = some (.error fault)) :
    ∃ visited ∈ visits devices cycles start limit m, (visited.step devices).1 = .error fault := by
  induction limit generalizing m with
  | zero => cases h
  | succ limit ih =>
    rw [runSteps_succ] at h
    rw [visits]
    by_cases hgo : m.Continues devices cycles start
    · rw [if_pos hgo] at h ⊢
      obtain ⟨visited, hmem, hstep⟩ := ih h
      exact ⟨visited, List.mem_cons_of_mem _ hmem, hstep⟩
    · rw [if_neg hgo] at h
      refine ⟨m, List.mem_cons_self, ?_⟩
      have hresult : (m.timedStep devices).1 = (m.step devices).1 := rfl
      cases hstep : (m.step devices).1 with
      | ok _ =>
        rw [hresult, hstep] at h
        cases h
      | error other =>
        rw [hresult, hstep] at h
        cases h
        rfl

variable {devices cycles start} in
/-- What steps keep, and what changes of timer, bus and log keep, runs keep as well. -/
theorem runSteps_induction {P : List (Machine σ) → Machine σ → Prop}
    (hstep : ∀ {visited m}, P visited m → P (visited ++ [m]) (m.step devices).2)
    (houtside : ∀ {visited m} timer bus log, P visited m → P visited { m with timer, bus, log })
    (visited : List (Machine σ)) {m : Machine σ} (h : P visited m) (limit : Nat) :
    P (visited ++ visits devices cycles start limit m)
      (m.runSteps devices cycles start limit).2 := by
  induction limit generalizing visited m with
  | zero =>
    rw [visits, List.append_nil]
    exact h
  | succ limit ih =>
    have hnext : P (visited ++ [m]) (m.timedStep devices).2 := by
      rw [timedStep_eq]
      exact houtside _ _ _ (hstep h)
    rw [runSteps_succ, visits]
    by_cases hgo : m.Continues devices cycles start
    · rw [if_pos hgo, if_pos hgo, List.append_cons]
      exact ih (visited ++ [m]) hnext
    · rw [if_neg hgo, if_neg hgo]
      exact hnext

/-- What a whole run invokes. -/
def runCalls : List (Call σ) :=
  (visits devices cycles m.cpu.clock (2 * cycles.toNat + 1) m).flatMap (·.calls devices)

variable {devices m cycles start} {other : Devices σ} in
theorem runSteps_congr {limit : Nat} (h : ∀ call ∈
      (visits devices cycles start limit m).flatMap (·.calls devices), devices.Agree other call) :
    m.runSteps devices cycles start limit = m.runSteps other cycles start limit := by
  induction limit generalizing m with
  | zero => rfl
  | succ limit ih =>
    rw [visits, List.flatMap_cons, List.forall_mem_append] at h
    obtain ⟨hstep, hrest⟩ := h
    have hcontinues : m.Continues other cycles start ↔ m.Continues devices cycles start := by
      unfold Continues
      rw [timedStep_congr hstep]
    rw [runSteps_succ, runSteps_succ, ← timedStep_congr hstep]
    by_cases hgo : m.Continues devices cycles start
    · rw [if_pos hgo] at hrest
      rw [if_pos hgo, if_pos (hcontinues.mpr hgo), ih hrest]
    · rw [if_neg hgo, if_neg fun hgo' => hgo (hcontinues.mp hgo')]

variable {devices m cycles} {other : Devices σ} in
/-- Boards that answer the calls of a run alike give the same run. -/
theorem run_congr (h : ∀ call ∈ m.runCalls devices cycles, devices.Agree other call) :
    m.run devices cycles = m.run other cycles := runSteps_congr h

/-! ## Where a run stops first -/

/-- A run for so many cycles can stop with step `k`, and with none before. -/
structure StopsFirst (k : Nat) : Prop where
  stops : m.StopsWith devices cycles k
  goes : ∀ i < k, ¬ m.StopsWith devices cycles i

theorem exists_stopsFirst : ∃ k, m.StopsFirst devices cycles k := by
  classical
  obtain ⟨n, -, hstop⟩ := m.exists_stop devices cycles
  have hexists : ∃ k, m.StopsWith devices cycles k := ⟨n, hstop⟩
  exact ⟨Nat.find hexists, Nat.find_spec hexists, fun _ hi => Nat.find_min hexists hi⟩

variable {devices m cycles} {k : Nat}

/-- The limit on the steps lies behind the stop. -/
theorem StopsFirst.lt_limit (h : m.StopsFirst devices cycles k) : k < 2 * cycles.toNat + 1 := by
  obtain ⟨n, hn, hstop⟩ := m.exists_stop devices cycles
  by_contra hle
  exact h.goes n (by omega) hstop

/-- The steps before the stop succeed. -/
theorem StopsFirst.ok_of_lt (h : m.StopsFirst devices cycles k) {i : Nat} (hi : i < k) :
    m.result devices i = .ok () := (Classical.not_imp.mp (h.goes i hi)).1

theorem StopsFirst.run_eq (h : m.StopsFirst devices cycles k)
    (hcycles : cycles.toNat ≤ UInt64.size - 20) :
    m.run devices cycles = (some (m.outcome devices k), m.after devices (k + 1)) :=
  m.runSteps_after devices hcycles h.stops h.goes (Nat.zero_le k) (by have := h.lt_limit; omega)

/-- As long as a run has not stopped, it continues after a step just when it cannot stop with
it. -/
theorem StopsFirst.continues_iff (h : m.StopsFirst devices cycles k)
    (hcycles : cycles.toNat ≤ UInt64.size - 20) {j : Nat} (hj : j ≤ k) :
    (m.after devices j).Continues devices cycles m.cpu.clock ↔ j < k := by
  have hbefore : ∀ i < j, ¬ m.StopsWith devices cycles i := fun i hi => h.goes i (by omega)
  -- The clock has not come round since the run began, so its difference is the sum of the costs.
  have helapsed (hok : m.result devices j = .ok ()) :
      cycles ≤ (m.after devices (j + 1)).cpu.clock - m.cpu.clock ↔
        cycles.toNat ≤ m.totalCost devices (j + 1) := by
    have hsucceeds : ∀ i < j + 1, m.result devices i = .ok () := by
      intro i hi
      obtain hlt | rfl := Nat.lt_succ_iff_lt_or_eq.mp hi
      · exact h.ok_of_lt (by omega)
      · exact hok
    rw [m.clock_after devices hsucceeds, UInt64.add_comm, UInt64.add_sub_cancel,
      UInt64.le_iff_toNat_le,
      toNat_ofNat_of_le hcycles (m.totalCost_succ_lt devices hbefore hok)]
  constructor
  · rintro ⟨hok, hmore⟩
    obtain hlt | rfl := Nat.lt_or_eq_of_le hj
    · exact hlt
    · exact (hmore ((helapsed hok).mpr (h.stops hok))).elim
  · intro hlt
    obtain ⟨hok, hmore⟩ := Classical.not_imp.mp (h.goes j hlt)
    exact ⟨hok, fun hle => hmore ((helapsed hok).mp hle)⟩

/-- From each step on, the visits are the machines up to the stop. -/
theorem StopsFirst.visits_after (h : m.StopsFirst devices cycles k)
    (hcycles : cycles.toNat ≤ UInt64.size - 20) {limit j : Nat} (hj : j ≤ k)
    (hlimit : k < j + limit) :
    visits devices cycles m.cpu.clock limit (m.after devices j) =
      (List.range' j (k + 1 - j)).map (m.after devices) := by
  induction limit generalizing j with
  | zero => omega
  | succ limit ih =>
    have hcontinues := h.continues_iff hcycles hj
    have hcount : k + 1 - j = k - j + 1 := by omega
    rw [visits, hcount, List.range'_succ, List.map_cons]
    obtain hlt | rfl := Nat.lt_or_eq_of_le hj
    · rw [if_pos (hcontinues.mpr hlt)]
      have hrest := ih (j := j + 1) (by omega) (by omega)
      rw [show k + 1 - (j + 1) = k - j by omega] at hrest
      exact congrArg _ hrest
    · rw [if_neg fun hgo => Nat.lt_irrefl _ (hcontinues.mp hgo), Nat.sub_self]
      rfl

/-- A run visits the machines up to its stop. -/
theorem StopsFirst.visits_eq (h : m.StopsFirst devices cycles k)
    (hcycles : cycles.toNat ≤ UInt64.size - 20) :
    visits devices cycles m.cpu.clock (2 * cycles.toNat + 1) m =
      (List.range (k + 1)).map (m.after devices) := by
  rw [List.range_eq_range']
  exact h.visits_after hcycles (Nat.zero_le k) (by have := h.lt_limit; omega)

end Machine

/-! ## A board that counts -/

/-- The timer's routine counts its calls and asserts IRQ. -/
def Devices.counting : Devices Nat where
  read _ _ := return 0
  write _ _ _ := return ()
  tick _ := modify fun bus => { bus.setLine .irq true with devices := bus.devices + 1 }

/-- A branch to itself on this board, with a timer of two cycles. IRQ is masked. -/
def Machine.countingSpin : Machine Nat where
  timer := some (.start ⟨131072, by decide, by decide⟩ 0)
  bus := { pages := spin.bus.pages, store := spin.bus.store, devices := 0 }

end Mc6809
