/-
  Splitting a run changes nothing. A run that returns leaves a machine from which a second run
  continues just as the first would have, had it been asked for more: the timer's countdown is
  part of the machine, and a run keeps nothing else from one step to the next but the clock
  reading it started with.

  The steps of the second run are later steps of the first (`after_add`), their costs add up
  (`totalCost_add`), and so the first step with which the second run can stop is the first one
  with which the long run can (`StopsFirst.add`). `run_split` puts this together.
-/
import Mc6809.Proofs.Visits

namespace Mc6809.Machine

variable {σ : Type} (devices : Devices σ) (m : Machine σ)

/-! ## Later steps -/

theorem after_add (first second : Nat) :
    m.after devices (first + second) = (m.after devices first).after devices second := by
  induction second with
  | zero => rfl
  | succ second ih => rw [← Nat.add_assoc, after, after, ih]

theorem result_add (first second : Nat) :
    m.result devices (first + second) = (m.after devices first).result devices second := by
  unfold result
  rw [after_add]

theorem totalCost_add (first second : Nat) : m.totalCost devices (first + second) =
    m.totalCost devices first + (m.after devices first).totalCost devices second := by
  induction second with
  | zero => rfl
  | succ second ih => rw [← Nat.add_assoc, totalCost, totalCost, ih, after_add, Nat.add_assoc]

/-- The machines of a run, in two parts. -/
theorem map_after_range_add (first second : Nat) :
    (List.range (first + second)).map (m.after devices) =
      (List.range first).map (m.after devices) ++
        (List.range second).map ((m.after devices first).after devices) := by
  rw [List.range_add, List.map_append, List.map_map]
  refine congrArg _ (List.map_congr_left fun i _ => ?_)
  exact m.after_add devices first i

/-! ## Stops -/

variable {devices m} {a b x : UInt64} {k j : Nat}

/-- What a run returned that stopped with a step. -/
theorem outcome_eq_ok (h : m.outcome devices k = .ok x) :
    m.result devices k = .ok () ∧ x = .ofNat (m.totalCost devices (k + 1)) := by
  unfold outcome at h
  cases hresult : m.result devices k with
  | error fault =>
    rw [hresult] at h
    cases h
  | ok _ =>
    rw [hresult] at h
    cases h
    exact ⟨rfl, rfl⟩

/-- The cycles that a run returns are those that its steps cost. -/
theorem StopsFirst.toNat_eq (h : m.StopsFirst devices a k) (ha : a.toNat ≤ UInt64.size - 20)
    (houtcome : m.outcome devices k = .ok x) : x.toNat = m.totalCost devices (k + 1) := by
  obtain ⟨hok, rfl⟩ := outcome_eq_ok houtcome
  exact toNat_ofNat_of_le ha (m.totalCost_succ_lt devices h.goes hok)

/-- A run for as many cycles as two runs, the second one from where the first one stopped, stops
where the second one does. -/
theorem StopsFirst.add (h : m.StopsFirst devices a k) (hok : m.result devices k = .ok ())
    (h' : (m.after devices (k + 1)).StopsFirst devices b j) {c : UInt64}
    (hc : c.toNat = m.totalCost devices (k + 1) + b.toNat) (hb : 1 ≤ b.toNat) :
    m.StopsFirst devices c (k + 1 + j) := by
  -- A step of the second part can stop the long run just when it can stop the second.
  have hlater (i : Nat) : m.StopsWith devices c (k + 1 + i) ↔
      (m.after devices (k + 1)).StopsWith devices b i := by
    unfold StopsWith
    rw [result_add, Nat.add_assoc (k + 1), totalCost_add, hc, Nat.add_le_add_iff_left]
  have hmono : ∀ i ≤ k, m.totalCost devices (i + 1) ≤ m.totalCost devices (k + 1) := by
    intro i hi
    have hcount : i + 1 + (k - i) = k + 1 := by omega
    have hadd := m.totalCost_add devices (i + 1) (k - i)
    rw [hcount] at hadd
    omega
  refine ⟨(hlater j).mpr h'.stops, fun i hi hstop => ?_⟩
  by_cases hle : i ≤ k
  · have hsucceeds : m.result devices i = .ok () := by
      obtain hlt | rfl := Nat.lt_or_eq_of_le hle
      · exact h.ok_of_lt hlt
      · exact hok
    have henough := hstop hsucceeds
    have hcost := hmono i hle
    omega
  · rw [show i = k + 1 + (i - (k + 1)) by omega] at hstop
    exact h'.goes _ (by omega) ((hlater _).mp hstop)

theorem outcome_add (hx : x = .ofNat (m.totalCost devices (k + 1))) :
    m.outcome devices (k + 1 + j) =
      ((m.after devices (k + 1)).outcome devices j).map (x + ·) := by
  unfold outcome
  rw [result_add, Nat.add_assoc (k + 1), totalCost_add, UInt64.ofNat_add, ← hx]
  cases (m.after devices (k + 1)).result devices j <;> rfl

variable (devices m)

/-- A run for `a` cycles that returns `x`, and a run for `b` more. Together they come to what one
run for `x + b` cycles comes to: the same machine, with its processor, bus, memory, timer and
log, the same invocations of handlers and of the timer's routine in the same order, each on the
same bus, and the same fault or the sum of the cycles, which does not wrap around. -/
theorem run_split {m' : Machine σ} (ha : a.toNat ≤ UInt64.size - 20) (hb : 1 ≤ b.toNat)
    (hsum : x.toNat + b.toNat ≤ UInt64.size - 20)
    (hrun : m.run devices a = (some (.ok x), m')) :
    ∃ outcome final, m'.run devices b = (some outcome, final) ∧
      m.run devices (x + b) = (some (outcome.map (x + ·)), final) ∧
      m.runCalls devices (x + b) = m.runCalls devices a ++ m'.runCalls devices b ∧
      ∀ y, outcome = .ok y → (x + y).toNat = x.toNat + y.toNat := by
  have hsize : UInt64.size = 18446744073709551616 := rfl
  obtain ⟨k, hfirst⟩ := m.exists_stopsFirst devices a
  rw [hfirst.run_eq ha] at hrun
  obtain ⟨hreturned, rfl⟩ := Prod.mk.inj hrun
  have houtcome := Option.some.inj hreturned
  obtain ⟨hok, hx⟩ := outcome_eq_ok houtcome
  have htotal := hfirst.toNat_eq ha houtcome
  have hadd : (x + b).toNat = x.toNat + b.toNat := by
    rw [UInt64.toNat_add]
    exact Nat.mod_eq_of_lt (by omega)
  obtain ⟨j, hsecond⟩ := (m.after devices (k + 1)).exists_stopsFirst devices b
  have hb' : b.toNat ≤ UInt64.size - 20 := by omega
  have hwhole : m.StopsFirst devices (x + b) (k + 1 + j) :=
    hfirst.add hok hsecond (by rw [hadd, htotal]) hb
  have hwhole' : (x + b).toNat ≤ UInt64.size - 20 := by omega
  refine ⟨_, _, hsecond.run_eq hb', ?_, ?_, ?_⟩
  · rw [hwhole.run_eq hwhole', outcome_add hx, Nat.add_assoc (k + 1),
      m.after_add devices (k + 1)]
  · unfold runCalls
    rw [hwhole.visits_eq hwhole', hfirst.visits_eq ha, hsecond.visits_eq hb',
      Nat.add_assoc (k + 1), map_after_range_add, List.flatMap_append]
  · intro y hy
    have hle := (m.after devices (k + 1)).totalCost_succ_lt devices hsecond.goes
      (outcome_eq_ok hy).1
    rw [← hsecond.toNat_eq hb' hy] at hle
    rw [UInt64.toNat_add]
    exact Nat.mod_eq_of_lt (by omega)

theorem run_split_countingSpin : ∃ outcome final,
    (countingSpin.run .counting 10).2.run .counting 5 = (some outcome, final) ∧
      countingSpin.run .counting 17 = (some (outcome.map (12 + ·)), final) ∧
      countingSpin.runCalls .counting 17 = countingSpin.runCalls .counting 10 ++
        (countingSpin.run .counting 10).2.runCalls .counting 5 := by
  have hvalue : (countingSpin.run .counting 10).1 = some (.ok 12) := by decide +kernel
  have hrun : countingSpin.run .counting 10 =
      (some (.ok 12), (countingSpin.run .counting 10).2) := by
    rw [← hvalue]
  obtain ⟨outcome, final, hsecond, hwhole, hcalls, -⟩ :=
    countingSpin.run_split .counting (b := 5) (by decide) (by decide) (by decide) hrun
  exact ⟨outcome, final, hsecond, hwhole, hcalls⟩

end Mc6809.Machine
