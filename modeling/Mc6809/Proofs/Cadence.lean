/-
  The cadence of the timer is exact, however long it runs. Over all steps of all runs since the
  timer was installed or restarted, the cycles used up and the countdown balance the calls of
  the routine (`Timer.Paced`): 65536 units for each cycle, plus the countdown, are one interval
  more than the intervals called for. Since the countdown stays above zero and within one
  interval, the number of calls is the quotient (`Paced.calls_eq`); nothing is ever rounded, so
  nothing drifts.

  * One step keeps the balance (`Paced.timedStep`): `Interval.expire_spec` says what crossing
    zero any number of times does to the countdown, and no step costs so much that the timer
    counts less for it than the clock (`elapsed_le`).
  * Runs keep it step by step (`Paced.runSteps`), and between runs the host may do anything that
    leaves the timer alone (`Session`). `timer_calls_exact` is what follows for a session.
  * The timer counts in signed 64-bit words. `Timer.advance64?` is its arithmetic there, refused
    where an operation would leave the words or the loop go on; from a balanced timer it never
    is (`Paced.advance64?_eq`).
-/
import Mathlib.Tactic.Linarith
import Mathlib.Tactic.Ring
import Mathlib.Tactic.Zify
import Mc6809.Proofs.Visits

namespace Mc6809

/-! ## Crossing zero -/

namespace Interval

variable (interval : Interval) {countdown : Int}

theorem expire_of_pos (h : 0 < countdown) : interval.expire countdown = (0, countdown) := by
  rw [expire, if_neg (by omega)]

theorem expire_of_nonpos (h : countdown ≤ 0) : interval.expire countdown =
    ((interval.expire (countdown + interval.units)).1 + 1,
      (interval.expire (countdown + interval.units)).2) := by
  rw [expire, if_pos h]

/-- Each call raises the countdown by one interval, up to the first time that it is above zero. -/
theorem expire_spec (countdown : Int) (h : countdown ≤ interval.units) :
    (interval.expire countdown).2 =
        countdown + (interval.expire countdown).1 * interval.units ∧
      0 < (interval.expire countdown).2 ∧
      (interval.expire countdown).2 ≤ interval.units := by
  have hpos := interval.one_cycle_le
  induction countdown using Interval.expire.induct interval with
  | case1 countdown hle calls rest hexpire ih =>
    obtain ⟨hrest, hgt, hwithin⟩ := ih (by omega)
    rw [interval.expire_of_nonpos hle]
    refine ⟨?_, hgt, hwithin⟩
    rw [hrest]
    push_cast
    ring
  | case2 countdown hgt =>
    rw [interval.expire_of_pos (by omega)]
    exact ⟨by simp, by omega, h⟩

end Interval

/-! ## Signed words -/

/-- A number as the result of an operation on signed 64-bit words. -/
def checked64 (n : Int) : Option Int :=
  if -0x8000000000000000 ≤ n ∧ n < 0x8000000000000000 then some n else none

theorem checked64_eq {n : Int} (h : -0x8000000000000000 ≤ n) (h' : n < 0x8000000000000000) :
    checked64 n = some n := if_pos ⟨h, h'⟩

/-- `Interval.expire` in signed words, for so many rounds of the loop at most. -/
def Interval.expire64? (interval : Interval) : Nat → Int → Option (Nat × Int)
  | 0, _ => none
  | rounds + 1, countdown =>
    if countdown ≤ 0 then do
      let raised ← checked64 (countdown + interval.units)
      let (calls, rest) ← interval.expire64? rounds raised
      return (calls + 1, rest)
    else some (0, countdown)

/-- Between two words no word is left on the way up. -/
theorem Interval.expire64?_eq (interval : Interval) (countdown : Int)
    (hlow : -0x8000000000000000 ≤ countdown) :
    interval.expire64? ((interval.expire countdown).1 + 1) countdown =
      some (interval.expire countdown) := by
  have hpos := interval.one_cycle_le
  have hlimit := interval.lt_limit
  induction countdown using Interval.expire.induct interval with
  | case1 countdown hle calls rest hexpire ih =>
    rw [interval.expire_of_nonpos hle, expire64?, if_pos hle,
      checked64_eq (by omega) (by omega)]
    show (interval.expire64? _ _ >>= _) = _
    rw [ih (by omega)]
    rfl
  | case2 countdown hgt =>
    rw [interval.expire_of_pos (by omega), expire64?, if_neg hgt]

namespace Timer

/-- `Timer.advance` in signed words, for so many rounds of the loop at most: the calls and the
countdown, unless an operation leaves the words or the loop goes on. -/
def advance64? (timer : Timer) (elapsed : UInt64) (rounds : Nat) : Option (Nat × Int) := do
  let cycles ← checked64 (min elapsed.toNat 0xFFFFFFFF : Nat)
  let units ← checked64 (cycles * 65536)
  let lowered ← checked64 (timer.countdown - units)
  timer.interval.expire64? rounds lowered

/-! ## The balance of a timer -/

/-- The timer has made just the calls that were due after so many cycles: the units of the cycles
and the countdown are one interval more than the intervals called for. -/
structure Paced (interval : Interval) (cycles calls : Nat) (timer : Timer) : Prop where
  interval_eq : timer.interval = interval
  pos : 0 < timer.countdown
  le : timer.countdown ≤ interval.units
  balance : 65536 * (cycles : Int) + timer.countdown = interval.units * (calls + 1)

variable {interval : Interval} {cycles calls : Nat} {timer : Timer}

theorem paced_start (interval : Interval) (routine : Nat) :
    (Timer.start interval routine).Paced interval 0 0 := by
  have hpos := interval.one_cycle_le
  exact ⟨rfl, by show (0 : Int) < interval.units; omega, Int.le_refl _, by simp [Timer.start]⟩

/-- The number of calls is the quotient, rounded down. -/
theorem Paced.calls_eq (h : timer.Paced interval cycles calls) :
    calls = 65536 * cycles / interval.units := by
  have hbalance := h.balance
  have hpos := h.pos
  have hle := h.le
  refine (Nat.div_eq_of_lt_le ?_ ?_).symm
  · zify
    linarith
  · zify
    linarith

/-- Advancing keeps the balance, if the timer counts every cycle. -/
theorem Paced.advance (h : timer.Paced interval cycles calls) (elapsed : UInt64)
    (helapsed : elapsed.toNat ≤ 0xFFFFFFFF) :
    (timer.advance elapsed).2.Paced interval (cycles + elapsed.toNat)
      (calls + (timer.advance elapsed).1) := by
  obtain rfl := h.interval_eq
  have hle := h.le
  obtain ⟨hrest, hpos, hwithin⟩ := timer.interval.expire_spec
    (timer.countdown - (min elapsed.toNat 0xFFFFFFFF : Nat) * 65536) (by omega)
  refine ⟨rfl, hpos, hwithin, ?_⟩
  show 65536 * ((cycles + elapsed.toNat : Nat) : Int) + (timer.interval.expire _).2 = _
  rw [hrest, Nat.min_eq_left helapsed]
  have hbalance := h.balance
  push_cast
  show _ = timer.interval.units * ((calls : Int) + (timer.interval.expire _).1 + 1)
  rw [Nat.min_eq_left helapsed]
  linarith

/-- A step that costs nothing makes no call. -/
theorem Paced.advance_zero (h : timer.Paced interval cycles calls) :
    (timer.advance 0).1 = 0 := by
  have hpos := h.pos
  have hkept : 0 < timer.countdown - (min (0 : UInt64).toNat 0xFFFFFFFF : Nat) * 65536 := by
    show 0 < timer.countdown - 0
    omega
  show (timer.interval.expire _).1 = 0
  rw [timer.interval.expire_of_pos hkept]

/-- From a balanced timer no operation leaves the words, and the loop ends after its calls. -/
theorem Paced.advance64?_eq (h : timer.Paced interval cycles calls) (elapsed : UInt64) :
    timer.advance64? elapsed ((timer.advance elapsed).1 + 1) =
      some ((timer.advance elapsed).1, (timer.advance elapsed).2.countdown) := by
  have hpos := h.pos
  have hle := h.le
  have hlimit := interval.lt_limit
  have hcycles : min elapsed.toNat 0xFFFFFFFF ≤ 0xFFFFFFFF := Nat.min_le_right _ _
  unfold advance64? Timer.advance
  dsimp only
  generalize min elapsed.toNat 0xFFFFFFFF = n at hcycles
  simp only [Option.bind_eq_bind]
  rw [checked64_eq (by omega) (by omega), Option.bind_some,
    checked64_eq (by omega) (by omega), Option.bind_some,
    checked64_eq (by omega) (by omega), Option.bind_some]
  exact timer.interval.expire64?_eq _ (by omega)

end Timer

/-! ## The cost of any step -/

namespace Action

variable {lines : InterruptLines} {cpu cpu' : Cpu} {w : List Exchange} {fault : Fault}

/-- An instruction that finds a fault without an entry has read its opcode and nothing else. -/
theorem length_le_of_select?_eq_none (h : instruction.Ends cpu w (.error fault) cpu')
    (hselect : Opcode.select? (readBytes w) = none) : (readBytes w).length ≤ 2 := by
  rw [instruction_eq_documented] at h
  obtain ⟨_, -, hfetch⟩ | ⟨entry, mid, w₁, w₂, rfl, hentry, hrest⟩ := ends_bind.mp h
  · obtain ⟨opcode, hbytes, -⟩ := ends_fetchEntry_error hfetch
    rw [hbytes]
    exact Nat.le_succ 1
  obtain ⟨first, hbytes, hfind, -⟩ := ends_fetchEntry_ok hentry
  rw [readBytes_append, hbytes, List.singleton_append] at hselect ⊢
  split at hrest
  · next page hpage =>
    obtain ⟨_, -, hfetch⟩ | ⟨entry', mid', w₃, w₄, rfl, hentry', -⟩ := ends_bind.mp hrest
    · obtain ⟨opcode, hbytes', -⟩ := ends_fetchEntry_error hfetch
      rw [hbytes']
      exact Nat.le_refl 2
    · obtain ⟨opcode, hbytes', hfind', -⟩ := ends_fetchEntry_ok hentry'
      rw [readBytes_append, hbytes', List.singleton_append, Opcode.select?_prefixed hfind hpage,
        hfind'] at hselect
      cases hselect
  · next hplain =>
    rw [Opcode.select?_plain hfind hplain] at hselect
    cases hselect

/-- The cost of a step, also of one that finds a fault, is at most 20 cycles. -/
theorem clock_step_le {r : Except Fault Unit} (h : (step lines).Ends cpu w r cpu') :
    ∃ cost, stepCost? lines cpu (readBytes w) r = some cost ∧ cost ≤ 20 ∧
      cpu'.clock = cpu.clock + .ofNat cost := by
  cases r with
  | ok _ =>
    obtain ⟨cost, hcost, hle, hclock, -⟩ := step_succeeds h
    exact ⟨cost, hcost, hle, hclock⟩
  | error fault =>
    obtain ⟨cost, hcost, hclock⟩ := clock_step h
    refine ⟨cost, hcost, ?_, hclock⟩
    have hdecode : fault.isBusFault = false := Law.decoding.of_thrown h
    unfold stepCost? at hcost
    dsimp only at hcost
    rw [hdecode, if_neg Bool.false_ne_true] at hcost
    cases hselect : Opcode.select? (readBytes w) with
    | none =>
      have hlength := length_le_of_select?_eq_none (instruction_of_step_error h) hselect
      rw [hselect] at hcost
      cases hcost
      exact hlength.trans (by decide)
    | some selected =>
      obtain ⟨entry, rest⟩ := selected
      have hbounds := Opcode.cost_bounds hselect cpu.regs.cc
      unfold Opcode.Entry.cost at hbounds
      rw [hselect] at hcost
      cases hcost
      show entry.cycles.toNat ≤ 20
      omega

end Action

namespace Machine

variable {σ : Type} (devices : Devices σ) (m : Machine σ)

/-- What a step of any outcome adds to the clock. -/
theorem step_clock_le : ∃ cost, m.stepCost? devices = some cost ∧ cost ≤ 20 ∧
    (m.step devices).2.cpu.clock = m.cpu.clock + .ofNat cost := by
  unfold stepCost?
  obtain ⟨cpu, houtcome, log, hstep⟩ | ⟨fault, cpu, houtcome, log, hstep⟩ |
    ⟨fault, houtcome, log, hstep⟩ := m.step_cases devices
  · rw [hstep]
    exact Action.clock_step_le (m.course_ends devices houtcome)
  · rw [hstep]
    exact Action.clock_step_le (m.course_ends devices houtcome)
  · have hbus : fault.isBusFault := (m.course_ends devices houtcome).isBusFault
    rw [hstep]
    unfold Action.stepCost?
    dsimp only
    rw [if_pos hbus]
    exact ⟨0, rfl, Nat.zero_le _, (UInt64.add_zero _).symm⟩

/-- The difference of the clock readings is the cost of the step, also where the clock wraps. -/
theorem elapsed_eq : (m.elapsed devices).toNat = m.cost devices ∧ m.cost devices ≤ 20 := by
  obtain ⟨cost, hcost, hle, hclock⟩ := m.step_clock_le devices
  have hcost' : m.cost devices = cost := by
    unfold Machine.cost
    rw [hcost]
    rfl
  have helapsed : m.elapsed devices = .ofNat cost := by
    unfold elapsed
    rw [hclock, UInt64.add_comm, UInt64.add_sub_cancel]
  rw [hcost', helapsed]
  exact ⟨UInt64.toNat_ofNat_of_lt' (Nat.lt_of_le_of_lt hle (by decide)), hle⟩

theorem elapsed_of_busFault {fault : Fault} (hstep : (m.step devices).1 = .error fault)
    (hfault : fault.isBusFault) : m.elapsed devices = 0 := by
  obtain ⟨-, log, hafter⟩ := m.step_of_busFault devices hstep hfault
  unfold elapsed
  rw [hafter]
  exact UInt64.sub_self _

/-! ## The balance along runs -/

/-- The machine has a timer with the interval, in balance after so many cycles and calls. -/
def Paced (interval : Interval) (cycles calls : Nat) (m : Machine σ) : Prop :=
  ∃ timer, m.timer = some timer ∧ timer.Paced interval cycles calls

variable {m} {interval : Interval} {cycles calls : Nat}

theorem due_of_timer {timer : Timer} (htimer : m.timer = some timer) : m.due devices =
    List.replicate (timer.advance (m.elapsed devices)).1 timer.routine := by
  unfold due
  rw [htimer]

theorem length_due {timer : Timer} (htimer : m.timer = some timer) :
    (m.due devices).length = (timer.advance (m.elapsed devices)).1 := by
  rw [due_of_timer devices htimer]
  exact List.length_replicate

/-- One step of a run. -/
theorem Paced.timedStep (h : m.Paced interval cycles calls) :
    (m.timedStep devices).2.Paced interval (cycles + (m.elapsed devices).toNat)
      (calls + (m.due devices).length) := by
  obtain ⟨timer, htimer, hpaced⟩ := h
  obtain ⟨helapsed, hle⟩ := m.elapsed_eq devices
  refine ⟨(timer.advance (m.elapsed devices)).2, ?_, ?_⟩
  · rw [timedStep_eq, htimer]
    rfl
  · rw [length_due devices htimer]
    exact hpaced.advance _ (by omega)

variable {devices}

/-- The cycles that the steps from these machines add to the clock. -/
def totalElapsed (devices : Devices σ) (visited : List (Machine σ)) : Nat :=
  (visited.map fun v => (v.elapsed devices).toNat).sum

/-- The calls of routines after the steps from these machines, in order. -/
def totalDue (devices : Devices σ) (visited : List (Machine σ)) : List Nat :=
  visited.flatMap (·.due devices)

@[simp] theorem totalElapsed_cons (v : Machine σ) (rest : List (Machine σ)) :
    totalElapsed devices (v :: rest) =
      (v.elapsed devices).toNat + totalElapsed devices rest := rfl

@[simp] theorem totalElapsed_append (first second : List (Machine σ)) :
    totalElapsed devices (first ++ second) =
      totalElapsed devices first + totalElapsed devices second := by
  unfold totalElapsed
  rw [List.map_append, List.sum_append]

@[simp] theorem totalDue_cons (v : Machine σ) (rest : List (Machine σ)) :
    totalDue devices (v :: rest) = v.due devices ++ totalDue devices rest := rfl

@[simp] theorem totalDue_append (first second : List (Machine σ)) :
    totalDue devices (first ++ second) = totalDue devices first ++ totalDue devices second :=
  List.flatMap_append

/-- The steps of a run, however it ends. -/
theorem Paced.runSteps {budget start : UInt64} {limit : Nat} {outcome : Except Fault UInt64}
    {final : Machine σ} (h : m.Paced interval cycles calls)
    (hrun : m.runSteps devices budget start limit = (some outcome, final)) :
    final.Paced interval
        (cycles + totalElapsed devices (visits devices budget start limit m))
        (calls + (totalDue devices (visits devices budget start limit m)).length) ∧
      ∀ v ∈ visits devices budget start limit m, ∃ cycles calls, v.Paced interval cycles calls := by
  induction limit generalizing m cycles calls with
  | zero => cases hrun
  | succ limit ih =>
    -- Whether the loop goes on or not, the balance has been kept by the step.
    have hnext := h.timedStep devices
    rw [runSteps_succ] at hrun
    rw [visits, totalElapsed_cons, totalDue_cons, List.length_append, ← Nat.add_assoc,
      ← Nat.add_assoc, List.forall_mem_cons]
    split at hrun
    · next hgo =>
      rw [if_pos hgo]
      obtain ⟨hfinal, hvisits⟩ := ih hnext hrun
      exact ⟨hfinal, ⟨cycles, calls, h⟩, hvisits⟩
    · next hstop =>
      rw [if_neg hstop]
      cases hrun
      exact ⟨hnext, ⟨cycles, calls, h⟩, List.forall_mem_nil _⟩

/-! ## Sessions -/

/-- What a host does with a machine, from a first one on, with the machines from which the steps
of its runs started: runs that return, single steps, and anything else that leaves the timer
alone, such as setting the clock, a register or a line. -/
inductive Session (devices : Devices σ) (first : Machine σ) : List (Machine σ) → Machine σ → Prop
  where
  | first : Session devices first [] first
  | run {visited m outcome final} (cycles : UInt64) (limit : Nat) :
      Session devices first visited m →
      m.runSteps devices cycles m.cpu.clock limit = (some outcome, final) →
      Session devices first (visited ++ visits devices cycles m.cpu.clock limit m) final
  | step {visited m} : Session devices first visited m →
      Session devices first visited (m.step devices).2
  | other {visited m m'} : Session devices first visited m → m'.timer = m.timer →
      Session devices first visited m'

theorem Session.paced {first : Machine σ} {visited : List (Machine σ)}
    (h : Session devices first visited m) (hfirst : first.Paced interval 0 0) :
    m.Paced interval (totalElapsed devices visited) (totalDue devices visited).length ∧
      ∀ v ∈ visited, ∃ cycles calls, v.Paced interval cycles calls := by
  induction h with
  | first => exact ⟨hfirst, List.forall_mem_nil _⟩
  | run cycles limit _ hrun ih =>
    obtain ⟨hpaced, hvisited⟩ := ih
    obtain ⟨hfinal, hvisits⟩ := hpaced.runSteps hrun
    rw [totalElapsed_append, totalDue_append, List.length_append, List.forall_mem_append]
    exact ⟨hfinal, hvisited, hvisits⟩
  | @step _ m _ ih =>
    obtain ⟨⟨timer, htimer, hpaced⟩, hvisited⟩ := ih
    exact ⟨⟨timer, (m.step_timer devices).trans htimer, hpaced⟩, hvisited⟩
  | other _ heq ih =>
    obtain ⟨⟨timer, htimer, hpaced⟩, hvisited⟩ := ih
    exact ⟨⟨timer, heq.trans htimer, hpaced⟩, hvisited⟩

theorem reset_timer (m : Machine σ) : (m.reset devices).2.timer = m.timer.map Timer.restart := by
  obtain ⟨_, _, _, hreset⟩ | ⟨_, _, _, -, hreset⟩ := m.reset_cases devices <;>
    rw [hreset] <;>
    rfl

/-- A machine whose timer has a whole interval ahead: just installed, or after a reset. -/
inductive Fresh (devices : Devices σ) (interval : Interval) : Machine σ → Prop
  where
  | installed (m : Machine σ) (routine : Nat) :
      Fresh devices interval (m.setTimer interval routine)
  | reset {m : Machine σ} {timer : Timer} (htimer : m.timer = some timer)
      (hinterval : timer.interval = interval) : Fresh devices interval (m.reset devices).2

theorem Fresh.paced (h : m.Fresh devices interval) : m.Paced interval 0 0 := by
  cases h with
  | installed m routine => exact ⟨_, rfl, Timer.paced_start interval routine⟩
  | @reset m timer htimer hinterval =>
    obtain rfl := hinterval
    exact ⟨timer.restart, by rw [reset_timer, htimer]; rfl,
      Timer.paced_start timer.interval timer.routine⟩

/-- The cadence of a timer over everything a host does after it has been installed or the
machine has been reset. However the runs end, and whatever the devices and routines do, the
routine has been called once for every interval that the steps of the runs have added to the
clock; cycles outside of runs do not count. After each of these steps the routine has run on the
bus as often as it was due, and the countdown is above zero and within one interval. The timer's
arithmetic stays within signed 64-bit words and its loop ends after these calls. A step that
ends in a bus fault makes none. -/
theorem timer_calls_exact {first : Machine σ} {visited : List (Machine σ)}
    (hfresh : first.Fresh devices interval) (h : Session devices first visited m) :
    (totalDue devices visited).length =
        65536 * totalElapsed devices visited / interval.units ∧
      ∀ v ∈ visited, (v.elapsed devices).toNat = v.cost devices ∧
        (∃ timer countdown, v.timer = some timer ∧ timer.interval = interval ∧
          (v.timedStep devices).2.timer = some { timer with countdown } ∧
          v.due devices = List.replicate (v.due devices).length timer.routine ∧
          (v.timedStep devices).2.bus =
            (v.due devices).foldl (fun bus id => devices.ticked id bus) (v.step devices).2.bus ∧
          0 < countdown ∧ countdown ≤ interval.units ∧
          timer.advance64? (v.elapsed devices) ((v.due devices).length + 1) =
            some ((v.due devices).length, countdown)) ∧
        ∀ fault, (v.timedStep devices).1 = .error fault → fault.isBusFault →
          v.due devices = [] := by
  obtain ⟨⟨timer, -, hpaced⟩, hvisited⟩ := h.paced hfresh.paced
  refine ⟨hpaced.calls_eq, fun v hv => ?_⟩
  obtain ⟨cycles, calls, timer, htimer, hpaced⟩ := hvisited v hv
  obtain ⟨helapsed, hle⟩ := v.elapsed_eq devices
  have hadvanced := hpaced.advance (v.elapsed devices) (by omega)
  have hlength : (v.due devices).length = (timer.advance (v.elapsed devices)).1 :=
    length_due devices htimer
  refine ⟨helapsed, ?_, ?_⟩
  · refine ⟨timer, (timer.advance (v.elapsed devices)).2.countdown, htimer,
      hpaced.interval_eq, ?_, ?_, v.timedStep_bus devices, ?_, ?_, ?_⟩
    · rw [timedStep_eq, htimer]
      rfl
    · rw [hlength]
      exact due_of_timer devices htimer
    · exact hadvanced.pos
    · exact hadvanced.le
    · rw [hlength]
      exact hpaced.advance64?_eq _
  · intro fault hfault hbus
    rw [timedStep_eq] at hfault
    rw [v.elapsed_of_busFault devices hfault hbus, hpaced.advance_zero] at hlength
    exact List.eq_nil_of_length_eq_zero hlength

theorem timer_calls_exact_countingSpin : ∃ visited final,
    Session .counting countingSpin visited final ∧
      totalElapsed .counting visited = 3 ∧ (totalDue .counting visited).length = 1 ∧
      final.bus.devices = 1 := by
  have hstop : ¬ countingSpin.Continues .counting 1 countingSpin.cpu.clock := by
    rintro ⟨-, hmore⟩
    rw [timedStep_cpu] at hmore
    exact hmore (by decide +kernel)
  have hrun := countingSpin.runSteps_succ .counting 1 countingSpin.cpu.clock 0
  rw [if_neg hstop] at hrun
  have hvisits : visits .counting 1 countingSpin.cpu.clock 1 countingSpin = [countingSpin] := by
    rw [visits, if_neg hstop]
  have hsession := Session.run 1 1 .first hrun
  rw [hvisits, List.nil_append] at hsession
  have helapsed : totalElapsed .counting [countingSpin] = 3 := by decide +kernel
  have hcounted : (countingSpin.timedStep .counting).2.bus.devices = 1 := by decide +kernel
  refine ⟨_, _, hsession, helapsed, ?_, hcounted⟩
  have hcalls := (timer_calls_exact
    (.installed { countingSpin with timer := none } 0) hsession).1
  rw [helapsed] at hcalls
  exact hcalls

end Machine

end Mc6809
