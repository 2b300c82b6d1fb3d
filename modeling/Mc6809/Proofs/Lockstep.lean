/-
  Machines in lockstep. Two buses are alike, for a relation that every access and every change of a
  line preserves, if they answer alike and hold the same lines and the same storage
  (`Bus.Bisimulation`). The processor reaches the world only through its traffic, and traffic takes
  the same course on alike buses (`Bisimulation.course`). So processors in the same state stay in
  the same state, whatever a host does with both of them (`Alike.transcript`).

  What a host does is a list of calls, and what it sees of each is an `Observation`: the answer,
  the exchanges with the bus, and the state and the storage that are left. The fault that was
  recorded before and the log have no part in any of it. A run is compared without a timer.
-/
import Mc6809.Proofs.Visits

namespace Mc6809

/-! ## Buses -/

namespace Bus

variable {σ τ α : Type} {devices : Devices σ} {others : Devices τ} {R : Bus σ → Bus τ → Prop}
  {bus : Bus σ} {other : Bus τ}

/-- Buses in this relation, with these devices, cannot be told apart from the processor's side. -/
structure Bisimulation (devices : Devices σ) (others : Devices τ) (R : Bus σ → Bus τ → Prop) :
    Prop where
  lines : ∀ {bus other}, R bus other → other.lines = bus.lines
  store : ∀ {bus other}, R bus other → other.store = bus.store
  read : ∀ {bus other}, R bus other → ∀ address,
    (other.readResult others address).1 = (bus.readResult devices address).1 ∧
      R (bus.readResult devices address).2 (other.readResult others address).2
  write : ∀ {bus other}, R bus other → ∀ address value,
    (other.writeResult others address value).1 = (bus.writeResult devices address value).1 ∧
      R (bus.writeResult devices address value).2 (other.writeResult others address value).2
  setLine : ∀ {bus other}, R bus other → ∀ interrupt asserted,
    R (bus.setLine interrupt asserted) (other.setLine interrupt asserted)

/-- Every board is like itself. -/
theorem Bisimulation.refl (devices : Devices σ) : Bisimulation devices devices Eq where
  lines h := h ▸ rfl
  store h := h ▸ rfl
  read h _ := h ▸ ⟨rfl, rfl⟩
  write h _ _ := h ▸ ⟨rfl, rfl⟩
  setLine h _ _ := h ▸ rfl

/-- Traffic takes the same course on alike buses and leaves them alike. -/
theorem Bisimulation.course (h : Bisimulation devices others R) (t : Traffic α)
    (hbus : R bus other) :
    (t.course others other).exchanges = (t.course devices bus).exchanges ∧
      (t.course others other).outcome = (t.course devices bus).outcome ∧
      R (t.course devices bus).bus (t.course others other).bus := by
  induction t generalizing bus other with
  | done result => exact ⟨rfl, rfl, hbus⟩
  | read address next ih =>
    obtain ⟨hanswer, hafter⟩ := h.read hbus address
    rw [Traffic.course, Traffic.course]
    generalize bus.readResult devices address = mine at hanswer hafter ⊢
    generalize other.readResult others address = theirs at hanswer hafter ⊢
    obtain ⟨fault | value, after⟩ := mine <;> obtain ⟨fault' | value', after'⟩ := theirs <;>
      cases hanswer
    · exact ⟨rfl, rfl, hafter⟩
    · obtain ⟨hexchanges, houtcome, hrest⟩ := ih value hafter
      exact ⟨congrArg (_ :: ·) hexchanges, houtcome, hrest⟩
  | write address value next ih =>
    obtain ⟨hanswer, hafter⟩ := h.write hbus address value
    rw [Traffic.course, Traffic.course]
    generalize bus.writeResult devices address value = mine at hanswer hafter ⊢
    generalize other.writeResult others address value = theirs at hanswer hafter ⊢
    obtain ⟨fault | _, after⟩ := mine <;> obtain ⟨fault' | _, after'⟩ := theirs <;>
      cases hanswer
    · exact ⟨rfl, rfl, hafter⟩
    · obtain ⟨hexchanges, houtcome, hrest⟩ := ih hafter
      exact ⟨congrArg (_ :: ·) hexchanges, houtcome, hrest⟩
  | releaseNmi next ih =>
    obtain ⟨hexchanges, houtcome, hrest⟩ := ih (h.setLine hbus .nmi false)
    exact ⟨congrArg (_ :: ·) hexchanges, houtcome, hrest⟩
  | report event next ih =>
    obtain ⟨hexchanges, houtcome, hrest⟩ := ih hbus
    exact ⟨congrArg (_ :: ·) hexchanges, houtcome, hrest⟩

end Bus

/-! ## Calls of a host -/

/-- What a host can call for between two resets. -/
inductive HostCall where
  | step
  | run (cycles : UInt64)
  | setLine (interrupt : Interrupt) (asserted : Bool)
  | modifyRegs (change : Registers → Registers)

/-- What a call returns. -/
inductive Answer where
  | nothing
  | stepped (result : Except Fault Unit)
  | ran (result : Option (Except Fault UInt64))

/-- What a host sees of a call. -/
structure Observation where
  answer : Answer
  /-- What the processor has asked of the bus meanwhile, in order, with the bus's answers. -/
  exchanges : List Exchange
  /-- Registers, clock, lines and latches after the call. -/
  snapshot : Snapshot
  /-- All memory after the call. -/
  store : Store

/-- The call runs the processor. -/
def HostCall.executes : HostCall → Bool
  | step | run _ => true
  | setLine .. | modifyRegs _ => false

namespace Machine

variable {σ τ : Type} (devices : Devices σ) (m : Machine σ)

/-- What the processor asks of the bus in a run. -/
def runExchanges (cycles : UInt64) : List Exchange :=
  (visits devices cycles m.cpu.clock (2 * cycles.toNat + 1) m).flatMap fun visited =>
    (visited.course devices).exchanges

/-- Does what a host calls for; the answer, and what has been asked of the bus. -/
def obey : HostCall → (Answer × List Exchange) × Machine σ
  | .step => ((.stepped (m.step devices).1, (m.course devices).exchanges), (m.step devices).2)
  | .run cycles =>
    ((.ran (m.run devices cycles).1, m.runExchanges devices cycles), (m.run devices cycles).2)
  | .setLine interrupt asserted => ((.nothing, []), m.setLine interrupt asserted)
  | .modifyRegs change => ((.nothing, []), m.modifyRegs change)

/-- What a host sees of a call that leaves this machine. -/
def observed (result : Answer × List Exchange) : Observation :=
  ⟨result.1, result.2, m.snapshot, m.bus.store⟩

/-- What a host sees of a list of calls, and the machine that they leave. -/
def transcript : List HostCall → Machine σ → List Observation × Machine σ
  | [], m => ([], m)
  | call :: calls, m =>
    let (result, m) := m.obey devices call
    let (observations, last) := m.transcript calls
    (m.observed result :: observations, last)

/-! ## Machines without a timer -/

variable {devices m}

/-- The steps of a run are plain steps. -/
theorem timedStep_of_untimed (hm : m.timer = none) : m.timedStep devices = m.step devices := by
  have htimer : (m.step devices).2.timer = none := (m.step_timer devices).trans hm
  unfold timedStep advanceTimer
  dsimp only
  rw [htimer]

theorem runSteps_untimed (hm : m.timer = none) {cycles start : UInt64} (limit : Nat) :
    (m.runSteps devices cycles start limit).2.timer = none := by
  induction limit generalizing m with
  | zero => exact hm
  | succ limit ih =>
    have hnext : (m.step devices).2.timer = none := (m.step_timer devices).trans hm
    rw [runSteps_succ, timedStep_of_untimed hm]
    split
    · exact ih hnext
    · exact hnext

/-- No call installs a timer. -/
theorem obey_untimed (hm : m.timer = none) (call : HostCall) :
    (m.obey devices call).2.timer = none := by
  cases call with
  | step => exact (m.step_timer devices).trans hm
  | run cycles => exact runSteps_untimed hm _
  | setLine | modifyRegs => exact hm

/-! ## Lockstep -/

/-- The processors are in the same state, and the buses are alike. -/
structure Alike (R : Bus σ → Bus τ → Prop) (m : Machine σ) (other : Machine τ) : Prop where
  cpu : other.cpu = m.cpu
  bus : R m.bus other.bus

namespace Alike

variable {others : Devices τ} {R : Bus σ → Bus τ → Prop} {other : Machine τ}

theorem snapshot (hbus : Bus.Bisimulation devices others R) (h : Alike R m other) :
    other.snapshot = m.snapshot := by
  unfold Machine.snapshot
  rw [h.cpu, hbus.lines h.bus]

/-- What a host sees of alike machines is the same. -/
theorem observed (hbus : Bus.Bisimulation devices others R) (h : Alike R m other)
    (result : Answer × List Exchange) : other.observed result = m.observed result := by
  unfold Machine.observed
  rw [h.snapshot hbus, hbus.store h.bus]

/-- A step leaves alike machines alike, with the same fault recorded. -/
theorem step (hbus : Bus.Bisimulation devices others R) (h : Alike R m other) :
    (other.step others).1 = (m.step devices).1 ∧
      (other.course others).exchanges = (m.course devices).exchanges ∧
      (other.step others).2.fault = (m.step devices).2.fault ∧
      Alike R (m.step devices).2 (other.step others).2 := by
  have htraffic : (Action.step other.bus.lines).start other.cpu =
      (Action.step m.bus.lines).start m.cpu := by
    rw [h.cpu, hbus.lines h.bus]
  obtain ⟨hexchanges, houtcome, hafter⟩ :=
    hbus.course ((Action.step m.bus.lines).start m.cpu) h.bus
  rw [← Machine.course, ← htraffic, ← Machine.course] at hexchanges houtcome hafter
  obtain ⟨hresult, hcpu, hfault⟩ := m.step_congr devices h.cpu houtcome
  refine ⟨hresult, hexchanges, hfault, hcpu, ?_⟩
  rw [step_bus, step_bus]
  exact hafter

/-- A run without a timer leaves alike machines alike. -/
theorem runSteps (hbus : Bus.Bisimulation devices others R) (h : Alike R m other)
    (hm : m.timer = none) (hother : other.timer = none) {cycles start : UInt64} (limit : Nat) :
    (other.runSteps others cycles start limit).1 = (m.runSteps devices cycles start limit).1 ∧
      (visits others cycles start limit other).flatMap (fun v => (v.course others).exchanges) =
        (visits devices cycles start limit m).flatMap (fun v => (v.course devices).exchanges) ∧
      (0 < limit ∨ other.fault = m.fault →
        (other.runSteps others cycles start limit).2.fault =
          (m.runSteps devices cycles start limit).2.fault) ∧
      Alike R (m.runSteps devices cycles start limit).2
        (other.runSteps others cycles start limit).2 := by
  induction limit generalizing m other with
  | zero => exact ⟨rfl, rfl, fun hfault => hfault.resolve_left (Nat.lt_irrefl 0), h⟩
  | succ limit ih =>
    obtain ⟨hresult, hexchanges, hfault, hafter⟩ := h.step hbus
    have hcontinues : other.Continues others cycles start ↔ m.Continues devices cycles start := by
      unfold Continues
      rw [timedStep_of_untimed hm, timedStep_of_untimed hother, hresult, hafter.cpu]
    rw [runSteps_succ, runSteps_succ, visits, visits, List.flatMap_cons, List.flatMap_cons,
      hexchanges]
    by_cases hgo : m.Continues devices cycles start
    · rw [if_pos hgo, if_pos hgo, if_pos (hcontinues.mpr hgo), if_pos (hcontinues.mpr hgo),
        timedStep_of_untimed hm, timedStep_of_untimed hother]
      obtain ⟨hrest, hasked, hlast, hend⟩ := ih hafter ((m.step_timer devices).trans hm)
        ((other.step_timer others).trans hother)
      exact ⟨hrest, congrArg _ hasked, fun _ => hlast (.inr hfault), hend⟩
    · rw [if_neg hgo, if_neg hgo, if_neg fun h => hgo (hcontinues.mp h),
        if_neg fun h => hgo (hcontinues.mp h), timedStep_of_untimed hm, timedStep_of_untimed hother,
        hresult, hafter.cpu]
      exact ⟨rfl, rfl, fun _ => hfault, hafter⟩

theorem run (hbus : Bus.Bisimulation devices others R) (h : Alike R m other)
    (hm : m.timer = none) (hother : other.timer = none) (cycles : UInt64) :
    (other.run others cycles).1 = (m.run devices cycles).1 ∧
      other.runExchanges others cycles = m.runExchanges devices cycles ∧
      (other.run others cycles).2.fault = (m.run devices cycles).2.fault ∧
      Alike R (m.run devices cycles).2 (other.run others cycles).2 := by
  unfold Machine.run runExchanges
  rw [h.cpu]
  obtain ⟨hresult, hexchanges, hfault, hafter⟩ := h.runSteps hbus hm hother _
  exact ⟨hresult, hexchanges, hfault (.inl (Nat.succ_pos _)), hafter⟩

/-- Every call has the same answer on alike machines and leaves them alike. -/
theorem obey (hbus : Bus.Bisimulation devices others R) (h : Alike R m other) (call : HostCall)
    (huntimed : ∀ cycles, call = .run cycles → m.timer = none ∧ other.timer = none) :
    (other.obey others call).1 = (m.obey devices call).1 ∧
      (call.executes ∨ other.fault = m.fault →
        (other.obey others call).2.fault = (m.obey devices call).2.fault) ∧
      Alike R (m.obey devices call).2 (other.obey others call).2 := by
  cases call with
  | step =>
    obtain ⟨hresult, hexchanges, hfault, hafter⟩ := h.step hbus
    exact ⟨congrArg₂ (fun r w => (Answer.stepped r, w)) hresult hexchanges, fun _ => hfault, hafter⟩
  | run cycles =>
    obtain ⟨hm, hother⟩ := huntimed cycles rfl
    obtain ⟨hresult, hexchanges, hfault, hafter⟩ := h.run hbus hm hother cycles
    exact ⟨congrArg₂ (fun r w => (Answer.ran r, w)) hresult hexchanges, fun _ => hfault, hafter⟩
  | setLine interrupt asserted =>
    exact ⟨rfl, fun hfault => hfault.resolve_left Bool.false_ne_true,
      h.cpu, hbus.setLine h.bus interrupt asserted⟩
  | modifyRegs change =>
    refine ⟨rfl, fun hfault => hfault.resolve_left Bool.false_ne_true, ?_, h.bus⟩
    unfold Machine.obey Machine.modifyRegs
    rw [h.cpu]

/-- A host sees the same of alike machines, whatever it does. Once the processors have run, the same
fault is recorded in both. -/
theorem transcript (hbus : Bus.Bisimulation devices others R) (h : Alike R m other)
    (calls : List HostCall)
    (huntimed : ∀ cycles, .run cycles ∈ calls → m.timer = none ∧ other.timer = none) :
    (other.transcript others calls).1 = (m.transcript devices calls).1 ∧
      ((∃ call ∈ calls, call.executes) ∨ other.fault = m.fault →
        (other.transcript others calls).2.fault = (m.transcript devices calls).2.fault) ∧
      Alike R (m.transcript devices calls).2 (other.transcript others calls).2 := by
  induction calls generalizing m other with
  | nil => exact ⟨rfl, fun hfault => hfault.resolve_left (by simp), h⟩
  | cons call calls ih =>
    obtain ⟨hresult, hfault, hafter⟩ := h.obey hbus call fun cycles hcall =>
      huntimed cycles (hcall ▸ List.mem_cons_self)
    obtain ⟨hrest, hlast, hend⟩ := ih hafter fun cycles hmem =>
      have hnone := huntimed cycles (List.mem_cons_of_mem _ hmem)
      ⟨obey_untimed hnone.1 call, obey_untimed hnone.2 call⟩
    refine ⟨?_, fun hrun => hlast ?_, hend⟩
    · unfold Machine.transcript
      dsimp only
      rw [hresult, hafter.observed hbus, hrest]
    · simp only [List.mem_cons, exists_eq_or_imp] at hrun
      obtain (hcall | hcalls) | hsame := hrun
      · exact .inr (hfault (.inl hcall))
      · exact .inl hcalls
      · exact .inr (hfault (.inr hsame))

end Alike

end Machine

end Mc6809
