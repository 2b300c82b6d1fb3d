/-
  The two wait states along everything that a host can do with a processor, short of setting its
  state: steps, runs and resets, changes of timer, lines, pages and memory, with any devices, and
  with faults at any point (`Machine.Reachable`).

  Only a completed CWAI begins the wait in CWAI, and it leaves SYNC clear. From there to the step
  that ends the wait nothing of the processor changes but the clock (`Reachable.held`). So what
  holds of the processor after CWAI holds as long as it waits: E is set, and the frame that CWAI
  has pushed holds the registers as they are. The interrupt that ends the wait pushes nothing, and
  an RTI that finds the CC of this frame on the stack pulls the whole of it.
-/
import Mc6809.Proofs.Writes

namespace Mc6809

namespace Action

/-! ## Operations -/

/-- Whether the processor waits in CWAI stays the same. -/
abbrev Law.keepsCwai : Law := .keeps Cpu.cwai

instance : AllowsRegs Law.keepsCwai := ⟨fun _ _ => rfl⟩
instance : AllowsCharges Law.keepsCwai := ⟨fun _ _ => rfl⟩
instance : AllowsArming Law.keepsCwai := ⟨fun _ => rfl⟩

theorem effect_keepsCwai {operation : Operation} (h : operation ≠ .waitForInterrupt) :
    operation.effect.Obeys Law.keepsCwai := by
  by_cases hwaits : operation.waits
  · cases operation with
    | sync =>
      have : Obeys Law.keepsCwai (modify fun cpu => { cpu with sync := true } : Action Unit) :=
        obeys_modify fun _ => rfl
      simp only [Operation.effect, Effect.Obeys]
      infer_instance
    | waitForInterrupt => exact absurd rfl h
    | _ => cases hwaits
  · exact Operation.effect_obeys_of (fun _ => inferInstance) (fun _ => inferInstance)
      (fun _ => inferInstance) (fun _ => inferInstance) fun h => absurd h hwaits

/-- RTI pulls the frame of some registers and brings back those that are in it. -/
theorem ends_returnFromInterrupt {cpu cpu' : Cpu} {w : List Exchange}
    (h : returnFromInterrupt.Ends cpu w (.ok ()) cpu') :
    ∃ saved : Registers, w = fetched cpu.regs.s saved.frame ∧
      cpu'.regs = cpu.regs.unstack saved := by
  unfold Ends returnFromInterrupt pullWord at h
  simp only [bind_assoc, start_bind, start_pullByte, start_modifyFlags, start_regs,
    Traffic.done_bind, Traffic.read_bind, Traffic.ends_read_ok, Registers.index,
    Registers.setIndex] at h
  obtain ⟨cc, _, rfl, h⟩ := h
  -- The bytes that have been pulled are a frame of the registers that they make up.
  by_cases hentire : (Flags.ofByte cc).entire = true
  · simp only [hentire, if_true, pure_bind, start_bind, start_pullByte,
      start_modifyRegs, start_charge, start_jump, Traffic.done_bind, Traffic.read_bind,
      Traffic.ends_read_ok, ends_leaf, Registers.index, Registers.setIndex] at h
    obtain ⟨a, _, rfl, b, _, rfl, dp, _, rfl, xh, _, rfl, xl, _, rfl, yh, _, rfl, yl, _, rfl, uh, _,
      rfl, ul, _, rfl, pch, _, rfl, pcl, _, rfl, rfl, -, rfl⟩ := h
    refine ⟨{
      a, b, dp
      x := joinBytes xh xl
      y := joinBytes yh yl
      u := joinBytes uh ul
      pc := joinBytes pch pcl
      cc := .ofByte cc }, ?_, ?_⟩
    · simp [Registers.frame, hentire, fetched]
    · simp [Registers.unstack, hentire, UInt16.add_assoc]
  · simp only [hentire, Bool.false_eq_true, if_false, pure_bind, start_bind,
      start_pullByte, start_jump, Traffic.done_bind, Traffic.read_bind, Traffic.ends_read_ok,
      ends_leaf, Registers.index, Registers.setIndex] at h
    obtain ⟨pch, _, rfl, pcl, _, rfl, rfl, -, rfl⟩ := h
    refine ⟨{ pc := joinBytes pch pcl, cc := .ofByte cc }, ?_, ?_⟩
    · simp [Registers.frame, hentire, fetched]
    · simp [Registers.unstack, hentire, UInt16.add_assoc]

end Action

/-- CC is the first byte of a frame. -/
theorem Registers.head?_frame (regs : Registers) : regs.frame.head? = some regs.cc.toByte := by
  unfold frame
  split <;> rfl

namespace Machine

variable {σ : Type} {devices : Devices σ} {m : Machine σ}

/-! ## Instructions -/

namespace Completes

variable {instruction : Instruction} {bytes : List UInt8}

/-- Only CWAI begins to wait in CWAI. -/
theorem waitForInterrupt_of_cwai (h : m.Completes devices instruction bytes)
    (hcwai : (m.step devices).2.cpu.cwai = true) :
    instruction.operation = .waitForInterrupt := by
  by_contra hother
  obtain ⟨w, -, -, hends⟩ := h.exists_ends
  have := Action.obeys_resolve (Action.effect_keepsCwai hother) instruction.entry.mode
  have hkept : (m.step devices).2.cpu.cwai = (instruction.begun m.cpu).cwai :=
    Action.Law.keepsCwai.of_returned hends
  exact h.awake (.inl (hkept.symm.trans hcwai))

/-- CWAI leaves SYNC clear and E set, and the frame that it has pushed holds the registers as it
leaves them. -/
theorem frame_of_waitForInterrupt (h : m.Completes devices instruction bytes)
    (hop : instruction.operation = .waitForInterrupt) :
    (m.step devices).2.cpu.sync = false ∧ (m.step devices).2.cpu.regs.cc.entire = true ∧
      m.written devices = pushes ((m.step devices).2.cpu.regs.s + 12)
        (m.step devices).2.cpu.regs.frame.reverse := by
  obtain ⟨w, hexchanges, -, hends⟩ := h.exists_ends
  have hadmits := instruction.admits
  rw [hop] at hends hadmits
  rw [← Action.fixedMode_of_admits hadmits rfl] at hends
  obtain ⟨mask, -, hwritten, hcpu⟩ := Action.ends_waitForInterrupt hends
  have hpushed : m.written devices = writesOf w := by
    unfold written
    rw [hexchanges, writesOf_append, writesOf_fetched]
    rfl
  rw [hpushed, hwritten, hcpu]
  refine ⟨rfl, congrArg Flags.entire (Flags.ofByte_or_entire _), ?_⟩
  dsimp only
  rw [UInt16.sub_add_cancel]
  rfl

/-- RTI reads its opcode and then the frame of some registers, which it brings back. -/
theorem exists_frame (h : m.Completes devices instruction bytes)
    (hop : instruction.operation = .returnFromInterrupt) : ∃ saved : Registers,
      bytes = saved.frame ∧
      requests (m.course devices).exchanges =
        fetched m.cpu.regs.pc instruction.code ++ fetched m.cpu.regs.s saved.frame ∧
      (m.step devices).2.cpu.regs = (instruction.begun m.cpu).regs.unstack saved := by
  obtain ⟨w, hexchanges, hbytes, hends⟩ := h.exists_ends
  have hadmits := instruction.admits
  rw [hop] at hends hadmits
  rw [← Action.fixedMode_of_admits hadmits rfl] at hends
  obtain ⟨saved, rfl, hregs⟩ := Action.ends_returnFromInterrupt hends
  refine ⟨saved, ?_, ?_, hregs⟩
  · rw [← hbytes, Action.readBytes_fetched]
  · rw [hexchanges, requests_append, requests_fetched]
    exact congrArg _ (requests_fetched _ _)

end Completes

/-! ## Reachable states -/

/-- What becomes of a fresh processor by steps, runs and resets, with any devices, and by changes
from outside of timer, lines, pages and memory. No register is set and no copy put back. -/
inductive Reachable : Machine σ → Prop where
  | fresh (bus : Bus σ) : Reachable { bus }
  | step {m : Machine σ} (devices : Devices σ) : Reachable m → Reachable (m.step devices).2
  | run {m : Machine σ} (devices : Devices σ) (cycles : UInt64) :
      Reachable m → Reachable (m.run devices cycles).2
  | reset {m : Machine σ} (devices : Devices σ) : Reachable m → Reachable (m.reset devices).2
  | outside {m : Machine σ} (timer : Option Timer) (bus : Bus σ) (log : Array Event) :
      Reachable m → Reachable { m with timer, bus, log }

/-- The processor is as a CWAI has left it, but for the clock, and the step of this origin has
completed that CWAI. -/
structure HeldBy (m : Machine σ) (devices : Devices σ) (origin : Machine σ) : Prop where
  reachable : origin.Reachable
  completes : ∃ instruction bytes, origin.Completes devices instruction bytes ∧
    instruction.operation = .waitForInterrupt
  cpu : m.cpu = { (origin.step devices).2.cpu with clock := m.cpu.clock }

/-- A processor that waits in CWAI is held by one. -/
def Held (m : Machine σ) : Prop :=
  m.cpu.cwai = true → ∃ devices origin, m.HeldBy devices origin

theorem HeldBy.sync_eq_false {origin : Machine σ} (h : m.HeldBy devices origin) :
    m.cpu.sync = false := by
  obtain ⟨_, _, hcompletes, hop⟩ := h.completes
  rw [h.cpu]
  exact (hcompletes.frame_of_waitForInterrupt hop).1

theorem Held.of_eq {m' : Machine σ} (h : m.Held) (hcpu : m'.cpu = m.cpu) : m'.Held := by
  unfold Held
  rw [hcpu]
  intro hcwai
  obtain ⟨_, origin, hheld⟩ := h hcwai
  exact ⟨_, origin, hheld.reachable, hheld.completes, by rw [hcpu]; exact hheld.cpu⟩

theorem Held.step (hreachable : m.Reachable) (h : m.Held) : (m.step devices).2.Held := by
  intro hcwai
  cases m.fate devices with
  | served _ hserves _ => cases hserves.cwai.symm.trans hcwai
  | idle _ _ hcpu =>
    rw [hcpu] at hcwai
    have hwaits : m.cpu.cwai = true := by
      unfold Action.sampled at hcwai
      split at hcwai <;> exact hcwai
    obtain ⟨_, origin, hheld⟩ := h hwaits
    rw [Action.sampled_of_sync_eq_false hheld.sync_eq_false, hheld.cpu] at hcpu
    exact ⟨_, origin, hheld.reachable, hheld.completes, by rw [hcpu]⟩
  | completed hcompletes =>
    have hop := hcompletes.waitForInterrupt_of_cwai hcwai
    exact ⟨devices, m, hreachable, ⟨_, _, hcompletes, hop⟩, rfl⟩
  | undecodable _ hawake _ hcpu =>
    rw [hcpu] at hcwai
    exact absurd (.inl hcwai) hawake
  | refused _ _ hcpu => exact h.of_eq hcpu hcwai

theorem Reachable.held (h : m.Reachable) : m.Held := by
  induction h with
  | fresh bus => exact fun hcwai => nomatch hcwai
  | step devices hreachable ih => exact ih.step hreachable
  | run devices cycles hreachable ih =>
    exact (runSteps_induction (P := fun _ m => m.Reachable ∧ m.Held)
      (fun h => ⟨h.1.step devices, h.2.step h.1⟩)
      (fun timer bus log h => ⟨h.1.outside timer bus log, h.2.of_eq rfl⟩) []
      ⟨hreachable, ih⟩ _).2
  | @reset m devices _ _ =>
    intro hcwai
    obtain ⟨_, hcpu⟩ := m.reset_cpu devices
    rw [hcpu] at hcwai
    cases hcwai
  | outside timer bus log _ ih => exact ih.of_eq rfl

/-! ## The end of the wait -/

/-- An interrupt that is served in CWAI pushes nothing and keeps S and E. -/
theorem step_of_wins_of_cwai {interrupt : Interrupt} (hcwai : m.cpu.cwai = true)
    (hwins : interrupt.Wins m.bus.lines m.cpu) (hok : (m.step devices).1 = .ok ()) :
    m.written devices = [] ∧ (m.step devices).2.cpu.cwai = false ∧
      (m.step devices).2.cpu.regs.s = m.cpu.regs.s ∧
      (m.step devices).2.cpu.regs.cc.entire = m.cpu.regs.cc.entire := by
  obtain ⟨high, low, hserves, hcpu⟩ := step_of_wins hwins hok
  refine ⟨?_, hserves.cwai, ?_, ?_⟩
  · unfold written
    rw [hserves.exchanges, Interrupt.saves, if_pos hcwai, writesOf_append,
      Interrupt.writesOf_enters]
    rfl
  · rw [hcpu]
    unfold Interrupt.saved
    rw [if_pos hcwai]
  · rw [hserves.cc]
    exact if_pos hcwai

/-- An RTI that pulls a CC with E set pulls a full frame. -/
theorem Completes.full_frame {instruction : Instruction} {bytes : List UInt8} {cc : Flags}
    (h : m.Completes devices instruction bytes)
    (hop : instruction.operation = .returnFromInterrupt) (hcc : bytes.head? = some cc.toByte)
    (hentire : cc.entire = true) : bytes.length = 12 ∧
      requests (m.course devices).exchanges =
        fetched m.cpu.regs.pc instruction.code ++ fetched m.cpu.regs.s bytes ∧
      (m.step devices).2.cpu.regs.s = m.cpu.regs.s + 12 := by
  obtain ⟨saved, rfl, hrequests, hregs⟩ := h.exists_frame hop
  rw [saved.head?_frame, Option.some.injEq] at hcc
  have hsaved : saved.cc.entire = true := by
    rw [← Flags.ofByte_toByte saved.cc, hcc, Flags.ofByte_toByte, hentire]
  refine ⟨?_, hrequests, ?_⟩
  · rw [saved.length_frame, if_pos hsaved]
  · rw [hregs, Registers.unstack, if_pos hsaved]
    rfl

/-- The wait states of a machine that is reached without setting its state. It is not in CWAI and
SYNC at once. In CWAI E is set, and a CWAI that has completed has pushed the very registers as a
frame that stands at S. The interrupt that ends the wait pushes nothing and leaves S there, and an
RTI that then finds the CC of this frame at S pulls all twelve bytes. -/
theorem Reachable.wait_states (h : m.Reachable) : ¬ (m.cpu.cwai ∧ m.cpu.sync) ∧
    (m.cpu.cwai → m.cpu.regs.cc.entire ∧
      (∃ devices origin, m.HeldBy devices origin ∧ origin.written devices =
        pushes (m.cpu.regs.s + 12) m.cpu.regs.frame.reverse) ∧
      (∀ (devices : Devices σ) (interrupt : Interrupt), interrupt.Wins m.bus.lines m.cpu →
        (m.step devices).1 = .ok () → m.written devices = [] ∧
          (m.step devices).2.cpu.cwai = false ∧
          (m.step devices).2.cpu.regs.s = m.cpu.regs.s ∧
          (m.step devices).2.cpu.regs.cc.entire = m.cpu.regs.cc.entire) ∧
      ∀ (devices : Devices σ) (later : Machine σ) instruction bytes,
        later.Completes devices instruction bytes →
        instruction.operation = .returnFromInterrupt →
        bytes.head? = some m.cpu.regs.cc.toByte →
        bytes.length = 12 ∧
          requests (later.course devices).exchanges =
            fetched later.cpu.regs.pc instruction.code ++ fetched later.cpu.regs.s bytes ∧
          (later.step devices).2.cpu.regs.s = later.cpu.regs.s + 12) := by
  refine ⟨fun ⟨hcwai, hsync⟩ => ?_, fun hcwai => ?_⟩
  · obtain ⟨_, _, hheld⟩ := h.held hcwai
    exact Bool.false_ne_true (hheld.sync_eq_false.symm.trans hsync)
  · obtain ⟨devices, origin, hheld⟩ := h.held hcwai
    obtain ⟨_, _, hcompletes, hop⟩ := hheld.completes
    obtain ⟨-, hentire, hwritten⟩ := hcompletes.frame_of_waitForInterrupt hop
    have hregs : m.cpu.regs = (origin.step devices).2.cpu.regs := by rw [hheld.cpu]
    rw [← hregs] at hentire hwritten
    exact ⟨hentire, ⟨devices, origin, hheld, hwritten⟩,
      fun _ _ hwins hok => step_of_wins_of_cwai hcwai hwins hok,
      fun _ _ _ _ hcompletes hop hcc => hcompletes.full_frame hop hcc hentire⟩

/-- A program that begins with a CWAI. -/
def waitingFirst : Machine Unit := onePage #[0x3C, 0xFF]

theorem wait_states_waitingFirst :
    (waitingFirst.step Devices.none).2.cpu.cwai = true ∧
      (waitingFirst.step Devices.none).2.cpu.sync = false ∧
      (waitingFirst.step Devices.none).2.cpu.regs.cc.entire = true := by
  have hreachable : (waitingFirst.step Devices.none).2.Reachable :=
    (Reachable.fresh waitingFirst.bus).step Devices.none
  have hcwai : (waitingFirst.step Devices.none).2.cpu.cwai = true := by
    decide +kernel
  obtain ⟨hexclusive, hwaiting⟩ := hreachable.wait_states
  exact ⟨hcwai, Bool.eq_false_iff.mpr fun hsync => hexclusive ⟨hcwai, hsync⟩, (hwaiting hcwai).1⟩

end Machine

end Mc6809
