/-
  How actions end. `Action.Ends` relates the state in which an action starts to the
  exchanges along which some world leads it and to the state and result in which it ends. A
  decode fault is such an end; a refused request is none, since nothing is left of the
  processor's state then.

  Each elementary action has one end for each answer, and a sequence ends as its parts do
  (`ends_bind`), so the ends of straight-line code are found by rewriting.
-/
import Mc6809.Proofs.Course

namespace Mc6809.Action

variable {α β : Type}

/-- From a state the action can end, along the exchanges, with the result and the state. -/
def Ends (action : Action α) (cpu : Cpu) (w : List Exchange) (r : Except Fault α) (cpu' : Cpu) :
    Prop := (action.start cpu).Ends w (.ok (r, cpu'))

variable {cpu cpu' : Cpu} {w : List Exchange}

/-- A leaf is the one end of its tree. -/
theorem ends_leaf {leaf r : Except Fault α} {mid : Cpu} :
    (Traffic.done (leaf, mid)).Ends w (.ok (r, cpu')) ↔ w = [] ∧ r = leaf ∧ cpu' = mid := by
  rw [Traffic.ends_done, Except.ok.injEq, Prod.mk.injEq]

@[simp] theorem ends_pure {a : α} {r} :
    (pure a : Action α).Ends cpu w r cpu' ↔ w = [] ∧ r = .ok a ∧ cpu' = cpu := ends_leaf

@[simp] theorem ends_throw {fault : Fault} {r : Except Fault α} :
    (throw fault : Action α).Ends cpu w r cpu' ↔ w = [] ∧ r = .error fault ∧ cpu' = cpu := ends_leaf

@[simp] theorem ends_ofExcept {result r : Except Fault α} :
    (MonadExcept.ofExcept result : Action α).Ends cpu w r cpu' ↔
      w = [] ∧ r = result ∧ cpu' = cpu := by
  rw [Ends, start_ofExcept]
  exact ends_leaf

/-- A sequence ends with the fault of its first part, or as its second part does from where
the first part returned. -/
theorem ends_bind {action : Action α} {f : α → Action β} {r} :
    (action >>= f).Ends cpu w r cpu' ↔
      (∃ fault, r = .error fault ∧ action.Ends cpu w (.error fault) cpu') ∨
      ∃ a mid first second, w = first ++ second ∧ action.Ends cpu first (.ok a) mid ∧
        (f a).Ends mid second r cpu' := by
  rw [Ends, start_bind]
  constructor
  · intro h
    obtain ⟨fault, -, hr⟩ | ⟨⟨result, mid⟩, first, second, rfl, hfirst, hsecond⟩ := h.of_bind
    · cases hr
    · cases result with
      | ok a => exact .inr ⟨a, mid, first, second, rfl, hfirst, hsecond⟩
      | error fault =>
        obtain ⟨rfl, rfl, rfl⟩ := ends_leaf.mp hsecond
        rw [List.append_nil]
        exact .inl ⟨fault, rfl, hfirst⟩
  · rintro (⟨fault, rfl, h⟩ | ⟨a, mid, first, second, rfl, hfirst, hsecond⟩)
    · rw [← List.append_nil w]
      exact Traffic.Ends.bind_ok h (Traffic.Ends.done _)
    · exact Traffic.Ends.bind_ok hfirst hsecond

/-- A sequence returns where both parts return. -/
@[simp] theorem ends_bind_ok {action : Action α} {f : α → Action β} {b : β} :
    (action >>= f).Ends cpu w (.ok b) cpu' ↔
      ∃ a mid first second, w = first ++ second ∧ action.Ends cpu first (.ok a) mid ∧
        (f a).Ends mid second (.ok b) cpu' := by
  rw [ends_bind]
  constructor
  · rintro (⟨fault, h, -⟩ | h)
    · cases h
    · exact h
  · exact .inr

@[simp] theorem ends_get {r} :
    (get : Action Cpu).Ends cpu w r cpu' ↔ w = [] ∧ r = .ok cpu ∧ cpu' = cpu := ends_leaf

@[simp] theorem ends_modify {f : Cpu → Cpu} {r} :
    (modify f : Action Unit).Ends cpu w r cpu' ↔ w = [] ∧ r = .ok () ∧ cpu' = f cpu := ends_leaf

@[simp] theorem ends_regs {r} :
    regs.Ends cpu w r cpu' ↔ w = [] ∧ r = .ok cpu.regs ∧ cpu' = cpu := ends_leaf

@[simp] theorem ends_modifyFlags {f : Flags → Flags} {r} :
    (modifyFlags f).Ends cpu w r cpu' ↔
      w = [] ∧ r = .ok () ∧ cpu' = { cpu with regs.cc := f cpu.regs.cc } := ends_leaf

@[simp] theorem ends_charge {cycles : UInt64} {r} :
    (charge cycles).Ends cpu w r cpu' ↔
      w = [] ∧ r = .ok () ∧ cpu' = { cpu with clock := cpu.clock + cycles } := ends_leaf

/-- One read in front of a leaf has an end for each byte. -/
theorem ends_read_leaf {address : UInt16} {leaf : UInt8 → Except Fault α} {mid : UInt8 → Cpu}
    {r : Except Fault α} :
    (Traffic.read address fun value => .done (leaf value, mid value)).Ends w (.ok (r, cpu')) ↔
      ∃ value, w = [.read address value] ∧ r = leaf value ∧ cpu' = mid value := by
  rw [Traffic.ends_read_ok]
  constructor
  · rintro ⟨value, rest, rfl, h⟩
    obtain ⟨rfl, hr, hcpu⟩ := ends_leaf.mp h
    exact ⟨value, rfl, hr, hcpu⟩
  · rintro ⟨value, rfl, rfl, rfl⟩
    exact ⟨value, [], rfl, .done _⟩

@[simp] theorem ends_read {address : UInt16} {r} :
    (read address).Ends cpu w r cpu' ↔
      ∃ value, w = [.read address value] ∧ r = .ok value ∧ cpu' = cpu := ends_read_leaf

@[simp] theorem ends_fetch {r} :
    fetch.Ends cpu w r cpu' ↔ ∃ value, w = [.read cpu.regs.pc value] ∧ r = .ok value ∧
      cpu' = { cpu with regs.pc := cpu.regs.pc + 1 } := by
  rw [Ends, start_fetch]
  exact ends_read_leaf

@[simp] theorem ends_pullByte {stack : IndexRegister} {r} :
    (pullByte stack).Ends cpu w r cpu' ↔ ∃ value,
      w = [.read (cpu.regs.index stack) value] ∧ r = .ok value ∧
      cpu' = { cpu with regs := cpu.regs.setIndex stack (cpu.regs.index stack + 1) } := by
  rw [Ends, start_pullByte]
  exact ends_read_leaf

@[simp] theorem ends_write {address : UInt16} {value : UInt8} {r} :
    (write address value).Ends cpu w r cpu' ↔
      w = [.write address value] ∧ r = .ok () ∧ cpu' = cpu := by
  rw [Ends, start_write, Traffic.ends_write_ok]
  constructor
  · rintro ⟨rest, rfl, h⟩
    obtain ⟨rfl, rfl, rfl⟩ := ends_leaf.mp h
    exact ⟨rfl, rfl, rfl⟩
  · rintro ⟨rfl, rfl, rfl⟩
    exact ⟨[], rfl, .done _⟩

@[simp] theorem ends_releaseNmi {r} :
    releaseNmi.Ends cpu w r cpu' ↔ w = [.releaseNmi] ∧ r = .ok () ∧ cpu' = cpu := by
  rw [Ends, start_releaseNmi, Traffic.ends_releaseNmi]
  constructor
  · rintro ⟨rest, rfl, h⟩
    obtain ⟨rfl, rfl, rfl⟩ := ends_leaf.mp h
    exact ⟨rfl, rfl, rfl⟩
  · rintro ⟨rfl, rfl, rfl⟩
    exact ⟨[], rfl, .done _⟩

/-- A report in front of a leaf. -/
theorem ends_report_leaf {event : Event} {leaf r : Except Fault α} {mid : Cpu} :
    (Traffic.report event (.done (leaf, mid))).Ends w (.ok (r, cpu')) ↔
      w = [.report event] ∧ r = leaf ∧ cpu' = mid := by
  rw [Traffic.ends_report]
  constructor
  · rintro ⟨rest, rfl, h⟩
    obtain ⟨rfl, hr, hcpu⟩ := ends_leaf.mp h
    exact ⟨rfl, hr, hcpu⟩
  · rintro ⟨rfl, rfl, rfl⟩
    exact ⟨[], rfl, .done _⟩

@[simp] theorem ends_report {event : Event} {r} :
    (report event).Ends cpu w r cpu' ↔ w = [.report event] ∧ r = .ok () ∧ cpu' = cpu :=
  ends_report_leaf

end Mc6809.Action
