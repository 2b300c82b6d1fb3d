/-
  Pushes and pulls of registers. A mask names registers by its bits. PSH stores them below the
  stack pointer so that from the lowest address upwards they are CC, A, B, DP, X, Y, the other
  stack pointer and PC (`Stack.frame`), and PUL loads them from there again (`Stack.pulled`).

  Both are loops over a list of registers. On flat memory a push of several registers is one push
  of all their bytes (`onMemory_forM_pushRegister`), and a pull of several finds in memory the
  bytes that registers of the right values would have pushed (`onMemory_forM_pullRegister`). The
  loops run in opposite directions through the same list, so that what is pushed last is pulled
  first.

  `pull_restores_pushed` puts the two together. The pull may happen in any later state, whatever
  the registers hold by then; all it needs is the stack pointer and the bytes of the frame.
-/
import Mc6809.Proofs.Frame
import Mc6809.Proofs.Writes

namespace Mc6809

@[simp] theorem lowByte_toUInt16 (byte : UInt8) : lowByte byte.toUInt16 = byte := by
  apply UInt8.toNat_inj.mp
  have hlt := byte.toNat_lt
  rw [toNat_lowByte, UInt8.toNat_toUInt16]
  omega

/-- Pushing bytes and then others is one push of them all. -/
theorem Memory.push_append (memory : Memory) (pointer : UInt16) (first second : List UInt8) :
    memory.push pointer (first ++ second) =
      (memory.push pointer first).push (pointer - .ofNat first.length) second := by
  induction first generalizing memory pointer with
  | nil =>
    have hzero : pointer - .ofNat 0 = pointer := UInt16.sub_zero pointer
    rw [List.length_nil, hzero]
    rfl
  | cons value first ih =>
    rw [List.length_cons, sub_ofNat_succ, List.cons_append, push, push, ih]

/-! ## The two stacks -/

/-- The stacks that PSH and PUL work on, by their pointers. -/
inductive Stack where
  | s | u
deriving DecidableEq, Repr

namespace Stack

/-- The register that points to the stack. -/
def pointer : Stack → IndexRegister
  | s => .s
  | u => .u

/-- The pointer of the other stack. -/
def other : Stack → IndexRegister
  | s => .u
  | u => .s

/-- The opcode that pushes registers. -/
def pushOpcode : Stack → UInt8
  | s => 0x34
  | u => 0x36

/-- The opcode that pulls registers. -/
def pullOpcode : Stack → UInt8
  | s => 0x35
  | u => 0x37

/-- The bytes of the registers that a mask names, from the lowest address upwards. -/
def frame (stack : Stack) (mask : UInt8) (regs : Registers) : List UInt8 :=
  let field (bit : Nat) (bytes : List UInt8) := if mask.toNat.testBit bit then bytes else []
  let word (value : UInt16) := [highByte value, lowByte value]
  field 0 [regs.cc.toByte] ++ field 1 [regs.a] ++ field 2 [regs.b] ++ field 3 [regs.dp] ++
    field 4 (word regs.x) ++ field 5 (word regs.y) ++ field 6 (word (regs.index stack.other)) ++
    field 7 (word regs.pc)

/-- Registers that have taken from others those that a mask names. The pointer of the stack itself
is never named. -/
def pulled (stack : Stack) (mask : UInt8) (regs saved : Registers) : Registers where
  cc := if mask.toNat.testBit 0 then saved.cc else regs.cc
  a := if mask.toNat.testBit 1 then saved.a else regs.a
  b := if mask.toNat.testBit 2 then saved.b else regs.b
  dp := if mask.toNat.testBit 3 then saved.dp else regs.dp
  x := if mask.toNat.testBit 4 then saved.x else regs.x
  y := if mask.toNat.testBit 5 then saved.y else regs.y
  u := if mask.toNat.testBit 6 ∧ stack = s then saved.u else regs.u
  s := if mask.toNat.testBit 6 ∧ stack = u then saved.s else regs.s
  pc := if mask.toNat.testBit 7 then saved.pc else regs.pc

theorem pointer_eq (stack : Stack) : stack.pointer = .s ∨ stack.pointer = .u := by
  cases stack
  · exact .inl rfl
  · exact .inr rfl

end Stack

/-! ## Registers in a list -/

attribute [ext] Registers

namespace Registers

variable (regs saved : Registers) {stack : IndexRegister} {reg : Register}

/-- The bytes of registers, one after the other, are as many as the cycles that they cost. -/
theorem length_flatMap_stackBytes (list : List Register) :
    (list.flatMap regs.stackBytes).length = list.length + list.countP Register.isWide := by
  induction list with
  | nil => rfl
  | cons reg list ih =>
    have hlength : (regs.stackBytes reg).length = 1 + if reg.isWide then 1 else 0 := by
      unfold stackBytes
      split <;> rfl
    rw [List.flatMap_cons, List.length_append, ih, hlength, List.length_cons, List.countP_cons]
    omega

/-- Loading a register and moving the pointer of a stack do not disturb each other. -/
theorem set_setIndex (h : reg ≠ stack.toRegister) (pointer value : UInt16) :
    (regs.setIndex stack pointer).set reg value = (regs.set reg value).setIndex stack pointer := by
  cases stack <;> cases reg <;> first | rfl | exact absurd rfl h

/-- Registers that have taken those in a list from others, in order. -/
def taking (list : List Register) : Registers :=
  list.foldl (fun regs reg => regs.set reg (saved.get reg)) regs

theorem taking_setIndex {list : List Register} (h : stack.toRegister ∉ list) (pointer : UInt16) :
    (regs.setIndex stack pointer).taking saved list =
      (regs.taking saved list).setIndex stack pointer := by
  induction list generalizing regs with
  | nil => rfl
  | cons reg list ih =>
    have hreg : reg ≠ stack.toRegister := (List.ne_of_not_mem_cons h).symm
    have hlist : stack.toRegister ∉ list := List.not_mem_of_not_mem_cons h
    rw [taking, List.foldl_cons, set_setIndex regs hreg]
    exact ih _ hlist

/-- A narrow register is its low byte. -/
theorem toUInt16_lowByte_get (h : reg.isWide = false) :
    (lowByte (regs.get reg)).toUInt16 = regs.get reg := by
  cases reg <;> first | exact congrArg _ (lowByte_toUInt16 _) | cases h

end Registers

/-! ## Masks -/

/-- A list of what some bits of a number stand for, the first of them in front. -/
theorem flatMap_testBit_cons {α β : Type} (mask bit : Nat) (bits : List Nat) (f : Nat → α)
    (g : α → List β) : (((bit :: bits).filter mask.testBit).map f).flatMap g =
      (if mask.testBit bit then g (f bit) else []) ++
        ((bits.filter mask.testBit).map f).flatMap g := by
  rw [List.filter_cons]
  split <;> rfl

namespace Stack

variable (stack : Stack) (mask : UInt8) (regs saved : Registers)

/-- The frame is what a push stores, last byte first. -/
theorem frame_eq :
    ((Register.ofMask stack.pointer mask).flatMap regs.stackBytes).reverse =
      stack.frame mask regs := by
  unfold Register.ofMask
  simp only [flatMap_testBit_cons, List.filter_nil, List.map_nil, List.flatMap_nil,
    List.reverse_append, apply_ite List.reverse, List.reverse_nil, List.append_assoc]
  cases stack <;> simp [frame, Registers.stackBytes, Register.ofMaskBit, Register.isWide,
    Registers.get, pointer, other, Registers.index]

/-- Every byte of the frame has cost a cycle. -/
@[simp] theorem length_frame : (stack.frame mask regs).length = maskCycles mask := by
  rw [← frame_eq, List.length_reverse, Registers.length_flatMap_stackBytes,
    ← Action.stackedRegisters_eq stack.pointer_eq,
    Action.cycles_stackedRegisters]

/-- Taking the registers of a mask one after the other, those that are pushed last first, comes to
taking all of them. -/
theorem taking_ofMask :
    regs.taking saved (Register.ofMask stack.pointer mask).reverse =
      stack.pulled mask regs saved := by
  unfold Register.ofMask Registers.taking
  rw [← List.map_reverse, ← List.filter_reverse, List.foldl_map, List.foldl_filter]
  simp only [List.reverse_cons, List.reverse_nil, List.nil_append, List.cons_append,
    List.foldl_cons, List.foldl_nil]
  cases stack
  all_goals
    simp only [pointer, Register.ofMaskBit, reduceCtorEq, if_true, if_false]
    apply Registers.ext
    all_goals
      simp only [apply_ite Registers.a, apply_ite Registers.b, apply_ite Registers.dp,
        apply_ite Registers.x, apply_ite Registers.y, apply_ite Registers.u, apply_ite Registers.s,
        apply_ite Registers.pc, apply_ite Registers.cc, Registers.set, Registers.get, ite_self,
        lowByte_toUInt16, Flags.ofByte_toByte, pulled, reduceCtorEq, and_true, and_false, if_false]

end Stack

/-! ## Pushes and pulls on memory -/

namespace Action

variable (cpu : Cpu) (memory : Memory) {stack : IndexRegister} {reg : Register}

theorem onMemory_pushByte (value : UInt8) : (pushByte stack value).onMemory cpu memory =
    ((.ok (), { cpu with regs := cpu.regs.setIndex stack (cpu.regs.index stack - 1) }),
      memory.set (cpu.regs.index stack - 1) value) := rfl

theorem onMemory_loadRegister (value : UInt16) : (loadRegister reg value).onMemory cpu memory =
    ((.ok (), cpu.loaded reg value), memory) := by
  unfold loadRegister Cpu.loaded
  by_cases h : reg = .s <;> simp [h]

/-- A register is pushed byte by byte below the stack pointer. -/
theorem onMemory_pushRegister : (pushRegister stack reg).onMemory cpu memory = ((.ok (), { cpu with
      regs := cpu.regs.setIndex stack
        (cpu.regs.index stack - .ofNat (cpu.regs.stackBytes reg).length)
      clock := cpu.clock + stackCycles reg }),
    memory.push (cpu.regs.index stack) (cpu.regs.stackBytes reg)) := by
  unfold pushRegister pushWord Registers.stackBytes
  cases hwide : reg.isWide with
  | true =>
    have htwo : cpu.regs.index stack - .ofNat 2 = cpu.regs.index stack - 1 - 1 := by
      show cpu.regs.index stack - 2 = _
      grind
    simp only [if_true, onMemory_bind, onMemory_regs, onMemory_pushByte, onMemory_charge,
      Registers.index_setIndex, Registers.setIndex_setIndex, List.length_cons, List.length_nil,
      htwo]
    rfl
  | false =>
    simp only [Bool.false_eq_true, if_false, onMemory_bind, onMemory_regs, onMemory_pushByte,
      onMemory_charge]
    rfl

/-- Registers are pushed in the order of the list, none of them the stack pointer itself. -/
theorem onMemory_forM_pushRegister {list : List Register} (h : stack.toRegister ∉ list) :
    ∃ clock, (list.forM (pushRegister stack)).onMemory cpu memory = ((.ok (), { cpu with
      regs := cpu.regs.setIndex stack
        (cpu.regs.index stack - .ofNat (list.flatMap cpu.regs.stackBytes).length)
      clock }), memory.push (cpu.regs.index stack) (list.flatMap cpu.regs.stackBytes)) := by
  induction list generalizing cpu memory with
  | nil =>
    have hzero : cpu.regs.index stack - .ofNat 0 = cpu.regs.index stack := UInt16.sub_zero _
    refine ⟨cpu.clock, ?_⟩
    rw [List.flatMap_nil, List.length_nil, hzero, Registers.setIndex_index]
    rfl
  | cons reg list ih =>
    have hlist : stack.toRegister ∉ list := List.not_mem_of_not_mem_cons h
    obtain ⟨clock, hrest⟩ := ih { cpu with
        regs := cpu.regs.setIndex stack
          (cpu.regs.index stack - .ofNat (cpu.regs.stackBytes reg).length)
        clock := cpu.clock + stackCycles reg }
      (memory.push (cpu.regs.index stack) (cpu.regs.stackBytes reg)) hlist
    have hlowered (pointer first second : UInt16) :
        pointer - (first + second) = pointer - first - second := by grind
    refine ⟨clock, ?_⟩
    show (pushRegister stack reg >>= fun _ => list.forM (pushRegister stack)).onMemory _ _ = _
    simp only [onMemory_bind, onMemory_pushRegister, hrest, Registers.index_setIndex,
      Registers.setIndex_setIndex, Registers.flatMap_stackBytes_setIndex hlist, List.flatMap_cons,
      List.length_append, UInt16.ofNat_add, hlowered, Memory.push_append]

variable {saved : Registers}

/-- A register is pulled from the bytes that another value of it would have pushed. -/
theorem onMemory_pullRegister (h : reg ≠ stack.toRegister)
    (hbytes : memory.slice (cpu.regs.index stack) (saved.stackBytes reg).length =
      (saved.stackBytes reg).reverse) :
    ∃ clock nmiArmed, (pullRegister stack reg).onMemory cpu memory = ((.ok (), { cpu with
      regs := (cpu.regs.set reg (saved.get reg)).setIndex stack
        (cpu.regs.index stack + .ofNat (saved.stackBytes reg).length)
      clock
      nmiArmed }), memory) := by
  unfold pullRegister pullWord
  unfold Registers.stackBytes at hbytes ⊢
  cases hwide : reg.isWide with
  | true =>
    have htwo : cpu.regs.index stack + .ofNat 2 = cpu.regs.index stack + 1 + 1 := by
      show cpu.regs.index stack + 2 = _
      grind
    simp only [hwide, if_true, Memory.slice, List.length_cons, List.length_nil, List.reverse_cons,
      List.reverse_nil, List.nil_append, List.cons_append, List.cons.injEq, and_true] at hbytes
    obtain ⟨hhigh, hlow⟩ := hbytes
    simp only [if_true, onMemory_bind, onMemory_charge, onMemory_pullByte, onMemory_pure,
      Registers.index_setIndex, Registers.setIndex_setIndex, hhigh, hlow,
      joinBytes_highByte_lowByte, onMemory_loadRegister, Cpu.loaded, Registers.set_setIndex _ h,
      List.length_cons, List.length_nil, htwo]
    exact ⟨_, _, rfl⟩
  | false =>
    simp only [hwide, Bool.false_eq_true, if_false, Memory.slice, List.length_cons,
      List.length_nil, List.reverse_cons, List.reverse_nil, List.nil_append, List.cons.injEq,
      and_true] at hbytes
    simp only [Bool.false_eq_true, if_false, map_eq_pure_bind, onMemory_bind, onMemory_charge,
      onMemory_pullByte, onMemory_pure, hbytes, Registers.toUInt16_lowByte_get _ hwide,
      onMemory_loadRegister, Cpu.loaded, Registers.set_setIndex _ h]
    exact ⟨_, _, rfl⟩

/-- Registers are pulled in the order of the list from the bytes that other values of them would
have pushed in the opposite order. -/
theorem onMemory_forM_pullRegister {list : List Register} (h : stack.toRegister ∉ list)
    (hbytes : memory.slice (cpu.regs.index stack) (list.flatMap saved.stackBytes).length =
      list.flatMap fun reg => (saved.stackBytes reg).reverse) :
    ∃ clock nmiArmed, (list.forM (pullRegister stack)).onMemory cpu memory = ((.ok (), { cpu with
      regs := (cpu.regs.taking saved list).setIndex stack
        (cpu.regs.index stack + .ofNat (list.flatMap saved.stackBytes).length)
      clock
      nmiArmed }), memory) := by
  induction list generalizing cpu with
  | nil =>
    have hzero : cpu.regs.index stack + .ofNat 0 = cpu.regs.index stack := UInt16.add_zero _
    refine ⟨cpu.clock, cpu.nmiArmed, ?_⟩
    rw [List.flatMap_nil, List.length_nil, hzero, Registers.taking, List.foldl_nil,
      Registers.setIndex_index]
    rfl
  | cons reg list ih =>
    have hreg : reg ≠ stack.toRegister := (List.ne_of_not_mem_cons h).symm
    have hlist : stack.toRegister ∉ list := List.not_mem_of_not_mem_cons h
    rw [List.flatMap_cons, List.flatMap_cons, List.length_append, Memory.slice_append] at hbytes
    obtain ⟨hfirst, hrest⟩ := List.append_inj hbytes
      (by rw [Memory.length_slice, List.length_reverse])
    obtain ⟨clock, nmiArmed, hpull⟩ := onMemory_pullRegister cpu memory hreg hfirst
    obtain ⟨clock', nmiArmed', hpulls⟩ := ih { cpu with
        regs := (cpu.regs.set reg (saved.get reg)).setIndex stack
          (cpu.regs.index stack + .ofNat (saved.stackBytes reg).length)
        clock
        nmiArmed } hlist (by rwa [Registers.index_setIndex])
    refine ⟨clock', nmiArmed', ?_⟩
    show (pullRegister stack reg >>= fun _ => list.forM (pullRegister stack)).onMemory _ _ = _
    simp only [onMemory_bind, hpull, hpulls, Registers.index_setIndex,
      Registers.taking_setIndex _ _ hlist, Registers.setIndex_setIndex, List.flatMap_cons,
      List.length_append, UInt16.ofNat_add, UInt16.add_assoc]
    rfl

variable (stack : Stack) {mask : UInt8}

/-- PSH lowers the pointer by the bytes of the frame and leaves the frame above it. -/
theorem onMemory_push (hmask : memory cpu.regs.pc = mask) :
    ∃ clock, (push stack.pointer).onMemory cpu memory = ((.ok (), { cpu with
      regs := (cpu.regs.past 1).setIndex stack.pointer
        (cpu.regs.index stack.pointer - .ofNat (maskCycles mask))
      clock }), memory.push (cpu.regs.index stack.pointer)
        (stack.frame mask (cpu.regs.past 1)).reverse) := by
  have hindex : (cpu.regs.past 1).index stack.pointer = cpu.regs.index stack.pointer :=
    cpu.regs.index_past 1 stack.pointer
  obtain ⟨clock, hpushes⟩ := onMemory_forM_pushRegister { cpu with regs := cpu.regs.past 1 } memory
    (stack_not_mem_ofMask stack.pointer_eq mask)
  rw [hindex, ← List.reverse_reverse ((Register.ofMask _ _).flatMap _), stack.frame_eq,
    List.length_reverse, stack.length_frame] at hpushes
  refine ⟨clock, ?_⟩
  unfold push
  simp only [onMemory_bind, onMemory_fetch, hmask, stackedRegisters_eq stack.pointer_eq]
  exact hpushes

/-- PUL brings back the registers whose frame it finds. -/
theorem onMemory_pull (hmask : memory cpu.regs.pc = mask)
    (hframe : memory.slice (cpu.regs.index stack.pointer) (maskCycles mask) =
      stack.frame mask saved) :
    ∃ clock nmiArmed, (pull stack.pointer).onMemory cpu memory = ((.ok (), { cpu with
      regs := (stack.pulled mask (cpu.regs.past 1) saved).setIndex stack.pointer
        (cpu.regs.index stack.pointer + .ofNat (maskCycles mask))
      clock
      nmiArmed }), memory) := by
  have hindex : (cpu.regs.past 1).index stack.pointer = cpu.regs.index stack.pointer :=
    cpu.regs.index_past 1 stack.pointer
  have hbytes : (Register.ofMask stack.pointer mask).reverse.flatMap
      (fun reg => (saved.stackBytes reg).reverse) = stack.frame mask saved := by
    rw [← stack.frame_eq, List.reverse_flatMap]
    rfl
  have hlength : ((Register.ofMask stack.pointer mask).reverse.flatMap saved.stackBytes).length =
      maskCycles mask := by
    rw [← stack.length_frame mask saved, ← stack.frame_eq, List.length_reverse,
      List.length_flatMap, List.length_flatMap, List.map_reverse, List.sum_reverse]
  have hfound : memory.slice ((cpu.regs.past 1).index stack.pointer)
      ((Register.ofMask stack.pointer mask).reverse.flatMap saved.stackBytes).length =
        (Register.ofMask stack.pointer mask).reverse.flatMap
          fun reg => (saved.stackBytes reg).reverse := by
    rw [hlength, hbytes, hindex, hframe]
  obtain ⟨clock, nmiArmed, hpulls⟩ := onMemory_forM_pullRegister
    { cpu with regs := cpu.regs.past 1 } memory
    (fun h => stack_not_mem_ofMask stack.pointer_eq mask (List.mem_reverse.mp h)) hfound
  rw [hlength, hindex, stack.taking_ofMask] at hpulls
  refine ⟨clock, nmiArmed, ?_⟩
  unfold pull
  simp only [onMemory_bind, onMemory_fetch, hmask, stackedRegisters_eq stack.pointer_eq]
  exact hpulls

end Action

/-! ## Steps -/

namespace Stack

/-- The entry of the push in the tables. -/
theorem find?_pushOpcode (stack : Stack) : ∃ entry,
    Opcode.find? .page1 stack.pushOpcode = some entry ∧ entry.mode = .immediate ∧
      entry.mnemonic.operation = some (.push stack.pointer) := by
  rw [Opcode.find?_eq_lookup]
  cases stack <;> exact ⟨_, rfl, rfl, rfl⟩

/-- The entry of the pull in the tables. -/
theorem find?_pullOpcode (stack : Stack) : ∃ entry,
    Opcode.find? .page1 stack.pullOpcode = some entry ∧ entry.mode = .immediate ∧
      entry.mnemonic.operation = some (.pull stack.pointer) := by
  rw [Opcode.find?_eq_lookup]
  cases stack <;> exact ⟨_, rfl, rfl, rfl⟩

end Stack

namespace Machine

variable {σ : Type} (devices : Devices σ) {m : Machine σ} {stack : Stack} {mask : UInt8}

/-- The byte behind the opcode of the instruction that a machine executes. -/
theorem Executes.operand {opcode operand : UInt8} (h : m.Executes [opcode, operand]) :
    m.bus.memory (m.cpu.regs.pc + 1) = operand :=
  (List.cons.inj (List.cons.inj h.code).2).1

/-- A step that pushes registers. -/
theorem step_of_push (hflat : m.bus.IsFlat) (h : m.Executes [stack.pushOpcode, mask]) :
    (m.step devices).1 = .ok () ∧ (m.step devices).2.bus.IsFlat ∧
      (m.step devices).2.cpu.regs = (m.cpu.regs.past 2).setIndex stack.pointer
        (m.cpu.regs.index stack.pointer - .ofNat (maskCycles mask)) ∧
      (m.step devices).2.bus.memory = m.bus.memory.push (m.cpu.regs.index stack.pointer)
        (stack.frame mask (m.cpu.regs.past 2)).reverse := by
  obtain ⟨⟨mnemonic, _, cycles, size⟩, hfind, rfl, hoperation⟩ := stack.find?_pushOpcode
  have hcode : m.Executes (OpcodePage.page1.code stack.pushOpcode ++ [mask]) := h
  obtain ⟨clock, hpush⟩ := Action.onMemory_push { m.cpu with
    sync := false
    regs := m.cpu.regs.past 1
    clock := m.cpu.clock + cycles.toUInt64 } m.bus.memory stack h.operand
  rw [Registers.index_past, Registers.past_past] at hpush
  obtain ⟨hok, hcpu, hflat', hmemory⟩ := step_of_executes devices hflat hcode hfind hoperation hpush
  rw [hcpu]
  exact ⟨hok, hflat', rfl, hmemory⟩

/-- A step that pulls registers from their frame. -/
theorem step_of_pull {saved : Registers} (hflat : m.bus.IsFlat)
    (h : m.Executes [stack.pullOpcode, mask])
    (hframe : m.bus.memory.slice (m.cpu.regs.index stack.pointer) (maskCycles mask) =
      stack.frame mask saved) :
    (m.step devices).1 = .ok () ∧ (m.step devices).2.cpu.regs =
      (stack.pulled mask (m.cpu.regs.past 2) saved).setIndex stack.pointer
        (m.cpu.regs.index stack.pointer + .ofNat (maskCycles mask)) := by
  obtain ⟨⟨mnemonic, _, cycles, size⟩, hfind, rfl, hoperation⟩ := stack.find?_pullOpcode
  have hcode : m.Executes (OpcodePage.page1.code stack.pullOpcode ++ [mask]) := h
  have hfound : m.bus.memory.slice ((m.cpu.regs.past 1).index stack.pointer) (maskCycles mask) =
      stack.frame mask saved := by
    rw [Registers.index_past]
    exact hframe
  obtain ⟨clock, nmiArmed, hpull⟩ := Action.onMemory_pull { m.cpu with
    sync := false
    regs := m.cpu.regs.past 1
    clock := m.cpu.clock + cycles.toUInt64 } m.bus.memory stack h.operand hfound
  rw [Registers.index_past, Registers.past_past] at hpull
  obtain ⟨hok, hcpu, -, -⟩ := step_of_executes devices hflat hcode hfind hoperation hpull
  rw [hcpu]
  exact ⟨hok, rfl⟩

/-- PSH and PUL. A push lowers the stack pointer by the bytes of the registers that the mask names,
leaves those bytes above it in the order of the frame, and changes no other register but PC. A pull
by the same mask, in whatever state finds that pointer and those bytes, brings the named registers
back, with PC behind the push, and the pointer to where it was, and leaves the others alone. -/
theorem pull_restores_pushed (hflat : m.bus.IsFlat) (hpush : m.Executes [stack.pushOpcode, mask]) :
    let pointer := m.cpu.regs.index stack.pointer
    let lowered := pointer - .ofNat (maskCycles mask)
    let frame := stack.frame mask (m.cpu.regs.past 2)
    (m.step devices).1 = .ok () ∧ (m.step devices).2.bus.IsFlat ∧
      (m.step devices).2.cpu.regs = (m.cpu.regs.past 2).setIndex stack.pointer lowered ∧
      (m.step devices).2.bus.memory = m.bus.memory.push pointer frame.reverse ∧
      (m.step devices).2.bus.memory.slice lowered (maskCycles mask) = frame ∧
      ∀ later : Machine σ, later.bus.IsFlat → later.Executes [stack.pullOpcode, mask] →
        later.cpu.regs.index stack.pointer = lowered →
        later.bus.memory.slice lowered (maskCycles mask) = frame →
        (later.step devices).1 = .ok () ∧ (later.step devices).2.cpu.regs =
          (stack.pulled mask (later.cpu.regs.past 2) (m.cpu.regs.past 2)).setIndex
            stack.pointer pointer := by
  intro pointer lowered frame
  obtain ⟨hok, hflat', hregs, hmemory⟩ := step_of_push devices hflat hpush
  refine ⟨hok, hflat', hregs, hmemory, ?_, fun later hlater hpull hpointer hintact => ?_⟩
  · have hlength : frame.length = maskCycles mask := stack.length_frame mask _
    have hshort : maskCycles mask ≤ 65536 := Nat.le_trans (maskCycles_le mask) (by decide)
    show (m.step devices).2.bus.memory.slice (pointer - .ofNat (maskCycles mask)) _ = frame
    rw [hmemory, ← hlength]
    exact Memory.slice_push_reverse _ _ _ (by rwa [hlength])
  · obtain ⟨hpulled, hrestored⟩ := step_of_pull devices hlater hpull (hpointer ▸ hintact)
    have hraised : lowered + .ofNat (maskCycles mask) = pointer := UInt16.sub_add_cancel _ _
    rw [hpointer, hraised] at hrestored
    exact ⟨hpulled, hrestored⟩

/-- PSHS at 4000 and PULS at 5000, both with every register in the mask. -/
def pushAndPull : Memory := fun address =>
  if address = 0x4000 then 0x34 else if address = 0x5000 then 0x35 else 0xFF

/-- A stack pointer whose frame wraps around. -/
def wrappingPush : Machine Unit where
  cpu.regs := { pc := 0x4000, s := 5, a := 1, b := 2, dp := 3, x := 4, y := 5, u := 6 }
  bus := .ofMemory pushAndPull ()

/-- The same machine after a routine that has changed every register and kept S. -/
def wrappingPushed : Machine Unit := { (wrappingPush.step Devices.none).2 with
  cpu := { regs := { pc := 0x5000, s := 0xFFF9 } }
  bus := { (wrappingPush.step Devices.none).2.bus with lines := {} } }

theorem pull_restores_pushed_wrapping :
    (wrappingPush.step Devices.none).2.cpu.regs =
        { wrappingPush.cpu.regs with pc := 0x4002, s := 0xFFF9 } ∧
      (wrappingPushed.step Devices.none).2.cpu.regs =
        { wrappingPush.cpu.regs with pc := 0x4002 } := by
  have hflat : wrappingPush.bus.IsFlat := Bus.isFlat_ofMemory pushAndPull ()
  have hprogram : wrappingPush.bus.memory = pushAndPull := Bus.memory_ofMemory pushAndPull ()
  have hpush : wrappingPush.Executes [Stack.s.pushOpcode, 0xFF] := by
    refine executes_of_released rfl rfl rfl ?_
    show [wrappingPush.bus.memory 0x4000, wrappingPush.bus.memory 0x4001] = [0x34, 0xFF]
    rw [hprogram]
    decide
  obtain ⟨-, hflat', hregs, hmemory, hframe, hpulls⟩ :=
    pull_restores_pushed Devices.none hflat hpush
  have hkept : wrappingPushed.bus.memory = (wrappingPush.step Devices.none).2.bus.memory :=
    (hflat'.withLines {}).2
  have hpull : wrappingPushed.Executes [Stack.s.pullOpcode, 0xFF] := by
    refine executes_of_released rfl rfl rfl ?_
    show [wrappingPushed.bus.memory 0x5000, wrappingPushed.bus.memory 0x5001] = [0x35, 0xFF]
    have hlength : (Stack.s.frame 0xFF (wrappingPush.cpu.regs.past 2)).reverse.length = 12 := by
      rw [List.length_reverse, Stack.length_frame]
      decide
    rw [hkept, hmemory, Memory.push_apply _ _ _ _ (by rw [hlength]; decide),
      Memory.push_apply _ _ _ _ (by rw [hlength]; decide), hprogram]
    decide
  obtain ⟨-, hrestored⟩ := hpulls wrappingPushed (hflat'.withLines {}).1 hpull rfl
    (by rw [hkept]; exact hframe)
  exact ⟨hregs, hrestored⟩

end Machine

end Mc6809
