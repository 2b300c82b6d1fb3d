/-
  Stacks of bytes. The processor keeps each of its stacks in memory, above a pointer that a push
  lowers and a pull raises. Seen from outside that is a list of bytes with the top in front, on
  which a push puts a byte and from which a pull takes one. Of a word the low byte goes first and
  comes back last, so a word is two bytes like any others: what has been pushed as a word can be
  pulled in bytes, and the other way round.

  The list lies in memory from the pointer upwards (`Memory.Holds`), also where the addresses wrap
  around, and it can grow until it fills all of it. Each call keeps that
  (`StackCall.onMemory_onStack`), so calls one after the other do (`StackCall.onMemory_calls`).
  `Machine.stack_refines_bytes` says so of a machine on flat memory.
-/
import Mathlib.Data.List.Infix
import Mc6809.Proofs.Stacking

namespace Mc6809

/-! ## Calls -/

/-- What can be asked of a stack. -/
inductive StackCall where
  | pushByte (value : UInt8)
  | pushWord (value : UInt16)
  | pullByte
  | pullWord
deriving DecidableEq, Repr

/-- What a stack answers. -/
inductive StackAnswer where
  | nothing
  | byte (value : UInt8)
  | word (value : UInt16)
deriving DecidableEq, Repr

namespace StackCall

/-- The call to a list of bytes, the top in front. There is no result if more is pulled than the
list holds. -/
def onBytes : StackCall → StateT (List UInt8) Option StackAnswer
  | pushByte value, bytes => some (.nothing, value :: bytes)
  | pushWord value, bytes => some (.nothing, highByte value :: lowByte value :: bytes)
  | pullByte, value :: bytes => some (.byte value, bytes)
  | pullWord, high :: low :: bytes => some (.word (joinBytes high low), bytes)
  | pullByte, [] | pullWord, [] | pullWord, [_] => none

/-- The call to the processor, for one of its stacks. -/
def onStack (stack : IndexRegister) : StackCall → Action StackAnswer
  | pushByte value => do
    Action.pushByte stack value
    return .nothing
  | pushWord value => do
    Action.pushWord stack value
    return .nothing
  | pullByte => return .byte (← Action.pullByte stack)
  | pullWord => return .word (← Action.pullWord stack)

/-- The number of bytes by which the call makes a stack deeper. -/
def growth : StackCall → Int
  | pushByte _ => 1
  | pushWord _ => 2
  | pullByte => -1
  | pullWord => -2

/-- The addresses that the call pushes to when the pointer stands here. -/
def targets (pointer : UInt16) : StackCall → List UInt16
  | pushByte _ => [pointer - 1]
  | pushWord _ => [pointer - 1, pointer - 2]
  | pullByte | pullWord => []

/-- The number of bytes by which calls make a stack deeper. -/
def netDepth : List StackCall → Int
  | [] => 0
  | call :: calls => call.growth + netDepth calls

/-- The addresses that calls push to, when the pointer stands here at first. -/
def pushedTo (pointer : UInt16) : List StackCall → List UInt16
  | [] => []
  | call :: calls => call.targets pointer ++ pushedTo (pointer - .ofInt call.growth) calls

end StackCall

/-! ## Bytes above a pointer -/

namespace Memory

/-- The bytes lie in memory from the pointer upwards, the first one lowest, and there is room for
all of them. -/
structure Holds (memory : Memory) (pointer : UInt16) (bytes : List UInt8) : Prop where
  length : bytes.length ≤ 65536
  slice : memory.slice pointer bytes.length = bytes

variable {memory : Memory} {pointer : UInt16} {value : UInt8} {bytes : List UInt8}

/-- A byte that is not reached from the pointer has no part in the slice. -/
theorem slice_set_of_le {address : UInt16} {length : Nat} (h : length ≤ (address - pointer).toNat) :
    (memory.set address value).slice pointer length = memory.slice pointer length := by
  induction length generalizing pointer with
  | zero => rfl
  | succ length ih =>
    have hne : pointer ≠ address := by
      rintro rfl
      rw [UInt16.sub_self] at h
      exact Nat.not_succ_le_zero _ h
    have hnext : (address - (pointer + 1)).toNat = (address - pointer).toNat - 1 := by
      have hsub : address - (pointer + 1) = address - pointer - 1 := by grind
      have hone : (1 : UInt16).toNat = 1 := rfl
      have hlt := (address - pointer).toNat_lt
      rw [hsub, UInt16.toNat_sub, hone]
      omega
    rw [slice, slice, set_of_ne _ _ hne, ih (by omega)]

namespace Holds

theorem nil : memory.Holds pointer [] := ⟨Nat.zero_le _, rfl⟩

/-- A byte that is pushed lies on top, unless there is no room. -/
theorem push (h : memory.Holds pointer bytes) (hroom : bytes.length < 65536) (value : UInt8) :
    (memory.set (pointer - 1) value).Holds (pointer - 1) (value :: bytes) := by
  have hbelow : (pointer - 1 - pointer).toNat = 65535 := by
    have hsub : pointer - 1 - pointer = 65535 := by grind
    rw [hsub]
    rfl
  refine ⟨hroom, ?_⟩
  rw [List.length_cons, Memory.slice, set_self, UInt16.sub_add_cancel,
    slice_set_of_le (by omega), h.slice]

/-- The top is what is pulled, and the others are left. -/
theorem pull (h : memory.Holds pointer (value :: bytes)) :
    memory pointer = value ∧ memory.Holds (pointer + 1) bytes := by
  obtain ⟨hvalue, hbytes⟩ := List.cons.inj h.slice
  exact ⟨hvalue, Nat.le_of_succ_le h.length, hbytes⟩

end Holds

end Memory

/-! ## Calls one after the other -/

namespace StackCall

variable {stack : IndexRegister}

/-- A call has a result if the list is deep enough, and makes it deeper by its growth. -/
theorem exists_onBytes (call : StackCall) {bytes : List UInt8}
    (h : 0 ≤ bytes.length + call.growth) : ∃ answer later,
      call.onBytes bytes = some (answer, later) ∧
        (later.length : Int) = bytes.length + call.growth := by
  cases call with
  | pushByte value => exact ⟨_, _, rfl, rfl⟩
  | pushWord value => exact ⟨_, _, rfl, rfl⟩
  | pullByte =>
    match bytes with
    | [] => exact absurd h (by decide)
    | value :: bytes =>
      refine ⟨_, _, rfl, ?_⟩
      rw [List.length_cons, growth]
      omega
  | pullWord =>
    match bytes with
    | [] => exact absurd h (by decide)
    | [value] => exact absurd h (by simp [growth])
    | high :: low :: bytes =>
      refine ⟨_, _, rfl, ?_⟩
      rw [List.length_cons, List.length_cons, growth]
      omega

/-- A call does to memory what it does to the list of bytes that lies there. Of the processor only
the pointer changes, and of memory only what is pushed to. -/
theorem onMemory_onStack (call : StackCall) (cpu : Cpu) {memory : Memory} {bytes later : List UInt8}
    {answer : StackAnswer} (hholds : memory.Holds (cpu.regs.index stack) bytes)
    (h : call.onBytes bytes = some (answer, later)) (hroom : later.length ≤ 65536) :
    ∃ after, (call.onStack stack).onMemory cpu memory = ((.ok answer, { cpu with
        regs := cpu.regs.setIndex stack (cpu.regs.index stack - .ofInt call.growth) }), after) ∧
      after.Holds (cpu.regs.index stack - .ofInt call.growth) later ∧
      ∀ address ∉ call.targets (cpu.regs.index stack), after address = memory address := by
  cases call with
  | pushByte value =>
    cases h
    refine ⟨_, rfl, hholds.push hroom value, fun address haddress => ?_⟩
    exact Memory.set_of_ne _ _ (List.ne_of_not_mem_cons haddress)
  | pushWord value =>
    cases h
    have htwo : cpu.regs.index stack - 1 - 1 = cpu.regs.index stack - .ofInt 2 := by
      show _ = cpu.regs.index stack - 2
      grind
    have hlow := hholds.push (Nat.lt_of_succ_lt hroom) (lowByte value)
    have hboth := hlow.push hroom (highByte value)
    rw [htwo] at hboth
    refine ⟨_, ?_, hboth, fun address haddress => ?_⟩
    · simp only [onStack, Action.pushWord, Action.onMemory_bind, Action.onMemory_pushByte,
        Action.onMemory_pure, Registers.index_setIndex, Registers.setIndex_setIndex, htwo, growth]
    · have hfirst : address ≠ cpu.regs.index stack - 1 := List.ne_of_not_mem_cons haddress
      have hsecond : address ≠ cpu.regs.index stack - .ofInt 2 :=
        List.ne_of_not_mem_cons (List.not_mem_of_not_mem_cons haddress)
      rw [Memory.set_of_ne _ _ hsecond, Memory.set_of_ne _ _ hfirst]
  | pullByte =>
    match bytes with
    | value :: bytes =>
      cases h
      have hone : cpu.regs.index stack + 1 = cpu.regs.index stack - .ofInt (-1) := by
        show _ = cpu.regs.index stack - 65535
        grind
      obtain ⟨hvalue, hrest⟩ := hholds.pull
      rw [hone] at hrest
      refine ⟨memory, ?_, hrest, fun _ _ => rfl⟩
      simp only [onStack, Action.onMemory_bind, Action.onMemory_pullByte, Action.onMemory_pure,
        hvalue, hone, growth]
  | pullWord =>
    match bytes with
    | high :: low :: bytes =>
      cases h
      have htwo : cpu.regs.index stack + 1 + 1 = cpu.regs.index stack - .ofInt (-2) := by
        show _ = cpu.regs.index stack - 65534
        grind
      obtain ⟨hhigh, hholds⟩ := hholds.pull
      obtain ⟨hlow, hrest⟩ := hholds.pull
      rw [htwo] at hrest
      refine ⟨memory, ?_, hrest, fun _ _ => rfl⟩
      simp only [onStack, Action.pullWord, Action.onMemory_bind, Action.onMemory_pullByte,
        Action.onMemory_pure, Registers.index_setIndex, Registers.setIndex_setIndex, hhigh, hlow,
        htwo, growth]

/-- Calls one after the other do to memory what they do to the list of bytes that lies there, as
long as none of them pulls more than there is or pushes more than there is room for. -/
theorem onMemory_calls (calls : List StackCall) (cpu : Cpu) {memory : Memory} {bytes : List UInt8}
    (hholds : memory.Holds (cpu.regs.index stack) bytes)
    (hdepth : ∀ taken, taken <+: calls →
      0 ≤ bytes.length + netDepth taken ∧ bytes.length + netDepth taken ≤ 65536) :
    ∃ answers later after, (calls.mapM onBytes).run bytes = some (answers, later) ∧
      (later.length : Int) = bytes.length + netDepth calls ∧
      (calls.mapM (onStack stack)).onMemory cpu memory = ((.ok answers, { cpu with
        regs := cpu.regs.setIndex stack (cpu.regs.index stack - .ofInt (netDepth calls)) }),
        after) ∧
      after.Holds (cpu.regs.index stack - .ofInt (netDepth calls)) later ∧
      ∀ address ∉ pushedTo (cpu.regs.index stack) calls, after address = memory address := by
  induction calls generalizing cpu memory bytes with
  | nil =>
    have hzero : cpu.regs.index stack - .ofInt (netDepth []) = cpu.regs.index stack :=
      UInt16.sub_zero _
    rw [hzero, Registers.setIndex_index]
    exact ⟨[], bytes, memory, rfl, (Int.add_zero _).symm, rfl, hholds, fun _ _ => rfl⟩
  | cons call calls ih =>
    obtain ⟨hdeep, hroom⟩ := hdepth [call] (List.prefix_append [call] calls)
    rw [netDepth, netDepth, Int.add_zero] at hdeep hroom
    obtain ⟨answer, next, hcall, hlength⟩ := call.exists_onBytes hdeep
    obtain ⟨mid, hmid, hnext, hkept⟩ := call.onMemory_onStack cpu hholds hcall (by omega)
    obtain ⟨answers, later, after, hcalls, hlater, hafter, hend, hrest⟩ := ih
      { cpu with regs := cpu.regs.setIndex stack (cpu.regs.index stack - .ofInt call.growth) }
      (by rwa [Registers.index_setIndex]) fun taken htaken => by
        have htogether := hdepth (call :: taken) (List.cons_prefix_cons.mpr ⟨rfl, htaken⟩)
        rw [netDepth] at htogether
        omega
    have hpointer : cpu.regs.index stack - .ofInt call.growth - .ofInt (netDepth calls) =
        cpu.regs.index stack - .ofInt (netDepth (call :: calls)) := by
      rw [netDepth, UInt16.ofInt_add]
      grind
    rw [Registers.index_setIndex] at hafter hend hrest
    rw [hpointer] at hafter hend
    refine ⟨answer :: answers, later, after, ?_, ?_, ?_, hend, fun address haddress => ?_⟩
    · have hrun : call.onBytes.run bytes = some (answer, next) := hcall
      simp [List.mapM_cons, hrun, hcalls]
    · rw [netDepth]
      omega
    · simp only [List.mapM_cons, Action.onMemory_bind, hmid, hafter, Action.onMemory_pure,
        Registers.setIndex_setIndex]
    · obtain ⟨hhere, hbeyond⟩ := not_or.mp (mt List.mem_append.mpr haddress)
      rw [hrest address hbeyond, hkept address hhere]

end StackCall

namespace Machine

open StackCall

variable {σ : Type} (devices : Devices σ) {m : Machine σ}

/-- On flat memory a stack of the processor is a stack of bytes. Take any calls for one of the
stacks, wherever its pointer stands, such that at no time more has been pulled than pushed or more
than 65536 bytes are on it. Then no call fails, and the answers are those of a list of bytes: every
pull gives what is on top. The pointer ends as far below its start as the stack has become deep, the
bytes of the list lie from there upwards, no byte of memory but those that have been pushed to is
another one, and of the processor nothing but the pointer. -/
theorem stack_refines_bytes (hflat : m.bus.IsFlat) (stack : IndexRegister) (calls : List StackCall)
    (hdepth : ∀ taken, taken <+: calls → 0 ≤ netDepth taken ∧ netDepth taken ≤ 65536) :
    let start := m.cpu.regs.index stack
    let pointer := start - .ofInt (netDepth calls)
    ∃ answers bytes after,
      (calls.mapM onBytes).run [] = some (answers, bytes) ∧ (bytes.length : Int) = netDepth calls ∧
      m.perform devices ((calls.mapM (onStack stack)).start m.cpu) =
        (.ok (.ok answers, { m.cpu with regs := m.cpu.regs.setIndex stack pointer }), after) ∧
      after.bus.IsFlat ∧ after.bus.memory.slice pointer bytes.length = bytes ∧
      ∀ address ∉ pushedTo start calls, after.bus.memory address = m.bus.memory address := by
  intro start pointer
  have hempty : m.bus.memory.Holds start [] := .nil
  obtain ⟨answers, bytes, memory, hbytes, hlength, honMemory, hholds, hkept⟩ :=
    onMemory_calls calls m.cpu hempty fun taken htaken => by simpa using hdepth taken htaken
  obtain ⟨hend, hflat', hmemory⟩ := Traffic.course_of_isFlat devices
    ((calls.mapM (onStack stack)).start m.cpu) hflat
  rw [← Action.onMemory, honMemory] at hend hmemory
  obtain ⟨log, hperform⟩ := m.perform_eq devices ((calls.mapM (onStack stack)).start m.cpu)
  rw [hend] at hperform
  refine ⟨answers, bytes, _, hbytes, ?_, hperform, hflat', ?_, ?_⟩
  · simpa using hlength
  · dsimp only
    rw [hmemory]
    exact hholds.slice
  · dsimp only
    rw [hmemory]
    exact hkept

/-- A stack that begins at the bottom of memory. -/
def bottomed : Machine Unit where
  cpu.regs := { s := 1, u := 0x1000 }
  bus := .ofMemory (fun _ => 0xFF) ()

/-- Two words that are pulled in other parts than they have been pushed in, above a byte that
stays. -/
def crossingCalls : List StackCall :=
  [.pushByte 0xAA, .pushWord 0x1234, .pullByte, .pushWord 0x5678, .pullByte, .pullWord]

theorem stack_refines_bytes_crossing : ∃ after,
    bottomed.perform Devices.none ((crossingCalls.mapM (onStack .s)).start bottomed.cpu) =
      (.ok (.ok [.nothing, .nothing, .byte 0x12, .nothing, .byte 0x56, .word 0x7834],
        { regs := { s := 0, u := 0x1000 } }), after) ∧
      after.bus.memory 0 = 0xAA ∧ after.bus.memory 0xFFFC = 0xFF := by
  have hflat : bottomed.bus.IsFlat := Bus.isFlat_ofMemory (fun _ => 0xFF) ()
  have hmemory : bottomed.bus.memory = fun _ => 0xFF := Bus.memory_ofMemory (fun _ => 0xFF) ()
  have hdepth : ∀ taken ∈ crossingCalls.inits, 0 ≤ netDepth taken ∧ netDepth taken ≤ 65536 := by
    decide
  obtain ⟨answers, bytes, after, hbytes, -, hperform, -, hslice, hkept⟩ :=
    stack_refines_bytes Devices.none hflat .s crossingCalls
      fun taken htaken => hdepth taken ((List.mem_inits _ _).mpr htaken)
  cases hbytes
  refine ⟨after, hperform, (List.cons.inj hslice).1, ?_⟩
  rw [hkept 0xFFFC (by decide)]
  exact congrFun hmemory 0xFFFC

end Machine

end Mc6809
