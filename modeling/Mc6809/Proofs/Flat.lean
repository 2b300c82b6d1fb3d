/-
  Flat memory. A bus is flat when every page shows, for reads and for writes, its own page
  of one block of 64 KB. Handlers on such a bus are never reached, so what is left of the bus
  for the processor is a function from addresses to bytes, `Bus.memory`.

  `Traffic.onMemory` performs traffic on such a function. On a flat bus the course of traffic
  is just that (`course_of_isFlat`): it comes to its end, the bus stays flat, and the bytes are
  those of the function. `Machine.step_of_isFlat` says so of a step, and `step_of_executes` says
  what the step of a machine is that stands before an instruction of the tables.

  Stacks are lists of bytes: pushing bytes below a pointer and reading them from the lowered
  pointer upwards gives the list in reverse order, also where the addresses wrap around
  (`slice_push`).
-/
import Mathlib.Logic.Function.Basic
import Mc6809.Proofs.Arbitration

namespace Mc6809

/-- The byte at each address. -/
abbrev Memory := UInt16 → UInt8

/-- The next address, counted from the one before. -/
theorem add_ofNat_succ (address : UInt16) (i : Nat) :
    address + .ofNat (i + 1) = address + 1 + .ofNat i := by
  rw [UInt16.ofNat_add]
  grind

theorem sub_ofNat_succ (address : UInt16) (i : Nat) :
    address - .ofNat (i + 1) = address - 1 - .ofNat i := by
  rw [UInt16.ofNat_add]
  grind

namespace Memory

/-- The memory with another byte at an address. -/
def set (memory : Memory) (address : UInt16) (value : UInt8) : Memory :=
  Function.update memory address value

/-- The word at an address, high byte first. -/
def word (memory : Memory) (address : UInt16) : UInt16 :=
  joinBytes (memory address) (memory (address + 1))

/-- So many bytes from an address upwards. -/
def slice (memory : Memory) (address : UInt16) : Nat → List UInt8
  | 0 => []
  | length + 1 => memory address :: slice memory (address + 1) length

/-- The memory after the bytes have been pushed below a pointer, the first one first. -/
def push (memory : Memory) (pointer : UInt16) : List UInt8 → Memory
  | [] => memory
  | value :: rest => (memory.set (pointer - 1) value).push (pointer - 1) rest

variable (memory : Memory)

@[simp] theorem set_self (address : UInt16) (value : UInt8) :
    memory.set address value address = value := Function.update_self ..

theorem set_of_ne {address other : UInt16} (value : UInt8) (h : other ≠ address) :
    memory.set address value other = memory other := Function.update_of_ne h ..

@[simp] theorem length_slice (address : UInt16) (length : Nat) :
    (memory.slice address length).length = length := by
  induction length generalizing address with
  | zero => rfl
  | succ length ih => rw [slice, List.length_cons, ih]

theorem slice_append (address : UInt16) (first second : Nat) :
    memory.slice address (first + second) =
      memory.slice address first ++ memory.slice (address + .ofNat first) second := by
  induction first generalizing address with
  | zero =>
    have hzero : address + .ofNat 0 = address := UInt16.add_zero address
    rw [Nat.zero_add, hzero]
    rfl
  | succ first ih =>
    rw [Nat.succ_add, slice, slice, ih, add_ofNat_succ, List.cons_append]

/-- Pushing bytes does not reach an address that lies far enough above the pointer. -/
theorem push_apply (pointer address : UInt16) (bytes : List UInt8)
    (h : (address - pointer).toNat + bytes.length < 65536) :
    memory.push pointer bytes address = memory address := by
  induction bytes generalizing memory pointer with
  | nil => rfl
  | cons value rest ih =>
    rw [List.length_cons] at h
    have hdistance : (address - (pointer - 1)).toNat = (address - pointer).toNat + 1 := by
      have hsub : address - (pointer - 1) = address - pointer + 1 := by grind
      have hone : (1 : UInt16).toNat = 1 := rfl
      rw [hsub, UInt16.toNat_add, hone]
      omega
    have hne : address ≠ pointer - 1 := by
      rintro rfl
      rw [UInt16.sub_self] at hdistance
      exact absurd hdistance (Nat.succ_ne_zero _).symm
    rw [push, ih _ _ (by omega), set_of_ne _ _ hne]

/-- Bytes that have been pushed lie above the lowered pointer, the last one lowest. -/
theorem slice_push (pointer : UInt16) (bytes : List UInt8) (h : bytes.length ≤ 65536) :
    (memory.push pointer bytes).slice (pointer - .ofNat bytes.length) bytes.length =
      bytes.reverse := by
  induction bytes generalizing memory pointer with
  | nil => rfl
  | cons value rest ih =>
    rw [List.length_cons] at h
    have hlast : (memory.set (pointer - 1) value).push (pointer - 1) rest (pointer - 1) =
        value := by
      have hzero : (pointer - 1 - (pointer - 1)).toNat = 0 := by
        rw [UInt16.sub_self]
        rfl
      rw [push_apply _ _ _ _ (by omega), set_self]
    rw [List.length_cons, sub_ofNat_succ, slice_append, UInt16.sub_add_cancel, push,
      ih _ _ (by omega), List.reverse_cons, slice, slice, hlast]

/-- Bytes that are pushed from the last to the first lie in order above the lowered pointer. -/
theorem slice_push_reverse (pointer : UInt16) (bytes : List UInt8) (h : bytes.length ≤ 65536) :
    (memory.push pointer bytes.reverse).slice (pointer - .ofNat bytes.length) bytes.length =
      bytes := by
  have hslice := memory.slice_push pointer bytes.reverse (by rw [List.length_reverse]; exact h)
  rwa [List.length_reverse, List.reverse_reverse] at hslice

end Memory

/-! ## Flat buses -/

namespace Bus

variable {σ : Type} {devices : Devices σ} {bus : Bus σ} {block : BlockId}

/-- The bytes that the views of a bus show for reads. -/
def memory (bus : Bus σ) : Memory := fun address => (bus.peek address).getD 0

/-- Every page of the bus shows its own page of the block in both directions, and the block
has 64 KB. -/
structure FlatOn (bus : Bus σ) (block : BlockId) : Prop where
  length : bus.store.length block = 65536
  readView : ∀ number,
    (bus.pages.page number).readView = some ⟨block, 256 * number.toNat⟩
  writeView : ∀ number,
    (bus.pages.page number).writeView = some ⟨block, 256 * number.toNat⟩

/-- The whole address space is one block of 64 KB. -/
def IsFlat (bus : Bus σ) : Prop := ∃ block, bus.FlatOn block

theorem toNat_page_offset (address : UInt16) :
    256 * (highByte address).toNat + (lowByte address).toNat = address.toNat := by
  rw [← toNat_joinBytes, joinBytes_highByte_lowByte]

theorem FlatOn.memory_apply (h : bus.FlatOn block) (address : UInt16) :
    bus.memory address = (bus.store.get? block address.toNat).getD 0 := by
  unfold memory peek
  rw [h.readView, ← toNat_page_offset address]
  rfl

theorem FlatOn.cell?_eq (h : bus.FlatOn block) (address : UInt16) :
    bus.cell? address = some (block, address.toNat) := by
  unfold cell?
  rw [h.writeView, ← toNat_page_offset address]
  rfl

theorem FlatOn.putByte_eq (h : bus.FlatOn block) (address : UInt16) (value : UInt8) :
    bus.putByte address value =
      { bus with store := bus.store.set block address.toNat value } := by
  unfold putByte
  rw [h.cell?_eq]

theorem FlatOn.putByte (h : bus.FlatOn block) (address : UInt16) (value : UInt8) :
    (bus.putByte address value).FlatOn block where
  length := by
    rw [h.putByte_eq]
    unfold Store.length
    rw [Store.bytes_set, if_pos rfl, Array.size_setIfInBounds]
    exact h.length
  readView := by
    rw [putByte_pages]
    exact h.readView
  writeView := by
    rw [putByte_pages]
    exact h.writeView

/-- Storing a byte on a flat bus changes the memory at its address. -/
theorem FlatOn.memory_putByte (h : bus.FlatOn block) (address : UInt16) (value : UInt8) :
    (bus.putByte address value).memory = bus.memory.set address value := by
  funext other
  rw [(h.putByte address value).memory_apply, h.putByte_eq, Store.get?_set]
  by_cases hsame : other = address
  · subst hsame
    have hbound : other.toNat < (bus.store.bytes block).size := by
      have hlength : (bus.store.bytes block).size = 65536 := h.length
      have := other.toNat_lt
      omega
    rw [if_pos ⟨rfl, rfl⟩, Memory.set_self]
    unfold Store.get?
    rw [Array.getElem?_eq_getElem hbound]
    rfl
  · have hne : ¬ (block = block ∧ other.toNat = address.toNat) := fun heq =>
      hsame (UInt16.toNat_inj.mp heq.2)
    rw [if_neg hne, Memory.set_of_ne _ _ hsame, h.memory_apply]

theorem IsFlat.readResult_eq (h : bus.IsFlat) (address : UInt16) :
    bus.readResult devices address = (.ok (bus.memory address), bus) := by
  obtain ⟨block, h⟩ := h
  rw [Bus.readResult_eq, h.readView, h.memory_apply, ← toNat_page_offset address]
  rfl

theorem IsFlat.writeResult_eq (h : bus.IsFlat) (address : UInt16) (value : UInt8) :
    bus.writeResult devices address value = (.ok (), bus.putByte address value) := by
  obtain ⟨block, h⟩ := h
  rw [Bus.writeResult_eq, h.writeView, h.putByte_eq, ← toNat_page_offset address]
  rfl

theorem IsFlat.putByte (h : bus.IsFlat) (address : UInt16) (value : UInt8) :
    (bus.putByte address value).IsFlat :=
  h.imp fun _ h => h.putByte address value

theorem IsFlat.memory_putByte (h : bus.IsFlat) (address : UInt16) (value : UInt8) :
    (bus.putByte address value).memory = bus.memory.set address value :=
  h.elim fun _ h => h.memory_putByte address value

/-- The lines have no part in the memory. -/
theorem IsFlat.withLines (h : bus.IsFlat) (lines : InterruptLines) :
    ({ bus with lines } : Bus σ).IsFlat ∧ ({ bus with lines } : Bus σ).memory = bus.memory :=
  ⟨h.imp fun _ h => ⟨h.length, h.readView, h.writeView⟩, rfl⟩

/-- The flat page table shows a block of 64 KB at its own addresses. -/
theorem flatOn_of_pages (hpages : bus.pages = .flat block)
    (hlength : bus.store.length block = 65536) : bus.FlatOn block := by
  have hpage (number : UInt8) : (PageTable.flat block).page number =
      ({} : Page).putView .readWrite (some ⟨block, 256 * number.toNat⟩) :=
    Vector.getElem_ofFn number.toNat_lt
  refine ⟨hlength, fun number => ?_, fun number => ?_⟩
  · rw [hpages, hpage]
    rfl
  · rw [hpages, hpage]
    rfl

/-- One block of 64 KB at its own addresses is flat. -/
theorem flatOn_flat (bytes : Array UInt8) (state : σ) (h : bytes.size = 65536) :
    (Bus.flat bytes state).FlatOn ⟨0⟩ := flatOn_of_pages rfl h

theorem memory_flat (bytes : Array UInt8) (state : σ) (h : bytes.size = 65536)
    (address : UInt16) : (Bus.flat bytes state).memory address = bytes[address.toNat]?.getD 0 :=
  (flatOn_flat bytes state h).memory_apply address

/-- The flat bus with the bytes of a memory. -/
def ofMemory (memory : Memory) (state : σ) : Bus σ :=
  .flat (Array.ofFn fun address : Fin UInt16.size => memory (.ofFin address)) state

theorem isFlat_ofMemory (memory : Memory) (state : σ) : (ofMemory memory state).IsFlat :=
  ⟨⟨0⟩, flatOn_flat _ _ Array.size_ofFn⟩

@[simp] theorem memory_ofMemory (memory : Memory) (state : σ) :
    (ofMemory memory state).memory = memory := by
  funext address
  unfold ofMemory
  rw [memory_flat _ _ Array.size_ofFn, Array.getElem?_ofFn, dif_pos address.toNat_lt]
  rfl

end Bus

/-! ## Traffic on memory -/

namespace Traffic

variable {σ α β : Type}

/-- Performs the requests of a computation on a memory. Lines and reports do not touch it. -/
def onMemory : Traffic α → Memory → α × Memory
  | done result, memory => (result, memory)
  | read address next, memory => (next (memory address)).onMemory memory
  | write address value next, memory => next.onMemory (memory.set address value)
  | releaseNmi next, memory | report _ next, memory => next.onMemory memory

theorem onMemory_bind (t : Traffic α) (f : α → Traffic β) (memory : Memory) :
    (t >>= f).onMemory memory = (f (t.onMemory memory).1).onMemory (t.onMemory memory).2 := by
  induction t generalizing memory with
  | done => rfl
  | read address next ih => exact ih (memory address) memory
  | write address value next ih => exact ih (memory.set address value)
  | releaseNmi next ih => exact ih memory
  | report event next ih => exact ih memory

/-- On a flat bus traffic comes to its end, and the memory is all that matters. -/
theorem course_of_isFlat (devices : Devices σ) (t : Traffic α) {bus : Bus σ} (h : bus.IsFlat) :
    (t.course devices bus).outcome = .ok (t.onMemory bus.memory).1 ∧
      (t.course devices bus).bus.IsFlat ∧
      (t.course devices bus).bus.memory = (t.onMemory bus.memory).2 := by
  induction t generalizing bus with
  | done result => exact ⟨rfl, h, rfl⟩
  | read address next ih =>
    rw [course, h.readResult_eq]
    exact ih (bus.memory address) h
  | write address value next ih =>
    rw [course, h.writeResult_eq, onMemory, ← h.memory_putByte]
    exact ih (h.putByte address value)
  | releaseNmi next ih => exact ih (h.withLines _).1
  | report event next ih => exact ih h

/-- The page table of a flat bus stays as it is, and so does the block. -/
theorem course_of_flatOn (devices : Devices σ) (t : Traffic α) {bus : Bus σ} {block : BlockId}
    (h : bus.FlatOn block) : (t.course devices bus).bus.FlatOn block ∧
      (t.course devices bus).bus.pages = bus.pages := by
  induction t generalizing bus with
  | done result => exact ⟨h, rfl⟩
  | read address next ih =>
    rw [course, Bus.IsFlat.readResult_eq ⟨block, h⟩]
    exact ih (bus.memory address) h
  | write address value next ih =>
    rw [course, Bus.IsFlat.writeResult_eq ⟨block, h⟩]
    obtain ⟨hflat, hpages⟩ := ih (h.putByte address value)
    exact ⟨hflat, hpages.trans (Bus.putByte_pages bus address value)⟩
  | releaseNmi next ih => exact ih ⟨h.length, h.readView, h.writeView⟩
  | report event next ih => exact ih h

/-- On a flat bus lines that are all released stay so. -/
theorem course_released (devices : Devices σ) (t : Traffic α) {bus : Bus σ} (h : bus.IsFlat)
    (hlines : bus.lines = {}) : (t.course devices bus).bus.lines = {} := by
  induction t generalizing bus with
  | done result => exact hlines
  | read address next ih =>
    rw [course, h.readResult_eq]
    exact ih (bus.memory address) h hlines
  | write address value next ih =>
    rw [course, h.writeResult_eq]
    exact ih (h.putByte address value) ((Bus.putByte_lines bus address value).trans hlines)
  | releaseNmi next ih =>
    exact ih (h.withLines _).1 (congrArg (InterruptLines.set · .nmi false) hlines)
  | report event next ih => exact ih h hlines

end Traffic

/-! ## Actions on memory -/

namespace Action

variable {α β : Type} (cpu : Cpu) (memory : Memory)

/-- Performs an action from a state on a memory. -/
def onMemory (action : Action α) (cpu : Cpu) (memory : Memory) :
    (Except Fault α × Cpu) × Memory :=
  (action.start cpu).onMemory memory

@[simp] theorem onMemory_bind (action : Action α) (f : α → Action β) :
    (action >>= f).onMemory cpu memory = match action.onMemory cpu memory with
      | ((.ok a, cpu), memory) => (f a).onMemory cpu memory
      | ((.error fault, cpu), memory) => ((.error fault, cpu), memory) := by
  unfold onMemory
  rw [start_bind, Traffic.onMemory_bind]
  obtain ⟨⟨result, cpu'⟩, memory'⟩ := (action.start cpu).onMemory memory
  cases result <;> rfl

@[simp] theorem onMemory_pure (a : α) :
    (pure a : Action α).onMemory cpu memory = ((.ok a, cpu), memory) := rfl

@[simp] theorem onMemory_get :
    (get : Action Cpu).onMemory cpu memory = ((.ok cpu, cpu), memory) := rfl

@[simp] theorem onMemory_modify (f : Cpu → Cpu) :
    (modify f : Action Unit).onMemory cpu memory = ((.ok (), f cpu), memory) := rfl

@[simp] theorem onMemory_regs : regs.onMemory cpu memory = ((.ok cpu.regs, cpu), memory) := rfl

@[simp] theorem onMemory_modifyRegs (f : Registers → Registers) :
    (modifyRegs f).onMemory cpu memory =
      ((.ok (), { cpu with regs := f cpu.regs }), memory) := rfl

@[simp] theorem onMemory_modifyFlags (f : Flags → Flags) :
    (modifyFlags f).onMemory cpu memory =
      ((.ok (), { cpu with regs.cc := f cpu.regs.cc }), memory) := rfl

@[simp] theorem onMemory_charge (cycles : UInt64) :
    (charge cycles).onMemory cpu memory =
      ((.ok (), { cpu with clock := cpu.clock + cycles }), memory) := rfl

@[simp] theorem onMemory_jump (address : UInt16) :
    (jump address).onMemory cpu memory =
      ((.ok (), { cpu with regs.pc := address }), memory) := rfl

@[simp] theorem onMemory_report (event : Event) :
    (report event).onMemory cpu memory = ((.ok (), cpu), memory) := rfl

@[simp] theorem onMemory_fetch : fetch.onMemory cpu memory =
    ((.ok (memory cpu.regs.pc), { cpu with regs.pc := cpu.regs.pc + 1 }), memory) := rfl

@[simp] theorem onMemory_readWord (address : UInt16) :
    (readWord address).onMemory cpu memory = ((.ok (memory.word address), cpu), memory) := rfl

@[simp] theorem onMemory_pullByte (stack : IndexRegister) :
    (pullByte stack).onMemory cpu memory =
      ((.ok (memory (cpu.regs.index stack)),
        { cpu with regs := cpu.regs.setIndex stack (cpu.regs.index stack + 1) }), memory) := rfl

end Action

/-! ## Instructions on memory -/

/-- The bytes of an opcode. The second and the third table have a byte of their own in front. -/
def OpcodePage.code (page : OpcodePage) (opcode : UInt8) : List UInt8 :=
  match page with
  | page1 => [opcode]
  | page2 => [0x10, opcode]
  | page3 => [0x11, opcode]

/-- The names of the prefix bytes stand for no operation. -/
theorem Mnemonic.prefixOf?_of_operation {mnemonic : Mnemonic} {operation : Operation}
    (h : mnemonic.operation = some operation) : mnemonic.prefixOf? = none := by
  unfold prefixOf?
  split
  · cases h
  · cases h
  · rfl

namespace Action

variable {cpu : Cpu} {memory : Memory} {page : OpcodePage} {opcode : UInt8}
  {entry : Opcode.Entry} {operation : Operation}

theorem onMemory_fetchEntry (hfind : Opcode.find? page opcode = some entry)
    (hopcode : memory cpu.regs.pc = opcode) : (fetchEntry page).onMemory cpu memory =
      ((.ok entry, { cpu with regs.pc := cpu.regs.pc + 1 }), memory) := by
  unfold fetchEntry
  simp only [onMemory_bind, onMemory_fetch, hopcode, hfind, onMemory_pure]

theorem onMemory_documented (hoperation : entry.mnemonic.operation = some operation)
    (length : UInt16) : (documented entry length).onMemory cpu memory =
      (operation.effect.resolve entry.mode).onMemory
        { cpu with clock := cpu.clock + entry.cycles.toUInt64 } memory := by
  unfold documented
  simp only [onMemory_bind, onMemory_regs, onMemory_report, onMemory_charge, hoperation]

/-- An opcode behind a prefix byte is looked up in the table that the prefix selects. -/
theorem onMemory_instruction_prefixed {first : UInt8} {selector : Opcode.Entry}
    (hselector : Opcode.find? .page1 first = some selector)
    (hpage : selector.mnemonic.prefixOf? = some page)
    (hfind : Opcode.find? page opcode = some entry)
    (hoperation : entry.mnemonic.operation = some operation)
    (hcode : memory.slice cpu.regs.pc 2 = [first, opcode]) :
    instruction.onMemory cpu memory = (operation.effect.resolve entry.mode).onMemory { cpu with
      regs.pc := cpu.regs.pc + 2
      clock := cpu.clock + entry.cycles.toUInt64 } memory := by
  obtain ⟨hfirst, hrest⟩ := List.cons.inj hcode
  obtain ⟨hopcode, -⟩ := List.cons.inj hrest
  have htwo : cpu.regs.pc + 1 + 1 = cpu.regs.pc + 2 := by grind
  rw [instruction_eq_documented]
  unfold documentedInstruction
  simp only [onMemory_bind, onMemory_fetchEntry hselector hfirst, hpage]
  rw [onMemory_fetchEntry hfind hopcode]
  simp only [onMemory_documented hoperation, htwo]

/-- An instruction of the tables steps past its opcode, charges the cycles of its entry, and
does what its mnemonic says to the operand of its mode. -/
theorem onMemory_instruction (hfind : Opcode.find? page opcode = some entry)
    (hoperation : entry.mnemonic.operation = some operation)
    (hcode : memory.slice cpu.regs.pc (page.code opcode).length = page.code opcode) :
    instruction.onMemory cpu memory = (operation.effect.resolve entry.mode).onMemory { cpu with
      regs.pc := cpu.regs.pc + .ofNat (page.code opcode).length
      clock := cpu.clock + entry.cycles.toUInt64 } memory := by
  cases page with
  | page1 =>
    have hplain := Mnemonic.prefixOf?_of_operation hoperation
    obtain ⟨hopcode, -⟩ := List.cons.inj hcode
    rw [instruction_eq_documented]
    unfold documentedInstruction
    simp only [onMemory_bind, onMemory_fetchEntry hfind hopcode, hplain,
      onMemory_documented hoperation]
    rfl
  | page2 =>
    have hselector : Opcode.find? .page1 0x10 = some ⟨.page2, .inherent, 0, 1⟩ := by
      rw [Opcode.find?_eq_lookup]
      rfl
    exact onMemory_instruction_prefixed hselector rfl hfind hoperation hcode
  | page3 =>
    have hselector : Opcode.find? .page1 0x11 = some ⟨.page3, .inherent, 0, 1⟩ := by
      rw [Opcode.find?_eq_lookup]
      rfl
    exact onMemory_instruction_prefixed hselector rfl hfind hoperation hcode

end Action

/-! ## Steps on flat memory -/

namespace Machine

variable {σ : Type} (devices : Devices σ) {m : Machine σ}

/-- The next step of the machine executes the instruction whose bytes begin like this: nothing
is eligible, the processor does not wait, and the bytes stand at PC. -/
structure Executes (m : Machine σ) (code : List UInt8) : Prop where
  quiet : m.Quiet
  awake : ¬ m.cpu.Waits m.bus.lines
  code : m.bus.memory.slice m.cpu.regs.pc code.length = code

/-- With every line released a processor that does not wait executes what stands at PC. -/
theorem executes_of_released {code : List UInt8} (hlines : m.bus.lines = {})
    (hcwai : m.cpu.cwai = false) (hsync : m.cpu.sync = false)
    (hcode : m.bus.memory.slice m.cpu.regs.pc code.length = code) : m.Executes code where
  quiet := by
    rintro (_ | _ | _) ⟨hline, -⟩ <;> rw [hlines] at hline <;> exact Bool.false_ne_true hline
  awake := by
    rintro (hwaits | ⟨hwaits, -⟩)
    · exact Bool.false_ne_true (hcwai.symm.trans hwaits)
    · exact Bool.false_ne_true (hsync.symm.trans hwaits)
  code := hcode

/-- On flat memory a step is what its traffic comes to there, and memory stays flat. -/
theorem step_of_isFlat (h : m.bus.IsFlat) {result : Except Fault Unit} {cpu : Cpu}
    {memory : Memory} (heval : (Action.step m.bus.lines).onMemory m.cpu m.bus.memory =
      ((result, cpu), memory)) :
    (m.step devices).1 = result ∧ (m.step devices).2.cpu = cpu ∧
      (m.step devices).2.bus.IsFlat ∧ (m.step devices).2.bus.memory = memory := by
  obtain ⟨hend, hflat, hmemory⟩ :=
    Traffic.course_of_isFlat devices ((Action.step m.bus.lines).start m.cpu) h
  rw [← course] at hend hflat hmemory
  rw [Action.onMemory] at heval
  rw [heval] at hend hmemory
  obtain ⟨hresult, hcpu, hbus, -⟩ := m.step_of_outcome devices hend
  rw [hbus]
  exact ⟨hresult, hcpu, hflat, hmemory⟩

/-- On flat memory the step of a machine that stands before an instruction of the tables is
what the operation does to the operand. -/
theorem step_of_executes {page : OpcodePage} {opcode : UInt8} {entry : Opcode.Entry}
    {operation : Operation} {rest : List UInt8} (hflat : m.bus.IsFlat)
    (h : m.Executes (page.code opcode ++ rest)) (hfind : Opcode.find? page opcode = some entry)
    (hoperation : entry.mnemonic.operation = some operation) {result : Except Fault Unit}
    {cpu : Cpu} {memory : Memory} (heval : (operation.effect.resolve entry.mode).onMemory
      { m.cpu with
        sync := false
        regs.pc := m.cpu.regs.pc + .ofNat (page.code opcode).length
        clock := m.cpu.clock + entry.cycles.toUInt64 } m.bus.memory = ((result, cpu), memory)) :
    (m.step devices).1 = result ∧ (m.step devices).2.cpu = cpu ∧
      (m.step devices).2.bus.IsFlat ∧ (m.step devices).2.bus.memory = memory := by
  refine step_of_isFlat devices hflat ?_
  have hbytes := h.code
  rw [List.length_append, Memory.slice_append] at hbytes
  have hcode : m.bus.memory.slice { m.cpu with sync := false }.regs.pc (page.code opcode).length =
      page.code opcode := (List.append_inj hbytes (Memory.length_slice _ _ _)).1
  rw [Action.onMemory, Action.start_step_of_not_waits h.quiet h.awake]
  exact (Action.onMemory_instruction hfind hoperation hcode).trans heval

end Machine

end Mc6809
