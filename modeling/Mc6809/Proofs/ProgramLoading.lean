/-
  Loading a program. Its bytes go to consecutive addresses, and behind 0xFFFF comes 0, so a program
  can overwrite its own bytes and the reset vector. Each address holds the last byte that reaches it
  (`Emulator.load_cases`), and the vector is written after all of them, so a reset continues at the
  start of the program whatever its bytes are (`loadProgram_exact`).
-/
import Mathlib.Order.Lattice.Nat
import Mc6809.Proofs.FlatEmulator

namespace Mc6809

namespace Emulator

variable {e : Emulator} {program : List UInt8} {start address : UInt16}

/-- The places of a program whose bytes go to an address. -/
def placesAt (program : List UInt8) (start address : UInt16) : Set Nat :=
  { i | i < program.length ∧ (start.toNat + i) % 2 ^ 16 = address.toNat }

theorem reaches_iff {i : Nat} :
    start + .ofNat i = address ↔ (start.toNat + i) % 2 ^ 16 = address.toNat := by
  rw [← UInt16.toNat_inj, UInt16.toNat_add, UInt16.toNat_ofNat', Nat.add_mod_mod]

/-- The last byte that reaches an address is the one it holds, and one that no byte reaches holds
what it held. -/
theorem load_cases (memory : Memory) (program : List UInt8) (start address : UInt16) :
    (∃ i, IsGreatest (placesAt program start address) i ∧
      program[i]? = some (memory.load start program address)) ∨
    placesAt program start address = ∅ ∧ memory.load start program address = memory address := by
  rcases (placesAt program start address).eq_empty_or_nonempty with hempty | hnonempty
  · refine .inr ⟨hempty, Memory.load_of_not_reached _ _ _ _ fun i hi hreach => ?_⟩
    have hplace : i ∈ placesAt program start address := ⟨hi, reaches_iff.mp hreach⟩
    rw [hempty] at hplace
    exact hplace
  · have hbounded : BddAbove (placesAt program start address) :=
      ⟨program.length, fun i hi => Nat.le_of_lt hi.1⟩
    have hlast : IsGreatest (placesAt program start address) _ :=
      ⟨Nat.sSup_mem hnonempty hbounded, fun i hi => le_csSup hbounded hi⟩
    generalize sSup (placesAt program start address) = last at hlast
    obtain ⟨⟨hlength, hreach⟩, hgreatest⟩ := hlast
    obtain rfl := reaches_iff.mpr hreach
    refine .inl ⟨last, ⟨⟨hlength, hreach⟩, hgreatest⟩, ?_⟩
    rw [Memory.load_apply_of_last _ _ _ hlength fun j hj hlt hsame =>
      Nat.not_le.mpr hlt (hgreatest ⟨hj, reaches_iff.mp hsame⟩)]
    exact List.getElem?_eq_getElem hlength

/-- A loaded program, of any length and at any start. Memory is flat whatever a host has called for
before (`new_spec`, `onRam_foldl_obey`). Every address but
those of the reset vector holds the last byte of the program that reaches it, or what it held if
there is none, and the vector holds the start. The processor reads what the host is shown. Of the
machine only PC has changed besides the memory. The bounds of the program are told modulo 2^16, and
a reset succeeds and leads to the start. -/
theorem loadProgram_exact (h : e.machine.bus.FlatOn ram) (program : List UInt8) (start : UInt16) :
    let loaded := e.loadProgram program start
    (∀ address, address ≠ 0xFFFE → address ≠ 0xFFFF →
      (∃ i, IsGreatest (placesAt program start address) i ∧
        program[i]? = some (loaded.readMemory address)) ∨
      placesAt program start address = ∅ ∧
        loaded.readMemory address = e.readMemory address) ∧
    loaded.readMemory 0xFFFE = highByte start ∧ loaded.readMemory 0xFFFF = lowByte start ∧
    loaded.machine.bus.memory = loaded.readMemory ∧
    loaded.machine = { e.machine with
      cpu.regs.pc := start
      bus.store := loaded.machine.bus.store } ∧
    loaded.programStart = start ∧
    loaded.programEnd.toNat = (start.toNat + program.length) % 2 ^ 16 ∧
    loaded.reset.1 = .ok () ∧ loaded.reset.2.machine.cpu.regs.pc = start := by
  intro loaded
  obtain ⟨hflat, hmemory⟩ : loaded.machine.bus.FlatOn ram ∧ loaded.readMemory = _ :=
    memory_loadProgram h program start
  have hne : (0xFFFE : UInt16) ≠ 0xFFFF := by decide
  refine ⟨fun address hhigh hlow => ?_, ?_, ?_, (readMemory_of_flatOn hflat).symm, rfl, rfl, ?_,
    ?_⟩
  · rw [hmemory, Memory.set_of_ne _ _ hlow, Memory.set_of_ne _ _ hhigh]
    exact load_cases e.readMemory program start address
  · rw [hmemory, Memory.set_of_ne _ _ hne, Memory.set_self]
  · rw [hmemory, Memory.set_self]
  · change (start + UInt16.ofNat program.length).toNat = _
    rw [UInt16.toNat_add, UInt16.toNat_ofNat', Nat.add_mod_mod]
  · obtain ⟨hok, hcpu, -⟩ := Machine.reset_of_isFlat Devices.none ⟨ram, hflat⟩
    rw [← readMemory_of_flatOn hflat, hmemory, Memory.word_resetVector] at hcpu
    unfold reset
    dsimp only
    rw [hok, hcpu]
    exact ⟨rfl, rfl⟩

/-- A program of one byte more than all memory comes round to its start, which holds the last byte
instead of the first. The vector, covered too, holds the start nevertheless. -/
theorem loadProgram_exact_overlong :
    new.machine.bus.FlatOn ram ∧
    let loaded := new.loadProgram (List.replicate 65536 1 ++ [2]) 0x8000
    loaded.readMemory 0x8000 = 2 ∧ loaded.readMemory 0xFFFE = 0x80 ∧
    loaded.readMemory 0xFFFF = 0 ∧ loaded.programEnd.toNat = 0x8001 ∧
    loaded.reset.1 = .ok () ∧ loaded.reset.2.machine.cpu.regs.pc = 0x8000 := by
  have hflat : new.machine.bus.FlatOn ram := new_spec.1.flatOn
  have hlength : (List.replicate 65536 (1 : UInt8) ++ [2]).length = 65537 := by
    rw [List.length_append, List.length_replicate, List.length_singleton]
  obtain ⟨hbytes, hhigh, hlow, -, -, -, hend, hreset⟩ :=
    loadProgram_exact hflat (List.replicate 65536 1 ++ [2]) 0x8000
  rw [hlength] at hend
  refine ⟨hflat, ?_, hhigh, hlow, hend, hreset⟩
  have hround : 65536 ∈ placesAt (List.replicate 65536 (1 : UInt8) ++ [2]) 0x8000 0x8000 :=
    ⟨Nat.lt_of_lt_of_eq (Nat.lt_succ_self _) hlength.symm, rfl⟩
  rcases hbytes 0x8000 (by decide) (by decide) with ⟨i, hlast, hbyte⟩ | ⟨hempty, -⟩
  · obtain rfl : i = 65536 :=
      Nat.le_antisymm (Nat.le_of_lt_succ (hlast.1.1.trans_eq hlength)) (hlast.2 hround)
    rw [List.getElem?_append_right List.length_replicate.le, List.length_replicate] at hbyte
    exact (Option.some.inj hbyte).symm
  · rw [hempty] at hround
    exact hround.elim

end Emulator

end Mc6809
