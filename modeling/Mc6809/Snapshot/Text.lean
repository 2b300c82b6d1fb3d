/-
  Snapshots as JSON text. Every field is required and none may be repeated; integers are
  digits within range and flags are truth values. Members with other names are ignored,
  whatever their value.
-/
import Mc6809.Json
import Mc6809.Snapshot

namespace Mc6809

namespace Flags

/-- The names of the flags in the order in which they are written. -/
def fieldNames : List String :=
  ["carry", "overflow", "zero", "negative", "irq_mask", "half_carry", "firq_mask", "entire"]

def toJson (flags : Flags) : Json :=
  .record (fieldNames.zip [.bool flags.carry, .bool flags.overflow, .bool flags.zero,
    .bool flags.negative, .bool flags.irqMask, .bool flags.halfCarry, .bool flags.firqMask,
    .bool flags.entire])

def ofJson? (json : Json) : Option Flags :=
  match json.fields? fieldNames with
  | some [carry, overflow, zero, negative, irqMask, halfCarry, firqMask, entire] =>
    return {
      carry := ← carry.bool?
      overflow := ← overflow.bool?
      zero := ← zero.bool?
      negative := ← negative.bool?
      irqMask := ← irqMask.bool?
      halfCarry := ← halfCarry.bool?
      firqMask := ← firqMask.bool?
      entire := ← entire.bool? }
  | _ => none

end Flags

namespace Registers

/-- The names of the registers in the order in which they are written. -/
def fieldNames : List String := ["a", "b", "dp", "x", "y", "u", "s", "pc", "cc"]

def toJson (regs : Registers) : Json :=
  .record (fieldNames.zip [.natural regs.a.toNat, .natural regs.b.toNat,
    .natural regs.dp.toNat, .natural regs.x.toNat, .natural regs.y.toNat,
    .natural regs.u.toNat, .natural regs.s.toNat, .natural regs.pc.toNat, regs.cc.toJson])

def ofJson? (json : Json) : Option Registers :=
  match json.fields? fieldNames with
  | some [a, b, dp, x, y, u, s, pc, cc] =>
    return {
      a := ← a.uint8?
      b := ← b.uint8?
      dp := ← dp.uint8?
      x := ← x.uint16?
      y := ← y.uint16?
      u := ← u.uint16?
      s := ← s.uint16?
      pc := ← pc.uint16?
      cc := ← Flags.ofJson? cc }
  | _ => none

end Registers

namespace InterruptLines

/-- The names of the lines in the order in which they are written. -/
def fieldNames : List String := ["nmi", "firq", "irq"]

def toJson (lines : InterruptLines) : Json :=
  .record (fieldNames.zip [.bool lines.nmi, .bool lines.firq, .bool lines.irq])

def ofJson? (json : Json) : Option InterruptLines :=
  match json.fields? fieldNames with
  | some [nmi, firq, irq] =>
    return { nmi := ← nmi.bool?, firq := ← firq.bool?, irq := ← irq.bool? }
  | _ => none

end InterruptLines

namespace Snapshot

/-- The names of the fields in the order in which they are written. -/
def fieldNames : List String := ["registers", "clock", "lines", "nmi_armed", "cwai", "sync"]

def toJson (snapshot : Snapshot) : Json :=
  .record (fieldNames.zip [snapshot.registers.toJson, .natural snapshot.clock.toNat,
    snapshot.lines.toJson, .bool snapshot.nmiArmed, .bool snapshot.cwai,
    .bool snapshot.sync])

def ofJson? (json : Json) : Option Snapshot :=
  match json.fields? fieldNames with
  | some [registers, clock, lines, nmiArmed, cwai, sync] =>
    return {
      registers := ← Registers.ofJson? registers
      clock := ← clock.uint64?
      lines := ← InterruptLines.ofJson? lines
      nmiArmed := ← nmiArmed.bool?
      cwai := ← cwai.bool?
      sync := ← sync.bool? }
  | _ => none

/-- The text of a snapshot, without blanks. -/
def text (snapshot : Snapshot) : String := snapshot.toJson.text

/-- The snapshot that a text writes. -/
def parse? (text : String) : Option Snapshot := (Json.parse? text).bind ofJson?

end Snapshot

end Mc6809
