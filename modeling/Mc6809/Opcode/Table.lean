/-
  The three documented opcode tables. Each row gives the opcode byte, the mnemonic, the
  addressing mode, the base cycle count and the size in bytes. Rows of the second and
  third table count the prefix byte in cycles and size; the bytes that an indexed
  post-byte asks for are counted nowhere. A byte without a row is undefined.
-/
import Mc6809.Opcode.Mnemonic

namespace Mc6809

/-- How an instruction finds its operand. -/
inductive AddressingMode where
  | inherent | immediate | direct | extended | indexed | relative | longRelative
deriving DecidableEq, Repr

/-- The three opcode tables: without a prefix, after 0x10 and after 0x11. -/
inductive OpcodePage where
  | page1 | page2 | page3
deriving DecidableEq, Repr

/-- Cycles charged for an opcode that the table leaves undefined: one per byte fetched. -/
def OpcodePage.undefinedCost : OpcodePage → UInt64
  | .page1 => 1
  | .page2 | .page3 => 2

/-- The printed name of a table. -/
def OpcodePage.text : OpcodePage → String
  | .page1 => "page-1"
  | .page2 => "page-2"
  | .page3 => "page-3"

namespace Opcode

/-- What a table documents about one opcode. -/
structure Entry where
  mnemonic : Mnemonic
  mode : AddressingMode
  cycles : UInt8
  size : UInt8
deriving DecidableEq, Repr

/-- Rows of the first table. The prefixes 0x10 and 0x11 cost nothing by themselves. -/
def page1Rows : List (Nat × Entry) := [
  (0x00, ⟨.neg, .direct, 6, 2⟩),
  (0x03, ⟨.com, .direct, 6, 2⟩),
  (0x04, ⟨.lsr, .direct, 6, 2⟩),
  (0x06, ⟨.ror, .direct, 6, 2⟩),
  (0x07, ⟨.asr, .direct, 6, 2⟩),
  (0x08, ⟨.lsl, .direct, 6, 2⟩),
  (0x09, ⟨.rol, .direct, 6, 2⟩),
  (0x0A, ⟨.dec, .direct, 6, 2⟩),
  (0x0C, ⟨.inc, .direct, 6, 2⟩),
  (0x0D, ⟨.tst, .direct, 6, 2⟩),
  (0x0E, ⟨.jmp, .direct, 3, 2⟩),
  (0x0F, ⟨.clr, .direct, 6, 2⟩),
  (0x10, ⟨.page2, .inherent, 0, 1⟩),
  (0x11, ⟨.page3, .inherent, 0, 1⟩),
  (0x12, ⟨.nop, .inherent, 2, 1⟩),
  (0x13, ⟨.sync, .inherent, 4, 1⟩),
  (0x16, ⟨.lbra, .longRelative, 5, 3⟩),
  (0x17, ⟨.lbsr, .longRelative, 9, 3⟩),
  (0x19, ⟨.daa, .inherent, 2, 1⟩),
  (0x1A, ⟨.orcc, .immediate, 3, 2⟩),
  (0x1C, ⟨.andcc, .immediate, 3, 2⟩),
  (0x1D, ⟨.sex, .inherent, 2, 1⟩),
  (0x1E, ⟨.exg, .immediate, 8, 2⟩),
  (0x1F, ⟨.tfr, .immediate, 6, 2⟩),
  (0x20, ⟨.bra, .relative, 3, 2⟩),
  (0x21, ⟨.brn, .relative, 3, 2⟩),
  (0x22, ⟨.bhi, .relative, 3, 2⟩),
  (0x23, ⟨.bls, .relative, 3, 2⟩),
  (0x24, ⟨.bhs, .relative, 3, 2⟩),
  (0x25, ⟨.blo, .relative, 3, 2⟩),
  (0x26, ⟨.bne, .relative, 3, 2⟩),
  (0x27, ⟨.beq, .relative, 3, 2⟩),
  (0x28, ⟨.bvc, .relative, 3, 2⟩),
  (0x29, ⟨.bvs, .relative, 3, 2⟩),
  (0x2A, ⟨.bpl, .relative, 3, 2⟩),
  (0x2B, ⟨.bmi, .relative, 3, 2⟩),
  (0x2C, ⟨.bge, .relative, 3, 2⟩),
  (0x2D, ⟨.blt, .relative, 3, 2⟩),
  (0x2E, ⟨.bgt, .relative, 3, 2⟩),
  (0x2F, ⟨.ble, .relative, 3, 2⟩),
  (0x30, ⟨.leax, .indexed, 4, 2⟩),
  (0x31, ⟨.leay, .indexed, 4, 2⟩),
  (0x32, ⟨.leas, .indexed, 4, 2⟩),
  (0x33, ⟨.leau, .indexed, 4, 2⟩),
  (0x34, ⟨.pshs, .immediate, 5, 2⟩),
  (0x35, ⟨.puls, .immediate, 5, 2⟩),
  (0x36, ⟨.pshu, .immediate, 5, 2⟩),
  (0x37, ⟨.pulu, .immediate, 5, 2⟩),
  (0x39, ⟨.rts, .inherent, 5, 1⟩),
  (0x3A, ⟨.abx, .inherent, 3, 1⟩),
  (0x3B, ⟨.rti, .inherent, 6, 1⟩),
  (0x3C, ⟨.cwai, .immediate, 20, 2⟩),
  (0x3D, ⟨.mul, .inherent, 11, 1⟩),
  (0x3F, ⟨.swi, .inherent, 19, 1⟩),
  (0x40, ⟨.nega, .inherent, 2, 1⟩),
  (0x43, ⟨.coma, .inherent, 2, 1⟩),
  (0x44, ⟨.lsra, .inherent, 2, 1⟩),
  (0x46, ⟨.rora, .inherent, 2, 1⟩),
  (0x47, ⟨.asra, .inherent, 2, 1⟩),
  (0x48, ⟨.lsla, .inherent, 2, 1⟩),
  (0x49, ⟨.rola, .inherent, 2, 1⟩),
  (0x4A, ⟨.deca, .inherent, 2, 1⟩),
  (0x4C, ⟨.inca, .inherent, 2, 1⟩),
  (0x4D, ⟨.tsta, .inherent, 2, 1⟩),
  (0x4F, ⟨.clra, .inherent, 2, 1⟩),
  (0x50, ⟨.negb, .inherent, 2, 1⟩),
  (0x53, ⟨.comb, .inherent, 2, 1⟩),
  (0x54, ⟨.lsrb, .inherent, 2, 1⟩),
  (0x56, ⟨.rorb, .inherent, 2, 1⟩),
  (0x57, ⟨.asrb, .inherent, 2, 1⟩),
  (0x58, ⟨.lslb, .inherent, 2, 1⟩),
  (0x59, ⟨.rolb, .inherent, 2, 1⟩),
  (0x5A, ⟨.decb, .inherent, 2, 1⟩),
  (0x5C, ⟨.incb, .inherent, 2, 1⟩),
  (0x5D, ⟨.tstb, .inherent, 2, 1⟩),
  (0x5F, ⟨.clrb, .inherent, 2, 1⟩),
  (0x60, ⟨.neg, .indexed, 6, 2⟩),
  (0x63, ⟨.com, .indexed, 6, 2⟩),
  (0x64, ⟨.lsr, .indexed, 6, 2⟩),
  (0x66, ⟨.ror, .indexed, 6, 2⟩),
  (0x67, ⟨.asr, .indexed, 6, 2⟩),
  (0x68, ⟨.lsl, .indexed, 6, 2⟩),
  (0x69, ⟨.rol, .indexed, 6, 2⟩),
  (0x6A, ⟨.dec, .indexed, 6, 2⟩),
  (0x6C, ⟨.inc, .indexed, 6, 2⟩),
  (0x6D, ⟨.tst, .indexed, 6, 2⟩),
  (0x6E, ⟨.jmp, .indexed, 3, 2⟩),
  (0x6F, ⟨.clr, .indexed, 6, 2⟩),
  (0x70, ⟨.neg, .extended, 7, 3⟩),
  (0x73, ⟨.com, .extended, 7, 3⟩),
  (0x74, ⟨.lsr, .extended, 7, 3⟩),
  (0x76, ⟨.ror, .extended, 7, 3⟩),
  (0x77, ⟨.asr, .extended, 7, 3⟩),
  (0x78, ⟨.lsl, .extended, 7, 3⟩),
  (0x79, ⟨.rol, .extended, 7, 3⟩),
  (0x7A, ⟨.dec, .extended, 7, 3⟩),
  (0x7C, ⟨.inc, .extended, 7, 3⟩),
  (0x7D, ⟨.tst, .extended, 7, 3⟩),
  (0x7E, ⟨.jmp, .extended, 4, 3⟩),
  (0x7F, ⟨.clr, .extended, 7, 3⟩),
  (0x80, ⟨.suba, .immediate, 2, 2⟩),
  (0x81, ⟨.cmpa, .immediate, 2, 2⟩),
  (0x82, ⟨.sbca, .immediate, 2, 2⟩),
  (0x83, ⟨.subd, .immediate, 4, 3⟩),
  (0x84, ⟨.anda, .immediate, 2, 2⟩),
  (0x85, ⟨.bita, .immediate, 2, 2⟩),
  (0x86, ⟨.lda, .immediate, 2, 2⟩),
  (0x88, ⟨.eora, .immediate, 2, 2⟩),
  (0x89, ⟨.adca, .immediate, 2, 2⟩),
  (0x8A, ⟨.ora, .immediate, 2, 2⟩),
  (0x8B, ⟨.adda, .immediate, 2, 2⟩),
  (0x8C, ⟨.cmpx, .immediate, 4, 3⟩),
  (0x8D, ⟨.bsr, .relative, 7, 2⟩),
  (0x8E, ⟨.ldx, .immediate, 3, 3⟩),
  (0x90, ⟨.suba, .direct, 4, 2⟩),
  (0x91, ⟨.cmpa, .direct, 4, 2⟩),
  (0x92, ⟨.sbca, .direct, 4, 2⟩),
  (0x93, ⟨.subd, .direct, 6, 2⟩),
  (0x94, ⟨.anda, .direct, 4, 2⟩),
  (0x95, ⟨.bita, .direct, 4, 2⟩),
  (0x96, ⟨.lda, .direct, 4, 2⟩),
  (0x97, ⟨.sta, .direct, 4, 2⟩),
  (0x98, ⟨.eora, .direct, 4, 2⟩),
  (0x99, ⟨.adca, .direct, 4, 2⟩),
  (0x9A, ⟨.ora, .direct, 4, 2⟩),
  (0x9B, ⟨.adda, .direct, 4, 2⟩),
  (0x9C, ⟨.cmpx, .direct, 6, 2⟩),
  (0x9D, ⟨.jsr, .direct, 7, 2⟩),
  (0x9E, ⟨.ldx, .direct, 5, 2⟩),
  (0x9F, ⟨.stx, .direct, 5, 2⟩),
  (0xA0, ⟨.suba, .indexed, 4, 2⟩),
  (0xA1, ⟨.cmpa, .indexed, 4, 2⟩),
  (0xA2, ⟨.sbca, .indexed, 4, 2⟩),
  (0xA3, ⟨.subd, .indexed, 6, 2⟩),
  (0xA4, ⟨.anda, .indexed, 4, 2⟩),
  (0xA5, ⟨.bita, .indexed, 4, 2⟩),
  (0xA6, ⟨.lda, .indexed, 4, 2⟩),
  (0xA7, ⟨.sta, .indexed, 4, 2⟩),
  (0xA8, ⟨.eora, .indexed, 4, 2⟩),
  (0xA9, ⟨.adca, .indexed, 4, 2⟩),
  (0xAA, ⟨.ora, .indexed, 4, 2⟩),
  (0xAB, ⟨.adda, .indexed, 4, 2⟩),
  (0xAC, ⟨.cmpx, .indexed, 6, 2⟩),
  (0xAD, ⟨.jsr, .indexed, 7, 2⟩),
  (0xAE, ⟨.ldx, .indexed, 5, 2⟩),
  (0xAF, ⟨.stx, .indexed, 5, 2⟩),
  (0xB0, ⟨.suba, .extended, 5, 3⟩),
  (0xB1, ⟨.cmpa, .extended, 5, 3⟩),
  (0xB2, ⟨.sbca, .extended, 5, 3⟩),
  (0xB3, ⟨.subd, .extended, 7, 3⟩),
  (0xB4, ⟨.anda, .extended, 5, 3⟩),
  (0xB5, ⟨.bita, .extended, 5, 3⟩),
  (0xB6, ⟨.lda, .extended, 5, 3⟩),
  (0xB7, ⟨.sta, .extended, 5, 3⟩),
  (0xB8, ⟨.eora, .extended, 5, 3⟩),
  (0xB9, ⟨.adca, .extended, 5, 3⟩),
  (0xBA, ⟨.ora, .extended, 5, 3⟩),
  (0xBB, ⟨.adda, .extended, 5, 3⟩),
  (0xBC, ⟨.cmpx, .extended, 7, 3⟩),
  (0xBD, ⟨.jsr, .extended, 8, 3⟩),
  (0xBE, ⟨.ldx, .extended, 6, 3⟩),
  (0xBF, ⟨.stx, .extended, 6, 3⟩),
  (0xC0, ⟨.subb, .immediate, 2, 2⟩),
  (0xC1, ⟨.cmpb, .immediate, 2, 2⟩),
  (0xC2, ⟨.sbcb, .immediate, 2, 2⟩),
  (0xC3, ⟨.addd, .immediate, 4, 3⟩),
  (0xC4, ⟨.andb, .immediate, 2, 2⟩),
  (0xC5, ⟨.bitb, .immediate, 2, 2⟩),
  (0xC6, ⟨.ldb, .immediate, 2, 2⟩),
  (0xC8, ⟨.eorb, .immediate, 2, 2⟩),
  (0xC9, ⟨.adcb, .immediate, 2, 2⟩),
  (0xCA, ⟨.orb, .immediate, 2, 2⟩),
  (0xCB, ⟨.addb, .immediate, 2, 2⟩),
  (0xCC, ⟨.ldd, .immediate, 3, 3⟩),
  (0xCE, ⟨.ldu, .immediate, 3, 3⟩),
  (0xD0, ⟨.subb, .direct, 4, 2⟩),
  (0xD1, ⟨.cmpb, .direct, 4, 2⟩),
  (0xD2, ⟨.sbcb, .direct, 4, 2⟩),
  (0xD3, ⟨.addd, .direct, 6, 2⟩),
  (0xD4, ⟨.andb, .direct, 4, 2⟩),
  (0xD5, ⟨.bitb, .direct, 4, 2⟩),
  (0xD6, ⟨.ldb, .direct, 4, 2⟩),
  (0xD7, ⟨.stb, .direct, 4, 2⟩),
  (0xD8, ⟨.eorb, .direct, 4, 2⟩),
  (0xD9, ⟨.adcb, .direct, 4, 2⟩),
  (0xDA, ⟨.orb, .direct, 4, 2⟩),
  (0xDB, ⟨.addb, .direct, 4, 2⟩),
  (0xDC, ⟨.ldd, .direct, 5, 2⟩),
  (0xDD, ⟨.std, .direct, 5, 2⟩),
  (0xDE, ⟨.ldu, .direct, 5, 2⟩),
  (0xDF, ⟨.stu, .direct, 5, 2⟩),
  (0xE0, ⟨.subb, .indexed, 4, 2⟩),
  (0xE1, ⟨.cmpb, .indexed, 4, 2⟩),
  (0xE2, ⟨.sbcb, .indexed, 4, 2⟩),
  (0xE3, ⟨.addd, .indexed, 6, 2⟩),
  (0xE4, ⟨.andb, .indexed, 4, 2⟩),
  (0xE5, ⟨.bitb, .indexed, 4, 2⟩),
  (0xE6, ⟨.ldb, .indexed, 4, 2⟩),
  (0xE7, ⟨.stb, .indexed, 4, 2⟩),
  (0xE8, ⟨.eorb, .indexed, 4, 2⟩),
  (0xE9, ⟨.adcb, .indexed, 4, 2⟩),
  (0xEA, ⟨.orb, .indexed, 4, 2⟩),
  (0xEB, ⟨.addb, .indexed, 4, 2⟩),
  (0xEC, ⟨.ldd, .indexed, 5, 2⟩),
  (0xED, ⟨.std, .indexed, 5, 2⟩),
  (0xEE, ⟨.ldu, .indexed, 5, 2⟩),
  (0xEF, ⟨.stu, .indexed, 5, 2⟩),
  (0xF0, ⟨.subb, .extended, 5, 3⟩),
  (0xF1, ⟨.cmpb, .extended, 5, 3⟩),
  (0xF2, ⟨.sbcb, .extended, 5, 3⟩),
  (0xF3, ⟨.addd, .extended, 7, 3⟩),
  (0xF4, ⟨.andb, .extended, 5, 3⟩),
  (0xF5, ⟨.bitb, .extended, 5, 3⟩),
  (0xF6, ⟨.ldb, .extended, 5, 3⟩),
  (0xF7, ⟨.stb, .extended, 5, 3⟩),
  (0xF8, ⟨.eorb, .extended, 5, 3⟩),
  (0xF9, ⟨.adcb, .extended, 5, 3⟩),
  (0xFA, ⟨.orb, .extended, 5, 3⟩),
  (0xFB, ⟨.addb, .extended, 5, 3⟩),
  (0xFC, ⟨.ldd, .extended, 6, 3⟩),
  (0xFD, ⟨.std, .extended, 6, 3⟩),
  (0xFE, ⟨.ldu, .extended, 6, 3⟩),
  (0xFF, ⟨.stu, .extended, 6, 3⟩)]

/-- Rows of the table after 0x10. -/
def page2Rows : List (Nat × Entry) := [
  (0x21, ⟨.lbrn, .longRelative, 5, 4⟩),
  (0x22, ⟨.lbhi, .longRelative, 5, 4⟩),
  (0x23, ⟨.lbls, .longRelative, 5, 4⟩),
  (0x24, ⟨.lbhs, .longRelative, 5, 4⟩),
  (0x25, ⟨.lblo, .longRelative, 5, 4⟩),
  (0x26, ⟨.lbne, .longRelative, 5, 4⟩),
  (0x27, ⟨.lbeq, .longRelative, 5, 4⟩),
  (0x28, ⟨.lbvc, .longRelative, 5, 4⟩),
  (0x29, ⟨.lbvs, .longRelative, 5, 4⟩),
  (0x2A, ⟨.lbpl, .longRelative, 5, 4⟩),
  (0x2B, ⟨.lbmi, .longRelative, 5, 4⟩),
  (0x2C, ⟨.lbge, .longRelative, 5, 4⟩),
  (0x2D, ⟨.lblt, .longRelative, 5, 4⟩),
  (0x2E, ⟨.lbgt, .longRelative, 5, 4⟩),
  (0x2F, ⟨.lble, .longRelative, 5, 4⟩),
  (0x3F, ⟨.swi2, .inherent, 20, 2⟩),
  (0x83, ⟨.cmpd, .immediate, 5, 4⟩),
  (0x8C, ⟨.cmpy, .immediate, 5, 4⟩),
  (0x8E, ⟨.ldy, .immediate, 4, 4⟩),
  (0x93, ⟨.cmpd, .direct, 7, 3⟩),
  (0x9C, ⟨.cmpy, .direct, 7, 3⟩),
  (0x9E, ⟨.ldy, .direct, 6, 3⟩),
  (0x9F, ⟨.sty, .direct, 6, 3⟩),
  (0xA3, ⟨.cmpd, .indexed, 7, 3⟩),
  (0xAC, ⟨.cmpy, .indexed, 7, 3⟩),
  (0xAE, ⟨.ldy, .indexed, 6, 3⟩),
  (0xAF, ⟨.sty, .indexed, 6, 3⟩),
  (0xB3, ⟨.cmpd, .extended, 8, 4⟩),
  (0xBC, ⟨.cmpy, .extended, 8, 4⟩),
  (0xBE, ⟨.ldy, .extended, 7, 4⟩),
  (0xBF, ⟨.sty, .extended, 7, 4⟩),
  (0xCE, ⟨.lds, .immediate, 4, 4⟩),
  (0xDE, ⟨.lds, .direct, 6, 3⟩),
  (0xDF, ⟨.sts, .direct, 6, 3⟩),
  (0xEE, ⟨.lds, .indexed, 6, 3⟩),
  (0xEF, ⟨.sts, .indexed, 6, 3⟩),
  (0xFE, ⟨.lds, .extended, 7, 4⟩),
  (0xFF, ⟨.sts, .extended, 7, 4⟩)]

/-- Rows of the table after 0x11. -/
def page3Rows : List (Nat × Entry) := [
  (0x3F, ⟨.swi3, .inherent, 20, 2⟩),
  (0x83, ⟨.cmpu, .immediate, 5, 4⟩),
  (0x8C, ⟨.cmps, .immediate, 5, 4⟩),
  (0x93, ⟨.cmpu, .direct, 7, 3⟩),
  (0x9C, ⟨.cmps, .direct, 7, 3⟩),
  (0xA3, ⟨.cmpu, .indexed, 7, 3⟩),
  (0xAC, ⟨.cmps, .indexed, 7, 3⟩),
  (0xB3, ⟨.cmpu, .extended, 8, 4⟩),
  (0xBC, ⟨.cmps, .extended, 8, 4⟩)]

/-- The rows of a table in order of their opcodes. -/
def rows : OpcodePage → List (Nat × Entry)
  | .page1 => page1Rows
  | .page2 => page2Rows
  | .page3 => page3Rows

/-- A table with one place for each byte. -/
def index (rows : List (Nat × Entry)) : Vector (Option Entry) 256 :=
  Vector.ofFn fun opcode => rows.lookup opcode.val

def page1Table : Vector (Option Entry) 256 := index page1Rows

def page2Table : Vector (Option Entry) 256 := index page2Rows

def page3Table : Vector (Option Entry) 256 := index page3Rows

/-- The entry of a defined opcode. -/
def find? (page : OpcodePage) (opcode : UInt8) : Option Entry :=
  let table := match page with
    | .page1 => page1Table
    | .page2 => page2Table
    | .page3 => page3Table
  have h : opcode.toNat < 256 := opcode.toNat_lt
  table[opcode.toNat]

theorem find?_eq_lookup (page : OpcodePage) (opcode : UInt8) :
    find? page opcode = (rows page).lookup opcode.toNat := by
  cases page <;> simp [find?, page1Table, page2Table, page3Table, index, rows]

/-- A printed line of a table: mnemonic, mode, cycles, size, and whether it is defined. -/
structure Line where
  mnemonic : String
  mode : AddressingMode
  cycles : UInt8
  size : UInt8
  defined : Bool
deriving DecidableEq, Repr

/-- The line for any byte. An undefined one is inherent, costs nothing by itself and is as
long as the bytes that select it. -/
def line (page : OpcodePage) (opcode : UInt8) : Line :=
  match find? page opcode with
  | some entry => ⟨entry.mnemonic.text, entry.mode, entry.cycles, entry.size, true⟩
  | none => ⟨"???", .inherent, 0, if page = .page1 then 1 else 2, false⟩

end Opcode

end Mc6809
