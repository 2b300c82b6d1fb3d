/-
  The names of the instructions as the opcode tables print them. The two prefix bytes of
  the first table have names of their own, since they have entries there.
-/

namespace Mc6809

/-- An instruction name. Register operands are part of it. -/
inductive Mnemonic where
  | neg | com | lsr | ror | asr | lsl | rol | dec | inc | tst | jmp | clr | page2 | page3
  | nop | sync | lbra | lbsr | daa | orcc | andcc | sex | exg | tfr | bra | brn | bhi | bls
  | bhs | blo | bne | beq | bvc | bvs | bpl | bmi | bge | blt | bgt | ble | leax | leay
  | leas | leau | pshs | puls | pshu | pulu | rts | abx | rti | cwai | mul | swi | nega
  | coma | lsra | rora | asra | lsla | rola | deca | inca | tsta | clra | negb | comb | lsrb
  | rorb | asrb | lslb | rolb | decb | incb | tstb | clrb | suba | cmpa | sbca | subd | anda
  | bita | lda | eora | adca | ora | adda | cmpx | bsr | ldx | sta | jsr | stx | subb | cmpb
  | sbcb | addd | andb | bitb | ldb | eorb | adcb | orb | addb | ldd | ldu | stb | std | stu
  | lbrn | lbhi | lbls | lbhs | lblo | lbne | lbeq | lbvc | lbvs | lbpl | lbmi | lbge | lblt
  | lbgt | lble | swi2 | cmpd | cmpy | ldy | sty | lds | sts | swi3 | cmpu | cmps
deriving DecidableEq, Repr

/-- The printed name, in capitals. -/
def Mnemonic.text : Mnemonic → String
  | .neg => "NEG"
  | .com => "COM"
  | .lsr => "LSR"
  | .ror => "ROR"
  | .asr => "ASR"
  | .lsl => "LSL"
  | .rol => "ROL"
  | .dec => "DEC"
  | .inc => "INC"
  | .tst => "TST"
  | .jmp => "JMP"
  | .clr => "CLR"
  | .page2 => "PAGE2"
  | .page3 => "PAGE3"
  | .nop => "NOP"
  | .sync => "SYNC"
  | .lbra => "LBRA"
  | .lbsr => "LBSR"
  | .daa => "DAA"
  | .orcc => "ORCC"
  | .andcc => "ANDCC"
  | .sex => "SEX"
  | .exg => "EXG"
  | .tfr => "TFR"
  | .bra => "BRA"
  | .brn => "BRN"
  | .bhi => "BHI"
  | .bls => "BLS"
  | .bhs => "BHS"
  | .blo => "BLO"
  | .bne => "BNE"
  | .beq => "BEQ"
  | .bvc => "BVC"
  | .bvs => "BVS"
  | .bpl => "BPL"
  | .bmi => "BMI"
  | .bge => "BGE"
  | .blt => "BLT"
  | .bgt => "BGT"
  | .ble => "BLE"
  | .leax => "LEAX"
  | .leay => "LEAY"
  | .leas => "LEAS"
  | .leau => "LEAU"
  | .pshs => "PSHS"
  | .puls => "PULS"
  | .pshu => "PSHU"
  | .pulu => "PULU"
  | .rts => "RTS"
  | .abx => "ABX"
  | .rti => "RTI"
  | .cwai => "CWAI"
  | .mul => "MUL"
  | .swi => "SWI"
  | .nega => "NEGA"
  | .coma => "COMA"
  | .lsra => "LSRA"
  | .rora => "RORA"
  | .asra => "ASRA"
  | .lsla => "LSLA"
  | .rola => "ROLA"
  | .deca => "DECA"
  | .inca => "INCA"
  | .tsta => "TSTA"
  | .clra => "CLRA"
  | .negb => "NEGB"
  | .comb => "COMB"
  | .lsrb => "LSRB"
  | .rorb => "RORB"
  | .asrb => "ASRB"
  | .lslb => "LSLB"
  | .rolb => "ROLB"
  | .decb => "DECB"
  | .incb => "INCB"
  | .tstb => "TSTB"
  | .clrb => "CLRB"
  | .suba => "SUBA"
  | .cmpa => "CMPA"
  | .sbca => "SBCA"
  | .subd => "SUBD"
  | .anda => "ANDA"
  | .bita => "BITA"
  | .lda => "LDA"
  | .eora => "EORA"
  | .adca => "ADCA"
  | .ora => "ORA"
  | .adda => "ADDA"
  | .cmpx => "CMPX"
  | .bsr => "BSR"
  | .ldx => "LDX"
  | .sta => "STA"
  | .jsr => "JSR"
  | .stx => "STX"
  | .subb => "SUBB"
  | .cmpb => "CMPB"
  | .sbcb => "SBCB"
  | .addd => "ADDD"
  | .andb => "ANDB"
  | .bitb => "BITB"
  | .ldb => "LDB"
  | .eorb => "EORB"
  | .adcb => "ADCB"
  | .orb => "ORB"
  | .addb => "ADDB"
  | .ldd => "LDD"
  | .ldu => "LDU"
  | .stb => "STB"
  | .std => "STD"
  | .stu => "STU"
  | .lbrn => "LBRN"
  | .lbhi => "LBHI"
  | .lbls => "LBLS"
  | .lbhs => "LBHS"
  | .lblo => "LBLO"
  | .lbne => "LBNE"
  | .lbeq => "LBEQ"
  | .lbvc => "LBVC"
  | .lbvs => "LBVS"
  | .lbpl => "LBPL"
  | .lbmi => "LBMI"
  | .lbge => "LBGE"
  | .lblt => "LBLT"
  | .lbgt => "LBGT"
  | .lble => "LBLE"
  | .swi2 => "SWI2"
  | .cmpd => "CMPD"
  | .cmpy => "CMPY"
  | .ldy => "LDY"
  | .sty => "STY"
  | .lds => "LDS"
  | .sts => "STS"
  | .swi3 => "SWI3"
  | .cmpu => "CMPU"
  | .cmps => "CMPS"

end Mc6809
