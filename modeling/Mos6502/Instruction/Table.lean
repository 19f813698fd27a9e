import Mos6502.Instruction.Mnemonic
import Mos6502.Instruction.Mode

/-!
The instruction table: mnemonic, addressing mode and base cycle cost of each documented opcode, and the
decoding of a byte as look-up in it.
-/

namespace Mos6502

/-- Description of one opcode; `cycles` is the cost before page-crossing and branch penalties. -/
structure Instruction where
  mnemonic : Mnemonic
  mode : AddressingMode
  cycles : Nat
deriving DecidableEq, Repr

namespace Instruction

/-- The description of every encoding outside the documented set. -/
def undocumented : Instruction :=
  ⟨.undocumented, .implied, 2⟩

/-- Length in bytes, opcode included. -/
def length (instruction : Instruction) : Nat :=
  instruction.mode.length

/-- Whether the encoding is documented. -/
def isDocumented (instruction : Instruction) : Bool :=
  instruction.mnemonic != .undocumented

/-- The documented opcodes. -/
def documented : List (UInt8 × Instruction) :=
  [(0xA9, ⟨.lda, .immediate, 2⟩), (0xA5, ⟨.lda, .zeroPage, 3⟩), (0xB5, ⟨.lda, .zeroPageX, 4⟩),
    (0xAD, ⟨.lda, .absolute, 4⟩), (0xBD, ⟨.lda, .absoluteX, 4⟩), (0xB9, ⟨.lda, .absoluteY, 4⟩),
    (0xA1, ⟨.lda, .indexedIndirect, 6⟩), (0xB1, ⟨.lda, .indirectIndexed, 5⟩),
    (0xA2, ⟨.ldx, .immediate, 2⟩), (0xA6, ⟨.ldx, .zeroPage, 3⟩), (0xB6, ⟨.ldx, .zeroPageY, 4⟩),
    (0xAE, ⟨.ldx, .absolute, 4⟩), (0xBE, ⟨.ldx, .absoluteY, 4⟩),
    (0xA0, ⟨.ldy, .immediate, 2⟩), (0xA4, ⟨.ldy, .zeroPage, 3⟩), (0xB4, ⟨.ldy, .zeroPageX, 4⟩),
    (0xAC, ⟨.ldy, .absolute, 4⟩), (0xBC, ⟨.ldy, .absoluteX, 4⟩),
    (0x85, ⟨.sta, .zeroPage, 3⟩), (0x95, ⟨.sta, .zeroPageX, 4⟩), (0x8D, ⟨.sta, .absolute, 4⟩),
    (0x9D, ⟨.sta, .absoluteX, 5⟩), (0x99, ⟨.sta, .absoluteY, 5⟩),
    (0x81, ⟨.sta, .indexedIndirect, 6⟩), (0x91, ⟨.sta, .indirectIndexed, 6⟩),
    (0x86, ⟨.stx, .zeroPage, 3⟩), (0x96, ⟨.stx, .zeroPageY, 4⟩), (0x8E, ⟨.stx, .absolute, 4⟩),
    (0x84, ⟨.sty, .zeroPage, 3⟩), (0x94, ⟨.sty, .zeroPageX, 4⟩), (0x8C, ⟨.sty, .absolute, 4⟩),
    (0x69, ⟨.adc, .immediate, 2⟩), (0x65, ⟨.adc, .zeroPage, 3⟩), (0x75, ⟨.adc, .zeroPageX, 4⟩),
    (0x6D, ⟨.adc, .absolute, 4⟩), (0x7D, ⟨.adc, .absoluteX, 4⟩), (0x79, ⟨.adc, .absoluteY, 4⟩),
    (0x61, ⟨.adc, .indexedIndirect, 6⟩), (0x71, ⟨.adc, .indirectIndexed, 5⟩),
    (0xE9, ⟨.sbc, .immediate, 2⟩), (0xE5, ⟨.sbc, .zeroPage, 3⟩), (0xF5, ⟨.sbc, .zeroPageX, 4⟩),
    (0xED, ⟨.sbc, .absolute, 4⟩), (0xFD, ⟨.sbc, .absoluteX, 4⟩), (0xF9, ⟨.sbc, .absoluteY, 4⟩),
    (0xE1, ⟨.sbc, .indexedIndirect, 6⟩), (0xF1, ⟨.sbc, .indirectIndexed, 5⟩),
    (0x29, ⟨.and, .immediate, 2⟩), (0x25, ⟨.and, .zeroPage, 3⟩), (0x35, ⟨.and, .zeroPageX, 4⟩),
    (0x2D, ⟨.and, .absolute, 4⟩), (0x3D, ⟨.and, .absoluteX, 4⟩), (0x39, ⟨.and, .absoluteY, 4⟩),
    (0x21, ⟨.and, .indexedIndirect, 6⟩), (0x31, ⟨.and, .indirectIndexed, 5⟩),
    (0x09, ⟨.ora, .immediate, 2⟩), (0x05, ⟨.ora, .zeroPage, 3⟩), (0x15, ⟨.ora, .zeroPageX, 4⟩),
    (0x0D, ⟨.ora, .absolute, 4⟩), (0x1D, ⟨.ora, .absoluteX, 4⟩), (0x19, ⟨.ora, .absoluteY, 4⟩),
    (0x01, ⟨.ora, .indexedIndirect, 6⟩), (0x11, ⟨.ora, .indirectIndexed, 5⟩),
    (0x49, ⟨.eor, .immediate, 2⟩), (0x45, ⟨.eor, .zeroPage, 3⟩), (0x55, ⟨.eor, .zeroPageX, 4⟩),
    (0x4D, ⟨.eor, .absolute, 4⟩), (0x5D, ⟨.eor, .absoluteX, 4⟩), (0x59, ⟨.eor, .absoluteY, 4⟩),
    (0x41, ⟨.eor, .indexedIndirect, 6⟩), (0x51, ⟨.eor, .indirectIndexed, 5⟩),
    (0x24, ⟨.bit, .zeroPage, 3⟩), (0x2C, ⟨.bit, .absolute, 4⟩),
    (0xC9, ⟨.cmp, .immediate, 2⟩), (0xC5, ⟨.cmp, .zeroPage, 3⟩), (0xD5, ⟨.cmp, .zeroPageX, 4⟩),
    (0xCD, ⟨.cmp, .absolute, 4⟩), (0xDD, ⟨.cmp, .absoluteX, 4⟩), (0xD9, ⟨.cmp, .absoluteY, 4⟩),
    (0xC1, ⟨.cmp, .indexedIndirect, 6⟩), (0xD1, ⟨.cmp, .indirectIndexed, 5⟩),
    (0xE0, ⟨.cpx, .immediate, 2⟩), (0xE4, ⟨.cpx, .zeroPage, 3⟩), (0xEC, ⟨.cpx, .absolute, 4⟩),
    (0xC0, ⟨.cpy, .immediate, 2⟩), (0xC4, ⟨.cpy, .zeroPage, 3⟩), (0xCC, ⟨.cpy, .absolute, 4⟩),
    (0x0A, ⟨.asl, .accumulator, 2⟩), (0x06, ⟨.asl, .zeroPage, 5⟩), (0x16, ⟨.asl, .zeroPageX, 6⟩),
    (0x0E, ⟨.asl, .absolute, 6⟩), (0x1E, ⟨.asl, .absoluteX, 7⟩),
    (0x4A, ⟨.lsr, .accumulator, 2⟩), (0x46, ⟨.lsr, .zeroPage, 5⟩), (0x56, ⟨.lsr, .zeroPageX, 6⟩),
    (0x4E, ⟨.lsr, .absolute, 6⟩), (0x5E, ⟨.lsr, .absoluteX, 7⟩),
    (0x2A, ⟨.rol, .accumulator, 2⟩), (0x26, ⟨.rol, .zeroPage, 5⟩), (0x36, ⟨.rol, .zeroPageX, 6⟩),
    (0x2E, ⟨.rol, .absolute, 6⟩), (0x3E, ⟨.rol, .absoluteX, 7⟩),
    (0x6A, ⟨.ror, .accumulator, 2⟩), (0x66, ⟨.ror, .zeroPage, 5⟩), (0x76, ⟨.ror, .zeroPageX, 6⟩),
    (0x6E, ⟨.ror, .absolute, 6⟩), (0x7E, ⟨.ror, .absoluteX, 7⟩),
    (0xE6, ⟨.inc, .zeroPage, 5⟩), (0xF6, ⟨.inc, .zeroPageX, 6⟩), (0xEE, ⟨.inc, .absolute, 6⟩),
    (0xFE, ⟨.inc, .absoluteX, 7⟩),
    (0xC6, ⟨.dec, .zeroPage, 5⟩), (0xD6, ⟨.dec, .zeroPageX, 6⟩), (0xCE, ⟨.dec, .absolute, 6⟩),
    (0xDE, ⟨.dec, .absoluteX, 7⟩),
    (0xE8, ⟨.inx, .implied, 2⟩),
    (0xC8, ⟨.iny, .implied, 2⟩),
    (0xCA, ⟨.dex, .implied, 2⟩),
    (0x88, ⟨.dey, .implied, 2⟩),
    (0xAA, ⟨.tax, .implied, 2⟩),
    (0xA8, ⟨.tay, .implied, 2⟩),
    (0x8A, ⟨.txa, .implied, 2⟩),
    (0x98, ⟨.tya, .implied, 2⟩),
    (0xBA, ⟨.tsx, .implied, 2⟩),
    (0x9A, ⟨.txs, .implied, 2⟩),
    (0x48, ⟨.pha, .implied, 3⟩),
    (0x08, ⟨.php, .implied, 3⟩),
    (0x68, ⟨.pla, .implied, 4⟩),
    (0x28, ⟨.plp, .implied, 4⟩),
    (0x4C, ⟨.jmp, .absolute, 3⟩), (0x6C, ⟨.jmp, .indirect, 5⟩),
    (0x20, ⟨.jsr, .absolute, 6⟩),
    (0x60, ⟨.rts, .implied, 6⟩),
    (0x40, ⟨.rti, .implied, 6⟩),
    (0x00, ⟨.brk, .implied, 7⟩),
    (0x90, ⟨.bcc, .relative, 2⟩),
    (0xB0, ⟨.bcs, .relative, 2⟩),
    (0xF0, ⟨.beq, .relative, 2⟩),
    (0xD0, ⟨.bne, .relative, 2⟩),
    (0x30, ⟨.bmi, .relative, 2⟩),
    (0x10, ⟨.bpl, .relative, 2⟩),
    (0x50, ⟨.bvc, .relative, 2⟩),
    (0x70, ⟨.bvs, .relative, 2⟩),
    (0x18, ⟨.clc, .implied, 2⟩),
    (0x38, ⟨.sec, .implied, 2⟩),
    (0x58, ⟨.cli, .implied, 2⟩),
    (0x78, ⟨.sei, .implied, 2⟩),
    (0xD8, ⟨.cld, .implied, 2⟩),
    (0xF8, ⟨.sed, .implied, 2⟩),
    (0xB8, ⟨.clv, .implied, 2⟩),
    (0xEA, ⟨.nop, .implied, 2⟩)]

/-- The descriptions of all opcodes in numerical order. -/
def table : Array Instruction :=
  ((List.range 256).map fun opcode =>
    (documented.lookup (UInt8.ofNat opcode)).getD undocumented).toArray

/-- The description of an opcode. -/
def decode (opcode : UInt8) : Instruction :=
  table.getD opcode.toNat undocumented

end Instruction

end Mos6502
