/-!
The thirteen addressing modes and the length of an instruction in each.
-/

namespace Mos6502

/-- How an instruction names its operand. -/
inductive AddressingMode where
  | implied
  | accumulator
  | immediate
  | zeroPage
  | zeroPageX
  | zeroPageY
  | relative
  | absolute
  | absoluteX
  | absoluteY
  | indirect
  | indexedIndirect
  | indirectIndexed
deriving DecidableEq, Repr

/-- Length of an instruction in bytes, opcode included. -/
def AddressingMode.length : AddressingMode → Nat
  | .implied | .accumulator => 1
  | .immediate | .zeroPage | .zeroPageX | .zeroPageY | .relative | .indexedIndirect
  | .indirectIndexed => 2
  | .absolute | .absoluteX | .absoluteY | .indirect => 3

end Mos6502
