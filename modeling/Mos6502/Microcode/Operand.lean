import Mos6502.Microcode.Basic
import Mos6502.Instruction.Mode
import Mos6502.Word

/-!
Microcode of operands: finding the place that an addressing mode names, reading it and writing it.
Pointers of the indirect modes are read as data and can raise faults.
-/

namespace Mos6502

/-- Where an instruction finds its operand. -/
inductive Operand where
  | none
  | accumulator
  | immediate (value : UInt8)
  /-- A memory address; the flag tells whether indexing left the page of the base. -/
  | memory (addr : UInt16) (pageCross : Bool)
  /-- The target of a branch. -/
  | branch (target : UInt16)
deriving DecidableEq, Repr

/-- Whether indexing left the page of the base. -/
def Operand.pageCross : Operand → Bool
  | .memory _ pageCross => pageCross
  | _ => false

namespace Micro

def loadWord (addr : UInt16) : Micro UInt16 := do
  let low ← load addr
  let high ← load (addr + 1)
  return wordOf low high

/-- Reads a pointer in page zero; its high byte wraps within the page. -/
def loadZeroPageWord (pointer : UInt8) : Micro UInt16 := do
  let low ← load (zeroPage pointer)
  let high ← load (zeroPage (pointer + 1))
  return wordOf low high

/-- A memory operand reached by adding an index to a base address. -/
def indexed (base : UInt16) (index : UInt8) : Operand :=
  .memory (base + index.toUInt16) (crossesPage base index)

/-- Finds the operand that a mode names with the operand bytes `value`. -/
def resolve (mode : AddressingMode) (value : UInt16) : Micro Operand :=
  let byte := lowByte value
  match mode with
  | .implied => return .none
  | .accumulator => return .accumulator
  | .immediate => return .immediate byte
  | .zeroPage => return .memory (zeroPage byte) false
  | .zeroPageX => return .memory (zeroPage (byte + (← register .x))) false
  | .zeroPageY => return .memory (zeroPage (byte + (← register .y))) false
  | .absolute => return .memory value false
  | .absoluteX => return indexed value (← register .x)
  | .absoluteY => return indexed value (← register .y)
  | .indirect => return .memory (← loadWord value) false
  | .indexedIndirect => do
    let pointer := byte + (← register .x)
    return .memory (← loadZeroPageWord pointer) false
  | .indirectIndexed => do
    let base ← loadZeroPageWord byte
    return indexed base (← register .y)
  | .relative => return .branch (branchTarget (← pc) byte)

def loadOperand : Operand → Micro UInt8
  | .immediate value => return value
  | .memory addr _ => load addr
  | .accumulator => register .a
  | .none | .branch _ => return 0

def storeOperand (operand : Operand) (value : UInt8) : Micro Unit :=
  match operand with
  | .memory addr _ => store addr value
  | .accumulator => setRegister .a value
  | .none | .immediate _ | .branch _ => return ()

end Micro

end Mos6502
