import Mos6502.Microcode.Basic
import Mos6502.Word

/-!
Microcode of the stack, which lives in page one and grows downwards. The pointer names the cell that the
next push writes. A pushed word lies with its low byte below its high byte.
-/

namespace Mos6502.Micro

/-- The address that a stack pointer stands for. -/
def stackAddress (pointer : UInt8) : UInt16 :=
  0x0100 + pointer.toUInt16

def push (value : UInt8) : Micro Unit := do
  store (stackAddress (← register .sp)) value
  setRegister .sp ((← register .sp) - 1)

def pull : Micro UInt8 := do
  setRegister .sp ((← register .sp) + 1)
  load (stackAddress (← register .sp))

/-- Pushes a word, high byte first. -/
def pushWord (word : UInt16) : Micro Unit := do
  push (highByte word)
  push (lowByte word)

/-- Pulls a word, low byte first. -/
def pullWord : Micro UInt16 := do
  let low ← pull
  let high ← pull
  return wordOf low high

/-- Continues behind the address on the stack, as at the end of a subroutine. -/
def returnFromSubroutine : Micro Unit := do
  setPc ((← pullWord) + 1)

end Mos6502.Micro
