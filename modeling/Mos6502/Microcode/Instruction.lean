import Mos6502.Microcode.Operand
import Mos6502.Microcode.Stack
import Mos6502.Instruction.Table
import Mos6502.Alu

/-!
Microcode of the instructions: fetching, the work of each mnemonic on its operand, and the cycles charged
for it. The order of the micro-operations is the order in which faults of one instruction compete.
-/

namespace Mos6502.Micro

/-- Sets zero and negative after a result. -/
def setZeroNegative (result : UInt8) : Micro Unit := do
  setFlag .zero (result == 0)
  setFlag .negative (Alu.isNegative result)

/-- Writes a register and sets zero and negative. -/
def setResult (target : Register) (value : UInt8) : Micro Unit := do
  setRegister target value
  setZeroNegative value

/-- LDA, LDX, LDY. -/
def loadInto (target : Register) (operand : Operand) : Micro Unit := do
  setResult target (← loadOperand operand)

/-- STA, STX, STY. -/
def storeFrom (source : Register) (operand : Operand) : Micro Unit := do
  storeOperand operand (← register source)

/-- AND, ORA, EOR; the accumulator is read before the operand. -/
def combine (f : UInt8 → UInt8 → UInt8) (operand : Operand) : Micro Unit := do
  let a ← register .a
  setResult .a (f a (← loadOperand operand))

/-- Sets carry, zero and negative. -/
def setComparison (result : Alu.Result) : Micro Unit := do
  setFlag .carry result.carry
  setFlag .zero result.zero
  setFlag .negative result.negative

/-- ADC, SBC, with one function for binary and one for decimal mode. -/
def arithmetic (binary decimal : UInt8 → UInt8 → Bool → Alu.Result) (operand : Operand) :
    Micro Unit := do
  let m ← loadOperand operand
  let carry ← flag .carry
  let decimalMode ← flag .decimal
  let a ← register .a
  let result := if decimalMode then decimal a m carry else binary a m carry
  setRegister .a result.value
  setComparison result
  setFlag .overflow result.overflow
  observe (.overflow result.overflow)

/-- CMP, CPX, CPY; the register is read before the operand. -/
def compareWith (source : Register) (operand : Operand) : Micro Unit := do
  let value ← register source
  setComparison (Alu.compare value (← loadOperand operand))

/-- BIT. A never-written cell without read hook is not read; its bits become unknown flags. -/
def testBits (operand : Operand) : Micro Unit :=
  match operand with
  | .memory addr _ => do
    if ← isBlank addr then
      forget { negative := true, overflow := true, zero := true }
    else
      let m ← load addr
      setFlag .negative (Alu.isNegative m)
      setFlag .overflow (m.toNat.testBit 6)
      setFlag .zero ((← register .a) &&& m == 0)
  | _ => return ()

/-- Reads an operand, computes a new value, and writes it back. -/
def modify (operand : Operand) (compute : UInt8 → Micro UInt8) : Micro Unit := do
  let value ← loadOperand operand
  storeOperand operand (← compute value)

/-- Sets carry, zero and negative after a shift and gives its value. -/
def setShift (shifted : UInt8 × Bool) : Micro UInt8 := do
  setFlag .carry shifted.2
  setZeroNegative shifted.1
  return shifted.1

/-- ASL, LSR. -/
def shift (f : UInt8 → UInt8 × Bool) (operand : Operand) : Micro Unit :=
  modify operand fun value => setShift (f value)

/-- ROL, ROR. -/
def rotate (f : UInt8 → Bool → UInt8 × Bool) (operand : Operand) : Micro Unit :=
  modify operand fun value => do setShift (f value (← flag .carry))

/-- INC, DEC. -/
def stepOperand (f : UInt8 → UInt8) (operand : Operand) : Micro Unit :=
  modify operand fun value => do
    setZeroNegative (f value)
    return f value

/-- INX, INY, DEX, DEY. -/
def stepRegister (target : Register) (f : UInt8 → UInt8) : Micro Unit := do
  setResult target (f (← register target))

/-- TAX, TAY, TXA, TYA, TSX. -/
def transfer (source target : Register) : Micro Unit := do
  setResult target (← register source)

/-- PLA. -/
def pullAccumulator : Micro Unit := do
  setResult .a (← pull)

/-- PHP: the stored status with the bits that always read as set. -/
def pushStatus : Micro Unit := do
  push ((← status).union Flags.alwaysSet).toByte

/-- JMP. -/
def jump : Operand → Micro Unit
  | .memory addr _ => setPc addr
  | _ => return ()

/-- JSR: the pushed word is the address of the last byte of the instruction. -/
def jumpToSubroutine : Operand → Micro Unit
  | .memory addr _ => do
    pushWord ((← pc) - 1)
    setPc addr
  | _ => return ()

/-- RTI. -/
def returnFromInterrupt : Micro Unit := do
  setStatus (← pull)
  setPc (← pullWord)

/-- Takes a branch, or not. A taken branch costs one cycle, and one more if it leaves the page. -/
def takeBranch (operand : Operand) (taken : Bool) : Micro Unit :=
  match operand with
  | .branch target => do
    observe (.branch taken)
    if taken then
      charge 1
      if highByte target != highByte (← pc) then
        charge 1
        observe .branchCross
      setPc target
  | _ => return ()

/-- The branches: taken if a flag has a value. -/
def branchIf (condition : Flag) (value : Bool) (operand : Operand) : Micro Unit := do
  takeBranch operand ((← flag condition) == value)

/-- The work of a mnemonic on its operand. -/
def ofMnemonic (mnemonic : Mnemonic) (operand : Operand) : Micro Unit :=
  match mnemonic with
  | .lda => loadInto .a operand
  | .ldx => loadInto .x operand
  | .ldy => loadInto .y operand
  | .sta => storeFrom .a operand
  | .stx => storeFrom .x operand
  | .sty => storeFrom .y operand
  | .adc => arithmetic Alu.addBinary Alu.addDecimal operand
  | .sbc => arithmetic Alu.subtractBinary Alu.subtractDecimal operand
  | .and => combine (· &&& ·) operand
  | .ora => combine (· ||| ·) operand
  | .eor => combine (· ^^^ ·) operand
  | .bit => testBits operand
  | .cmp => compareWith .a operand
  | .cpx => compareWith .x operand
  | .cpy => compareWith .y operand
  | .asl => shift Alu.shiftLeft operand
  | .lsr => shift Alu.shiftRight operand
  | .rol => rotate Alu.rotateLeft operand
  | .ror => rotate Alu.rotateRight operand
  | .inc => stepOperand (· + 1) operand
  | .dec => stepOperand (· - 1) operand
  | .inx => stepRegister .x (· + 1)
  | .iny => stepRegister .y (· + 1)
  | .dex => stepRegister .x (· - 1)
  | .dey => stepRegister .y (· - 1)
  | .tax => transfer .a .x
  | .tay => transfer .a .y
  | .txa => transfer .x .a
  | .tya => transfer .y .a
  | .tsx => transfer .sp .x
  | .txs => do setRegister .sp (← register .x)
  | .pha => do push (← register .a)
  | .php => pushStatus
  | .pla => pullAccumulator
  | .plp => do setStatus (← pull)
  | .jmp => jump operand
  | .jsr => jumpToSubroutine operand
  | .rts => returnFromSubroutine
  | .rti => returnFromInterrupt
  | .brk => raise .brk
  | .bcc => branchIf .carry false operand
  | .bcs => branchIf .carry true operand
  | .bne => branchIf .zero false operand
  | .beq => branchIf .zero true operand
  | .bpl => branchIf .negative false operand
  | .bmi => branchIf .negative true operand
  | .bvc => branchIf .overflow false operand
  | .bvs => branchIf .overflow true operand
  | .clc => setFlag .carry false
  | .sec => setFlag .carry true
  | .cli => setFlag .interruptDisable false
  | .sei => setFlag .interruptDisable true
  | .cld => setFlag .decimal false
  | .sed => setFlag .decimal true
  | .clv => setFlag .overflow false
  | .nop | .undocumented => return ()

/-- Reads the instruction at an address: its description and the value of its operand bytes. -/
def fetchInstruction (addr : UInt16) : Micro (Instruction × UInt16) := do
  let instruction := Instruction.decode (← fetch addr)
  let low ← if 1 < instruction.length then fetch (addr + 1) else pure 0
  let high ← if 2 < instruction.length then fetch (addr + 2) else pure 0
  return (instruction, wordOf low high)

/-- An undocumented encoding: execution stays at it. -/
def reject : Micro Unit := do
  setPc (← here)
  raise .illegal

/-- The work of a fetched instruction: finding the operand, charging the cycles, and the mnemonic. -/
def ofInstruction (instruction : Instruction) (value : UInt16) : Micro Unit :=
  if instruction.mnemonic = .undocumented then reject
  else do
    let operand ← resolve instruction.mode value
    charge instruction.cycles
    if instruction.mnemonic.paysPageCross && operand.pageCross then
      charge 1
      observe .indexCross
    ofMnemonic instruction.mnemonic operand

end Mos6502.Micro
