import Mos6502.Proofs.Bare.Stores

/-!
# The instruction that comes next

Which instruction a window works off, and on which operand, can be told before it. Fetching and reading pointers can be
reported, but they change no byte and no register, so the way to the operand is that of the bytes and registers with
which the window begins.
-/

namespace Mos6502

namespace Memory

/-- The word at an address, low byte first. -/
def wordAt (mem : Memory) (addr : UInt16) : UInt16 :=
  wordOf (mem.raw addr) (mem.raw (addr + 1))

/-- The pointer at a place in page zero; its high byte wraps within the page. -/
def pointerAt (mem : Memory) (place : UInt8) : UInt16 :=
  wordOf (mem.raw (zeroPage place)) (mem.raw (zeroPage (place + 1)))

end Memory

namespace AddressingMode

/-- The addresses of the pointer that a mode reads on the way to its operand. -/
def pointers (mode : AddressingMode) (value : UInt16) (regs : Registers) : List UInt16 :=
  match mode with
  | .indirect => [value, value + 1]
  | .indexedIndirect =>
    [Mos6502.zeroPage (lowByte value + regs.x), Mos6502.zeroPage (lowByte value + regs.x + 1)]
  | .indirectIndexed => [Mos6502.zeroPage (lowByte value), Mos6502.zeroPage (lowByte value + 1)]
  | _ => []

/-- The operand that a mode names by bytes and registers as they are. -/
def operand (mode : AddressingMode) (value : UInt16) (regs : Registers) (mem : Memory) : Operand :=
  match mode with
  | .implied => .none
  | .accumulator => .accumulator
  | .immediate => .immediate (lowByte value)
  | .zeroPage => .memory (Mos6502.zeroPage (lowByte value)) false
  | .zeroPageX => .memory (Mos6502.zeroPage (lowByte value + regs.x)) false
  | .zeroPageY => .memory (Mos6502.zeroPage (lowByte value + regs.y)) false
  | .absolute => .memory value false
  | .absoluteX => Micro.indexed value regs.x
  | .absoluteY => Micro.indexed value regs.y
  | .indirect => .memory (mem.wordAt value) false
  | .indexedIndirect => .memory (mem.pointerAt (lowByte value + regs.x)) false
  | .indirectIndexed => Micro.indexed (mem.pointerAt (lowByte value)) regs.y
  | .relative => .branch (branchTarget regs.pc (lowByte value))

theorem operand_congr {mem other : Memory} (same : ∀ addr, other.raw addr = mem.raw addr)
    (mode : AddressingMode) (value : UInt16) (regs : Registers) :
    mode.operand value regs other = mode.operand value regs mem := by
  cases mode <;> simp [operand, Memory.wordAt, Memory.pointerAt, same]

end AddressingMode

theorem Micro.exec_resolve_fst (mode : AddressingMode) (value : UInt16) (m : Machine) :
    ((resolve mode value).exec m).1 = mode.operand value m.regs m.mem := by
  cases mode <;>
    simp [resolve, loadWord, loadZeroPageWord, AddressingMode.operand, Memory.wordAt,
      Memory.pointerAt, Machine.raw_noteRead, Machine.regs_noteRead, Registers.get]

namespace Machine

@[simp]
theorem mem_enter (pc : UInt16) (m : Machine) : (m.enter pc).mem = m.mem := rfl

@[simp]
theorem regs_startAt (addr : UInt16) (m : Machine) :
    (m.startAt addr).regs = { m.regs with pc := addr } := rfl

@[simp]
theorem mem_startAt (addr : UInt16) (m : Machine) : (m.startAt addr).mem = m.mem := rfl

theorem regs_noteFetched (addresses : List UInt16) (m : Machine) :
    (m.noteFetched addresses).regs = m.regs := by
  induction addresses generalizing m with
  | nil => rfl
  | cons addr rest inductionHypothesis =>
    exact (inductionHypothesis _).trans (m.regs_noteRead _ _ addr)

theorem raw_noteFetched (addresses : List UInt16) (m : Machine) (other : UInt16) :
    (m.noteFetched addresses).mem.raw other = m.mem.raw other := by
  induction addresses generalizing m with
  | nil => rfl
  | cons addr rest inductionHypothesis =>
    exact (inductionHypothesis _).trans (m.raw_noteRead _ _ addr other)

theorem cycles_noteFetched (addresses : List UInt16) (m : Machine) :
    (m.noteFetched addresses).cycles = m.cycles := by
  induction addresses generalizing m with
  | nil => rfl
  | cons addr rest inductionHypothesis =>
    have here : (m.noteRead .executeUndefined .executeUninitialized addr).cycles = m.cycles := by
      unfold noteRead
      split
      · rfl
      · split <;> rfl
    exact (inductionHypothesis _).trans here

theorem fixture_noteFetched (addresses : List UInt16) (m : Machine) :
    (m.noteFetched addresses).fixture = m.fixture := by
  induction addresses generalizing m with
  | nil => rfl
  | cons addr rest inductionHypothesis =>
    exact (inductionHypothesis _).trans (m.change_noteRead _ _ addr).fixture

/-- The instruction at the program counter. -/
def nextInstruction (m : Machine) : Instruction :=
  Instruction.decode (m.mem.raw m.regs.pc)

/-- The value of its operand bytes. -/
def nextArgument (m : Machine) : UInt16 :=
  m.mem.operandAt m.regs.pc m.nextInstruction

/-- The address behind it. -/
def afterNext (m : Machine) : UInt16 :=
  m.regs.pc + UInt16.ofNat m.nextInstruction.length

/-- What it works on. -/
def nextOperand (m : Machine) : Operand :=
  m.nextInstruction.mode.operand m.nextArgument { m.regs with pc := m.afterNext } m.mem

/-- The addresses of its bytes. -/
def fetchedCells (m : Machine) : List UInt16 :=
  m.nextInstruction.addresses m.regs.pc

/-- The machine when it is fetched. -/
def fetched (m : Machine) : Machine :=
  (m.enter m.regs.pc).noteFetched m.fetchedCells

/-- The machine in which its work begins. -/
def poised (m : Machine) : Machine :=
  m.fetched.startAt m.afterNext

section

variable (m : Machine)

theorem regs_poised : m.poised.regs = { m.regs with pc := m.afterNext } := by
  rw [poised, regs_startAt, fetched, regs_noteFetched]
  rfl

theorem raw_poised (addr : UInt16) : m.poised.mem.raw addr = m.mem.raw addr := by
  rw [poised, mem_startAt, fetched, raw_noteFetched]
  rfl

theorem cycles_poised : m.poised.cycles = m.cycles := by
  rw [poised, cycles_startAt, fetched, cycles_noteFetched]
  rfl

theorem exec_fetch_next :
    (Micro.fetchInstruction m.regs.pc).exec (m.enter m.regs.pc) =
      ((m.nextInstruction, m.nextArgument), m.fetched) := by
  have described : Instruction.decode ((m.enter m.regs.pc).mem.raw m.regs.pc) = m.nextInstruction :=
    rfl
  rw [Micro.exec_fetchInstruction described]
  rfl

/-- Fetching has no part in what the operand is. -/
theorem operand_poised :
    m.nextInstruction.mode.operand m.nextArgument m.poised.regs m.poised.mem = m.nextOperand := by
  rw [regs_poised]
  exact AddressingMode.operand_congr m.raw_poised _ _ _

theorem exec_resolve_poised :
    ((Micro.resolve m.nextInstruction.mode m.nextArgument).exec m.poised).1 = m.nextOperand := by
  rw [Micro.exec_resolve_fst, operand_poised]

theorem exec_instructionAt_next :
    (Micro.instructionAt m.regs.pc).exec (m.enter m.regs.pc) =
      (Micro.ofInstruction m.nextInstruction m.nextArgument).exec m.poised := by
  rw [Micro.exec_instructionAt, exec_fetch_next, poised, afterNext]

end

/-- A window that does not end at once works off the instruction at the program counter. -/
theorem window_of_going {m : Machine} (below : m.limitReached = false)
    (away : m.atSentinel = false) :
    m.window = ((Micro.ofInstruction m.nextInstruction m.nextArgument).exec m.poised).2 := by
  rw [window_of_instruction below away, m.exec_instructionAt_next]

end Machine

end Mos6502
