import Mos6502.CommandLine.Program
import Mos6502.Proofs.Bare.Correspondence
import Mos6502.Proofs.Bare.NextInstruction
import Mos6502.Proofs.Word
import Mos6502.World.Setup

/-!
# The cost of a window

What a window adds to the cycle counter can be told before it: the base cost of the instruction, one cycle more where a
reading instruction leaves the page of its base by indexing, and one or two where a branch is taken. The penalties are
stated here by the pages of the addresses that are involved. The program finds them by carries and on the way: the base
of an indirect mode lies in memory, and all of the sums can wrap around. Where there is an instruction to work off, the
cost is between two and seven cycles.
-/

namespace Mos6502

variable {σ : Type}

/-- Adding an index leads to another page exactly if it carries out of the low byte, also at the end of memory. -/
theorem crossesPage_iff (base : UInt16) (index : UInt8) :
    crossesPage base index = true ↔ highByte (base + index.toUInt16) ≠ highByte base := by
  have below := base.toNat_lt
  have belowToo := index.toNat_lt
  have sum := UInt16.toNat_add base index.toUInt16
  have page (word : UInt16) : (highByte word).toNat = word.toNat / 256 := by
    have small : word.toNat / 256 < 256 := by
      have := word.toNat_lt
      omega
    exact UInt8.toNat_ofNat_of_lt' small
  rw [UInt8.toNat_toUInt16] at sum
  rw [Ne, ← UInt8.toNat_inj, page, page, sum, crossesPage, decide_eq_true_iff]
  omega

/-- The base and the index of the modes that add an index to an address of 16 bits. -/
def AddressingMode.indexing? (mode : AddressingMode) (value : UInt16) (regs : Registers)
    (mem : Memory) : Option (UInt16 × UInt8) :=
  match mode with
  | .absoluteX => some (value, regs.x)
  | .absoluteY => some (value, regs.y)
  | .indirectIndexed => some (mem.pointerAt (lowByte value), regs.y)
  | _ => none

/-- The mnemonics with a penalty for leaving the page of the base. -/
def Mnemonic.penalized : List Mnemonic :=
  [.adc, .and, .cmp, .eor, .lda, .ldx, .ldy, .ora, .sbc]

theorem Mnemonic.paysPageCross_iff (mnemonic : Mnemonic) :
    mnemonic.paysPageCross = true ↔ mnemonic ∈ penalized := by
  cases mnemonic <;> decide

/-- Only the modes that add an index to such a base can leave its page. -/
theorem AddressingMode.pageCross_operand (mode : AddressingMode) (value : UInt16)
    (regs : Registers) (pc : UInt16) (mem : Memory) :
    (mode.operand value { regs with pc } mem).pageCross =
      match mode.indexing? value regs mem with
      | some (base, index) => crossesPage base index
      | none => false := by
  cases mode <;> rfl

namespace Machine

/-- What the next instruction pays for its index. -/
def indexPenalty (m : Machine) : Nat :=
  match m.nextInstruction.mode.indexing? m.nextArgument m.regs m.mem with
  | some (base, index) =>
    if m.nextMnemonic ∈ Mnemonic.penalized ∧ highByte (base + index.toUInt16) ≠ highByte base then 1
    else 0
  | none => 0

/-- The target of the next instruction if that is a branch. -/
def nextTarget (m : Machine) : UInt16 :=
  branchTarget m.afterNext (lowByte m.nextArgument)

/-- What the next instruction pays for branching: nothing if it is no branch or is not taken. -/
def branchPenalty (m : Machine) : Nat :=
  match m.nextMnemonic.branchCondition? with
  | some (flag, value) =>
    if m.regs.status.get flag = value then
      if highByte m.nextTarget = highByte m.afterNext then 1 else 2
    else 0
  | none => 0

/-- What the next window costs. Where there is nothing to work off, it is free. -/
def windowCost (m : Machine) : Nat :=
  if m.limitReached = true ∨ m.atSentinel = true ∨ m.nextMnemonic = .undocumented then 0
  else m.nextInstruction.cycles + m.indexPenalty + m.branchPenalty

section

variable (m : Machine)

theorem indexPenalty_nextOperand :
    m.nextInstruction.indexPenalty m.nextOperand = m.indexPenalty := by
  have paid : m.nextInstruction.mnemonic.paysPageCross = true ↔ m.nextMnemonic ∈ Mnemonic.penalized :=
    m.nextMnemonic.paysPageCross_iff
  unfold Instruction.indexPenalty nextOperand indexPenalty
  rw [AddressingMode.pageCross_operand]
  cases m.nextInstruction.mode.indexing? m.nextArgument m.regs m.mem with
  | none => simp
  | some sum =>
    dsimp only
    simp only [← paid, ← crossesPage_iff, ← Bool.and_eq_true]
    cases m.nextInstruction.mnemonic.paysPageCross && crossesPage sum.1 sum.2 <;> rfl

theorem nextOperand_of_branch (branches : m.nextMnemonic.isBranch = true) :
    m.nextOperand = .branch m.nextTarget := by
  have relative : m.nextInstruction.mode = .relative := Instruction.mode_of_isBranch branches
  unfold nextOperand
  rw [relative]
  rfl

/-- The work of a branch finds the flag and the program counter as the window does. -/
theorem branchPenalty_nextOperand {n : Machine} (regs : n.regs = { m.regs with pc := m.afterNext }) :
    m.nextMnemonic.branchPenalty m.nextOperand n = m.branchPenalty := by
  unfold Mnemonic.branchPenalty branchPenalty
  cases condition : m.nextMnemonic.branchCondition? with
  | none => rfl
  | some looked =>
    have branches := Mnemonic.isBranch_of_branchCondition? condition
    rw [m.nextOperand_of_branch branches, regs]
    simp only [beq_iff_eq]
    rfl

/-- The cost is what the counter gains. -/
theorem cycles_window : m.window.cycles = m.cycles + UInt64.ofNat m.windowCost := by
  unfold windowCost
  cases reached : m.limitReached with
  | true =>
    rw [window_of_limitReached reached, if_pos (.inl rfl)]
    exact (UInt64.add_zero m.cycles).symm
  | false =>
    cases sentinel : m.atSentinel with
    | true =>
      rw [window_of_atSentinel reached sentinel, if_pos (.inr (.inl rfl))]
      exact (UInt64.add_zero m.cycles).symm
    | false =>
      rw [window_of_instruction reached sentinel]
      by_cases undocumented : m.nextMnemonic = .undocumented
      · rw [if_pos (.inr (.inr undocumented)),
          Micro.cycles_exec_instructionAt_of_undocumented m.regs.pc (m := m.enter m.regs.pc) undocumented]
        exact (UInt64.add_zero m.cycles).symm
      · have documented : m.nextInstruction.mnemonic ≠ .undocumented := undocumented
        have regs := (Micro.regs_resolve m.nextInstruction.mode m.nextArgument m.poised).trans
          m.regs_poised
        rw [if_neg (by simp [undocumented]), exec_instructionAt_next,
          Micro.cycles_exec_ofInstruction documented, exec_resolve_poised, cycles_poised,
          indexPenalty_nextOperand]
        exact congrArg
          (fun penalty =>
            m.cycles + UInt64.ofNat (m.nextInstruction.cycles + m.indexPenalty + penalty))
          (m.branchPenalty_nextOperand regs)

theorem cycles_step : m.step.2.cycles = m.cycles + UInt64.ofNat m.windowCost :=
  m.cycles_window

/-- No window costs more than seven cycles. -/
theorem windowCost_le : m.windowCost ≤ 7 := by
  unfold windowCost
  split
  · exact Nat.zero_le 7
  · have index := m.nextInstruction.indexPenalty_le m.nextOperand
    have branch := m.nextMnemonic.branchPenalty_le m.nextOperand (m.startAt m.afterNext)
    rw [indexPenalty_nextOperand] at index
    rw [m.branchPenalty_nextOperand (m.regs_startAt m.afterNext)] at branch
    calc
      _ ≤ _ := Nat.add_le_add (Nat.add_le_add_left index _) branch
      _ ≤ 7 := Instruction.cycles_decode_le (m.mem.raw m.regs.pc)

end

variable {m : Machine}

/-- Working off a documented instruction takes two cycles or more. -/
theorem two_le_windowCost (below : m.limitReached = false) (away : m.atSentinel = false)
    (documented : m.nextMnemonic ≠ .undocumented) : 2 ≤ m.windowCost := by
  have base : 2 ≤ m.nextInstruction.cycles := Instruction.two_le_cycles_decode (m.mem.raw m.regs.pc)
  unfold windowCost
  rw [if_neg (by simp [below, away, documented])]
  omega

end Machine

namespace World

/-- Without hooks a window adds to the cycle counter what its instruction costs: in 64 bits always, and so in numbers
up to the greatest count. -/
theorem cycles_window_eq (host : Host σ) {w : World σ} (free : w.machine.HookFree) :
    (w.window host).machine.cycles = w.machine.cycles + UInt64.ofNat w.machine.windowCost ∧
      (w.machine.cycles.toNat + w.machine.windowCost < bound64 →
        (w.window host).machine.cycles.toNat = w.machine.cycles.toNat + w.machine.windowCost) := by
  rw [window_bare host free, Machine.cycles_window]
  exact ⟨rfl, toNat_add_ofNat⟩

/-- A read through a pointer to the last page, with an index that leads around to page zero. -/
def readAround : World Unit :=
  ((ofSettings { memSize := 32 } {} ()).mapMem fun mem =>
    (mem.declareData 0 [0xB1, 0x10]).declareData 16 [0xF0, 0xFF]).mapRegs ({ · with y := 0x20 })

theorem cycles_readAround :
    readAround.machine.HookFree ∧ readAround.machine.cycles.toNat + 6 < bound64 ∧
      (readAround.window CommandLine.hooklessHost).machine.cycles.toNat =
        readAround.machine.cycles.toNat + 6 := by
  have free : readAround.machine.HookFree := rfl
  have cost : readAround.machine.windowCost = 5 + 1 := by decide +kernel
  have fits : readAround.machine.cycles.toNat + (5 + 1) < bound64 := by decide +kernel
  have grown := (cycles_window_eq CommandLine.hooklessHost free).2
  rw [cost] at grown
  exact ⟨free, fits, grown fits⟩

end World

end Mos6502
