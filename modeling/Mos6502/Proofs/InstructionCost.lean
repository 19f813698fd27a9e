import Mos6502.Proofs.InstructionTable
import Mos6502.Proofs.Bare.Laws
import Mos6502.Proofs.Microcode

/-!
# What an instruction costs

Cycles are charged in two places: once for the instruction, with one more where it pays for the page that indexing
leaves, and once in a branch that is taken, with one more where the target lies in another page. Everything else that
instructions do is free. So the cost of an instruction is a sum of its base cost and two penalties, and no documented
instruction costs more than seven cycles.
-/

namespace Mos6502

/-- What an instruction pays for leaving the page of the base by indexing. -/
def Instruction.indexPenalty (instruction : Instruction) (operand : Operand) : Nat :=
  (instruction.mnemonic.paysPageCross && operand.pageCross).toNat

/-- What a branch pays for being taken, with the program counter at the next instruction. -/
def Operand.branchPenalty (operand : Operand) (next : UInt16) : Nat :=
  match operand with
  | .branch target => if highByte target = highByte next then 1 else 2
  | _ => 0

/-- What the work of a mnemonic costs by itself. -/
def Mnemonic.branchPenalty (mnemonic : Mnemonic) (operand : Operand) (m : Machine) : Nat :=
  match mnemonic.branchCondition? with
  | some (flag, value) =>
    if m.regs.status.get flag == value then operand.branchPenalty m.regs.pc else 0
  | none => 0

theorem Instruction.indexPenalty_le (instruction : Instruction) (operand : Operand) :
    instruction.indexPenalty operand ≤ instruction.mnemonic.paysPageCross.toNat := by
  unfold indexPenalty
  cases instruction.mnemonic.paysPageCross with
  | false => exact Nat.le_refl _
  | true => exact Bool.toNat_le _

theorem Operand.branchPenalty_le (operand : Operand) (next : UInt16) :
    operand.branchPenalty next ≤ 2 := by
  cases operand with
  | branch target =>
    change (if highByte target = highByte next then 1 else 2) ≤ 2
    split
    · exact Nat.le_succ 1
    · exact Nat.le_refl 2
  | none | accumulator | immediate | memory => exact Nat.zero_le 2

theorem Mnemonic.branchPenalty_le (mnemonic : Mnemonic) (operand : Operand) (m : Machine) :
    mnemonic.branchPenalty operand m ≤ 2 * mnemonic.isBranch.toNat := by
  rw [mnemonic.isBranch_eq_isSome]
  unfold branchPenalty
  cases mnemonic.branchCondition? with
  | none => exact Nat.le_refl _
  | some condition =>
    dsimp only
    split
    · exact operand.branchPenalty_le m.regs.pc
    · exact Nat.zero_le _

/-- The dearest instructions take seven cycles: those of that base cost pay no penalty. -/
theorem Instruction.cycles_decode_le (opcode : UInt8) :
    (decode opcode).cycles + (decode opcode).mnemonic.paysPageCross.toNat +
      2 * (decode opcode).mnemonic.isBranch.toNat ≤ 7 := by
  have costs : ∀ entry ∈ documented, entry.2.cycles + entry.2.mnemonic.paysPageCross.toNat +
      2 * entry.2.mnemonic.isBranch.toNat ≤ 7 := by
    decide +kernel
  exact decode_induction (P := fun instruction => instruction.cycles +
    instruction.mnemonic.paysPageCross.toNat + 2 * instruction.mnemonic.isBranch.toNat ≤ 7)
    costs (by decide) opcode

/-- The micro-operations that charge no cycles. -/
def MicroOp.Free : MicroOp → Prop
  | .charge _ => False
  | _ => True

theorem MicroOp.Free.cycles_effect {op : MicroOp} (free : op.Free) (m : Machine) :
    (op.effect m).2.cycles = m.cycles := by
  rw [op.cycles_effect]
  cases op with
  | charge => exact free.elim
  | _ => exact UInt64.add_zero m.cycles

namespace Micro

variable {α : Type}

theorem cycles_exec_of_free {program : Micro α} (free : program.Uses MicroOp.Free) (m : Machine) :
    (program.exec m).2.cycles = m.cycles := by
  induction program generalizing m with
  | done result => rfl
  | step op next inductionHypothesis =>
    obtain ⟨here, later⟩ := free
    rw [exec_step, inductionHypothesis _ (later _), here.cycles_effect]

theorem free_fetchInstruction (addr : UInt16) : (fetchInstruction addr).Uses MicroOp.Free := by
  simp [fetchInstruction, MicroOp.Free]

theorem free_resolve (mode : AddressingMode) (value : UInt16) :
    (resolve mode value).Uses MicroOp.Free := by
  cases mode <;> simp [resolve, loadZeroPageWord, loadWord, MicroOp.Free]

theorem free_loadOperand (operand : Operand) : (loadOperand operand).Uses MicroOp.Free := by
  cases operand <;> simp [loadOperand, MicroOp.Free]

theorem free_storeOperand (operand : Operand) (value : UInt8) :
    (storeOperand operand value).Uses MicroOp.Free := by
  cases operand <;> simp [storeOperand, MicroOp.Free]

theorem free_push (value : UInt8) : (push value).Uses MicroOp.Free := by
  simp [push, MicroOp.Free]

theorem free_pull : pull.Uses MicroOp.Free := by
  simp [pull, MicroOp.Free]

/-- Only branches charge anything in the work of their mnemonic. -/
theorem free_ofMnemonic {mnemonic : Mnemonic} (straight : mnemonic.branchCondition? = none)
    (operand : Operand) : (ofMnemonic mnemonic operand).Uses MicroOp.Free := by
  have loads := free_loadOperand operand
  have stores := free_storeOperand operand
  have pushes := free_push
  have pulls := free_pull
  cases mnemonic with
  | bcc | bcs | bne | beq | bpl | bmi | bvc | bvs => cases straight
  | bit => cases operand <;> simp [ofMnemonic, testBits, MicroOp.Free]
  | jmp => cases operand <;> simp [ofMnemonic, jump, MicroOp.Free]
  | jsr => cases operand <;> simp [ofMnemonic, jumpToSubroutine, pushWord, pushes, MicroOp.Free]
  | asl | lsr | rol | ror | inc | dec =>
    simp [ofMnemonic, shift, rotate, stepOperand, modify, setShift, setZeroNegative, loads, stores,
      MicroOp.Free]
  | pha | php | pla | plp | rts | rti =>
    simp [ofMnemonic, pullAccumulator, pushStatus, returnFromSubroutine, returnFromInterrupt,
      pullWord, setResult, setZeroNegative, pushes, pulls, MicroOp.Free]
  | adc | sbc | cmp | cpx | cpy =>
    simp [ofMnemonic, arithmetic, compareWith, setComparison, loads, MicroOp.Free]
  | _ =>
    simp [ofMnemonic, loadInto, storeFrom, combine, stepRegister, transfer, setResult,
      setZeroNegative, loads, stores, MicroOp.Free]

@[simp]
theorem exec_observe (observation : Observation) (m : Machine) :
    (observe observation).exec m = ((), m) := rfl

@[simp]
theorem exec_pc (m : Machine) : pc.exec m = (m.regs.pc, m) := rfl

theorem cycles_exec_takeBranch (operand : Operand) (taken : Bool) (m : Machine) :
    ((takeBranch operand taken).exec m).2.cycles =
      m.cycles + UInt64.ofNat (if taken then operand.branchPenalty m.regs.pc else 0) := by
  cases operand with
  | branch target =>
    cases taken with
    | false => simp [takeBranch]
    | true =>
      by_cases stays : highByte target = highByte m.regs.pc
      · simp [takeBranch, Operand.branchPenalty, Machine.mapRegs, stays]
      · simp [takeBranch, Operand.branchPenalty, Machine.mapRegs, stays, UInt64.add_assoc]
  | none | accumulator | immediate | memory => simp [takeBranch, Operand.branchPenalty]

theorem cycles_exec_branchIf (flag : Flag) (value : Bool) (operand : Operand) (m : Machine) :
    ((branchIf flag value operand).exec m).2.cycles =
      m.cycles + UInt64.ofNat
        (if m.regs.status.get flag == value then operand.branchPenalty m.regs.pc else 0) := by
  -- Reading the flag makes it known; the counters stay.
  have read : (m.noteFlag flag).cycles = m.cycles ∧ (m.noteFlag flag).regs.pc = m.regs.pc := by
    unfold Machine.noteFlag
    split
    · exact ⟨rfl, rfl⟩
    · exact ⟨rfl, rfl⟩
  change ((takeBranch operand (m.regs.status.get flag == value)).exec
    (m.noteFlag flag)).2.cycles = _
  rw [cycles_exec_takeBranch, read.1, read.2]

theorem cycles_exec_ofMnemonic (mnemonic : Mnemonic) (operand : Operand) (m : Machine) :
    ((ofMnemonic mnemonic operand).exec m).2.cycles =
      m.cycles + UInt64.ofNat (mnemonic.branchPenalty operand m) := by
  unfold Mnemonic.branchPenalty
  cases condition : mnemonic.branchCondition? with
  | none =>
    have free := cycles_exec_of_free (free_ofMnemonic condition operand) m
    exact free.trans (UInt64.add_zero _).symm
  | some looked =>
    rw [ofMnemonic_of_branchCondition? condition]
    exact cycles_exec_branchIf looked.1 looked.2 operand m

theorem exec_chargeFor (instruction : Instruction) (operand : Operand) (m : Machine) :
    ((chargeFor instruction operand).exec m).2 =
      { m with
        cycles := m.cycles + UInt64.ofNat (instruction.cycles + instruction.indexPenalty operand) } := by
  unfold chargeFor Instruction.indexPenalty
  cases instruction.mnemonic.paysPageCross && operand.pageCross <;>
    simp [UInt64.ofNat_add, UInt64.add_assoc]

theorem regs_chargeFor (instruction : Instruction) (operand : Operand) (m : Machine) :
    ((chargeFor instruction operand).exec m).2.regs = m.regs := by
  rw [exec_chargeFor]

theorem mem_chargeFor (instruction : Instruction) (operand : Operand) (m : Machine) :
    ((chargeFor instruction operand).exec m).2.mem = m.mem := by
  rw [exec_chargeFor]

/-- The cost of a documented instruction: its base cost, and the two penalties. -/
theorem cycles_exec_ofInstruction {instruction : Instruction}
    (documented : instruction.mnemonic ≠ .undocumented) (value : UInt16) (m : Machine) :
    ((ofInstruction instruction value).exec m).2.cycles =
      m.cycles + UInt64.ofNat (instruction.cycles +
        instruction.indexPenalty ((resolve instruction.mode value).exec m).1 +
        instruction.mnemonic.branchPenalty ((resolve instruction.mode value).exec m).1
          ((resolve instruction.mode value).exec m).2) := by
  have resolved := cycles_exec_of_free (free_resolve instruction.mode value) m
  rw [ofInstruction_eq documented, exec_bind]
  generalize (resolve instruction.mode value).exec m = result at resolved
  obtain ⟨operand, n⟩ := result
  rw [exec_bind, cycles_exec_ofMnemonic, exec_chargeFor, UInt64.add_assoc, ← UInt64.ofNat_add,
    resolved]
  rfl

/-- An instruction that is rejected costs nothing. -/
theorem cycles_exec_instructionAt_of_undocumented (pc : UInt16) {m : Machine}
    (undocumented : (Instruction.decode (m.mem.raw pc)).mnemonic = .undocumented) :
    ((instructionAt pc).exec m).2.cycles = m.cycles := by
  have fetched := exec_fetchInstruction_fst pc m
  have free := cycles_exec_of_free (free_fetchInstruction pc) m
  rw [exec_instructionAt]
  generalize (fetchInstruction pc).exec m = result at fetched free
  rw [← fetched] at undocumented
  unfold ofInstruction
  rw [if_pos undocumented]
  exact free

end Micro

end Mos6502
