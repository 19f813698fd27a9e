import Mos6502.Proofs.InstructionCost
import Mos6502.Proofs.Bare.Stack

/-!
# Where programs store

A store is the only micro-operation that can change a byte of memory, and only the byte that it names. So the bytes that
a program can change are found by listing its stores. An instruction stores to the memory operand that its mnemonic
writes back, or to the stack cells that it pushes, and never twice to one cell.
-/

namespace Mos6502

variable {α β : Type}

namespace MicroOp

/-- The address that a micro-operation stores to. -/
def target? : MicroOp → Option UInt16
  | .store addr _ => some addr
  | _ => none

/-- The micro-operations that store nothing. -/
def Storeless : MicroOp → Prop
  | .store _ _ => False
  | _ => True

theorem Storeless.target? {op : MicroOp} (storeless : op.Storeless) : op.target? = none := by
  cases op with
  | store => exact storeless.elim
  | _ => rfl

end MicroOp

/-- The byte is stored where the cell is writable, and nothing is changed elsewhere. -/
theorem Machine.raw_write (m : Machine) (addr : UInt16) (value : UInt8) (other : UInt16) :
    (m.write addr value).mem.raw other =
      if (m.mem.state addr).rom = false ∧ (m.mem.state addr).undefined = false ∧ addr = other then
        value
      else m.mem.raw other := by
  cases readOnly : (m.mem.state addr).rom with
  | true =>
    rw [write_of_rom readOnly]
    rfl
  | false =>
    cases undeclared : (m.mem.state addr).undefined with
    | true =>
      rw [write_of_undefined readOnly undeclared]
      rfl
    | false =>
      rw [write_of_writable readOnly undeclared]
      exact (Memory.raw_store undeclared value other).trans (by simp)

theorem MicroOp.raw_effect {op : MicroOp} {addr : UInt16} (elsewhere : op.target? ≠ some addr)
    (m : Machine) : (op.effect m).2.mem.raw addr = m.mem.raw addr := by
  cases op with
  | fetch target | load target => exact m.raw_noteRead _ _ target addr
  | store target value =>
    have other : target ≠ addr := fun same => elsewhere (congrArg some same)
    exact (m.raw_write target value addr).trans (if_neg fun stored => other stored.2.2)
  | flag which =>
    change (m.noteFlag which).mem.raw addr = _
    unfold Machine.noteFlag
    split <;> rfl
  | isBlank | register | setRegister | pc | setPc | setFlag | forget | status | setStatus | here
    | raise | charge | observe => rfl

namespace Micro

/-- The addresses that a program stores to, in order, writable or not. -/
def stores : Micro α → Machine → List UInt16
  | done _, _ => []
  | step op next, m => op.target?.toList ++ (next (op.effect m).1).stores (op.effect m).2

@[simp]
theorem stores_done (result : α) (m : Machine) : (done result).stores m = [] := rfl

@[simp]
theorem stores_step (op : MicroOp) (next : op.Answer → Micro α) (m : Machine) :
    (step op next).stores m =
      op.target?.toList ++ (next (op.effect m).1).stores (op.effect m).2 := rfl

@[simp]
theorem stores_bind (program : Micro α) (next : α → Micro β) (m : Machine) :
    (program >>= next).stores m =
      program.stores m ++ (next (program.exec m).1).stores (program.exec m).2 := by
  induction program generalizing m with
  | done result => rfl
  | step op rest inductionHypothesis =>
    simp only [bind_step, stores_step, exec_step, inductionHypothesis, List.append_assoc]

theorem stores_of_storeless {program : Micro α} (storeless : program.Uses MicroOp.Storeless)
    (m : Machine) : program.stores m = [] := by
  induction program generalizing m with
  | done result => rfl
  | step op next inductionHypothesis =>
    obtain ⟨here, later⟩ := storeless
    rw [stores_step, here.target?, inductionHypothesis _ (later _)]
    rfl

/-- Bytes change only where a program stores. -/
theorem raw_exec {program : Micro α} {m : Machine} {addr : UInt16}
    (elsewhere : addr ∉ program.stores m) :
    (program.exec m).2.mem.raw addr = m.mem.raw addr := by
  induction program generalizing m with
  | done result => rfl
  | step op next inductionHypothesis =>
    rw [stores_step, List.mem_append, Option.mem_toList, not_or] at elsewhere
    rw [exec_step, inductionHypothesis _ elsewhere.2, op.raw_effect elsewhere.1]

end Micro

/-- The memory address of an operand. -/
def Operand.address? : Operand → Option UInt16
  | .memory addr _ => some addr
  | _ => .none

/-- Mnemonics that store to memory, where their operand lies there. -/
def Mnemonic.isStoring : Mnemonic → Bool
  | .sta | .stx | .sty | .asl | .lsr | .rol | .ror | .inc | .dec | .pha | .php | .jsr => true
  | _ => false

/-- The addresses that the work of a mnemonic stores to, with the stack pointer at `sp`. -/
def Mnemonic.storesTo (mnemonic : Mnemonic) (operand : Operand) (sp : UInt8) : List UInt16 :=
  match mnemonic with
  | .sta | .stx | .sty | .asl | .lsr | .rol | .ror | .inc | .dec => operand.address?.toList
  | .pha | .php => [Micro.stackAddress sp]
  | .jsr =>
    match operand with
    | .memory _ _ => [Micro.stackAddress sp, Micro.stackAddress (sp - 1)]
    | _ => []
  | _ => []

theorem Mnemonic.nodup_storesTo (mnemonic : Mnemonic) (operand : Operand) (sp : UInt8) :
    (mnemonic.storesTo operand sp).Nodup := by
  have single (found : Option UInt16) : found.toList.Nodup := by
    cases found <;> simp
  have below : Micro.stackAddress sp ≠ Micro.stackAddress (sp - 1) := by
    rw [Ne, Memory.stackAddress_inj]
    grind
  cases mnemonic with
  | sta | stx | sty | asl | lsr | rol | ror | inc | dec => exact single operand.address?
  | pha | php => exact single (some (Micro.stackAddress sp))
  | jsr =>
    cases operand with
    | memory => simpa [storesTo] using below
    | none | accumulator | immediate | branch => exact List.nodup_nil
  | _ => exact List.nodup_nil

namespace Micro

theorem storeless_resolve (mode : AddressingMode) (value : UInt16) :
    (resolve mode value).Uses MicroOp.Storeless := by
  cases mode <;> simp [resolve, loadZeroPageWord, loadWord, MicroOp.Storeless]

theorem storeless_loadOperand (operand : Operand) :
    (loadOperand operand).Uses MicroOp.Storeless := by
  cases operand <;> simp [loadOperand, MicroOp.Storeless]

theorem storeless_pull : pull.Uses MicroOp.Storeless := by
  simp [pull, MicroOp.Storeless]

theorem regs_resolve (mode : AddressingMode) (value : UInt16) (m : Machine) :
    ((resolve mode value).exec m).2.regs = m.regs := by
  cases mode <;> simp [resolve, loadZeroPageWord, loadWord, Machine.regs_noteRead]

theorem stores_storeOperand (operand : Operand) (value : UInt8) (m : Machine) :
    (storeOperand operand value).stores m = operand.address?.toList := by
  cases operand <;> rfl

theorem stores_push (value : UInt8) (m : Machine) :
    (push value).stores m = [stackAddress m.regs.sp] := rfl

theorem stores_modify {compute : UInt8 → Micro UInt8}
    (storeless : ∀ value, (compute value).Uses MicroOp.Storeless) (operand : Operand) (m : Machine) :
    (modify operand compute).stores m = operand.address?.toList := by
  unfold modify
  rw [stores_bind, stores_bind, stores_of_storeless (storeless_loadOperand operand),
    stores_of_storeless (storeless _), stores_storeOperand]
  rfl

theorem stores_pushWord (word : UInt16) (m : Machine) :
    (pushWord word).stores m = [stackAddress m.regs.sp, stackAddress (m.regs.sp - 1)] := by
  unfold pushWord
  rw [stores_bind, exec_push, stores_push, stores_push]
  change [_, stackAddress (m.regs.sp - 1)] = _
  rfl

theorem storeless_ofMnemonic {mnemonic : Mnemonic} (plain : mnemonic.isStoring = false)
    (operand : Operand) : (ofMnemonic mnemonic operand).Uses MicroOp.Storeless := by
  have loads := storeless_loadOperand operand
  have pulls := storeless_pull
  cases mnemonic with
  | sta | stx | sty | asl | lsr | rol | ror | inc | dec | pha | php | jsr => cases plain
  | bit => cases operand <;> simp [ofMnemonic, testBits, MicroOp.Storeless]
  | jmp => cases operand <;> simp [ofMnemonic, jump, MicroOp.Storeless]
  | bcc | bcs | bne | beq | bpl | bmi | bvc | bvs =>
    cases operand <;> simp [ofMnemonic, branchIf, takeBranch, MicroOp.Storeless]
  | pla | plp | rts | rti =>
    simp [ofMnemonic, pullAccumulator, returnFromSubroutine, returnFromInterrupt, pullWord,
      setResult, setZeroNegative, pulls, MicroOp.Storeless]
  | _ =>
    simp [ofMnemonic, arithmetic, compareWith, setComparison, loadInto, combine, stepRegister,
      transfer, setResult, setZeroNegative, loads, MicroOp.Storeless]

theorem stores_ofMnemonic (mnemonic : Mnemonic) (operand : Operand) (m : Machine) :
    (ofMnemonic mnemonic operand).stores m = mnemonic.storesTo operand m.regs.sp := by
  cases mnemonic with
  | sta | stx | sty => exact stores_storeOperand operand _ m
  | asl | lsr | rol | ror | inc | dec =>
    apply stores_modify
    intro value
    simp [setShift, setZeroNegative, MicroOp.Storeless]
  | pha | php => rfl
  | jsr =>
    cases operand with
    | memory addr pageCross => exact (stores_bind _ _ _).trans (stores_pushWord _ m)
    | none | accumulator | immediate | branch => rfl
  | _ => exact stores_of_storeless (storeless_ofMnemonic rfl operand) m

/-- Finding the operand stores nothing and leaves the stack pointer alone, so the stores of an instruction are those
of its mnemonic. -/
theorem stores_ofInstruction (instruction : Instruction) (value : UInt16) (m : Machine) :
    (ofInstruction instruction value).stores m =
      instruction.mnemonic.storesTo ((resolve instruction.mode value).exec m).1 m.regs.sp := by
  by_cases undocumented : instruction.mnemonic = .undocumented
  · unfold ofInstruction
    rw [if_pos undocumented, undocumented]
    rfl
  · have resolved := stores_of_storeless (storeless_resolve instruction.mode value) m
    have regs := regs_resolve instruction.mode value m
    rw [ofInstruction_eq undocumented, stores_bind, resolved]
    generalize (resolve instruction.mode value).exec m = result at regs
    obtain ⟨operand, n⟩ := result
    have charged : (chargeFor instruction operand).stores n = [] := by
      apply stores_of_storeless
      simp [chargeFor, MicroOp.Storeless]
    rw [stores_bind, charged, stores_ofMnemonic, exec_chargeFor, ← regs]
    rfl

end Micro

end Mos6502
