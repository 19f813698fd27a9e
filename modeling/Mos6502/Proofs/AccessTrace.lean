import Mos6502.Proofs.Bare.Stack
import Mos6502.Proofs.InstructionTable
import Mos6502.Proofs.Invocation

/-!
# The accesses of microcode

A program makes its accesses to memory one after the other, and which ones they are depends on the answers that it
gets. They are listed along a run. As long as none of them comes to a hook, the host has no part in the run, which is
then that of the bare machine.

An instruction that works on memory goes to one address for it, once or twice, which its mnemonic tells.
-/

namespace Mos6502

variable {σ α β : Type}

/-- The access to memory that a micro-operation makes. -/
def MicroOp.access? : MicroOp → Option (AccessKind × UInt16)
  | .fetch addr | .load addr => some (.read, addr)
  | .store addr _ => some (.write, addr)
  | _ => none

/-- Micro-operations that make no access. -/
def MicroOp.Internal (op : MicroOp) : Prop :=
  op.access? = none

/-- None of some accesses comes to a hook of its kind. -/
def Memory.Passes (mem : Memory) (accesses : List (AccessKind × UInt16)) : Prop :=
  ∀ access ∈ accesses, mem.hook? access.1 access.2 = none

theorem Memory.passes_append {mem : Memory} {first second : List (AccessKind × UInt16)} :
    mem.Passes (first ++ second) ↔ mem.Passes first ∧ mem.Passes second :=
  List.forall_mem_append

namespace Micro

/-- The accesses that a program makes, in order. -/
def accesses (host : Host σ) : Micro α → World σ → List (AccessKind × UInt16)
  | done _, _ => []
  | step op next, w =>
    op.access?.toList ++ (next (op.perform host w).1).accesses host (op.perform host w).2

@[simp]
theorem accesses_done (host : Host σ) (result : α) (w : World σ) :
    (done result).accesses host w = [] := rfl

@[simp]
theorem accesses_step (host : Host σ) (op : MicroOp) (next : op.Answer → Micro α) (w : World σ) :
    (step op next).accesses host w =
      op.access?.toList ++ (next (op.perform host w).1).accesses host (op.perform host w).2 := rfl

@[simp]
theorem accesses_bind (host : Host σ) (program : Micro α) (next : α → Micro β) (w : World σ) :
    (program >>= next).accesses host w =
      program.accesses host w ++ (next (program.run host w).1).accesses host (program.run host w).2 := by
  induction program generalizing w with
  | done result => rfl
  | step op rest inductionHypothesis =>
    simp only [bind_step, accesses_step, run_step, inductionHypothesis, List.append_assoc]

theorem accesses_of_internal (host : Host σ) {program : Micro α} (uses : program.Uses MicroOp.Internal)
    (w : World σ) : program.accesses host w = [] := by
  induction program generalizing w with
  | done result => rfl
  | step op next inductionHypothesis =>
    obtain ⟨here, later⟩ := uses
    have silent : op.access? = none := here
    simp [silent, inductionHypothesis _ (later _)]

end Micro

/-- What no access of it comes to, a micro-operation does not invoke. -/
theorem MicroOp.invocation?_of_passes {op : MicroOp} {w : World σ}
    (passes : w.machine.mem.Passes op.access?.toList) : op.invocation? w = none := by
  cases op with
  | fetch addr | load addr =>
    have unbound : w.machine.mem.hook? .read addr = none := passes _ (Option.mem_toList.mpr rfl)
    simp [invocation?, Memory.catch?, unbound]
  | store addr value =>
    have unbound : w.machine.mem.hook? .write addr = none := passes _ (Option.mem_toList.mpr rfl)
    simp [invocation?, Memory.catch?, unbound]
  | _ => rfl

theorem MicroOp.fst_perform_of_passes (host : Host σ) {op : MicroOp} {w : World σ}
    (passes : w.machine.mem.Passes op.access?.toList) (unasked : ∀ addr, op ≠ .isBlank addr) :
    (op.perform host w).1 = (op.effect w.machine).1 := by
  have silent := invocation?_of_passes passes
  cases op with
  | fetch addr | load addr =>
    have uncaught := Option.map_eq_none_iff.mp silent
    exact congrArg Prod.fst (World.readAs_of_uncaught host _ _ uncaught)
  | isBlank addr => exact absurd rfl (unasked addr)
  | flag which => exact (w.readFlag_bare which).1
  | _ => rfl

namespace Micro

/-- It is by its accesses only that a program comes to hooks: as long as none of them does, it acts on the bare
machine. -/
def Unassisted (host : Host σ) (program : Micro α) : Prop :=
  ∀ w : World σ, w.machine.mem.Passes (program.accesses host w) →
    (program.run host w).1 = (program.exec w.machine).1 ∧
      (program.run host w).2.machine = (program.exec w.machine).2

theorem Unassisted.bind {host : Host σ} {program : Micro α} {next : α → Micro β}
    (first : program.Unassisted host) (second : ∀ result, (next result).Unassisted host) :
    (program >>= next).Unassisted host := by
  intro w passes
  rw [accesses_bind, Memory.passes_append] at passes
  obtain ⟨answer, machine⟩ := first w passes.1
  have sameHooks : (program.run host w).2.machine.mem.hooks = w.machine.mem.hooks := by
    rw [machine]
    exact Machine.hooks_eq (program.fixture_exec w.machine)
  have rest := second (program.run host w).1 (program.run host w).2 (by
    simpa only [Memory.Passes, Memory.hook?, sameHooks] using passes.2)
  rw [run_bind, exec_bind, ← answer, ← machine]
  exact rest

theorem unassisted_done (host : Host σ) (result : α) : (done result).Unassisted host :=
  fun _ _ => ⟨rfl, rfl⟩

/-- Only the question whether a cell is blank looks at hooks without an access. -/
theorem unassisted_of_uses (host : Host σ) {program : Micro α}
    (unasked : program.Uses fun op => ∀ addr, op ≠ .isBlank addr) : program.Unassisted host := by
  induction program with
  | done result => exact unassisted_done host result
  | step op next inductionHypothesis =>
    obtain ⟨here, later⟩ := unasked
    -- The micro-operation is taken as a program of its own, so that the law of sequences carries the hooks along.
    have single : (step op done).Unassisted host := by
      intro w passes
      have alone : w.machine.mem.Passes op.access?.toList := by
        simpa using passes
      have performed := op.perform_of_silent host (MicroOp.invocation?_of_passes alone)
      exact ⟨MicroOp.fst_perform_of_passes host alone here, congrArg World.machine performed⟩
    exact single.bind fun answer => inductionHypothesis answer (later answer)

/-- A read hook keeps a cell from counting as blank, and then BIT comes to the hook. -/
theorem unassisted_testBits (host : Host σ) (operand : Operand) :
    (testBits operand).Unassisted host := by
  cases operand with
  | memory addr pageCross =>
    intro w passes
    have asked : (isBlank addr).run host w = (w.isBlank addr, w) := rfl
    have onBare : (isBlank addr).exec w.machine =
        ((w.machine.mem.state addr).uninitialized, w.machine) := rfl
    rw [testBits, accesses_bind, asked] at passes
    rw [testBits, run_bind, exec_bind, asked, onBare]
    cases blank : w.isBlank addr with
    | true =>
      have unwritten : (w.machine.mem.state addr).uninitialized = true :=
        (Bool.and_eq_true_iff.mp blank).1
      rw [unwritten]
      exact ⟨rfl, rfl⟩
    | false =>
      rw [blank] at passes
      have unbound : w.machine.mem.hook? .read addr = none :=
        passes (.read, addr) (List.mem_append_right _ List.mem_cons_self)
      have written : (w.machine.mem.state addr).uninitialized = false := by
        simpa [World.isBlank, unbound] using blank
      rw [written]
      apply unassisted_of_uses
      · simp
      · exact passes
  | _ => exact unassisted_done host ()

theorem unassisted_ofMnemonic (host : Host σ) (mnemonic : Mnemonic) (operand : Operand) :
    (ofMnemonic mnemonic operand).Unassisted host := by
  by_cases asks : mnemonic = .bit
  · subst asks
    exact unassisted_testBits host operand
  · apply unassisted_of_uses
    apply (uses_ofMnemonic mnemonic operand).imp
    rintro op works addr rfl
    exact asks works

theorem unassisted_of_common (host : Host σ) {program : Micro α}
    (common : program.Uses MicroOp.Common) : program.Unassisted host := by
  apply unassisted_of_uses
  apply common.imp
  rintro op simple addr rfl
  exact simple

theorem unassisted_ofInstruction (host : Host σ) (instruction : Instruction) (value : UInt16) :
    (ofInstruction instruction value).Unassisted host := by
  by_cases undocumented : instruction.mnemonic = .undocumented
  · unfold ofInstruction
    rw [if_pos undocumented]
    apply unassisted_of_uses
    simp [reject]
  · rw [ofInstruction_eq undocumented]
    apply (unassisted_of_common host (common_resolve instruction.mode value)).bind
    intro operand
    have charged : (chargeFor instruction operand).Unassisted host := by
      apply unassisted_of_uses
      simp [chargeFor]
    exact charged.bind fun _ => unassisted_ofMnemonic host instruction.mnemonic operand

end Micro

/-- The micro-operations that leave the program counter alone. -/
def MicroOp.Stays : MicroOp → Prop
  | .setPc _ => False
  | _ => True

theorem MicroOp.pc_effect {op : MicroOp} (stays : op.Stays) (m : Machine) :
    (op.effect m).2.regs.pc = m.regs.pc := by
  cases op with
  | fetch addr | load addr => simp [effect, Machine.regs_noteRead]
  | store addr value => simp [effect, Machine.regs_write]
  | setRegister target value => cases target <;> rfl
  | flag which =>
    simp only [effect, Machine.noteFlag]
    split <;> rfl
  | setPc => exact stays.elim
  | _ => rfl

/-- Where it sets no program counter, a program leaves that alone. -/
theorem Micro.pc_exec {program : Micro α} (stays : program.Uses MicroOp.Stays) (m : Machine) :
    (program.exec m).2.regs.pc = m.regs.pc := by
  induction program generalizing m with
  | done result => rfl
  | step op next inductionHypothesis =>
    obtain ⟨here, later⟩ := stays
    exact (inductionHypothesis _ (later _) _).trans (MicroOp.pc_effect here m)

namespace Micro

theorem stays_resolve (mode : AddressingMode) (value : UInt16) :
    (resolve mode value).Uses MicroOp.Stays := by
  cases mode <;> simp [resolve, loadZeroPageWord, loadWord, MicroOp.Stays]

theorem stays_chargeFor (instruction : Instruction) (operand : Operand) :
    (chargeFor instruction operand).Uses MicroOp.Stays := by
  simp [chargeFor, MicroOp.Stays]

theorem stays_loadOperand (operand : Operand) : (loadOperand operand).Uses MicroOp.Stays := by
  cases operand <;> simp [loadOperand, MicroOp.Stays]

theorem stays_storeOperand (operand : Operand) (value : UInt8) :
    (storeOperand operand value).Uses MicroOp.Stays := by
  cases operand <;> simp [storeOperand, MicroOp.Stays]

/-- Only control flow sets the program counter, and BRK is none of that. -/
theorem stays_ofMnemonic {mnemonic : Mnemonic}
    (straight : mnemonic.isControlFlow = false ∨ mnemonic = .brk) (operand : Operand) :
    (ofMnemonic mnemonic operand).Uses MicroOp.Stays := by
  have loads := stays_loadOperand operand
  have stores := stays_storeOperand operand
  cases mnemonic with
  | bcc | bcs | bne | beq | bpl | bmi | bvc | bvs | jmp | jsr | rts | rti =>
    rcases straight with straight | other
    · cases straight
    · cases other
  | bit => cases operand <;> simp [ofMnemonic, testBits, MicroOp.Stays]
  | asl | lsr | rol | ror | inc | dec =>
    simp [ofMnemonic, shift, rotate, stepOperand, modify, setShift, setZeroNegative, loads, stores,
      MicroOp.Stays]
  | pha | php | pla | plp =>
    simp [ofMnemonic, pullAccumulator, pushStatus, push, pull, setResult, setZeroNegative,
      MicroOp.Stays]
  | adc | sbc | cmp | cpx | cpy =>
    simp [ofMnemonic, arithmetic, compareWith, setComparison, loads, MicroOp.Stays]
  | _ =>
    simp [ofMnemonic, loadInto, storeFrom, combine, stepRegister, transfer, setResult,
      setZeroNegative, loads, stores, MicroOp.Stays]

end Micro

/-- The accesses that the work of a mnemonic makes to its operand in memory. BIT does not read a blank cell. -/
def Mnemonic.operandAccesses (blank : Bool) : Mnemonic → List AccessKind
  | .lda | .ldx | .ldy | .adc | .sbc | .and | .ora | .eor | .cmp | .cpx | .cpy => [.read]
  | .bit => if blank then [] else [.read]
  | .sta | .stx | .sty => [.write]
  | .asl | .lsr | .rol | .ror | .inc | .dec => [.read, .write]
  | _ => []

/-- Mnemonics that access the stack. -/
def Mnemonic.usesStack : Mnemonic → Bool
  | .pha | .php | .pla | .plp | .jsr | .rts | .rti => true
  | _ => false

namespace Micro

@[simp]
theorem accesses_fetch (host : Host σ) (addr : UInt16) (w : World σ) :
    (fetch addr).accesses host w = [(.read, addr)] := rfl

@[simp]
theorem accesses_load (host : Host σ) (addr : UInt16) (w : World σ) :
    (load addr).accesses host w = [(.read, addr)] := rfl

@[simp]
theorem accesses_store (host : Host σ) (addr : UInt16) (value : UInt8) (w : World σ) :
    (store addr value).accesses host w = [(.write, addr)] := rfl

/-- Around the accesses to its operand, an instruction that leaves the stack alone makes no others. -/
theorem accesses_ofMnemonic (host : Host σ) {mnemonic : Mnemonic}
    (stackless : mnemonic.usesStack = false) (addr : UInt16) (pageCross : Bool) (w : World σ) :
    (ofMnemonic mnemonic (.memory addr pageCross)).accesses host w =
      (mnemonic.operandAccesses (w.isBlank addr)).map (·, addr) := by
  cases mnemonic with
  | pha | php | pla | plp | jsr | rts | rti => cases stackless
  | sta | stx | sty =>
    simp [ofMnemonic, storeFrom, storeOperand, accesses_of_internal, MicroOp.Internal, MicroOp.access?,
      Mnemonic.operandAccesses]
  | lda | ldx | ldy | and | ora | eor =>
    simp [ofMnemonic, loadInto, combine, loadOperand, setResult, setZeroNegative, accesses_of_internal,
      MicroOp.Internal, MicroOp.access?, Mnemonic.operandAccesses]
  | adc | sbc | cmp | cpx | cpy =>
    simp [ofMnemonic, arithmetic, compareWith, loadOperand, setComparison, accesses_of_internal,
      MicroOp.Internal, MicroOp.access?, Mnemonic.operandAccesses]
  | bit =>
    have asked : (isBlank addr).run host w = (w.isBlank addr, w) := rfl
    cases blank : w.isBlank addr with
    | true =>
      simp [ofMnemonic, testBits, asked, blank, accesses_of_internal, MicroOp.Internal, MicroOp.access?,
        Mnemonic.operandAccesses]
    | false =>
      simp [ofMnemonic, testBits, asked, blank, accesses_of_internal, MicroOp.Internal, MicroOp.access?,
        Mnemonic.operandAccesses]
  | asl | lsr | rol | ror | inc | dec =>
    simp [ofMnemonic, shift, rotate, stepOperand, modify, loadOperand, storeOperand, setShift,
      setZeroNegative, accesses_of_internal, MicroOp.Internal, MicroOp.access?, Mnemonic.operandAccesses]
  | _ =>
    simp [ofMnemonic, stepRegister, transfer, setResult, setZeroNegative, jump, branchIf, takeBranch,
      accesses_of_internal, MicroOp.Internal, MicroOp.access?, Mnemonic.operandAccesses]

end Micro

end Mos6502
