import Mos6502.Microcode.Instruction

/-!
# What programs of microcode consist of

A program uses a micro-operation if some answers to the ones before it lead there. What all used micro-operations
have in common is found by simplification: a sequence uses what its first part uses, and what its second part uses
for the results that the first part can give.

Accesses and work on registers and cycles are used everywhere. Which instructions use one of the other micro-operations
is said once, by mnemonic; properties of whole instructions follow from that.
-/

namespace Mos6502.Micro

variable {α β : Type}

/-- Every micro-operation that a program uses has a property. -/
def Uses (p : MicroOp → Prop) : Micro α → Prop
  | done _ => True
  | step op next => p op ∧ ∀ answer, (next answer).Uses p

/-- Some answers to the micro-operations of a program lead to a result. -/
def Gives : Micro α → α → Prop
  | done result, expected => result = expected
  | step _ next, expected => ∃ answer, (next answer).Gives expected

variable {p : MicroOp → Prop}

theorem uses_of_forall (all : ∀ op, p op) (program : Micro α) : program.Uses p := by
  induction program with
  | done result => trivial
  | step op next inductionHypothesis => exact ⟨all op, inductionHypothesis⟩

theorem Uses.imp {q : MicroOp → Prop} {program : Micro α} (uses : program.Uses p)
    (each : ∀ op, p op → q op) : program.Uses q := by
  induction program with
  | done result => trivial
  | step op next inductionHypothesis =>
    obtain ⟨here, later⟩ := uses
    exact ⟨each op here, fun answer => inductionHypothesis answer (later answer)⟩

theorem Uses.and {q : MicroOp → Prop} {program : Micro α} (first : program.Uses p)
    (second : program.Uses q) : program.Uses fun op => p op ∧ q op := by
  induction program with
  | done result => trivial
  | step op next inductionHypothesis =>
    exact ⟨⟨first.1, second.1⟩, fun answer =>
      inductionHypothesis answer (first.2 answer) (second.2 answer)⟩

@[simp]
theorem uses_done (result : α) : (done result).Uses p := trivial

@[simp]
theorem uses_bind {program : Micro α} {next : α → Micro β} :
    (program >>= next).Uses p ↔
      program.Uses p ∧ ∀ result, program.Gives result → (next result).Uses p := by
  induction program with
  | done result =>
    constructor
    · intro uses
      refine ⟨trivial, ?_⟩
      rintro _ rfl
      exact uses
    · rintro ⟨-, rest⟩
      exact rest result rfl
  | step op rest inductionHypothesis =>
    constructor
    · rintro ⟨here, later⟩
      refine ⟨⟨here, fun answer => ((inductionHypothesis answer).mp (later answer)).1⟩, ?_⟩
      rintro result ⟨answer, gives⟩
      exact ((inductionHypothesis answer).mp (later answer)).2 result gives
    · rintro ⟨⟨here, later⟩, after⟩
      refine ⟨here, ?_⟩
      intro answer
      refine (inductionHypothesis answer).mpr ⟨later answer, ?_⟩
      intro result gives
      exact after result ⟨answer, gives⟩

@[simp]
theorem uses_ite {condition : Prop} [Decidable condition] {yes no : Micro α} :
    (if condition then yes else no).Uses p ↔ if condition then yes.Uses p else no.Uses p := by
  split <;> rfl

theorem uses_op {op : MicroOp} : (step op done).Uses p ↔ p op :=
  ⟨And.left, fun here => ⟨here, fun _ => trivial⟩⟩

@[simp]
theorem uses_fetch (addr : UInt16) : (fetch addr).Uses p ↔ p (.fetch addr) := uses_op

@[simp]
theorem uses_load (addr : UInt16) : (load addr).Uses p ↔ p (.load addr) := uses_op

@[simp]
theorem uses_store (addr : UInt16) (value : UInt8) :
    (store addr value).Uses p ↔ p (.store addr value) :=
  uses_op

@[simp]
theorem uses_isBlank (addr : UInt16) : (isBlank addr).Uses p ↔ p (.isBlank addr) := uses_op

@[simp]
theorem uses_register (source : Register) : (register source).Uses p ↔ p (.register source) :=
  uses_op

@[simp]
theorem uses_setRegister (target : Register) (value : UInt8) :
    (setRegister target value).Uses p ↔ p (.setRegister target value) :=
  uses_op

@[simp]
theorem uses_pc : pc.Uses p ↔ p .pc := uses_op

@[simp]
theorem uses_setPc (addr : UInt16) : (setPc addr).Uses p ↔ p (.setPc addr) := uses_op

@[simp]
theorem uses_flag (which : Flag) : (flag which).Uses p ↔ p (.flag which) := uses_op

@[simp]
theorem uses_setFlag (which : Flag) (value : Bool) :
    (setFlag which value).Uses p ↔ p (.setFlag which value) :=
  uses_op

@[simp]
theorem uses_forget (mask : Flags) : (forget mask).Uses p ↔ p (.forget mask) := uses_op

@[simp]
theorem uses_status : status.Uses p ↔ p .status := uses_op

@[simp]
theorem uses_setStatus (value : UInt8) : (setStatus value).Uses p ↔ p (.setStatus value) := uses_op

@[simp]
theorem uses_here : here.Uses p ↔ p .here := uses_op

@[simp]
theorem uses_raise (kind : FaultKind) : (raise kind).Uses p ↔ p (.raise kind) := uses_op

@[simp]
theorem uses_charge (cycles : Nat) : (charge cycles).Uses p ↔ p (.charge cycles) := uses_op

@[simp]
theorem uses_observe (observation : Observation) :
    (observe observation).Uses p ↔ p (.observe observation) :=
  uses_op

end Micro

/-- The observations that instructions with a mnemonic make in the work of the mnemonic. -/
def Mnemonic.observes (mnemonic : Mnemonic) : Observation → Bool
  | .branch _ | .branchCross => mnemonic.isBranch
  | .overflow _ => mnemonic == .adc || mnemonic == .sbc
  | .indexCross => false

/-- The flags that instructions with a mnemonic read, in order. -/
def Mnemonic.flagsRead : Mnemonic → List Flag
  | .adc | .sbc => [.carry, .decimal]
  | .rol | .ror | .bcc | .bcs => [.carry]
  | .bne | .beq => [.zero]
  | .bpl | .bmi => [.negative]
  | .bvc | .bvs => [.overflow]
  | _ => []

/-- The flag that a branch looks at, and the value with which it is taken. -/
def Mnemonic.branchCondition? : Mnemonic → Option (Flag × Bool)
  | .bcc => some (.carry, false)
  | .bcs => some (.carry, true)
  | .bne => some (.zero, false)
  | .beq => some (.zero, true)
  | .bpl => some (.negative, false)
  | .bmi => some (.negative, true)
  | .bvc => some (.overflow, false)
  | .bvs => some (.overflow, true)
  | _ => none

theorem Mnemonic.isBranch_eq_isSome (mnemonic : Mnemonic) :
    mnemonic.isBranch = mnemonic.branchCondition?.isSome := by
  cases mnemonic <;> rfl

theorem Mnemonic.isBranch_of_branchCondition? {mnemonic : Mnemonic} {condition : Flag × Bool}
    (branches : mnemonic.branchCondition? = some condition) : mnemonic.isBranch = true := by
  simp [isBranch_eq_isSome, branches]

namespace MicroOp

/-- The micro-operations that any part of any instruction can use. -/
def Common : MicroOp → Prop
  | .fetch _ | .load _ | .store _ _ | .register _ | .setRegister _ _ | .pc | .setPc _
  | .setFlag _ _ | .setStatus _ | .charge _ => True
  | .isBlank _ | .flag _ | .forget _ | .status | .here | .raise _ | .observe _ => False

/-- The micro-operations that the work of a mnemonic can use. -/
def WorksFor (mnemonic : Mnemonic) : MicroOp → Prop
  | .flag which => which ∈ mnemonic.flagsRead
  | .observe observation => mnemonic.observes observation = true
  | .isBlank _ | .forget _ => mnemonic = .bit
  | .status => mnemonic = .php
  | .raise kind => mnemonic = .brk ∧ kind = .brk
  | .here => False
  | .fetch _ | .load _ | .store _ _ | .register _ | .setRegister _ _ | .pc | .setPc _
  | .setFlag _ _ | .setStatus _ | .charge _ => True

/-- The micro-operations that an instruction with a mnemonic can use at all. -/
def PartOf (mnemonic : Mnemonic) (op : MicroOp) : Prop :=
  op.WorksFor mnemonic ∨ op = .observe .indexCross ∨
    mnemonic = .undocumented ∧ (op = .here ∨ op = .raise .illegal)

theorem Common.worksFor (mnemonic : Mnemonic) {op : MicroOp} (common : op.Common) :
    op.WorksFor mnemonic := by
  cases op with
  | isBlank | flag | forget | status | here | raise | observe => exact common.elim
  | _ => trivial

end MicroOp

namespace Micro

theorem common_fetchInstruction (addr : UInt16) :
    (fetchInstruction addr).Uses MicroOp.Common := by
  simp [fetchInstruction, MicroOp.Common]

theorem common_resolve (mode : AddressingMode) (value : UInt16) :
    (resolve mode value).Uses MicroOp.Common := by
  cases mode <;> simp [resolve, loadZeroPageWord, loadWord, MicroOp.Common]

theorem common_loadOperand (operand : Operand) : (loadOperand operand).Uses MicroOp.Common := by
  cases operand <;> simp [loadOperand, MicroOp.Common]

theorem common_storeOperand (operand : Operand) (value : UInt8) :
    (storeOperand operand value).Uses MicroOp.Common := by
  cases operand <;> simp [storeOperand, MicroOp.Common]

theorem common_push (value : UInt8) : (push value).Uses MicroOp.Common := by
  simp [push, MicroOp.Common]

theorem common_pull : pull.Uses MicroOp.Common := by
  simp [pull, MicroOp.Common]

theorem common_pushWord (word : UInt16) : (pushWord word).Uses MicroOp.Common := by
  simp [pushWord, common_push]

theorem common_returnFromSubroutine : returnFromSubroutine.Uses MicroOp.Common := by
  simp [returnFromSubroutine, pullWord, common_pull, MicroOp.Common]

theorem common_setShift (shifted : UInt8 × Bool) : (setShift shifted).Uses MicroOp.Common := by
  simp [setShift, setZeroNegative, MicroOp.Common]

theorem uses_ofMnemonic (mnemonic : Mnemonic) (operand : Operand) :
    (ofMnemonic mnemonic operand).Uses (MicroOp.WorksFor mnemonic) := by
  have loads := (common_loadOperand operand).imp fun _ => MicroOp.Common.worksFor mnemonic
  have stores (value : UInt8) :=
    (common_storeOperand operand value).imp fun _ => MicroOp.Common.worksFor mnemonic
  have pushes (value : UInt8) := (common_push value).imp fun _ => MicroOp.Common.worksFor mnemonic
  have pulls := common_pull.imp fun _ => MicroOp.Common.worksFor mnemonic
  cases mnemonic with
  | bit => cases operand <;> simp [ofMnemonic, testBits, MicroOp.WorksFor]
  | jmp => cases operand <;> simp [ofMnemonic, jump, MicroOp.WorksFor]
  | jsr =>
    cases operand <;> simp [ofMnemonic, jumpToSubroutine, pushWord, pushes, MicroOp.WorksFor]
  | bcc | bcs | bne | beq | bpl | bmi | bvc | bvs =>
    cases operand <;>
      simp [ofMnemonic, branchIf, takeBranch, MicroOp.WorksFor, Mnemonic.flagsRead,
        Mnemonic.observes, Mnemonic.isBranch]
  | asl | lsr | rol | ror | inc | dec =>
    simp [ofMnemonic, shift, rotate, stepOperand, modify, setShift, setZeroNegative, loads, stores,
      MicroOp.WorksFor, Mnemonic.flagsRead]
  | pha | php | pla | plp | rts | rti =>
    simp [ofMnemonic, pullAccumulator, pushStatus, returnFromSubroutine, returnFromInterrupt,
      pullWord, setResult, setZeroNegative, pushes, pulls, MicroOp.WorksFor]
  | adc | sbc | cmp | cpx | cpy =>
    simp [ofMnemonic, arithmetic, compareWith, setComparison, loads, MicroOp.WorksFor,
      Mnemonic.flagsRead, Mnemonic.observes]
  | _ =>
    simp [ofMnemonic, loadInto, storeFrom, combine, stepRegister, transfer, setResult,
      setZeroNegative, loads, stores, MicroOp.WorksFor]

theorem ofMnemonic_of_branchCondition? {mnemonic : Mnemonic} {flag : Flag} {value : Bool}
    (condition : mnemonic.branchCondition? = some (flag, value)) (operand : Operand) :
    ofMnemonic mnemonic operand = branchIf flag value operand := by
  cases mnemonic with
  | bcc | bcs | bne | beq | bpl | bmi | bvc | bvs =>
    cases condition
    rfl
  | _ => cases condition

/-- The charge for an instruction, with the note that a page was crossed. -/
def chargeFor (instruction : Instruction) (operand : Operand) : Micro Unit := do
  charge instruction.cycles
  if instruction.mnemonic.paysPageCross && operand.pageCross then
    charge 1
    observe .indexCross

theorem ofInstruction_eq {instruction : Instruction}
    (documented : instruction.mnemonic ≠ .undocumented) (value : UInt16) :
    ofInstruction instruction value =
      resolve instruction.mode value >>= fun operand =>
        chargeFor instruction operand >>= fun _ => ofMnemonic instruction.mnemonic operand := by
  unfold ofInstruction chargeFor
  rw [if_neg documented]
  congr
  funext operand
  rw [bind_assoc]
  congr
  funext _
  split <;> rfl

theorem uses_ofInstruction (instruction : Instruction) (value : UInt16) :
    (ofInstruction instruction value).Uses (MicroOp.PartOf instruction.mnemonic) := by
  by_cases undocumented : instruction.mnemonic = .undocumented
  · unfold ofInstruction
    rw [if_pos undocumented]
    simp [reject, undocumented, MicroOp.PartOf, MicroOp.WorksFor]
  · rw [ofInstruction_eq undocumented, uses_bind]
    constructor
    · apply (common_resolve instruction.mode value).imp
      intro op common
      exact .inl (common.worksFor instruction.mnemonic)
    · intro operand _
      rw [uses_bind]
      constructor
      · simp [chargeFor, MicroOp.PartOf, MicroOp.WorksFor]
      · intro _ _
        exact (uses_ofMnemonic instruction.mnemonic operand).imp fun _ => .inl

end Mos6502.Micro
