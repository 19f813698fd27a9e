import Mos6502.Proofs.InstructionTable
import Mos6502.Proofs.ProfileCycles

/-!
# The sample of an instruction

There is one place for the sample of the instruction at work and one for the mark that it has stored something, and
an instruction that a hook runs takes them over. When the hook is done they stay as they are. So the sample of an
instruction is what the last of its hooks leaves there, with what the instruction itself still adds behind that hook.
Branches come to no hooks in their work, and additions and subtractions note their overflow behind all of them; the
note of a crossed page and the mark of a store can be lost, and any other instruction can inherit the branch, the
crossed page and the overflow of the instruction that its last hook ran last.
-/

namespace Mos6502

variable {σ α β : Type}

/-- What is seen in the instruments when the last of some invocations is over, or was seen before if there are
none. -/
def lastSeen (host : Host σ) (view : Instruments → β) (before : β) (called : List (Invocation σ)) :
    β :=
  called.foldl (fun _ asked => view (asked.left host).instruments) before

section

variable (host : Host σ) (view : Instruments → β) (before : β)

@[simp]
theorem lastSeen_nil : lastSeen host view before [] = before := rfl

@[simp]
theorem lastSeen_cons (asked : Invocation σ) (later : List (Invocation σ)) :
    lastSeen host view before (asked :: later) =
      lastSeen host view (view (asked.left host).instruments) later := rfl

@[simp]
theorem lastSeen_append (first second : List (Invocation σ)) :
    lastSeen host view before (first ++ second) =
      lastSeen host view (lastSeen host view before first) second :=
  List.foldl_append

end

theorem Invocation.instruments_settled (host : Host σ) (asked : Invocation σ) :
    (asked.settled host).instruments = (asked.left host).instruments := by
  obtain ⟨_, settled⟩ := asked.exists_settled_eq host
  rw [settled]

namespace Micro

/-- Where the micro-operations themselves do not change what is seen in the instruments, the last hook decides. -/
theorem seen_run (host : Host σ) (view : Instruments → β) {program : Micro α}
    (blind : program.Uses fun op => ∀ w : World σ, view (op.note w) = view w.instruments)
    (w : World σ) :
    view (program.run host w).2.instruments =
      lastSeen host view (view w.instruments) (program.invocations host w) := by
  induction program generalizing w with
  | done result => rfl
  | step op next inductionHypothesis =>
    obtain ⟨here, later⟩ := blind
    have rest := inductionHypothesis (op.perform host w).1 (later _) (op.perform host w).2
    rw [run_step, rest, invocations_step]
    cases invoked : op.invocation? w with
    | none =>
      rw [congrArg World.instruments (op.perform_of_silent host invoked), here w]
      rfl
    | some asked =>
      rw [op.perform_of_invocation host invoked, asked.instruments_settled]
      rfl

structure Observes (allowed : Observation → Bool) (program : Micro α) : Prop where
  uses : program.Uses fun op =>
    ∀ observation, op = .observe observation → allowed observation = true

end Micro

namespace Mnemonic

@[simp]
theorem observes_branch (mnemonic : Mnemonic) (taken : Bool) :
    mnemonic.observes (.branch taken) = mnemonic.isBranch := rfl

@[simp]
theorem observes_branchCross (mnemonic : Mnemonic) :
    mnemonic.observes .branchCross = mnemonic.isBranch := rfl

@[simp]
theorem observes_overflow (mnemonic : Mnemonic) (value : Bool) :
    mnemonic.observes (.overflow value) = (mnemonic == .adc || mnemonic == .sbc) := rfl

theorem documented_of_isBranch {mnemonic : Mnemonic} (branches : mnemonic.isBranch = true) :
    mnemonic ≠ .undocumented := by
  rintro rfl
  cases branches

end Mnemonic

namespace Micro

theorem observes_resolve (mode : AddressingMode) (value : UInt16) :
    (resolve mode value).Observes fun _ => false := by
  constructor
  apply (common_resolve mode value).imp
  rintro op common observation rfl
  exact common.elim

theorem observes_ofMnemonic (mnemonic : Mnemonic) (operand : Operand) :
    (ofMnemonic mnemonic operand).Observes mnemonic.observes := by
  constructor
  apply (uses_ofMnemonic mnemonic operand).imp
  rintro op works observation rfl
  exact works

/-- What is seen of the sample changes in hooks only, if the program makes no observation that changes it. -/
theorem Observes.seen_run (host : Host σ) {allowed : Observation → Bool} {program : Micro α}
    (observes : program.Observes allowed) (view : Sample → β)
    (quiet : ∀ observation, allowed observation = true →
      ∀ sample : Sample, view (sample.observe observation) = view sample) (w : World σ) :
    view (program.run host w).2.instruments.sample =
      lastSeen host (fun instruments => view instruments.sample) (view w.instruments.sample)
        (program.invocations host w) := by
  have blind : program.Uses fun op =>
      ∀ v : World σ, view (op.note v).sample = view v.instruments.sample := by
    apply observes.uses.imp
    intro op only v
    cases op with
    | observe observation => exact quiet observation (only observation rfl) _
    | store addr value =>
      unfold MicroOp.note
      dsimp only
      split
      · rfl
      · split <;> rfl
    | _ => rfl
  exact Micro.seen_run host (fun instruments => view instruments.sample) blind w

theorem observes_ofInstruction (instruction : Instruction) (value : UInt16) :
    (ofInstruction instruction value).Observes fun observation =>
      observation == .indexCross || instruction.mnemonic.observes observation := by
  constructor
  apply (uses_ofInstruction instruction value).imp
  rintro op part observation rfl
  rcases part with works | crosses | ⟨-, here | raises⟩
  · exact Bool.or_eq_true_iff.mpr (.inr works)
  · cases crosses
    rfl
  · cases here
  · cases raises

theorem branch_takeBranch (host : Host σ) (target : UInt16) (taken : Bool) (w : World σ) :
    ((takeBranch (.branch target) taken).run host w).2.instruments.sample.branch = some taken := by
  unfold takeBranch
  cases taken with
  | false => rfl
  | true =>
    simp only [if_true, run_bind]
    split <;> rfl

theorem invocations_chargeFor (host : Host σ) (instruction : Instruction) (operand : Operand)
    (w : World σ) : (chargeFor instruction operand).invocations host w = [] := by
  unfold chargeFor
  rw [invocations_bind]
  split <;> rfl

theorem ofMnemonic_of_isBranch {mnemonic : Mnemonic} (branches : mnemonic.isBranch = true)
    (operand : Operand) :
    ∃ condition value, ofMnemonic mnemonic operand = branchIf condition value operand := by
  rw [Mnemonic.isBranch_eq_isSome] at branches
  obtain ⟨⟨flag, value⟩, condition⟩ := Option.isSome_iff_exists.mp branches
  exact ⟨flag, value, ofMnemonic_of_branchCondition? condition operand⟩

/-- A branch notes whether it is taken, and nothing that it does behind the note changes it. -/
theorem branch_ofMnemonic (host : Host σ) {mnemonic : Mnemonic}
    (branches : mnemonic.isBranch = true) (target : UInt16) (w : World σ) :
    ((ofMnemonic mnemonic (.branch target)).run host w).2.instruments.sample.branch.isSome =
      true := by
  obtain ⟨condition, value, work⟩ := ofMnemonic_of_isBranch branches (.branch target)
  rw [work]
  unfold branchIf
  rw [run_bind, branch_takeBranch]
  rfl

/-- An addition or subtraction notes its overflow when it has come to the last hook, and sets the flag to the same. -/
theorem overflow_ofMnemonic (host : Host σ) {mnemonic : Mnemonic}
    (arithmetic : mnemonic = .adc ∨ mnemonic = .sbc) (operand : Operand) (w : World σ) :
    ((ofMnemonic mnemonic operand).run host w).2.instruments.sample.overflow =
      ((ofMnemonic mnemonic operand).run host w).2.machine.regs.status.overflow := by
  have noted (binary decimal : UInt8 → UInt8 → Bool → Alu.Result) :
      ((Micro.arithmetic binary decimal operand).run host w).2.instruments.sample.overflow =
        ((Micro.arithmetic binary decimal operand).run host w).2.machine.regs.status.overflow := by
    unfold Micro.arithmetic
    simp only [run_bind]
    rfl
  rcases arithmetic with rfl | rfl
  · exact noted Alu.addBinary Alu.addDecimal
  · exact noted Alu.subtractBinary Alu.subtractDecimal

end Micro

/-- Whether a micro-operation changes a byte of memory where it is not caught. -/
def MicroOp.alters : MicroOp → World σ → Bool
  | .store addr value, w =>
    !(w.machine.mem.state addr).rom && !(w.machine.mem.state addr).undefined &&
      w.machine.mem.raw addr != value
  | _, _ => false

theorem MicroOp.stored_note (op : MicroOp) (w : World σ) :
    (op.note w).stored = (w.instruments.stored || op.alters w) := by
  cases op with
  | store addr value =>
    unfold note alters
    dsimp only
    cases (w.machine.mem.state addr).rom with
    | true => simp
    | false =>
      cases (w.machine.mem.state addr).undefined with
      | true => simp
      | false => simp [World.noteStore]
  | _ => exact (Bool.or_false _).symm

namespace Micro

/-- Whether a program changes a byte of memory itself when it has come to its last hook. -/
def altersLast (host : Host σ) : Micro α → World σ → Bool
  | done _, _ => false
  | step op next, w =>
    let rest := next (op.perform host w).1
    let v := (op.perform host w).2
    ((op.invocation? w).isNone && (rest.invocations host v).isEmpty && op.alters w) ||
      rest.altersLast host v

@[simp]
theorem altersLast_step (host : Host σ) (op : MicroOp) (next : op.Answer → Micro α) (w : World σ) :
    (step op next).altersLast host w =
      ((op.invocation? w).isNone &&
          ((next (op.perform host w).1).invocations host (op.perform host w).2).isEmpty &&
          op.alters w ||
        (next (op.perform host w).1).altersLast host (op.perform host w).2) := rfl

/-- The mark of a store is what the last hook leaves there, and is set if the program changes a byte behind that. -/
theorem stored_run (host : Host σ) (program : Micro α) (w : World σ) :
    (program.run host w).2.instruments.stored =
      (lastSeen host (·.stored) w.instruments.stored (program.invocations host w) ||
        program.altersLast host w) := by
  induction program generalizing w with
  | done result => exact (Bool.or_false _).symm
  | step op next inductionHypothesis =>
    have rest := inductionHypothesis (op.perform host w).1 (op.perform host w).2
    rw [run_step, rest, invocations_step, altersLast_step]
    cases invoked : op.invocation? w with
    | none =>
      rw [congrArg World.instruments (op.perform_of_silent host invoked), op.stored_note]
      -- A change of memory counts only if no hook is still to come, which would override the mark.
      generalize (next (op.perform host w).1).invocations host (op.perform host w).2 = called
      cases called with
      | nil => simp [Bool.or_assoc]
      | cons asked later => simp
    | some asked =>
      rw [op.perform_of_invocation host invoked, asked.instruments_settled]
      simp

end Micro

namespace World

section

variable (host : Host σ) (pc : UInt16) (w : World σ)

/-- The operand of the instruction at an address, and the world in which it is found. -/
def located : Operand × World σ :=
  (Micro.resolve (w.instruction host pc).mode (w.fetched host pc).1.2).run host (w.poised host pc)

/-- Whether the instruction at an address pays for a page that indexing has crossed. -/
def paysCross : Bool :=
  (w.instruction host pc).mnemonic.paysPageCross && (w.located host pc).1.pageCross

def charged : World σ :=
  ((Micro.chargeFor (w.instruction host pc) (w.located host pc).1).run host
    (w.located host pc).2).2

def operandInvocations : List (Invocation σ) :=
  (Micro.resolve (w.instruction host pc).mode (w.fetched host pc).1.2).invocations host
    (w.poised host pc)

def mnemonicInvocations : List (Invocation σ) :=
  (Micro.ofMnemonic (w.instruction host pc).mnemonic (w.located host pc).1).invocations host
    (w.charged host pc)

theorem exists_instruction_eq_decode :
    ∃ opcode, w.instruction host pc = Instruction.decode opcode := by
  refine ⟨((Micro.fetch pc).run host (w.traceInstruction pc)).1, ?_⟩
  unfold World.instruction fetched Micro.fetchInstruction
  rw [Micro.run_bind]
  generalize (Micro.fetch pc).run host (w.traceInstruction pc) = result
  by_cases two : 1 < (Instruction.decode result.1).length
  · by_cases three : 2 < (Instruction.decode result.1).length <;> simp [two, three]
  · by_cases three : 2 < (Instruction.decode result.1).length <;> simp [two, three]

theorem sample_poised : (w.poised host pc).instruments.sample = {} := by
  have cleared (v : World σ) : v.clearSample.instruments.sample = {} := rfl
  unfold poised
  rw [cleared]

theorem stored_poised : (w.poised host pc).instruments.stored = false := by
  have cleared (v : World σ) : v.clearSample.instruments.stored = false := rfl
  unfold poised
  rw [cleared]

theorem indexCross_charged :
    (w.charged host pc).instruments.sample.indexCross =
      (w.paysCross host pc || (w.located host pc).2.instruments.sample.indexCross) := by
  unfold charged paysCross
  generalize w.located host pc = result
  unfold Micro.chargeFor
  by_cases pays : ((w.instruction host pc).mnemonic.paysPageCross && result.1.pageCross) = true
  · simp only [pays, if_true, Micro.run_bind, Bool.true_or]
    rfl
  · simp only [pays, Bool.false_eq_true, if_false, Micro.run_bind, Bool.false_or]
    rfl

/-- A documented instruction finds its operand, is charged for, and does the work of its mnemonic. -/
theorem worked_of_documented
    (documented : (w.instruction host pc).mnemonic ≠ .undocumented) :
    w.worked host pc =
        ((Micro.ofMnemonic (w.instruction host pc).mnemonic (w.located host pc).1).run host
          (w.charged host pc)).2 ∧
      w.workInvocations host pc = w.operandInvocations host pc ++ w.mnemonicInvocations host pc := by
  unfold worked workInvocations work
  rw [Micro.ofInstruction_eq documented]
  constructor
  · rw [Micro.run_bind, Micro.run_bind]
    rfl
  · rw [Micro.invocations_bind, Micro.invocations_bind, Micro.invocations_chargeFor,
      List.nil_append]
    rfl

theorem relative_of_isBranch (branches : (w.instruction host pc).mnemonic.isBranch = true) :
    (w.instruction host pc).mode = .relative := by
  obtain ⟨opcode, decoded⟩ := w.exists_instruction_eq_decode host pc
  rw [decoded] at branches ⊢
  exact Instruction.mode_of_isBranch branches

/-- A branch has its own entry, for it comes to no hook in its work. -/
theorem branch_retiredSample_of_isBranch
    (branches : (w.instruction host pc).mnemonic.isBranch = true) :
    (w.retiredSample host pc).branch.isSome = true := by
  have documented := Mnemonic.documented_of_isBranch branches
  -- Only the operand of a relative instruction is a target, which is what a branch makes a note for.
  have relative := w.relative_of_isBranch host pc branches
  have target : ∃ target, (w.located host pc).1 = .branch target := by
    unfold located
    rw [relative]
    exact ⟨_, rfl⟩
  obtain ⟨target, operand⟩ := target
  simp only [retiredSample, finishedSample]
  rw [(w.worked_of_documented host pc documented).1, operand]
  exact Micro.branch_ofMnemonic host branches target _

/-- What an instruction has no observation for is in its sample as its last hook leaves it. -/
theorem seen_worked (view : Sample → β)
    (quiet : ∀ observation, (observation == .indexCross ||
      (w.instruction host pc).mnemonic.observes observation) = true →
        ∀ sample : Sample, view (sample.observe observation) = view sample) :
    view (w.worked host pc).instruments.sample =
      lastSeen host (fun instruments => view instruments.sample) (view {})
        (w.workInvocations host pc) := by
  have seen := (Micro.observes_ofInstruction (w.instruction host pc) (w.fetched host pc).1.2).seen_run
    host view quiet (w.poised host pc)
  rw [sample_poised] at seen
  unfold worked workInvocations work
  exact seen

theorem branch_retiredSample (other : (w.instruction host pc).mnemonic.isBranch = false) :
    (w.retiredSample host pc).branch =
      lastSeen host (·.sample.branch) none (w.workInvocations host pc) := by
  have quiet (observation : Observation) (allowed : (observation == .indexCross ||
      (w.instruction host pc).mnemonic.observes observation) = true) (sample : Sample) :
      (sample.observe observation).branch = sample.branch := by
    cases observation with
    | branch taken => simp [other] at allowed
    | _ => rfl
  simp only [retiredSample, finishedSample]
  exact w.seen_worked host pc Sample.branch quiet

theorem overflow_retiredSample_of_arithmetic
    (arithmetic : (w.instruction host pc).mnemonic = .adc ∨ (w.instruction host pc).mnemonic = .sbc) :
    (w.retiredSample host pc).overflow = (w.worked host pc).machine.regs.status.overflow := by
  have documented : (w.instruction host pc).mnemonic ≠ .undocumented := by
    rcases arithmetic with adc | sbc
    · rw [adc]
      exact Mnemonic.noConfusion
    · rw [sbc]
      exact Mnemonic.noConfusion
  simp only [retiredSample, finishedSample]
  rw [(w.worked_of_documented host pc documented).1]
  exact Micro.overflow_ofMnemonic host arithmetic _ _

theorem overflow_retiredSample
    (other : ¬((w.instruction host pc).mnemonic = .adc ∨ (w.instruction host pc).mnemonic = .sbc)) :
    (w.retiredSample host pc).overflow =
      lastSeen host (·.sample.overflow) false (w.workInvocations host pc) := by
  have quiet (observation : Observation) (allowed : (observation == .indexCross ||
      (w.instruction host pc).mnemonic.observes observation) = true) (sample : Sample) :
      (sample.observe observation).overflow = sample.overflow := by
    cases observation with
    | overflow value => simp [not_or.mp other] at allowed
    | _ => rfl
  simp only [retiredSample, finishedSample]
  exact w.seen_worked host pc Sample.overflow quiet

/-- The note of a crossed page is made between the hooks that finding the operand comes to, and those that the work
of the mnemonic comes to. -/
theorem indexCross_retiredSample :
    (w.retiredSample host pc).indexCross =
      lastSeen host (·.sample.indexCross)
        (w.paysCross host pc ||
          lastSeen host (·.sample.indexCross) false (w.operandInvocations host pc))
        (w.mnemonicInvocations host pc) := by
  simp only [retiredSample, finishedSample]
  by_cases undocumented : (w.instruction host pc).mnemonic = .undocumented
  · obtain ⟨opcode, decoded⟩ := w.exists_instruction_eq_decode host pc
    have single : w.instruction host pc = .undocumented := by
      rw [decoded] at undocumented ⊢
      exact Instruction.decode_eq_undocumented undocumented
    have work (value : UInt16) : Micro.ofInstruction .undocumented value = Micro.reject := rfl
    have rejected (v : World σ) :
        (Micro.reject.run host v).2.instruments.sample = v.instruments.sample := rfl
    unfold worked World.work paysCross operandInvocations mnemonicInvocations
    rw [single, work, rejected, sample_poised]
    rfl
  · have located : (w.located host pc).2.instruments.sample.indexCross =
        lastSeen host (·.sample.indexCross) false (w.operandInvocations host pc) := by
      have seen := (Micro.observes_resolve (w.instruction host pc).mode
        (w.fetched host pc).1.2).seen_run host Sample.indexCross
          (fun _ none_allowed => absurd none_allowed Bool.false_ne_true) (w.poised host pc)
      rw [sample_poised] at seen
      unfold located operandInvocations
      exact seen
    have quiet (observation : Observation)
        (allowed : (w.instruction host pc).mnemonic.observes observation = true) (sample : Sample) :
        (sample.observe observation).indexCross = sample.indexCross := by
      cases observation with
      | indexCross => cases allowed
      | _ => rfl
    have seen := (Micro.observes_ofMnemonic (w.instruction host pc).mnemonic
      (w.located host pc).1).seen_run host Sample.indexCross quiet (w.charged host pc)
    rw [indexCross_charged, located] at seen
    rw [(w.worked_of_documented host pc undocumented).1]
    exact seen

theorem effect_retiredSample :
    (w.retiredSample host pc).effect =
      (lastSeen host (·.stored) false (w.workInvocations host pc) ||
        (w.work host pc).altersLast host (w.poised host pc) ||
        (w.worked host pc).machine.regs.pc != w.nextAddress host pc ||
        (w.poised host pc).machine.regs.differsVisibly (w.worked host pc).machine.regs) := by
  have stored := (w.work host pc).stored_run host (w.poised host pc)
  rw [stored_poised] at stored
  simp only [retiredSample, finishedSample]
  unfold worked workInvocations
  rw [stored]

end

/-- What the profile is told about an instruction is its own exactly if its hooks leave the sample and the mark of a
store in order. It has the entry of a branch if and only if it is one, exactly if it is one or its last hook leaves
none; it has a crossed page if and only if it pays for one, exactly if the last hook behind the note leaves what the
instruction has noted, and no hook before it leaves another; it has an overflow if and only if it is an addition or
subtraction that sets the flag, exactly if it is one of them or its last hook leaves none; and having come to a write
hook it has an effect, exactly if its last hook leaves the mark, or the instruction alters memory behind it, goes
elsewhere, or changes what is seen of the registers. -/
theorem sample_own_iff (host : Host σ) (pc : UInt16) (w : World σ) :
    (w.runInstruction host pc).instruments.profile =
        (w.worked host pc).instruments.profile.map (·.record pc (w.retiredSample host pc)) ∧
      (((w.retiredSample host pc).branch.isSome = true ↔
          (w.instruction host pc).mnemonic.isBranch = true) ↔
        (w.instruction host pc).mnemonic.isBranch = true ∨
          lastSeen host (·.sample.branch) none (w.workInvocations host pc) = none) ∧
      (((w.retiredSample host pc).indexCross = true ↔ w.paysCross host pc = true) ↔
        lastSeen host (·.sample.indexCross)
          (w.paysCross host pc ||
            lastSeen host (·.sample.indexCross) false (w.operandInvocations host pc))
          (w.mnemonicInvocations host pc) = w.paysCross host pc) ∧
      (((w.retiredSample host pc).overflow = true ↔
          ((w.instruction host pc).mnemonic = .adc ∨ (w.instruction host pc).mnemonic = .sbc) ∧
            (w.worked host pc).machine.regs.status.overflow = true) ↔
        ((w.instruction host pc).mnemonic = .adc ∨ (w.instruction host pc).mnemonic = .sbc) ∨
          lastSeen host (·.sample.overflow) false (w.workInvocations host pc) = false) ∧
      (((∃ asked ∈ w.workInvocations host pc, asked.access.kind = .write) →
          (w.retiredSample host pc).effect = true) ↔
        ((∃ asked ∈ w.workInvocations host pc, asked.access.kind = .write) →
          lastSeen host (·.stored) false (w.workInvocations host pc) = true ∨
            (w.work host pc).altersLast host (w.poised host pc) = true ∨
            (w.worked host pc).machine.regs.pc ≠ w.nextAddress host pc ∨
            (w.poised host pc).machine.regs.differsVisibly
              (w.worked host pc).machine.regs = true)) := by
  refine ⟨?recorded, ?branch, ?indexCross, ?overflow, ?effect⟩
  case recorded =>
    have sampled (v : World σ) (sample : Sample) : (v.profileSample pc sample).instruments.profile =
        v.instruments.profile.map (·.record pc sample) := rfl
    rw [runInstruction_eq, sampled, profile_meter]
  case branch =>
    by_cases branches : (w.instruction host pc).mnemonic.isBranch = true
    · simp [branches, w.branch_retiredSample_of_isBranch host pc branches]
    · have entry := w.branch_retiredSample host pc (eq_false_of_ne_true branches)
      rw [entry]
      simp [branches]
  case indexCross =>
    rw [w.indexCross_retiredSample host pc]
    exact Bool.eq_iff_iff.symm
  case overflow =>
    by_cases arithmetic : (w.instruction host pc).mnemonic = .adc ∨
        (w.instruction host pc).mnemonic = .sbc
    · rw [w.overflow_retiredSample_of_arithmetic host pc arithmetic]
      simp [arithmetic]
    · rw [w.overflow_retiredSample host pc arithmetic]
      simp [arithmetic]
  case effect =>
    rw [w.effect_retiredSample host pc]
    simp [or_assoc]

/-- STA $10, BRK. -/
def storedCall : World Unit :=
  hookedProgram 0x85 .write

/-- The store comes to the write hook, and the RTS that the hook runs takes its mark away. -/
theorem storedCall_counted_without_effect :
    (∃ asked ∈ storedCall.workInvocations caller 0, asked.access.kind = .write) ∧
      (storedCall.retiredSample caller 0).effect = false ∧
      (storedCall.operate caller .step).2.instruments.profile.map
        (fun profile => (profile.cell 0).noEffect) = some 1 := by
  decide +kernel

end World

end Mos6502
