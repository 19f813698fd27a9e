import Mos6502.CommandLine.Program
import Mos6502.Proofs.Footprint
import Mos6502.World.Setup

/-!
# What holds of a status in every run

Two bits of the status always read as set, and only arithmetic flags can be unknown. No instruction breaks this, not
even one that loads the status from memory. A flag that is known stays known unless it is forgotten, and nothing is
forgotten but by a BIT that finds a cell blank. It forgets the flags that it would have set.
-/

namespace Mos6502

variable {σ α : Type}

/-- The flags that BIT sets. -/
def Flags.tested : Flags :=
  { negative := true, overflow := true, zero := true }

namespace Registers

/-- The value of a flag is established. -/
def Knows (regs : Registers) (flag : Flag) : Prop :=
  regs.unknown.get flag = false

/-- The bits that always read as set are set, and no flag is unknown but arithmetic ones. -/
structure Regular (regs : Registers) : Prop where
  stored : ∀ flag, Flags.alwaysSet.get flag = true → regs.status.get flag = true
  unknown : ∀ flag, regs.unknown.get flag = true → Flags.arithmetic.get flag = true

theorem regular_default : ({} : Registers).Regular := by
  constructor <;> intro flag <;> cases flag <;> decide

theorem regular_setStatus (regs : Registers) (byte : UInt8) : (regs.setStatus byte).Regular := by
  constructor
  · intro flag always
    exact ((Flags.ofByte byte).get_union .alwaysSet flag).trans (by rw [always, Bool.or_true])
  · intro flag unknown
    cases flag <;> cases unknown

variable {regs : Registers} {flag : Flag}

theorem Regular.startAt (regular : regs.Regular) (pc : UInt16) : Regular { regs with pc } :=
  ⟨regular.stored, regular.unknown⟩

theorem Regular.learn (regular : regs.Regular) (which : Flag) :
    Regular { regs with unknown := regs.unknown.set which false } := by
  refine ⟨regular.stored, ?_⟩
  intro other unknown
  by_cases same : other = which
  · subst same
    rw [Flags.get_set_self] at unknown
    cases unknown
  · rw [Flags.get_set_of_ne _ _ same] at unknown
    exact regular.unknown other unknown

theorem Regular.setFlag (regular : regs.Regular) {which : Flag}
    (free : Flags.alwaysSet.get which = false) (value : Bool) : (regs.setFlag which value).Regular := by
  refine ⟨?_, (regular.learn which).unknown⟩
  intro other always
  have different : other ≠ which := by
    rintro rfl
    rw [free] at always
    cases always
  exact (Flags.get_set_of_ne _ value different).trans (regular.stored other always)

theorem Regular.forget (regular : regs.Regular) : (regs.forget .tested).Regular := by
  refine ⟨regular.stored, ?_⟩
  intro other unknown
  change (regs.unknown.union .tested).get other = true at unknown
  rw [Flags.get_union, Bool.or_eq_true] at unknown
  rcases unknown with before | tested
  · exact regular.unknown other before
  · cases other <;> first | rfl | cases tested

theorem Knows.learn (known : regs.Knows flag) (which : Flag) :
    Knows { regs with unknown := regs.unknown.set which false } flag := by
  by_cases same : flag = which
  · subst same
    exact Flags.get_set_self _ _ _
  · exact (Flags.get_set_of_ne _ _ same).trans known

theorem Knows.startAt (known : regs.Knows flag) (pc : UInt16) : Knows { regs with pc } flag :=
  known

theorem Knows.setStatus (regs : Registers) (byte : UInt8) (flag : Flag) :
    (regs.setStatus byte).Knows flag := by
  cases flag <;> rfl

end Registers

namespace MicroOp

/-- The micro-operations that write none of the bits that always read as set, and forget only what BIT sets. -/
def Regular : MicroOp → Prop
  | .setFlag which _ => Flags.alwaysSet.get which = false
  | .forget mask => mask = .tested
  | _ => True

/-- The micro-operations that do not forget a flag. -/
def Recalls (flag : Flag) : MicroOp → Prop
  | .forget mask => mask.get flag = false
  | _ => True

theorem Regular.recalls {op : MicroOp} (regular : op.Regular) {flag : Flag}
    (untested : Flags.tested.get flag = false) : op.Recalls flag := by
  cases op with
  | forget mask =>
    cases regular
    exact untested
  | _ => trivial

theorem regular_effect {op : MicroOp} {m : Machine} (allowed : op.Regular) (regular : m.regs.Regular) :
    (op.effect m).2.regs.Regular := by
  cases op with
  | fetch addr | load addr =>
    change (m.noteRead _ _ addr).regs.Regular
    rw [m.regs_noteRead]
    exact regular
  | store addr value =>
    change (m.write addr value).regs.Regular
    rw [m.regs_write]
    exact regular
  | flag which =>
    change (m.noteFlag which).regs.Regular
    unfold Machine.noteFlag
    split
    · exact regular.learn which
    · exact regular
  | setRegister target value =>
    cases target <;> exact ⟨regular.stored, regular.unknown⟩
  | setFlag which value => exact regular.setFlag allowed value
  | forget mask =>
    cases allowed
    exact regular.forget
  | setStatus value => exact m.regs.regular_setStatus value
  | setPc addr => exact regular.startAt addr
  | isBlank | register | pc | status | here | raise | charge | observe => exact regular

theorem knows_effect {op : MicroOp} {m : Machine} {flag : Flag} (recalled : op.Recalls flag)
    (known : m.regs.Knows flag) : (op.effect m).2.regs.Knows flag := by
  cases op with
  | fetch addr | load addr =>
    change (m.noteRead _ _ addr).regs.Knows flag
    rw [m.regs_noteRead]
    exact known
  | store addr value =>
    change (m.write addr value).regs.Knows flag
    rw [m.regs_write]
    exact known
  | flag which =>
    change (m.noteFlag which).regs.Knows flag
    unfold Machine.noteFlag
    split
    · exact known.learn which
    · exact known
  | setRegister target value => cases target <;> exact known
  | setFlag which value => exact known.learn which
  | forget mask =>
    have kept : mask.get flag = false := recalled
    exact (m.regs.unknown.get_union mask flag).trans (by rw [kept, Bool.or_false, known])
  | setStatus value => exact .setStatus m.regs value flag
  | setPc addr => exact known.startAt addr
  | isBlank | register | pc | status | here | raise | charge | observe => exact known

end MicroOp

namespace Micro

/-- What single micro-operations keep of the registers, programs made of them keep. -/
theorem exec_keeps {P : Registers → Prop} {allowed : MicroOp → Prop}
    (each : ∀ {op m}, allowed op → P m.regs → P (op.effect m).2.regs) {program : Micro α}
    (uses : program.Uses allowed) {m : Machine} (holds : P m.regs) : P (program.exec m).2.regs := by
  induction program generalizing m with
  | done result => exact holds
  | step op next inductionHypothesis =>
    obtain ⟨here, later⟩ := uses
    exact inductionHypothesis _ (later _) (each here holds)

theorem regular_loadOperand (operand : Operand) : (loadOperand operand).Uses MicroOp.Regular := by
  cases operand <;> simp [loadOperand, MicroOp.Regular]

theorem regular_storeOperand (operand : Operand) (value : UInt8) :
    (storeOperand operand value).Uses MicroOp.Regular := by
  cases operand <;> simp [storeOperand, MicroOp.Regular]

theorem regular_push (value : UInt8) : (push value).Uses MicroOp.Regular := by
  simp [push, MicroOp.Regular]

theorem regular_pull : pull.Uses MicroOp.Regular := by
  simp [pull, MicroOp.Regular]

theorem regular_ofMnemonic (mnemonic : Mnemonic) (operand : Operand) :
    (ofMnemonic mnemonic operand).Uses MicroOp.Regular := by
  have loads := regular_loadOperand operand
  have stores := regular_storeOperand operand
  cases mnemonic with
  | bit =>
    cases operand <;> simp [ofMnemonic, testBits, MicroOp.Regular, Flags.alwaysSet, Flags.get, Flags.tested]
  | jmp => cases operand <;> simp [ofMnemonic, jump, MicroOp.Regular]
  | jsr =>
    cases operand <;> simp [ofMnemonic, jumpToSubroutine, pushWord, regular_push, MicroOp.Regular]
  | bcc | bcs | bne | beq | bpl | bmi | bvc | bvs =>
    cases operand <;> simp [ofMnemonic, branchIf, takeBranch, MicroOp.Regular]
  | asl | lsr | rol | ror | inc | dec =>
    simp [ofMnemonic, shift, rotate, stepOperand, modify, setShift, setZeroNegative, loads, stores,
      MicroOp.Regular, Flags.alwaysSet, Flags.get]
  | pha | php | pla | plp | rts | rti =>
    simp [ofMnemonic, pullAccumulator, pushStatus, returnFromSubroutine, returnFromInterrupt, pullWord,
      setResult, setZeroNegative, regular_push, regular_pull, MicroOp.Regular, Flags.alwaysSet, Flags.get]
  | adc | sbc | cmp | cpx | cpy =>
    simp [ofMnemonic, arithmetic, compareWith, setComparison, loads, MicroOp.Regular, Flags.alwaysSet,
      Flags.get]
  | _ =>
    simp [ofMnemonic, loadInto, storeFrom, combine, stepRegister, transfer, setResult, setZeroNegative,
      loads, stores, MicroOp.Regular, Flags.alwaysSet, Flags.get]

theorem regular_ofInstruction (instruction : Instruction) (value : UInt16) :
    (ofInstruction instruction value).Uses MicroOp.Regular := by
  by_cases undocumented : instruction.mnemonic = .undocumented
  · unfold ofInstruction
    rw [if_pos undocumented]
    simp [reject, MicroOp.Regular]
  · have resolved : (resolve instruction.mode value).Uses MicroOp.Regular := by
      cases instruction.mode <;> simp [resolve, loadZeroPageWord, loadWord, MicroOp.Regular]
    rw [ofInstruction_eq undocumented]
    simp [resolved, chargeFor, regular_ofMnemonic, MicroOp.Regular]

theorem regular_exec_ofInstruction (instruction : Instruction) (value : UInt16) {m : Machine}
    (regular : m.regs.Regular) : ((ofInstruction instruction value).exec m).2.regs.Regular :=
  exec_keeps MicroOp.regular_effect (regular_ofInstruction instruction value) regular

section

variable {flag : Flag} {instruction : Instruction} {m : Machine}

theorem knows_exec {program : Micro α} (recalls : program.Uses (MicroOp.Recalls flag))
    (known : m.regs.Knows flag) : (program.exec m).2.regs.Knows flag :=
  exec_keeps (P := (·.Knows flag)) MicroOp.knows_effect recalls known

/-- Flags that BIT does not set are never forgotten. -/
theorem knows_exec_of_untested (untested : Flags.tested.get flag = false) (value : UInt16)
    (known : m.regs.Knows flag) : ((ofInstruction instruction value).exec m).2.regs.Knows flag := by
  refine knows_exec ?_ known
  exact (regular_ofInstruction instruction value).imp fun _ regular => regular.recalls untested

/-- No mnemonic but BIT forgets a flag. -/
theorem knows_exec_of_other (other : instruction.mnemonic ≠ .bit) (value : UInt16)
    (known : m.regs.Knows flag) : ((ofInstruction instruction value).exec m).2.regs.Knows flag := by
  refine knows_exec ?_ known
  apply (uses_ofInstruction instruction value).imp
  intro op part
  cases op with
  | forget mask =>
    rcases part with works | crosses | ⟨-, here | raises⟩
    · exact absurd works other
    · cases crosses
    · cases here
    · cases raises
  | _ => trivial

end

/-- BIT leaves its flags known exactly if the cell is not blank. -/
theorem knows_testBits {flag : Flag} (tested : Flags.tested.get flag = true) (addr : UInt16)
    (pageCross : Bool) (m : Machine) :
    ((testBits (.memory addr pageCross)).exec m).2.regs.Knows flag ↔
      (m.mem.state addr).uninitialized = false := by
  have asked : (isBlank addr).exec m = ((m.mem.state addr).uninitialized, m) := rfl
  unfold testBits
  rw [exec_bind, asked]
  cases blank : (m.mem.state addr).uninitialized with
  | true =>
    refine iff_of_false ?_ Bool.noConfusion
    intro known
    change (m.regs.unknown.union .tested).get flag = false at known
    rw [Flags.get_union, tested, Bool.or_true] at known
    cases known
  | false =>
    refine iff_of_true ?_ rfl
    simp only [Bool.false_eq_true, if_false, exec_bind]
    change (((_ : Registers).setFlag .negative _).setFlag .overflow _ |>.setFlag .zero _).Knows flag
    cases flag <;> first | rfl | cases tested

end Micro

namespace Machine

/-- The next window executes a BIT that finds its cell blank: nothing was ever written to it. -/
structure TestsBlank (m : Machine) : Prop where
  belowLimit : m.limitReached = false
  awayFromSentinel : m.atSentinel = false
  bit : m.nextMnemonic = .bit
  blank : ∃ addr, m.nextOperand.address? = some addr ∧ m.staysBlank addr = true

variable {m : Machine}

/-- What fetching and the work of an instruction keep of the registers, a window keeps. -/
theorem window_keeps {P : Registers → Prop}
    (start : ∀ {regs : Registers} (pc : UInt16), P regs → P { regs with pc })
    (work : P m.poised.regs →
      P ((Micro.ofInstruction m.nextInstruction m.nextArgument).exec m.poised).2.regs)
    (holds : P m.regs) : P m.window.regs := by
  cases limit : m.limitReached with
  | true =>
    rw [window_of_limitReached limit]
    exact holds
  | false =>
    cases sentinel : m.atSentinel with
    | true =>
      rw [window_of_atSentinel limit sentinel]
      exact holds
    | false =>
      rw [window_of_going limit sentinel]
      apply work
      rw [regs_poised]
      exact start m.afterNext holds

theorem regs_step (m : Machine) : m.step.2.regs = m.window.regs := rfl

theorem regular_step (regular : m.regs.Regular) : m.step.2.regs.Regular := by
  rw [regs_step]
  refine window_keeps (fun pc regular => regular.startAt pc) ?_ regular
  exact Micro.regular_exec_ofInstruction m.nextInstruction m.nextArgument

/-- A flag that BIT does not set stays known. -/
theorem knows_step {flag : Flag} (untested : Flags.tested.get flag = false)
    (known : m.regs.Knows flag) : m.step.2.regs.Knows flag := by
  rw [regs_step]
  refine window_keeps (P := (·.Knows flag)) (fun pc known => known.startAt pc) ?_ known
  exact Micro.knows_exec_of_untested untested m.nextArgument

/-- The window of a BIT works its test on the operand, with cells as fetching has left them. -/
theorem window_of_bit (below : m.limitReached = false) (away : m.atSentinel = false)
    (bit : m.nextMnemonic = .bit) :
    ∃ n : Machine, m.window = ((Micro.testBits m.nextOperand).exec n).2 ∧
      n.regs = m.poised.regs ∧
      ∀ addr, (n.mem.state addr).uninitialized = m.staysBlank addr := by
  have named : m.nextInstruction.mnemonic = .bit := bit
  have documented : m.nextInstruction.mnemonic ≠ .undocumented := by
    rw [named]
    decide
  refine ⟨((Micro.chargeFor m.nextInstruction m.nextOperand).exec
    ((Micro.resolve m.nextInstruction.mode m.nextArgument).exec m.poised).2).2, ?_, ?_, ?_⟩
  · rw [window_of_going below away, Micro.ofInstruction_eq documented, Micro.exec_bind,
      exec_resolve_poised, Micro.exec_bind, named]
    rfl
  · rw [Micro.regs_chargeFor, Micro.regs_resolve]
  · intro addr
    rw [Micro.mem_chargeFor]
    exact m.uninitialized_resolve bit addr

/-- A known flag among those that BIT sets is forgotten exactly by a BIT that finds its cell blank. -/
theorem not_knows_step_iff {flag : Flag} (tested : Flags.tested.get flag = true)
    (known : m.regs.Knows flag) : ¬m.step.2.regs.Knows flag ↔ m.TestsBlank := by
  rw [regs_step]
  constructor
  · intro forgotten
    have below : m.limitReached = false := by
      by_contra reached
      rw [window_of_limitReached (eq_true_of_ne_false reached)] at forgotten
      exact forgotten known
    have away : m.atSentinel = false := by
      by_contra sentinel
      rw [window_of_atSentinel below (eq_true_of_ne_false sentinel)] at forgotten
      exact forgotten known
    have poised : m.poised.regs.Knows flag := by
      rw [regs_poised]
      exact known.startAt m.afterNext
    have bit : m.nextMnemonic = .bit := by
      by_contra other
      have named : m.nextInstruction.mnemonic ≠ .bit := other
      rw [window_of_going below away] at forgotten
      exact forgotten (Micro.knows_exec_of_other named m.nextArgument poised)
    refine ⟨below, away, bit, ?_⟩
    obtain ⟨n, window, regs, cells⟩ := window_of_bit below away bit
    rw [window] at forgotten
    cases operand : m.nextOperand with
    | memory addr pageCross =>
      rw [operand, Micro.knows_testBits tested, cells] at forgotten
      exact ⟨addr, rfl, eq_true_of_ne_false forgotten⟩
    | none | accumulator | immediate | branch =>
      rw [operand] at forgotten
      refine absurd ?_ forgotten
      change n.regs.Knows flag
      rw [regs]
      exact poised
  · rintro ⟨below, away, bit, addr, operand, blank⟩
    obtain ⟨n, window, -, cells⟩ := window_of_bit below away bit
    rw [window]
    cases shape : m.nextOperand with
    | memory other pageCross =>
      rw [shape] at operand
      cases operand
      rw [Micro.knows_testBits tested, cells, blank]
      exact Bool.noConfusion
    | none | accumulator | immediate | branch =>
      rw [shape] at operand
      cases operand

theorem regular_afterSteps (regular : m.regs.Regular) (count : Nat) :
    (m.afterSteps count).regs.Regular := by
  induction count with
  | zero => exact regular
  | succ count inductionHypothesis => exact regular_step inductionHypothesis

theorem knows_afterSteps {flag : Flag} (untested : Flags.tested.get flag = false) {count later : Nat}
    (le : count ≤ later) (known : (m.afterSteps count).regs.Knows flag) :
    (m.afterSteps later).regs.Knows flag := by
  induction le with
  | refl => exact known
  | step _ inductionHypothesis => exact knows_step untested inductionHypothesis

end Machine

namespace World

/-- The status of a world without hooks is regular at all times. Carry and decimal, which BIT does not set, stay known
once they are known. Negative, overflow and zero are forgotten in the step of a BIT that finds its cell blank, and in no
other. -/
theorem status_invariants (host : Host σ) {w : World σ} (free : w.machine.HookFree)
    (regular : w.machine.regs.Regular) :
    (∀ count, (w.afterSteps host count).machine.regs.Regular) ∧
      (∀ flag, Flags.tested.get flag = false → ∀ count later, count ≤ later →
        (w.afterSteps host count).machine.regs.Knows flag →
          (w.afterSteps host later).machine.regs.Knows flag) ∧
      ∀ flag, Flags.tested.get flag = true → ∀ count,
        (w.afterSteps host count).machine.regs.Knows flag →
          (¬(w.afterSteps host (count + 1)).machine.regs.Knows flag ↔
            (w.afterSteps host count).machine.TestsBlank) := by
  have bare (count : Nat) : (w.afterSteps host count).machine = w.machine.afterSteps count :=
    afterSteps_bare host count free
  simp only [bare]
  refine ⟨Machine.regular_afterSteps regular, ?_, ?_⟩
  · intro flag untested count later le known
    exact Machine.knows_afterSteps untested le known
  · intro flag tested count known
    rw [Machine.afterSteps_succ]
    exact Machine.not_knows_step_iff tested known

/-- Loads the accumulator and tests a cell that nobody has written. -/
def testUnwritten : World Unit :=
  ((ofSettings { memSize := 8 } {} ()).mapMem (·.declareData 0 [0xA9, 0x00, 0x24, 0x06])).mapMem
    (·.declareRam 6 1 false)

theorem testUnwritten_forgets :
    testUnwritten.machine.HookFree ∧ testUnwritten.machine.regs.Regular ∧
      (∀ count, (testUnwritten.afterSteps CommandLine.hooklessHost count).machine.regs.Regular) ∧
      (testUnwritten.afterSteps CommandLine.hooklessHost 1).machine.regs.Knows .zero ∧
      ¬(testUnwritten.afterSteps CommandLine.hooklessHost 2).machine.regs.Knows .zero := by
  have free : testUnwritten.machine.HookFree := rfl
  have regular : testUnwritten.machine.regs.Regular := Registers.regular_default
  obtain ⟨always, -, forgets⟩ := status_invariants CommandLine.hooklessHost free regular
  have known : (testUnwritten.afterSteps CommandLine.hooklessHost 1).machine.regs.Knows .zero := by
    unfold Registers.Knows
    decide +kernel
  have tests : (testUnwritten.afterSteps CommandLine.hooklessHost 1).machine.TestsBlank :=
    ⟨by decide +kernel, by decide +kernel, by decide +kernel, 6, by decide +kernel, by decide +kernel⟩
  have forgotten := (forgets .zero rfl 1 known).mpr tests
  simp only [Nat.reduceAdd] at forgotten
  exact ⟨free, regular, always, known, forgotten⟩

end World

end Mos6502
