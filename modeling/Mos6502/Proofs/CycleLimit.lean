import Mos6502.Proofs.Bare.Unseen
import Mos6502.Proofs.WindowCost

/-!
# The cycle limit and the runs it ends

A window that works off a documented instruction costs two cycles or more. A window that meets an undocumented
encoding costs nothing: it records a fault that stops every run, unless the fetch of the opcode has recorded a
milder one before. The fetch of a never-written cell does so only once. The fetch of an undeclared cell does so
each time, and where it does not stop execution nothing else does: the machine is stuck.

So twice the cycles that are left, and one more while the cell at the program counter is never written, is a
measure that every window makes smaller, and stuck machines are the only ones that a cycle limit does not stop. This
takes a limit that the counter cannot pass by starting again at zero: no window begins at the limit, and none costs more
than seven cycles, so six cycles above the limit are room enough.
-/

namespace Mos6502

namespace Machine

/-- A machine at an undocumented encoding in undeclared memory, where no memory error stops execution. Its
windows leave it as it is. -/
structure Stuck (m : Machine) : Prop where
  lenient : m.level = .none
  belowLimit : m.limitReached = false
  awayFromSentinel : m.atSentinel = false
  undeclared : (m.mem.state m.regs.pc).undefined = true
  undocumented : m.nextMnemonic = .undocumented

/-- The measure of a run below its cycle limit. -/
def rank (m : Machine) : Nat :=
  2 * (m.limit.toNat - m.cycles.toNat) + (m.mem.state m.regs.pc).uninitialized.toNat

end Machine

namespace Micro

/-- An undocumented encoding is reported behind whatever its fetch has reported, and execution stays at it. -/
theorem exec_instructionAt_of_undocumented (pc : UInt16) {m : Machine} (current : m.current = pc)
    (undocumented : (Instruction.decode (m.mem.raw pc)).mnemonic = .undocumented) :
    ((instructionAt pc).exec m).2 =
      ((m.noteRead .executeUndefined .executeUninitialized pc).startAt pc).raise .illegal pc := by
  have described := Instruction.decode_eq_undocumented undocumented
  have stillCurrent :
      (m.noteRead .executeUndefined .executeUninitialized pc).current = pc := by
    rw [Machine.current_eq (m.change_noteRead _ _ pc).fixture, current]
  rw [exec_instructionAt, exec_fetchInstruction_of_single described rfl]
  generalize m.noteRead .executeUndefined .executeUninitialized pc = n at stillCurrent
  change (reject.exec (n.startAt _)).2 = _
  simp [reject, Machine.mapRegs, Machine.startAt, Machine.raise, stillCurrent]

end Micro

theorem ErrorLevel.eq_none_of_not_isFatal {level : ErrorLevel}
    (passes : level.isFatal .executeUndefined = false) : level = .none := by
  cases level with
  | none => rfl
  | memory => simp [isFatal] at passes
  | full => simp [isFatal] at passes

theorem Memory.written_markInitialized (mem : Memory) (addr : UInt16) :
    ((mem.markInitialized addr).state addr).uninitialized = false := by
  cases found : mem.cell? addr <;>
    simp [state, markInitialized, found, Cell.asInitialized, CellState.undeclared]

namespace Machine

theorem cycles_lt_limit {m : Machine} (limited : m.limit ≠ 0) (below : m.limitReached = false) :
    m.cycles.toNat < m.limit.toNat := by
  simpa [limitReached, limited, UInt64.le_iff_toNat_le] using below

/-- Below a limit with room above it, a step adds to the counter what its window costs. -/
theorem toNat_cycles_step {m : Machine} (limited : m.limit ≠ 0) (room : m.limit.toNat + 6 < bound64)
    (below : m.limitReached = false) :
    m.step.2.cycles.toNat = m.cycles.toNat + m.windowCost := by
  have belowLimit := cycles_lt_limit limited below
  have cost := m.windowCost_le
  rw [cycles_step]
  exact toNat_add_ofNat (by omega)

theorem settle_eq_none_iff {m : Machine} {fault : Fault} (held : m.slot.fault = some fault) :
    m.settle.1 = none ↔ m.level.isFatal fault.kind = false := by
  simp [settle, held]

theorem settle_raise_of_isUnconditional {m : Machine} (empty : m.slot = {}) {kind : FaultKind}
    (unconditional : kind.isUnconditional = true) (addr : UInt16) :
    (m.raise kind addr).settle.1 = some ⟨kind, addr⟩ := by
  have held := fault_raise empty kind addr
  simp [settle, held, ErrorLevel.isFatal, unconditional]

/-- A step at an undocumented encoding is settled by the fetch, and by the encoding only behind it. -/
theorem step_of_undocumented {m : Machine} {pc : UInt16} (at_pc : m.regs.pc = pc)
    (below : m.limitReached = false) (away : m.atSentinel = false)
    (undocumented : (Instruction.decode (m.mem.raw pc)).mnemonic = .undocumented) :
    m.step = ((((m.enter pc).noteRead .executeUndefined .executeUninitialized pc).startAt
      pc).raise .illegal pc).settle := by
  have executed := Micro.exec_instructionAt_of_undocumented pc (m := m.enter pc) rfl undocumented
  rw [step, window_of_instruction below away, at_pc, executed]

/-- Behind the fetch of an undeclared cell the report of the encoding is lost. -/
theorem step_of_undeclared {m : Machine} {pc : UInt16} (at_pc : m.regs.pc = pc)
    (empty : m.slot = {}) (below : m.limitReached = false) (away : m.atSentinel = false)
    (undocumented : (Instruction.decode (m.mem.raw pc)).mnemonic = .undocumented)
    (undeclared : (m.mem.state pc).undefined = true) :
    m.step = ((m.enter pc).raise .executeUndefined pc).settle := by
  have enteredUndeclared : ((m.enter pc).mem.state pc).undefined = true := undeclared
  have held := fault_raise (m := m.enter pc) empty .executeUndefined pc
  have unmoved : ((m.enter pc).raise .executeUndefined pc).startAt pc =
      (m.enter pc).raise .executeUndefined pc := by
    simp only [startAt, mapRegs, raise, enter, ← at_pc]
  have lost : ((m.enter pc).raise .executeUndefined pc).raise .illegal pc =
      (m.enter pc).raise .executeUndefined pc := by
    unfold raise at held ⊢
    rw [FaultSlot.record_of_some held]
  rw [step_of_undocumented at_pc below away undocumented, noteRead_of_undefined enteredUndeclared,
    unmoved, lost]

/-- A window at an undocumented encoding that does not stop finds the machine stuck, or finds a cell that was
never written and leaves it as written. -/
theorem stuck_or_blank_of_running {m : Machine} {pc : UInt16} (at_pc : m.regs.pc = pc)
    (empty : m.slot = {}) (below : m.limitReached = false) (away : m.atSentinel = false)
    (undocumented : (Instruction.decode (m.mem.raw pc)).mnemonic = .undocumented)
    (running : m.step.1 = none) :
    m.Stuck ∨ (m.mem.state pc).uninitialized = true ∧
      m.step.2 = (m.enter pc).mapMem (·.markInitialized pc) := by
  cases undeclared : (m.mem.state pc).undefined with
  | true =>
    left
    rw [step_of_undeclared at_pc empty below away undocumented undeclared] at running
    have held := fault_raise (m := m.enter pc) empty .executeUndefined pc
    have passes : m.level.isFatal .executeUndefined = false := (settle_eq_none_iff held).mp running
    exact {
      lenient := ErrorLevel.eq_none_of_not_isFatal passes
      belowLimit := below
      awayFromSentinel := away
      undeclared := at_pc ▸ undeclared
      undocumented := nextMnemonic_eq at_pc ▸ undocumented }
  | false =>
    have declared : ((m.enter pc).mem.state pc).undefined = false := undeclared
    rw [step_of_undocumented at_pc below away undocumented] at running ⊢
    cases blank : (m.mem.state pc).uninitialized with
    | true =>
      right
      have enteredBlank : ((m.enter pc).mem.state pc).uninitialized = true := blank
      rw [noteRead_of_uninitialized declared enteredBlank]
      refine ⟨rfl, ?_⟩
      simp only [settle_snd, mapMem, startAt, mapRegs, enter, raise, empty, ← at_pc]
    | false =>
      have written : ((m.enter pc).mem.state pc).uninitialized = false := blank
      have startEmpty : ((m.enter pc).startAt pc).slot = {} := empty
      rw [noteRead_of_readable declared written,
        settle_raise_of_isUnconditional startEmpty rfl] at running
      exact absurd running (Option.some_ne_none _)

/-- Every window that does not stop a machine makes its measure smaller, unless the machine is stuck. -/
theorem rank_step_lt {m : Machine} (empty : m.slot = {}) (limited : m.limit ≠ 0)
    (room : m.limit.toNat + 6 < bound64) (running : m.step.1 = none) (moving : ¬m.Stuck) :
    m.step.2.rank < m.rank := by
  cases reached : m.limitReached with
  | true =>
    rw [step_fst_of_limitReached empty reached] at running
    cases running
  | false =>
    have belowLimit := cycles_lt_limit limited reached
    cases sentinel : m.atSentinel with
    | true =>
      rw [step_fst_of_atSentinel empty reached sentinel] at running
      cases running
    | false =>
      by_cases undocumented : m.nextMnemonic = .undocumented
      · rcases stuck_or_blank_of_running rfl empty reached sentinel undocumented running with
          stuck | ⟨blank, healed⟩
        · exact absurd stuck moving
        · rw [healed]
          have written := m.mem.written_markInitialized m.regs.pc
          simp only [rank, mapMem, enter, blank, written]
          simp
      · have cost := two_le_windowCost reached sentinel undocumented
        have spent := toNat_cycles_step limited room reached
        -- Two cycles outweigh the one that a never-written cell ahead adds.
        have flag := Bool.toNat_le (m.step.2.mem.state m.step.2.regs.pc).uninitialized
        unfold rank
        rw [limit_step]
        omega

/-- A step of a stuck machine only names the instruction at work. -/
theorem Stuck.step_eq {m : Machine} (stuck : m.Stuck) (empty : m.slot = {}) :
    m.step = (none, m.enter m.regs.pc) := by
  have held := fault_raise (m := m.enter m.regs.pc) empty .executeUndefined m.regs.pc
  have passes : m.level.isFatal .executeUndefined = false := by
    rw [stuck.lenient]
    rfl
  rw [step_of_undeclared rfl empty stuck.belowLimit stuck.awayFromSentinel stuck.undocumented
    stuck.undeclared]
  refine Prod.ext ((settle_eq_none_iff held).mpr passes) ?_
  simp only [settle_snd, raise, enter, empty]

/-- Nothing moves a stuck machine. -/
theorem Stuck.steps_eq_none {m : Machine} (stuck : m.Stuck) (empty : m.slot = {}) (bound : Nat) :
    (m.steps bound).1 = none := by
  induction bound generalizing m with
  | zero => rfl
  | succ bound inductionHypothesis =>
    have stepped := stuck.step_eq empty
    have running : m.step.1 = none := by
      rw [stepped]
    rw [steps_succ_of_running running, stepped]
    have stillStuck : (m.enter m.regs.pc).Stuck :=
      ⟨stuck.lenient, stuck.belowLimit, stuck.awayFromSentinel, stuck.undeclared, stuck.undocumented⟩
    exact inductionHypothesis stillStuck empty

theorem exists_steps_ne_none {m : Machine} (empty : m.slot = {}) (limited : m.limit ≠ 0)
    (room : m.limit.toNat + 6 < bound64)
    (moving : ∀ count, (m.steps count).1 = none → ¬(m.steps count).2.Stuck) :
    ∃ bound, (m.steps bound).1 ≠ none := by
  -- The induction is on the measure: each window that does not stop makes it smaller.
  induction measured : m.rank using Nat.strongRecOn generalizing m with
  | ind rank inductionHypothesis =>
    cases running : m.step.1 with
    | some fault =>
      refine ⟨1, ?_⟩
      rw [steps_succ_of_stopped running, running]
      exact Option.some_ne_none fault
    | none =>
      have smaller : m.step.2.rank < rank :=
        measured ▸ rank_step_lt empty limited room running (moving 0 rfl)
      have stillLimited : m.step.2.limit ≠ 0 := by
        rw [limit_step]
        exact limited
      have stillRoom : m.step.2.limit.toNat + 6 < bound64 := by
        rw [limit_step]
        exact room
      have stillMoving :
          ∀ count, (m.step.2.steps count).1 = none → ¬(m.step.2.steps count).2.Stuck := by
        intro count reached
        rw [← steps_succ_of_running running] at reached ⊢
        exact moving (count + 1) reached
      obtain ⟨bound, stopped⟩ :=
        inductionHypothesis m.step.2.rank smaller m.slot_step stillLimited stillRoom stillMoving rfl
      refine ⟨bound + 1, ?_⟩
      rw [steps_succ_of_running running]
      exact stopped

/-- A cycle limit stops a machine exactly if it never gets stuck. -/
theorem exists_steps_ne_none_iff {m : Machine} (empty : m.slot = {}) (limited : m.limit ≠ 0)
    (room : m.limit.toNat + 6 < bound64) :
    (∃ bound, (m.steps bound).1 ≠ none) ↔
      ∀ count, (m.steps count).1 = none → ¬(m.steps count).2.Stuck := by
  refine ⟨?_, exists_steps_ne_none empty limited room⟩
  -- A run that stops does so before the machine gets stuck, or behind it; neither can be.
  rintro ⟨bound, stopped⟩ count reached stuck
  rcases Nat.le_total bound count with early | late
  · obtain ⟨fault, outcome⟩ := Option.ne_none_iff_exists'.mp stopped
    obtain ⟨rest, rfl⟩ := Nat.exists_eq_add_of_le early
    rw [steps_add_of_stopped outcome] at reached
    exact stopped reached
  · obtain ⟨rest, rfl⟩ := Nat.exists_eq_add_of_le late
    rw [steps_add_of_running reached] at stopped
    exact stopped (stuck.steps_eq_none (slot_steps empty count) rest)

/-- The same machine with some cycles more on its counter. -/
def ahead (cycles : UInt64) (m : Machine) : Machine :=
  { m with cycles := m.cycles + cycles }

theorem unseen_ahead (cycles : UInt64) : Unseen (ahead cycles) where
  state _ _ := rfl
  raise _ _ _ := rfl
  mark _ _ := rfl
  put _ _ _ := rfl
  regs _ := rfl
  raw _ _ := rfl
  current _ := rfl
  mapRegs _ _ := rfl
  charge m charged := by
    have turned : m.cycles + cycles + charged = m.cycles + charged + cycles := by
      rw [UInt64.add_assoc, UInt64.add_comm cycles, ← UInt64.add_assoc]
    simp only [ahead, turned]

/-- In RAM and below the greatest limit, a direct and an indirect jump that lead to each other, in three cycles and in
five. -/
def jumpLoop (pc previous : UInt16) : Machine where
  mem := { cells := #[⟨0x4C, {}⟩, ⟨3, {}⟩, ⟨0, {}⟩, ⟨0x6C, {}⟩, ⟨6, {}⟩, ⟨0, {}⟩, ⟨0, {}⟩, ⟨0, {}⟩] }
  regs := { pc }
  limit := 0xFFFFFFFFFFFFFFFF
  current := previous

/-- The greatest count leaves a remainder of seven. -/
theorem step_jumpLoop {pc next previous : UInt16} {cost : UInt64}
    (window : (jumpLoop pc previous).window = (jumpLoop next pc).ahead cost) (cycles : UInt64)
    (apart : cycles.toNat % 8 ≠ 7) :
    ((jumpLoop pc previous).ahead cycles).step = (none, (jumpLoop next pc).ahead (cycles + cost)) := by
  have below : ((jumpLoop pc previous).ahead cycles).limitReached = false := by
    have less : ¬(jumpLoop pc previous).limit ≤ 0 + cycles := by
      have greatest : (jumpLoop pc previous).limit.toNat = 0xFFFFFFFFFFFFFFFF := rfl
      have bounded := cycles.toNat_lt
      rw [UInt64.zero_add, UInt64.le_iff_toNat_le, greatest]
      omega
    exact Bool.and_eq_false_iff.mpr (.inr (decide_eq_false less))
  have onward := window_unseen (unseen_ahead cycles) (m := jumpLoop pc previous) rfl rfl rfl below
  have sum : ((jumpLoop next pc).ahead cost).ahead cycles = (jumpLoop next pc).ahead (cycles + cost) := by
    simp only [ahead, UInt64.add_assoc, UInt64.add_comm cost]
  rw [step, onward, window, sum]
  rfl

/-- So a limit without room above it can fail to stop a machine that never gets stuck. -/
theorem steps_jumpLoop (bound : Nat) : ((jumpLoop 0 3).steps bound).1 = none := by
  have direct : (jumpLoop 0 3).window = (jumpLoop 3 0).ahead 3 := by decide +kernel
  have indirect : (jumpLoop 3 0).window = (jumpLoop 0 3).ahead 5 := by decide +kernel
  -- The counter is a multiple of eight before each direct jump, past its end as well.
  have onward (cycles : UInt64) :
      (cycles.toNat % 8 = 0 → (((jumpLoop 0 3).ahead cycles).steps bound).1 = none) ∧
        (cycles.toNat % 8 = 3 → (((jumpLoop 3 0).ahead cycles).steps bound).1 = none) := by
    induction bound generalizing cycles with
    | zero => exact ⟨fun _ => rfl, fun _ => rfl⟩
    | succ bound inductionHypothesis =>
      constructor
      · intro remainder
        have stepped := step_jumpLoop direct cycles (by omega)
        have three : (3 : UInt64).toNat = 3 := rfl
        rw [steps_succ_of_running (congrArg Prod.fst stepped), stepped]
        apply (inductionHypothesis _).2
        rw [UInt64.toNat_add, three]
        omega
      · intro remainder
        have stepped := step_jumpLoop indirect cycles (by omega)
        have five : (5 : UInt64).toNat = 5 := rfl
        rw [steps_succ_of_running (congrArg Prod.fst stepped), stepped]
        apply (inductionHypothesis _).1
        rw [UInt64.toNat_add, five]
        omega
  exact (onward 0).1 rfl

end Machine

namespace World

variable {σ : Type}

/-- Without hooks, a cycle limit with room above it ends a run exactly if no window of it finds the machine stuck. -/
theorem run_stops_iff (host : Host σ) (addr : UInt16) {w : World σ} (free : w.machine.HookFree)
    (limited : w.machine.limit ≠ 0) (room : w.machine.limit.toNat + 6 < bound64)
    (empty : w.machine.slot = {}) :
    (∃ bound, (w.run host bound addr).1 ≠ .unfinished) ↔
      ∀ count v, (w.startAt addr).steps host count = (none, v) → ¬v.machine.Stuck := by
  have startFree : (w.startAt addr).machine.HookFree := free
  have ends (bound : Nat) :
      (w.run host bound addr).1 ≠ .unfinished ↔ ((w.machine.startAt addr).steps bound).1 ≠ none :=
    not_congr (w.run_eq_unfinished_iff host bound addr free)
  have moves (count : Nat) :
      (∀ v, (w.startAt addr).steps host count = (none, v) → ¬v.machine.Stuck) ↔
        (((w.machine.startAt addr).steps count).1 = none →
          ¬((w.machine.startAt addr).steps count).2.Stuck) := by
    obtain ⟨outcome, machine⟩ := (w.startAt addr).steps_bare host count startFree
    change _ = ((w.machine.startAt addr).steps count).1 at outcome
    change _ = ((w.machine.startAt addr).steps count).2 at machine
    rw [← outcome, ← machine]
    constructor
    · intro never running
      exact never _ (Prod.ext running rfl)
    · rintro never v reached
      rw [reached] at never
      exact never rfl
  have startEmpty : (w.machine.startAt addr).slot = {} := empty
  have startLimited : (w.machine.startAt addr).limit ≠ 0 := limited
  simp only [ends, moves]
  exact Machine.exists_steps_ne_none_iff startEmpty startLimited room

/-- Undeclared zeros, which execute as BRK, at the level that lets every memory error pass. -/
def breakLoop : World Unit :=
  .ofSettings { memSize := 1, level := .none, cycleLimit := 10 } {} ()

theorem breakLoop_stops :
    (∃ bound, (breakLoop.run CommandLine.hooklessHost bound 0).1 ≠ .unfinished) ∧
      ∀ count v, (breakLoop.startAt 0).steps CommandLine.hooklessHost count = (none, v) →
        ¬v.machine.Stuck := by
  have stops : ∃ bound, (breakLoop.run CommandLine.hooklessHost bound 0).1 ≠ .unfinished :=
    ⟨3, by decide +kernel⟩
  have free : breakLoop.machine.HookFree := rfl
  have limited : breakLoop.machine.limit ≠ 0 := by decide +kernel
  have room : breakLoop.machine.limit.toNat + 6 < bound64 := by decide +kernel
  exact ⟨stops, (run_stops_iff CommandLine.hooklessHost 0 free limited room rfl).mp stops⟩

/-- An undeclared undocumented encoding, the first byte of a random fill, at the same level. -/
def strandedFill : World Unit :=
  .ofSettings { memSize := 1, level := .none, cycleLimit := 1, fill := .random 0 } {} ()

theorem strandedFill_never_stops :
    strandedFill.machine.HookFree ∧ strandedFill.machine.limit = 1 ∧
      strandedFill.machine.slot = {} ∧
      ¬∃ bound, (strandedFill.run CommandLine.hooklessHost bound 0).1 ≠ .unfinished := by
  have free : strandedFill.machine.HookFree := rfl
  refine ⟨free, by decide +kernel, rfl, ?_⟩
  rintro ⟨bound, stopped⟩
  have stuck : (strandedFill.machine.startAt 0).Stuck := by
    constructor <;> decide +kernel
  exact stopped ((run_eq_unfinished_iff CommandLine.hooklessHost bound 0 free).mpr
    (stuck.steps_eq_none rfl bound))

end World

end Mos6502
