import Mos6502.Proofs.Bare.Stack
import Mos6502.Proofs.Bare.Unseen
import Mos6502.Proofs.CycleLimit
import Mos6502.Proofs.Invocation
import Mos6502.Proofs.Lockstep
import Mos6502.Proofs.Operation
import Mathlib.Logic.Function.Iterate
import Mathlib.Order.WellFounded

/-!
# Chains of exec hooks

An exec hook that does nothing is a return from a subroutine that costs no cycles: the stack pointer moves by two, and
execution continues behind the word that lies there. Where that is the address of another such hook, the cycle counter
stands still once more. After 128 windows the stack pointer has come around, and since nothing has been stored, the
stack holds the same words as before. So a machine leaves a chain of hooks within one round through the stack page, or
never.

In plain memory every other window costs cycles or stops the machine. Hence a cycle limit that the counter cannot pass
ends a run unless the run comes to a machine that is captive in a chain of hooks. A counter that can pass the limit need
not ever come to it, hooks or not.
-/

namespace Mos6502

variable {σ : Type}

/-- The fault in the slot, if there is one, does not stop a machine at this level. -/
def FaultSlot.Passes (level : ErrorLevel) (slot : FaultSlot) : Prop :=
  ∀ fault, slot.fault = some fault → level.isFatal fault.kind = false

/-- All cells are plain initialized RAM. -/
def Memory.Plain (mem : Memory) : Prop :=
  ∀ cell ∈ mem.cells, cell.state = {}

namespace Memory

theorem Plain.state_of_cell? {mem : Memory} (plain : mem.Plain) {addr : UInt16} {cell : Cell}
    (found : mem.cell? addr = some cell) : cell.state = {} :=
  plain cell (Array.mem_of_getElem? found)

theorem Plain.uninitialized_eq_false {mem : Memory} (plain : mem.Plain) (addr : UInt16) :
    (mem.state addr).uninitialized = false := by
  unfold state
  cases found : mem.cell? addr with
  | none => rfl
  | some cell => exact congrArg CellState.uninitialized (plain.state_of_cell? found)

/-- Memory holds zero where it is not declared, since that is past its end. -/
theorem Plain.raw_of_undefined {mem : Memory} (plain : mem.Plain) {addr : UInt16}
    (undeclared : (mem.state addr).undefined = true) : mem.raw addr = 0 := by
  unfold state at undeclared
  unfold raw
  cases found : mem.cell? addr with
  | none => rfl
  | some cell =>
    rw [found] at undeclared
    change cell.state.undefined = true at undeclared
    rw [plain.state_of_cell? found] at undeclared
    cases undeclared

theorem Plain.modify {mem : Memory} (plain : mem.Plain) (addr : UInt16) {change : Cell → Cell}
    (keeps : ∀ cell, cell.state = {} → (change cell).state = {}) : (mem.modify addr change).Plain := by
  intro cell member
  obtain ⟨index, found⟩ := Array.getElem?_of_mem member
  unfold Memory.modify at found
  rw [Array.getElem?_modify] at found
  split at found
  next here =>
    obtain ⟨before, present, rfl⟩ := Option.map_eq_some_iff.mp found
    exact keeps before (plain before (Array.mem_of_getElem? present))
  next elsewhere => exact plain cell (Array.mem_of_getElem? found)

end Memory

namespace Machine

/-- An exec hook is bound at the program counter, and no call ends there. -/
def AtHook (m : Machine) : Prop :=
  m.atSentinel = false ∧ (m.mem.hook? .exec m.regs.pc).isSome = true

instance (m : Machine) : Decidable m.AtHook :=
  inferInstanceAs (Decidable (_ ∧ _))

/-- The machine behind a window in which an exec hook has done nothing. -/
def returned (m : Machine) : Machine :=
  { m with
    regs := { m.regs with sp := m.regs.sp + 2, pc := m.returnAddress m.regs.sp }
    slot := {}
    current := m.regs.pc }

/-- A machine that goes from hook to hook forever: it is below the cycle limit and at a hook, every word that it can
come to on the stack leads to a hook again, and reading the stack does not stop it. -/
structure Captive (m : Machine) : Prop where
  passes : m.slot.Passes m.level
  below : m.limitReached = false
  atHook : m.AtHook
  returns (count : UInt8) : (m.startAt (m.returnAddress (m.regs.sp + 2 * count))).AtHook
  readable : m.level = .full →
    ∀ pointer, (m.mem.state (Micro.stackAddress pointer)).undefined = false

theorem settle_fst_eq_none_iff (m : Machine) : m.settle.1 = none ↔ m.slot.Passes m.level := by
  simp only [settle, Option.filter_eq_none_iff, Bool.not_eq_true]
  rfl

theorem passes_empty (level : ErrorLevel) : FaultSlot.Passes level {} := by
  intro fault held
  cases held

theorem Captive.returned {m : Machine} (captive : m.Captive) : m.returned.Captive where
  passes := passes_empty m.level
  below := captive.below
  atHook := by
    have first := captive.returns 0
    have same : m.regs.sp + 2 * 0 = m.regs.sp := by
      rw [UInt8.mul_zero, UInt8.add_zero]
    rwa [same] at first
  returns count := by
    have later := captive.returns (count + 1)
    have same : m.regs.sp + 2 * (count + 1) = m.regs.sp + 2 + 2 * count := by
      rw [UInt8.mul_add, UInt8.mul_one, UInt8.add_comm (2 * count), ← UInt8.add_assoc]
    rwa [same] at later
  readable := captive.readable

/-- What the slot holds once a byte is read, where memory is plain. -/
def reported (addr : UInt16) (m : Machine) (slot : FaultSlot) : FaultSlot :=
  if (m.mem.state addr).undefined then slot.record .readUndefined addr else slot

theorem noteRead_of_plain {m : Machine} (plain : m.mem.Plain) (addr : UInt16) :
    m.noteRead .readUndefined .readUninitialized addr = { m with slot := m.reported addr m.slot } := by
  unfold noteRead reported
  rw [plain.uninitialized_eq_false addr]
  split
  · rfl
  · rfl

theorem passes_reported {m : Machine} {addr : UInt16} {slot : FaultSlot} (passes : slot.Passes m.level)
    (readable : m.level = .full → (m.mem.state addr).undefined = false) :
    (m.reported addr slot).Passes m.level := by
  unfold reported
  split
  next undeclared =>
    intro fault held
    cases before : slot.fault with
    | none =>
      rw [FaultSlot.record_of_none before, Option.some.injEq] at held
      rw [← held]
      cases level : m.level with
      | full =>
        rw [readable level] at undeclared
        cases undeclared
      | none | memory => rfl
    | some earlier =>
      rw [FaultSlot.record_of_some before] at held
      exact passes fault held
  next declared => exact passes

/-- At the strictest level only an empty slot passes, so nothing was reported. -/
theorem declared_of_passes {m : Machine} {addr : UInt16} {slot : FaultSlot} (full : m.level = .full)
    (passes : (m.reported addr slot).Passes m.level) :
    (m.mem.state addr).undefined = false ∧ slot.Passes m.level := by
  cases undeclared : (m.mem.state addr).undefined with
  | false =>
    rw [reported, undeclared] at passes
    exact ⟨rfl, passes⟩
  | true =>
    have held := FaultSlot.fault_record slot ⟨.readUndefined, addr⟩
    rw [reported, undeclared] at passes
    have mild := passes _ held
    rw [full, ErrorLevel.isFatal, Bool.or_true] at mild
    cases mild

end Machine

namespace Micro

variable {m : Machine}

theorem exec_pull_of_plain (plain : m.mem.Plain) :
    (pull.exec m).2 =
      { m with
        regs := { m.regs with sp := m.regs.sp + 1 }
        slot := m.reported (stackAddress (m.regs.sp + 1)) m.slot } := by
  have plainToo : (m.mapRegs ({ · with sp := m.regs.sp + 1 })).mem.Plain := plain
  rw [exec_pull, Machine.noteRead_of_plain plainToo]
  rfl

theorem exec_returnFromSubroutine_of_plain (plain : m.mem.Plain) :
    (returnFromSubroutine.exec m).2 =
      { m with
        regs := { m.regs with sp := m.regs.sp + 2, pc := m.returnAddress m.regs.sp }
        slot := m.reported (stackAddress (m.regs.sp + 2))
          (m.reported (stackAddress (m.regs.sp + 1)) m.slot) } := by
  have twice : m.regs.sp + 1 + 1 = m.regs.sp + 2 := UInt8.add_assoc _ 1 1
  have pulled := exec_pull_of_plain plain
  have plainToo : (pull.exec m).2.mem.Plain := by
    rw [pulled]
    exact plain
  rw [exec_returnFromSubroutine, exec_pull_of_plain plainToo, pulled, ← twice]
  rfl

end Micro

/-- A hook that answers its exec accesses without a fault, and leaves the machine as it is. -/
def Host.Idle (host : Host σ) (hook : Nat) : Prop :=
  ∀ addr (w : World σ), ∃ value v, host.respond hook addr .exec w = (.ok value, v) ∧ v.machine = w.machine

/-- No hooks but idle ones on execution. -/
def Memory.HooksIdle (host : Host σ) (mem : Memory) : Prop :=
  ∀ binding ∈ mem.hooks, binding.kind = .exec ∧ host.Idle binding.hook

namespace Memory.HooksIdle

variable {host : Host σ} {mem : Memory}

theorem direct {m : Machine} (hooksIdle : m.mem.HooksIdle host) : m.Direct := by
  intro binding bound
  exact (hooksIdle binding bound).1

theorem of_hook? (hooksIdle : mem.HooksIdle host) {kind : AccessKind} {addr : UInt16} {hook : Nat}
    (bound : mem.hook? kind addr = some hook) : kind = .exec ∧ host.Idle hook := by
  obtain ⟨binding, found, rfl⟩ := Option.map_eq_some_iff.mp bound
  have covers := List.find?_some found
  simp only [HookBinding.covers, Bool.and_eq_true, beq_iff_eq] at covers
  obtain ⟨exec, idle⟩ := hooksIdle binding (List.mem_of_find?_eq_some found)
  exact ⟨covers.1.1.symm.trans exec, idle⟩

/-- What hooks are bound does not change as long as they are idle. -/
theorem kept (hooksIdle : mem.HooksIdle host) : Kept (fun other => other.hooks = mem.hooks) host where
  mark _ same := same
  put _ _ _ same := same
  respond {w} hook addr access bound same := by
    have stillIdle : w.machine.mem.HooksIdle host := by
      unfold HooksIdle
      rw [same]
      exact hooksIdle
    obtain ⟨exec, idle⟩ := stillIdle.of_hook? bound
    cases access with
    | exec =>
      obtain ⟨value, v, answered, untouched⟩ := idle addr w
      rw [answered]
      change v.machine.mem.hooks = mem.hooks
      rwa [untouched]
    | read | write => cases exec

end Memory.HooksIdle

/-- Plain memory, and no hooks but idle ones on execution. -/
structure Memory.Quiet (host : Host σ) (mem : Memory) : Prop where
  plain : mem.Plain
  idle : ∀ binding ∈ mem.hooks, binding.kind = .exec ∧ host.Idle binding.hook

namespace Memory.Quiet

variable {host : Host σ} {mem : Memory}

theorem direct {m : Machine} (quiet : m.mem.Quiet host) : m.Direct :=
  HooksIdle.direct quiet.idle

theorem of_hook? (quiet : mem.Quiet host) {kind : AccessKind} {addr : UInt16} {hook : Nat}
    (bound : mem.hook? kind addr = some hook) : kind = .exec ∧ host.Idle hook :=
  HooksIdle.of_hook? quiet.idle bound

/-- Execution keeps memory quiet. -/
theorem kept (host : Host σ) : Kept (Memory.Quiet host) host where
  mark addr quiet := by
    refine ⟨quiet.plain.modify addr ?_, quiet.idle⟩
    intro cell plain
    rw [Cell.asInitialized, plain]
  put {mem} addr value _ _ quiet := by
    rw [markInitialized_store]
    refine ⟨quiet.plain.modify addr ?_, quiet.idle⟩
    intro cell plain
    rw [Cell.asInitialized, Cell.withByte, plain]
  respond {w} hook addr access bound quiet := by
    obtain ⟨exec, idle⟩ := quiet.of_hook? bound
    cases access with
    | exec =>
      obtain ⟨value, v, answered, same⟩ := idle addr w
      rw [answered]
      change v.machine.mem.Quiet host
      rwa [same]
    | read | write => cases exec

end Memory.Quiet

namespace World

variable {host : Host σ} {w : World σ}

/-- The window at an idle hook returns from it. -/
theorem window_of_idle (direct : w.machine.Direct) {hook : Nat} (idle : host.Idle hook)
    (below : w.machine.limitReached = false) (away : w.machine.atSentinel = false)
    (bound : w.machine.mem.hook? .exec w.machine.regs.pc = some hook) :
    (w.window host).machine =
      (Micro.returnFromSubroutine.exec (w.machine.enter w.machine.regs.pc)).2 := by
  have going : ¬(w.machine.limitReached || w.machine.atSentinel) = true := by
    rw [below, away]
    exact Bool.false_ne_true
  let entered := w.enter w.machine.regs.pc
  let asked := entered.invocation hook w.machine.regs.pc .exec
  obtain ⟨value, v, answered, same⟩ := idle w.machine.regs.pc asked.given
  have given : v.machine = w.machine.enter w.machine.regs.pc := same.trans (machine_meter entered _)
  have unmoved : v.machine.regs.pc = w.machine.regs.pc := congrArg (·.regs.pc) given
  have answer : asked.answer host = (.ok value, v) := answered
  have continuation : asked.continuation host = Micro.returnFromSubroutine := by
    rw [Invocation.continuation, answer]
    exact if_pos unmoved
  have settled : asked.settled host = v := by
    rw [Invocation.settled, answer]
  have still : v.machine.Direct := by
    rw [given]
    exact direct
  rw [window_of_hook going bound, runHook_eq]
  change ((asked.continuation host).run host (asked.settled host)).2.machine = _
  rw [continuation, settled, (Micro.run_bare host _ still).2, given]

theorem step_of_idle (quiet : w.machine.mem.Quiet host) (below : w.machine.limitReached = false)
    (atHook : w.machine.AtHook) :
    (w.step host).2.machine = w.machine.returned ∧
      ((w.step host).1 = none ↔
        (w.machine.reported (Micro.stackAddress (w.machine.regs.sp + 2))
          (w.machine.reported (Micro.stackAddress (w.machine.regs.sp + 1)) w.machine.slot)).Passes
            w.machine.level) := by
  obtain ⟨away, isBound⟩ := atHook
  obtain ⟨hook, bound⟩ := Option.isSome_iff_exists.mp isBound
  obtain ⟨stopped, machine⟩ := (w.window host).settle_bare
  have returned := window_of_idle quiet.direct (quiet.of_hook? bound).2 below away bound
  have plain : (w.machine.enter w.machine.regs.pc).mem.Plain := quiet.plain
  rw [Micro.exec_returnFromSubroutine_of_plain plain] at returned
  unfold step
  rw [stopped, machine, returned]
  exact ⟨rfl, Machine.settle_fst_eq_none_iff _⟩

/-- Away from hooks, a window is one of the bare machine. -/
theorem step_of_no_hook (direct : w.machine.Direct)
    (away : (w.machine.limitReached || w.machine.atSentinel) = true ∨
      w.machine.mem.hook? .exec w.machine.regs.pc = none) :
    (w.step host).1 = w.machine.step.1 ∧ (w.step host).2.machine = w.machine.step.2 := by
  have window : (w.window host).machine = w.machine.window := by
    cases limit : w.machine.limitReached with
    | true =>
      rw [window_of_ended (by rw [limit, Bool.true_or]), Machine.window_of_limitReached limit, limit]
      rfl
    | false =>
      cases sentinel : w.machine.atSentinel with
      | true =>
        rw [window_of_ended (by rw [sentinel, Bool.or_true]),
          Machine.window_of_atSentinel limit sentinel, limit]
        rfl
      | false =>
        rw [limit, sentinel] at away
        have unbound := away.resolve_left Bool.false_ne_true
        have going : ¬(w.machine.limitReached || w.machine.atSentinel) = true := by
          rw [limit, sentinel]
          exact Bool.false_ne_true
        have entered : (w.enter w.machine.regs.pc).machine.Direct := direct
        rw [window_of_no_hook going unbound, Machine.window_of_instruction limit sentinel,
          runInstruction_bare host entered]
        rfl
  obtain ⟨stopped, machine⟩ := (w.window host).settle_bare
  unfold step Machine.step
  rw [stopped, machine, window]
  exact ⟨rfl, rfl⟩

/-- A step is a return from an idle hook, or one of the bare machine. -/
theorem step_cases (quiet : w.machine.mem.Quiet host) :
    (w.machine.limitReached = false ∧ w.machine.AtHook ∧
        (w.step host).2.machine = w.machine.returned) ∨
      ((w.step host).1 = w.machine.step.1 ∧ (w.step host).2.machine = w.machine.step.2) := by
  by_cases away : (w.machine.limitReached || w.machine.atSentinel) = true ∨
      w.machine.mem.hook? .exec w.machine.regs.pc = none
  · right
    exact step_of_no_hook quiet.direct away
  · left
    obtain ⟨going, bound⟩ := not_or.mp away
    obtain ⟨below, sentinel⟩ := Bool.or_eq_false_iff.mp (eq_false_of_ne_true going)
    have atHook : w.machine.AtHook := ⟨sentinel, Option.isSome_iff_ne_none.mpr bound⟩
    exact ⟨below, atHook, (step_of_idle quiet below atHook).1⟩

end World

theorem Machine.Captive.steps {host : Host σ} {w : World σ} (captive : w.machine.Captive)
    (quiet : w.machine.mem.Quiet host) (bound : Nat) : (w.steps host bound).1 = none := by
  -- The induction is on the bound: each window passes and leaves a captive machine.
  induction bound generalizing w with
  | zero => rfl
  | succ bound inductionHypothesis =>
    obtain ⟨machine, passes⟩ := World.step_of_idle quiet captive.below captive.atHook
    have running : (w.step host).1 = none := by
      apply passes.mpr
      apply Machine.passes_reported
      · apply Machine.passes_reported captive.passes
        intro full
        exact captive.readable full _
      · intro full
        exact captive.readable full _
    have stillQuiet := (Memory.Quiet.kept host).step quiet
    have stillCaptive : (w.step host).2.machine.Captive := by
      rw [machine]
      exact captive.returned
    have rest := inductionHypothesis stillCaptive stillQuiet
    rw [World.steps]
    generalize w.step host = result at running rest
    obtain ⟨stopped, v⟩ := result
    change stopped = none at running
    rw [running]
    exact rest

namespace Machine

/-- Undeclared memory holds zeros, which is a documented encoding. -/
theorem not_stuck_of_plain {m : Machine} (plain : m.mem.Plain) : ¬m.Stuck := by
  intro stuck
  have zero := plain.raw_of_undefined stuck.undeclared
  have named := stuck.undocumented
  rw [nextMnemonic, zero] at named
  revert named
  decide +kernel

theorem rank_of_plain {m : Machine} (plain : m.mem.Plain) : m.rank = 2 * (m.limit.toNat - m.cycles.toNat) := by
  rw [rank, plain.uninitialized_eq_false]
  rfl

variable {m : Machine}

/-- Going through hooks moves the stack pointer by two for each of them. -/
theorem iterate_returned (m : Machine) (count : Nat) :
    ∃ pc slot current, returned^[count] m =
      { m with regs := { m.regs with sp := m.regs.sp + 2 * UInt8.ofNat count, pc }, slot, current } := by
  induction count with
  | zero =>
    refine ⟨m.regs.pc, m.slot, m.current, ?_⟩
    have same : m.regs.sp + 2 * UInt8.ofNat 0 = m.regs.sp := by
      change m.regs.sp + 2 * 0 = m.regs.sp
      rw [UInt8.mul_zero, UInt8.add_zero]
    rw [same]
    rfl
  | succ count inductionHypothesis =>
    obtain ⟨pc, slot, current, before⟩ := inductionHypothesis
    have pointer : m.regs.sp + 2 * UInt8.ofNat (count + 1) = m.regs.sp + 2 * UInt8.ofNat count + 2 := by
      rw [UInt8.ofNat_add, UInt8.mul_add, ← UInt8.add_assoc]
      rfl
    refine ⟨m.returnAddress (m.regs.sp + 2 * UInt8.ofNat count), {}, pc, ?_⟩
    rw [Function.iterate_succ_apply', before, pointer]
    rfl

/-- The hook that a machine comes to behind a number of others is told by the stack. -/
theorem atHook_iterate_returned (m : Machine) (count : Nat) :
    (returned^[count + 1] m).AtHook ↔
      (m.startAt (m.returnAddress (m.regs.sp + 2 * UInt8.ofNat count))).AtHook := by
  obtain ⟨pc, slot, current, before⟩ := m.iterate_returned count
  rw [Function.iterate_succ_apply', before]
  rfl

/-- Pulling two bytes at a time comes to every byte of the stack page. -/
theorem pulled_cases (base pointer : UInt8) :
    ∃ count, pointer = base + 2 * count + 1 ∨ pointer = base + 2 * count + 2 := by
  let distance := pointer - base - 1
  have pulled : pointer = base + distance + 1 := by
    rw [UInt8.add_assoc, UInt8.sub_add_cancel, UInt8.add_comm, UInt8.sub_add_cancel]
  refine ⟨distance / 2, ?_⟩
  have below := distance.toNat_lt
  rcases Nat.mod_two_eq_zero_or_one distance.toNat with even | odd
  · left
    have half : 2 * (distance / 2) = distance := by
      apply UInt8.toNat.inj
      simp only [UInt8.toNat_mul, UInt8.toNat_div, UInt8.reduceToNat]
      omega
    rw [half]
    exact pulled
  · right
    have half : 2 * (distance / 2) + 1 = distance := by
      apply UInt8.toNat.inj
      simp only [UInt8.toNat_add, UInt8.toNat_mul, UInt8.toNat_div, UInt8.reduceToNat]
      omega
    rw [pulled]
    calc
      base + distance + 1 = base + (2 * (distance / 2) + 1) + 1 := by rw [half]
      _ = base + 2 * (distance / 2) + 1 + 1 := by rw [← UInt8.add_assoc base]
      _ = base + 2 * (distance / 2) + 2 := UInt8.add_assoc _ 1 1

/-- A machine that is at a hook behind any number of others, and has come past all of them, is captive. -/
theorem captive_of_iterate_returned (passes : m.slot.Passes m.level) (below : m.limitReached = false)
    (always : ∀ count, (returned^[count] m).AtHook)
    (readable : ∀ count, m.level = .full →
      (m.mem.state (Micro.stackAddress ((returned^[count] m).regs.sp + 1))).undefined = false ∧
        (m.mem.state (Micro.stackAddress ((returned^[count] m).regs.sp + 2))).undefined = false) :
    m.Captive where
  passes := passes
  below := below
  atHook := always 0
  returns count := by
    have later := (m.atHook_iterate_returned count.toNat).mp (always (count.toNat + 1))
    rwa [UInt8.ofNat_toNat] at later
  readable full pointer := by
    obtain ⟨count, reached⟩ := pulled_cases m.regs.sp pointer
    obtain ⟨pc, slot, current, before⟩ := m.iterate_returned count.toNat
    have declared := readable count.toNat full
    rw [before, UInt8.ofNat_toNat] at declared
    rcases reached with rfl | rfl
    · exact declared.1
    · exact declared.2

end Machine

/-- A machine in quiet memory with a cycle limit that has room above it, between two windows. -/
structure Machine.Restrained (host : Host σ) (m : Machine) : Prop where
  quiet : m.mem.Quiet host
  limited : m.limit ≠ 0
  room : m.limit.toNat + 6 < bound64
  empty : m.slot = {}

namespace World

variable {host : Host σ} {w : World σ}

theorem limit_step_of_quiet (quiet : w.machine.mem.Quiet host) :
    (w.step host).2.machine.limit = w.machine.limit := by
  rcases step_cases quiet with ⟨-, -, returned⟩ | ⟨-, bare⟩
  · rw [returned]
    rfl
  · rw [bare]
    exact w.machine.limit_step

theorem restrained_step (quiet : w.machine.mem.Quiet host) (limited : w.machine.limit ≠ 0)
    (room : w.machine.limit.toNat + 6 < bound64) : (w.step host).2.machine.Restrained host where
  quiet := (Memory.Quiet.kept host).step quiet
  limited := by
    rw [limit_step_of_quiet quiet]
    exact limited
  room := by
    rw [limit_step_of_quiet quiet]
    exact room
  empty := by
    have settled := (w.window host).settle_bare.2
    change (w.step host).2.machine = _ at settled
    rw [settled]
    rfl

theorem restrained_steps (restrained : w.machine.Restrained host) (bound : Nat) :
    (w.steps host bound).2.machine.Restrained host := by
  induction bound generalizing w with
  | zero => exact restrained
  | succ bound inductionHypothesis =>
    have stepped := restrained_step restrained.quiet restrained.limited restrained.room
    unfold steps
    split
    next outcome => rwa [outcome] at stepped
    next outcome =>
      rw [outcome] at stepped
      exact inductionHypothesis stepped

/-- A window that does not stop is a return from a hook, or makes the measure smaller. -/
theorem returned_or_rank_lt (restrained : w.machine.Restrained host) (running : (w.step host).1 = none) :
    (w.machine.limitReached = false ∧ w.machine.AtHook ∧ (w.step host).2.machine = w.machine.returned) ∨
      (w.step host).2.machine.rank < w.machine.rank := by
  rcases step_cases restrained.quiet with hook | ⟨stopped, bare⟩
  · left
    exact hook
  · right
    rw [bare]
    apply Machine.rank_step_lt restrained.empty restrained.limited restrained.room
    · rwa [← stopped]
    · exact Machine.not_stuck_of_plain restrained.quiet.plain

/-- A machine whose measure never gets smaller is captive. -/
theorem captive_of_least (restrained : w.machine.Restrained host)
    (never : ∀ bound, (w.steps host bound).1 = none)
    (least : ∀ bound, w.machine.rank ≤ (w.steps host bound).2.machine.rank) :
    w.machine.Captive := by
  have next (count : Nat) : w.steps host (count + 1) = (w.steps host count).2.step host :=
    steps_succ_eq host (steps_eq_of_running (never count))
  have running (count : Nat) : ((w.steps host count).2.step host).1 = none := by
    rw [← next]
    exact never (count + 1)
  have level (count : Nat) : (Machine.returned^[count] w.machine).rank = w.machine.rank := by
    obtain ⟨pc, slot, current, before⟩ := w.machine.iterate_returned count
    have plain : (Machine.returned^[count] w.machine).mem.Plain := by
      rw [before]
      exact restrained.quiet.plain
    rw [Machine.rank_of_plain plain, Machine.rank_of_plain restrained.quiet.plain, before]
  have turn (count : Nat) (here : (w.steps host count).2.machine = Machine.returned^[count] w.machine) :
      (w.steps host count).2.machine.limitReached = false ∧ (w.steps host count).2.machine.AtHook ∧
        ((w.steps host count).2.step host).2.machine = (w.steps host count).2.machine.returned := by
    have still := restrained_steps restrained count
    rcases returned_or_rank_lt still (running count) with hook | smaller
    · exact hook
    · have bounded := least (count + 1)
      rw [next] at bounded
      rw [here, level] at smaller
      exact absurd smaller (Nat.not_lt.mpr bounded)
  have path (count : Nat) : (w.steps host count).2.machine = Machine.returned^[count] w.machine := by
    induction count with
    | zero => rfl
    | succ count inductionHypothesis =>
      obtain ⟨-, -, returned⟩ := turn count inductionHypothesis
      rw [next, returned, inductionHypothesis, Function.iterate_succ_apply']
  apply Machine.captive_of_iterate_returned
  · rw [restrained.empty]
    exact Machine.passes_empty _
  · exact (turn 0 (path 0)).1
  · intro count
    rw [← path]
    exact (turn count (path count)).2.1
  · intro count full
    obtain ⟨below, atHook, -⟩ := turn count (path count)
    have still := restrained_steps restrained count
    have passes := (step_of_idle still.quiet below atHook).2.mp (running count)
    rw [path] at passes
    obtain ⟨pc, slot, current, before⟩ := w.machine.iterate_returned count
    rw [before] at passes ⊢
    obtain ⟨high, rest⟩ := Machine.declared_of_passes full passes
    obtain ⟨low, -⟩ := Machine.declared_of_passes full rest
    exact ⟨low, high⟩

/-- A run that goes on forever comes to a captive machine. -/
theorem exists_captive (quiet : w.machine.mem.Quiet host) (limited : w.machine.limit ≠ 0)
    (room : w.machine.limit.toNat + 6 < bound64) (never : ∀ bound, (w.steps host bound).1 = none) :
    ∃ count v, w.steps host count = (none, v) ∧ v.machine.Captive := by
  have entered := steps_eq_of_running (never 1)
  have single : w.steps host (0 + 1) = w.step host := steps_succ_eq host rfl
  have restrained : (w.steps host (0 + 1)).2.machine.Restrained host := by
    rw [single]
    exact restrained_step quiet limited room
  -- From the world with the least measure on, no window makes the measure smaller.
  let rank (count : Nat) := ((w.steps host 1).2.steps host count).2.machine.rank
  let first := Function.argmin rank
  let v := ((w.steps host 1).2.steps host first).2
  have reached : w.steps host (1 + first) = (none, v) := by
    apply Prod.ext (never _)
    rw [steps_add_of_running host entered]
  have onward (bound : Nat) : v.steps host bound = w.steps host (1 + (first + bound)) := by
    rw [← steps_add_of_running host reached, Nat.add_assoc]
  refine ⟨1 + first, v, reached, ?_⟩
  apply captive_of_least
  · exact restrained_steps restrained first
  · intro bound
    rw [onward]
    exact never _
  · intro bound
    rw [onward, steps_add_of_running host entered]
    exact Function.argmin_le rank (first + bound)

/-- In plain memory whose only hooks are exec hooks that do nothing, a cycle limit with room above it ends a run exactly
if no window of it finds the machine captive. -/
theorem run_stops_iff_not_captive (host : Host σ) (addr : UInt16) (quiet : w.machine.mem.Quiet host)
    (limited : w.machine.limit ≠ 0) (room : w.machine.limit.toNat + 6 < bound64) :
    (∃ bound, (w.run host bound addr).1 ≠ .unfinished) ↔
      ∀ count v, ((w.startAt addr).log (.runStarted addr)).steps host count = (none, v) →
        ¬v.machine.Captive := by
  let start := (w.startAt addr).log (.runStarted addr)
  have startQuiet : start.machine.mem.Quiet host := quiet
  have startLimited : start.machine.limit ≠ 0 := limited
  have ends (bound : Nat) : (w.run host bound addr).1 = .unfinished ↔ (start.steps host bound).1 = none := by
    rw [(run_eq_steps host bound addr w).1]
    exact Outcome.ofSteps_eq_unfinished_iff
  constructor
  · rintro ⟨bound, stopped⟩ count v reached captive
    have stillQuiet : v.machine.mem.Quiet host := by
      have kept := (Memory.Quiet.kept host).steps count startQuiet
      change (start.steps host count).2.machine.mem.Quiet host at kept
      rwa [reached] at kept
    apply stopped
    apply (ends bound).mpr
    -- A run that stops does so before the machine is captive, or behind it; neither can be.
    cases outcome : (start.steps host bound).1 with
    | none => rfl
    | some fault =>
      have still := steps_add_of_stopped host outcome count
      rw [Nat.add_comm, steps_add_of_running host reached] at still
      rw [← still, captive.steps stillQuiet] at outcome
      exact absurd outcome.symm (Option.some_ne_none fault)
  · intro free
    by_contra unending
    have never (bound : Nat) : (start.steps host bound).1 = none := by
      apply (ends bound).mp
      by_contra stopped
      exact unending ⟨bound, stopped⟩
    obtain ⟨count, v, reached, captive⟩ := exists_captive startQuiet startLimited room never
    exact free count v reached captive

/-- A host whose hooks do nothing. -/
def bystander : Host Unit where
  respond _ _ _ w := (.ok 0, w)

/-- Zeroed RAM with an exec hook at one address, at the lowest cycle limit. -/
def hookedRam (addr : Nat) : World Unit where
  machine :=
    { mem := { cells := Array.replicate 512 { state := {} }, hooks := [⟨.exec, addr, addr + 1, 0⟩] }
      limit := 1 }
  host := ()

theorem quiet_hookedRam (addr : Nat) : (hookedRam addr).machine.mem.Quiet bystander where
  plain := by
    intro cell member
    rw [Array.eq_of_mem_replicate member]
  idle binding bound := by
    refine ⟨congrArg HookBinding.kind (List.mem_singleton.mp bound), ?_⟩
    intro addr w
    exact ⟨0, w, rfl, rfl⟩

theorem raw_hookedRam (addr : Nat) (other : UInt16) : (hookedRam addr).machine.mem.raw other = 0 := by
  unfold Memory.raw
  cases found : (hookedRam addr).machine.mem.cell? other with
  | none => rfl
  | some cell => exact congrArg Cell.byte (Array.eq_of_mem_replicate (Array.mem_of_getElem? found))

/-- The zeros on the stack lead to the address before the hook, where they are a BRK. -/
theorem hookedRam_stops_behind_hook :
    (∃ bound, ((hookedRam 2).run bystander bound 2).1 ≠ .unfinished) ∧
      ∀ count v,
        (((hookedRam 2).startAt 2).log (.runStarted 2)).steps bystander count = (none, v) →
          ¬v.machine.Captive := by
  have limited : (hookedRam 2).machine.limit ≠ 0 := by decide
  have room : (hookedRam 2).machine.limit.toNat + 6 < bound64 := by decide
  have stops : ∃ bound, ((hookedRam 2).run bystander bound 2).1 ≠ .unfinished :=
    ⟨2, by decide +kernel⟩
  exact ⟨stops, (run_stops_iff_not_captive bystander 2 (quiet_hookedRam 2) limited room).mp stops⟩

/-- Where the zeros lead back to the hook, the machine is captive from its first window on. -/
theorem captive_hookedRam : (((hookedRam 1).startAt 1).log (.runStarted 1)).machine.Captive := by
  let start := ((hookedRam 1).startAt 1).log (.runStarted 1)
  have back (pointer : UInt8) : start.machine.returnAddress pointer = 1 := by
    change wordOf ((hookedRam 1).machine.mem.raw _) ((hookedRam 1).machine.mem.raw _) + 1 = 1
    rw [raw_hookedRam, raw_hookedRam]
    rfl
  have atHook : start.machine.AtHook := by
    unfold Machine.AtHook
    decide +kernel
  constructor
  · apply Machine.passes_empty
  · rfl
  · exact atHook
  · intro count
    rw [back]
    exact atHook
  · intro full
    cases full

/-- A loop whose counter passes the limit, in a world without hooks. -/
def wrappingLoop : World Unit where
  machine := Machine.jumpLoop 0 3
  host := ()

theorem quiet_wrappingLoop : wrappingLoop.machine.mem.Quiet bystander where
  plain := by
    unfold Memory.Plain
    decide +kernel
  idle binding bound := absurd bound List.not_mem_nil

/-- No limit ends a run in which each hook leads to the next. Without any hook, the greatest limit need not end a run
whose counter passes it. -/
theorem hookedRam_wrappingLoop_never_stop :
    ((hookedRam 1).machine.mem.Quiet bystander ∧ (hookedRam 1).machine.limit = 1 ∧
      ¬∃ bound, ((hookedRam 1).run bystander bound 1).1 ≠ .unfinished) ∧
    (wrappingLoop.machine.mem.Quiet bystander ∧ wrappingLoop.machine.HookFree ∧
      wrappingLoop.machine.limit = 0xFFFFFFFFFFFFFFFF ∧
      ¬∃ bound, (wrappingLoop.run bystander bound 0).1 ≠ .unfinished) := by
  have free : wrappingLoop.machine.HookFree := rfl
  refine ⟨⟨quiet_hookedRam 1, rfl, ?_⟩, quiet_wrappingLoop, free, rfl, ?_⟩
  · rintro ⟨bound, stopped⟩
    have ends := (run_eq_steps bystander bound 1 (hookedRam 1)).1
    rw [captive_hookedRam.steps (quiet_hookedRam 1) bound] at ends
    exact stopped ends
  · rintro ⟨bound, stopped⟩
    exact stopped ((run_eq_unfinished_iff bystander bound 0 free).mpr (Machine.steps_jumpLoop bound))

end World

end Mos6502
