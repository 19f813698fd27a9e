import Mos6502.Proofs.Bare.Laws

/-!
Execution of a world without hooks is execution of its bare machine. The correspondence is proved from single
accesses upwards: accesses, micro-operations, microcode, windows, steps, runs. Instruments, counters, journal
and host do not occur on the bare side, so none of them has an influence on the machine.
-/

namespace Mos6502

variable {σ α : Type}

theorem Memory.hook?_of_hooks_eq_nil {mem : Memory} (free : mem.hooks = []) (kind : AccessKind)
    (addr : UInt16) : mem.hook? kind addr = none := by
  simp [hook?, free]

theorem Machine.Direct.hook?_eq_none {m : Machine} (direct : m.Direct) {kind : AccessKind}
    (other : kind ≠ .exec) (addr : UInt16) : m.mem.hook? kind addr = none := by
  unfold Memory.hook?
  rw [Option.map_eq_none_iff, List.find?_eq_none]
  intro binding bound covers
  have caught : (binding.kind == kind) = true := by
    simp only [HookBinding.covers, Bool.and_eq_true] at covers
    exact covers.1.1
  rw [direct binding bound] at caught
  exact other (beq_iff_eq.mp caught).symm

theorem CellState.flags_of_isPlain {state : CellState} (plain : state.isPlain = true) :
    state.undefined = false ∧ state.rom = false ∧ state.uninitialized = false := by
  rw [CellState.isPlain_iff] at plain
  simp [plain]

namespace World

@[simp]
theorem machine_raise (w : World σ) (kind : FaultKind) (addr : UInt16) :
    (w.raise kind addr).machine = w.machine.raise kind addr := rfl

@[simp]
theorem machine_mapRegs (w : World σ) (change : Registers → Registers) :
    (w.mapRegs change).machine = w.machine.mapRegs change := rfl

@[simp]
theorem machine_mapMem (w : World σ) (change : Memory → Memory) :
    (w.mapMem change).machine = w.machine.mapMem change := rfl

theorem meter_eq (change : Metrics → Metrics) (w : World σ) :
    w.meter change =
      { w with metrics := if w.instruments.metered then change w.metrics else w.metrics } := by
  unfold meter
  split <;> rfl

@[simp]
theorem machine_meter (w : World σ) (change : Metrics → Metrics) :
    (w.meter change).machine = w.machine := by
  rw [meter_eq]

@[simp]
theorem machine_put (w : World σ) (addr : UInt16) (value : UInt8) :
    (w.put addr value).machine = w.machine.put addr value := rfl

@[simp]
theorem machine_enter (w : World σ) (pc : UInt16) :
    (w.enter pc).machine = w.machine.enter pc := rfl

/-- Reading gives the stored byte and reports what the state of the cell calls for. -/
theorem readAs_bare (host : Host σ) {w : World σ} (direct : w.machine.Direct)
    (undefined uninitialized : FaultKind) (addr : UInt16) :
    (w.readAs host undefined uninitialized addr).1 = w.machine.mem.raw addr ∧
      (w.readAs host undefined uninitialized addr).2.machine =
        w.machine.noteRead undefined uninitialized addr := by
  have unbound : w.machine.mem.hook? .read addr = none :=
    direct.hook?_eq_none AccessKind.noConfusion addr
  by_cases plain : (w.machine.mem.state addr).isPlain = true
  · obtain ⟨declared, -, written⟩ := CellState.flags_of_isPlain plain
    simp [readAs, Machine.noteRead, plain, declared, written]
  · by_cases undeclared : (w.machine.mem.state addr).undefined = true
    · simp [readAs, Machine.noteRead, plain, unbound, undeclared]
    · by_cases blank : (w.machine.mem.state addr).uninitialized = true
      · simp [readAs, Machine.noteRead, plain, unbound, undeclared, blank]
      · simp [readAs, Machine.noteRead, plain, unbound, undeclared, blank]

theorem write_bare (host : Host σ) {w : World σ} (direct : w.machine.Direct) (addr : UInt16)
    (value : UInt8) : (w.write host addr value).machine = w.machine.write addr value := by
  have unbound : w.machine.mem.hook? .write addr = none :=
    direct.hook?_eq_none AccessKind.noConfusion addr
  by_cases plain : (w.machine.mem.state addr).isPlain = true
  · obtain ⟨declared, writable, -⟩ := CellState.flags_of_isPlain plain
    simp [write, Machine.write, plain, declared, writable]
  · by_cases readOnly : (w.machine.mem.state addr).rom = true
    · simp [write, Machine.write, plain, unbound, readOnly]
    · by_cases undeclared : (w.machine.mem.state addr).undefined = true
      · simp [write, Machine.write, plain, unbound, readOnly, undeclared]
      · simp [write, Machine.write, plain, unbound, readOnly, undeclared]

theorem readFlag_bare (w : World σ) (flag : Flag) :
    (w.readFlag flag).1 = w.machine.regs.status.get flag ∧
      (w.readFlag flag).2.machine = w.machine.noteFlag flag := by
  by_cases unknown : w.machine.regs.unknown.get flag = true
  · simp [readFlag, Machine.noteFlag, unknown]
  · simp [readFlag, Machine.noteFlag, unknown]

end World

/-- Micro-operations of a world whose accesses come to no hook act on its bare machine. -/
theorem MicroOp.perform_bare (host : Host σ) (op : MicroOp) {w : World σ}
    (direct : w.machine.Direct) :
    (op.perform host w).1 = (op.effect w.machine).1 ∧
      (op.perform host w).2.machine = (op.effect w.machine).2 := by
  cases op with
  | fetch addr => exact World.readAs_bare host direct .executeUndefined .executeUninitialized addr
  | load addr => exact World.readAs_bare host direct .readUndefined .readUninitialized addr
  | store addr value => exact ⟨rfl, World.write_bare host direct addr value⟩
  | isBlank addr =>
    refine ⟨?_, rfl⟩
    change w.isBlank addr = (w.machine.mem.state addr).uninitialized
    have unbound : w.machine.mem.hook? .read addr = none :=
      direct.hook?_eq_none AccessKind.noConfusion addr
    simp [World.isBlank, unbound]
  | flag which => exact w.readFlag_bare which
  | register | setRegister | pc | setPc | setFlag | forget | status | setStatus | here | raise
    | charge | observe => exact ⟨rfl, rfl⟩

theorem Machine.Direct.of_fixture {m n : Machine} (direct : m.Direct) (same : n.fixture = m.fixture) :
    n.Direct := by
  unfold Direct
  rw [hooks_eq same]
  exact direct

/-- Microcode of a world whose accesses come to no hook acts on its bare machine. -/
theorem Micro.run_bare (host : Host σ) (program : Micro α) {w : World σ}
    (direct : w.machine.Direct) :
    (program.run host w).1 = (program.exec w.machine).1 ∧
      (program.run host w).2.machine = (program.exec w.machine).2 := by
  induction program generalizing w with
  | done result => exact ⟨rfl, rfl⟩
  | step op next inductionHypothesis =>
    obtain ⟨answer, machine⟩ := op.perform_bare host direct
    have stillDirect : (op.perform host w).2.machine.Direct := by
      rw [machine]
      exact direct.of_fixture (op.change_effect w.machine).fixture
    have rest := inductionHypothesis (op.perform host w).1 stillDirect
    rw [machine, answer] at rest
    simpa only [run_step, exec_step, answer] using rest

namespace World

theorem exists_traceInstruction_eq (pc : UInt16) (w : World σ) :
    ∃ sink journal, w.traceInstruction pc =
      { w with instruments := { w.instruments with sink }, journal } := by
  unfold traceInstruction trace
  split
  · split
    all_goals exact ⟨_, _, rfl⟩
  · exact ⟨_, _, rfl⟩

@[simp]
theorem machine_traceInstruction (w : World σ) (pc : UInt16) :
    (w.traceInstruction pc).machine = w.machine := by
  obtain ⟨_, _, traced⟩ := w.exists_traceInstruction_eq pc
  rw [traced]

/-- The instruction at an address, without what instruments make of it. -/
theorem runInstruction_bare (host : Host σ) {w : World σ} (direct : w.machine.Direct)
    (pc : UInt16) :
    (w.runInstruction host pc).machine = ((Micro.instructionAt pc).exec w.machine).2 := by
  have tracedDirect : (w.traceInstruction pc).machine.Direct := by
    rwa [machine_traceInstruction]
  obtain ⟨fetched, machine⟩ := (Micro.fetchInstruction pc).run_bare host tracedDirect
  rw [machine_traceInstruction] at fetched machine
  simp only [runInstruction, profileSample, machine_meter]
  generalize (Micro.fetchInstruction pc).run host (w.traceInstruction pc) = result
    at fetched machine
  obtain ⟨⟨instruction, value⟩, v⟩ := result
  change v.machine = _ at machine
  change (instruction, value) = _ at fetched
  have advanced : (v.mapRegs fun regs =>
      { regs with pc := pc + UInt16.ofNat instruction.length }).clearSample.machine.Direct := by
    change v.machine.Direct
    rw [machine]
    exact direct.of_fixture ((Micro.fetchInstruction pc).fixture_exec w.machine)
  have worked := ((Micro.ofInstruction instruction value).run_bare host advanced).2
  rw [worked]
  simp only [Micro.instructionAt, Micro.exec_bind, Micro.exec_setPc, ← fetched, ← machine]
  rfl

def startAt (addr : UInt16) (w : World σ) : World σ :=
  w.mapRegs fun regs => { regs with pc := addr }

/-- A window of a world without hooks is a window of its bare machine. -/
theorem window_bare (host : Host σ) {w : World σ} (free : w.machine.HookFree) :
    (w.window host).machine = w.machine.window := by
  have enteredFree : (w.enter w.machine.regs.pc).machine.HookFree := free
  have unbound := Memory.hook?_of_hooks_eq_nil enteredFree .exec w.machine.regs.pc
  have executed := runInstruction_bare host enteredFree.direct w.machine.regs.pc
  simp only [machine_enter] at unbound executed
  unfold window Machine.window
  by_cases limit : w.machine.limitReached = true
  · simp [limit]
  · by_cases sentinel : w.machine.atSentinel = true
    · simp [limit, sentinel]
    · simp [limit, sentinel, unbound, executed]

/-- Settling empties the slot. Besides, it counts and logs a fault. -/
theorem exists_settle_eq (w : World σ) :
    ∃ faults log, w.settle.2 =
      { w with
        machine := { w.machine with slot := {} }
        metrics := { w.metrics with faults }
        journal := { w.journal with log } } := by
  unfold settle
  split
  next held =>
    have empty : w.machine.slot = {} := by
      rw [← held]
    refine ⟨w.metrics.faults, w.journal.log, ?_⟩
    rw [← empty]
  next fault held =>
    dsimp only
    rw [meter_eq]
    split
    all_goals split
    all_goals exact ⟨_, _, rfl⟩

theorem settle_bare (w : World σ) :
    w.settle.1 = w.machine.settle.1 ∧ w.settle.2.machine = w.machine.settle.2 := by
  constructor
  · unfold settle Machine.settle
    cases held : w.machine.slot.fault with
    | none => rfl
    | some fault =>
      by_cases fatal : w.machine.level.isFatal fault.kind = true
      · simp [fatal, Option.filter]
      · simp [fatal, Option.filter]
  · obtain ⟨_, _, settled⟩ := w.exists_settle_eq
    rw [settled]
    rfl

theorem step_bare (host : Host σ) {w : World σ} (free : w.machine.HookFree) :
    (w.step host).1 = w.machine.step.1 ∧ (w.step host).2.machine = w.machine.step.2 := by
  unfold step Machine.step
  rw [← window_bare host free]
  exact settle_bare _

end World

namespace Machine

/-- Windows leave the fixture alone but for the name of the instruction at work. -/
theorem fixture_window (m : Machine) : m.window.fixture = (m.enter m.regs.pc).fixture := by
  unfold window
  split
  · rfl
  · split
    · rfl
    · exact Micro.fixture_exec _ _

theorem fixture_step (m : Machine) : m.step.2.fixture = (m.enter m.regs.pc).fixture :=
  m.fixture_window

theorem limit_step (m : Machine) : m.step.2.limit = m.limit :=
  (limit_eq m.fixture_step).trans rfl

theorem hookFree_step {m : Machine} (free : m.HookFree) : m.step.2.HookFree :=
  (hooks_eq m.fixture_step).trans free

theorem hookFree_afterSteps {m : Machine} (free : m.HookFree) (count : Nat) :
    (m.afterSteps count).HookFree := by
  induction count with
  | zero => exact free
  | succ count inductionHypothesis => exact hookFree_step inductionHypothesis

end Machine

namespace World

/-- Steps of a world without hooks are steps of its bare machine. -/
theorem steps_bare (host : Host σ) (bound : Nat) {w : World σ} (free : w.machine.HookFree) :
    (w.steps host bound).1 = (w.machine.steps bound).1 ∧
      (w.steps host bound).2.machine = (w.machine.steps bound).2 := by
  induction bound generalizing w with
  | zero => exact ⟨rfl, rfl⟩
  | succ bound inductionHypothesis =>
    obtain ⟨outcome, machine⟩ := w.step_bare host free
    have stillFree : (w.step host).2.machine.HookFree := by
      rw [machine]
      exact Machine.hookFree_step free
    have rest := inductionHypothesis stillFree
    unfold steps Machine.steps
    generalize w.step host = result at outcome machine rest
    obtain ⟨stopped, v⟩ := result
    generalize w.machine.step = bareResult at outcome machine
    obtain ⟨bareStopped, m⟩ := bareResult
    change stopped = bareStopped at outcome
    change v.machine = m at machine
    subst bareStopped
    subst m
    cases stopped with
    | none => exact rest
    | some fault => exact ⟨rfl, rfl⟩

/-- The world after a number of steps. It goes on behind the faults that would stop a run. -/
def afterSteps (host : Host σ) : Nat → World σ → World σ
  | 0, w => w
  | count + 1, w => ((w.afterSteps host count).step host).2

/-- Going on for a number of steps, a world without hooks does what its bare machine does. -/
theorem afterSteps_bare (host : Host σ) (count : Nat) {w : World σ} (free : w.machine.HookFree) :
    (w.afterSteps host count).machine = w.machine.afterSteps count := by
  induction count with
  | zero => rfl
  | succ count inductionHypothesis =>
    have stillFree : (w.afterSteps host count).machine.HookFree := by
      rw [inductionHypothesis]
      exact Machine.hookFree_afterSteps free count
    exact (step_bare host stillFree).2.trans (congrArg (·.step.2) inductionHypothesis)

theorem run_of_running (host : Host σ) {bound : Nat} {addr : UInt16} {v w : World σ}
    (reached : ((w.startAt addr).log (.runStarted addr)).steps host bound = (none, v)) :
    w.run host bound addr = (.unfinished, v) := by
  change ((w.mapRegs fun regs => { regs with pc := addr }).log (.runStarted addr)).steps host bound =
    (none, v) at reached
  unfold run runSince
  dsimp only
  rw [reached]

theorem run_of_stopped (host : Host σ) {bound : Nat} {addr : UInt16} {v w : World σ} {fault : Fault}
    (reached : ((w.startAt addr).log (.runStarted addr)).steps host bound = (some fault, v)) :
    w.run host bound addr = (.ofFault fault, v.finishRun w.machine.cycles fault) := by
  change ((w.mapRegs fun regs => { regs with pc := addr }).log (.runStarted addr)).steps host bound =
    (some fault, v) at reached
  unfold run runSince
  dsimp only
  rw [reached]
  rfl

/-- A run is its steps, with an outcome instead of the fault that has ended them. -/
theorem run_eq_steps (host : Host σ) (bound : Nat) (addr : UInt16) (w : World σ) :
    (w.run host bound addr).1 =
        .ofSteps (((w.startAt addr).log (.runStarted addr)).steps host bound).1 ∧
      (w.run host bound addr).2.machine =
        (((w.startAt addr).log (.runStarted addr)).steps host bound).2.machine := by
  rcases reached : ((w.startAt addr).log (.runStarted addr)).steps host bound with ⟨_ | fault, v⟩
  · rw [run_of_running host reached]
    exact ⟨rfl, rfl⟩
  · rw [run_of_stopped host reached]
    exact ⟨rfl, machine_meter _ _⟩

theorem run_bare (host : Host σ) (bound : Nat) (addr : UInt16) {w : World σ}
    (free : w.machine.HookFree) :
    (w.run host bound addr).1 = (w.machine.run bound addr).1 ∧
      (w.run host bound addr).2.machine = (w.machine.run bound addr).2 := by
  have startFree : ((w.startAt addr).log (.runStarted addr)).machine.HookFree := free
  obtain ⟨stopped, machine⟩ := steps_bare host bound startFree
  obtain ⟨outcome, after⟩ := run_eq_steps host bound addr w
  exact ⟨outcome.trans (congrArg Outcome.ofSteps stopped), after.trans machine⟩

/-- A run is unfinished exactly if no window within its bound stops the machine. -/
theorem run_eq_unfinished_iff (host : Host σ) (bound : Nat) (addr : UInt16) {w : World σ}
    (free : w.machine.HookFree) :
    (w.run host bound addr).1 = .unfinished ↔ ((w.machine.startAt addr).steps bound).1 = none := by
  rw [(run_bare host bound addr free).1]
  exact Outcome.ofSteps_eq_unfinished_iff

end World

end Mos6502
