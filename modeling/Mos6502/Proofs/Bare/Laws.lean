import Mos6502.Proofs.Bare.Machine
import Mos6502.Proofs.InstructionTable

/-!
Laws of bare machines. All that a micro-operation can do is listed once, as `Change`; what every change keeps,
microcode keeps. So no instruction touches the fixture of a machine, a held fault stays, and the cycle counter
moves by what is charged.
-/

namespace Mos6502

variable {α : Type}

namespace Memory

@[simp]
theorem hooks_modify (mem : Memory) (addr : UInt16) (change : Cell → Cell) :
    (mem.modify addr change).hooks = mem.hooks := rfl

@[simp]
theorem size_modify (mem : Memory) (addr : UInt16) (change : Cell → Cell) :
    (mem.modify addr change).size = mem.size := by
  simp [modify, size]

@[simp]
theorem cell?_modify (mem : Memory) (addr other : UInt16) (change : Cell → Cell) :
    (mem.modify addr change).cell? other =
      if addr = other then (mem.cell? other).map change else mem.cell? other := by
  simp only [cell?, modify, Array.getElem?_modify, UInt16.toNat_inj]

/-- Storing a byte marks its cell as written, in one change of that cell. -/
theorem markInitialized_store (mem : Memory) (addr : UInt16) (value : UInt8) :
    (mem.store addr value).markInitialized addr =
      mem.modify addr fun cell => (cell.withByte value).asInitialized := by
  simp only [markInitialized, store, modify, Memory.mk.injEq, and_true]
  apply Array.ext_getElem?
  intro index
  simp only [Array.getElem?_modify]
  by_cases here : addr.toNat = index
  · simp [here, Function.comp_def]
  · simp [here]

theorem cell?_of_defined {mem : Memory} {addr : UInt16}
    (defined : (mem.state addr).undefined = false) : ∃ cell, mem.cell? addr = some cell := by
  cases found : mem.cell? addr with
  | none => simp [state, found, CellState.undeclared] at defined
  | some cell => exact ⟨cell, rfl⟩

theorem raw_markInitialized (mem : Memory) (addr other : UInt16) :
    (mem.markInitialized addr).raw other = mem.raw other := by
  unfold raw markInitialized
  rw [cell?_modify]
  by_cases here : addr = other
  · rw [if_pos here]
    cases mem.cell? other <;> rfl
  · rw [if_neg here]

theorem raw_markInitialized_store {mem : Memory} {addr : UInt16}
    (defined : (mem.state addr).undefined = false) (value : UInt8) :
    ((mem.store addr value).markInitialized addr).raw addr = value := by
  obtain ⟨cell, found⟩ := cell?_of_defined defined
  rw [markInitialized_store, raw, cell?_modify, if_pos rfl, found]
  rfl

theorem written_of_readable {mem : Memory} {addr : UInt16}
    (readable : (mem.byte? addr).isSome = true) :
    mem.byte? addr = some (mem.raw addr) ∧ (mem.state addr).uninitialized = false := by
  unfold byte? raw state at *
  cases found : mem.cell? addr with
  | none => simp [found] at readable
  | some cell =>
    cases unwritten : cell.state.uninitialized with
    | true => simp [found, unwritten] at readable
    | false => simp [unwritten]

end Memory

namespace FaultSlot

theorem fault_record (slot : FaultSlot) (fault : Fault) :
    (slot.record fault.kind fault.addr).fault = some (slot.fault.getD fault) := by
  cases held : slot.fault with
  | none => exact record_of_none held fault.kind fault.addr
  | some first =>
    rw [record_of_some held, held]
    rfl

end FaultSlot

/-- What no instruction changes: limits and modes of a machine and the extent of its memory. -/
structure Fixture where
  hooks : List HookBinding
  size : Nat
  limit : UInt64
  level : ErrorLevel
  inCall : Bool
  current : UInt16
deriving DecidableEq, Repr

namespace Machine

/-- The fixture of a machine. -/
def fixture (machine : Machine) : Fixture :=
  { hooks := machine.mem.hooks
    size := machine.mem.size
    limit := machine.limit
    level := machine.level
    inCall := machine.inCall
    current := machine.current }

@[simp]
theorem fixture_raise (machine : Machine) (kind : FaultKind) (addr : UInt16) :
    (machine.raise kind addr).fixture = machine.fixture := rfl

@[simp]
theorem fixture_mapRegs (machine : Machine) (change : Registers → Registers) :
    (machine.mapRegs change).fixture = machine.fixture := rfl

@[simp]
theorem fixture_markInitialized (machine : Machine) (addr : UInt16) :
    (machine.mapMem (·.markInitialized addr)).fixture = machine.fixture := by
  simp [fixture, mapMem, Memory.markInitialized]

@[simp]
theorem fixture_put (machine : Machine) (addr : UInt16) (value : UInt8) :
    (machine.put addr value).fixture = machine.fixture := by
  simp [fixture, put, mapMem, Memory.markInitialized_store]

@[simp]
theorem fixture_charge (machine : Machine) (cycles : UInt64) :
    { machine with cycles }.fixture = machine.fixture := rfl

theorem level_eq {m n : Machine} (same : m.fixture = n.fixture) : m.level = n.level :=
  congrArg Fixture.level same

theorem limit_eq {m n : Machine} (same : m.fixture = n.fixture) : m.limit = n.limit :=
  congrArg Fixture.limit same

theorem inCall_eq {m n : Machine} (same : m.fixture = n.fixture) : m.inCall = n.inCall :=
  congrArg Fixture.inCall same

theorem current_eq {m n : Machine} (same : m.fixture = n.fixture) : m.current = n.current :=
  congrArg Fixture.current same

theorem hooks_eq {m n : Machine} (same : m.fixture = n.fixture) : m.mem.hooks = n.mem.hooks :=
  congrArg Fixture.hooks same

end Machine

/-- All that a micro-operation can do to a bare machine, with the tests that memory has passed. -/
inductive Change (m : Machine) : Machine → Prop where
  | keep : Change m m
  | report (kind : FaultKind) (addr : UInt16) : Change m (m.raise kind addr)
  | heal (kind : FaultKind) (addr : UInt16) :
      (m.mem.state addr).undefined = false → (m.mem.state addr).uninitialized = true →
      Change m ((m.raise kind addr).mapMem (·.markInitialized addr))
  | put (addr : UInt16) (value : UInt8) :
      (m.mem.state addr).rom = false → (m.mem.state addr).undefined = false →
      Change m (m.put addr value)
  | assign (change : Registers → Registers) : Change m (m.mapRegs change)
  | learn (addr : UInt16) (change : Registers → Registers) :
      Change m ((m.raise .readUninitialized addr).mapRegs change)
  | charge (cycles : Nat) : Change m { m with cycles := m.cycles + UInt64.ofNat cycles }

namespace Machine

theorem fault_raise {m : Machine} (empty : m.slot = {}) (kind : FaultKind) (addr : UInt16) :
    (m.raise kind addr).slot.fault = some ⟨kind, addr⟩ := by
  have free : m.slot.fault = none := by
    rw [empty]
  exact FaultSlot.record_of_none free kind addr

theorem slot_raise_ne_empty (m : Machine) (kind : FaultKind) (addr : UInt16) :
    (m.raise kind addr).slot ≠ {} := by
  have recorded := FaultSlot.fault_record m.slot ⟨kind, addr⟩
  intro empty
  change (m.raise kind addr).slot.fault = _ at recorded
  rw [empty] at recorded
  exact absurd recorded (Option.some_ne_none _).symm

theorem noteRead_of_undefined {m : Machine} {addr : UInt16}
    (undeclared : (m.mem.state addr).undefined = true) (undefined uninitialized : FaultKind) :
    m.noteRead undefined uninitialized addr = m.raise undefined addr := by
  simp [noteRead, undeclared]

theorem noteRead_of_uninitialized {m : Machine} {addr : UInt16}
    (declared : (m.mem.state addr).undefined = false)
    (blank : (m.mem.state addr).uninitialized = true) (undefined uninitialized : FaultKind) :
    m.noteRead undefined uninitialized addr =
      (m.raise uninitialized addr).mapMem (·.markInitialized addr) := by
  simp [noteRead, declared, blank]

theorem noteRead_of_readable {m : Machine} {addr : UInt16}
    (declared : (m.mem.state addr).undefined = false)
    (written : (m.mem.state addr).uninitialized = false) (undefined uninitialized : FaultKind) :
    m.noteRead undefined uninitialized addr = m := by
  simp [noteRead, declared, written]

/-- A read that leaves the slot empty has found a declared and written cell. -/
theorem readable_of_noteRead {m : Machine} {undefined uninitialized : FaultKind} {addr : UInt16}
    (empty : (m.noteRead undefined uninitialized addr).slot = {}) :
    (m.mem.state addr).undefined = false ∧ (m.mem.state addr).uninitialized = false := by
  cases undeclared : (m.mem.state addr).undefined with
  | true =>
    rw [noteRead_of_undefined undeclared] at empty
    exact absurd empty (m.slot_raise_ne_empty undefined addr)
  | false =>
    cases blank : (m.mem.state addr).uninitialized with
    | true =>
      rw [noteRead_of_uninitialized undeclared blank] at empty
      exact absurd empty (m.slot_raise_ne_empty uninitialized addr)
    | false => exact ⟨rfl, rfl⟩

theorem raw_noteRead (m : Machine) (undefined uninitialized : FaultKind) (addr other : UInt16) :
    (m.noteRead undefined uninitialized addr).mem.raw other = m.mem.raw other := by
  unfold noteRead
  split
  · rfl
  · split
    · exact m.mem.raw_markInitialized addr other
    · rfl

theorem change_noteRead (m : Machine) (undefined uninitialized : FaultKind) (addr : UInt16) :
    Change m (m.noteRead undefined uninitialized addr) := by
  cases undeclared : (m.mem.state addr).undefined with
  | true =>
    rw [noteRead_of_undefined undeclared]
    exact .report undefined addr
  | false =>
    cases blank : (m.mem.state addr).uninitialized with
    | true =>
      rw [noteRead_of_uninitialized undeclared blank]
      exact .heal uninitialized addr undeclared blank
    | false =>
      rw [noteRead_of_readable undeclared blank]
      exact .keep

theorem write_of_rom {m : Machine} {addr : UInt16} (readOnly : (m.mem.state addr).rom = true)
    (value : UInt8) : m.write addr value = m.raise .writeRom addr := by
  simp [write, readOnly]

theorem write_of_undefined {m : Machine} {addr : UInt16}
    (writable : (m.mem.state addr).rom = false) (undeclared : (m.mem.state addr).undefined = true)
    (value : UInt8) : m.write addr value = m.raise .writeUndefined addr := by
  simp [write, writable, undeclared]

theorem write_of_writable {m : Machine} {addr : UInt16}
    (writable : (m.mem.state addr).rom = false) (declared : (m.mem.state addr).undefined = false)
    (value : UInt8) : m.write addr value = m.put addr value := by
  simp [write, writable, declared]

theorem change_write (m : Machine) (addr : UInt16) (value : UInt8) :
    Change m (m.write addr value) := by
  cases readOnly : (m.mem.state addr).rom with
  | true =>
    rw [write_of_rom readOnly]
    exact .report .writeRom addr
  | false =>
    cases undeclared : (m.mem.state addr).undefined with
    | true =>
      rw [write_of_undefined readOnly undeclared]
      exact .report .writeUndefined addr
    | false =>
      rw [write_of_writable readOnly undeclared]
      exact .put addr value readOnly undeclared

theorem change_noteFlag (m : Machine) (flag : Flag) : Change m (m.noteFlag flag) := by
  unfold noteFlag
  split
  · exact .learn m.current _
  · exact .keep

end Machine

/-- The effect of a micro-operation is one of the changes. -/
theorem MicroOp.change_effect (op : MicroOp) (m : Machine) : Change m (op.effect m).2 := by
  cases op with
  | fetch addr => exact m.change_noteRead .executeUndefined .executeUninitialized addr
  | load addr => exact m.change_noteRead .readUndefined .readUninitialized addr
  | store addr value => exact m.change_write addr value
  | flag which => exact m.change_noteFlag which
  | raise kind => exact .report kind m.current
  | charge cycles => exact .charge cycles
  | setRegister target value => exact .assign (·.set target value)
  | setPc addr => exact .assign fun regs => { regs with pc := addr }
  | setFlag which value => exact .assign (·.setFlag which value)
  | forget mask => exact .assign (·.forget mask)
  | setStatus value => exact .assign (·.setStatus value)
  | isBlank | register | pc | status | here | observe => exact .keep

/-- The cycles that a micro-operation charges. -/
def MicroOp.cost : MicroOp → Nat
  | .charge cycles => cycles
  | _ => 0

theorem MicroOp.cycles_effect (op : MicroOp) (m : Machine) :
    (op.effect m).2.cycles = m.cycles + UInt64.ofNat op.cost := by
  have unpaid {n : Machine} (same : n.cycles = m.cycles) : n.cycles = m.cycles + UInt64.ofNat 0 :=
    same.trans (UInt64.add_zero _).symm
  have read (undefined uninitialized : FaultKind) (addr : UInt16) :
      (m.noteRead undefined uninitialized addr).cycles = m.cycles := by
    unfold Machine.noteRead
    split
    · rfl
    · split <;> rfl
  cases op with
  | charge cycles => rfl
  | fetch addr => exact unpaid (read .executeUndefined .executeUninitialized addr)
  | load addr => exact unpaid (read .readUndefined .readUninitialized addr)
  | store addr value =>
    refine unpaid (n := m.write addr value) ?_
    unfold Machine.write
    split
    · rfl
    · split <;> rfl
  | flag which =>
    refine unpaid (n := m.noteFlag which) ?_
    unfold Machine.noteFlag
    split <;> rfl
  | isBlank | register | setRegister | pc | setPc | setFlag | forget | status | setStatus | here
    | raise | observe => exact unpaid rfl

namespace Change

variable {m n : Machine}

theorem fixture (change : Change m n) : n.fixture = m.fixture := by
  cases change <;> simp

theorem slot_of_some (change : Change m n) {fault : Fault} (held : m.slot.fault = some fault) :
    n.slot = m.slot := by
  cases change with
  | report kind addr | heal kind addr | learn addr => exact FaultSlot.record_of_some held _ _
  | keep | put | assign | charge => rfl

end Change

namespace Micro

/-- A property that every change keeps is kept by microcode. -/
theorem exec_preserves {P : Machine → Prop}
    (each : ∀ {m n : Machine}, Change m n → P m → P n) (program : Micro α) {m : Machine}
    (holds : P m) : P (program.exec m).2 := by
  induction program generalizing m with
  | done result => exact holds
  | step op next inductionHypothesis =>
    exact inductionHypothesis _ (each (op.change_effect m) holds)

theorem fixture_exec (program : Micro α) (m : Machine) : (program.exec m).2.fixture = m.fixture :=
  program.exec_preserves (P := fun n => n.fixture = m.fixture)
    (fun change same => change.fixture.trans same) rfl

/-- A held fault survives all microcode. -/
theorem slot_exec_of_some (program : Micro α) {m : Machine} {fault : Fault}
    (held : m.slot.fault = some fault) : (program.exec m).2.slot.fault = some fault :=
  program.exec_preserves (P := fun n => n.slot.fault = some fault)
    (fun change held => by rw [change.slot_of_some held, held]) held

/-- Fetching reads the bytes of the instruction that the first of them tells. -/
theorem exec_fetchInstruction {addr : UInt16} {m : Machine} {instruction : Instruction}
    (described : Instruction.decode (m.mem.raw addr) = instruction) :
    (fetchInstruction addr).exec m =
      ((instruction, m.mem.operandAt addr instruction),
        m.noteFetched (instruction.addresses addr)) := by
  unfold fetchInstruction
  simp only [exec_bind, exec_fetch, described]
  rcases instruction.length_cases with one | two | three
  · simp [one, Memory.operandAt, Instruction.addresses, Machine.noteFetched]
  · simp [two, Memory.operandAt, Instruction.addresses, Machine.noteFetched, List.range_succ,
      Machine.raw_noteRead]
  · simp [three, Memory.operandAt, Instruction.addresses, Machine.noteFetched, List.range_succ,
      Machine.raw_noteRead]

theorem exec_fetchInstruction_fst (pc : UInt16) (m : Machine) :
    ((fetchInstruction pc).exec m).1.1 = Instruction.decode (m.mem.raw pc) := by
  rw [exec_fetchInstruction rfl]

/-- The work of an instruction begins with the program counter behind its bytes. -/
theorem exec_instructionAt (pc : UInt16) (m : Machine) :
    (instructionAt pc).exec m =
      (ofInstruction ((fetchInstruction pc).exec m).1.1 ((fetchInstruction pc).exec m).1.2).exec
        (((fetchInstruction pc).exec m).2.startAt
          (pc + UInt16.ofNat ((fetchInstruction pc).exec m).1.1.length)) := by
  unfold instructionAt
  rw [exec_bind]
  generalize (fetchInstruction pc).exec m = result
  obtain ⟨⟨instruction, value⟩, n⟩ := result
  rfl

/-- An instruction without operand bytes takes a single fetch. -/
theorem exec_fetchInstruction_of_single {pc : UInt16} {m : Machine} {instruction : Instruction}
    (described : Instruction.decode (m.mem.raw pc) = instruction)
    (single : instruction.length = 1) :
    (fetchInstruction pc).exec m =
      ((instruction, 0), m.noteRead .executeUndefined .executeUninitialized pc) := by
  rw [exec_fetchInstruction described]
  simp [Memory.operandAt, Instruction.addresses, Machine.noteFetched, single, wordOf]

end Micro

namespace Machine

theorem window_of_limitReached {m : Machine} (reached : m.limitReached = true) :
    m.window = (m.enter m.regs.pc).raise .cycleLimit m.regs.pc := by
  simp [window, reached]

theorem window_of_atSentinel {m : Machine} (below : m.limitReached = false)
    (sentinel : m.atSentinel = true) :
    m.window = (m.enter m.regs.pc).raise .callReturn m.regs.pc := by
  simp [window, below, sentinel]

theorem window_of_instruction {m : Machine} (below : m.limitReached = false)
    (away : m.atSentinel = false) :
    m.window = ((Micro.instructionAt m.regs.pc).exec (m.enter m.regs.pc)).2 := by
  simp [window, below, away]

@[simp]
theorem settle_snd (m : Machine) : m.settle.2 = { m with slot := {} } := rfl

/-- A window that begins with an empty slot and at the limit stops the machine for that reason. -/
theorem step_fst_of_limitReached {m : Machine} (empty : m.slot = {})
    (reached : m.limitReached = true) : m.step.1 = some ⟨.cycleLimit, m.regs.pc⟩ := by
  have held := fault_raise (m := m.enter m.regs.pc) empty .cycleLimit m.regs.pc
  unfold step settle
  rw [window_of_limitReached reached, held]
  rfl

theorem step_fst_of_atSentinel {m : Machine} (empty : m.slot = {}) (below : m.limitReached = false)
    (sentinel : m.atSentinel = true) : m.step.1 = some ⟨.callReturn, m.regs.pc⟩ := by
  have held := fault_raise (m := m.enter m.regs.pc) empty .callReturn m.regs.pc
  unfold step settle
  rw [window_of_atSentinel below sentinel, held]
  rfl

theorem steps_succ_of_running {m : Machine} (running : m.step.1 = none) (bound : Nat) :
    m.steps (bound + 1) = m.step.2.steps bound := by
  have result : m.step = (none, m.step.2) := Prod.ext running rfl
  rw [steps, result]

theorem steps_succ_of_stopped {m : Machine} {fault : Fault} (stopped : m.step.1 = some fault)
    (bound : Nat) : m.steps (bound + 1) = m.step := by
  have result : m.step = (some fault, m.step.2) := Prod.ext stopped rfl
  rw [steps, result]

theorem steps_add_of_running {m : Machine} {first : Nat} (running : (m.steps first).1 = none)
    (second : Nat) : m.steps (first + second) = (m.steps first).2.steps second := by
  induction first generalizing m with
  | zero => rw [Nat.zero_add, steps]
  | succ first inductionHypothesis =>
    cases stopped : m.step.1 with
    | none =>
      rw [steps_succ_of_running stopped] at running ⊢
      rw [Nat.succ_add, steps_succ_of_running stopped, inductionHypothesis running]
    | some fault =>
      rw [steps_succ_of_stopped stopped, stopped] at running
      exact absurd running (Option.some_ne_none fault)

theorem steps_succ_of_steps {m : Machine} {count : Nat} (running : (m.steps count).1 = none) :
    m.steps (count + 1) = (m.steps count).2.step := by
  rw [steps_add_of_running running]
  cases outcome : (m.steps count).2.step.1 with
  | none => exact (steps_succ_of_running outcome 0).trans (Prod.ext outcome.symm rfl)
  | some fault => exact steps_succ_of_stopped outcome 0

/-- Once stopped, more steps change nothing. -/
theorem steps_add_of_stopped {m : Machine} {first : Nat} {fault : Fault}
    (stopped : (m.steps first).1 = some fault) (second : Nat) :
    m.steps (first + second) = m.steps first := by
  induction first generalizing m with
  | zero => exact absurd stopped (Option.some_ne_none fault).symm
  | succ first inductionHypothesis =>
    rw [Nat.succ_add]
    cases outcome : m.step.1 with
    | none =>
      rw [steps_succ_of_running outcome] at stopped
      rw [steps_succ_of_running outcome, steps_succ_of_running outcome,
        inductionHypothesis stopped]
    | some fault => rw [steps_succ_of_stopped outcome, steps_succ_of_stopped outcome]

@[simp]
theorem slot_step (m : Machine) : m.step.2.slot = {} := rfl

theorem steps_preserves {P : Machine → Prop} (each : ∀ {m : Machine}, P m → P m.step.2)
    (bound : Nat) {m : Machine} (holds : P m) : P (m.steps bound).2 := by
  induction bound generalizing m with
  | zero => exact holds
  | succ bound inductionHypothesis =>
    cases outcome : m.step.1 with
    | none =>
      rw [steps_succ_of_running outcome]
      exact inductionHypothesis (each holds)
    | some fault =>
      rw [steps_succ_of_stopped outcome]
      exact each holds

theorem slot_steps {m : Machine} (empty : m.slot = {}) (bound : Nat) :
    (m.steps bound).2.slot = {} :=
  steps_preserves (P := fun n => n.slot = {}) (fun _ => rfl) bound empty

end Machine

end Mos6502
