import Mos6502.Execution.Run

/-!
Bare machines. Where no hook is bound, neither the host nor the instruments have a part in what execution
does to a machine. That part is stated here as functions on machines alone: the effect of a micro-operation,
of microcode, of a window and of a step. `Mos6502.Proofs.Bare.Correspondence` proves that execution of a world
acts on its machine in just this way.

Ordinary cells need no path of their own here: a cell without flags passes all tests of the general path.
-/

namespace Mos6502

variable {α β : Type}

/-- The outcome of a run by the fault that has ended it, if one has. -/
def Outcome.ofSteps : Option Fault → Outcome
  | none => .unfinished
  | some fault => .ofFault fault

theorem Outcome.ofSteps_eq_unfinished_iff {stopped : Option Fault} :
    Outcome.ofSteps stopped = .unfinished ↔ stopped = none := by
  cases stopped with
  | none => simp [ofSteps]
  | some fault =>
    simp only [ofSteps, ofFault, reduceCtorEq, iff_false]
    split <;> simp

theorem Outcome.eq_some_of_ofSteps {stopped : Option Fault} {fault : Fault}
    (outcome : Outcome.ofSteps stopped = .stopped fault) : stopped = some fault := by
  cases stopped with
  | none => cases outcome
  | some other =>
    change ofFault other = .stopped fault at outcome
    unfold ofFault at outcome
    split at outcome
    next returned => cases outcome
    next unreturned => exact congrArg some (Outcome.stopped.inj outcome)

namespace Machine

def HookFree (machine : Machine) : Prop :=
  machine.mem.hooks = []

/-- Accesses to memory come to no hook: only exec hooks are bound. -/
def Direct (machine : Machine) : Prop :=
  ∀ binding ∈ machine.mem.hooks, binding.kind = .exec

theorem HookFree.direct {machine : Machine} (free : machine.HookFree) : machine.Direct := by
  intro binding bound
  rw [free] at bound
  cases bound

/-- Records a fault unless one is held. -/
def raise (kind : FaultKind) (addr : UInt16) (machine : Machine) : Machine :=
  { machine with slot := machine.slot.record kind addr }

def mapRegs (change : Registers → Registers) (machine : Machine) : Machine :=
  { machine with regs := change machine.regs }

def mapMem (change : Memory → Memory) (machine : Machine) : Machine :=
  { machine with mem := change machine.mem }

/-- What reading an address reports and marks. -/
def noteRead (undefined uninitialized : FaultKind) (addr : UInt16) (machine : Machine) : Machine :=
  if (machine.mem.state addr).undefined then machine.raise undefined addr
  else if (machine.mem.state addr).uninitialized then
    (machine.raise uninitialized addr).mapMem (·.markInitialized addr)
  else machine

/-- Stores a byte; the cell then counts as written. -/
def put (addr : UInt16) (value : UInt8) (machine : Machine) : Machine :=
  machine.mapMem fun mem => (mem.store addr value).markInitialized addr

/-- Writes a byte, or reports that the cell takes none. -/
def write (addr : UInt16) (value : UInt8) (machine : Machine) : Machine :=
  if (machine.mem.state addr).rom then machine.raise .writeRom addr
  else if (machine.mem.state addr).undefined then machine.raise .writeUndefined addr
  else machine.put addr value

/-- What reading a flag reports; the flag is then known. -/
def noteFlag (flag : Flag) (machine : Machine) : Machine :=
  if machine.regs.unknown.get flag then
    (machine.raise .readUninitialized machine.current).mapRegs
      fun regs => { regs with unknown := regs.unknown.set flag false }
  else machine

end Machine

/-- What a micro-operation answers and does on a bare machine. -/
def MicroOp.effect : (op : MicroOp) → Machine → op.Answer × Machine
  | .fetch addr, m =>
    (m.mem.raw addr, m.noteRead .executeUndefined .executeUninitialized addr)
  | .load addr, m => (m.mem.raw addr, m.noteRead .readUndefined .readUninitialized addr)
  | .store addr value, m => ((), m.write addr value)
  | .isBlank addr, m => ((m.mem.state addr).uninitialized, m)
  | .register source, m => (m.regs.get source, m)
  | .setRegister target value, m => ((), m.mapRegs (·.set target value))
  | .pc, m => (m.regs.pc, m)
  | .setPc addr, m => ((), m.mapRegs fun regs => { regs with pc := addr })
  | .flag which, m => (m.regs.status.get which, m.noteFlag which)
  | .setFlag which value, m => ((), m.mapRegs (·.setFlag which value))
  | .forget mask, m => ((), m.mapRegs (·.forget mask))
  | .status, m => (m.regs.status, m)
  | .setStatus value, m => ((), m.mapRegs (·.setStatus value))
  | .here, m => (m.current, m)
  | .raise kind, m => ((), m.raise kind m.current)
  | .charge cycles, m => ((), { m with cycles := m.cycles + UInt64.ofNat cycles })
  | .observe _, m => ((), m)

namespace Micro

/-- What a program gives and does on a bare machine. -/
def exec : Micro α → Machine → α × Machine
  | done result, m => (result, m)
  | step op next, m => (next (op.effect m).1).exec (op.effect m).2

@[simp]
theorem exec_done (result : α) (m : Machine) : (done result).exec m = (result, m) := rfl

@[simp]
theorem exec_step (op : MicroOp) (next : op.Answer → Micro α) (m : Machine) :
    (step op next).exec m = (next (op.effect m).1).exec (op.effect m).2 := rfl

@[simp]
theorem exec_bind (program : Micro α) (next : α → Micro β) (m : Machine) :
    (program >>= next).exec m = (next (program.exec m).1).exec (program.exec m).2 := by
  induction program generalizing m with
  | done result => rfl
  | step op rest inductionHypothesis => simp only [bind_step, exec_step, inductionHypothesis]

@[simp]
theorem exec_fetch (addr : UInt16) (m : Machine) :
    (fetch addr).exec m =
      (m.mem.raw addr, m.noteRead .executeUndefined .executeUninitialized addr) := rfl

@[simp]
theorem exec_load (addr : UInt16) (m : Machine) :
    (load addr).exec m =
      (m.mem.raw addr, m.noteRead .readUndefined .readUninitialized addr) := rfl

@[simp]
theorem exec_store (addr : UInt16) (value : UInt8) (m : Machine) :
    (store addr value).exec m = ((), m.write addr value) := rfl

@[simp]
theorem exec_register (source : Register) (m : Machine) :
    (register source).exec m = (m.regs.get source, m) := rfl

@[simp]
theorem exec_setRegister (target : Register) (value : UInt8) (m : Machine) :
    (setRegister target value).exec m = ((), m.mapRegs (·.set target value)) := rfl

@[simp]
theorem exec_setPc (addr : UInt16) (m : Machine) :
    (setPc addr).exec m = ((), m.mapRegs fun regs => { regs with pc := addr }) := rfl

@[simp]
theorem exec_status (m : Machine) : status.exec m = (m.regs.status, m) := rfl

@[simp]
theorem exec_here (m : Machine) : here.exec m = (m.current, m) := rfl

@[simp]
theorem exec_raise (kind : FaultKind) (m : Machine) :
    (raise kind).exec m = ((), m.raise kind m.current) := rfl

@[simp]
theorem exec_charge (cycles : Nat) (m : Machine) :
    (charge cycles).exec m = ((), { m with cycles := m.cycles + UInt64.ofNat cycles }) := rfl

/-- The whole of an instruction, from its first fetch to the end of its work. -/
def instructionAt (pc : UInt16) : Micro Unit := do
  let (instruction, value) ← fetchInstruction pc
  setPc (pc + UInt16.ofNat instruction.length)
  ofInstruction instruction value

end Micro

/-- The addresses of the bytes of an instruction at an address. -/
def Instruction.addresses (instruction : Instruction) (addr : UInt16) : List UInt16 :=
  (List.range instruction.length).map fun i => addr + UInt16.ofNat i

/-- The value of the operand bytes of an instruction at an address. -/
def Memory.operandAt (mem : Memory) (addr : UInt16) (instruction : Instruction) : UInt16 :=
  wordOf (if 1 < instruction.length then mem.raw (addr + 1) else 0)
    (if 2 < instruction.length then mem.raw (addr + 2) else 0)

namespace Machine

/-- What fetching the bytes at some addresses reports and marks. -/
def noteFetched (addresses : List UInt16) (machine : Machine) : Machine :=
  addresses.foldl (fun m addr => m.noteRead .executeUndefined .executeUninitialized addr) machine

def enter (pc : UInt16) (machine : Machine) : Machine :=
  { machine with current := pc }

@[simp]
theorem limitReached_enter (machine : Machine) (pc : UInt16) :
    (machine.enter pc).limitReached = machine.limitReached := rfl

@[simp]
theorem atSentinel_enter (machine : Machine) (pc : UInt16) :
    (machine.enter pc).atSentinel = machine.atSentinel := rfl

def startAt (addr : UInt16) (machine : Machine) : Machine :=
  machine.mapRegs fun regs => { regs with pc := addr }

@[simp]
theorem cycles_startAt (addr : UInt16) (machine : Machine) :
    (machine.startAt addr).cycles = machine.cycles := rfl

def nextMnemonic (machine : Machine) : Mnemonic :=
  (Instruction.decode (machine.mem.raw machine.regs.pc)).mnemonic

theorem nextMnemonic_eq {machine : Machine} {pc : UInt16} (at_pc : machine.regs.pc = pc) :
    (Instruction.decode (machine.mem.raw pc)).mnemonic = machine.nextMnemonic := by
  rw [nextMnemonic, at_pc]

/-- Executes one window. -/
def window (machine : Machine) : Machine :=
  let pc := machine.regs.pc
  if machine.limitReached then (machine.enter pc).raise .cycleLimit pc
  else if machine.atSentinel then (machine.enter pc).raise .callReturn pc
  else ((Micro.instructionAt pc).exec (machine.enter pc)).2

/-- The fault in the slot if it stops execution, and the machine with an empty slot. -/
def settle (machine : Machine) : Option Fault × Machine :=
  (machine.slot.fault.filter fun fault => machine.level.isFatal fault.kind,
    { machine with slot := {} })

/-- Executes one window; the fault that stops execution, if one does. -/
def step (machine : Machine) : Option Fault × Machine :=
  machine.window.settle

/-- Steps until a fault stops execution, at most `bound` times. -/
def steps : Nat → Machine → Option Fault × Machine
  | 0, m => (none, m)
  | bound + 1, m =>
    match m.step with
    | (some fault, m) => (some fault, m)
    | (none, m) => m.steps bound

/-- The machine after a number of steps. It goes on behind the faults that would stop a run. -/
def afterSteps : Nat → Machine → Machine
  | 0, m => m
  | count + 1, m => (m.afterSteps count).step.2

theorem afterSteps_succ (count : Nat) (m : Machine) :
    m.afterSteps (count + 1) = (m.afterSteps count).step.2 := rfl

/-- Runs from an address for at most `bound` windows. -/
def run (bound : Nat) (addr : UInt16) (machine : Machine) : Outcome × Machine :=
  ((machine.startAt addr).steps bound).map .ofSteps id

end Machine

end Mos6502
