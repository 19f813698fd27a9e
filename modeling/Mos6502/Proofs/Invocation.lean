import Mos6502.Proofs.Bare.Correspondence
import Mos6502.Proofs.Microcode

/-!
# Invocations of hooks

A micro-operation invokes at most one hook of the host, and which one can be told from the world before it. So the
invocations of a program are listed in order by one recursion over it. That nothing is missing in these lists, and
nothing too much, is shown with a host that keeps a log of what it is asked: the list of a program is what its run
appends to the log.

The list is about the engine alone. What a hook does of its own accord while it answers is part of its answer.
-/

namespace Mos6502

variable {σ τ α β : Type}

/-- The cell at an address is marked, and a hook that catches such accesses is bound to it. -/
def Memory.catch? (mem : Memory) (kind : AccessKind) (addr : UInt16) : Option Nat :=
  if (mem.state addr).hooked then mem.hook? kind addr else none

theorem Memory.not_isPlain_of_catch? {mem : Memory} {kind : AccessKind} {addr : UInt16} {hook : Nat}
    (caught : mem.catch? kind addr = some hook) : ¬(mem.state addr).isPlain = true := by
  intro plain
  simp [catch?, CellState.isPlain_iff.mp plain] at caught

/-- The call of a hook: what is asked, and the world that the hook is given. -/
structure Invocation (σ : Type) where
  hook : Nat
  addr : UInt16
  access : Access
  given : World σ

namespace Invocation

def answer (host : Host σ) (invocation : Invocation σ) : Except FaultKind UInt8 × World σ :=
  host.respond invocation.hook invocation.addr invocation.access invocation.given

/-- The world that the hook leaves. -/
def left (host : Host σ) (invocation : Invocation σ) : World σ :=
  (invocation.answer host).2

/-- The world once the fault that the hook answers with, if it does, is recorded. -/
def settled (host : Host σ) (invocation : Invocation σ) : World σ :=
  match invocation.answer host with
  | (.ok _, w) => w
  | (.error kind, w) => w.raise kind invocation.addr

/-- Once a hook is left, at most a fault is recorded. -/
theorem exists_settled_eq (host : Host σ) (invocation : Invocation σ) :
    ∃ slot, invocation.settled host =
      { invocation.left host with machine := { (invocation.left host).machine with slot } } := by
  unfold settled left
  rcases invocation.answer host with ⟨_ | _, v⟩
  · exact ⟨_, rfl⟩
  · exact ⟨_, rfl⟩

/-- The byte that a read sees. -/
def byte (host : Host σ) (invocation : Invocation σ) : UInt8 :=
  match invocation.answer host with
  | (.ok value, _) => value
  | (.error _, w) => w.machine.mem.raw invocation.addr

end Invocation

namespace World

/-- The invocation of a hook in a world, which counts it. -/
def invocation (hook : Nat) (addr : UInt16) (access : Access) (w : World σ) : Invocation σ where
  hook := hook
  addr := addr
  access := access
  given := w.meter (·.countCallback access.kind.name)

/-- Writes a byte where no hook catches it. -/
def writeThrough (addr : UInt16) (value : UInt8) (w : World σ) : World σ :=
  if (w.machine.mem.state addr).rom then w.raise .writeRom addr
  else if (w.machine.mem.state addr).undefined then w.raise .writeUndefined addr
  else w.put addr value

theorem readAs_of_caught (host : Host σ) (undefined uninitialized : FaultKind) {addr : UInt16}
    {w : World σ} {hook : Nat} (caught : w.machine.mem.catch? .read addr = some hook) :
    w.readAs host undefined uninitialized addr =
      ((w.invocation hook addr .read).byte host, (w.invocation hook addr .read).settled host) := by
  have special := Memory.not_isPlain_of_catch? caught
  unfold Memory.catch? at caught
  unfold readAs Invocation.byte Invocation.settled
  simp only [special, Bool.false_eq_true, if_false, caught]
  change (match (w.invocation hook addr .read).answer host with
    | (.ok value, v) => (value, v)
    | (.error kind, v) => (v.machine.mem.raw addr, v.raise kind addr)) = _
  rcases (w.invocation hook addr .read).answer host with ⟨_ | _, v⟩ <;> rfl

theorem readAs_of_uncaught (host : Host σ) (undefined uninitialized : FaultKind) {addr : UInt16}
    {w : World σ} (uncaught : w.machine.mem.catch? .read addr = none) :
    w.readAs host undefined uninitialized addr =
      (w.machine.mem.raw addr,
        { w with machine := w.machine.noteRead undefined uninitialized addr }) := by
  unfold Memory.catch? at uncaught
  unfold readAs Machine.noteRead
  by_cases plain : (w.machine.mem.state addr).isPlain = true
  · obtain ⟨declared, -, written⟩ := CellState.flags_of_isPlain plain
    simp [plain, declared, written]
  · by_cases undeclared : (w.machine.mem.state addr).undefined = true
    · simp [plain, uncaught, undeclared, raise, Machine.raise]
    · by_cases blank : (w.machine.mem.state addr).uninitialized = true
      · simp [plain, uncaught, undeclared, blank, raise, mapMem, Machine.raise, Machine.mapMem]
      · simp [plain, uncaught, undeclared, blank]

theorem write_of_caught (host : Host σ) {addr : UInt16} (value : UInt8) {w : World σ} {hook : Nat}
    (caught : w.machine.mem.catch? .write addr = some hook) :
    w.write host addr value =
      ((w.noteStore true).invocation hook addr (.write value)).settled host := by
  have special := Memory.not_isPlain_of_catch? caught
  unfold Memory.catch? at caught
  unfold write
  simp only [special, Bool.false_eq_true, if_false, caught]
  rfl

theorem write_of_uncaught (host : Host σ) {addr : UInt16} (value : UInt8) {w : World σ}
    (uncaught : w.machine.mem.catch? .write addr = none) :
    w.write host addr value = w.writeThrough addr value := by
  unfold Memory.catch? at uncaught
  unfold write writeThrough
  by_cases plain : (w.machine.mem.state addr).isPlain = true
  · obtain ⟨declared, writable, -⟩ := CellState.flags_of_isPlain plain
    simp [plain, declared, writable]
  · simp [plain, uncaught]

end World

/-- The hook that a micro-operation invokes, if it invokes one. -/
def MicroOp.invocation? : MicroOp → World σ → Option (Invocation σ)
  | .fetch addr, w | .load addr, w =>
    (w.machine.mem.catch? .read addr).map fun hook => w.invocation hook addr .read
  | .store addr value, w =>
    (w.machine.mem.catch? .write addr).map fun hook =>
      (w.noteStore true).invocation hook addr (.write value)
  | .isBlank _, _ | .register _, _ | .setRegister _ _, _ | .pc, _ | .setPc _, _ | .flag _, _
  | .setFlag _ _, _ | .forget _, _ | .status, _ | .setStatus _, _ | .here, _ | .raise _, _
  | .charge _, _ | .observe _, _ => none

/-- The hooks that a program invokes, in order. -/
def Micro.invocations (host : Host σ) : Micro α → World σ → List (Invocation σ)
  | done _, _ => []
  | step op next, w =>
    (op.invocation? w).toList ++
      (next (op.perform host w).1).invocations host (op.perform host w).2

/-- An invoked hook has the last word on what its micro-operation does to the world. -/
theorem MicroOp.perform_of_invocation (host : Host σ) {op : MicroOp} {w : World σ}
    {invocation : Invocation σ} (invoked : op.invocation? w = some invocation) :
    (op.perform host w).2 = invocation.settled host := by
  cases op with
  | fetch addr =>
    obtain ⟨hook, caught, rfl⟩ := Option.map_eq_some_iff.mp invoked
    exact congrArg Prod.snd (World.readAs_of_caught host _ _ caught)
  | load addr =>
    obtain ⟨hook, caught, rfl⟩ := Option.map_eq_some_iff.mp invoked
    exact congrArg Prod.snd (World.readAs_of_caught host _ _ caught)
  | store addr value =>
    obtain ⟨hook, caught, rfl⟩ := Option.map_eq_some_iff.mp invoked
    exact World.write_of_caught host value caught
  | _ => cases invoked

/-- A micro-operation invokes a hook only where the cell is marked, in the world that it finds or, if it stores, in that
world with the mark of a store. -/
theorem MicroOp.exists_of_invocation? {op : MicroOp} {w : World σ} {asked : Invocation σ}
    (invoked : op.invocation? w = some asked) :
    ∃ hook addr access v, access ≠ .exec ∧ (v = w ∨ v = w.noteStore true) ∧
      w.machine.mem.catch? access.kind addr = some hook ∧ asked = v.invocation hook addr access := by
  cases op with
  | fetch addr | load addr =>
    obtain ⟨hook, caught, rfl⟩ := Option.map_eq_some_iff.mp invoked
    exact ⟨hook, addr, .read, w, Access.noConfusion, .inl rfl, caught, rfl⟩
  | store addr value =>
    obtain ⟨hook, caught, rfl⟩ := Option.map_eq_some_iff.mp invoked
    exact ⟨hook, addr, .write value, w.noteStore true, Access.noConfusion, .inr rfl, caught, rfl⟩
  | _ => cases invoked

/-- What the instruments hold after a micro-operation that invokes no hook. -/
def MicroOp.note : MicroOp → World σ → Instruments
  | .store addr value, w =>
    if (w.machine.mem.state addr).rom then w.instruments
    else if (w.machine.mem.state addr).undefined then w.instruments
    else (w.noteStore (w.machine.mem.raw addr != value)).instruments
  | .observe observation, w => (w.mapSample (·.observe observation)).instruments
  | _, w => w.instruments

/-- Micro-operations note nothing but the sample and the mark of a store. -/
theorem MicroOp.exists_note_eq (op : MicroOp) (w : World σ) :
    ∃ sample stored, op.note w = { w.instruments with sample, stored } := by
  cases op with
  | store addr value =>
    unfold note
    dsimp only
    split
    · exact ⟨_, _, rfl⟩
    · split
      · exact ⟨_, _, rfl⟩
      · exact ⟨_, _, rfl⟩
  | _ => exact ⟨_, _, rfl⟩

theorem World.writeThrough_eq (addr : UInt16) (value : UInt8) (w : World σ) :
    w.writeThrough addr value =
      { w with
        machine := w.machine.write addr value
        instruments := (MicroOp.store addr value).note w } := by
  unfold writeThrough Machine.write MicroOp.note
  by_cases readOnly : (w.machine.mem.state addr).rom = true
  · simp only [if_pos readOnly]
    rfl
  · by_cases undeclared : (w.machine.mem.state addr).undefined = true
    · simp only [if_neg readOnly, if_pos undeclared]
      rfl
    · simp only [if_neg readOnly, if_neg undeclared]
      rfl

/-- Where no hook is invoked, the machine does what a bare machine does, and the instruments note it. -/
theorem MicroOp.perform_of_silent (host : Host σ) {op : MicroOp} {w : World σ}
    (silent : op.invocation? w = none) :
    (op.perform host w).2 =
      { w with machine := (op.effect w.machine).2, instruments := op.note w } := by
  cases op with
  | fetch addr =>
    have uncaught := Option.map_eq_none_iff.mp silent
    exact congrArg Prod.snd (World.readAs_of_uncaught host _ _ uncaught)
  | load addr =>
    have uncaught := Option.map_eq_none_iff.mp silent
    exact congrArg Prod.snd (World.readAs_of_uncaught host _ _ uncaught)
  | store addr value =>
    have uncaught := Option.map_eq_none_iff.mp silent
    exact (World.write_of_uncaught host value uncaught).trans (w.writeThrough_eq addr value)
  | flag which =>
    change (w.readFlag which).2 = { w with machine := w.machine.noteFlag which }
    unfold World.readFlag Machine.noteFlag
    dsimp only
    split <;> rfl
  | isBlank | register | setRegister | pc | setPc | setFlag | forget | status | setStatus | here
    | raise | charge | observe => rfl

namespace Micro

@[simp]
theorem invocations_done (host : Host σ) (result : α) (w : World σ) :
    (done result).invocations host w = [] := rfl

@[simp]
theorem invocations_step (host : Host σ) (op : MicroOp) (next : op.Answer → Micro α)
    (w : World σ) :
    (step op next).invocations host w =
      (op.invocation? w).toList ++
        (next (op.perform host w).1).invocations host (op.perform host w).2 := rfl

@[simp]
theorem invocations_bind (host : Host σ) (program : Micro α) (next : α → Micro β) (w : World σ) :
    (program >>= next).invocations host w =
      program.invocations host w ++
        (next (program.run host w).1).invocations host (program.run host w).2 := by
  induction program generalizing w with
  | done result => rfl
  | step op rest inductionHypothesis =>
    simp only [bind_step, invocations_step, run_step, inductionHypothesis, List.append_assoc]

end Micro

def World.mapHost (f : σ → τ) (w : World σ) : World τ where
  machine := w.machine
  instruments := w.instruments
  metrics := w.metrics
  journal := w.journal
  host := f w.host

/-- The world of a host that has kept a log. -/
def World.logging (log : List (Invocation σ)) (w : World σ) : World (List (Invocation σ) × σ) :=
  w.mapHost (log, ·)

/-- The same host, keeping a log of its invocations. -/
def Host.recorded (host : Host σ) : Host (List (Invocation σ) × σ) where
  respond hook addr access w :=
    let invocation : Invocation σ := ⟨hook, addr, access, w.mapHost Prod.snd⟩
    ((invocation.answer host).1, (invocation.left host).logging (w.host.1 ++ [invocation]))

namespace World

@[simp]
theorem machine_logging (log : List (Invocation σ)) (w : World σ) :
    (w.logging log).machine = w.machine := rfl

@[simp]
theorem mapRegs_logging (change : Registers → Registers) (log : List (Invocation σ))
    (w : World σ) : (w.logging log).mapRegs change = (w.mapRegs change).logging log := rfl

@[simp]
theorem clearSample_logging (log : List (Invocation σ)) (w : World σ) :
    (w.logging log).clearSample = w.clearSample.logging log := rfl

@[simp]
theorem finishedSample_logging (before : Registers) (start : UInt64) (next : UInt16)
    (log : List (Invocation σ)) (w : World σ) :
    (w.logging log).finishedSample before start next = w.finishedSample before start next := rfl

@[simp]
theorem profileSample_logging (pc : UInt16) (sample : Sample) (log : List (Invocation σ))
    (w : World σ) :
    (w.logging log).profileSample pc sample = (w.profileSample pc sample).logging log := rfl

theorem meter_logging (change : Metrics → Metrics) (log : List (Invocation σ)) (w : World σ) :
    (w.logging log).meter change = (w.meter change).logging log := by
  unfold meter
  change (if w.instruments.metered then _ else _) = _
  split <;> rfl

theorem answer_logging (host : Host σ) (hook : Nat) (addr : UInt16) (access : Access)
    (log : List (Invocation σ)) (w : World σ) :
    ((w.logging log).invocation hook addr access).answer host.recorded =
      (((w.invocation hook addr access).answer host).1,
        ((w.invocation hook addr access).left host).logging
          (log ++ [w.invocation hook addr access])) := by
  unfold invocation Invocation.answer
  simp only [meter_logging]
  rfl

theorem settled_logging (host : Host σ) (hook : Nat) (addr : UInt16) (access : Access)
    (log : List (Invocation σ)) (w : World σ) :
    ((w.logging log).invocation hook addr access).settled host.recorded =
        ((w.invocation hook addr access).settled host).logging
          (log ++ [w.invocation hook addr access]) ∧
      ((w.logging log).invocation hook addr access).byte host.recorded =
        (w.invocation hook addr access).byte host := by
  unfold Invocation.settled Invocation.byte
  rw [answer_logging]
  unfold Invocation.left
  rcases (w.invocation hook addr access).answer host with ⟨_ | _, v⟩ <;> exact ⟨rfl, rfl⟩

theorem readAs_logging (host : Host σ) (undefined uninitialized : FaultKind) (addr : UInt16)
    (log : List (Invocation σ)) (w : World σ) :
    (w.logging log).readAs host.recorded undefined uninitialized addr =
      ((w.readAs host undefined uninitialized addr).1,
        (w.readAs host undefined uninitialized addr).2.logging
          (log ++ ((MicroOp.load addr).invocation? w).toList)) := by
  cases caught : w.machine.mem.catch? .read addr with
  | some hook =>
    have invoked : (MicroOp.load addr).invocation? w = some (w.invocation hook addr .read) := by
      simp only [MicroOp.invocation?, caught, Option.map_some]
    obtain ⟨settled, byte⟩ := settled_logging host hook addr .read log w
    rw [invoked, readAs_of_caught host undefined uninitialized caught,
      readAs_of_caught (w := w.logging log) host.recorded undefined uninitialized caught, settled,
      byte]
    rfl
  | none =>
    have silent : (MicroOp.load addr).invocation? w = none := by
      simp only [MicroOp.invocation?, caught, Option.map_none]
    rw [silent, readAs_of_uncaught host undefined uninitialized caught,
      readAs_of_uncaught (w := w.logging log) host.recorded undefined uninitialized caught,
      Option.toList_none, List.append_nil]
    rfl

theorem writeThrough_logging (addr : UInt16) (value : UInt8) (log : List (Invocation σ))
    (w : World σ) :
    (w.logging log).writeThrough addr value = (w.writeThrough addr value).logging log := by
  unfold writeThrough
  rw [machine_logging]
  by_cases readOnly : (w.machine.mem.state addr).rom = true
  · rw [if_pos readOnly, if_pos readOnly]
    rfl
  · rw [if_neg readOnly, if_neg readOnly]
    by_cases undeclared : (w.machine.mem.state addr).undefined = true
    · rw [if_pos undeclared, if_pos undeclared]
      rfl
    · rw [if_neg undeclared, if_neg undeclared]
      rfl

theorem write_logging (host : Host σ) (addr : UInt16) (value : UInt8) (log : List (Invocation σ))
    (w : World σ) :
    (w.logging log).write host.recorded addr value =
      (w.write host addr value).logging
        (log ++ ((MicroOp.store addr value).invocation? w).toList) := by
  cases caught : w.machine.mem.catch? .write addr with
  | some hook =>
    have invoked : (MicroOp.store addr value).invocation? w =
        some ((w.noteStore true).invocation hook addr (.write value)) := by
      simp only [MicroOp.invocation?, caught, Option.map_some]
    rw [invoked, write_of_caught host value caught,
      write_of_caught (w := w.logging log) host.recorded value caught]
    exact (settled_logging host hook addr (.write value) log (w.noteStore true)).1
  | none =>
    have silent : (MicroOp.store addr value).invocation? w = none := by
      simp only [MicroOp.invocation?, caught, Option.map_none]
    rw [silent, write_of_uncaught host value caught,
      write_of_uncaught (w := w.logging log) host.recorded value caught, writeThrough_logging,
      Option.toList_none, List.append_nil]

theorem readFlag_logging (flag : Flag) (log : List (Invocation σ)) (w : World σ) :
    (w.logging log).readFlag flag = ((w.readFlag flag).1, (w.readFlag flag).2.logging log) := by
  unfold readFlag
  change (if w.machine.regs.unknown.get flag = true then _ else _) = _
  by_cases unknown : w.machine.regs.unknown.get flag = true
  · rw [if_pos unknown, if_pos unknown]
    rfl
  · rw [if_neg unknown, if_neg unknown]
    rfl

end World

theorem MicroOp.perform_logging (host : Host σ) (op : MicroOp) (log : List (Invocation σ))
    (w : World σ) :
    op.perform host.recorded (w.logging log) =
      ((op.perform host w).1,
        (op.perform host w).2.logging (log ++ (op.invocation? w).toList)) := by
  cases op with
  | fetch addr => exact w.readAs_logging host .executeUndefined .executeUninitialized addr log
  | load addr => exact w.readAs_logging host .readUndefined .readUninitialized addr log
  | store addr value => exact congrArg (Prod.mk ()) (w.write_logging host addr value log)
  | flag which =>
    simp only [invocation?, Option.toList_none, List.append_nil]
    exact w.readFlag_logging which log
  | isBlank | register | setRegister | pc | setPc | setFlag | forget | status | setStatus | here
    | raise | charge | observe =>
    simp only [invocation?, Option.toList_none, List.append_nil]
    rfl

/-- A program run with the recording host logs its invocations and is no different otherwise. -/
theorem Micro.run_logging (host : Host σ) (program : Micro α) (log : List (Invocation σ))
    (w : World σ) :
    program.run host.recorded (w.logging log) =
      ((program.run host w).1,
        (program.run host w).2.logging (log ++ program.invocations host w)) := by
  induction program generalizing log w with
  | done result => simp
  | step op next inductionHypothesis =>
    rw [run_step, op.perform_logging, inductionHypothesis, invocations_step, List.append_assoc]
    rfl

/-- What is left to do for an exec hook: if it leaves the program counter alone, execution continues as after a
subroutine. -/
def Invocation.continuation (host : Host σ) (invocation : Invocation σ) : Micro Unit :=
  match invocation.answer host with
  | (.ok _, w) => if w.machine.regs.pc = invocation.addr then .returnFromSubroutine else .done ()
  | (.error _, _) => .done ()

theorem Invocation.continuation_uses (host : Host σ) (invocation : Invocation σ)
    {p : MicroOp → Prop} (returns : Micro.returnFromSubroutine.Uses p) :
    (invocation.continuation host).Uses p := by
  unfold continuation
  split
  · split
    · exact returns
    · trivial
  · trivial

namespace World

theorem runHook_eq (host : Host σ) (hook : Nat) (pc : UInt16) (w : World σ) :
    w.runHook host hook pc =
      (((w.invocation hook pc .exec).continuation host).run host
        ((w.invocation hook pc .exec).settled host)).2 := by
  -- Both sides look at one and the same answer: once for what is left to do, once for the world it is done in.
  unfold runHook Invocation.continuation Invocation.settled
  have asked : w.invoke host hook pc .exec = (w.invocation hook pc .exec).answer host := rfl
  rw [asked]
  rcases (w.invocation hook pc .exec).answer host with ⟨_ | _, v⟩
  · rfl
  · change (if v.machine.regs.pc = pc then _ else _) =
      (Micro.run host (if v.machine.regs.pc = pc then _ else _) v).2
    split <;> rfl

/-- The instruction at an address with the value of its operand bytes, and the world once they are read. -/
def fetched (host : Host σ) (pc : UInt16) (w : World σ) : (Instruction × UInt16) × World σ :=
  (Micro.fetchInstruction pc).run host (w.traceInstruction pc)

def instruction (host : Host σ) (pc : UInt16) (w : World σ) : Instruction :=
  (w.fetched host pc).1.1

/-- The work of the instruction at an address. -/
def work (host : Host σ) (pc : UInt16) (w : World σ) : Micro Unit :=
  .ofInstruction (w.instruction host pc) (w.fetched host pc).1.2

def nextAddress (host : Host σ) (pc : UInt16) (w : World σ) : UInt16 :=
  pc + UInt16.ofNat (w.instruction host pc).length

/-- The world in which the work of the instruction at an address begins. -/
def poised (host : Host σ) (pc : UInt16) (w : World σ) : World σ :=
  ((w.fetched host pc).2.mapRegs fun regs =>
    { regs with pc := w.nextAddress host pc }).clearSample

/-- The world in which the work of the instruction at an address is over. -/
def worked (host : Host σ) (pc : UInt16) (w : World σ) : World σ :=
  ((w.work host pc).run host (w.poised host pc)).2

/-- The sample of the instruction at an address. -/
def retiredSample (host : Host σ) (pc : UInt16) (w : World σ) : Sample :=
  (w.worked host pc).finishedSample (w.poised host pc).machine.regs
    (w.poised host pc).machine.cycles (w.nextAddress host pc)

@[simp]
theorem machine_clearSample (w : World σ) : w.clearSample.machine = w.machine := rfl

theorem profile_meter (w : World σ) (change : Metrics → Metrics) :
    (w.meter change).instruments.profile = w.instruments.profile := by
  rw [meter_eq]

/-- Between fetching and work only the program counter, the sample and the mark of a store change. -/
theorem exists_poised_eq (host : Host σ) (pc : UInt16) (w : World σ) :
    ∃ regs, w.poised host pc =
      { (w.fetched host pc).2 with
        machine := { (w.fetched host pc).2.machine with regs }
        instruments := { (w.fetched host pc).2.instruments with sample := {}, stored := false } } := by
  unfold poised
  generalize w.nextAddress host pc = next
  generalize (w.fetched host pc).2 = v
  exact ⟨_, rfl⟩

theorem runInstruction_eq (host : Host σ) (pc : UInt16) (w : World σ) :
    w.runInstruction host pc =
      ((w.worked host pc).meter
        (·.countInstruction (w.instruction host pc).mnemonic.name)).profileSample pc
          (w.retiredSample host pc) := by
  have counted (v : World σ) (change : Metrics → Metrics) (before : Registers) (start : UInt64)
      (next : UInt16) : (v.meter change).finishedSample before start next =
        v.finishedSample before start next := by
    unfold meter
    split <;> rfl
  -- The instruction is counted before its sample is finished, which does not look at the counters.
  unfold retiredSample worked poised work nextAddress World.instruction fetched runInstruction
  simp only [counted, machine_clearSample]

theorem machine_runInstruction (host : Host σ) (pc : UInt16) (w : World σ) :
    (w.runInstruction host pc).machine = (w.worked host pc).machine := by
  have recorded (v : World σ) (sample : Sample) :
      (v.profileSample pc sample).machine = v.machine := rfl
  rw [runInstruction_eq, recorded, machine_meter]

theorem traceInstruction_logging (pc : UInt16) (log : List (Invocation σ)) (w : World σ) :
    (w.logging log).traceInstruction pc = (w.traceInstruction pc).logging log := by
  unfold traceInstruction trace
  have sink : (w.logging log).instruments.sink = w.instruments.sink := rfl
  rw [sink]
  rcases w.instruments.sink with _ | ⟨_ | _ | _⟩ <;> rfl

section

variable (host : Host σ) (pc : UInt16) (log : List (Invocation σ)) (w : World σ)

def fetchInvocations : List (Invocation σ) :=
  (Micro.fetchInstruction pc).invocations host (w.traceInstruction pc)

def workInvocations : List (Invocation σ) :=
  (w.work host pc).invocations host (w.poised host pc)

theorem fetched_logging :
    (w.logging log).fetched host.recorded pc =
      ((w.fetched host pc).1, (w.fetched host pc).2.logging (log ++ w.fetchInvocations host pc)) := by
  unfold fetched
  rw [traceInstruction_logging, Micro.run_logging]
  rfl

theorem instruction_logging :
    (w.logging log).instruction host.recorded pc = w.instruction host pc := by
  unfold World.instruction
  rw [fetched_logging]

theorem poised_logging :
    (w.logging log).poised host.recorded pc =
      (w.poised host pc).logging (log ++ w.fetchInvocations host pc) := by
  unfold poised nextAddress
  rw [instruction_logging, fetched_logging, mapRegs_logging, clearSample_logging]

theorem worked_logging :
    (w.logging log).worked host.recorded pc =
      (w.worked host pc).logging
        (log ++ w.fetchInvocations host pc ++ w.workInvocations host pc) := by
  have sameWork : (w.logging log).work host.recorded pc = w.work host pc := by
    unfold work
    rw [instruction_logging, fetched_logging]
  unfold worked
  rw [sameWork, poised_logging, Micro.run_logging]
  rfl

theorem runInstruction_logging :
    (w.logging log).runInstruction host.recorded pc =
      (w.runInstruction host pc).logging
        (log ++ w.fetchInvocations host pc ++ w.workInvocations host pc) := by
  have sameSample : (w.logging log).retiredSample host.recorded pc = w.retiredSample host pc := by
    unfold retiredSample nextAddress
    rw [worked_logging, poised_logging, instruction_logging, finishedSample_logging,
      machine_logging]
  rw [runInstruction_eq, runInstruction_eq, worked_logging, instruction_logging, sameSample,
    meter_logging, profileSample_logging]

end

def hookInvocations (host : Host σ) (hook : Nat) (pc : UInt16) (w : World σ) :
    List (Invocation σ) :=
  w.invocation hook pc .exec ::
    ((w.invocation hook pc .exec).continuation host).invocations host
      ((w.invocation hook pc .exec).settled host)

/-- The hooks that a window invokes, in order. -/
def windowInvocations (host : Host σ) (w : World σ) : List (Invocation σ) :=
  if w.machine.limitReached || w.machine.atSentinel then []
  else
    let pc := w.machine.regs.pc
    match w.machine.mem.hook? .exec pc with
    | some hook => (w.enter pc).hookInvocations host hook pc
    | none => (w.enter pc).fetchInvocations host pc ++ (w.enter pc).workInvocations host pc

section

variable {host : Host σ} {w : World σ}

theorem window_of_ended (ended : (w.machine.limitReached || w.machine.atSentinel) = true) :
    w.window host =
      (w.enter w.machine.regs.pc).raise
        (if w.machine.limitReached then .cycleLimit else .callReturn) w.machine.regs.pc := by
  unfold window
  dsimp only
  by_cases limit : w.machine.limitReached = true
  · rw [if_pos limit]
    exact if_pos limit
  · have sentinel : w.machine.atSentinel = true := by
      simpa [limit] using ended
    rw [if_neg limit]
    exact (if_neg limit).trans (if_pos sentinel)

theorem window_of_hook (going : ¬(w.machine.limitReached || w.machine.atSentinel) = true)
    {hook : Nat} (bound : w.machine.mem.hook? .exec w.machine.regs.pc = some hook) :
    w.window host = (w.enter w.machine.regs.pc).runHook host hook w.machine.regs.pc := by
  obtain ⟨limit, sentinel⟩ := not_or.mp (mt Bool.or_eq_true_iff.mpr going)
  have enteredBound :
      (w.enter w.machine.regs.pc).machine.mem.hook? .exec w.machine.regs.pc = some hook := bound
  unfold window
  dsimp only
  refine (if_neg limit).trans ((if_neg sentinel).trans ?_)
  rw [enteredBound]

theorem window_of_no_hook (going : ¬(w.machine.limitReached || w.machine.atSentinel) = true)
    (unbound : w.machine.mem.hook? .exec w.machine.regs.pc = none) :
    w.window host = (w.enter w.machine.regs.pc).runInstruction host w.machine.regs.pc := by
  obtain ⟨limit, sentinel⟩ := not_or.mp (mt Bool.or_eq_true_iff.mpr going)
  have enteredUnbound :
      (w.enter w.machine.regs.pc).machine.mem.hook? .exec w.machine.regs.pc = none := unbound
  unfold window
  dsimp only
  refine (if_neg limit).trans ((if_neg sentinel).trans ?_)
  rw [enteredUnbound]

end

theorem runHook_logging (host : Host σ) (hook : Nat) (pc : UInt16) (log : List (Invocation σ))
    (w : World σ) :
    (w.logging log).runHook host.recorded hook pc =
      (w.runHook host hook pc).logging (log ++ w.hookInvocations host hook pc) := by
  have answered := w.answer_logging host hook pc .exec log
  have sameContinuation :
      ((w.logging log).invocation hook pc .exec).continuation host.recorded =
        (w.invocation hook pc .exec).continuation host := by
    unfold Invocation.continuation
    rw [answered]
    unfold Invocation.left
    rcases (w.invocation hook pc .exec).answer host with ⟨_ | _, v⟩ <;> rfl
  rw [runHook_eq, runHook_eq, sameContinuation, (w.settled_logging host hook pc .exec log).1,
    Micro.run_logging, List.append_assoc]
  rfl

/-- A window with the recording host logs its invocations and is no different otherwise. -/
theorem window_logging (host : Host σ) (log : List (Invocation σ)) (w : World σ) :
    (w.logging log).window host.recorded =
      (w.window host).logging (log ++ w.windowInvocations host) := by
  unfold windowInvocations
  dsimp only
  by_cases ended : (w.machine.limitReached || w.machine.atSentinel) = true
  · rw [if_pos ended, List.append_nil, window_of_ended ended,
      window_of_ended (w := w.logging log) ended]
    rfl
  · rw [if_neg ended]
    cases bound : w.machine.mem.hook? .exec w.machine.regs.pc with
    | some hook =>
      rw [window_of_hook ended bound, window_of_hook (w := w.logging log) ended bound]
      exact (w.enter w.machine.regs.pc).runHook_logging host hook w.machine.regs.pc log
    | none =>
      rw [window_of_no_hook ended bound, window_of_no_hook (w := w.logging log) ended bound]
      dsimp only
      rw [← List.append_assoc]
      exact (w.enter w.machine.regs.pc).runInstruction_logging host w.machine.regs.pc log

end World

end Mos6502
