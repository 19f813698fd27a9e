import Mos6502.Execution.Interpret
import Mos6502.Listing

/-!
Instruction windows. A window checks the cycle limit and the call sentinel, then runs either the exec hook
at the program counter or one instruction. A step is a window together with the decision whether the fault
it left, if any, stops execution.
-/

namespace Mos6502

variable {σ : Type}

/-- The address that ends a call when execution reaches it. -/
def callSentinel : UInt16 := 0xFFFF

def Machine.limitReached (machine : Machine) : Bool :=
  machine.limit != 0 && machine.limit ≤ machine.cycles

/-- Whether the machine is at the end of a call. -/
def Machine.atSentinel (machine : Machine) : Bool :=
  machine.inCall && machine.regs.pc == callSentinel

/-- Whether two machines differ in what a program can see of the registers, the program counter aside.
The marking of unknown flags is not part of it. -/
def Registers.differsVisibly (before after : Registers) : Bool :=
  before.a != after.a || before.x != after.x || before.y != after.y || before.sp != after.sp
    || before.status != after.status

namespace World

/-- Writes a trace line. A sink that has no room left fails and is taken away. -/
def trace (line : String) (w : World σ) : World σ :=
  match w.instruments.sink with
  | none => w
  | some ⟨none⟩ => { w with journal := w.journal.traceLine line }
  | some ⟨some 0⟩ =>
    ({ w with instruments := { w.instruments with sink := none } }).log (.traceFailed "sink full")
  | some ⟨some (room + 1)⟩ =>
    { w with
      instruments := { w.instruments with sink := some ⟨some room⟩ }
      journal := w.journal.traceLine line }

/-- Traces the instruction at an address if there is a sink. -/
def traceInstruction (pc : UInt16) (w : World σ) : World σ :=
  if w.instruments.sink.isSome then
    w.trace (traceLine w.machine.mem w.instruments.labels w.machine.regs w.machine.cycles pc)
  else w

/-- Runs the exec hook at an address. If it leaves the program counter alone, execution continues as after
a subroutine. -/
def runHook (host : Host σ) (hook : Nat) (pc : UInt16) (w : World σ) : World σ :=
  match w.invoke host hook pc .exec with
  | (.error kind, w) => w.raise kind pc
  | (.ok _, w) =>
    if w.machine.regs.pc = pc then (Micro.returnFromSubroutine.run host w).2 else w

/-- Starts the sample of an instruction. -/
def clearSample (w : World σ) : World σ :=
  { w with instruments := { w.instruments with sample := {}, stored := false } }

/-- The sample of the instruction at work when it is over. `before`, `start` and `next` are the registers,
the cycle counter and the following address when its work began. -/
def finishedSample (before : Registers) (start : UInt64) (next : UInt16) (w : World σ) : Sample :=
  { w.instruments.sample with
    cycles := w.machine.cycles - start
    effect := w.instruments.stored || w.machine.regs.pc != next
      || before.differsVisibly w.machine.regs }

/-- Adds a sample to the profile, if there is one. -/
def profileSample (pc : UInt16) (sample : Sample) (w : World σ) : World σ :=
  { w with
    instruments := { w.instruments with
      profile := w.instruments.profile.map (·.record pc sample) } }

/-- Runs the instruction at an address. -/
def runInstruction (host : Host σ) (pc : UInt16) (w : World σ) : World σ :=
  let w := w.traceInstruction pc
  match (Micro.fetchInstruction pc).run host w with
  | ((instruction, value), w) =>
    let next := pc + UInt16.ofNat instruction.length
    let w := w.mapRegs fun regs => { regs with pc := next }
    let before := w.machine.regs
    let start := w.machine.cycles
    let w := ((Micro.ofInstruction instruction value).run host w.clearSample).2
    let w := w.meter (·.countInstruction instruction.mnemonic.name)
    w.profileSample pc (w.finishedSample before start next)

/-- Names the instruction at work. -/
def enter (pc : UInt16) (w : World σ) : World σ :=
  { w with machine := { w.machine with current := pc } }

/-- Executes one instruction window and leaves its fault in the slot. -/
def window (host : Host σ) (w : World σ) : World σ :=
  let pc := w.machine.regs.pc
  let w := w.enter pc
  if w.machine.limitReached then w.raise .cycleLimit pc
  else if w.machine.atSentinel then w.raise .callReturn pc
  else
    match w.machine.mem.hook? .exec pc with
    | some hook => w.runHook host hook pc
    | none => w.runInstruction host pc

/-- Empties the fault slot. A fault that is fatal at the level of the machine is given back; any other is
logged and forgotten. -/
def settle (w : World σ) : Option Fault × World σ :=
  match w.machine.slot.fault with
  | none => (none, w)
  | some fault =>
    let fatal := w.machine.level.isFatal fault.kind
    let w := { w with machine := { w.machine with slot := {} } }
    let w := w.meter (·.countFault fault.kind.name fatal)
    if fatal then (some fault, w) else (none, w.log (.continuing fault))

/-- Executes one window; the fault that stops execution, if one does. -/
def step (host : Host σ) (w : World σ) : Option Fault × World σ :=
  (w.window host).settle

end World

end Mos6502
