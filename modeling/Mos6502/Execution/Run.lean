import Mos6502.Execution.Window

/-!
Runs and calls. A run executes windows until one stops it; the number of windows is bounded from outside,
and a run that has used them up is unfinished, which is neither success nor a fault. A call runs a
subroutine until it returns to the sentinel address.
-/

namespace Mos6502

variable {σ : Type}

/-- How a run or call ended. -/
inductive Outcome where
  | completed
  | stopped (fault : Fault)
  /-- The bound on the number of windows was reached. -/
  | unfinished
deriving DecidableEq, Repr

/-- The outcome of a run that a fault has ended: returning from a call is success. -/
def Outcome.ofFault (fault : Fault) : Outcome :=
  if fault.kind = .callReturn then .completed else .stopped fault

/-- What a call leaves as it was. -/
structure CallFrame where
  pc : UInt16
  inCall : Bool
  slot : FaultSlot
deriving DecidableEq, Repr

def Machine.frame (machine : Machine) : CallFrame :=
  { pc := machine.regs.pc, inCall := machine.inCall, slot := machine.slot }

/-- Puts a frame back. -/
def Machine.resume (machine : Machine) (frame : CallFrame) : Machine :=
  { machine with
    regs := { machine.regs with pc := frame.pc }
    inCall := frame.inCall
    slot := frame.slot }

/-- A bound on windows that no run comes to in practice. -/
def windowBound : Nat := 0x1000000000000000

namespace World

/-- Steps until a fault stops execution, at most `bound` times. -/
def steps (host : Host σ) : Nat → World σ → Option Fault × World σ
  | 0, w => (none, w)
  | bound + 1, w =>
    match w.step host with
    | (some fault, w) => (some fault, w)
    | (none, w) => w.steps host bound

/-- Counts and logs the end of a run that began at `start` cycles. -/
def finishRun (start : UInt64) (fault : Fault) (w : World σ) : World σ :=
  let spent := w.machine.cycles - start
  (w.meter (·.countCycles spent)).log (.runStopped spent fault)

/-- Runs on from the program counter, for a run that began at `start` cycles. It takes them as an argument so
that memory can be updated in place: no reference to the world before the run remains. -/
@[noinline]
def runSince (start : UInt64) (host : Host σ) (bound : Nat) (w : World σ) : Outcome × World σ :=
  match w.steps host bound with
  | (none, w) => (.unfinished, w)
  | (some fault, w) => (.ofFault fault, w.finishRun start fault)

/-- Runs from an address for at most `bound` windows. -/
def run (host : Host σ) (bound : Nat) (addr : UInt16) (w : World σ) : Outcome × World σ :=
  let w := (w.mapRegs fun regs => { regs with pc := addr }).log (.runStarted addr)
  w.runSince w.machine.cycles host bound

/-- Begins a call: the fault slot is empty, the sentinel is armed, and the return address that leads to it
is on the stack. -/
def beginCall (host : Host σ) (w : World σ) : World σ :=
  let w := { w with machine := { w.machine with inCall := true, slot := {} } }
  ((Micro.pushWord (callSentinel - 1)).run host w).2

/-- Calls the subroutine at an address and goes back to a frame when it is over. It takes the frame as an
argument for the same reason. -/
@[noinline]
def callWithin (frame : CallFrame) (host : Host σ) (bound : Nat) (addr : UInt16) (w : World σ) :
    Outcome × World σ :=
  match (w.beginCall host).run host bound addr with
  | (outcome, w) => (outcome, { w with machine := w.machine.resume frame })

/-- Calls the subroutine at an address. Program counter, fault slot and the sentinel of an outer call are
as before when it is over. -/
def call (host : Host σ) (bound : Nat) (addr : UInt16) (w : World σ) : Outcome × World σ :=
  w.callWithin w.machine.frame host bound addr

end World

end Mos6502
