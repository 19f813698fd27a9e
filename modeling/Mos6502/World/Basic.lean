import Mos6502.Registers
import Mos6502.Memory.Basic
import Mos6502.Label.Table
import Mos6502.Profile.Basic
import Mos6502.Metrics.Basic
import Mos6502.World.Journal

/-!
The world that execution changes: the machine itself, the instruments that observe it, the counters, the
journal, and the state of the host. Nothing that only instruments hold has an influence on the machine.
-/

namespace Mos6502

/-- Registers, memory, cycle counter, limits and the fault slot. -/
structure Machine where
  regs : Registers := {}
  mem : Memory
  /-- Counted in 64 bits, so that zero follows on the greatest count. -/
  cycles : UInt64 := 0
  /-- The number of cycles at which a run stops; zero stands for no limit. -/
  limit : UInt64 := 0
  level : ErrorLevel := .memory
  slot : FaultSlot := {}
  /-- Whether a call is under way, so that reaching the sentinel address ends it. -/
  inCall : Bool := false
  /-- The address of the instruction being executed. -/
  current : UInt16 := 0
deriving DecidableEq, Repr

/-- Where trace lines go: the number of lines still accepted, or `none` for no bound. -/
structure TraceSink where
  room : Option Nat := none
deriving DecidableEq, Repr

/-- What observes a machine: labels for texts, the trace, the profile with the sample of the instruction
at work, and whether counters are kept. -/
structure Instruments where
  labels : Labels := {}
  sink : Option TraceSink := none
  profile : Option Profile := none
  metered : Bool := false
  sample : Sample := {}
  /-- Whether the instruction at work changed memory or reached a write hook. -/
  stored : Bool := false
deriving DecidableEq, Repr

/-- Machine, instruments, counters, journal and the state of the host. -/
structure World (σ : Type) where
  machine : Machine
  instruments : Instruments := {}
  metrics : Metrics := {}
  journal : Journal := {}
  host : σ

/-- The host: how it answers when one of its hooks catches an access. The answer is the byte that the
access sees, or the fault to record; on the way the host may change the world in any way. -/
structure Host (σ : Type) where
  respond : (hook : Nat) → (addr : UInt16) → Access → World σ → Except FaultKind UInt8 × World σ

namespace World

variable {σ : Type}

/-- Records a fault unless one is held. -/
def raise (kind : FaultKind) (addr : UInt16) (w : World σ) : World σ :=
  { w with machine := { w.machine with slot := w.machine.slot.record kind addr } }

/-- Changes the registers. -/
def mapRegs (change : Registers → Registers) (w : World σ) : World σ :=
  { w with machine := { w.machine with regs := change w.machine.regs } }

/-- Changes memory. -/
def mapMem (change : Memory → Memory) (w : World σ) : World σ :=
  { w with machine := { w.machine with mem := change w.machine.mem } }

/-- Adds to the cycle counter. -/
def charge (cycles : Nat) (w : World σ) : World σ :=
  { w with machine := { w.machine with cycles := w.machine.cycles + UInt64.ofNat cycles } }

/-- Changes the sample of the instruction at work. -/
def mapSample (change : Sample → Sample) (w : World σ) : World σ :=
  { w with instruments := { w.instruments with sample := change w.instruments.sample } }

/-- Notes whether memory changed. -/
def noteStore (changed : Bool) (w : World σ) : World σ :=
  { w with instruments := { w.instruments with stored := w.instruments.stored || changed } }

/-- Changes the counters if they are kept. -/
def meter (change : Metrics → Metrics) (w : World σ) : World σ :=
  if w.instruments.metered then { w with metrics := change w.metrics } else w

/-- Logs an event. -/
def log (entry : LogEntry) (w : World σ) : World σ :=
  { w with journal := w.journal.note entry }

end World

end Mos6502
