import Mos6502.Execution.Run
import Mos6502.Profile.Report
import Mos6502.Profile.File
import Mos6502.Snapshot.Restore

/-!
The command language of the monitor: everything that can be asked of a simulator as data. A hook is described
by the commands that it performs when it is invoked and by how it then replies.
-/

namespace Mos6502.Monitor

/-- Direct operations on the registers. -/
inductive RegisterCommand where
  /-- Stores values without further effect. -/
  | store (patch : RegisterPatch)
  | setStatus (value : UInt8)
  | assign (mask : UInt8) (value : Bool)
  | forget (mask : UInt8)
  | setZeroNegative (result : UInt8)
deriving DecidableEq, Repr

/-- The registers after a direct operation. -/
def RegisterCommand.apply (regs : Registers) : RegisterCommand → Registers
  | store patch => patch.apply regs
  | setStatus value => regs.setStatus value
  | assign mask value => regs.assign (Flags.ofByte mask) value
  | forget mask => regs.forget (Flags.ofByte mask)
  | setZeroNegative result => regs.setZeroNegative result

/-- How a hook replies once its actions are done. -/
inductive Reply where
  | byte (value : UInt8)
  | fault (kind : FaultKind)
  /-- The bytes in turn, by the number of earlier invocations of the hook. -/
  | cycle (bytes : List UInt8)
  /-- The low byte of the address plus an amount. -/
  | lowAddress (amount : Nat)
  | accumulator
deriving DecidableEq, Repr

/-- Changes to a snapshot before it is restored. -/
structure SnapshotPatch where
  memory : Option String := none
  state : Option String := none
  digest : Option String := none
  memSize : Option Nat := none
  cycles : Option UInt64 := none
  registers : RegisterPatch := {}
deriving DecidableEq, Repr

/-- The changed snapshot. -/
def SnapshotPatch.apply (patch : SnapshotPatch) (snapshot : Snapshot) : Snapshot :=
  { snapshot with
    memory := patch.memory.getD snapshot.memory
    state := patch.state.getD snapshot.state
    digest := patch.digest.getD snapshot.digest
    memSize := patch.memSize.getD snapshot.memSize
    cycles := patch.cycles.getD snapshot.cycles
    registers := patch.registers.apply snapshot.registers }

mutual

/-- What the monitor can be told to do. -/
inductive Command where
  | registers (command : RegisterCommand)
  | showFlags (mask : UInt8)
  | declareRam (start length : Nat) (zeroed : Bool)
  | declareData (start : Nat) (bytes : List UInt8)
  | declareRom (start : Nat) (bytes : List UInt8)
  | setLabel (addr : UInt16) (name : String)
  | loadLabels (bytes : List UInt8)
  | markInitialized (addr : UInt16)
  | showByte (addr : UInt16)
  | showRaw (addr : UInt16)
  | dump (addr : UInt16) (length : Nat)
  | showState (addr : UInt16)
  | showSize
  | hasHook (kind : AccessKind) (addr : UInt16)
  | labelAt (addr : UInt16)
  | findLabel (name : String)
  | nearestLabel (addr : UInt16)
  | showLabels
  | inspect (addr : UInt16)
  | disassemble (addr : UInt16) (count : Nat)
  | showTraceLine (addr : UInt16)
  | setLevel (name : String)
  | showLevel
  | setLimit (cycles : UInt64)
  | setSink (sink : Option TraceSink)
  | enableMetrics
  | renderMetrics
  | enableProfile
  | saveProfile
  | loadProfile (bytes : List UInt8)
  | showProfile (addr : UInt16)
  | report (top : Nat)
  | step (count : Nat)
  | run (addr : UInt16)
  | call (addr : UInt16)
  | read (addr : UInt16)
  | write (addr : UInt16) (value : UInt8)
  | push (value : UInt8)
  | pull
  | pushWord (value : UInt16)
  | pullWord
  | raise (kind : FaultKind) (addr : UInt16)
  | clearFault
  | showFault
  | snapshot (slot name : String)
  | restore (slot : String) (patch : SnapshotPatch)
  | restoreJson (text : String)
  | hook (kind : AccessKind) (start length : Nat) (reply : Reply) (acts : List Act)

/-- What a hook can do when it is invoked. -/
inductive Act where
  | perform (command : Command)
  /-- Calls a subroutine; a fault of it ends the hook with that fault. -/
  | attempt (addr : UInt16)
  /-- Writes the byte of the intercepted write, zero in other hooks. -/
  | keep (addr : UInt16)

end

/-- The registers as a text, and what is known of the flags of a mask. -/
structure FlagView where
  flags : String
  line : String
  anySet : Bool
  allKnown : Bool
deriving DecidableEq, Repr

/-- One step of a sequence: what stopped it, and registers and cycles after it. -/
structure StepView where
  fault : Option Fault
  registers : Registers
  cycles : UInt64
deriving DecidableEq, Repr

/-- Answers to commands. -/
inductive Answer where
  | done
  | truth (value : Bool)
  | number (value : Nat)
  | numberOrNone (value : Option Nat)
  | text (value : String)
  | textOrNone (value : Option String)
  | texts (lines : List String)
  | bytes (bytes : List UInt8)
  | labelDistance (label : Option (String × Nat))
  | labels (entries : List (UInt16 × String))
  | flags (view : FlagView)
  | entry (entry : ListingEntry)
  | fault (fault : Option Fault)
  | outcome (outcome : Outcome)
  | steps (views : List StepView)
  | profileBytes (bytes : Option (List UInt8))
  | counters (counters : Option CellProfile)
  | report (report : Option ProfileReport)
  | snapshot (snapshot : Snapshot)
  | labelFailure (message : String)
  | levelFailure (message : String)
  | profileFailure (error : ProfileError)
  | restoreFailure (error : RestoreError)

/-- What a hook did: the access, the byte of a write, the answers to its actions, and its reply. -/
structure Event where
  kind : AccessKind
  addr : UInt16
  written : Option UInt8
  answers : List Answer
  reply : Except FaultKind UInt8

/-- A hook of the monitor with the number of its invocations so far. -/
structure Script where
  reply : Reply
  acts : List Act
  hits : Nat := 0

/-- The state of the monitor: its hooks in order of definition, the events since they were last collected,
and the snapshots taken. -/
structure Session where
  scripts : Array Script := #[]
  events : Array Event := #[]
  snapshots : List (String × Snapshot) := []

end Mos6502.Monitor
