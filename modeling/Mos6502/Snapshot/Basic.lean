import Mos6502.Json.Parse
import Mos6502.Json.Document
import Mos6502.Registers
import Mos6502.Timestamp
import Mos6502.Word

/-!
Snapshots of a machine and their JSON form. The images of memory and states are text of their own, which
reading a snapshot does not look into.
-/

namespace Mos6502

/-- The captured state of a machine, with a name and the circumstances of its capture. -/
structure Snapshot where
  id : String
  name : String
  createdAt : Timestamp
  registers : Registers
  cycles : UInt64
  memSize : Nat
  /-- Base64 of the run-length code of the memory bytes. -/
  memory : String
  /-- Base64 of the run-length code of the cell states. -/
  state : String
  /-- Digest of the memory bytes followed by the cell states. -/
  digest : String
deriving DecidableEq, Repr

namespace Snapshot

/-- Size of the two images as text, in bytes. -/
def imageSize (snapshot : Snapshot) : Nat :=
  snapshot.memory.utf8ByteSize + snapshot.state.utf8ByteSize

/-- The JSON form of registers. -/
def registersDocument (regs : Registers) : Json.Document :=
  .object
    [("pc", .natural regs.pc.toNat), ("a", .natural regs.a.toNat), ("x", .natural regs.x.toNat),
      ("y", .natural regs.y.toNat), ("sp", .natural regs.sp.toNat),
      ("status", .natural regs.status.toByte.toNat),
      ("unknown", .natural regs.unknown.toByte.toNat)]

def document (snapshot : Snapshot) : Json.Document :=
  .object
    [("id", .text snapshot.id), ("name", .text snapshot.name),
      ("created_at", .text snapshot.createdAt.text),
      ("registers", registersDocument snapshot.registers),
      ("cycles", .natural snapshot.cycles.toNat), ("mem_size", .natural snapshot.memSize),
      ("memory", .text snapshot.memory), ("state", .text snapshot.state),
      ("digest", .text snapshot.digest)]

/-- The JSON text of a snapshot. -/
def toJson (snapshot : Snapshot) : String :=
  snapshot.document.pretty 0

def byteOf? (value : Json.Value) : Option UInt8 := do
  return UInt8.ofNat (← value.natural? 256)

/-- Reads registers; every field has to be there. -/
def registersOf? (value : Json.Value) : Option Registers := do
  match ← value.record? ["pc", "a", "x", "y", "sp", "status", "unknown"] with
  | [some pc, some a, some x, some y, some sp, some status, some unknown] =>
    return {
      pc := UInt16.ofNat (← pc.natural? bound16)
      a := ← byteOf? a
      x := ← byteOf? x
      y := ← byteOf? y
      sp := ← byteOf? sp
      status := Flags.ofByte (← byteOf? status)
      unknown := Flags.ofByte (← byteOf? unknown) }
  | _ => none

/-- Reads a snapshot from a JSON value; every field has to be there. -/
def ofValue? (value : Json.Value) : Option Snapshot := do
  match ← value.record? ["id", "name", "created_at", "registers", "cycles", "mem_size", "memory",
      "state", "digest"] with
  | [some id, some name, some createdAt, some registers, some cycles, some memSize, some memory,
      some state, some digest] =>
    return {
      id := ← id.text?
      name := ← name.text?
      createdAt := ← Timestamp.parse? (← createdAt.text?)
      registers := ← registersOf? registers
      cycles := UInt64.ofNat (← cycles.natural? bound64)
      memSize := ← memSize.natural? bound64
      memory := ← memory.text?
      state := ← state.text?
      digest := ← digest.text? }
  | _ => none

/-- Reads a snapshot from JSON text. -/
def ofJson? (text : String) : Option Snapshot := do
  ofValue? (← Json.parse? text)

end Snapshot

end Mos6502
