import Mos6502.Proofs.Json
import Mos6502.Proofs.Timestamp
import Mos6502.Snapshot.Basic

/-!
# Snapshots as text

Reading undoes writing for every snapshot whose memory size fits into 64 bits and whose time is a point in time.
-/

namespace Mos6502.Snapshot

theorem byteOf?_byte (byte : UInt8) : byteOf? (.number (some byte.toNat)) = some byte := by
  simp [byteOf?, Json.Value.natural?, byte.toNat_lt]

open Json in
theorem registersOf?_document (regs : Registers) :
    registersOf? (registersDocument regs).value = some regs := by
  have pc : (Value.number (some regs.pc.toNat)).natural? bound16 = some regs.pc.toNat :=
    if_pos regs.pc.toNat_lt
  have fields : (registersDocument regs).value.record?
      ["pc", "a", "x", "y", "sp", "status", "unknown"] =
        some [some (.number (some regs.pc.toNat)), some (.number (some regs.a.toNat)),
          some (.number (some regs.x.toNat)), some (.number (some regs.y.toNat)),
          some (.number (some regs.sp.toNat)), some (.number (some regs.status.toByte.toNat)),
          some (.number (some regs.unknown.toByte.toNat))] := rfl
  simp only [registersOf?, fields]
  simp [pc, byteOf?_byte]

/-- The memory size fits into its field, and the time of capture is a point in time. -/
structure Writable (snapshot : Snapshot) : Prop where
  createdAt : snapshot.createdAt.isValid = true
  memSize : snapshot.memSize < bound64

open Json in
theorem ofValue?_document {snapshot : Snapshot} (writable : snapshot.Writable) :
    ofValue? snapshot.document.value = some snapshot := by
  have cycles : (Value.number (some snapshot.cycles.toNat)).natural? bound64 =
      some snapshot.cycles.toNat :=
    if_pos snapshot.cycles.toNat_lt
  have memSize : (Value.number (some snapshot.memSize)).natural? bound64 = some snapshot.memSize :=
    if_pos writable.memSize
  have fields : snapshot.document.value.record?
      ["id", "name", "created_at", "registers", "cycles", "mem_size", "memory", "state",
        "digest"] =
      some [some (.string (some snapshot.id)), some (.string (some snapshot.name)),
        some (.string (some snapshot.createdAt.text)),
        some (registersDocument snapshot.registers).value,
        some (.number (some snapshot.cycles.toNat)), some (.number (some snapshot.memSize)),
        some (.string (some snapshot.memory)), some (.string (some snapshot.state)),
        some (.string (some snapshot.digest))] := rfl
  simp only [ofValue?, fields]
  simp [Value.text?, Timestamp.parse?_text writable.createdAt, registersOf?_document, cycles, memSize]

/-- Reading undoes writing. -/
theorem ofJson?_toJson {snapshot : Snapshot} (writable : snapshot.Writable) :
    ofJson? snapshot.toJson = some snapshot := by
  have value : (Json.parse? snapshot.toJson).bind ofValue? = ofValue? snapshot.document.value := by
    rw [toJson, Json.Document.parse?_pretty, Option.bind_some]
  exact value.trans (ofValue?_document writable)

end Mos6502.Snapshot
