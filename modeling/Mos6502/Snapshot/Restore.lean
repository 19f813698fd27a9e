import Mos6502.Snapshot.Basic
import Mos6502.Snapshot.RunLength
import Mos6502.Snapshot.Base64
import Mos6502.Snapshot.Digest
import Mos6502.World.Basic

/-!
Taking snapshots and restoring them. A snapshot holds registers, cycles, memory and cell states; hooks,
labels and instruments stay with the world. Restoring checks sizes, codes and digest before it changes
anything.
-/

namespace Mos6502

/-- Why a snapshot cannot be restored. -/
inductive RestoreError where
  | sizeMismatch (snapshot machine : Nat)
  | badBase64
  | badImage (error : RunLength.Error)
  | badDigest
  | badJson
deriving DecidableEq, Repr

def RestoreError.message : RestoreError → String
  | .sizeMismatch snapshot machine =>
    "snapshot is for " ++ Text.decimal snapshot ++ " bytes of memory, simulator has "
      ++ Text.decimal machine
  | .badBase64 => "bad base64 in snapshot"
  | .badImage error => "corrupt memory image: " ++ error.message
  | .badDigest => "snapshot digest does not match its contents"
  | .badJson => "bad snapshot JSON"

namespace Snapshot

/-- The text of an image. -/
def encodeImage (bytes : List UInt8) : String :=
  Base64.encode (RunLength.encode bytes)

/-- The image of `size` bytes that a text stands for. -/
def decodeImage (size : Nat) (text : String) : Except RestoreError (List UInt8) :=
  match Base64.decode? text with
  | none => .error .badBase64
  | some code => (RunLength.decode size code).mapError .badImage

/-- The snapshot of a machine. -/
def ofMachine (id name : String) (createdAt : Timestamp) (machine : Machine) : Snapshot :=
  let bytes := machine.mem.bytes
  let states := machine.mem.stateBytes
  { id, name, createdAt
    registers := machine.regs
    cycles := machine.cycles
    memSize := machine.mem.size
    memory := encodeImage bytes
    state := encodeImage states
    digest := Digest.sha256 (bytes ++ states) }

/-- The images of a snapshot for a memory of `size` bytes, if all its checks pass. -/
def images (snapshot : Snapshot) (size : Nat) : Except RestoreError (List UInt8 × List UInt8) := do
  if snapshot.memSize ≠ size then
    throw (.sizeMismatch snapshot.memSize size)
  let bytes ← decodeImage size snapshot.memory
  let states ← decodeImage size snapshot.state
  if Digest.sha256 (bytes ++ states) ≠ snapshot.digest then
    throw .badDigest
  return (bytes, states)

end Snapshot

/-- Puts captured state and images into a machine. -/
def Machine.withSnapshot (machine : Machine) (snapshot : Snapshot) (bytes states : List UInt8) :
    Machine :=
  { machine with
    mem := machine.mem.withImage bytes states
    regs := snapshot.registers
    cycles := snapshot.cycles
    slot := {} }

/-- Restores a snapshot. On an error the world is as before. -/
def World.restore {σ : Type} (snapshot : Snapshot) (w : World σ) :
    Except RestoreError Unit × World σ :=
  match snapshot.images w.machine.mem.size with
  | .error error => (.error error, w)
  | .ok (bytes, states) =>
    (.ok (),
      ({ w with machine := w.machine.withSnapshot snapshot bytes states }).log
        (.restored snapshot.name snapshot.id))

end Mos6502
