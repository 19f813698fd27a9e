import Mos6502.Proofs.Snapshot.Base64
import Mos6502.Proofs.Snapshot.RunLength
import Mos6502.Snapshot.Restore

/-!
# Restoring snapshots

A snapshot is restored exactly if its size is that of memory, its two texts stand for images of that size and its
digest is that of the images. This is said of all snapshots, whoever made them. What restoring then does is one
equation of worlds, so that whatever the equation does not name stays as it was.
-/

namespace Mos6502

namespace CellState

theorem toByte_restored (state : CellState) (image : UInt8) :
    { ofByte image with hooked := state.hooked }.toByte =
      (image &&& 0x07) ||| (state.toByte &&& 0x08) := by
  have mark : state.toByte &&& 0x08 = if state.hooked then 0x08 else 0x00 := by
    obtain ⟨undefined, rom, uninitialized, hooked⟩ := state
    revert undefined rom uninitialized hooked
    decide
  have all : ∀ index < 256, ∀ hooked : Bool,
      { ofByte (UInt8.ofNat index) with hooked }.toByte =
        (UInt8.ofNat index &&& 0x07) ||| if hooked then 0x08 else 0x00 := by
    decide +kernel
  have here := all image.toNat image.toNat_lt state.hooked
  rw [UInt8.ofNat_toNat] at here
  rw [mark, here]

end CellState

/-- A captured cell with the mark of a hook that `cell` has. -/
def Cell.adopt (cell captured : Cell) : Cell :=
  { captured with state := { captured.state with hooked := cell.state.hooked } }

namespace Memory

theorem bytes_withImage {mem : Memory} {bytes states : List UInt8} (full : bytes.length = mem.size)
    (stateFull : states.length = mem.size) : (mem.withImage bytes states).bytes = bytes := by
  unfold size at full stateFull
  apply List.ext_getElem
  · simp [Memory.bytes, withImage, full, stateFull]
  · intro index inside _
    simp [Memory.bytes, withImage, Cell.withImage]

theorem stateBytes_withImage {mem : Memory} {bytes states : List UInt8}
    (full : bytes.length = mem.size) (stateFull : states.length = mem.size) :
    (mem.withImage bytes states).stateBytes =
      List.zipWith (fun before image => (image &&& 0x07) ||| (before &&& 0x08)) mem.stateBytes
        states := by
  unfold size at full stateFull
  apply List.ext_getElem
  · simp [stateBytes, withImage, full, stateFull]
  · intro index inside _
    simp [stateBytes, withImage, Cell.withImage, CellState.toByte_restored]

/-- A memory with the cells of a captured one, but its own hooks and marks of hooks. -/
def adopt (mem captured : Memory) : Memory :=
  { mem with cells := Array.zipWith Cell.adopt mem.cells captured.cells }

theorem cell?_adopt (mem captured : Memory) (addr : UInt16) :
    (mem.adopt captured).cell? addr =
      (mem.cell? addr).bind fun cell => (captured.cell? addr).map cell.adopt := by
  unfold cell? adopt
  rw [Array.getElem?_zipWith]
  cases mem.cells[addr.toNat]? with
  | none => rfl
  | some cell => cases captured.cells[addr.toNat]? <;> rfl

/-- Restoring the images of a memory takes over its cells. -/
theorem withImage_eq_adopt (mem captured : Memory) :
    mem.withImage captured.bytes captured.stateBytes = mem.adopt captured := by
  simp only [withImage, adopt, Memory.mk.injEq, and_true]
  apply Array.ext
  · simp [Memory.bytes, stateBytes]
  · intro index inside _
    simp [Memory.bytes, stateBytes, Cell.adopt, Cell.withImage]

end Memory

namespace Snapshot

/-- A text is the Base64 of a run-length code that stands for an image. -/
def Depicts (text : String) (image : List UInt8) : Prop :=
  ∃ code, Base64.decode? text = some code ∧ RunLength.Expands code image

theorem depicts_encodeImage (image : List UInt8) : Depicts (encodeImage image) image :=
  ⟨RunLength.encode image, Base64.decode?_encode _, RunLength.expands_encode image⟩

/-- Decoding gives the image of the right size that a text stands for. -/
theorem decodeImage_eq_ok_iff {size : Nat} {text : String} {image : List UInt8} :
    decodeImage size text = .ok image ↔ Depicts text image ∧ image.length = size := by
  unfold decodeImage Depicts
  cases Base64.decode? text with
  | none => simp
  | some code =>
    have mapped : (RunLength.decode size code).mapError RestoreError.badImage = .ok image ↔
        RunLength.decode size code = .ok image := by
      cases RunLength.decode size code <;> simp [Except.mapError]
    simp [mapped, RunLength.decode_eq_ok_iff_expands]

section

variable {ε α β : Type}

theorem bind_eq_ok_iff {first : Except ε α} {next : α → Except ε β} {result : β} :
    (first >>= next) = .ok result ↔ ∃ value, first = .ok value ∧ next value = .ok result := by
  cases first <;> simp [bind, Except.bind]

theorem refuse_eq_ok_iff {refused : Prop} [Decidable refused] {error : ε}
    {after : PUnit → Except ε α} {rest : Except ε α} {result : α} :
    (if refused then throw error >>= after else rest) = .ok result ↔
      ¬refused ∧ rest = .ok result := by
  split
  next holds => simp [holds, throw, throwThe, MonadExceptOf.throw, bind, Except.bind]
  next fails => simp [fails]

end

/-- All that restoring a snapshot into a memory of `size` cells asks for: the size, texts that stand for
images of this size, and their digest. -/
structure Admits (snapshot : Snapshot) (size : Nat) (bytes states : List UInt8) : Prop where
  memSize : snapshot.memSize = size
  memory : Depicts snapshot.memory bytes
  memory_length : bytes.length = size
  state : Depicts snapshot.state states
  state_length : states.length = size
  digest : Digest.sha256 (bytes ++ states) = snapshot.digest

/-- The checks pass for exactly the snapshots that have all they ask for. -/
theorem images_eq_ok_iff {snapshot : Snapshot} {size : Nat} {bytes states : List UInt8} :
    snapshot.images size = .ok (bytes, states) ↔ snapshot.Admits size bytes states := by
  have checks : snapshot.images size = .ok (bytes, states) ↔
      snapshot.memSize = size ∧ decodeImage size snapshot.memory = .ok bytes ∧
        decodeImage size snapshot.state = .ok states ∧
        Digest.sha256 (bytes ++ states) = snapshot.digest := by
    unfold images
    simp only [bind_eq_ok_iff, refuse_eq_ok_iff, ne_eq, not_not, pure, Except.pure,
      Except.ok.injEq, Prod.mk.injEq]
    constructor
    · rintro ⟨fits, _, memory, _, state, digest, rfl, rfl⟩
      exact ⟨fits, memory, state, digest⟩
    · rintro ⟨fits, memory, state, digest⟩
      exact ⟨fits, bytes, memory, states, state, digest, rfl, rfl⟩
  rw [checks, decodeImage_eq_ok_iff, decodeImage_eq_ok_iff]
  constructor
  · rintro ⟨fits, ⟨memory, full⟩, ⟨state, stateFull⟩, digest⟩
    exact ⟨fits, memory, full, state, stateFull, digest⟩
  · rintro ⟨fits, memory, full, state, stateFull, digest⟩
    exact ⟨fits, ⟨memory, full⟩, ⟨state, stateFull⟩, digest⟩

/-- The snapshot of a machine has all that restoring it into a memory of the same size asks for. -/
theorem admits_ofMachine (id name : String) (createdAt : Timestamp) (m : Machine) :
    (ofMachine id name createdAt m).Admits m.mem.size m.mem.bytes m.mem.stateBytes where
  memSize := rfl
  memory := depicts_encodeImage m.mem.bytes
  memory_length := by simp [Memory.bytes, Memory.size]
  state := depicts_encodeImage m.mem.stateBytes
  state_length := by simp [Memory.stateBytes, Memory.size]
  digest := rfl

end Snapshot

namespace World

variable {σ : Type}

theorem restore_of_error {snapshot : Snapshot} {w : World σ} {error : RestoreError}
    (refused : snapshot.images w.machine.mem.size = .error error) :
    w.restore snapshot = (.error error, w) := by
  rw [restore, refused]

theorem restore_of_admits {snapshot : Snapshot} {w : World σ} {bytes states : List UInt8}
    (admits : snapshot.Admits w.machine.mem.size bytes states) :
    w.restore snapshot =
      (.ok (), ({ w with machine := w.machine.withSnapshot snapshot bytes states }).log
        (.restored snapshot.name snapshot.id)) := by
  rw [restore, Snapshot.images_eq_ok_iff.mpr admits]

theorem restore_of_not_ok {snapshot : Snapshot} {w : World σ} {error : RestoreError}
    (fails : (w.restore snapshot).1 = .error error) : (w.restore snapshot).2 = w := by
  cases passed : snapshot.images w.machine.mem.size with
  | error other => rw [restore_of_error passed]
  | ok images =>
    rw [restore_of_admits (Snapshot.images_eq_ok_iff.mp passed)] at fails
    cases fails

theorem slot_restore_of_empty (snapshot : Snapshot) {w : World σ} (empty : w.machine.slot = {}) :
    (w.restore snapshot).2.machine.slot = {} := by
  cases passed : snapshot.images w.machine.mem.size with
  | error error =>
    rw [restore_of_error passed]
    exact empty
  | ok images =>
    rw [restore_of_admits (Snapshot.images_eq_ok_iff.mp passed)]
    rfl

/-- Restoring the snapshot of a machine takes over the cells of that machine, if there are as many. -/
theorem mem_restore_ofMachine (w : World σ) (id name : String) (createdAt : Timestamp) (m : Machine) :
    (w.restore (.ofMachine id name createdAt m)).2.machine.mem =
      if m.mem.size = w.machine.mem.size then w.machine.mem.adopt m.mem else w.machine.mem := by
  have admits := Snapshot.admits_ofMachine id name createdAt m
  by_cases fits : m.mem.size = w.machine.mem.size
  · rw [fits] at admits
    rw [if_pos fits, restore_of_admits admits, ← Memory.withImage_eq_adopt]
    rfl
  · -- Another size fails the first check, and then nothing is taken over.
    rw [if_neg fits]
    cases passed : (Snapshot.ofMachine id name createdAt m).images w.machine.mem.size with
    | error error => rw [restore_of_error passed]
    | ok images => exact absurd (Snapshot.images_eq_ok_iff.mp passed).memSize fits

/-- Restoring is all or nothing. It succeeds exactly for the snapshots that have all it asks for; where it fails
the world stays as it was; and where it succeeds contents, states without the marks of hooks, registers and cycles
are those of the snapshot, the fault slot is empty, the event is logged, and the rest of the world is as before. -/
theorem restore_all_or_nothing (snapshot : Snapshot) (w : World σ) :
    ((w.restore snapshot).1 = .ok () ↔
      ∃ bytes states, snapshot.Admits w.machine.mem.size bytes states) ∧
    (∀ error, (w.restore snapshot).1 = .error error → (w.restore snapshot).2 = w) ∧
    ∀ bytes states, snapshot.Admits w.machine.mem.size bytes states →
      ∃ cells : Array Cell,
        cells.toList.map (·.byte) = bytes ∧
        cells.toList.map (·.state.toByte) =
          List.zipWith (fun before image => (image &&& 0x07) ||| (before &&& 0x08))
            w.machine.mem.stateBytes states ∧
        (w.restore snapshot).2 =
          { w with
            machine := { w.machine with
              mem := { w.machine.mem with cells }
              regs := snapshot.registers
              cycles := snapshot.cycles
              slot := {} }
            journal := w.journal.note (.restored snapshot.name snapshot.id) } := by
  refine ⟨⟨?succeeds, ?admitted⟩, fun error => restore_of_not_ok, ?replaced⟩
  case succeeds =>
    intro succeeds
    cases passed : snapshot.images w.machine.mem.size with
    | error error =>
      rw [restore_of_error passed] at succeeds
      cases succeeds
    | ok images => exact ⟨images.1, images.2, Snapshot.images_eq_ok_iff.mp passed⟩
  case admitted =>
    rintro ⟨bytes, states, admits⟩
    rw [restore_of_admits admits]
  case replaced =>
    intro bytes states admits
    have full := admits.memory_length
    have stateFull := admits.state_length
    refine ⟨(w.machine.mem.withImage bytes states).cells, Memory.bytes_withImage full stateFull,
      Memory.stateBytes_withImage full stateFull, ?_⟩
    rw [restore_of_admits admits]
    rfl

end World

end Mos6502
