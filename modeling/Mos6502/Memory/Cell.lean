/-!
Memory cells: a byte together with its state. A cell starts undeclared; declarations make it RAM,
never-written RAM, or write-protected, and reads and writes move never-written RAM to plain RAM.
-/

namespace Mos6502

/-- The state flags of a cell. A cell with none of them is plain initialized RAM. -/
structure CellState where
  /-- No region was ever declared here. -/
  undefined : Bool := false
  /-- Write-protected. -/
  rom : Bool := false
  /-- Declared but never written. -/
  uninitialized : Bool := false
  /-- A read or write hook is installed. -/
  hooked : Bool := false
deriving DecidableEq, Repr

namespace CellState

/-- The state of an undeclared cell. -/
def undeclared : CellState :=
  { undefined := true }

/-- Whether no flag is set. -/
def isPlain (state : CellState) : Bool :=
  !(state.undefined || state.rom || state.uninitialized || state.hooked)

/-- The state as a byte, lowest bit first in the order of the fields. -/
def toByte (state : CellState) : UInt8 :=
  UInt8.ofNat
    (state.undefined.toNat + 2 * state.rom.toNat + 4 * state.uninitialized.toNat
      + 8 * state.hooked.toNat)

/-- The state that a byte stands for; higher bits are ignored. -/
def ofByte (byte : UInt8) : CellState :=
  { undefined := byte.toNat.testBit 0
    rom := byte.toNat.testBit 1
    uninitialized := byte.toNat.testBit 2
    hooked := byte.toNat.testBit 3 }

@[simp]
theorem ofByte_toByte (state : CellState) : ofByte state.toByte = state := by
  obtain ⟨u, r, i, h⟩ := state
  cases u <;> cases r <;> cases i <;> cases h <;> rfl

theorem isPlain_iff {state : CellState} : state.isPlain = true ↔ state = {} := by
  obtain ⟨u, r, i, h⟩ := state
  simp [isPlain, and_assoc]

end CellState

/-- A byte and its state. -/
structure Cell where
  byte : UInt8 := 0
  state : CellState := CellState.undeclared
deriving DecidableEq, Repr

namespace Cell

/-- Declared as RAM holding zero. -/
def asZeroed (cell : Cell) : Cell :=
  { byte := 0, state := { hooked := cell.state.hooked } }

/-- Declared as RAM whose content nobody has written yet; the old byte stays. -/
def asUninitialized (cell : Cell) : Cell :=
  { cell with state := { uninitialized := true, hooked := cell.state.hooked } }

/-- Declared as RAM with an initial content. -/
def asData (byte : UInt8) (cell : Cell) : Cell :=
  { byte, state := { hooked := cell.state.hooked } }

/-- Declared as write-protected with the given content. -/
def asRom (byte : UInt8) (cell : Cell) : Cell :=
  { byte, state := { rom := true, hooked := cell.state.hooked } }

/-- Marked as carrying a read or write hook. -/
def asHooked (cell : Cell) : Cell :=
  { cell with state := { cell.state with hooked := true } }

/-- Made readable without complaint, as the cell behind an exec hook is. -/
def asReadable (cell : Cell) : Cell :=
  { cell with state := { cell.state with undefined := false, uninitialized := false } }

/-- Marked as written. -/
def asInitialized (cell : Cell) : Cell :=
  { cell with state := { cell.state with uninitialized := false } }

/-- The byte replaced, the state kept. -/
def withByte (byte : UInt8) (cell : Cell) : Cell :=
  { cell with byte }

/-- Content and state taken from an image, the mark of a hook kept. -/
def withImage (byte state : UInt8) (cell : Cell) : Cell :=
  { byte, state := { CellState.ofByte state with hooked := cell.state.hooked } }

end Cell

end Mos6502
