import Mos6502.Memory.Cell
import Mos6502.Memory.KeyStream

/-!
The memory of a machine: cells from address zero upwards and the hooks bound to them. Declarations clip
their range to the memory; addresses past the end read as undeclared zero and take no write.
-/

namespace Mos6502

/-- The kinds of access that a hook can intercept. -/
inductive AccessKind where
  | read
  | write
  | exec
deriving DecidableEq, Repr

/-- The name of a kind, which also labels counters. -/
def AccessKind.name : AccessKind → String
  | .read => "read"
  | .write => "write"
  | .exec => "exec"

/-- An intercepted access; a write carries its byte. -/
inductive Access where
  | read
  | write (value : UInt8)
  | exec
deriving DecidableEq, Repr

def Access.kind : Access → AccessKind
  | .read => .read
  | .write _ => .write
  | .exec => .exec

/-- A hook of the host, known by its number, bound to the addresses from `start` to before `stop`. -/
structure HookBinding where
  kind : AccessKind
  start : Nat
  stop : Nat
  hook : Nat
deriving DecidableEq, Repr

def HookBinding.covers (binding : HookBinding) (kind : AccessKind) (addr : UInt16) : Bool :=
  binding.kind == kind && binding.start ≤ addr.toNat && addr.toNat < binding.stop

/-- Content of memory before any region is declared. -/
inductive Fill where
  | zero
  | random (seed : UInt64)
deriving DecidableEq, Repr

def Fill.bytes : Fill → Nat → List UInt8
  | .zero, size => List.replicate size 0
  | .random seed, size => KeyStream.bytes seed size

/-- Cells and hook bindings, the latest binding first. -/
structure Memory where
  cells : Array Cell
  hooks : List HookBinding := []
deriving DecidableEq, Repr

namespace Memory

/-- The largest memory, which is all that an address can reach. -/
def maxSize : Nat := 0x10000

/-- Brings a requested size into the range from one cell to the largest memory. -/
def clampSize (size : Nat) : Nat :=
  max 1 (min size maxSize)

theorem clampSize_pos (size : Nat) : 1 ≤ clampSize size :=
  Nat.le_max_left 1 (min size maxSize)

theorem clampSize_le (size : Nat) : clampSize size ≤ maxSize := by
  unfold clampSize maxSize
  omega

theorem clampSize_of_le {size : Nat} (positive : 1 ≤ size) (small : size ≤ maxSize) :
    clampSize size = size := by
  rw [clampSize, Nat.min_eq_left small, Nat.max_eq_right positive]

/-- A memory of undeclared cells that hold a fill. -/
def new (size : Nat) (fill : Fill) : Memory :=
  { cells := ((fill.bytes (clampSize size)).map fun byte => ({ byte } : Cell)).toArray }

def size (mem : Memory) : Nat :=
  mem.cells.size

/-- The cell at an address, if memory reaches that far. -/
def cell? (mem : Memory) (addr : UInt16) : Option Cell :=
  mem.cells[addr.toNat]?

/-- The state at an address; past the end everything is undeclared. -/
def state (mem : Memory) (addr : UInt16) : CellState :=
  match mem.cell? addr with
  | some cell => cell.state
  | none => .undeclared

/-- The stored byte whatever its state; past the end it is zero. -/
def raw (mem : Memory) (addr : UInt16) : UInt8 :=
  match mem.cell? addr with
  | some cell => cell.byte
  | none => 0

/-- The byte for inspection: `none` past the end and where nothing was ever written. -/
def byte? (mem : Memory) (addr : UInt16) : Option UInt8 :=
  match mem.cell? addr with
  | some cell => if cell.state.uninitialized then none else some cell.byte
  | none => none

/-- The hook that catches accesses of a kind at an address. -/
def hook? (mem : Memory) (kind : AccessKind) (addr : UInt16) : Option Nat :=
  (mem.hooks.find? (·.covers kind addr)).map (·.hook)

/-- Changes the cell at an address; does nothing past the end. -/
def modify (mem : Memory) (addr : UInt16) (change : Cell → Cell) : Memory :=
  { mem with cells := mem.cells.modify addr.toNat change }

def store (mem : Memory) (addr : UInt16) (value : UInt8) : Memory :=
  mem.modify addr (Cell.withByte value)

def markInitialized (mem : Memory) (addr : UInt16) : Memory :=
  mem.modify addr Cell.asInitialized

/-- Applies a change to `count` cells from `start` on. -/
def changeRange (change : Cell → Cell) : Nat → Nat → Array Cell → Array Cell
  | _, 0, cells => cells
  | start, count + 1, cells => changeRange change (start + 1) count (cells.modify start change)

/-- Applies a change that depends on a byte to the cells from `start` on, one for each byte. -/
def changeBytes (change : UInt8 → Cell → Cell) : Nat → List UInt8 → Array Cell → Array Cell
  | _, [], cells => cells
  | start, byte :: rest, cells =>
    changeBytes change (start + 1) rest (cells.modify start (change byte))

/-- The number of cells that a range of `length` addresses from `start` has inside memory. -/
def clip (mem : Memory) (start length : Nat) : Nat :=
  min (start + length) mem.size - start

/-- Declares RAM, zeroed or with unknown content. -/
def declareRam (mem : Memory) (start length : Nat) (zeroed : Bool) : Memory :=
  let change := if zeroed then Cell.asZeroed else Cell.asUninitialized
  { mem with cells := changeRange change start (mem.clip start length) mem.cells }

/-- Declares RAM with initial contents. -/
def declareData (mem : Memory) (start : Nat) (bytes : List UInt8) : Memory :=
  { mem with cells := changeBytes Cell.asData start bytes mem.cells }

/-- Declares write-protected memory with the given contents. -/
def declareRom (mem : Memory) (start : Nat) (bytes : List UInt8) : Memory :=
  { mem with cells := changeBytes Cell.asRom start bytes mem.cells }

/-- Binds a hook to a range of addresses, over any earlier hook of its kind. Read and write hooks mark
their cells; an exec hook makes the cell behind each of its addresses readable, since fetching an
instruction looks at two bytes. -/
def bind (mem : Memory) (kind : AccessKind) (start length hook : Nat) : Memory :=
  let count := mem.clip start length
  let cells :=
    match kind with
    | .read | .write => changeRange Cell.asHooked start count mem.cells
    | .exec => changeRange Cell.asReadable (start + 1) count mem.cells
  { cells, hooks := ⟨kind, start, start + count, hook⟩ :: mem.hooks }

def bytes (mem : Memory) : List UInt8 :=
  mem.cells.toList.map (·.byte)

/-- The states in order, as bytes. -/
def stateBytes (mem : Memory) : List UInt8 :=
  mem.cells.toList.map (·.state.toByte)

/-- Replaces contents and states by those of an image, keeping the hooks and their marks. -/
def withImage (mem : Memory) (bytes states : List UInt8) : Memory :=
  { mem with
    cells := (List.zipWith (fun cell (byte, state) => cell.withImage byte state)
      mem.cells.toList (bytes.zip states)).toArray }

end Memory

end Mos6502
