import Mos6502.World.Basic

/-!
Access paths: how a program's reads, instruction fetches and writes reach memory. A hook of the right kind
takes the access over; otherwise the state of the cell decides which fault is recorded. Reading a
never-written cell is reported once, after which the cell counts as written.
-/

namespace Mos6502.World

variable {σ : Type}

/-- Hands an access to a hook of the host. -/
def invoke (host : Host σ) (hook : Nat) (addr : UInt16) (access : Access) (w : World σ) :
    Except FaultKind UInt8 × World σ :=
  host.respond hook addr access (w.meter (·.countCallback access.kind.name))

/-- Reads a byte; `undefined` and `uninitialized` are the faults for cells in these states. -/
def readAs (host : Host σ) (undefined uninitialized : FaultKind) (addr : UInt16) (w : World σ) :
    UInt8 × World σ :=
  let state := w.machine.mem.state addr
  if state.isPlain then (w.machine.mem.raw addr, w)
  else
    match if state.hooked then w.machine.mem.hook? .read addr else none with
    | some hook =>
      match w.invoke host hook addr .read with
      | (.ok value, w) => (value, w)
      | (.error kind, w) =>
        let w := w.raise kind addr
        (w.machine.mem.raw addr, w)
    | none =>
      let value := w.machine.mem.raw addr
      if state.undefined then (value, w.raise undefined addr)
      else if state.uninitialized then
        (value, (w.raise uninitialized addr).mapMem (·.markInitialized addr))
      else (value, w)

/-- Reads a byte on behalf of the program. -/
def read (host : Host σ) (addr : UInt16) (w : World σ) : UInt8 × World σ :=
  w.readAs host .readUndefined .readUninitialized addr

/-- Reads a byte of an instruction. -/
def fetch (host : Host σ) (addr : UInt16) (w : World σ) : UInt8 × World σ :=
  w.readAs host .executeUndefined .executeUninitialized addr

/-- Stores a byte into plain or never-written RAM. -/
def put (addr : UInt16) (value : UInt8) (w : World σ) : World σ :=
  let changed := w.machine.mem.raw addr != value
  (w.noteStore changed).mapMem fun mem => (mem.store addr value).markInitialized addr

/-- Writes a byte on behalf of the program. -/
def write (host : Host σ) (addr : UInt16) (value : UInt8) (w : World σ) : World σ :=
  let state := w.machine.mem.state addr
  if state.isPlain then w.put addr value
  else
    match if state.hooked then w.machine.mem.hook? .write addr else none with
    | some hook =>
      match (w.noteStore true).invoke host hook addr (.write value) with
      | (.ok _, w) => w
      | (.error kind, w) => w.raise kind addr
    | none =>
      if state.rom then w.raise .writeRom addr
      else if state.undefined then w.raise .writeUndefined addr
      else w.put addr value

end Mos6502.World
