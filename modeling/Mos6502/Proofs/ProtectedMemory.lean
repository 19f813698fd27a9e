import Mos6502.CommandLine.Program
import Mos6502.Proofs.Cellwise
import Mos6502.Proofs.Operation
import Mos6502.World.Setup

/-!
# Protected memory

Without hooks a program has no way around the protection of memory: write-protected and undeclared cells keep their
bytes and states for as long as the machine is at work, whatever it does. All that ever happens to the state of a
cell is that it comes to count as written.
-/

namespace Mos6502

variable {σ : Type}

/-- What may become of a cell: no flag is gained, none but `uninitialized` is lost, and the byte stays where it is
write-protected or undeclared. -/
structure Cell.Protects (before after : Cell) : Prop where
  undefined : after.state.undefined = before.state.undefined
  rom : after.state.rom = before.state.rom
  hooked : after.state.hooked = before.state.hooked
  uninitialized : after.state.uninitialized = true → before.state.uninitialized = true
  byte : before.state.rom = true ∨ before.state.undefined = true → after.byte = before.byte

namespace Cell

theorem Protects.refl (cell : Cell) : cell.Protects cell :=
  ⟨rfl, rfl, rfl, id, fun _ => rfl⟩

theorem Protects.trans {a b c : Cell} (first : a.Protects b) (second : b.Protects c) :
    a.Protects c where
  undefined := second.undefined.trans first.undefined
  rom := second.rom.trans first.rom
  hooked := second.hooked.trans first.hooked
  uninitialized blank := first.uninitialized (second.uninitialized blank)
  byte kept := by
    have keptStill : b.state.rom = true ∨ b.state.undefined = true := by
      rwa [first.rom, first.undefined]
    exact (second.byte keptStill).trans (first.byte kept)

theorem protects_asInitialized (cell : Cell) : cell.Protects cell.asInitialized :=
  ⟨rfl, rfl, rfl, fun blank => absurd blank Bool.false_ne_true, fun _ => rfl⟩

theorem protects_stored {cell : Cell} (writable : cell.state.rom = false)
    (declared : cell.state.undefined = false) (value : UInt8) :
    cell.Protects (cell.withByte value).asInitialized where
  undefined := rfl
  rom := rfl
  hooked := rfl
  uninitialized blank := absurd blank Bool.false_ne_true
  byte kept := by
    rw [writable, declared] at kept
    simp at kept

end Cell

/-- Where no hook is bound, protection lasts. -/
theorem Memory.kept_protects {start : Memory} (free : start.hooks = []) (host : Host σ) :
    Kept (start.Cellwise Cell.Protects) host where
  mark addr protects :=
    protects.trans .trans (cellwise_modify .refl fun cell _ => cell.protects_asInitialized)
  put {mem addr} value writable declared protects := by
    rw [markInitialized_store]
    refine protects.trans .trans (cellwise_modify .refl ?_)
    intro cell found
    rw [state_of_cell? found] at writable declared
    exact Cell.protects_stored writable declared value
  respond bound protects := by
    rw [hook?_of_hooks_eq_nil (protects.hooks.trans free)] at bound
    cases bound

/-- The address that a micro-operation accesses. -/
def MicroOp.address? : MicroOp → Option UInt16
  | .fetch addr | .load addr | .store addr _ | .isBlank addr => some addr
  | _ => none

/-- Accesses past the end leave memory alone. -/
theorem MicroOp.mem_perform_of_size_le (host : Host σ) {w : World σ} (free : w.machine.HookFree)
    {op : MicroOp} {addr : UInt16} (accesses : op.address? = some addr)
    (past : w.machine.mem.size ≤ addr.toNat) :
    (op.perform host w).2.machine.mem = w.machine.mem := by
  rw [(op.perform_bare host free.direct).2]
  have undeclared := Memory.state_of_size_le past
  have undefined : (w.machine.mem.state addr).undefined = true := by rw [undeclared]; rfl
  have writable : (w.machine.mem.state addr).rom = false := by rw [undeclared]; rfl
  cases op with
  | fetch other =>
    obtain rfl := Option.some.inj accesses
    change (w.machine.noteRead .executeUndefined .executeUninitialized other).mem = _
    rw [Machine.noteRead_of_undefined undefined]
    rfl
  | load other =>
    obtain rfl := Option.some.inj accesses
    change (w.machine.noteRead .readUndefined .readUninitialized other).mem = _
    rw [Machine.noteRead_of_undefined undefined]
    rfl
  | store other value =>
    obtain rfl := Option.some.inj accesses
    change (w.machine.write other value).mem = _
    rw [Machine.write_of_undefined writable undefined]
    rfl
  | isBlank => rfl
  | _ => cases accesses

namespace World

/-- Whatever a world without hooks is asked to do, memory stays protected; and an access past the end of memory
changes nothing in it. -/
theorem memory_stays_protected (host : Host σ) {w : World σ} (free : w.machine.HookFree) :
    (∀ operations : List Operation,
      w.machine.mem.Cellwise Cell.Protects (w.operateAll host operations).2.machine.mem) ∧
    ∀ (op : MicroOp) (addr : UInt16), op.address? = some addr →
      w.machine.mem.size ≤ addr.toNat → (op.perform host w).2.machine.mem = w.machine.mem := by
  constructor
  · intro operations
    exact (Memory.kept_protects free host).operateAll operations (.refl .refl w.machine.mem)
  · intro op addr accesses past
    exact op.mem_perform_of_size_le host free accesses past

/-- LDA #7, STA $0000, STA $000A in write-protected memory, with RAM behind it. -/
def selfWriter : World Unit :=
  ((ofSettings { memSize := 16, level := .none } {} ()).mapMem
    (·.declareRom 0 [0xA9, 0x07, 0x8D, 0x00, 0x00, 0x8D, 0x0A, 0x00])).mapMem (·.declareRam 8 8 false)

theorem selfWriter_stays_protected :
    (selfWriter.operateAll CommandLine.hooklessHost [.run 3 0]).2.machine.mem.raw 0x000A = 0x07 ∧
      selfWriter.machine.mem.Cellwise Cell.Protects
        (selfWriter.operateAll CommandLine.hooklessHost [.run 3 0, .push 1]).2.machine.mem ∧
      ((MicroOp.store 0x0100 1).perform CommandLine.hooklessHost selfWriter).2.machine.mem =
        selfWriter.machine.mem := by
  have free : selfWriter.machine.HookFree := rfl
  have written :
      (selfWriter.operateAll CommandLine.hooklessHost [.run 3 0]).2.machine.mem.raw 0x000A = 0x07 := by
    decide +kernel
  have small : selfWriter.machine.mem.size ≤ (0x0100 : UInt16).toNat := by decide +kernel
  obtain ⟨throughout, pastEnd⟩ := memory_stays_protected CommandLine.hooklessHost free
  exact ⟨written, throughout [.run 3 0, .push 1], pastEnd (.store 0x0100 1) 0x0100 rfl small⟩

end World

end Mos6502
