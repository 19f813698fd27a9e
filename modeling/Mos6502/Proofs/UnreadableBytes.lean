import Mos6502.CommandLine.Program
import Mos6502.Proofs.Lockstep
import Mos6502.World.Setup

/-!
# Bytes that nothing has established

The byte of a cell that is undeclared or never written reaches a program only through a read, and such a read is
reported. So two strict machines that differ in such bytes alone go on alike, or stop with the same fault.
-/

namespace Mos6502

variable {σ : Type}

/-- Cells in one state, with one byte unless that state makes reading it a fault. -/
structure Cell.SameReadable (c d : Cell) : Prop where
  state : c.state = d.state
  byte : c.state.undefined = false → c.state.uninitialized = false → c.byte = d.byte

/-- Memories that differ only in bytes of undeclared or never-written cells. -/
structure Memory.SameReadable (left right : Memory) : Prop where
  hooks : left.hooks = right.hooks
  cells (index : Nat) : Option.Rel Cell.SameReadable left.cells[index]? right.cells[index]?

/-- Machines that differ only in bytes of undeclared or never-written cells. -/
def Machine.SameReadable (m n : Machine) : Prop :=
  ∃ mem, m.mem.SameReadable mem ∧ n = { m with mem }

namespace Cell

theorem SameReadable.asInitialized_of_byte {c d : Cell} (states : c.state = d.state)
    (bytes : c.byte = d.byte) : c.asInitialized.SameReadable d.asInitialized where
  state := by
    unfold asInitialized
    rw [states]
  byte := fun _ _ => bytes

end Cell

namespace Memory

variable {left right : Memory}

theorem SameReadable.state_eq (same : left.SameReadable right) (addr : UInt16) :
    left.state addr = right.state addr := by
  have cells := same.cells addr.toNat
  unfold state cell?
  generalize left.cells[addr.toNat]? = found at cells
  generalize right.cells[addr.toNat]? = other at cells
  cases cells with
  | none => rfl
  | some related => exact related.state

/-- Readable bytes are the same. -/
theorem SameReadable.raw_eq (same : left.SameReadable right) {addr : UInt16}
    (declared : (left.state addr).undefined = false)
    (written : (left.state addr).uninitialized = false) : left.raw addr = right.raw addr := by
  have cells := same.cells addr.toNat
  unfold state cell? at declared written
  unfold raw cell?
  generalize left.cells[addr.toNat]? = found at cells declared written
  generalize right.cells[addr.toNat]? = other at cells
  cases cells with
  | none => rfl
  | some related => exact related.byte declared written

/-- What an unreadable cell holds does not matter. -/
theorem sameReadable_store {mem : Memory} {addr : UInt16}
    (unreadable : (mem.state addr).undefined = true ∨ (mem.state addr).uninitialized = true)
    (value : UInt8) : mem.SameReadable (mem.store addr value) := by
  refine ⟨rfl, ?_⟩
  intro index
  unfold state cell? at unreadable
  simp only [store, modify, Array.getElem?_modify]
  by_cases here : addr.toNat = index
  · rw [if_pos here]
    rw [here] at unreadable
    generalize mem.cells[index]? = found at unreadable
    cases found with
    | none => exact .none
    | some cell =>
      refine .some ⟨rfl, ?_⟩
      intro declared written
      rcases unreadable with undeclared | blank
      · exact absurd declared (by simp [undeclared])
      · exact absurd written (by simp [blank])
  · rw [if_neg here]
    generalize mem.cells[index]? = found
    cases found with
    | none => exact .none
    | some cell => exact .some ⟨rfl, fun _ _ => rfl⟩

theorem SameReadable.put (same : left.SameReadable right) (addr : UInt16) (value : UInt8) :
    ((left.store addr value).markInitialized addr).SameReadable
      ((right.store addr value).markInitialized addr) := by
  rw [markInitialized_store, markInitialized_store]
  refine ⟨same.hooks, ?_⟩
  intro index
  have cells := same.cells index
  simp only [modify, Array.getElem?_modify]
  by_cases here : addr.toNat = index
  · rw [if_pos here, if_pos here]
    generalize left.cells[index]? = found at cells
    generalize right.cells[index]? = other at cells
    cases cells with
    | none => exact .none
    | some related => exact .some (.asInitialized_of_byte related.state rfl)
  · rw [if_neg here, if_neg here]
    exact cells

end Memory

namespace Machine

variable {m n : Machine}

theorem paired_sameReadable : Paired SameReadable where
  strict := by
    rintro m n ⟨mem, same, rfl⟩ strict
    exact ⟨same.hooks.symm.trans strict.free, strict.full⟩
  pc := by
    rintro m n ⟨mem, same, rfl⟩
    rfl
  slot := by
    rintro m n ⟨mem, same, rfl⟩
    rfl
  limitReached := by
    rintro m n ⟨mem, same, rfl⟩
    rfl
  atSentinel := by
    rintro m n ⟨mem, same, rfl⟩
    rfl
  enter := by
    rintro m n pc ⟨mem, same, rfl⟩
    exact ⟨mem, same, rfl⟩
  settle := by
    rintro m n ⟨mem, same, rfl⟩
    exact ⟨mem, same, rfl⟩

theorem SameReadable.mem (same : m.SameReadable n) : m.mem.SameReadable n.mem := by
  obtain ⟨mem, same, rfl⟩ := same
  exact same

theorem SameReadable.raise (same : m.SameReadable n) (kind : FaultKind) (addr : UInt16) :
    (m.raise kind addr).SameReadable (n.raise kind addr) := by
  obtain ⟨mem, same, rfl⟩ := same
  exact ⟨mem, same, rfl⟩

theorem SameReadable.mapRegs (same : m.SameReadable n) (change : Registers → Registers) :
    (m.mapRegs change).SameReadable (n.mapRegs change) := by
  obtain ⟨mem, same, rfl⟩ := same
  exact ⟨mem, same, rfl⟩

/-- A read gives the same byte on both sides or reports the same fault. -/
theorem SameReadable.noteRead (same : m.SameReadable n) (undefined uninitialized : FaultKind)
    (addr : UInt16) :
    Lockstep SameReadable (m.mem.raw addr, m.noteRead undefined uninitialized addr)
      (n.mem.raw addr, n.noteRead undefined uninitialized addr) := by
  have slots := paired_sameReadable.slot same
  have states : m.mem.state addr = n.mem.state addr := same.mem.state_eq addr
  cases undeclared : (m.mem.state addr).undefined with
  | true =>
    right
    rw [noteRead_of_undefined undeclared, noteRead_of_undefined (states ▸ undeclared)]
    exact shareFault_raise slots undefined addr
  | false =>
    cases blank : (m.mem.state addr).uninitialized with
    | true =>
      right
      rw [noteRead_of_uninitialized undeclared blank,
        noteRead_of_uninitialized (states ▸ undeclared) (states ▸ blank)]
      exact shareFault_raise slots uninitialized addr
    | false =>
      left
      rw [noteRead_of_readable undeclared blank,
        noteRead_of_readable (states ▸ undeclared) (states ▸ blank)]
      exact ⟨same.mem.raw_eq undeclared blank, same⟩

theorem SameReadable.write (same : m.SameReadable n) (addr : UInt16) (value : UInt8) :
    (m.write addr value).SameReadable (n.write addr value) := by
  have states : m.mem.state addr = n.mem.state addr := same.mem.state_eq addr
  cases readOnly : (m.mem.state addr).rom with
  | true =>
    rw [write_of_rom readOnly, write_of_rom (states ▸ readOnly)]
    exact same.raise .writeRom addr
  | false =>
    cases undeclared : (m.mem.state addr).undefined with
    | true =>
      rw [write_of_undefined readOnly undeclared,
        write_of_undefined (states ▸ readOnly) (states ▸ undeclared)]
      exact same.raise .writeUndefined addr
    | false =>
      rw [write_of_writable readOnly undeclared,
        write_of_writable (states ▸ readOnly) (states ▸ undeclared)]
      obtain ⟨mem, memories, rfl⟩ := same
      exact ⟨_, memories.put addr value, rfl⟩

theorem SameReadable.noteFlag (same : m.SameReadable n) (flag : Flag) :
    (m.noteFlag flag).SameReadable (n.noteFlag flag) := by
  obtain ⟨mem, memories, rfl⟩ := same
  unfold Machine.noteFlag
  by_cases unknown : m.regs.unknown.get flag = true
  · rw [if_pos unknown, if_pos unknown]
    exact ⟨mem, memories, rfl⟩
  · rw [if_neg unknown, if_neg unknown]
    exact ⟨mem, memories, rfl⟩

end Machine

/-- Every micro-operation runs in lockstep on machines that differ in unreadable bytes only. -/
theorem MicroOp.lockstep_sameReadable (op : MicroOp) {m n : Machine} (same : m.SameReadable n) :
    Lockstep Machine.SameReadable (op.effect m) (op.effect n) := by
  cases op with
  | fetch addr => exact same.noteRead .executeUndefined .executeUninitialized addr
  | load addr => exact same.noteRead .readUndefined .readUninitialized addr
  | store addr value => exact .inl ⟨rfl, same.write addr value⟩
  | flag which =>
    refine .inl ⟨?_, same.noteFlag which⟩
    obtain ⟨mem, memories, rfl⟩ := same
    rfl
  | isBlank addr =>
    exact .inl ⟨congrArg CellState.uninitialized (same.mem.state_eq addr), same⟩
  | register | pc | status | here =>
    refine .inl ⟨?_, same⟩
    obtain ⟨mem, memories, rfl⟩ := same
    rfl
  | setRegister | setPc | setFlag | forget | setStatus => exact .inl ⟨rfl, same.mapRegs _⟩
  | raise kind =>
    obtain ⟨mem, memories, rfl⟩ := same
    exact .inl ⟨rfl, mem, memories, rfl⟩
  | charge cycles =>
    obtain ⟨mem, memories, rfl⟩ := same
    exact .inl ⟨rfl, mem, memories, rfl⟩
  | observe observation => exact .inl ⟨rfl, same⟩

namespace World

/-- Strict machines that differ only in bytes of undeclared or never-written cells stay so, or stop in the same
window with the same fault. -/
theorem together_of_sameReadable (host : Host σ) {v w : World σ} (strict : v.machine.Strict)
    (same : v.machine.SameReadable w.machine) (count : Nat) :
    Together Machine.SameReadable host count v w := by
  refine together_of_stepAlike Machine.paired_sameReadable host strict same ?_ count
  intro count v' w' _ _ strictLeft kept
  refine Machine.stepAlike_of_lockstep Machine.paired_sameReadable strictLeft kept ?_
  intro _ _
  have uses := Micro.uses_of_forall (p := fun _ => True) (fun _ => trivial)
    (Micro.instructionAt v'.machine.regs.pc)
  have entered := Machine.paired_sameReadable.enter v'.machine.regs.pc kept
  exact Micro.lockstep_exec (fun op _ _ _ same => op.lockstep_sameReadable same) uses entered

/-- LDA #1, and nothing declared behind it. -/
def shortProgram : World Unit :=
  (ofSettings { memSize := 3, level := .full } {} ()).mapMem (·.declareData 0 [0xA9, 0x01])

theorem shortProgram_together :
    shortProgram.machine ≠ (shortProgram.mapMem (·.store 2 0xFF)).machine ∧
      Together Machine.SameReadable CommandLine.hooklessHost 2 shortProgram
        (shortProgram.mapMem (·.store 2 0xFF)) := by
  have strict : shortProgram.machine.Strict := ⟨rfl, rfl⟩
  have unreadable : (shortProgram.machine.mem.state 2).undefined = true := by
    decide +kernel
  have same : shortProgram.machine.SameReadable (shortProgram.mapMem (·.store 2 0xFF)).machine :=
    ⟨_, Memory.sameReadable_store (.inl unreadable) 0xFF, rfl⟩
  exact ⟨by decide +kernel, together_of_sameReadable CommandLine.hooklessHost strict same 2⟩

end World

end Mos6502
