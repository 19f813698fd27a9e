import Mos6502.Proofs.Bare.Correspondence

/-!
# The stack of a bare machine

Pushing stores a byte and moves the stack pointer down, pulling moves it up and reads a byte, and both wrap within page
one. What reading and writing report is left to the cells.
-/

namespace Mos6502

namespace Memory

theorem raw_store {mem : Memory} {addr : UInt16} (declared : (mem.state addr).undefined = false)
    (value : UInt8) (other : UInt16) :
    ((mem.store addr value).markInitialized addr).raw other =
      if addr = other then value else mem.raw other := by
  by_cases here : addr = other
  · subst other
    rw [if_pos rfl, raw_markInitialized_store declared]
  · rw [if_neg here, raw_markInitialized]
    unfold raw store
    rw [cell?_modify, if_neg here]

/-- Writable memory at an address. -/
def IsRam (mem : Memory) (addr : UInt16) : Prop :=
  (mem.state addr).rom = false ∧ (mem.state addr).undefined = false

theorem IsRam.store {mem : Memory} {addr : UInt16} (ram : mem.IsRam addr) (other : UInt16) (value : UInt8) :
    ((mem.store other value).markInitialized other).IsRam addr := by
  rw [markInitialized_store]
  unfold IsRam state at ram ⊢
  rw [cell?_modify]
  by_cases here : other = addr
  · rw [if_pos here]
    cases found : mem.cell? addr with
    | none =>
      rw [found] at ram
      exact ram
    | some cell =>
      rw [found] at ram
      exact ram
  · rw [if_neg here]
    exact ram

/-- The address of a stack cell tells the pointer. -/
theorem stackAddress_inj {pointer other : UInt8} :
    Micro.stackAddress pointer = Micro.stackAddress other ↔ pointer = other := by
  constructor
  · intro same
    have words := congrArg UInt16.toNat same
    simp only [Micro.stackAddress, UInt16.toNat_add, UInt8.toNat_toUInt16] at words
    have below := pointer.toNat_lt
    have belowToo := other.toNat_lt
    apply UInt8.toNat.inj
    simp only [UInt16.reduceToNat] at words
    omega
  · rintro rfl
    rfl

end Memory

theorem Machine.regs_noteRead (m : Machine) (undefined uninitialized : FaultKind) (addr : UInt16) :
    (m.noteRead undefined uninitialized addr).regs = m.regs := by
  unfold noteRead
  split
  · rfl
  · split <;> rfl

theorem Machine.regs_write (m : Machine) (addr : UInt16) (value : UInt8) :
    (m.write addr value).regs = m.regs := by
  unfold write
  split
  · rfl
  · split <;> rfl

namespace Micro

theorem exec_push (value : UInt8) (m : Machine) :
    (push value).exec m =
      ((), (m.write (stackAddress m.regs.sp) value).mapRegs ({ · with sp := m.regs.sp - 1 })) := by
  have pointer : (m.write (stackAddress m.regs.sp) value).regs.sp - 1 = m.regs.sp - 1 := by
    rw [m.regs_write]
  rw [← pointer]
  rfl

theorem exec_push_of_ram {m : Machine} (ram : m.mem.IsRam (stackAddress m.regs.sp)) (value : UInt8) :
    ((push value).exec m).2 =
      (m.put (stackAddress m.regs.sp) value).mapRegs ({ · with sp := m.regs.sp - 1 }) := by
  rw [exec_push, Machine.write_of_writable ram.1 ram.2]

theorem exec_pull (m : Machine) :
    pull.exec m =
      (m.mem.raw (stackAddress (m.regs.sp + 1)),
        (m.mapRegs ({ · with sp := m.regs.sp + 1 })).noteRead .readUndefined .readUninitialized
          (stackAddress (m.regs.sp + 1))) := rfl

theorem regs_pull (m : Machine) : (pull.exec m).2.regs = { m.regs with sp := m.regs.sp + 1 } :=
  (m.mapRegs ({ · with sp := m.regs.sp + 1 })).regs_noteRead _ _ _

theorem raw_pull (m : Machine) (addr : UInt16) : (pull.exec m).2.mem.raw addr = m.mem.raw addr :=
  (m.mapRegs ({ · with sp := m.regs.sp + 1 })).raw_noteRead _ _ _ addr

end Micro

/-- The address behind the word that lies above a stack pointer. -/
def Machine.returnAddress (pointer : UInt8) (m : Machine) : UInt16 :=
  wordOf (m.mem.raw (Micro.stackAddress (pointer + 1)))
    (m.mem.raw (Micro.stackAddress (pointer + 2))) + 1

/-- Returning from a subroutine pulls two bytes and goes on behind the word in them. -/
theorem Micro.exec_returnFromSubroutine (m : Machine) :
    (returnFromSubroutine.exec m).2 =
      (pull.exec (pull.exec m).2).2.startAt (m.returnAddress m.regs.sp) := by
  have low : (pull.exec m).1 = m.mem.raw (stackAddress (m.regs.sp + 1)) := rfl
  have twice : m.regs.sp + 1 + 1 = m.regs.sp + 2 := UInt8.add_assoc _ 1 1
  have high : (pull.exec (pull.exec m).2).1 = m.mem.raw (stackAddress (m.regs.sp + 2)) := by
    change (pull.exec m).2.mem.raw (stackAddress ((pull.exec m).2.regs.sp + 1)) = _
    rw [raw_pull, regs_pull, ← twice]
  unfold Machine.returnAddress
  rw [← low, ← high]
  unfold returnFromSubroutine pullWord
  simp only [exec_bind, exec_setPc, pure_eq_done, exec_done]
  rfl

theorem Micro.regs_returnFromSubroutine (m : Machine) :
    (returnFromSubroutine.exec m).2.regs =
      { m.regs with sp := m.regs.sp + 2, pc := m.returnAddress m.regs.sp } := by
  have twice : m.regs.sp + 1 + 1 = m.regs.sp + 2 := UInt8.add_assoc _ 1 1
  have pulled : (pull.exec (pull.exec m).2).2.regs = { m.regs with sp := m.regs.sp + 2 } := by
    rw [regs_pull, regs_pull, ← twice]
  rw [exec_returnFromSubroutine]
  exact congrArg (fun regs : Registers => { regs with pc := m.returnAddress m.regs.sp }) pulled

end Mos6502
