import Mos6502.Proofs.Bare.Laws

/-!
# What execution does not look at

Parts of a machine have no influence on what microcode does to the rest of it. Changing such a part and executing a
program then come to the same in either order. What has to be checked is the few ways in which execution acts on a
machine. A part that only accesses to memory leave aside has to be checked for less.
-/

namespace Mos6502

variable {α : Type}

/-- A change of a machine that accesses to memory neither see nor disturb. -/
structure Machine.Aside (change : Machine → Machine) : Prop where
  state (m : Machine) (addr : UInt16) : (change m).mem.state addr = m.mem.state addr
  raise (m : Machine) (kind : FaultKind) (addr : UInt16) :
    (change m).raise kind addr = change (m.raise kind addr)
  mark (m : Machine) (addr : UInt16) :
    (change m).mapMem (·.markInitialized addr) = change (m.mapMem (·.markInitialized addr))
  put (m : Machine) (addr : UInt16) (value : UInt8) :
    (change m).put addr value = change (m.put addr value)

/-- A change of a machine that execution neither sees nor disturbs. -/
structure Machine.Unseen (change : Machine → Machine) : Prop extends Machine.Aside change where
  regs (m : Machine) : (change m).regs = m.regs
  raw (m : Machine) (addr : UInt16) : (change m).mem.raw addr = m.mem.raw addr
  current (m : Machine) : (change m).current = m.current
  mapRegs (m : Machine) (assign : Registers → Registers) :
    (change m).mapRegs assign = change (m.mapRegs assign)
  charge (m : Machine) (cycles : UInt64) :
    { change m with cycles := (change m).cycles + cycles } =
      change { m with cycles := m.cycles + cycles }

namespace Machine

variable {change : Machine → Machine}

theorem Aside.noteRead (aside : Aside change) (m : Machine) (undefined uninitialized : FaultKind)
    (addr : UInt16) :
    (change m).noteRead undefined uninitialized addr =
      change (m.noteRead undefined uninitialized addr) := by
  have states := aside.state m addr
  cases undeclared : (m.mem.state addr).undefined with
  | true =>
    rw [noteRead_of_undefined undeclared, noteRead_of_undefined (states ▸ undeclared)]
    exact aside.raise m undefined addr
  | false =>
    cases blank : (m.mem.state addr).uninitialized with
    | true =>
      rw [noteRead_of_uninitialized undeclared blank,
        noteRead_of_uninitialized (states ▸ undeclared) (states ▸ blank), aside.raise]
      exact aside.mark (m.raise uninitialized addr) addr
    | false =>
      rw [noteRead_of_readable undeclared blank,
        noteRead_of_readable (states ▸ undeclared) (states ▸ blank)]

theorem Aside.write (aside : Aside change) (m : Machine) (addr : UInt16) (value : UInt8) :
    (change m).write addr value = change (m.write addr value) := by
  have states := aside.state m addr
  cases readOnly : (m.mem.state addr).rom with
  | true =>
    rw [write_of_rom readOnly, write_of_rom (states ▸ readOnly)]
    exact aside.raise m .writeRom addr
  | false =>
    cases undeclared : (m.mem.state addr).undefined with
    | true =>
      rw [write_of_undefined readOnly undeclared,
        write_of_undefined (states ▸ readOnly) (states ▸ undeclared)]
      exact aside.raise m .writeUndefined addr
    | false =>
      rw [write_of_writable readOnly undeclared,
        write_of_writable (states ▸ readOnly) (states ▸ undeclared)]
      exact aside.put m addr value

theorem Unseen.noteFlag (unseen : Unseen change) (m : Machine) (flag : Flag) :
    (change m).noteFlag flag = change (m.noteFlag flag) := by
  unfold Machine.noteFlag
  rw [unseen.regs, unseen.current]
  split
  · rw [unseen.raise, unseen.mapRegs]
  · rfl

end Machine

theorem MicroOp.effect_unseen {change : Machine → Machine} (unseen : Machine.Unseen change)
    (op : MicroOp) (m : Machine) : op.effect (change m) = ((op.effect m).1, change (op.effect m).2) := by
  cases op with
  | fetch addr =>
    exact Prod.ext (unseen.raw m addr) (unseen.noteRead m .executeUndefined .executeUninitialized addr)
  | load addr =>
    exact Prod.ext (unseen.raw m addr) (unseen.noteRead m .readUndefined .readUninitialized addr)
  | store addr value => exact Prod.ext rfl (unseen.write m addr value)
  | flag which => exact Prod.ext (congrArg (·.status.get which) (unseen.regs m)) (unseen.noteFlag m which)
  | isBlank addr => exact Prod.ext (congrArg CellState.uninitialized (unseen.state m addr)) rfl
  | register source => exact Prod.ext (congrArg (·.get source) (unseen.regs m)) rfl
  | pc => exact Prod.ext (congrArg Registers.pc (unseen.regs m)) rfl
  | status => exact Prod.ext (congrArg Registers.status (unseen.regs m)) rfl
  | here => exact Prod.ext (unseen.current m) rfl
  | setRegister target value => exact Prod.ext rfl (unseen.mapRegs m (·.set target value))
  | setPc addr => exact Prod.ext rfl (unseen.mapRegs m fun regs => { regs with pc := addr })
  | setFlag which value => exact Prod.ext rfl (unseen.mapRegs m (·.setFlag which value))
  | forget mask => exact Prod.ext rfl (unseen.mapRegs m (·.forget mask))
  | setStatus value => exact Prod.ext rfl (unseen.mapRegs m (·.setStatus value))
  | raise kind =>
    refine Prod.ext rfl ?_
    change (change m).raise kind (change m).current = change (m.raise kind m.current)
    rw [unseen.current, unseen.raise]
  | charge cycles => exact Prod.ext rfl (unseen.charge m (UInt64.ofNat cycles))
  | observe => rfl

/-- What execution does not look at, it takes along. -/
theorem Micro.exec_unseen {change : Machine → Machine} (unseen : Machine.Unseen change)
    (program : Micro α) (m : Machine) : program.exec (change m) = ((program.exec m).1, change (program.exec m).2) := by
  induction program generalizing m with
  | done result => rfl
  | step op next inductionHypothesis =>
    rw [exec_step, op.effect_unseen unseen]
    exact inductionHypothesis _ _

/-- So does a window that is not at the limit, with the change or without it. -/
theorem Machine.window_unseen {change : Machine → Machine} (unseen : Machine.Unseen change) {m : Machine}
    (entered : (change m).enter m.regs.pc = change (m.enter m.regs.pc))
    (inCall : (change m).inCall = m.inCall) (below : m.limitReached = false)
    (belowToo : (change m).limitReached = false) : (change m).window = change m.window := by
  have pc : (change m).regs.pc = m.regs.pc := congrArg Registers.pc (unseen.regs m)
  have sentinelToo : (change m).atSentinel = m.atSentinel := by
    unfold Machine.atSentinel
    rw [inCall, pc]
  cases sentinel : m.atSentinel with
  | true =>
    rw [sentinel] at sentinelToo
    rw [window_of_atSentinel below sentinel, window_of_atSentinel belowToo sentinelToo, pc, entered,
      unseen.raise]
  | false =>
    rw [sentinel] at sentinelToo
    rw [window_of_instruction below sentinel, window_of_instruction belowToo sentinelToo, pc, entered,
      Micro.exec_unseen unseen]

end Mos6502
