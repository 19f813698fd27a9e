import Mos6502.CommandLine.Program
import Mos6502.Proofs.Bare.Operation
import Mos6502.Proofs.Bare.Unseen
import Mos6502.Proofs.MemoryInvariant
import Mos6502.Proofs.Microcode
import Mos6502.Proofs.Snapshot.Restore
import Mos6502.Proofs.Snapshot.Text
import Mos6502.World.Setup

/-!
# Checkpoints

A machine without hooks that takes over a snapshot of another goes on exactly as the other does. What a snapshot
does not hold is either the same in both from the start, or instruments and the name of the instruction at work,
and the latter is set anew by every window before anything reads it.
-/

namespace Mos6502

variable {σ τ α : Type}

/-- A micro-operation that does not look at the name of the instruction at work. -/
def MicroOp.Placeless (op : MicroOp) : Prop :=
  ∀ (m : Machine) (pc : UInt16),
    op.effect (m.enter pc) = ((op.effect m).1, (op.effect m).2.enter pc)

namespace Machine

/-- Accesses to memory are reported at their own addresses. -/
theorem aside_enter (pc : UInt16) : Aside (enter pc) where
  state _ _ := rfl
  raise _ _ _ := rfl
  mark _ _ := rfl
  put _ _ _ := rfl

end Machine

namespace MicroOp

@[simp]
theorem placeless_load (addr : UInt16) : (load addr).Placeless := fun m pc =>
  Prod.ext rfl ((Machine.aside_enter pc).noteRead m .readUndefined .readUninitialized addr)

@[simp]
theorem placeless_store (addr : UInt16) (value : UInt8) : (store addr value).Placeless := fun m pc =>
  Prod.ext rfl ((Machine.aside_enter pc).write m addr value)

@[simp]
theorem placeless_register (source : Register) : (register source).Placeless := fun _ _ => rfl

@[simp]
theorem placeless_setRegister (target : Register) (value : UInt8) :
    (setRegister target value).Placeless := fun _ _ => rfl

end MicroOp

namespace Micro

theorem exec_enter {program : Micro α} (uses : program.Uses MicroOp.Placeless) (m : Machine)
    (pc : UInt16) :
    program.exec (m.enter pc) = ((program.exec m).1, (program.exec m).2.enter pc) := by
  induction program generalizing m with
  | done result => rfl
  | step op next inductionHypothesis =>
    obtain ⟨here, later⟩ := uses
    rw [exec_step, here m pc]
    exact inductionHypothesis _ (later _) _

theorem placeless_push (value : UInt8) : (push value).Uses MicroOp.Placeless := by
  simp [push]

theorem placeless_pull : pull.Uses MicroOp.Placeless := by
  simp [pull]

theorem placeless_pushWord (word : UInt16) : (pushWord word).Uses MicroOp.Placeless := by
  simp [pushWord, placeless_push]

end Micro

namespace Machine

/-- Windows name their instruction before they begin. -/
theorem step_enter (m : Machine) (pc : UInt16) : (m.enter pc).step = m.step := rfl

theorem steps_enter (m : Machine) (pc : UInt16) (bound : Nat) :
    ∃ last, (m.enter pc).steps bound = ((m.steps bound).1, (m.steps bound).2.enter last) := by
  -- A run of no windows keeps the name it finds; any other names its instructions itself.
  cases bound with
  | zero => exact ⟨pc, rfl⟩
  | succ bound =>
    refine ⟨(m.steps (bound + 1)).2.current, ?_⟩
    rw [steps, step_enter]
    rfl

theorem run_enter (m : Machine) (pc : UInt16) (bound : Nat) (addr : UInt16) :
    ∃ last, (m.enter pc).run bound addr = ((m.run bound addr).1, (m.run bound addr).2.enter last) := by
  obtain ⟨last, same⟩ := (m.startAt addr).steps_enter pc bound
  refine ⟨last, ?_⟩
  change (((m.startAt addr).enter pc).steps bound).map Outcome.ofSteps id = _
  rw [same]
  rfl

theorem call_enter (m : Machine) (pc : UInt16) (bound : Nat) (addr : UInt16) :
    ∃ last, (m.enter pc).call bound addr =
      ((m.call bound addr).1, (m.call bound addr).2.enter last) := by
  have begun : (m.enter pc).beginCall = m.beginCall.enter pc :=
    congrArg Prod.snd
      (Micro.exec_enter (Micro.placeless_pushWord _) { m with inCall := true, slot := {} } pc)
  obtain ⟨last, same⟩ := m.beginCall.run_enter pc bound addr
  refine ⟨last, ?_⟩
  unfold call
  rw [begun, same]
  rfl

/-- An operation does not look at the instruction that was at work before it. -/
theorem operate_enter (operation : Operation) (m : Machine) (pc : UInt16) :
    ∃ last, (m.enter pc).operate operation =
      ((m.operate operation).1, (m.operate operation).2.enter last) := by
  cases operation with
  | step => exact ⟨(m.step).2.current, rfl⟩
  | run bound addr =>
    obtain ⟨last, same⟩ := m.run_enter pc bound addr
    exact ⟨last, congrArg (·.map Reply.ended id) same⟩
  | call bound addr =>
    obtain ⟨last, same⟩ := m.call_enter pc bound addr
    exact ⟨last, congrArg (·.map Reply.ended id) same⟩
  | read addr => exact ⟨pc, congrArg (·.map Reply.byte id) (MicroOp.placeless_load addr m pc)⟩
  | write addr value => exact ⟨pc, congrArg (Prod.mk Reply.done) ((aside_enter pc).write m addr value)⟩
  | push value =>
    exact ⟨pc, congrArg (·.map (fun _ => Reply.done) id)
      (Micro.exec_enter (Micro.placeless_push value) m pc)⟩
  | pull =>
    exact ⟨pc, congrArg (·.map Reply.byte id) (Micro.exec_enter Micro.placeless_pull m pc)⟩

theorem operateAll_enter (operations : List Operation) (m : Machine) (pc : UInt16) :
    ∃ last, (m.enter pc).operateAll operations =
      ((m.operateAll operations).1, (m.operateAll operations).2.enter last) := by
  induction operations generalizing m pc with
  | nil => exact ⟨pc, rfl⟩
  | cons operation rest inductionHypothesis =>
    obtain ⟨between, same⟩ := m.operate_enter operation pc
    obtain ⟨last, sameRest⟩ := inductionHypothesis (m.operate operation).2 between
    refine ⟨last, ?_⟩
    rw [operateAll_cons, operateAll_cons, same, sameRest]

end Machine

/-- No hook is bound, and no cell is marked as if one were. -/
structure Memory.Unhooked (mem : Memory) : Prop where
  hooks : mem.hooks = []
  marks : ∀ cell ∈ mem.cells, cell.state.hooked = false

/-- Under the invariant of memory there are no marks without hooks. -/
theorem Memory.Sound.unhooked {size : Nat} {mem : Memory} (sound : mem.Sound size)
    (free : mem.hooks = []) : mem.Unhooked where
  hooks := free
  marks cell member := by
    -- The invariant speaks of addresses, and every cell has one.
    obtain ⟨index, inside, found⟩ := Array.mem_iff_getElem.mp member
    have reachable : index < UInt16.size :=
      Nat.lt_of_lt_of_le inside (sound.size_eq.trans_le sound.size_le)
    have address : (UInt16.ofNat index).toNat = index := UInt16.toNat_ofNat_of_lt' reachable
    have here : mem.cell? (UInt16.ofNat index) = some cell := by
      rw [cell?, address, Array.getElem?_eq_getElem inside, found]
    apply eq_false_of_ne_true
    intro marked
    rw [← state_of_cell? here, sound.hooked_iff] at marked
    simp [hook?, free] at marked

theorem Cell.adopt_of_unmarked {cell captured : Cell} (unmarked : cell.state.hooked = false)
    (capturedUnmarked : captured.state.hooked = false) : cell.adopt captured = captured := by
  rw [adopt, unmarked, ← capturedUnmarked]

/-- Where there are no hooks, taking over the cells of a memory gives that memory. -/
theorem Memory.adopt_eq {mem captured : Memory} (free : mem.Unhooked) (capturedFree : captured.Unhooked)
    (sizes : captured.size = mem.size) : mem.adopt captured = captured := by
  have cells : Array.zipWith Cell.adopt mem.cells captured.cells = captured.cells := by
    unfold size at sizes
    apply Array.ext
    · simp [sizes]
    · intro index inside insideToo
      rw [Array.getElem_zipWith]
      exact Cell.adopt_of_unmarked (free.marks _ (Array.getElem_mem (sizes ▸ insideToo)))
        (capturedFree.marks _ (Array.getElem_mem insideToo))
  rw [adopt, cells, free.hooks, ← capturedFree.hooks]

/-- A snapshot holds all of a machine but its limits, the fault slot and the mark of a call. -/
theorem Machine.withSnapshot_eq {m n : Machine} (id name : String) (createdAt : Timestamp)
    (free : m.mem.Unhooked) (targetFree : n.mem.Unhooked) (sizes : m.mem.size = n.mem.size)
    (level : m.level = n.level) (limit : m.limit = n.limit) (slot : m.slot = {})
    (inCall : m.inCall = n.inCall) :
    n.withSnapshot (.ofMachine id name createdAt m) m.mem.bytes m.mem.stateBytes =
      m.enter n.current := by
  unfold withSnapshot enter
  rw [Memory.withImage_eq_adopt, Memory.adopt_eq targetFree free sizes, ← level, ← limit, ← inCall, ← slot]
  rfl

namespace World

/-- A checkpoint is transparent. The snapshot of a machine without hooks and without a fault, written as text
and read back, is restored into any machine of the same size, level and limit without hooks, neither being inside
a call; and from then on, whatever the two are asked to do, they give the same replies and have the same
registers, cycles and memory. -/
theorem restored_goes_on_alike (sourceHost : Host σ) (targetHost : Host τ) (id name : String)
    {createdAt : Timestamp} {v : World σ} {w : World τ} (valid : createdAt.isValid = true)
    (bounded : v.machine.mem.size ≤ Memory.maxSize)
    (sourceFree : v.machine.mem.Unhooked) (targetFree : w.machine.mem.Unhooked)
    (sizes : v.machine.mem.size = w.machine.mem.size) (level : v.machine.level = w.machine.level)
    (limit : v.machine.limit = w.machine.limit) (slot : v.machine.slot = {})
    (sourceOutside : v.machine.inCall = false) (targetOutside : w.machine.inCall = false) :
    ∃ snapshot, Snapshot.ofJson? (Snapshot.ofMachine id name createdAt v.machine).toJson =
        some snapshot ∧
      (w.restore snapshot).1 = .ok () ∧
      ∀ operations : List Operation,
        ((w.restore snapshot).2.operateAll targetHost operations).1 =
            (v.operateAll sourceHost operations).1 ∧
          ((w.restore snapshot).2.operateAll targetHost operations).2.machine.regs =
            (v.operateAll sourceHost operations).2.machine.regs ∧
          ((w.restore snapshot).2.operateAll targetHost operations).2.machine.cycles =
            (v.operateAll sourceHost operations).2.machine.cycles ∧
          ((w.restore snapshot).2.operateAll targetHost operations).2.machine.mem =
            (v.operateAll sourceHost operations).2.machine.mem := by
  have writable : (Snapshot.ofMachine id name createdAt v.machine).Writable :=
    ⟨valid, Nat.lt_of_le_of_lt bounded (by decide)⟩
  have admits := Snapshot.admits_ofMachine id name createdAt v.machine
  rw [sizes] at admits
  have restored := restore_of_admits admits
  have machine : (w.restore (.ofMachine id name createdAt v.machine)).2.machine =
      v.machine.enter w.machine.current := by
    rw [restored]
    exact Machine.withSnapshot_eq id name createdAt sourceFree targetFree sizes level limit slot
      (sourceOutside.trans targetOutside.symm)
  refine ⟨_, Snapshot.ofJson?_toJson writable, congrArg Prod.fst restored, ?_⟩
  intro operations
  -- Both worlds are now compared through their bare machines, which the name of the last instruction tells apart.
  have restoredFree : (w.restore (.ofMachine id name createdAt v.machine)).2.machine.HookFree := by
    rw [machine]
    exact sourceFree.hooks
  obtain ⟨targetReplies, targetMachine⟩ := operateAll_bare targetHost operations restoredFree
  obtain ⟨sourceReplies, sourceMachine⟩ := operateAll_bare sourceHost operations sourceFree.hooks
  obtain ⟨last, same⟩ := v.machine.operateAll_enter operations w.machine.current
  rw [machine, same] at targetReplies targetMachine
  rw [targetReplies, targetMachine, sourceReplies, sourceMachine]
  exact ⟨rfl, rfl, rfl, rfl⟩

/-- INX, and RAM behind it that nothing was written to. -/
def countUp : World Unit :=
  ((ofSettings { memSize := 4 } {} ()).mapMem (·.declareData 0 [0xE8, 0xE8])).mapMem
    (·.declareRam 2 2 false)

theorem countUp_goes_on_elsewhere :
    countUp.machine.mem ≠ (ofSettings { memSize := 4 } {} ()).machine.mem ∧
    ∃ snapshot, Snapshot.ofJson? (Snapshot.ofMachine "id" "name" {} countUp.machine).toJson =
        some snapshot ∧
      ((ofSettings { memSize := 4 } {} ()).restore snapshot).1 = .ok () ∧
      (((ofSettings { memSize := 4 } {} ()).restore snapshot).2.operateAll
          CommandLine.hooklessHost [.step, .step]).1 =
        (countUp.operateAll CommandLine.hooklessHost [.step, .step]).1 := by
  refine ⟨by decide +kernel, ?_⟩
  have new := Memory.sound_new 4 .zero
  have sourceFree : countUp.machine.mem.Unhooked :=
    ((new.declareData 0 [0xE8, 0xE8]).declareRam 2 2 false).unhooked rfl
  have targetFree : (ofSettings { memSize := 4 } {} ()).machine.mem.Unhooked := new.unhooked rfl
  have valid : ({} : Timestamp).isValid = true := by decide +kernel
  obtain ⟨snapshot, read, restored, alike⟩ :=
    restored_goes_on_alike CommandLine.hooklessHost CommandLine.hooklessHost "id" "name" valid
      (by decide +kernel) sourceFree targetFree (by decide +kernel) rfl rfl rfl rfl rfl
  exact ⟨snapshot, read, restored, (alike [.step, .step]).1⟩

end World

end Mos6502
