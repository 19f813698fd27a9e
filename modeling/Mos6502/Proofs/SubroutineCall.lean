import Mos6502.Proofs.Bare.Operation
import Mos6502.Proofs.Bare.Stack
import Mos6502.Proofs.CycleLimit
import Mos6502.Proofs.Lockstep

/-!
# Calls that come back

A call pushes the word before the sentinel and runs. A callee that executes RTS with the stack pointer where that push
has left it, and with the two bytes as they were pushed, pulls the word again and goes on at the sentinel. The next
window ends the call there, with the stack pointer where it was before.
-/

namespace Mos6502

variable {σ : Type}

namespace Machine

/-- All of the stack page is declared and writable. -/
def StackIsRam (m : Machine) : Prop :=
  ∀ pointer, m.mem.IsRam (Micro.stackAddress pointer)

variable {m : Machine}

theorem stackIsRam_of_cells (large : 0x200 ≤ m.mem.size)
    (each : ∀ cell ∈ m.mem.cells, cell.state.rom = false ∧ cell.state.undefined = false) :
    m.StackIsRam := by
  intro pointer
  have inside : (Micro.stackAddress pointer).toNat < m.mem.cells.size := by
    have below := pointer.toNat_lt
    unfold Memory.size at large
    simp only [Micro.stackAddress, UInt16.toNat_add, UInt8.toNat_toUInt16, UInt16.reduceToNat]
    omega
  unfold Memory.IsRam Memory.state Memory.cell?
  rw [Array.getElem?_eq_getElem inside]
  exact each _ (Array.getElem_mem inside)

theorem StackIsRam.push (ram : m.StackIsRam) (value : UInt8) :
    ((Micro.push value).exec m).2.StackIsRam := by
  intro pointer
  rw [Micro.exec_push_of_ram (ram _)]
  apply Memory.IsRam.store
  exact ram pointer

/-- The machine in which a call is under way, before the return address is pushed. -/
def armed (m : Machine) : Machine :=
  { m with inCall := true, slot := {} }

/-- What a call pushes takes two bytes of the stack, and nothing is reported. -/
theorem beginCall_eq (ram : m.StackIsRam) :
    m.beginCall =
      (((m.armed.put (Micro.stackAddress m.regs.sp) (highByte (callSentinel - 1))).put
        (Micro.stackAddress (m.regs.sp - 1)) (lowByte (callSentinel - 1))).mapRegs
          ({ · with sp := m.regs.sp - 2 })) := by
  have ramToo : m.armed.StackIsRam := ram
  have first := Micro.exec_push_of_ram (ramToo m.regs.sp) (highByte (callSentinel - 1))
  have second := ramToo.push (highByte (callSentinel - 1))
  have twice : m.regs.sp - 1 - 1 = m.regs.sp - 2 := by grind
  change ((Micro.pushWord (callSentinel - 1)).exec m.armed).2 = _
  unfold Micro.pushWord
  rw [Micro.exec_bind, Micro.exec_push_of_ram (second _), first, ← twice]
  rfl

theorem raw_beginCall (ram : m.StackIsRam) :
    m.beginCall.mem.raw (Micro.stackAddress m.regs.sp) = highByte (callSentinel - 1) ∧
      m.beginCall.mem.raw (Micro.stackAddress (m.regs.sp - 1)) = lowByte (callSentinel - 1) := by
  have apart : Micro.stackAddress (m.regs.sp - 1) ≠ Micro.stackAddress m.regs.sp := by
    intro same
    have pointers := Memory.stackAddress_inj.mp same
    have moved := UInt8.sub_add_cancel m.regs.sp 1
    grind
  have high := (ram m.regs.sp).2
  have low := ((ram (m.regs.sp - 1)).store (Micro.stackAddress m.regs.sp) (highByte (callSentinel - 1))).2
  rw [beginCall_eq ram]
  constructor
  · change (((m.mem.store _ _).markInitialized _).store _ _ |>.markInitialized _).raw _ = _
    rw [Memory.raw_store low, if_neg apart, Memory.raw_store high, if_pos rfl]
  · change (((m.mem.store _ _).markInitialized _).store _ _ |>.markInitialized _).raw _ = _
    rw [Memory.raw_store low, if_pos rfl]

/-- The machine when the RTS at its program counter is fetched and charged for, before it pulls. -/
def beforeReturn (m : Machine) : Machine :=
  let fetched := (m.enter m.regs.pc).noteRead .executeUndefined .executeUninitialized m.regs.pc
  { fetched.startAt (m.regs.pc + 1) with cycles := fetched.cycles + 6 }

theorem window_of_rts (below : m.limitReached = false) (away : m.atSentinel = false)
    (rts : m.nextMnemonic = .rts) :
    m.window = (Micro.returnFromSubroutine.exec m.beforeReturn).2 := by
  have described : Instruction.decode ((m.enter m.regs.pc).mem.raw m.regs.pc) = ⟨.rts, .implied, 6⟩ :=
    Instruction.decode_eq_rts rts
  rw [window_of_instruction below away, Micro.exec_instructionAt,
    Micro.exec_fetchInstruction_of_single described rfl]
  rfl

/-- The window of an RTS goes on behind the word on the stack. -/
theorem regs_window_of_rts (below : m.limitReached = false) (away : m.atSentinel = false)
    (rts : m.nextMnemonic = .rts) :
    m.window.regs.sp = m.regs.sp + 2 ∧ m.window.regs.pc = m.returnAddress m.regs.sp := by
  have pointer : m.beforeReturn.regs.sp = m.regs.sp := by
    change ((m.enter m.regs.pc).noteRead _ _ m.regs.pc).regs.sp = m.regs.sp
    rw [regs_noteRead]
    rfl
  have word : m.beforeReturn.returnAddress m.regs.sp = m.returnAddress m.regs.sp := by
    have bytes (addr : UInt16) : m.beforeReturn.mem.raw addr = m.mem.raw addr :=
      (m.enter m.regs.pc).raw_noteRead _ _ m.regs.pc addr
    unfold returnAddress
    rw [bytes, bytes]
  rw [window_of_rts below away rts, Micro.regs_returnFromSubroutine, pointer, word]
  exact ⟨rfl, rfl⟩

/-- A call is under way without a cycle limit, between two windows. -/
structure Calling (m : Machine) : Prop where
  underWay : m.inCall = true
  unlimited : m.limit = 0
  empty : m.slot = {}

theorem Calling.beginCall (ram : m.StackIsRam) (unlimited : m.limit = 0) (addr : UInt16) :
    (m.beginCall.startAt addr).Calling := by
  rw [beginCall_eq ram]
  exact ⟨rfl, unlimited, rfl⟩

theorem Calling.step (calling : m.Calling) : m.step.2.Calling where
  underWay := (inCall_eq m.fixture_step).trans calling.underWay
  unlimited := (limit_eq m.fixture_step).trans calling.unlimited
  empty := m.slot_step

theorem Calling.below (calling : m.Calling) : m.limitReached = false := by
  rw [limitReached, calling.unlimited]
  rfl

/-- At the sentinel the call is over. -/
theorem Calling.step_of_sentinel (calling : m.Calling) (arrived : m.regs.pc = callSentinel) :
    m.step.1 = some ⟨.callReturn, callSentinel⟩ ∧ m.step.2.regs = m.regs := by
  have sentinel : m.atSentinel = true := by
    rw [atSentinel, calling.underWay, arrived]
    rfl
  constructor
  · rw [step_fst_of_atSentinel calling.empty calling.below sentinel, arrived]
  · rw [Machine.step, window_of_atSentinel calling.below sentinel]
    rfl

/-- An RTS that pulls the word before the sentinel ends a call in the window behind it. -/
theorem Calling.steps_two_of_rts (calling : m.Calling) (rts : m.nextMnemonic = .rts)
    (passes : m.step.1 = none) (back : m.returnAddress m.regs.sp = callSentinel) :
    (m.steps 2).1 = some ⟨.callReturn, callSentinel⟩ ∧ (m.steps 2).2.regs.sp = m.regs.sp + 2 := by
  have away : m.atSentinel = false := by
    apply eq_false_of_ne_true
    intro sentinel
    have arrived : m.regs.pc = callSentinel := eq_of_beq (Bool.and_eq_true_iff.mp sentinel).2
    rw [(calling.step_of_sentinel arrived).1] at passes
    cases passes
  obtain ⟨pointer, address⟩ := regs_window_of_rts calling.below away rts
  have arrived : m.step.2.regs.pc = callSentinel := address.trans back
  obtain ⟨stops, unmoved⟩ := calling.step.step_of_sentinel arrived
  rw [steps_succ_of_running passes, steps_succ_of_stopped stops, unmoved]
  exact ⟨stops, pointer⟩

end Machine

namespace World

/-- After `count` windows from an address, with the return address of a call pushed, a callee executes an RTS that
does not stop it, with the stack pointer and the two bytes as the push has left them. -/
structure ReturnsAfter (host : Host σ) (addr : UInt16) (count : Nat) (w v : World σ) : Prop where
  reached : ((w.beginCall host).startAt addr).steps host count = (none, v)
  rts : v.machine.nextMnemonic = .rts
  passes : (v.step host).1 = none
  level : v.machine.regs.sp = (w.beginCall host).machine.regs.sp
  intact : ∀ pointer ∈ [w.machine.regs.sp, w.machine.regs.sp - 1],
    v.machine.mem.raw (Micro.stackAddress pointer) =
      (w.beginCall host).machine.mem.raw (Micro.stackAddress pointer)

variable {host : Host σ} {addr : UInt16} {count : Nat} {w v : World σ}

/-- The word that such an RTS pulls is the one that the call has pushed. -/
theorem ReturnsAfter.returnAddress_eq (returns : w.ReturnsAfter host addr count v)
    (free : w.machine.HookFree) (ram : w.machine.StackIsRam) :
    v.machine.returnAddress v.machine.regs.sp = callSentinel ∧ v.machine.regs.sp + 2 = w.machine.regs.sp := by
  have intact := returns.intact
  have level := returns.level
  rw [beginCall_bare host free] at intact level
  obtain ⟨high, low⟩ := Machine.raw_beginCall ram
  rw [Machine.beginCall_eq ram] at level
  change v.machine.regs.sp = w.machine.regs.sp - 2 at level
  have first : w.machine.regs.sp - 2 + 1 = w.machine.regs.sp - 1 := by grind
  have second : w.machine.regs.sp - 2 + 2 = w.machine.regs.sp := UInt8.sub_add_cancel _ 2
  rw [Machine.returnAddress, level, first, second, intact _ (by simp), intact _ (by simp), high, low]
  exact ⟨rfl, rfl⟩

/-- A call whose callee returns is over two windows after the RTS is reached. -/
theorem call_of_returnsAfter (free : w.machine.HookFree) (ram : w.machine.StackIsRam)
    (unlimited : w.machine.limit = 0) (returns : w.ReturnsAfter host addr count v) {bound : Nat}
    (enough : count + 2 ≤ bound) :
    (w.call host bound addr).1 = .completed ∧
      (w.call host bound addr).2.machine.regs.sp = w.machine.regs.sp := by
  let start := w.machine.beginCall.startAt addr
  have begun : ((w.beginCall host).startAt addr).machine = start :=
    congrArg (Machine.startAt addr) (beginCall_bare host free)
  have startFree : ((w.beginCall host).startAt addr).machine.HookFree :=
    (Memory.kept_hookFree host).microcode _ free
  obtain ⟨outcome, machine⟩ := ((w.beginCall host).startAt addr).steps_bare host count startFree
  rw [returns.reached, begun] at outcome machine
  have calling : v.machine.Calling := by
    rw [machine]
    apply Machine.steps_preserves Machine.Calling.step
    exact .beginCall ram unlimited addr
  have vFree : v.machine.HookFree := by
    have kept := (Memory.kept_hookFree host).steps count startFree
    rwa [returns.reached] at kept
  have passes : v.machine.step.1 = none := by
    rw [← (v.step_bare host vFree).1]
    exact returns.passes
  obtain ⟨back, pointer⟩ := returns.returnAddress_eq free ram
  obtain ⟨stops, after⟩ := calling.steps_two_of_rts returns.rts passes back
  have joined : start.steps (count + 2) = v.machine.steps 2 := by
    rw [Machine.steps_add_of_running outcome.symm, machine]
  obtain ⟨rest, rfl⟩ := Nat.exists_eq_add_of_le enough
  have ended : start.steps (count + 2 + rest) = v.machine.steps 2 := by
    rw [← joined] at stops ⊢
    exact Machine.steps_add_of_stopped stops rest
  obtain ⟨reply, final⟩ := w.call_bare host (count + 2 + rest) addr free
  rw [reply, final]
  change Outcome.ofSteps (start.steps _).1 = .completed ∧ (start.steps _).2.regs.sp = w.machine.regs.sp
  rw [ended, stops, after]
  exact ⟨rfl, pointer⟩

/-- A call is balanced: where its callee returns it completes, with the stack pointer as before, and whatever it runs
into, it leaves the program counter, the fault slot and the sentinel as they were. -/
theorem call_balanced (host : Host σ) (addr : UInt16) (w : World σ) :
    (w.machine.HookFree → w.machine.StackIsRam → w.machine.limit = 0 →
      ∀ count v, w.ReturnsAfter host addr count v → ∀ bound, count + 2 ≤ bound →
        (w.call host bound addr).1 = .completed ∧
          (w.call host bound addr).2.machine.regs.sp = w.machine.regs.sp) ∧
    ∀ bound, (w.call host bound addr).2.machine.frame = w.machine.frame := by
  constructor
  · intro free ram unlimited count v returns bound enough
    exact call_of_returnsAfter free ram unlimited returns enough
  · intro bound
    rfl

/-- RAM that holds NOP up to address 0x20 and RTS from there on. -/
def slide : World Unit where
  machine := { mem := { cells := (.replicate 0x21 ⟨0xEA, {}⟩ ++ .replicate 0x1DF ⟨0x60, {}⟩ : List Cell).toArray } }
  host := ()

theorem slide_stackIsRam : slide.machine.StackIsRam := by
  apply Machine.stackIsRam_of_cells
  · simp only [Memory.size, slide, List.size_toArray, List.length_append, List.length_replicate]
    decide
  · intro cell member
    rcases List.mem_append.mp (Array.mem_toList_iff.mpr member) with first | second
    · rw [List.eq_of_mem_replicate first]
      exact ⟨rfl, rfl⟩
    · rw [List.eq_of_mem_replicate second]
      exact ⟨rfl, rfl⟩

theorem slide_call_balanced :
    ∃ v, slide.ReturnsAfter CommandLine.hooklessHost 0x20 1 v ∧
      (slide.call CommandLine.hooklessHost 3 0x20).1 = .completed ∧
        (slide.call CommandLine.hooklessHost 3 0x20).2.machine.regs.sp = 0xFF := by
  let start := (slide.beginCall CommandLine.hooklessHost).startAt 0x20
  have running : (start.steps CommandLine.hooklessHost 1).1 = none := by decide +kernel
  let v := (start.steps CommandLine.hooklessHost 1).2
  have returns : slide.ReturnsAfter CommandLine.hooklessHost 0x20 1 v := by
    constructor
    · exact steps_eq_of_running running
    · decide +kernel
    · decide +kernel
    · decide +kernel
    · decide +kernel
  refine ⟨v, returns, ?_⟩
  exact (call_balanced CommandLine.hooklessHost 0x20 slide).1 rfl slide_stackIsRam rfl 1 v returns 3
    (Nat.le_refl 3)

end World

end Mos6502
