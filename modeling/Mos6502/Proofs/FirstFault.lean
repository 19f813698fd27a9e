import Mos6502.CommandLine.Program
import Mos6502.Proofs.Bare.Events
import Mos6502.World.Setup

/-!
# The first failing access

Only the first fault of a window is kept, so it is worth knowing which of its events that is. The accesses of an
instruction heal cells on the way, and its stores and results change cells and flags. But a read that heals has failed,
and what an instruction writes it does not come back to read. So whether an event fails can be told from the machine with
which the window begins, up to the first that does, and that one is the fault of the window.
-/

namespace Mos6502

variable {σ α β : Type}

/-- The fault of reading a cell, with the kinds that the way of reading has for it. -/
def CellState.readFault? (state : CellState) (undefined uninitialized : FaultKind) (addr : UInt16) :
    Option Fault :=
  if state.undefined then some ⟨undefined, addr⟩
  else if state.uninitialized then some ⟨uninitialized, addr⟩
  else none

/-- The fault of writing a cell. -/
def CellState.writeFault? (state : CellState) (addr : UInt16) : Option Fault :=
  if state.rom then some ⟨.writeRom, addr⟩
  else if state.undefined then some ⟨.writeUndefined, addr⟩
  else none

/-- The fault of an event on a machine, if it fails there. Flags and the faults that an instruction raises by itself are
reported at the instruction at work. -/
def Event.fault? (m : Machine) : Event → Option Fault
  | .fetch addr => (m.mem.state addr).readFault? .executeUndefined .executeUninitialized addr
  | .load addr => (m.mem.state addr).readFault? .readUndefined .readUninitialized addr
  | .flag which => if m.regs.unknown.get which then some ⟨.readUninitialized, m.current⟩ else none
  | .store addr => (m.mem.state addr).writeFault? addr
  | .raise kind => some ⟨kind, m.current⟩

theorem Event.fault?_congr {m n : Machine} (states : ∀ addr, n.mem.state addr = m.mem.state addr)
    (unknown : n.regs.unknown = m.regs.unknown) (current : n.current = m.current) :
    fault? n = fault? m := by
  funext event
  cases event <;> simp [fault?, states, unknown, current]

theorem Machine.noteRead_of_readFault? {m : Machine} {undefined uninitialized : FaultKind}
    {addr : UInt16} (passes : (m.mem.state addr).readFault? undefined uninitialized addr = none) :
    m.noteRead undefined uninitialized addr = m := by
  unfold CellState.readFault? at passes
  split at passes
  · cases passes
  next declared =>
    split at passes
    · cases passes
    next written => rw [noteRead, if_neg declared, if_neg written]

theorem Machine.current_write (m : Machine) (addr : UInt16) (value : UInt8) :
    (m.write addr value).current = m.current :=
  current_eq (m.change_write addr value).fixture

namespace MicroOp

/-- The fault of a micro-operation on a machine. -/
def fault? (m : Machine) (op : MicroOp) : Option Fault :=
  op.event?.bind (Event.fault? m)

/-- What a micro-operation leaves in an empty slot. -/
theorem fault_effect (op : MicroOp) {m : Machine} (empty : m.slot = {}) :
    (op.effect m).2.slot.fault = op.fault? m := by
  cases op with
  | fetch addr | load addr => exact Machine.fault_noteRead empty _ _ addr
  | store addr value => exact Machine.fault_write empty addr value
  | raise kind => exact Machine.fault_raise empty kind m.current
  | flag which =>
    change (m.noteFlag which).slot.fault = if m.regs.unknown.get which then _ else none
    unfold Machine.noteFlag
    split
    · exact Machine.fault_raise empty .readUninitialized m.current
    · rw [empty]
  | isBlank | register | setRegister | pc | setPc | setFlag | forget | status | setStatus | here
    | charge | observe =>
    change m.slot.fault = none
    rw [empty]

/-- One micro-operation can come before another without a part in whether that fails: stores do not come before reads,
nor the writing of flags before the reading of flags. -/
def Precedes : MicroOp → MicroOp → Prop
  | .store _ _, .fetch _ | .store _ _, .load _ => False
  | .setFlag _ _, .flag _ | .setStatus _, .flag _ | .forget _, .flag _ => False
  | _, _ => True

/-- The micro-operations that can come before all others. -/
def Early : MicroOp → Prop
  | .store _ _ | .setFlag _ _ | .setStatus _ | .forget _ => False
  | _ => True

/-- The micro-operations that can come behind all others. -/
def Late : MicroOp → Prop
  | .fetch _ | .load _ | .flag _ => False
  | _ => True

theorem Early.precedes {op : MicroOp} (early : op.Early) (later : MicroOp) : op.Precedes later := by
  cases op with
  | store | setFlag | setStatus | forget => exact early.elim
  | _ => trivial

theorem Late.follows {later : MicroOp} (late : later.Late) (op : MicroOp) : op.Precedes later := by
  cases later with
  | fetch | load | flag => exact late.elim
  | _ => cases op <;> trivial

theorem precedes_of_storeless {op later : MicroOp} (storeless : op.Storeless)
    (flagless : ∀ which, later ≠ .flag which) : op.Precedes later := by
  cases later with
  | flag which => exact absurd rfl (flagless which)
  | _ =>
    cases op with
    | store => exact storeless.elim
    | _ => trivial

/-- What has not failed leaves the verdict on everything that it can precede as it was. -/
theorem fault?_effect {op later : MicroOp} {m : Machine} (inOrder : op.Precedes later)
    (passes : op.fault? m = none) : later.fault? (op.effect m).2 = later.fault? m := by
  cases op with
  | fetch addr | load addr =>
    have same : m.noteRead _ _ addr = m := Machine.noteRead_of_readFault? passes
    exact congrArg later.fault? same
  | flag which =>
    have same : m.noteFlag which = m := by
      unfold Machine.noteFlag
      rw [if_neg]
      intro unknown
      simp [fault?, event?, Event.fault?, unknown] at passes
    exact congrArg later.fault? same
  | raise kind => cases passes
  | store addr value =>
    cases later with
    | fetch | load => exact inOrder.elim
    | store other _ =>
      have state := m.state_write addr value other
      simp [fault?, event?, Event.fault?, effect, state, CellState.after, CellState.writeFault?]
    | flag which => simp [fault?, event?, Event.fault?, effect, m.regs_write, m.current_write]
    | raise kind => simp [fault?, event?, Event.fault?, effect, m.current_write]
    | _ => rfl
  | setFlag | setStatus | forget =>
    cases later with
    | flag => exact inOrder.elim
    | _ => rfl
  | setRegister target value =>
    have unknown : (m.regs.set target value).unknown = m.regs.unknown := by
      cases target <;> rfl
    exact congrArg later.event?.bind (Event.fault?_congr (fun _ => rfl) unknown rfl)
  | isBlank | register | pc | setPc | status | here | charge | observe =>
    exact congrArg later.event?.bind (Event.fault?_congr (fun _ => rfl) rfl rfl)

end MicroOp

namespace Micro

/-- Everything in a program comes in an order in which nothing has a part in whether something behind it fails. -/
def Orderly : Micro α → Prop
  | done _ => True
  | step op next => ∀ answer, (next answer).Uses op.Precedes ∧ (next answer).Orderly

theorem orderly_of_uses {p : MicroOp → Prop} {program : Micro α} (uses : program.Uses p)
    (inOrder : ∀ op later, p op → p later → op.Precedes later) : program.Orderly := by
  induction program with
  | done result => trivial
  | step op next inductionHypothesis =>
    obtain ⟨here, later⟩ := uses
    intro answer
    exact ⟨(later answer).imp fun other => inOrder op other here,
      inductionHypothesis answer (later answer)⟩

theorem orderly_of_early {program : Micro α} (early : program.Uses MicroOp.Early) : program.Orderly :=
  orderly_of_uses early fun _ later here _ => here.precedes later

theorem orderly_of_late {program : Micro α} (late : program.Uses MicroOp.Late) :
    program.Orderly :=
  orderly_of_uses late fun op _ _ behind => behind.follows op

theorem Orderly.behind {program : Micro α} {next : α → Micro β} (early : program.Uses MicroOp.Early)
    (orderly : ∀ result, (next result).Orderly) : (program >>= next).Orderly := by
  induction program with
  | done result => exact orderly result
  | step op rest inductionHypothesis =>
    obtain ⟨here, later⟩ := early
    intro answer
    exact ⟨uses_of_forall here.precedes _, inductionHypothesis answer (later answer)⟩

/-- The first event of an orderly program that fails leaves its fault in an empty slot. Events are judged on one machine
throughout, on which they fail just as they do on the way. -/
theorem fault_exec {program : Micro α} (orderly : program.Orderly) {m n : Machine}
    (alike : program.Uses fun op => op.fault? n = op.fault? m) (empty : n.slot = {}) :
    (program.exec n).2.slot.fault = (program.events n).findSome? (Event.fault? m) := by
  induction program generalizing n with
  | done result =>
    rw [exec_done, empty]
    rfl
  | step op next inductionHypothesis =>
    obtain ⟨here, later⟩ := alike
    have first : op.event?.toList.findSome? (Event.fault? m) = op.fault? n := by
      rw [here, MicroOp.fault?]
      cases op.event? <;> simp
    have recorded := op.fault_effect empty
    rw [exec_step, events_step, List.findSome?_append, first]
    cases failing : op.fault? n with
    | some fault =>
      rw [failing] at recorded
      exact slot_exec_of_some _ recorded
    | none =>
      rw [failing] at recorded
      obtain ⟨behind, orderlyToo⟩ := orderly (op.effect n).1
      have stillAlike : (next (op.effect n).1).Uses fun op' =>
          op'.fault? (op.effect n).2 = op'.fault? m :=
        (behind.and (later _)).imp fun _ both =>
          (MicroOp.fault?_effect both.1 failing).trans both.2
      have stillEmpty : (op.effect n).2.slot = {} := by
        rw [← recorded]
      exact inductionHypothesis _ orderlyToo stillAlike stillEmpty

theorem early_fetchInstruction (addr : UInt16) : (fetchInstruction addr).Uses MicroOp.Early := by
  simp [fetchInstruction, MicroOp.Early]

theorem early_resolve (mode : AddressingMode) (value : UInt16) :
    (resolve mode value).Uses MicroOp.Early := by
  cases mode <;> simp [resolve, loadZeroPageWord, loadWord, MicroOp.Early]

theorem early_chargeFor (instruction : Instruction) (operand : Operand) :
    (chargeFor instruction operand).Uses MicroOp.Early := by
  simp [chargeFor, MicroOp.Early]

theorem early_loadOperand (operand : Operand) : (loadOperand operand).Uses MicroOp.Early := by
  cases operand <;> simp [loadOperand, MicroOp.Early]

theorem early_flag (which : Flag) : (flag which).Uses MicroOp.Early := by
  simp [MicroOp.Early]

theorem late_storeOperand (operand : Operand) (value : UInt8) :
    (storeOperand operand value).Uses MicroOp.Late := by
  cases operand <;> simp [storeOperand, MicroOp.Late]

theorem late_push (value : UInt8) : (push value).Uses MicroOp.Late := by
  simp [push, MicroOp.Late]

/-- Reads and writes of memory are apart in the work of every mnemonic, and so are those of flags. -/
theorem orderly_ofMnemonic (mnemonic : Mnemonic) (operand : Operand) :
    (ofMnemonic mnemonic operand).Orderly := by
  have loads := early_loadOperand operand
  have stores := late_storeOperand operand
  cases mnemonic with
  | bcc | bcs | bne | beq | bpl | bmi | bvc | bvs =>
    apply orderly_of_early
    cases operand <;> simp [ofMnemonic, branchIf, takeBranch, MicroOp.Early]
  | sta | stx | sty =>
    apply orderly_of_late
    simp [ofMnemonic, storeFrom, stores, MicroOp.Late]
  | pha | php =>
    apply orderly_of_late
    simp [ofMnemonic, pushStatus, late_push, MicroOp.Late]
  | jsr =>
    apply orderly_of_late
    cases operand <;> simp [ofMnemonic, jumpToSubroutine, pushWord, late_push, MicroOp.Late]
  | asl | lsr | inc | dec =>
    refine Orderly.behind loads fun value => orderly_of_late ?_
    simp [setShift, setZeroNegative, stores, MicroOp.Late]
  | rol | ror =>
    refine Orderly.behind loads fun value => ?_
    rw [bind_assoc]
    refine Orderly.behind (early_flag .carry) fun carry => orderly_of_late ?_
    simp [setShift, setZeroNegative, stores, MicroOp.Late]
  | adc | sbc =>
    refine Orderly.behind loads fun value => Orderly.behind (early_flag .carry) fun carry =>
      Orderly.behind (early_flag .decimal) fun decimal => orderly_of_late ?_
    simp [setComparison, MicroOp.Late]
  | _ =>
    -- What neither stores nor reads flags has nothing to keep in order.
    refine orderly_of_uses ((storeless_ofMnemonic rfl operand).and (uses_ofMnemonic _ operand)) ?_
    rintro op later ⟨storeless, -⟩ ⟨-, works⟩
    apply MicroOp.precedes_of_storeless storeless
    rintro which rfl
    cases works

theorem orderly_ofInstruction (instruction : Instruction) (value : UInt16) :
    (ofInstruction instruction value).Orderly := by
  by_cases undocumented : instruction.mnemonic = .undocumented
  · unfold ofInstruction
    rw [if_pos undocumented]
    apply orderly_of_early
    simp [reject, MicroOp.Early]
  · rw [ofInstruction_eq undocumented]
    exact Orderly.behind (early_resolve instruction.mode value) fun operand =>
      Orderly.behind (early_chargeFor instruction operand) fun _ =>
        orderly_ofMnemonic instruction.mnemonic operand

theorem orderly_instructionAt (pc : UInt16) : (instructionAt pc).Orderly := by
  refine Orderly.behind (early_fetchInstruction pc) fun fetched => ?_
  refine Orderly.behind ?_ fun _ => orderly_ofInstruction fetched.1 fetched.2
  simp [MicroOp.Early]

end Micro

/-- The fault of the first event that fails in the next instruction, with the instruction named as the one at work. -/
def Machine.firstFault? (m : Machine) : Option Fault :=
  m.nextEvents.findSome? (Event.fault? (m.enter m.regs.pc))

theorem Machine.fault_window {m : Machine} (empty : m.slot = {}) (below : m.limitReached = false)
    (away : m.atSentinel = false) : m.window.slot.fault = m.firstFault? := by
  have enteredEmpty : (m.enter m.regs.pc).slot = {} := empty
  rw [window_of_instruction below away, firstFault?, ← m.events_instructionAt]
  exact Micro.fault_exec (Micro.orderly_instructionAt m.regs.pc)
    (Micro.uses_of_forall (fun _ => rfl) _) enteredEmpty

namespace World

/-- The first event that fails decides a window: the slot holds its fault, or none if nothing fails; the step stops with
that fault if it is fatal at the level of the machine, and goes on otherwise; and it leaves the slot empty. -/
theorem first_failure_decides (host : Host σ) {w : World σ} (free : w.machine.HookFree)
    (empty : w.machine.slot = {}) (below : w.machine.limitReached = false)
    (away : w.machine.atSentinel = false) :
    (w.window host).machine.slot.fault = w.machine.firstFault? ∧
      (∀ fault, (w.step host).1 = some fault ↔
        w.machine.firstFault? = some fault ∧ w.machine.level.isFatal fault.kind = true) ∧
      (w.step host).2.machine.slot = {} := by
  obtain ⟨stopped, machine⟩ := w.step_bare host free
  have decided := Machine.fault_window empty below away
  have level : w.machine.window.level = w.machine.level :=
    (Machine.level_eq w.machine.fixture_window).trans rfl
  refine ⟨?_, ?_, ?_⟩
  · rw [window_bare host free, decided]
  · intro fault
    rw [stopped, Machine.step, Machine.settle, decided, level, Option.filter_eq_some_iff]
  · rw [machine]
    rfl

/-- An addition of a cell that nobody has written, while nothing has established the carry. -/
def blankAddend : World Unit :=
  ((ofSettings { memSize := 8, level := .full } {} ()).mapMem (·.declareData 0 [0x65, 0x06])).mapMem
    (·.declareRam 6 1 false)

theorem blankAddend_stops_at_operand :
    blankAddend.machine.HookFree ∧ blankAddend.machine.slot = {} ∧
      blankAddend.machine.limitReached = false ∧ blankAddend.machine.atSentinel = false ∧
      (blankAddend.step CommandLine.hooklessHost).1 = some ⟨.readUninitialized, 6⟩ := by
  have free : blankAddend.machine.HookFree := rfl
  have below : blankAddend.machine.limitReached = false := by decide +kernel
  have away : blankAddend.machine.atSentinel = false := by decide +kernel
  have first : blankAddend.machine.firstFault? = some ⟨.readUninitialized, 6⟩ := by decide +kernel
  obtain ⟨-, stops, -⟩ := first_failure_decides CommandLine.hooklessHost free rfl below away
  exact ⟨free, rfl, below, away, (stops _).mpr ⟨first, rfl⟩⟩

end World

end Mos6502
