import Mos6502.Proofs.Bare.NextInstruction
import Mos6502.Proofs.MemoryHistory

/-!
# What can fail in an instruction

An instruction fails at a cell that does not take its access, at a flag that nothing has established, or by itself. The
micro-operations that can fail are listed along a run as events. A mnemonic tells them all, in the order in which they
come: what it reads of its operand or of the stack, the flags that it reads, what it stores, and its own fault. The bytes
of the instruction and the pointers of its mode are read before.

Events also tell the states of cells: reading and storing leave a mark at their addresses, and nothing else does.
-/

namespace Mos6502

variable {α β : Type}

/-- What can fail in a run. -/
inductive Event where
  | fetch (addr : UInt16)
  | load (addr : UInt16)
  | flag (which : Flag)
  | store (addr : UInt16)
  | raise (kind : FaultKind)
deriving DecidableEq, Repr

def MicroOp.event? : MicroOp → Option Event
  | .fetch addr => some (.fetch addr)
  | .load addr => some (.load addr)
  | .flag which => some (.flag which)
  | .store addr _ => some (.store addr)
  | .raise kind => some (.raise kind)
  | .isBlank _ | .register _ | .setRegister _ _ | .pc | .setPc _ | .setFlag _ _ | .forget _ | .status
  | .setStatus _ | .here | .charge _ | .observe _ => none

/-- The micro-operations that cannot fail. -/
def MicroOp.Safe (op : MicroOp) : Prop :=
  op.event? = none

namespace Micro

/-- The events of a program, in order, failing or not. -/
def events : Micro α → Machine → List Event
  | done _, _ => []
  | step op next, m => op.event?.toList ++ (next (op.effect m).1).events (op.effect m).2

@[simp]
theorem events_done (result : α) (m : Machine) : (done result).events m = [] := rfl

@[simp]
theorem events_step (op : MicroOp) (next : op.Answer → Micro α) (m : Machine) :
    (step op next).events m =
      op.event?.toList ++ (next (op.effect m).1).events (op.effect m).2 := rfl

@[simp]
theorem events_bind (program : Micro α) (next : α → Micro β) (m : Machine) :
    (program >>= next).events m =
      program.events m ++ (next (program.exec m).1).events (program.exec m).2 := by
  induction program generalizing m with
  | done result => rfl
  | step op rest inductionHypothesis =>
    simp only [bind_step, events_step, exec_step, inductionHypothesis, List.append_assoc]

theorem events_of_safe {program : Micro α} (safe : program.Uses MicroOp.Safe) (m : Machine) :
    program.events m = [] := by
  induction program generalizing m with
  | done result => rfl
  | step op next inductionHypothesis =>
    obtain ⟨here, later⟩ := safe
    have silent : op.event? = none := here
    rw [events_step, silent, inductionHypothesis _ (later _)]
    rfl

@[simp]
theorem events_fetch (addr : UInt16) (m : Machine) : (fetch addr).events m = [.fetch addr] := rfl

@[simp]
theorem events_load (addr : UInt16) (m : Machine) : (load addr).events m = [.load addr] := rfl

@[simp]
theorem events_flag (which : Flag) (m : Machine) : (flag which).events m = [.flag which] := rfl

@[simp]
theorem events_store (addr : UInt16) (value : UInt8) (m : Machine) :
    (store addr value).events m = [.store addr] := rfl

theorem events_fetchInstruction {addr : UInt16} {m : Machine} {instruction : Instruction}
    (described : Instruction.decode (m.mem.raw addr) = instruction) :
    (fetchInstruction addr).events m = (instruction.addresses addr).map .fetch := by
  unfold fetchInstruction
  rw [events_bind, exec_fetch, described]
  rcases instruction.length_cases with one | two | three
  · simp [one, Instruction.addresses]
  · simp [two, Instruction.addresses, List.range_succ]
  · simp [three, Instruction.addresses, List.range_succ]

theorem events_resolve (mode : AddressingMode) (value : UInt16) (m : Machine) :
    (resolve mode value).events m = (mode.pointers value m.regs).map .load := by
  cases mode <;>
    simp [resolve, loadWord, loadZeroPageWord, AddressingMode.pointers, events_of_safe, MicroOp.Safe,
      MicroOp.event?, Registers.get]

end Micro

/-- The addresses that the work of a mnemonic reads, with the stack pointer at `sp`. BIT leaves out a blank cell. -/
def Mnemonic.loadsFrom (mnemonic : Mnemonic) (operand : Operand) (sp : UInt8)
    (blank : UInt16 → Bool) : List UInt16 :=
  match mnemonic with
  | .lda | .ldx | .ldy | .adc | .sbc | .and | .ora | .eor | .cmp | .cpx | .cpy | .asl | .lsr | .rol
  | .ror | .inc | .dec => operand.address?.toList
  | .bit => operand.address?.toList.filter (!blank ·)
  | .pla | .plp => [Micro.stackAddress (sp + 1)]
  | .rts => [Micro.stackAddress (sp + 1), Micro.stackAddress (sp + 2)]
  | .rti =>
    [Micro.stackAddress (sp + 1), Micro.stackAddress (sp + 2), Micro.stackAddress (sp + 3)]
  | _ => []

/-- The fault that a mnemonic raises by itself. -/
def Mnemonic.raises? : Mnemonic → Option FaultKind
  | .brk => some .brk
  | .undocumented => some .illegal
  | _ => none

/-- The events in the work of a mnemonic. -/
def Mnemonic.events (mnemonic : Mnemonic) (operand : Operand) (sp : UInt8)
    (blank : UInt16 → Bool) : List Event :=
  (mnemonic.loadsFrom operand sp blank).map .load ++ mnemonic.flagsRead.map .flag ++
    (mnemonic.storesTo operand sp).map .store ++ mnemonic.raises?.toList.map .raise

theorem Mnemonic.events_congr {mnemonic : Mnemonic} (unasked : mnemonic ≠ .bit)
    (operand : Operand) (sp : UInt8) (blank other : UInt16 → Bool) :
    mnemonic.events operand sp blank = mnemonic.events operand sp other := by
  cases mnemonic with
  | bit => exact absurd rfl unasked
  | _ => rfl

namespace Micro

theorem events_loadOperand (operand : Operand) (m : Machine) :
    (loadOperand operand).events m = operand.address?.toList.map .load := by
  cases operand <;> rfl

theorem events_storeOperand (operand : Operand) (value : UInt8) (m : Machine) :
    (storeOperand operand value).events m = operand.address?.toList.map .store := by
  cases operand <;> rfl

theorem events_push (value : UInt8) (m : Machine) :
    (push value).events m = [.store (stackAddress m.regs.sp)] := rfl

theorem events_pushWord (word : UInt16) (m : Machine) :
    (pushWord word).events m =
      [.store (stackAddress m.regs.sp), .store (stackAddress (m.regs.sp - 1))] := by
  unfold pushWord
  rw [events_bind, exec_push, events_push, events_push]
  change [_, Event.store (stackAddress (m.regs.sp - 1))] = _
  rfl

theorem events_pull (m : Machine) :
    pull.events m = [.load (stackAddress (m.regs.sp + 1))] := rfl

theorem events_pullWord (m : Machine) :
    pullWord.events m =
      [.load (stackAddress (m.regs.sp + 1)), .load (stackAddress (m.regs.sp + 2))] := by
  have twice : m.regs.sp + 1 + 1 = m.regs.sp + 2 := UInt8.add_assoc _ 1 1
  unfold pullWord
  simp [events_pull, regs_pull, twice]

theorem events_ofMnemonic {mnemonic : Mnemonic} (documented : mnemonic ≠ .undocumented)
    (operand : Operand) (m : Machine) :
    (ofMnemonic mnemonic operand).events m =
      mnemonic.events operand m.regs.sp fun addr => (m.mem.state addr).uninitialized := by
  cases mnemonic with
  | undocumented => exact absurd rfl documented
  | lda | ldx | ldy | sta | stx | sty | and | ora | eor =>
    simp [ofMnemonic, loadInto, storeFrom, combine, setResult, setZeroNegative, events_loadOperand,
      events_storeOperand, events_of_safe, MicroOp.Safe, MicroOp.event?, Mnemonic.events,
      Mnemonic.loadsFrom, Mnemonic.flagsRead, Mnemonic.storesTo, Mnemonic.raises?]
  | adc | sbc | cmp | cpx | cpy =>
    simp [ofMnemonic, arithmetic, compareWith, setComparison, events_loadOperand, events_of_safe,
      MicroOp.Safe, MicroOp.event?, Mnemonic.events, Mnemonic.loadsFrom, Mnemonic.flagsRead,
      Mnemonic.storesTo, Mnemonic.raises?]
  | asl | lsr | rol | ror | inc | dec =>
    simp [ofMnemonic, shift, rotate, stepOperand, modify, setShift, setZeroNegative,
      events_loadOperand, events_storeOperand, events_of_safe, MicroOp.Safe, MicroOp.event?,
      Mnemonic.events, Mnemonic.loadsFrom, Mnemonic.flagsRead, Mnemonic.storesTo, Mnemonic.raises?]
  | bit =>
    cases operand with
    | memory addr pageCross =>
      have asked : (isBlank addr).exec m = ((m.mem.state addr).uninitialized, m) := rfl
      cases blank : (m.mem.state addr).uninitialized <;>
        simp [ofMnemonic, testBits, asked, blank, events_of_safe, MicroOp.Safe, MicroOp.event?,
          Mnemonic.events, Mnemonic.loadsFrom, Mnemonic.flagsRead, Mnemonic.storesTo,
          Mnemonic.raises?, Operand.address?]
    | none | accumulator | immediate | branch => rfl
  | pla | plp | rts =>
    simp [ofMnemonic, pullAccumulator, returnFromSubroutine, setResult, setZeroNegative, events_pull,
      events_pullWord, events_of_safe, MicroOp.Safe, MicroOp.event?, Mnemonic.events,
      Mnemonic.loadsFrom, Mnemonic.flagsRead, Mnemonic.storesTo, Mnemonic.raises?]
  | rti =>
    have restored (value : UInt8) (n : Machine) :
        ((setStatus value).exec n).2.regs.sp = n.regs.sp := rfl
    have second : m.regs.sp + 1 + 1 = m.regs.sp + 2 := UInt8.add_assoc _ 1 1
    have third : m.regs.sp + 1 + 2 = m.regs.sp + 3 := UInt8.add_assoc _ 1 2
    simp [ofMnemonic, returnFromInterrupt, events_pull, events_pullWord, restored, regs_pull, second,
      third, events_of_safe, MicroOp.Safe, MicroOp.event?, Mnemonic.events, Mnemonic.loadsFrom,
      Mnemonic.flagsRead, Mnemonic.storesTo, Mnemonic.raises?]
  | pha | php | brk => rfl
  | jsr =>
    cases operand with
    | memory addr pageCross =>
      exact (events_bind _ _ _).trans (events_pushWord _ m)
    | none | accumulator | immediate | branch => rfl
  | bcc | bcs | bne | beq | bpl | bmi | bvc | bvs =>
    cases operand <;>
      simp [ofMnemonic, branchIf, takeBranch, events_of_safe, MicroOp.Safe, MicroOp.event?,
        Mnemonic.events, Mnemonic.loadsFrom, Mnemonic.flagsRead, Mnemonic.storesTo, Mnemonic.raises?]
  | jmp => cases operand <;> rfl
  | _ =>
    simp [ofMnemonic, stepRegister, transfer, setResult, setZeroNegative, events_of_safe,
      MicroOp.Safe, MicroOp.event?, Mnemonic.events, Mnemonic.loadsFrom, Mnemonic.flagsRead,
      Mnemonic.storesTo, Mnemonic.raises?]

/-- Cells are blank or not when the operand is found, and charging for the instruction is no event. -/
theorem events_ofInstruction {instruction : Instruction}
    (documented : instruction.mnemonic ≠ .undocumented) (value : UInt16) (m : Machine) :
    (ofInstruction instruction value).events m =
      (instruction.mode.pointers value m.regs).map .load ++
        instruction.mnemonic.events (instruction.mode.operand value m.regs m.mem) m.regs.sp
          fun addr => (((resolve instruction.mode value).exec m).2.mem.state addr).uninitialized := by
  have regs := regs_resolve instruction.mode value m
  have charged (operand : Operand) (n : Machine) : (chargeFor instruction operand).events n = [] := by
    apply events_of_safe
    simp [chargeFor, MicroOp.Safe, MicroOp.event?]
  rw [ofInstruction_eq documented, events_bind, events_resolve, exec_resolve_fst, events_bind,
    charged, exec_chargeFor, List.nil_append, events_ofMnemonic documented]
  dsimp only
  rw [regs]

end Micro

/-- A cell state that counts as written if `written` says so. -/
def CellState.after (state : CellState) (written : Bool) : CellState :=
  { state with uninitialized := state.uninitialized && !written }

namespace CellState

@[simp]
theorem after_false (state : CellState) : state.after false = state := by
  simp [after]

theorem after_after (state : CellState) (first second : Bool) :
    (state.after first).after second = state.after (first || second) := by
  simp [after, Bool.and_assoc]

end CellState

/-- Whether an event marks a cell in a state as written: it does not get through to an undeclared cell, nor a store to a
write-protected one. -/
def Event.marks (state : CellState) (addr : UInt16) : Event → Bool
  | .fetch target | .load target => target == addr && !state.undefined
  | .store target => target == addr && (!state.rom && !state.undefined)
  | .flag _ | .raise _ => false

theorem Event.marks_after (state : CellState) (written : Bool) (addr : UInt16) :
    marks (state.after written) addr = marks state addr := by
  funext event
  cases event <;> rfl

/-- Events of one kind mark a cell if it is among theirs, and takes the access. -/
theorem Event.any_marks_map {state : CellState} {addr : UInt16} {kind : UInt16 → Event}
    {passes : Bool} (each : ∀ target, marks state addr (kind target) = (target == addr && passes))
    (cells : List UInt16) :
    (cells.map kind).any (marks state addr) = (cells.contains addr && passes) := by
  induction cells with
  | nil => rfl
  | cons target rest inductionHypothesis =>
    rw [List.map_cons, List.any_cons, each, inductionHypothesis, List.contains_cons,
      Bool.and_or_distrib_right, Bool.beq_comm]

section

variable (state : CellState) (addr : UInt16) (cells : List UInt16)

theorem Event.any_marks_fetch :
    (cells.map fetch).any (marks state addr) = (cells.contains addr && !state.undefined) :=
  any_marks_map (fun _ => rfl) cells

theorem Event.any_marks_load :
    (cells.map load).any (marks state addr) = (cells.contains addr && !state.undefined) :=
  any_marks_map (fun _ => rfl) cells

theorem Event.any_marks_store :
    (cells.map store).any (marks state addr) =
      (cells.contains addr && (!state.rom && !state.undefined)) :=
  any_marks_map (fun _ => rfl) cells

end

namespace Machine

theorem state_noteRead (m : Machine) (undefined uninitialized : FaultKind) (other addr : UInt16) :
    (m.noteRead undefined uninitialized other).mem.state addr =
      (m.mem.state addr).after (other == addr && !(m.mem.state addr).undefined) := by
  unfold Memory.state
  rw [m.cell?_noteRead undefined uninitialized 0 other addr]
  cases m.mem.cell? addr with
  | none => simp [CellState.undeclared]
  | some cell =>
    by_cases reached : other = addr ∧ cell.state.undefined = false
    · simp [MemoryAction.change, reached, Cell.asInitialized, CellState.after]
    · have kept : (other == addr && !cell.state.undefined) = false := by
        simpa using reached
      simp [MemoryAction.change, reached, kept]

theorem state_write (m : Machine) (other : UInt16) (value : UInt8) (addr : UInt16) :
    (m.write other value).mem.state addr =
      (m.mem.state addr).after
        (other == addr && (!(m.mem.state addr).rom && !(m.mem.state addr).undefined)) := by
  unfold Memory.state
  rw [m.cell?_write 0 other value addr]
  cases m.mem.cell? addr with
  | none => simp [CellState.undeclared]
  | some cell =>
    by_cases reached : other = addr ∧ cell.state.rom = false ∧ cell.state.undefined = false
    · simp [MemoryAction.change, reached, Cell.asInitialized, Cell.withByte, CellState.after]
    · have kept : (other == addr && (!cell.state.rom && !cell.state.undefined)) = false := by
        simpa using reached
      simp [MemoryAction.change, reached, kept]

end Machine

theorem MicroOp.state_effect (op : MicroOp) (m : Machine) (addr : UInt16) :
    (op.effect m).2.mem.state addr =
      (m.mem.state addr).after (op.event?.toList.any (Event.marks (m.mem.state addr) addr)) := by
  cases op with
  | fetch target | load target =>
    exact (m.state_noteRead _ _ target addr).trans (by simp [event?, Event.marks])
  | store target value =>
    exact (m.state_write target value addr).trans (by simp [event?, Event.marks])
  | flag which =>
    have same : (m.noteFlag which).mem = m.mem := by
      unfold Machine.noteFlag
      split <;> rfl
    change (m.noteFlag which).mem.state addr = _
    rw [same]
    simp [event?, Event.marks]
  | _ => simp [effect, event?, Event.marks, Machine.mapRegs, Machine.raise]

/-- What a run leaves of the state of a cell can be read off its events. -/
theorem Micro.state_exec (program : Micro α) (m : Machine) (addr : UInt16) :
    (program.exec m).2.mem.state addr =
      (m.mem.state addr).after ((program.events m).any (Event.marks (m.mem.state addr) addr)) := by
  induction program generalizing m with
  | done result => simp
  | step op next inductionHypothesis =>
    rw [exec_step, inductionHypothesis, op.state_effect, Event.marks_after, CellState.after_after,
      events_step, List.any_append]

theorem AddressingMode.pointers_startAt (mode : AddressingMode) (value : UInt16) (regs : Registers)
    (pc : UInt16) : mode.pointers value { regs with pc } = mode.pointers value regs := by
  cases mode <;> rfl

/-- BIT has no mode with a pointer. -/
theorem Instruction.pointers_of_bit {opcode : UInt8} (bit : (decode opcode).mnemonic = .bit)
    (value : UInt16) (regs : Registers) : (decode opcode).mode.pointers value regs = [] := by
  have direct : ∀ entry ∈ documented, entry.2.mnemonic = .bit →
      entry.2.mode = .zeroPage ∨ entry.2.mode = .absolute := by
    decide +kernel
  have found := decode_induction (P := fun instruction => instruction.mnemonic = .bit →
    instruction.mode = .zeroPage ∨ instruction.mode = .absolute) direct (by decide) opcode bit
  rcases found with mode | mode
  · rw [mode]
    rfl
  · rw [mode]
    rfl

namespace Machine

/-- The addresses of the pointer to the operand of the next instruction. -/
def pointerCells (m : Machine) : List UInt16 :=
  m.nextInstruction.mode.pointers m.nextArgument m.regs

/-- Whether BIT will find a cell blank: nothing was ever written to it, and fetching it has left no mark. -/
def staysBlank (m : Machine) (addr : UInt16) : Bool :=
  (m.mem.state addr).uninitialized &&
    !(m.fetchedCells.contains addr && !(m.mem.state addr).undefined)

/-- The addresses that the work of the next instruction reads. -/
def loadedCells (m : Machine) : List UInt16 :=
  m.nextMnemonic.loadsFrom m.nextOperand m.regs.sp m.staysBlank

/-- The addresses that it stores to. -/
def storedCells (m : Machine) : List UInt16 :=
  m.nextMnemonic.storesTo m.nextOperand m.regs.sp

/-- What can fail in the next instruction, in the order in which it comes up. -/
def nextEvents (m : Machine) : List Event :=
  m.fetchedCells.map .fetch ++ m.pointerCells.map .load ++
    (m.loadedCells.map .load ++ m.nextMnemonic.flagsRead.map .flag ++ m.storedCells.map .store ++
      m.nextMnemonic.raises?.toList.map .raise)

section

variable (m : Machine)

theorem events_fetch_next :
    (Micro.fetchInstruction m.regs.pc).events (m.enter m.regs.pc) = m.fetchedCells.map .fetch := by
  have described : Instruction.decode ((m.enter m.regs.pc).mem.raw m.regs.pc) = m.nextInstruction :=
    rfl
  rw [Micro.events_fetchInstruction described]
  rfl

theorem state_poised (addr : UInt16) :
    m.poised.mem.state addr = (m.mem.state addr).after
      (m.fetchedCells.contains addr && !(m.mem.state addr).undefined) := by
  have fetched := Micro.state_exec (Micro.fetchInstruction m.regs.pc) (m.enter m.regs.pc) addr
  rw [exec_fetch_next, events_fetch_next, mem_enter, Event.any_marks_fetch] at fetched
  rw [poised, mem_startAt, fetched]

/-- BIT reads no pointer, so it finds cells as fetching has left them. -/
theorem uninitialized_resolve (asks : m.nextMnemonic = .bit) (addr : UInt16) :
    (((Micro.resolve m.nextInstruction.mode m.nextArgument).exec m.poised).2.mem.state
      addr).uninitialized = m.staysBlank addr := by
  have straight : m.nextInstruction.mode.pointers m.nextArgument m.poised.regs = [] :=
    Instruction.pointers_of_bit asks m.nextArgument m.poised.regs
  rw [Micro.state_exec, Micro.events_resolve, straight, state_poised]
  simp [staysBlank, CellState.after]

theorem events_work :
    (Micro.ofInstruction m.nextInstruction m.nextArgument).events m.poised =
      m.pointerCells.map .load ++ m.nextMnemonic.events m.nextOperand m.regs.sp m.staysBlank := by
  by_cases undocumented : m.nextMnemonic = .undocumented
  · have rejected : m.nextInstruction = .undocumented :=
      Instruction.decode_eq_undocumented undocumented
    rw [pointerCells, undocumented, rejected]
    rfl
  · have documented : m.nextInstruction.mnemonic ≠ .undocumented := undocumented
    rw [Micro.events_ofInstruction documented, regs_poised, AddressingMode.pointers_startAt,
      AddressingMode.operand_congr m.raw_poised]
    apply congrArg (m.pointerCells.map Event.load ++ ·)
    by_cases asks : m.nextMnemonic = .bit
    · exact congrArg (m.nextMnemonic.events m.nextOperand m.regs.sp)
        (funext (m.uninitialized_resolve asks))
    · exact Mnemonic.events_congr asks m.nextOperand m.regs.sp _ _

theorem events_instructionAt :
    (Micro.instructionAt m.regs.pc).events (m.enter m.regs.pc) = m.nextEvents := by
  have begun (addr : UInt16) (n : Machine) : (Micro.setPc addr).events n = [] := rfl
  have started (addr : UInt16) (n : Machine) : (Micro.setPc addr).exec n = ((), n.startAt addr) := rfl
  have worked := m.events_work
  unfold Micro.instructionAt
  rw [Micro.events_bind, exec_fetch_next, events_fetch_next]
  dsimp only
  rw [Micro.events_bind, begun, started, nextEvents, List.append_assoc]
  rw [poised, afterNext] at worked
  rw [List.nil_append, worked]
  rfl

end

end Machine

end Mos6502
