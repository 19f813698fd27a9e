import Mos6502.CommandLine.Program
import Mos6502.Proofs.Bare.Events
import Mos6502.World.Setup

/-!
# The footprint of an instruction

What an instruction leaves alone is found in three ways. Bytes change only where it stores. The states of cells follow
from its events. And for registers and flags there are tables, which are checked against the micro-operations of each
mnemonic: no other register is set, and no other flag written, made unknown or loaded with the status.
-/

namespace Mos6502

variable {σ α : Type}

/-- Mnemonics that can work on the accumulator in place of memory. -/
def Mnemonic.isShift : Mnemonic → Bool
  | .asl | .lsr | .rol | .ror => true
  | _ => false

/-- The 8-bit registers that the work of a mnemonic sets. -/
def Mnemonic.registersSet (mnemonic : Mnemonic) (operand : Operand) : List Register :=
  match mnemonic with
  | .lda | .adc | .sbc | .and | .ora | .eor | .txa | .tya => [.a]
  | .asl | .lsr | .rol | .ror => if operand = .accumulator then [.a] else []
  | .ldx | .tax | .tsx | .inx | .dex => [.x]
  | .ldy | .tay | .iny | .dey => [.y]
  | .txs | .pha | .php | .plp | .jsr | .rts | .rti => [.sp]
  | .pla => [.a, .sp]
  | _ => []

def Flag.all : List Flag :=
  [.carry, .zero, .interruptDisable, .decimal, .brk, .unused, .overflow, .negative]

theorem Flag.mem_all (flag : Flag) : flag ∈ all := by
  cases flag <;> decide

/-- The flags that the work of a mnemonic sets. -/
def Mnemonic.flagsSet : Mnemonic → List Flag
  | .lda | .ldx | .ldy | .tax | .tay | .txa | .tya | .tsx | .and | .ora | .eor | .inc | .dec | .inx
  | .iny | .dex | .dey | .pla => [.negative, .zero]
  | .adc | .sbc => [.negative, .overflow, .zero, .carry]
  | .cmp | .cpx | .cpy | .asl | .lsr | .rol | .ror => [.negative, .zero, .carry]
  | .bit => [.negative, .overflow, .zero]
  | .clc | .sec => [.carry]
  | .cli | .sei => [.interruptDisable]
  | .cld | .sed => [.decimal]
  | .clv => [.overflow]
  | .plp | .rti => Flag.all
  | _ => []

/-- The micro-operations that set or read nothing else of registers and flags than the work of a mnemonic can. -/
def MicroOp.StaysWithin (mnemonic : Mnemonic) (operand : Operand) : MicroOp → Prop
  | .setRegister target _ => target ∈ mnemonic.registersSet operand
  | .setFlag which _ => which ∈ mnemonic.flagsSet
  | .forget mask => ∀ which, mask.get which = true → which ∈ mnemonic.flagsSet
  | .setStatus _ => ∀ which, which ∈ mnemonic.flagsSet
  | .flag which => which ∈ mnemonic.flagsRead
  | _ => True

namespace Micro

section

variable {mnemonic : Mnemonic} {operand : Operand}

theorem within_loadOperand (source : Operand) :
    (loadOperand source).Uses (MicroOp.StaysWithin mnemonic operand) := by
  cases source <;> simp [loadOperand, MicroOp.StaysWithin]

theorem within_storeOperand
    (allowed : operand = .accumulator → .a ∈ mnemonic.registersSet operand) (value : UInt8) :
    (storeOperand operand value).Uses (MicroOp.StaysWithin mnemonic operand) := by
  cases operand with
  | accumulator => simpa [storeOperand, MicroOp.StaysWithin] using allowed rfl
  | none | immediate | memory | branch => simp [storeOperand, MicroOp.StaysWithin]

theorem within_push (pointer : .sp ∈ mnemonic.registersSet operand) (value : UInt8) :
    (push value).Uses (MicroOp.StaysWithin mnemonic operand) := by
  simp [push, MicroOp.StaysWithin, pointer]

theorem within_pull (pointer : .sp ∈ mnemonic.registersSet operand) :
    pull.Uses (MicroOp.StaysWithin mnemonic operand) := by
  simp [pull, MicroOp.StaysWithin, pointer]

/-- The tables cover the work of every mnemonic, as long as only shifts work on the accumulator. -/
theorem within_ofMnemonic (apart : operand = .accumulator → mnemonic.isShift = true) :
    (ofMnemonic mnemonic operand).Uses (MicroOp.StaysWithin mnemonic operand) := by
  have loads : (loadOperand operand).Uses (MicroOp.StaysWithin mnemonic operand) :=
    within_loadOperand operand
  have stores (allowed : operand = .accumulator → .a ∈ mnemonic.registersSet operand) :=
    within_storeOperand allowed
  have pushes (pointer : .sp ∈ mnemonic.registersSet operand) := within_push pointer
  have pulls (pointer : .sp ∈ mnemonic.registersSet operand) := within_pull pointer
  cases mnemonic with
  | lda | ldx | ldy | and | ora | eor =>
    simp [ofMnemonic, loadInto, combine, setResult, setZeroNegative, loads, MicroOp.StaysWithin,
      Mnemonic.registersSet, Mnemonic.flagsSet]
  | adc | sbc | cmp | cpx | cpy =>
    simp [ofMnemonic, arithmetic, compareWith, setComparison, loads, MicroOp.StaysWithin,
      Mnemonic.registersSet, Mnemonic.flagsSet, Mnemonic.flagsRead]
  | sta | stx | sty =>
    have stores := stores fun same => absurd (apart same) Bool.false_ne_true
    simp [ofMnemonic, storeFrom, stores, MicroOp.StaysWithin]
  | inc | dec =>
    have stores := stores fun same => absurd (apart same) Bool.false_ne_true
    simp [ofMnemonic, stepOperand, modify, setZeroNegative, loads, stores, MicroOp.StaysWithin,
      Mnemonic.flagsSet]
  | asl | lsr | rol | ror =>
    have stores := stores fun same => by simp [Mnemonic.registersSet, same]
    simp [ofMnemonic, shift, rotate, modify, setShift, setZeroNegative, loads, stores,
      MicroOp.StaysWithin, Mnemonic.flagsSet, Mnemonic.flagsRead]
  | bit =>
    cases operand with
    | memory addr pageCross =>
      have masked (which : Flag) :
          Flags.get { negative := true, overflow := true, zero := true } which = true →
            which = .negative ∨ which = .overflow ∨ which = .zero := by
        cases which <;> simp [Flags.get]
      simpa [ofMnemonic, testBits, MicroOp.StaysWithin, Mnemonic.flagsSet] using fun _ => masked
    | none | accumulator | immediate | branch => trivial
  | pha | php =>
    have pushes := pushes List.mem_cons_self
    simp [ofMnemonic, pushStatus, pushes, MicroOp.StaysWithin]
  | pla =>
    have pulls := pulls (List.mem_cons_of_mem _ List.mem_cons_self)
    simp [ofMnemonic, pullAccumulator, setResult, setZeroNegative, pulls, MicroOp.StaysWithin,
      Mnemonic.registersSet, Mnemonic.flagsSet]
  | plp | rts | rti =>
    have pulls := pulls List.mem_cons_self
    simp [ofMnemonic, returnFromSubroutine, returnFromInterrupt, pullWord, pulls,
      MicroOp.StaysWithin, Mnemonic.flagsSet, Flag.mem_all]
  | jsr =>
    have pushes := pushes List.mem_cons_self
    cases operand <;>
      simp [ofMnemonic, jumpToSubroutine, pushWord, pushes, MicroOp.StaysWithin]
  | jmp => cases operand <;> simp [ofMnemonic, jump, MicroOp.StaysWithin]
  | bcc | bcs | bne | beq | bpl | bmi | bvc | bvs =>
    cases operand <;>
      simp [ofMnemonic, branchIf, takeBranch, MicroOp.StaysWithin, Mnemonic.flagsRead]
  | _ =>
    simp [ofMnemonic, stepRegister, transfer, setResult, setZeroNegative, MicroOp.StaysWithin,
      Mnemonic.registersSet, Mnemonic.flagsSet]

end

end Micro

/-- Registers and flags are the same but for what the work of a mnemonic sets. The flags that it reads become known. -/
structure Registers.SameOutside (mnemonic : Mnemonic) (operand : Operand) (before after : Registers) :
    Prop where
  register : ∀ target, target ∉ mnemonic.registersSet operand → after.get target = before.get target
  status : ∀ which, which ∉ mnemonic.flagsSet → after.status.get which = before.status.get which
  unknown : ∀ which, which ∉ mnemonic.flagsSet → which ∉ mnemonic.flagsRead →
    after.unknown.get which = before.unknown.get which

namespace Registers.SameOutside

variable {mnemonic : Mnemonic} {operand : Operand} {first second third : Registers}

theorem refl (regs : Registers) : regs.SameOutside mnemonic operand regs :=
  ⟨fun _ _ => rfl, fun _ _ => rfl, fun _ _ _ => rfl⟩

theorem trans (earlier : first.SameOutside mnemonic operand second)
    (later : second.SameOutside mnemonic operand third) : first.SameOutside mnemonic operand third where
  register target outside := (later.register target outside).trans (earlier.register target outside)
  status which outside := (later.status which outside).trans (earlier.status which outside)
  unknown which outside unread :=
    (later.unknown which outside unread).trans (earlier.unknown which outside unread)

/-- The program counter has no part in it. -/
theorem startAt (regs : Registers) (pc : UInt16) : regs.SameOutside mnemonic operand { regs with pc } := by
  refine ⟨?_, fun _ _ => rfl, fun _ _ _ => rfl⟩
  intro target _
  cases target <;> rfl

end Registers.SameOutside

theorem Registers.get_set_of_ne (regs : Registers) {target other : Register} (value : UInt8)
    (different : other ≠ target) : (regs.set target value).get other = regs.get other := by
  cases target <;> cases other <;> first | rfl | exact absurd rfl different

theorem Flags.get_union (left right : Flags) (flag : Flag) :
    (left.union right).get flag = (left.get flag || right.get flag) := by
  cases flag <;> rfl

theorem MicroOp.sameOutside_effect {mnemonic : Mnemonic} {operand : Operand} {op : MicroOp}
    (within : op.StaysWithin mnemonic operand) (m : Machine) :
    m.regs.SameOutside mnemonic operand (op.effect m).2.regs := by
  cases op with
  | fetch addr | load addr =>
    change m.regs.SameOutside mnemonic operand (m.noteRead _ _ addr).regs
    rw [m.regs_noteRead]
    exact .refl m.regs
  | store addr value =>
    change m.regs.SameOutside mnemonic operand (m.write addr value).regs
    rw [m.regs_write]
    exact .refl m.regs
  | setRegister target value =>
    refine ⟨?_, ?_, ?_⟩
    · intro other outside
      apply Registers.get_set_of_ne
      rintro rfl
      exact outside within
    · intro which _
      cases target <;> rfl
    · intro which _ _
      cases target <;> rfl
  | setFlag which value =>
    have other {flag : Flag} (outside : flag ∉ mnemonic.flagsSet) : flag ≠ which := by
      rintro rfl
      exact outside within
    refine ⟨?_, ?_, ?_⟩
    · intro target _
      cases target <;> rfl
    · intro flag outside
      exact m.regs.status.get_set_of_ne value (other outside)
    · intro flag outside _
      exact m.regs.unknown.get_set_of_ne false (other outside)
  | forget mask =>
    refine ⟨?_, fun _ _ => rfl, ?_⟩
    · intro target _
      cases target <;> rfl
    · intro which outside _
      have kept : mask.get which = false :=
        eq_false_of_ne_true fun masked => outside (within which masked)
      exact (m.regs.unknown.get_union mask which).trans (by rw [kept, Bool.or_false])
  | setStatus value =>
    refine ⟨?_, ?_, ?_⟩
    · intro target _
      cases target <;> rfl
    · intro which outside
      exact absurd (within which) outside
    · intro which outside _
      exact absurd (within which) outside
  | flag which =>
    change m.regs.SameOutside mnemonic operand (m.noteFlag which).regs
    unfold Machine.noteFlag
    split
    · refine ⟨?_, fun _ _ => rfl, ?_⟩
      · intro target _
        cases target <;> rfl
      · intro other _ unread
        apply m.regs.unknown.get_set_of_ne
        rintro rfl
        exact unread within
    · exact .refl m.regs
  | setPc addr => exact .startAt m.regs addr
  | isBlank | register | pc | status | here | raise | charge | observe => exact .refl m.regs

theorem Micro.sameOutside_exec {mnemonic : Mnemonic} {operand : Operand} {program : Micro α}
    (within : program.Uses (MicroOp.StaysWithin mnemonic operand)) (m : Machine) :
    m.regs.SameOutside mnemonic operand (program.exec m).2.regs := by
  induction program generalizing m with
  | done result => exact .refl m.regs
  | step op next inductionHypothesis =>
    obtain ⟨here, later⟩ := within
    exact (op.sameOutside_effect here m).trans (inductionHypothesis _ (later _) _)

/-- An instruction sets what its mnemonic does, and nothing on the way to it. -/
theorem Micro.sameOutside_ofInstruction {instruction : Instruction}
    (shifts : instruction.mode = .accumulator → instruction.mnemonic.isShift = true)
    (value : UInt16) (m : Machine) :
    m.regs.SameOutside instruction.mnemonic (instruction.mode.operand value m.regs m.mem)
      ((ofInstruction instruction value).exec m).2.regs := by
  by_cases undocumented : instruction.mnemonic = .undocumented
  · unfold ofInstruction
    rw [if_pos undocumented]
    exact .startAt m.regs m.current
  · have only : instruction.mode.operand value m.regs m.mem = .accumulator →
        instruction.mnemonic.isShift = true := by
      intro accumulator
      apply shifts
      generalize instruction.mode = mode at accumulator
      cases mode <;> simp [AddressingMode.operand, indexed] at accumulator ⊢
    have regs := (regs_chargeFor instruction (instruction.mode.operand value m.regs m.mem)
      ((resolve instruction.mode value).exec m).2).trans (regs_resolve instruction.mode value m)
    have worked := sameOutside_exec (within_ofMnemonic only)
      ((chargeFor instruction (instruction.mode.operand value m.regs m.mem)).exec
        ((resolve instruction.mode value).exec m).2).2
    rw [regs] at worked
    rw [ofInstruction_eq undocumented, exec_bind, exec_resolve_fst, exec_bind]
    exact worked

/-- Only shifts are decoded with the accumulator for an operand. -/
theorem Instruction.isShift_of_accumulator {opcode : UInt8}
    (accumulator : (decode opcode).mode = .accumulator) :
    (decode opcode).mnemonic.isShift = true := by
  have shifts : ∀ entry ∈ documented, entry.2.mode = .accumulator →
      entry.2.mnemonic.isShift = true := by
    decide +kernel
  exact decode_induction (P := fun instruction => instruction.mode = .accumulator →
    instruction.mnemonic.isShift = true) shifts (by decide) opcode accumulator

/-- Execution stores nothing to a write-protected cell. -/
theorem MicroOp.raw_effect_of_rom (op : MicroOp) {m : Machine} {addr : UInt16}
    (readOnly : (m.mem.state addr).rom = true) : (op.effect m).2.mem.raw addr = m.mem.raw addr := by
  by_cases targeted : op.target? = some addr
  · cases op with
    | store target value =>
      cases targeted
      refine (m.raw_write addr value addr).trans (if_neg ?_)
      rintro ⟨writable, -⟩
      rw [readOnly] at writable
      cases writable
    | _ => cases targeted
  · exact raw_effect targeted m

theorem Micro.raw_exec_of_rom (program : Micro α) {m : Machine} {addr : UInt16}
    (readOnly : (m.mem.state addr).rom = true) : (program.exec m).2.mem.raw addr = m.mem.raw addr := by
  induction program generalizing m with
  | done result => rfl
  | step op next inductionHypothesis =>
    have stillReadOnly : ((op.effect m).2.mem.state addr).rom = true := by
      rw [op.state_effect]
      exact readOnly
    rw [exec_step, inductionHypothesis _ stillReadOnly]
    exact op.raw_effect_of_rom readOnly

namespace Machine

/-- The addresses that the next instruction reads. -/
def readCells (m : Machine) : List UInt16 :=
  m.fetchedCells ++ m.pointerCells ++ m.loadedCells

/-- Whether the next instruction marks a cell as written: it does where it reads a declared cell, and where it stores to
one that is not write-protected. -/
def marks (m : Machine) (addr : UInt16) : Bool :=
  m.readCells.contains addr && !(m.mem.state addr).undefined ||
    m.storedCells.contains addr && (!(m.mem.state addr).rom && !(m.mem.state addr).undefined)

/-- What the next instruction of a machine leaves when it is worked off: bytes differ only where it stores, states of
cells only by the marks that it makes, and registers and flags only where it sets them. -/
structure Footprint (m n : Machine) : Prop where
  bytes : ∀ addr, addr ∉ m.storedCells → n.mem.raw addr = m.mem.raw addr
  states : ∀ addr, n.mem.state addr = (m.mem.state addr).after (m.marks addr)
  registers : m.regs.SameOutside m.nextMnemonic m.nextOperand n.regs
  fixture : n.fixture = (m.enter m.regs.pc).fixture

section

variable {m : Machine} (below : m.limitReached = false) (away : m.atSentinel = false)

include below away

theorem raw_window {addr : UInt16} (elsewhere : addr ∉ m.storedCells) :
    m.window.mem.raw addr = m.mem.raw addr := by
  have stores : (Micro.ofInstruction m.nextInstruction m.nextArgument).stores m.poised =
      m.storedCells := by
    rw [Micro.stores_ofInstruction, exec_resolve_poised, regs_poised]
    rfl
  rw [← stores] at elsewhere
  rw [window_of_going below away, Micro.raw_exec elsewhere, raw_poised]

theorem state_window (addr : UInt16) :
    m.window.mem.state addr = (m.mem.state addr).after (m.marks addr) := by
  have silent : (m.nextMnemonic.flagsRead.map .flag).any (Event.marks (m.mem.state addr) addr) = false ∧
      (m.nextMnemonic.raises?.toList.map .raise).any (Event.marks (m.mem.state addr) addr) = false := by
    simp [Event.marks]
  have read : m.readCells.contains addr = (m.fetchedCells.contains addr ||
      m.pointerCells.contains addr || m.loadedCells.contains addr) := by
    simp [readCells, Bool.or_assoc]
  rw [window_of_instruction below away, Micro.state_exec, m.events_instructionAt, mem_enter]
  apply congrArg
  unfold nextEvents marks
  simp only [List.any_append, Event.any_marks_fetch, Event.any_marks_load, Event.any_marks_store,
    silent, read, Bool.and_or_distrib_right, Bool.or_assoc, Bool.or_false]

theorem sameOutside_window : m.regs.SameOutside m.nextMnemonic m.nextOperand m.window.regs := by
  have poised : m.regs.SameOutside m.nextMnemonic m.nextOperand m.poised.regs := by
    rw [regs_poised]
    exact .startAt m.regs m.afterNext
  have shifts : m.nextInstruction.mode = .accumulator → m.nextInstruction.mnemonic.isShift = true :=
    Instruction.isShift_of_accumulator
  have worked := Micro.sameOutside_ofInstruction shifts m.nextArgument m.poised
  rw [operand_poised, ← window_of_going below away] at worked
  exact poised.trans worked

theorem footprint_window : m.Footprint m.window where
  bytes _ elsewhere := raw_window below away elsewhere
  states := state_window below away
  registers := sameOutside_window below away
  fixture := m.fixture_window

end

end Machine

namespace World

/-- A window that works off an instruction without hooks leaves everything alone but the footprint of the instruction. -/
theorem window_footprint (host : Host σ) {w : World σ} (free : w.machine.HookFree)
    (below : w.machine.limitReached = false) (away : w.machine.atSentinel = false) :
    w.machine.Footprint (w.window host).machine := by
  rw [window_bare host free]
  exact Machine.footprint_window below away

/-- Counts up a cell that nobody has written. -/
def countBlank : World Unit :=
  ((ofSettings { memSize := 8 } {} ()).mapMem (·.declareData 0 [0xE6, 0x06])).mapMem
    (·.declareRam 6 1 false)

theorem countBlank_footprint :
    countBlank.machine.HookFree ∧ countBlank.machine.limitReached = false ∧
      countBlank.machine.atSentinel = false ∧
      countBlank.machine.Footprint (countBlank.window CommandLine.hooklessHost).machine ∧
      countBlank.machine.storedCells = [6] ∧
      (countBlank.window CommandLine.hooklessHost).machine.mem.raw 6 = 1 := by
  have free : countBlank.machine.HookFree := rfl
  have below : countBlank.machine.limitReached = false := by decide +kernel
  have away : countBlank.machine.atSentinel = false := by decide +kernel
  refine ⟨free, below, away, window_footprint CommandLine.hooklessHost free below away, ?_, ?_⟩
  · decide +kernel
  · decide +kernel

end World

end Mos6502
