import Mos6502.CommandLine.Program
import Mos6502.Proofs.InstructionTable
import Mos6502.Proofs.Lockstep
import Mos6502.World.Setup

/-!
# Flags that nothing has established

The stored value of an unknown flag reaches a program through a test of the flag, and such a test is reported. PHP
alone takes the stored status as a whole, without a test. So two strict machines that differ in unknown flags alone
go on alike, or stop with the same fault, unless they come to a PHP that lays the difference down on the stack.
-/

namespace Mos6502

variable {σ α : Type}

namespace Registers

/-- A status that agrees with the stored one on all known flags. -/
def KnownAs (regs : Registers) (status : Flags) : Prop :=
  ∀ flag, regs.unknown.get flag = false → status.get flag = regs.status.get flag

theorem KnownAs.setFlag {regs : Registers} {status : Flags} (known : regs.KnownAs status)
    (flag : Flag) (value : Bool) :
    (regs.setFlag flag value).KnownAs (status.set flag value) := by
  intro other knownAfter
  by_cases same : other = flag
  · subst same
    simp [Registers.setFlag]
  · simp only [Registers.setFlag] at knownAfter ⊢
    rw [Flags.get_set_of_ne _ _ same] at knownAfter ⊢
    rw [Flags.get_set_of_ne _ _ same]
    exact known other knownAfter

theorem KnownAs.forget {regs : Registers} {status : Flags} (known : regs.KnownAs status)
    (mask : Flags) : (regs.forget mask).KnownAs status := by
  intro flag knownAfter
  refine known flag ?_
  change (regs.unknown.union mask).get flag = false at knownAfter
  cases flag <;> exact (Bool.or_eq_false_iff.mp knownAfter).1

end Registers

namespace Machine

def withStatus (status : Flags) (m : Machine) : Machine :=
  m.mapRegs fun regs => { regs with status }

/-- Machines that differ only in the stored values of unknown flags. -/
def SameKnown (m n : Machine) : Prop :=
  ∃ status, m.regs.KnownAs status ∧ n = m.withStatus status

/-- The next window is a PHP that raises nothing: it is fetched from a declared and written cell, and the cell
that it pushes to takes the byte. -/
structure PushesStatus (m : Machine) : Prop where
  empty : m.slot = {}
  belowLimit : m.limitReached = false
  awayFromSentinel : m.atSentinel = false
  declared : (m.mem.state m.regs.pc).undefined = false
  written : (m.mem.state m.regs.pc).uninitialized = false
  php : m.nextMnemonic = .php
  writable : (m.mem.state (Micro.stackAddress m.regs.sp)).rom = false
  stacked : (m.mem.state (Micro.stackAddress m.regs.sp)).undefined = false

/-- Two machines that are about to push different status bytes. -/
structure Leak (m n : Machine) : Prop where
  pushes : m.PushesStatus
  different : m.regs.status.union .alwaysSet ≠ n.regs.status.union .alwaysSet

variable {m n : Machine}

theorem paired_sameKnown : Paired SameKnown where
  strict := by
    rintro m n ⟨status, known, rfl⟩ strict
    exact ⟨strict.free, strict.full⟩
  pc := by
    rintro m n ⟨status, known, rfl⟩
    rfl
  slot := by
    rintro m n ⟨status, known, rfl⟩
    rfl
  limitReached := by
    rintro m n ⟨status, known, rfl⟩
    rfl
  atSentinel := by
    rintro m n ⟨status, known, rfl⟩
    rfl
  enter := by
    rintro m n pc ⟨status, known, rfl⟩
    exact ⟨status, known, rfl⟩
  settle := by
    rintro m n ⟨status, known, rfl⟩
    exact ⟨status, known, rfl⟩

/-- What does not look at the status and leaves it alone keeps the relation. -/
theorem SameKnown.of_commutes (same : m.SameKnown n) (change : Machine → Machine)
    (unknown : (change m).regs.unknown = m.regs.unknown)
    (stored : (change m).regs.status = m.regs.status)
    (commutes : ∀ status, change (m.withStatus status) = (change m).withStatus status) :
    (change m).SameKnown (change n) := by
  obtain ⟨status, known, rfl⟩ := same
  refine ⟨status, ?_, commutes status⟩
  intro flag knownAfter
  rw [unknown] at knownAfter
  rw [stored]
  exact known flag knownAfter

theorem SameKnown.mem_eq (same : m.SameKnown n) : n.mem = m.mem := by
  obtain ⟨status, known, rfl⟩ := same
  rfl

theorem SameKnown.sp_eq (same : m.SameKnown n) : n.regs.sp = m.regs.sp := by
  obtain ⟨status, known, rfl⟩ := same
  rfl

theorem SameKnown.raise (same : m.SameKnown n) (kind : FaultKind) (addr : UInt16) :
    (m.raise kind addr).SameKnown (n.raise kind addr) :=
  same.of_commutes (Machine.raise kind addr) rfl rfl fun _ => rfl

theorem SameKnown.mapMem (same : m.SameKnown n) (change : Memory → Memory) :
    (m.mapMem change).SameKnown (n.mapMem change) :=
  same.of_commutes (Machine.mapMem change) rfl rfl fun _ => rfl

theorem SameKnown.noteRead (same : m.SameKnown n) (undefined uninitialized : FaultKind)
    (addr : UInt16) :
    (m.noteRead undefined uninitialized addr).SameKnown
      (n.noteRead undefined uninitialized addr) := by
  have memories := same.mem_eq
  cases undeclared : (m.mem.state addr).undefined with
  | true =>
    rw [noteRead_of_undefined undeclared, noteRead_of_undefined (memories ▸ undeclared)]
    exact same.raise undefined addr
  | false =>
    cases blank : (m.mem.state addr).uninitialized with
    | true =>
      rw [noteRead_of_uninitialized undeclared blank,
        noteRead_of_uninitialized (memories ▸ undeclared) (memories ▸ blank)]
      exact (same.raise uninitialized addr).mapMem _
    | false =>
      rw [noteRead_of_readable undeclared blank,
        noteRead_of_readable (memories ▸ undeclared) (memories ▸ blank)]
      exact same

theorem SameKnown.write (same : m.SameKnown n) (addr : UInt16) (value : UInt8) :
    (m.write addr value).SameKnown (n.write addr value) := by
  have memories := same.mem_eq
  cases readOnly : (m.mem.state addr).rom with
  | true =>
    rw [write_of_rom readOnly, write_of_rom (memories ▸ readOnly)]
    exact same.raise .writeRom addr
  | false =>
    cases undeclared : (m.mem.state addr).undefined with
    | true =>
      rw [write_of_undefined readOnly undeclared,
        write_of_undefined (memories ▸ readOnly) (memories ▸ undeclared)]
      exact same.raise .writeUndefined addr
    | false =>
      rw [write_of_writable readOnly undeclared,
        write_of_writable (memories ▸ readOnly) (memories ▸ undeclared)]
      exact same.mapMem _

theorem SameKnown.setRegister (same : m.SameKnown n) (target : Register) (value : UInt8) :
    (m.mapRegs (·.set target value)).SameKnown (n.mapRegs (·.set target value)) := by
  refine same.of_commutes (Machine.mapRegs (·.set target value)) ?_ ?_ ?_
  · cases target <;> rfl
  · cases target <;> rfl
  · intro status
    cases target <;> rfl

theorem SameKnown.startAt (same : m.SameKnown n) (addr : UInt16) :
    (m.startAt addr).SameKnown (n.startAt addr) :=
  same.of_commutes (Machine.startAt addr) rfl rfl fun _ => rfl

theorem SameKnown.charge (same : m.SameKnown n) (cycles : UInt64) :
    SameKnown { m with cycles := m.cycles + cycles } { n with cycles := n.cycles + cycles } :=
  same.of_commutes (fun m => { m with cycles := m.cycles + cycles }) rfl rfl fun _ => rfl

/-- A test of a flag gives the same value on both sides or reports the same fault. -/
theorem SameKnown.noteFlag (same : m.SameKnown n) (flag : Flag) :
    Lockstep SameKnown (m.regs.status.get flag, m.noteFlag flag)
      (n.regs.status.get flag, n.noteFlag flag) := by
  have related := same
  obtain ⟨status, known, rfl⟩ := same
  have marks : (m.withStatus status).regs.unknown = m.regs.unknown := rfl
  unfold Machine.noteFlag
  rw [marks]
  by_cases unknown : m.regs.unknown.get flag = true
  · right
    rw [if_pos unknown, if_pos unknown]
    exact shareFault_raise (n := m.withStatus status) rfl .readUninitialized m.current
  · left
    rw [if_neg unknown, if_neg unknown]
    exact ⟨(known flag (eq_false_of_ne_true unknown)).symm, related⟩

end Machine

/-- Every micro-operation but the one that takes the whole status runs in lockstep on machines that differ in
unknown flags only. -/
theorem MicroOp.lockstep_sameKnown (op : MicroOp) {m n : Machine} (checked : op ≠ .status)
    (same : m.SameKnown n) : Lockstep Machine.SameKnown (op.effect m) (op.effect n) := by
  cases op with
  | status => exact absurd rfl checked
  | fetch addr =>
    refine .inl ⟨?_, same.noteRead .executeUndefined .executeUninitialized addr⟩
    obtain ⟨status, known, rfl⟩ := same
    rfl
  | load addr =>
    refine .inl ⟨?_, same.noteRead .readUndefined .readUninitialized addr⟩
    obtain ⟨status, known, rfl⟩ := same
    rfl
  | store addr value => exact .inl ⟨rfl, same.write addr value⟩
  | flag which => exact same.noteFlag which
  | register source =>
    refine .inl ⟨?_, same⟩
    obtain ⟨status, known, rfl⟩ := same
    cases source <;> rfl
  | isBlank | pc | here =>
    refine .inl ⟨?_, same⟩
    obtain ⟨status, known, rfl⟩ := same
    rfl
  | setRegister target value => exact .inl ⟨rfl, same.setRegister target value⟩
  | setPc addr => exact .inl ⟨rfl, same.startAt addr⟩
  | setFlag which value =>
    obtain ⟨status, known, rfl⟩ := same
    exact .inl ⟨rfl, status.set which value, known.setFlag which value, rfl⟩
  | forget mask =>
    obtain ⟨status, known, rfl⟩ := same
    exact .inl ⟨rfl, status, known.forget mask, rfl⟩
  | setStatus value =>
    obtain ⟨status, known, rfl⟩ := same
    exact .inl ⟨rfl, _, fun _ _ => rfl, rfl⟩
  | raise kind =>
    refine .inl ⟨rfl, ?_⟩
    obtain ⟨status, known, rfl⟩ := same
    exact ⟨status, known, rfl⟩
  | charge cycles => exact .inl ⟨rfl, same.charge (UInt64.ofNat cycles)⟩
  | observe observation => exact .inl ⟨rfl, same⟩

namespace Micro

/-- A program never takes the whole status. -/
def Guarded (program : Micro α) : Prop :=
  program.Uses (· ≠ .status)

theorem guarded_fetchInstruction (addr : UInt16) : (fetchInstruction addr).Guarded := by
  apply (common_fetchInstruction addr).imp
  rintro op common rfl
  exact common

theorem guarded_ofInstruction {instruction : Instruction} (other : instruction.mnemonic ≠ .php)
    (value : UInt16) : (ofInstruction instruction value).Guarded := by
  apply (uses_ofInstruction instruction value).imp
  rintro op part rfl
  rcases part with works | crosses | ⟨-, here | raises⟩
  · exact other works
  · cases crosses
  · cases here
  · cases raises

theorem Guarded.lockstep {program : Micro α} (guarded : program.Guarded) {m n : Machine}
    (same : m.SameKnown n) : Lockstep Machine.SameKnown (program.exec m) (program.exec n) :=
  lockstep_exec (fun op _ _ checked same => op.lockstep_sameKnown checked same) guarded same

/-- Any instruction but PHP runs in lockstep. -/
theorem lockstep_instructionAt (pc : UInt16) {m n : Machine} (same : m.SameKnown n)
    (other : (Instruction.decode (m.mem.raw pc)).mnemonic ≠ .php) :
    Lockstep Machine.SameKnown ((instructionAt pc).exec m) ((instructionAt pc).exec n) := by
  have described := exec_fetchInstruction_fst pc m
  rw [← described] at other
  have fetched := (guarded_fetchInstruction pc).lockstep same
  rw [exec_instructionAt, exec_instructionAt]
  generalize (fetchInstruction pc).exec m = left at other fetched
  generalize (fetchInstruction pc).exec n = right at fetched
  rcases fetched with ⟨answers, kept⟩ | shared
  · rw [← answers]
    exact (guarded_ofInstruction other left.1.2).lockstep (kept.startAt _)
  · right
    obtain ⟨fault, heldLeft, heldRight⟩ := shared
    exact ⟨fault, slot_exec_of_some _ heldLeft, slot_exec_of_some _ heldRight⟩

theorem exec_pushStatus (m : Machine) :
    (pushStatus.exec m).2 =
      (m.write (stackAddress m.regs.sp) (m.regs.status.union .alwaysSet).toByte).mapRegs
        fun regs => regs.set .sp (regs.sp - 1) := by
  simp only [pushStatus, push, exec_bind, exec_status, exec_register, exec_store, exec_setRegister]
  rfl

end Micro

namespace Machine

variable {m n : Machine}

/-- The machine when a PHP at an address is fetched and charged for, before it pushes. -/
def beforePush (pc : UInt16) (m : Machine) : Machine :=
  let fetched := (m.noteRead .executeUndefined .executeUninitialized pc).startAt (pc + 1)
  { fetched with cycles := fetched.cycles + 3 }

theorem exec_instructionAt_of_php {pc : UInt16}
    (php : (Instruction.decode (m.mem.raw pc)).mnemonic = .php) :
    ((Micro.instructionAt pc).exec m).2 = (Micro.pushStatus.exec (m.beforePush pc)).2 := by
  have described := Instruction.decode_eq_php php
  rw [Micro.exec_instructionAt, Micro.exec_fetchInstruction_of_single described rfl]
  rfl

theorem SameKnown.beforePush (same : m.SameKnown n) (pc : UInt16) :
    (m.beforePush pc).SameKnown (n.beforePush pc) :=
  ((same.noteRead .executeUndefined .executeUninitialized pc).startAt (pc + 1)).charge 3

theorem SameKnown.lowerStack (same : m.SameKnown n) :
    (m.mapRegs fun regs => regs.set .sp (regs.sp - 1)).SameKnown
      (n.mapRegs fun regs => regs.set .sp (regs.sp - 1)) :=
  same.of_commutes (Machine.mapRegs fun regs => regs.set .sp (regs.sp - 1)) rfl rfl fun _ => rfl

/-- Pushing the status keeps the relation where it pushes one byte on both sides, or is reported. -/
theorem SameKnown.pushStatus (same : m.SameKnown n)
    (harmless : m.slot = {} → (m.mem.state (Micro.stackAddress m.regs.sp)).rom = false →
      (m.mem.state (Micro.stackAddress m.regs.sp)).undefined = false →
      m.regs.status.union .alwaysSet = n.regs.status.union .alwaysSet) :
    Lockstep SameKnown (Micro.pushStatus.exec m) (Micro.pushStatus.exec n) := by
  have slots := paired_sameKnown.slot same
  have memories := same.mem_eq
  by_cases equal : m.regs.status.union .alwaysSet = n.regs.status.union .alwaysSet
  · left
    refine ⟨rfl, ?_⟩
    rw [Micro.exec_pushStatus, Micro.exec_pushStatus, same.sp_eq, ← equal]
    exact (same.write _ _).lowerStack
  · right
    cases held : m.slot.fault with
    | some fault =>
      have heldRight : n.slot.fault = some fault := slots ▸ held
      exact ⟨fault, Micro.slot_exec_of_some _ held, Micro.slot_exec_of_some _ heldRight⟩
    | none =>
      have empty : m.slot = {} := by
        rw [← held]
      rw [Micro.exec_pushStatus, Micro.exec_pushStatus, same.sp_eq]
      cases readOnly : (m.mem.state (Micro.stackAddress m.regs.sp)).rom with
      | true =>
        rw [write_of_rom readOnly, write_of_rom (memories ▸ readOnly)]
        exact shareFault_raise slots .writeRom _
      | false =>
        cases undeclared : (m.mem.state (Micro.stackAddress m.regs.sp)).undefined with
        | true =>
          rw [write_of_undefined readOnly undeclared,
            write_of_undefined (memories ▸ readOnly) (memories ▸ undeclared)]
          exact shareFault_raise slots .writeUndefined _
        | false => exact absurd (harmless empty readOnly undeclared) equal

/-- A PHP that is fetched without a fault comes from a declared and written cell. Before it pushes, the machine
has changed in its program counter and its cycles. -/
theorem beforePush_of_readable {pc : UInt16} (declared : (m.mem.state pc).undefined = false)
    (written : (m.mem.state pc).uninitialized = false) :
    m.beforePush pc = { m.startAt (pc + 1) with cycles := m.cycles + 3 } := by
  rw [beforePush, noteRead_of_readable declared written]
  rfl

/-- Where no flag leaks, a fetched PHP keeps the relation, or is reported. -/
theorem SameKnown.lockstep_php (same : m.SameKnown n) (below : m.limitReached = false)
    (away : m.atSentinel = false)
    (php : m.nextMnemonic = .php) (tight : ¬m.Leak n) :
    Lockstep SameKnown (Micro.pushStatus.exec ((m.enter m.regs.pc).beforePush m.regs.pc))
      (Micro.pushStatus.exec ((n.enter m.regs.pc).beforePush m.regs.pc)) := by
  have entered := paired_sameKnown.enter m.regs.pc same
  refine (entered.beforePush m.regs.pc).pushStatus ?_
  intro empty writable stacked
  have fetchedEmpty : ((m.enter m.regs.pc).noteRead .executeUndefined .executeUninitialized
      m.regs.pc).slot = {} := empty
  obtain ⟨declared, written⟩ := readable_of_noteRead fetchedEmpty
  have memories : (n.enter m.regs.pc).mem = (m.enter m.regs.pc).mem := entered.mem_eq
  rw [beforePush_of_readable declared written] at empty writable stacked ⊢
  rw [beforePush_of_readable (memories ▸ declared) (memories ▸ written)]
  -- All that a leak needs is there but different bytes, so the bytes are the same.
  refine Decidable.byContradiction ?_
  intro different
  refine tight ⟨?_, different⟩
  exact {
    empty := empty
    belowLimit := below
    awayFromSentinel := away
    declared := declared
    written := written
    php := php
    writable := writable
    stacked := stacked }

/-- Machines that differ in unknown flags only step alike unless one of the flags leaks. -/
theorem SameKnown.stepAlike (same : m.SameKnown n) (strict : m.Strict) (tight : ¬m.Leak n) :
    StepAlike SameKnown m n := by
  refine stepAlike_of_lockstep paired_sameKnown strict same ?_
  intro below away
  by_cases php : m.nextMnemonic = .php
  · have phpLeft : (Instruction.decode ((m.enter m.regs.pc).mem.raw m.regs.pc)).mnemonic = .php :=
      php
    have phpRight : (Instruction.decode ((n.enter m.regs.pc).mem.raw m.regs.pc)).mnemonic = .php := by
      change (Instruction.decode (n.mem.raw m.regs.pc)).mnemonic = .php
      rw [same.mem_eq]
      exact php
    unfold Lockstep
    rw [exec_instructionAt_of_php phpLeft, exec_instructionAt_of_php phpRight]
    rcases same.lockstep_php below away php tight with ⟨-, kept⟩ | shared
    · exact .inl ⟨Subsingleton.elim _ _, kept⟩
    · exact .inr shared
  · exact Micro.lockstep_instructionAt m.regs.pc (paired_sameKnown.enter m.regs.pc same) php

theorem PushesStatus.of_sameKnown (pushes : m.PushesStatus) (same : m.SameKnown n) :
    n.PushesStatus := by
  obtain ⟨status, known, rfl⟩ := same
  exact ⟨pushes.empty, pushes.belowLimit, pushes.awayFromSentinel, pushes.declared, pushes.written,
    pushes.php, pushes.writable, pushes.stacked⟩

/-- The window of a PHP that raises nothing stores the status on the stack. -/
theorem PushesStatus.window (pushes : m.PushesStatus) :
    m.window.slot = {} ∧
      m.window.mem.raw (Micro.stackAddress m.regs.sp) =
        (m.regs.status.union .alwaysSet).toByte := by
  have php : (Instruction.decode ((m.enter m.regs.pc).mem.raw m.regs.pc)).mnemonic = .php :=
    pushes.php
  have before := beforePush_of_readable (m := m.enter m.regs.pc) pushes.declared pushes.written
  have writable : (((m.enter m.regs.pc).beforePush m.regs.pc).mem.state
      (Micro.stackAddress ((m.enter m.regs.pc).beforePush m.regs.pc).regs.sp)).rom = false := by
    rw [before]
    exact pushes.writable
  have stacked : (((m.enter m.regs.pc).beforePush m.regs.pc).mem.state
      (Micro.stackAddress ((m.enter m.regs.pc).beforePush m.regs.pc).regs.sp)).undefined = false := by
    rw [before]
    exact pushes.stacked
  rw [window_of_instruction pushes.belowLimit pushes.awayFromSentinel, exec_instructionAt_of_php php,
    Micro.exec_pushStatus, write_of_writable writable stacked, before]
  exact ⟨pushes.empty, Memory.raw_markInitialized_store pushes.stacked _⟩

/-- Machines that are about to push different status bytes go apart without a fault. -/
theorem Leak.not_stepAlike (leak : m.Leak n) (same : m.SameKnown n) :
    ¬StepAlike SameKnown m n := by
  obtain ⟨slotLeft, pushedLeft⟩ := leak.pushes.window
  obtain ⟨-, pushedRight⟩ := (leak.pushes.of_sameKnown same).window
  rintro (⟨-, -, status, known, after⟩ | ⟨fault, stopped, -⟩)
  · have memories : n.step.2.mem = m.step.2.mem := by
      rw [after]
      rfl
    change n.window.mem = m.window.mem at memories
    rw [memories, same.sp_eq, pushedLeft] at pushedRight
    have equal := congrArg Flags.ofByte pushedRight
    rw [Flags.ofByte_toByte, Flags.ofByte_toByte] at equal
    exact leak.different equal
  · simp [step, settle, slotLeft] at stopped

end Machine

namespace World

/-- Strict machines that differ only in unknown flags stay so, or stop in the same window with the same fault,
exactly if no PHP on the way pushes the difference. -/
theorem together_iff_no_leak (host : Host σ) {v w : World σ} (strict : v.machine.Strict)
    (same : v.machine.SameKnown w.machine) :
    (∀ count, Together Machine.SameKnown host count v w) ↔
      ∀ count v' w', v.steps host count = (none, v') → w.steps host count = (none, w') →
        ¬v'.machine.Leak w'.machine := by
  constructor
  · intro together count v' w' left right leak
    obtain ⟨related, alike⟩ :=
      stepAlike_of_together Machine.paired_sameKnown host strict together left right
    exact leak.not_stepAlike related alike
  · intro tight
    refine together_of_stepAlike Machine.paired_sameKnown host strict same ?_
    intro count v' w' left right strictLeft kept
    exact kept.stepAlike strictLeft (tight count v' w' left right)

/-- A run that stops before it comes to a PHP leaks nothing. -/
theorem no_leak_of_stopped (host : Host σ) {v w : World σ} {bound : Nat} {fault : Fault}
    (stopped : (v.steps host bound).1 = some fault)
    (others : ∀ count < bound, (v.steps host count).2.machine.nextMnemonic ≠ .php) (count : Nat)
    (v' w' : World σ) (left : v.steps host count = (none, v'))
    (_ : w.steps host count = (none, w')) : ¬v'.machine.Leak w'.machine := by
  intro leak
  rcases Nat.lt_or_ge count bound with early | late
  · have other := others count early
    rw [left] at other
    exact other leak.pushes.php
  · obtain ⟨rest, rfl⟩ := Nat.exists_eq_add_of_le late
    rw [← steps_add_of_stopped host stopped rest, left] at stopped
    exact absurd stopped (Option.some_ne_none fault).symm

/-- A program at address zero, and a stack that takes one byte. -/
def withStack (program : List UInt8) : World Unit :=
  ((ofSettings { memSize := 0x101, level := .full } {} ()).mapMem fun mem =>
    (mem.declareData 0 program).declareRam 0x100 1 true).mapRegs (·.set .sp 0)

def withCarry (w : World σ) : World σ :=
  w.mapRegs fun regs => { regs with status := regs.status.set .carry true }

theorem sameKnown_withCarry {w : World σ} (unknown : w.machine.regs.unknown.get .carry = true) :
    w.machine.SameKnown w.withCarry.machine := by
  refine ⟨w.machine.regs.status.set .carry true, ?_, rfl⟩
  intro flag known
  refine Flags.get_set_of_ne _ _ ?_
  rintro rfl
  rw [unknown] at known
  exact Bool.noConfusion known

/-- CLC makes the carry known before BRK stops both runs. -/
theorem clearedCarry_together :
    (withStack [0x18, 0x00]).machine.Strict ∧
      ∀ count, Together Machine.SameKnown CommandLine.hooklessHost count (withStack [0x18, 0x00])
        (withStack [0x18, 0x00]).withCarry := by
  have strict : (withStack [0x18, 0x00]).machine.Strict := ⟨rfl, rfl⟩
  have stopped : ((withStack [0x18, 0x00]).steps CommandLine.hooklessHost 2).1 =
      some ⟨.brk, 1⟩ := by
    decide +kernel
  have others : ∀ count < 2, ((withStack [0x18, 0x00]).steps CommandLine.hooklessHost
      count).2.machine.nextMnemonic ≠ .php := by
    decide +kernel
  exact ⟨strict, (together_iff_no_leak CommandLine.hooklessHost strict
    (sameKnown_withCarry rfl)).mpr (no_leak_of_stopped CommandLine.hooklessHost stopped others)⟩

/-- PHP pushes the carry that nothing has established. -/
theorem pushedCarry_apart :
    (withStack [0x08]).machine.Strict ∧
      (withStack [0x08]).machine.SameKnown (withStack [0x08]).withCarry.machine ∧
      ¬∀ count, Together Machine.SameKnown CommandLine.hooklessHost count (withStack [0x08])
        (withStack [0x08]).withCarry := by
  have strict : (withStack [0x08]).machine.Strict := ⟨rfl, rfl⟩
  have pushes : (withStack [0x08]).machine.PushesStatus := by
    constructor <;> decide +kernel
  have leak : (withStack [0x08]).machine.Leak (withStack [0x08]).withCarry.machine :=
    ⟨pushes, by decide +kernel⟩
  have left : (withStack [0x08]).steps CommandLine.hooklessHost 0 = (none, withStack [0x08]) := rfl
  have right : (withStack [0x08]).withCarry.steps CommandLine.hooklessHost 0 =
      (none, (withStack [0x08]).withCarry) := rfl
  refine ⟨strict, sameKnown_withCarry rfl, ?_⟩
  intro together
  obtain ⟨related, alike⟩ := stepAlike_of_together Machine.paired_sameKnown
    CommandLine.hooklessHost strict together left right
  exact leak.not_stepAlike related alike

end World

end Mos6502
