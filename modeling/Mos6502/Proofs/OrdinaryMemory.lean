import Mos6502.CommandLine.Program
import Mos6502.Proofs.Bare.Operation
import Mos6502.Proofs.Cellwise
import Mos6502.Proofs.FaultHistory
import Mos6502.Proofs.MemoryInvariant
import Mos6502.Proofs.Microcode
import Mos6502.Proofs.Policy
import Mos6502.World.Setup

/-!
# Machines with ordinary memory

Where all of the address space is plain RAM and every flag is known, execution keeps it so, and there is nothing to
report of memory or flags. The faults that remain are of kinds that stop a run at every level, so that the level has no
influence at all.
-/

namespace Mos6502

variable {σ τ α β : Type}

/-- Declaring all of memory as zeroed RAM makes it plain. -/
theorem Memory.state_declareRam_zeroed {mem : Memory} (size : mem.size = Memory.maxSize)
    (unmarked : ∀ addr, (mem.state addr).hooked = false) (addr : UInt16) :
    (mem.declareRam 0 Memory.maxSize true).state addr = {} := by
  have inside : addr.toNat < mem.size := by
    rw [size]
    exact addr.toNat_lt
  have covered : 0 ≤ addr.toNat ∧ addr.toNat < 0 + mem.clip 0 Memory.maxSize := by
    unfold Memory.clip
    omega
  obtain ⟨cell, found⟩ : ∃ cell, mem.cell? addr = some cell := ⟨_, Array.getElem?_eq_getElem inside⟩
  have declared : (mem.declareRam 0 Memory.maxSize true).cell? addr = some cell.asZeroed := by
    have changed := mem.cell?_changeRange mem.hooks Cell.asZeroed 0 (mem.clip 0 Memory.maxSize) addr
    rw [found, Option.map_some, if_pos covered] at changed
    exact changed
  have unhooked : cell.state.hooked = false := by
    rw [← Memory.state_of_cell? found, unmarked]
  rw [Memory.state_of_cell? declared, Cell.asZeroed, unhooked]

/-- No hooks, plain RAM at all addresses, and no unknown flags. -/
structure Machine.Ordinary (m : Machine) : Prop where
  free : m.HookFree
  size : m.mem.size = Memory.maxSize
  plain (addr : UInt16) : m.mem.state addr = {}
  known : m.regs.unknown = {}

/-- The kinds of fault that a program comes to whatever memory and flags are like. -/
def FaultKind.ofProgram : List FaultKind :=
  [.brk, .illegal, .callReturn, .cycleLimit]

theorem FaultKind.brk_mem_ofProgram : .brk ∈ ofProgram := by decide

theorem FaultKind.illegal_mem_ofProgram : .illegal ∈ ofProgram := by decide

theorem FaultKind.isUnconditional_of_mem_ofProgram {kind : FaultKind} (member : kind ∈ ofProgram) :
    kind.isUnconditional = true := by
  revert member
  cases kind <;> decide

/-- A fault of one of the kinds is raised. -/
def SlotEvent.Among (kinds : List FaultKind) (event : SlotEvent) : Prop :=
  ∃ fault : Fault, event = .raised fault ∧ fault.kind ∈ kinds

theorem SlotEvent.forall_among_raised {kinds : List FaultKind} {kind : FaultKind}
    (member : kind ∈ kinds) (addr : UInt16) :
    ∀ event ∈ [SlotEvent.raised ⟨kind, addr⟩], event.Among kinds := by
  intro event single
  exact ⟨_, List.mem_singleton.mp single, member⟩

/-- A micro-operation that makes no flag unknown, and raises no faults of its own accord but those of the kinds. -/
def MicroOp.Calm (kinds : List FaultKind) : MicroOp → Prop
  | .forget _ => False
  | .raise kind => kind ∈ kinds
  | _ => True

namespace Machine.Ordinary

variable {m : Machine}

theorem noteRead (ordinary : m.Ordinary) (undefined uninitialized : FaultKind) (addr : UInt16) :
    m.noteRead undefined uninitialized addr = m := by
  apply noteRead_of_readable
  · rw [ordinary.plain]
  · rw [ordinary.plain]

theorem unknown_get (ordinary : m.Ordinary) (flag : Flag) : m.regs.unknown.get flag = false := by
  rw [ordinary.known]
  cases flag <;> rfl

theorem noteFlag (ordinary : m.Ordinary) (flag : Flag) : m.noteFlag flag = m := by
  simp [Machine.noteFlag, ordinary.unknown_get]

theorem write (ordinary : m.Ordinary) (addr : UInt16) (value : UInt8) :
    m.write addr value = m.put addr value := by
  apply write_of_writable
  · rw [ordinary.plain]
  · rw [ordinary.plain]

theorem put (ordinary : m.Ordinary) (addr : UInt16) (value : UInt8) : (m.put addr value).Ordinary where
  free := ordinary.free
  size := (congrArg Fixture.size (m.fixture_put addr value)).trans ordinary.size
  plain other := by
    change ((m.mem.store addr value).markInitialized addr).state other = {}
    rw [Memory.markInitialized_store, Memory.state_modify, ordinary.plain other]
    intro cell found
    have plain : cell.state = {} := by
      rw [← Memory.state_of_cell? found, ordinary.plain]
    change { cell.state with uninitialized := false } = cell.state
    rw [plain]
  known := ordinary.known

theorem mapRegs (ordinary : m.Ordinary) (change : Registers → Registers)
    (known : (change m.regs).unknown = {}) : (m.mapRegs change).Ordinary :=
  ⟨ordinary.free, ordinary.size, ordinary.plain, known⟩

theorem raise (ordinary : m.Ordinary) (kind : FaultKind) (addr : UInt16) :
    (m.raise kind addr).Ordinary :=
  ⟨ordinary.free, ordinary.size, ordinary.plain, ordinary.known⟩

theorem enter (ordinary : m.Ordinary) (pc : UInt16) : (m.enter pc).Ordinary :=
  ⟨ordinary.free, ordinary.size, ordinary.plain, ordinary.known⟩

theorem startAt (ordinary : m.Ordinary) (addr : UInt16) : (m.startAt addr).Ordinary :=
  ordinary.mapRegs _ ordinary.known

theorem settle (ordinary : m.Ordinary) : m.settle.2.Ordinary :=
  ⟨ordinary.free, ordinary.size, ordinary.plain, ordinary.known⟩

/-- What calm micro-operations do keeps memory and flags ordinary. -/
theorem effect {kinds : List FaultKind} {op : MicroOp} (calm : op.Calm kinds) (ordinary : m.Ordinary) :
    (op.effect m).2.Ordinary := by
  cases op with
  | fetch addr =>
    change (m.noteRead _ _ addr).Ordinary
    rwa [ordinary.noteRead]
  | load addr =>
    change (m.noteRead _ _ addr).Ordinary
    rwa [ordinary.noteRead]
  | store addr value =>
    change (m.write addr value).Ordinary
    rw [ordinary.write]
    exact ordinary.put addr value
  | flag which =>
    change (m.noteFlag which).Ordinary
    rwa [ordinary.noteFlag]
  | setRegister target value =>
    refine ordinary.mapRegs (·.set target value) ?_
    cases target <;> exact ordinary.known
  | setPc addr => exact ordinary.startAt addr
  | setFlag which value =>
    refine ordinary.mapRegs (·.setFlag which value) ?_
    change m.regs.unknown.set which false = {}
    rw [ordinary.known]
    cases which <;> rfl
  | setStatus value => exact ordinary.mapRegs (·.setStatus value) rfl
  | forget mask => exact absurd calm id
  | raise kind => exact ordinary.raise kind m.current
  | charge cycles => exact ⟨ordinary.free, ordinary.size, ordinary.plain, ordinary.known⟩
  | isBlank | register | pc | status | here | observe => exact ordinary

end Machine.Ordinary

variable {kinds : List FaultKind}

theorem MicroOp.history_of_calm (host : Host σ) {op : MicroOp} (calm : op.Calm kinds) {w : World σ}
    (ordinary : w.machine.Ordinary) : ∀ event ∈ op.history host w, event.Among kinds := by
  have plain (addr : UInt16) : (w.machine.mem.state addr).isPlain = true :=
    CellState.isPlain_iff.mpr (ordinary.plain addr)
  intro event member
  cases op with
  | fetch addr => simp [history, World.readHistory, plain] at member
  | load addr => simp [history, World.readHistory, plain] at member
  | store addr value => simp [history, World.writeHistory, plain] at member
  | flag which => simp [history, World.flagHistory, ordinary.unknown_get] at member
  | raise kind => exact SlotEvent.forall_among_raised calm w.machine.current event member
  | isBlank | register | setRegister | pc | setPc | setFlag | forget | status | setStatus | here
    | charge | observe => cases member

theorem Micro.history_bind (host : Host σ) (program : Micro α) (next : α → Micro β) (w : World σ) :
    (program >>= next).history host w =
      program.history host w ++
        (next (program.run host w).1).history host (program.run host w).2 := by
  induction program generalizing w with
  | done result => rfl
  | step op rest inductionHypothesis =>
    change op.history host w ++ (rest (op.perform host w).1 >>= next).history host _ =
      (op.history host w ++ _) ++ _
    rw [inductionHypothesis, List.append_assoc]
    rfl

/-- Where all is ordinary, a program leaves it so and raises no faults but those of the kinds. -/
def Micro.Harmless (kinds : List FaultKind) (host : Host σ) (program : Micro α) : Prop :=
  ∀ w : World σ, w.machine.Ordinary →
    (∀ event ∈ program.history host w, event.Among kinds) ∧
      (program.run host w).2.machine.Ordinary

namespace Micro

theorem Harmless.bind {host : Host σ} {program : Micro α} {next : α → Micro β}
    (first : program.Harmless kinds host) (second : ∀ result, (next result).Harmless kinds host) :
    (program >>= next).Harmless kinds host := by
  intro w ordinary
  obtain ⟨events, between⟩ := first w ordinary
  obtain ⟨eventsAfter, after⟩ := second (program.run host w).1 _ between
  rw [run_bind, history_bind]
  exact ⟨List.forall_mem_append.mpr ⟨events, eventsAfter⟩, after⟩

/-- A program that raises nothing leaves the slot as it was. -/
theorem Harmless.slot_run {host : Host σ} {program : Micro α} (harmless : program.Harmless [] host)
    {w : World σ} (ordinary : w.machine.Ordinary) :
    (program.run host w).2.machine.slot = w.machine.slot := by
  have nothing : program.history host w = [] := by
    apply List.eq_nil_iff_forall_not_mem.mpr
    intro event member
    obtain ⟨fault, -, impossible⟩ := (harmless w ordinary).1 event member
    cases impossible
  rw [program.slot_run, nothing, FaultSlot.replay_nil]

variable (host : Host σ)

theorem harmless_of_uses {program : Micro α} (uses : program.Uses (MicroOp.Calm kinds)) :
    program.Harmless kinds host := by
  induction program with
  | done result =>
    intro w ordinary
    exact ⟨List.forall_mem_nil _, ordinary⟩
  | step op next inductionHypothesis =>
    obtain ⟨here, later⟩ := uses
    intro w ordinary
    have machine := (op.perform_bare host ordinary.free.direct).2
    have stillOrdinary : (op.perform host w).2.machine.Ordinary := by
      rw [machine]
      exact ordinary.effect here
    obtain ⟨events, after⟩ := inductionHypothesis (op.perform host w).1 (later _) _ stillOrdinary
    exact ⟨List.forall_mem_append.mpr ⟨op.history_of_calm host here ordinary, events⟩, after⟩

/-- There are no cells that were never written. -/
theorem harmless_isBlank {next : Bool → Micro α} (written : (next false).Harmless kinds host)
    (addr : UInt16) : (isBlank addr >>= next).Harmless kinds host := by
  intro w ordinary
  have answer : w.isBlank addr = false := by
    simp [World.isBlank, ordinary.plain addr]
  change (∀ event ∈ (next (w.isBlank addr)).history host w, event.Among kinds) ∧
    ((next (w.isBlank addr)).run host w).2.machine.Ordinary
  rw [answer]
  exact written w ordinary

theorem harmless_testBits (operand : Operand) : (testBits operand).Harmless kinds host := by
  cases operand with
  | memory addr pageCross =>
    apply harmless_isBlank
    apply harmless_of_uses
    simp [MicroOp.Calm]
  | none | accumulator | immediate | branch => exact harmless_of_uses host trivial

theorem calm_of_common {program : Micro α} (common : program.Uses MicroOp.Common) :
    program.Uses (MicroOp.Calm kinds) := by
  apply common.imp
  intro op common
  cases op with
  | forget | raise => exact common.elim
  | _ => trivial

theorem calm_ofMnemonic {mnemonic : Mnemonic} (other : mnemonic ≠ .bit) (operand : Operand) :
    (ofMnemonic mnemonic operand).Uses (MicroOp.Calm FaultKind.ofProgram) := by
  apply (uses_ofMnemonic mnemonic operand).imp
  intro op works
  cases op with
  | forget mask => exact other works
  | raise kind =>
    obtain ⟨-, rfl⟩ := works
    exact FaultKind.brk_mem_ofProgram
  | _ => trivial

/-- BIT makes flags unknown, but only at cells that were never written. -/
theorem harmless_ofMnemonic (mnemonic : Mnemonic) (operand : Operand) :
    (ofMnemonic mnemonic operand).Harmless FaultKind.ofProgram host := by
  by_cases bit : mnemonic = .bit
  · rw [bit]
    exact harmless_testBits host operand
  · exact harmless_of_uses host (calm_ofMnemonic bit operand)

theorem harmless_ofInstruction (instruction : Instruction) (value : UInt16) :
    (ofInstruction instruction value).Harmless FaultKind.ofProgram host := by
  by_cases undocumented : instruction.mnemonic = .undocumented
  · apply harmless_of_uses
    simp [ofInstruction, undocumented, reject, MicroOp.Calm, FaultKind.ofProgram]
  · rw [ofInstruction_eq undocumented]
    apply Harmless.bind
    · exact harmless_of_uses host (calm_of_common (common_resolve instruction.mode value))
    · intro operand
      apply Harmless.bind
      · apply harmless_of_uses
        simp [chargeFor, MicroOp.Calm]
      · intro _
        exact harmless_ofMnemonic host instruction.mnemonic operand

theorem harmless_fetchInstruction (pc : UInt16) :
    (fetchInstruction pc).Harmless FaultKind.ofProgram host :=
  harmless_of_uses host (calm_of_common (common_fetchInstruction pc))

end Micro

/-- A history of such faults leaves one of them, or none. -/
theorem FaultSlot.replay_among {history : List SlotEvent}
    (events : ∀ event ∈ history, event.Among kinds) {slot : FaultSlot}
    (before : ∀ fault, slot.fault = some fault → fault.kind ∈ kinds) {fault : Fault}
    (held : (slot.replay history).fault = some fault) : fault.kind ∈ kinds := by
  -- The first fault stays in the slot, so either it was there before, or it is the first of the history.
  induction history generalizing slot with
  | nil => exact before fault held
  | cons event rest inductionHypothesis =>
    obtain ⟨now, later⟩ := List.forall_mem_cons.mp events
    obtain ⟨raised, rfl, member⟩ := now
    refine inductionHypothesis later ?_ held
    intro recorded found
    change (slot.record raised.kind raised.addr).fault = some recorded at found
    rw [fault_record slot raised] at found
    cases kept : slot.fault with
    | none =>
      rw [kept] at found
      exact Option.some.inj found ▸ member
    | some earlier =>
      rw [kept] at found
      exact Option.some.inj found ▸ before earlier kept

namespace World

variable {w : World σ}

theorem harmless_runInstruction (host : Host σ) (ordinary : w.machine.Ordinary) (pc : UInt16) :
    (∀ event ∈ w.instructionHistory host pc, event.Among FaultKind.ofProgram) ∧
      (w.runInstruction host pc).machine.Ordinary := by
  have traced : (w.traceInstruction pc).machine.Ordinary := by
    rwa [machine_traceInstruction]
  have fetching := Micro.harmless_fetchInstruction host pc _ traced
  unfold instructionHistory
  simp only [runInstruction, profileSample, machine_meter]
  generalize (Micro.fetchInstruction pc).run host (w.traceInstruction pc) = result at fetching
  obtain ⟨⟨instruction, value⟩, v⟩ := result
  obtain ⟨events, fetched⟩ := fetching
  have poised : (v.mapRegs fun regs =>
      { regs with pc := pc + UInt16.ofNat instruction.length }).clearSample.machine.Ordinary :=
    fetched.startAt (pc + UInt16.ofNat instruction.length)
  obtain ⟨eventsAfter, after⟩ :=
    Micro.harmless_ofInstruction host instruction value _ poised
  exact ⟨List.forall_mem_append.mpr ⟨events, eventsAfter⟩, after⟩

theorem harmless_window (host : Host σ) (ordinary : w.machine.Ordinary) :
    (∀ event ∈ w.windowHistory host, event.Among FaultKind.ofProgram) ∧
      (w.window host).machine.Ordinary := by
  have entered : (w.enter w.machine.regs.pc).machine.Ordinary := ordinary.enter w.machine.regs.pc
  have unbound := Memory.hook?_of_hooks_eq_nil entered.free .exec w.machine.regs.pc
  -- The windows that end a run do so by one fault and nothing else.
  have ends {kind : FaultKind} (member : kind ∈ FaultKind.ofProgram) :
      (∀ event ∈ [SlotEvent.raised ⟨kind, w.machine.regs.pc⟩], event.Among FaultKind.ofProgram) ∧
        ((w.enter w.machine.regs.pc).raise kind w.machine.regs.pc).machine.Ordinary :=
    ⟨SlotEvent.forall_among_raised member w.machine.regs.pc, entered.raise kind w.machine.regs.pc⟩
  unfold windowHistory window
  by_cases limit : (w.enter w.machine.regs.pc).machine.limitReached = true
  · simp only [limit, if_true]
    exact ends (by decide)
  · by_cases sentinel : (w.enter w.machine.regs.pc).machine.atSentinel = true
    · simp only [limit, sentinel, Bool.false_eq_true, if_false, if_true]
      exact ends (by decide)
    · simp only [limit, sentinel, Bool.false_eq_true, if_false, unbound]
      exact harmless_runInstruction host entered w.machine.regs.pc

/-- What a window leaves in an empty slot stops every run. -/
theorem fault_window_unconditional (host : Host σ) (ordinary : w.machine.Ordinary)
    (empty : w.machine.slot = {}) {fault : Fault}
    (held : (w.window host).machine.slot.fault = some fault) : fault.kind.isUnconditional = true := by
  rw [slot_window, empty] at held
  apply FaultKind.isUnconditional_of_mem_ofProgram
  refine FaultSlot.replay_among (harmless_window host ordinary).1 ?_ held
  intro earlier found
  cases found

end World

/-- Between windows: all is ordinary, and no fault is held. -/
structure Machine.Resting (m : Machine) : Prop where
  ordinary : m.Ordinary
  empty : m.slot = {}

namespace World

variable {w : World σ}

theorem resting_step (host : Host σ) (resting : w.machine.Resting) :
    (w.step host).2.machine.Resting := by
  have windowed := (harmless_window host resting.ordinary).2
  have settled : (w.step host).2.machine = (w.window host).machine.settle.2 :=
    (w.window host).settle_bare.2
  rw [settled]
  exact ⟨windowed.settle, rfl⟩

theorem harmless_along (host : Host σ) (resting : w.machine.Resting) (bound : Nat) :
    (∀ event ∈ w.along host (windowHistory host) bound, event.Among FaultKind.ofProgram) ∧
      (w.steps host bound).2.machine.Resting := by
  induction bound generalizing w with
  | zero => exact ⟨List.forall_mem_nil _, resting⟩
  | succ bound inductionHypothesis =>
    have events := (harmless_window host resting.ordinary).1
    have stepped := resting_step host resting
    unfold along steps
    generalize w.step host = result at stepped
    rcases result with ⟨_ | fault, v⟩
    · obtain ⟨eventsAfter, after⟩ := inductionHypothesis stepped
      exact ⟨List.forall_mem_append.mpr ⟨events, eventsAfter⟩, after⟩
    · rw [List.append_nil]
      exact ⟨events, stepped⟩

theorem harmless_alongRun (host : Host σ) (resting : w.machine.Resting) (bound : Nat)
    (addr : UInt16) :
    (∀ event ∈ w.alongRun host (windowHistory host) bound addr, event.Among FaultKind.ofProgram) ∧
      (w.run host bound addr).2.machine.Resting := by
  have started : ((w.startAt addr).log (.runStarted addr)).machine.Resting :=
    ⟨resting.ordinary.startAt addr, resting.empty⟩
  rw [(run_eq_steps host bound addr w).2]
  exact harmless_along host started bound

/-- All that happens to the slot in an operation. -/
def operationHistory (host : Host σ) (operation : Operation) (w : World σ) : List SlotEvent :=
  w.alongOperation host (fun program => program.history host) (windowHistory host) operation

def operationsHistory (host : Host σ) : List Operation → World σ → List SlotEvent
  | [], _ => []
  | operation :: rest, w =>
    w.operationHistory host operation ++ (w.operate host operation).2.operationsHistory host rest

/-- Accesses and the stack raise nothing. -/
theorem resting_run (program : Micro α) (calm : program.Uses (MicroOp.Calm [])) (host : Host σ)
    (resting : w.machine.Resting) :
    (∀ event ∈ program.history host w, event.Among FaultKind.ofProgram) ∧
      (program.run host w).2.machine.Resting := by
  have harmless := Micro.harmless_of_uses host calm
  obtain ⟨events, after⟩ := harmless w resting.ordinary
  refine ⟨?_, after, (harmless.slot_run resting.ordinary).trans resting.empty⟩
  intro event member
  obtain ⟨fault, -, impossible⟩ := events event member
  cases impossible

theorem resting_beginCall (host : Host σ) (resting : w.machine.Resting) :
    (∀ event ∈ (Micro.pushWord (callSentinel - 1)).history host w.armed,
        event.Among FaultKind.ofProgram) ∧ (w.beginCall host).machine.Resting := by
  have ordinary := resting.ordinary
  have armed : w.armed.machine.Resting :=
    ⟨⟨ordinary.free, ordinary.size, ordinary.plain, ordinary.known⟩, rfl⟩
  exact resting_run _ (Micro.calm_of_common (Micro.common_pushWord (callSentinel - 1))) host armed

theorem harmless_call (host : Host σ) (resting : w.machine.Resting) (bound : Nat) (addr : UInt16) :
    (∀ event ∈ w.operationHistory host (.call bound addr), event.Among FaultKind.ofProgram) ∧
      (w.call host bound addr).2.machine.Resting := by
  obtain ⟨pushed, begun⟩ := resting_beginCall host resting
  obtain ⟨events, after⟩ := harmless_alongRun host begun bound addr
  have ordinary := after.ordinary
  exact ⟨List.forall_mem_append.mpr ⟨pushed, events⟩,
    ⟨ordinary.free, ordinary.size, ordinary.plain, ordinary.known⟩, resting.empty⟩

theorem harmless_operate (host : Host σ) (resting : w.machine.Resting) (operation : Operation) :
    (∀ event ∈ w.operationHistory host operation, event.Among FaultKind.ofProgram) ∧
      (w.operate host operation).2.machine.Resting := by
  cases operation with
  | step => exact ⟨(harmless_window host resting.ordinary).1, resting_step host resting⟩
  | run bound addr => exact harmless_alongRun host resting bound addr
  | call bound addr => exact harmless_call host resting bound addr
  | read addr => exact resting_run (Micro.load addr) (by simp [MicroOp.Calm]) host resting
  | write addr value =>
    exact resting_run (Micro.store addr value) (by simp [MicroOp.Calm]) host resting
  | push value =>
    exact resting_run (Micro.push value) (Micro.calm_of_common (Micro.common_push value)) host resting
  | pull => exact resting_run Micro.pull (Micro.calm_of_common Micro.common_pull) host resting

theorem harmless_operateAll (host : Host σ) (resting : w.machine.Resting)
    (operations : List Operation) :
    (∀ event ∈ w.operationsHistory host operations, event.Among FaultKind.ofProgram) ∧
      (w.operateAll host operations).2.machine.Resting := by
  induction operations generalizing w with
  | nil => exact ⟨List.forall_mem_nil _, resting⟩
  | cons operation rest inductionHypothesis =>
    obtain ⟨events, between⟩ := harmless_operate host resting operation
    obtain ⟨eventsAfter, after⟩ := inductionHypothesis between
    exact ⟨List.forall_mem_append.mpr ⟨events, eventsAfter⟩, after⟩

end World

namespace Machine

/-- A world of this machine and nothing else. Histories are of worlds, so what they say of a machine is said of it
there. -/
def alone (m : Machine) : World Unit where
  machine := m
  host := ()

def atLevel (level : ErrorLevel) (m : Machine) : Machine :=
  { m with level }

theorem atLevel_eq_under (level : ErrorLevel) (m : Machine) :
    m.atLevel level = m.under ⟨level, m.limit⟩ := rfl

theorem exec_atLevel (level : ErrorLevel) (program : Micro α) (m : Machine) :
    program.exec (m.atLevel level) = ((program.exec m).1, (program.exec m).2.atLevel level) := by
  have limit : (program.exec m).2.limit = m.limit := limit_eq (program.fixture_exec m)
  rw [atLevel_eq_under, Micro.exec_under, atLevel_eq_under, limit]

theorem window_atLevel (level : ErrorLevel) (m : Machine) :
    (m.atLevel level).window = m.window.atLevel level := by
  cases reached : m.limitReached with
  | true =>
    rw [window_of_limitReached reached, window_of_limitReached (m := m.atLevel level) reached]
    rfl
  | false =>
    have limit : m.window.limit = m.limit := congrArg Policy.limit m.policy_window
    have reachedToo : (m.under ⟨level, m.limit⟩).limitReached = false := reached
    rw [atLevel_eq_under, window_under reached reachedToo, atLevel_eq_under, limit]

/-- Faults that stop every run do so at whatever level. -/
theorem settle_fst_of_unconditional {m : Machine}
    (unconditional : ∀ fault, m.slot.fault = some fault → fault.kind.isUnconditional = true) :
    m.settle.1 = m.slot.fault := by
  unfold settle
  cases held : m.slot.fault with
  | none => rfl
  | some fault =>
    have fatal : m.level.isFatal fault.kind = true := by
      simp [ErrorLevel.isFatal, unconditional fault held]
    simp [Option.filter, fatal]

variable {m : Machine}

theorem Resting.step (resting : m.Resting) : m.step.2.Resting := by
  have bare := (m.alone.step_bare CommandLine.hooklessHost resting.ordinary.free).2
  have stepped := World.resting_step (w := m.alone) CommandLine.hooklessHost resting
  rw [bare] at stepped
  exact stepped

theorem Resting.operate (resting : m.Resting) (operation : Operation) :
    (m.operate operation).2.Resting := by
  have free := resting.ordinary.free
  have bare := (m.alone.operate_bare CommandLine.hooklessHost operation free).2
  have operated := (World.harmless_operate (w := m.alone) CommandLine.hooklessHost resting operation).2
  rw [bare] at operated
  exact operated

theorem Resting.beginCall (resting : m.Resting) : m.beginCall.Resting := by
  have bare := m.alone.beginCall_bare CommandLine.hooklessHost resting.ordinary.free
  have begun := (World.resting_beginCall (w := m.alone) CommandLine.hooklessHost resting).2
  rw [bare] at begun
  exact begun

theorem step_atLevel (level : ErrorLevel) (resting : m.Resting) :
    (m.atLevel level).step = (m.step.1, m.step.2.atLevel level) := by
  have unconditional : ∀ fault, m.window.slot.fault = some fault →
      fault.kind.isUnconditional = true := by
    intro fault held
    have bare := m.alone.window_bare CommandLine.hooklessHost resting.ordinary.free
    change m.alone.machine.window.slot.fault = some fault at held
    rw [← bare] at held
    exact World.fault_window_unconditional (w := m.alone) _ resting.ordinary resting.empty held
  -- The same fault is held at both levels, and both stop for it.
  have outcome := settle_fst_of_unconditional unconditional
  have otherOutcome := settle_fst_of_unconditional (m := m.window.atLevel level) unconditional
  unfold Machine.step
  rw [window_atLevel]
  exact Prod.ext (otherOutcome.trans outcome.symm) rfl

theorem steps_atLevel (level : ErrorLevel) (resting : m.Resting) (bound : Nat) :
    (m.atLevel level).steps bound = ((m.steps bound).1, (m.steps bound).2.atLevel level) := by
  induction bound generalizing m with
  | zero => rfl
  | succ bound inductionHypothesis =>
    have stepped := step_atLevel level resting
    cases outcome : m.step.1 with
    | none =>
      have running : (m.atLevel level).step.1 = none := by
        rw [stepped, outcome]
      rw [steps_succ_of_running outcome, steps_succ_of_running running, stepped]
      exact inductionHypothesis resting.step
    | some fault =>
      have stopped : (m.atLevel level).step.1 = some fault := by
        rw [stepped, outcome]
      rw [steps_succ_of_stopped outcome, steps_succ_of_stopped stopped, stepped]

theorem run_atLevel (level : ErrorLevel) (resting : m.Resting) (bound : Nat) (addr : UInt16) :
    (m.atLevel level).run bound addr = ((m.run bound addr).1, (m.run bound addr).2.atLevel level) := by
  have started : (m.startAt addr).Resting := ⟨resting.ordinary.startAt addr, resting.empty⟩
  exact congrArg (·.map Outcome.ofSteps id) (steps_atLevel level started bound)

theorem call_atLevel (level : ErrorLevel) (resting : m.Resting) (bound : Nat) (addr : UInt16) :
    (m.atLevel level).call bound addr =
      ((m.call bound addr).1, (m.call bound addr).2.atLevel level) := by
  have begun : (m.atLevel level).beginCall = m.beginCall.atLevel level :=
    congrArg Prod.snd
      (exec_atLevel level (Micro.pushWord (callSentinel - 1)) { m with inCall := true, slot := {} })
  unfold call
  rw [begun, run_atLevel level resting.beginCall]
  rfl

/-- The level has no influence on an operation. -/
theorem operate_atLevel (level : ErrorLevel) (resting : m.Resting) (operation : Operation) :
    (m.atLevel level).operate operation =
      ((m.operate operation).1, (m.operate operation).2.atLevel level) := by
  cases operation with
  | step => exact congrArg (·.map Reply.stepped id) (step_atLevel level resting)
  | run bound addr => exact congrArg (·.map Reply.ended id) (run_atLevel level resting bound addr)
  | call bound addr => exact congrArg (·.map Reply.ended id) (call_atLevel level resting bound addr)
  | read addr => exact congrArg (·.map Reply.byte id) (exec_atLevel level (Micro.load addr) m)
  | write addr value =>
    exact congrArg (·.map (fun _ => Reply.done) id) (exec_atLevel level (Micro.store addr value) m)
  | push value =>
    exact congrArg (·.map (fun _ => Reply.done) id) (exec_atLevel level (Micro.push value) m)
  | pull => exact congrArg (·.map Reply.byte id) (exec_atLevel level Micro.pull m)

theorem operateAll_atLevel (level : ErrorLevel) (resting : m.Resting) (operations : List Operation) :
    (m.atLevel level).operateAll operations =
      ((m.operateAll operations).1, (m.operateAll operations).2.atLevel level) := by
  induction operations generalizing m with
  | nil => rfl
  | cons operation rest inductionHypothesis =>
    rw [operateAll_cons, operateAll_cons, operate_atLevel level resting operation,
      inductionHypothesis (resting.operate operation)]

end Machine

namespace World

/-- Where memory and flags are ordinary, all faults that operations raise are BRK, undocumented instructions, the end
of a call and the limit; memory and flags stay ordinary; and replies and machines are the same at every level. -/
theorem ordinary_reports_only_program (host : Host σ) (otherHost : Host τ) {w : World σ}
    (ordinary : w.machine.Ordinary) (empty : w.machine.slot = {}) (operations : List Operation) :
    (∀ event ∈ w.operationsHistory host operations, ∃ fault, event = .raised fault ∧
      fault.kind ∈ [FaultKind.brk, .illegal, .callReturn, .cycleLimit]) ∧
      (w.operateAll host operations).2.machine.Ordinary ∧
      (w.operateAll host operations).2.machine.slot = {} ∧
      ∀ (level : ErrorLevel) (v : World τ), v.machine = { w.machine with level } →
        (v.operateAll otherHost operations).1 = (w.operateAll host operations).1 ∧
          (v.operateAll otherHost operations).2.machine =
            { (w.operateAll host operations).2.machine with level } := by
  have resting : w.machine.Resting := ⟨ordinary, empty⟩
  obtain ⟨events, after⟩ := harmless_operateAll host resting operations
  refine ⟨events, after.ordinary, after.empty, ?_⟩
  intro level v same
  have free : v.machine.HookFree := by
    rw [same]
    exact ordinary.free
  obtain ⟨replies, machine⟩ := w.operateAll_bare host operations ordinary.free
  obtain ⟨otherReplies, otherMachine⟩ := v.operateAll_bare otherHost operations free
  have alike := Machine.operateAll_atLevel level resting operations
  unfold Machine.atLevel at alike
  rw [same, alike] at otherReplies otherMachine
  rw [replies, machine]
  exact ⟨otherReplies, otherMachine⟩

/-- All of memory as zeroed RAM, and all flags known. -/
def zeroedRam (level : ErrorLevel) : World Unit :=
  ((ofSettings { level } {} ()).mapMem (·.declareRam 0 Memory.maxSize true)).mapRegs
    ({ · with unknown := {} })

theorem zeroedRam_ordinary (level : ErrorLevel) : (zeroedRam level).machine.Ordinary where
  free := rfl
  size := ((Memory.sound_new Memory.maxSize .zero).declareRam 0 Memory.maxSize true).size_eq
  plain := by
    apply Memory.state_declareRam_zeroed
    · exact (Memory.sound_new Memory.maxSize .zero).size_eq
    · intro addr
      have undeclared := Memory.state_new Memory.maxSize .zero addr
      exact congrArg CellState.hooked undeclared
  known := rfl

theorem zeroedRam_same_at_full :
    ((zeroedRam .full).operateAll CommandLine.hooklessHost [.push 1, .call 3 0, .step]).1 =
      ((zeroedRam .none).operateAll CommandLine.hooklessHost [.push 1, .call 3 0, .step]).1 := by
  have alike := ordinary_reports_only_program CommandLine.hooklessHost CommandLine.hooklessHost
    (zeroedRam_ordinary .none) rfl [.push 1, .call 3 0, .step]
  exact (alike.2.2.2 .full (zeroedRam .full) rfl).1

end World

end Mos6502
