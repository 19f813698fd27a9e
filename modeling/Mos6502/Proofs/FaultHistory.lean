import Mos6502.CommandLine.Program
import Mos6502.Proofs.Bare.Correspondence
import Mos6502.World.Setup

/-!
# What happens to the fault slot within a window

Every fault that a window raises goes to one slot, which keeps the first and drops the others. The history of a
window lists all of them in order, the dropped ones as well, together with what hooks leave in the slot. Replaying
the history gives the slot that the window ends with. A step decides by that slot alone, so a fault of a kind that
stops every run is lost behind a milder one that was raised before it.
-/

namespace Mos6502

variable {σ α β : Type}

/-- Something that happens to the fault slot: a fault is raised, or a hook returns and has left the slot in some
state. -/
inductive SlotEvent where
  | raised (fault : Fault)
  | hooked (after : FaultSlot)
deriving DecidableEq, Repr

def SlotEvent.apply (slot : FaultSlot) : SlotEvent → FaultSlot
  | raised fault => slot.record fault.kind fault.addr
  | hooked after => after

/-- The slot after a history. -/
def FaultSlot.replay (slot : FaultSlot) (history : List SlotEvent) : FaultSlot :=
  history.foldl SlotEvent.apply slot

namespace FaultSlot

@[simp]
theorem replay_nil (slot : FaultSlot) : slot.replay [] = slot := rfl

@[simp]
theorem replay_cons (slot : FaultSlot) (event : SlotEvent) (history : List SlotEvent) :
    slot.replay (event :: history) = (event.apply slot).replay history := rfl

theorem replay_append (slot : FaultSlot) (first second : List SlotEvent) :
    slot.replay (first ++ second) = (slot.replay first).replay second :=
  List.foldl_append

/-- A held fault survives a history whose hooks leave it in the slot. -/
theorem fault_replay_of_kept {slot : FaultSlot} {fault : Fault} (held : slot.fault = some fault)
    {history : List SlotEvent}
    (kept : ∀ after, .hooked after ∈ history → after.fault = some fault) :
    (slot.replay history).fault = some fault := by
  induction history generalizing slot with
  | nil => exact held
  | cons event history inductionHypothesis =>
    have keptLater : ∀ after, .hooked after ∈ history → after.fault = some fault :=
      fun after member => kept after (List.mem_cons_of_mem _ member)
    refine inductionHypothesis ?_ keptLater
    cases event with
    | raised other =>
      change (slot.record other.kind other.addr).fault = some fault
      rw [record_of_some held, held]
    | hooked after => exact kept after List.mem_cons_self

end FaultSlot

namespace World

/-- The history of an access that a hook takes over. -/
def hookHistory (host : Host σ) (hook : Nat) (addr : UInt16) (access : Access) (w : World σ) :
    List SlotEvent :=
  match w.invoke host hook addr access with
  | (.ok _, v) => [.hooked v.machine.slot]
  | (.error kind, v) => [.hooked v.machine.slot, .raised ⟨kind, addr⟩]

def readHistory (host : Host σ) (undefined uninitialized : FaultKind) (addr : UInt16)
    (w : World σ) : List SlotEvent :=
  let state := w.machine.mem.state addr
  if state.isPlain then []
  else
    match if state.hooked then w.machine.mem.hook? .read addr else none with
    | some hook => w.hookHistory host hook addr .read
    | none =>
      if state.undefined then [.raised ⟨undefined, addr⟩]
      else if state.uninitialized then [.raised ⟨uninitialized, addr⟩]
      else []

def writeHistory (host : Host σ) (addr : UInt16) (value : UInt8) (w : World σ) :
    List SlotEvent :=
  let state := w.machine.mem.state addr
  if state.isPlain then []
  else
    match if state.hooked then w.machine.mem.hook? .write addr else none with
    | some hook => (w.noteStore true).hookHistory host hook addr (.write value)
    | none =>
      if state.rom then [.raised ⟨.writeRom, addr⟩]
      else if state.undefined then [.raised ⟨.writeUndefined, addr⟩]
      else []

def flagHistory (flag : Flag) (w : World σ) : List SlotEvent :=
  if w.machine.regs.unknown.get flag then [.raised ⟨.readUninitialized, w.machine.current⟩]
  else []

end World

def MicroOp.history (host : Host σ) : MicroOp → World σ → List SlotEvent
  | .fetch addr, w => w.readHistory host .executeUndefined .executeUninitialized addr
  | .load addr, w => w.readHistory host .readUndefined .readUninitialized addr
  | .store addr value, w => w.writeHistory host addr value
  | .flag which, w => w.flagHistory which
  | .raise kind, w => [.raised ⟨kind, w.machine.current⟩]
  | .isBlank _, _ | .register _, _ | .setRegister _ _, _ | .pc, _ | .setPc _, _
  | .setFlag _ _, _ | .forget _, _ | .status, _ | .setStatus _, _ | .here, _
  | .charge _, _ | .observe _, _ => []

def Micro.history (host : Host σ) : Micro α → World σ → List SlotEvent
  | .done _, _ => []
  | .step op next, w =>
    op.history host w ++ (next (op.perform host w).1).history host (op.perform host w).2

namespace World

def execHookHistory (host : Host σ) (hook : Nat) (pc : UInt16) (w : World σ) : List SlotEvent :=
  w.hookHistory host hook pc .exec ++
    match w.invoke host hook pc .exec with
    | (.error _, _) => []
    | (.ok _, v) =>
      if v.machine.regs.pc = pc then Micro.returnFromSubroutine.history host v else []

def instructionHistory (host : Host σ) (pc : UInt16) (w : World σ) : List SlotEvent :=
  let traced := w.traceInstruction pc
  (Micro.fetchInstruction pc).history host traced ++
    match (Micro.fetchInstruction pc).run host traced with
    | ((instruction, value), v) =>
      let next := pc + UInt16.ofNat instruction.length
      (Micro.ofInstruction instruction value).history host
        (v.mapRegs fun regs => { regs with pc := next }).clearSample

/-- The history of a window. -/
def windowHistory (host : Host σ) (w : World σ) : List SlotEvent :=
  let pc := w.machine.regs.pc
  let w := w.enter pc
  if w.machine.limitReached then [.raised ⟨.cycleLimit, pc⟩]
  else if w.machine.atSentinel then [.raised ⟨.callReturn, pc⟩]
  else
    match w.machine.mem.hook? .exec pc with
    | some hook => w.execHookHistory host hook pc
    | none => w.instructionHistory host pc

/-- A hook overwrites the slot, so that nothing before it shows in a replay. -/
theorem replay_hookHistory (host : Host σ) (hook : Nat) (addr : UInt16) (access : Access)
    (w : World σ) (slot : FaultSlot) :
    slot.replay (w.hookHistory host hook addr access) =
      match w.invoke host hook addr access with
      | (.ok _, v) => v.machine.slot
      | (.error kind, v) => v.machine.slot.record kind addr := by
  unfold hookHistory
  split <;> rfl

theorem slot_readAs (host : Host σ) (undefined uninitialized : FaultKind) (addr : UInt16)
    (w : World σ) :
    (w.readAs host undefined uninitialized addr).2.machine.slot =
      w.machine.slot.replay (w.readHistory host undefined uninitialized addr) := by
  unfold readAs readHistory
  by_cases plain : (w.machine.mem.state addr).isPlain = true
  · simp [plain]
  · simp only [plain, Bool.false_eq_true, if_false]
    generalize (if (w.machine.mem.state addr).hooked = true then w.machine.mem.hook? .read addr
      else none) = bound
    cases bound with
    | some hook =>
      simp only [replay_hookHistory]
      rcases w.invoke host hook addr .read with ⟨kind | value, v⟩
      · rfl
      · rfl
    | none =>
      by_cases undeclared : (w.machine.mem.state addr).undefined = true
      · simp only [undeclared, if_true]
        rfl
      · by_cases blank : (w.machine.mem.state addr).uninitialized = true
        · simp only [undeclared, blank, Bool.false_eq_true, if_false, if_true]
          rfl
        · simp [undeclared, blank]

theorem slot_write (host : Host σ) (addr : UInt16) (value : UInt8) (w : World σ) :
    (w.write host addr value).machine.slot =
      w.machine.slot.replay (w.writeHistory host addr value) := by
  unfold write writeHistory
  by_cases plain : (w.machine.mem.state addr).isPlain = true
  · simp only [plain, if_true]
    rfl
  · simp only [plain, Bool.false_eq_true, if_false]
    generalize (if (w.machine.mem.state addr).hooked = true then w.machine.mem.hook? .write addr
      else none) = bound
    cases bound with
    | some hook =>
      simp only [replay_hookHistory]
      rcases (w.noteStore true).invoke host hook addr (.write value) with ⟨kind | answer, v⟩
      · rfl
      · rfl
    | none =>
      by_cases readOnly : (w.machine.mem.state addr).rom = true
      · simp only [readOnly, if_true]
        rfl
      · by_cases undeclared : (w.machine.mem.state addr).undefined = true
        · simp only [readOnly, undeclared, Bool.false_eq_true, if_false, if_true]
          rfl
        · simp only [readOnly, undeclared, Bool.false_eq_true, if_false]
          rfl

theorem slot_readFlag (flag : Flag) (w : World σ) :
    (w.readFlag flag).2.machine.slot = w.machine.slot.replay (w.flagHistory flag) := by
  unfold readFlag flagHistory
  by_cases unknown : w.machine.regs.unknown.get flag = true
  · simp only [unknown, if_true]
    rfl
  · simp [unknown]

end World

theorem MicroOp.slot_perform (host : Host σ) (op : MicroOp) (w : World σ) :
    (op.perform host w).2.machine.slot = w.machine.slot.replay (op.history host w) := by
  cases op with
  | fetch addr => exact w.slot_readAs host .executeUndefined .executeUninitialized addr
  | load addr => exact w.slot_readAs host .readUndefined .readUninitialized addr
  | store addr value => exact w.slot_write host addr value
  | flag which => exact w.slot_readFlag which
  | raise | isBlank | register | setRegister | pc | setPc | setFlag | forget | status | setStatus
    | here | charge | observe => rfl

theorem Micro.slot_run (host : Host σ) (program : Micro α) (w : World σ) :
    (program.run host w).2.machine.slot = w.machine.slot.replay (program.history host w) := by
  induction program generalizing w with
  | done result => rfl
  | step op next inductionHypothesis =>
    -- The rest goes on in the world behind the operation, and so does its history.
    rw [run_step, inductionHypothesis, op.slot_perform, ← FaultSlot.replay_append]
    rfl

namespace World

theorem slot_runHook (host : Host σ) (hook : Nat) (pc : UInt16) (w : World σ) :
    (w.runHook host hook pc).machine.slot =
      w.machine.slot.replay (w.execHookHistory host hook pc) := by
  unfold runHook execHookHistory
  rw [FaultSlot.replay_append, replay_hookHistory]
  rcases w.invoke host hook pc .exec with ⟨_ | _, v⟩
  · rfl
  · by_cases unmoved : v.machine.regs.pc = pc
    · simp only [unmoved, if_true]
      exact Micro.slot_run host _ v
    · simp [unmoved]

theorem slot_runInstruction (host : Host σ) (pc : UInt16) (w : World σ) :
    (w.runInstruction host pc).machine.slot =
      w.machine.slot.replay (w.instructionHistory host pc) := by
  have traced : (w.traceInstruction pc).machine.slot = w.machine.slot :=
    congrArg Machine.slot (machine_traceInstruction w pc)
  have fetched := Micro.slot_run host (Micro.fetchInstruction pc) (w.traceInstruction pc)
  rw [traced] at fetched
  simp only [runInstruction, profileSample, machine_meter, instructionHistory, FaultSlot.replay_append]
  rw [← fetched]
  generalize (Micro.fetchInstruction pc).run host (w.traceInstruction pc) = result
  obtain ⟨⟨instruction, value⟩, v⟩ := result
  have worked := Micro.slot_run host (Micro.ofInstruction instruction value)
    (v.mapRegs fun regs => { regs with pc := pc + UInt16.ofNat instruction.length }).clearSample
  exact worked

/-- Replaying the history of a window gives the slot that it ends with. -/
theorem slot_window (host : Host σ) (w : World σ) :
    (w.window host).machine.slot = w.machine.slot.replay (w.windowHistory host) := by
  unfold window windowHistory
  by_cases limit : (w.enter w.machine.regs.pc).machine.limitReached = true
  · simp only [limit, if_true]
    rfl
  · by_cases sentinel : (w.enter w.machine.regs.pc).machine.atSentinel = true
    · simp only [limit, sentinel, Bool.false_eq_true, if_false, if_true]
      rfl
    · simp only [limit, sentinel, Bool.false_eq_true, if_false]
      cases (w.enter w.machine.regs.pc).machine.mem.hook? .exec w.machine.regs.pc with
      | some hook =>
        simp only [slot_runHook]
        rfl
      | none =>
        simp only [slot_runInstruction]
        rfl

/-- A step gives back the fault that the replay of its history leaves, if it stops execution at the level in
force. -/
theorem step_fst (host : Host σ) (w : World σ) :
    (w.step host).1 = (w.machine.slot.replay (w.windowHistory host)).fault.filter fun fault =>
      (w.window host).machine.level.isFatal fault.kind := by
  unfold step
  rw [(w.window host).settle_bare.1, Machine.settle, slot_window]

/-- A step in whose window a fault of a kind that always stops is raised. It gives back what the slot holds at
the end, if that stops execution. Where later hooks leave the slot as they find it, the step stops exactly if what
the slot held before, if it held anything, stops execution as well. -/
theorem step_of_raised (host : Host σ) {w : World σ} (empty : w.machine.slot = {})
    {earlier later : List SlotEvent} {fault : Fault}
    (history : w.windowHistory host = earlier ++ .raised fault :: later)
    (unconditional : fault.kind.isUnconditional = true) :
    ((w.step host).1 =
        (((FaultSlot.replay {} earlier).record fault.kind fault.addr).replay later).fault.filter
          fun held => (w.window host).machine.level.isFatal held.kind) ∧
      ((∀ after, .hooked after ∈ later →
          after.fault = some ((FaultSlot.replay {} earlier).fault.getD fault)) →
        ((w.step host).1.isSome = true ↔
          ∀ held, (FaultSlot.replay {} earlier).fault = some held →
            (w.window host).machine.level.isFatal held.kind = true)) := by
  have outcome := w.step_fst host
  rw [history, empty, FaultSlot.replay_append, FaultSlot.replay_cons] at outcome
  refine ⟨outcome, ?_⟩
  intro kept
  have recorded := FaultSlot.fault_record (FaultSlot.replay {} earlier) fault
  have left := FaultSlot.fault_replay_of_kept recorded kept
  rw [outcome, SlotEvent.apply, left]
  cases first : (FaultSlot.replay {} earlier).fault with
  | none => simp [Option.filter, ErrorLevel.isFatal, unconditional]
  | some held => simp [Option.filter]

/-- BRK in RAM that was never written. -/
def unwrittenBreak (level : ErrorLevel) : World Unit :=
  (ofSettings { memSize := 1, level } {} ()).mapMem (·.declareRam 0 1 false)

theorem unwrittenBreak_stops_when_strict :
    ((unwrittenBreak .full).step CommandLine.hooklessHost).1.isSome = true := by
  have history : (unwrittenBreak .full).windowHistory CommandLine.hooklessHost =
      [.raised ⟨.executeUninitialized, 0⟩] ++ .raised ⟨.brk, 0⟩ :: [] := by
    decide +kernel
  refine ((step_of_raised CommandLine.hooklessHost rfl history rfl).2 ?_).mpr ?_
  · intro after member
    cases member
  · intro held found
    rw [← Option.some.inj found]
    decide +kernel

theorem unwrittenBreak_passes_by_default :
    (unwrittenBreak .memory).machine.slot = {} ∧ FaultKind.brk.isUnconditional = true ∧
      .raised ⟨.brk, 0⟩ ∈ (unwrittenBreak .memory).windowHistory CommandLine.hooklessHost ∧
      ((unwrittenBreak .memory).step CommandLine.hooklessHost).1 = none := by
  decide +kernel

end World

end Mos6502
