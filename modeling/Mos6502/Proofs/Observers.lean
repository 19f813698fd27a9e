import Mos6502.Proofs.Invocation
import Mos6502.Proofs.Operation
import Mos6502.Proofs.ProfileCycles
import Mos6502.World.Setup

/-!
# Observers

Labels, trace, profile and counters watch a machine and are never asked by it. So two worlds that agree in machine and
host go on in agreement, whatever their instruments do meanwhile: take samples, write lines, or fail to. Hooks may
change the machine, keep a state of their own, and operate the machine in turn, as long as they do not look at the
instruments either.
-/

namespace Mos6502

variable {σ α β : Type}

namespace World

/-- The same machine and the same state of the host, whatever the instruments, counters and journal hold. -/
structure Alike (v w : World σ) : Prop where
  machine : v.machine = w.machine
  host : v.host = w.host

/-- Equal answers, and worlds that are alike. -/
structure Agree (r s : α × World σ) : Prop where
  answer : r.1 = s.1
  world : r.2.Alike s.2

/-- An act that does not look at instruments, counters and journal. -/
def Blind (act : World σ → α × World σ) : Prop :=
  ∀ {v w}, v.Alike w → Agree (act v) (act w)

namespace Alike

variable {u v w : World σ}

theorem refl (w : World σ) : w.Alike w := ⟨rfl, rfl⟩

theorem symm (alike : v.Alike w) : w.Alike v :=
  ⟨alike.machine.symm, alike.host.symm⟩

theorem trans (first : u.Alike v) (second : v.Alike w) : u.Alike w :=
  ⟨first.machine.trans second.machine, first.host.trans second.host⟩

theorem exists_eq (alike : v.Alike w) :
    ∃ instruments metrics journal, w = { v with instruments, metrics, journal } := by
  obtain ⟨machine, host⟩ := alike
  refine ⟨w.instruments, w.metrics, w.journal, ?_⟩
  rw [machine, host]

theorem update (alike : v.Alike w) (change : Machine → Machine) :
    ({ v with machine := change v.machine } : World σ).Alike
      { w with machine := change w.machine } :=
  ⟨congrArg change alike.machine, alike.host⟩

theorem of_meter (change : Metrics → Metrics) (w : World σ) : (w.meter change).Alike w := by
  unfold World.meter
  split <;> exact ⟨rfl, rfl⟩

theorem meter (alike : v.Alike w) (change other : Metrics → Metrics) :
    (v.meter change).Alike (w.meter other) :=
  ((of_meter change v).trans alike).trans (of_meter other w).symm

theorem of_traceInstruction (pc : UInt16) (w : World σ) : (w.traceInstruction pc).Alike w := by
  unfold World.traceInstruction World.trace
  split
  · split <;> exact ⟨rfl, rfl⟩
  · exact .refl w

theorem traceInstruction (alike : v.Alike w) (pc : UInt16) :
    (v.traceInstruction pc).Alike (w.traceInstruction pc) :=
  ((of_traceInstruction pc v).trans alike).trans (of_traceInstruction pc w).symm

end Alike

/-- Equal answers can be taken for one. -/
theorem Agree.exists_eq {r s : α × World σ} (agree : Agree r s) :
    ∃ answer x y, r = (answer, x) ∧ s = (answer, y) ∧ x.Alike y :=
  ⟨r.1, r.2, s.2, rfl, Prod.ext agree.answer.symm rfl, agree.world⟩

theorem Agree.map {r s : α × World σ} (agree : Agree r s) (f : α → β) :
    Agree (r.map f id) (s.map f id) :=
  ⟨congrArg f agree.answer, agree.world⟩

theorem Blind.bind {act : World σ → α × World σ} {next : α → World σ → β × World σ}
    (first : Blind act) (second : ∀ answer, Blind (next answer)) :
    Blind fun w => next (act w).1 (act w).2 := by
  intro v w alike
  obtain ⟨answers, between⟩ := first alike
  dsimp only
  rw [answers]
  exact second (act w).1 between

end World

/-- No hook looks at instruments, counters and journal. -/
def Host.Blind (host : Host σ) : Prop :=
  ∀ hook addr access, World.Blind (host.respond hook addr access)

namespace World

variable {host : Host σ} {v w : World σ}

theorem agree_answer (blind : host.Blind) (alike : v.Alike w) (hook : Nat) (addr : UInt16)
    (access : Access) :
    Agree ((v.invocation hook addr access).answer host)
      ((w.invocation hook addr access).answer host) := by
  have given := alike.meter (·.countCallback access.kind.name) (·.countCallback access.kind.name)
  exact blind hook addr access given

theorem agree_settled (blind : host.Blind) (alike : v.Alike w) (hook : Nat) (addr : UInt16)
    (access : Access) :
    Agree
      ((v.invocation hook addr access).byte host, (v.invocation hook addr access).settled host)
      ((w.invocation hook addr access).byte host, (w.invocation hook addr access).settled host) := by
  obtain ⟨answer, x, y, answered, answeredToo, left⟩ :=
    (agree_answer blind alike hook addr access).exists_eq
  unfold Invocation.byte Invocation.settled
  rw [answered, answeredToo]
  cases answer with
  | ok value => exact ⟨rfl, left⟩
  | error kind => exact ⟨congrArg (·.mem.raw addr) left.machine, left.update (·.raise kind addr)⟩

theorem agree_readAs (blind : host.Blind) (alike : v.Alike w) (undefined uninitialized : FaultKind)
    (addr : UInt16) :
    Agree (v.readAs host undefined uninitialized addr) (w.readAs host undefined uninitialized addr) := by
  have machine := alike.machine
  cases caught : w.machine.mem.catch? .read addr with
  | some hook =>
    have caughtToo : v.machine.mem.catch? .read addr = some hook := machine ▸ caught
    rw [readAs_of_caught host undefined uninitialized caught,
      readAs_of_caught host undefined uninitialized caughtToo]
    exact agree_settled blind alike hook addr .read
  | none =>
    have uncaughtToo : v.machine.mem.catch? .read addr = none := machine ▸ caught
    rw [readAs_of_uncaught host undefined uninitialized caught,
      readAs_of_uncaught host undefined uninitialized uncaughtToo]
    exact ⟨congrArg (·.mem.raw addr) machine, alike.update (·.noteRead undefined uninitialized addr)⟩

theorem alike_writeThrough (alike : v.Alike w) (addr : UInt16) (value : UInt8) :
    (v.writeThrough addr value).Alike (w.writeThrough addr value) := by
  obtain ⟨instruments, metrics, journal, rfl⟩ := alike.exists_eq
  unfold writeThrough
  dsimp only
  split
  · exact ⟨rfl, rfl⟩
  · split <;> exact ⟨rfl, rfl⟩

theorem alike_write (blind : host.Blind) (alike : v.Alike w) (addr : UInt16) (value : UInt8) :
    (v.write host addr value).Alike (w.write host addr value) := by
  have machine := alike.machine
  cases caught : w.machine.mem.catch? .write addr with
  | some hook =>
    have caughtToo : v.machine.mem.catch? .write addr = some hook := machine ▸ caught
    have noted : (v.noteStore true).Alike (w.noteStore true) := ⟨alike.machine, alike.host⟩
    rw [write_of_caught host value caught, write_of_caught host value caughtToo]
    exact (agree_settled blind noted hook addr (.write value)).world
  | none =>
    have uncaughtToo : v.machine.mem.catch? .write addr = none := machine ▸ caught
    rw [write_of_uncaught host value caught, write_of_uncaught host value uncaughtToo]
    exact alike_writeThrough alike addr value

theorem agree_readFlag (alike : v.Alike w) (flag : Flag) : Agree (v.readFlag flag) (w.readFlag flag) := by
  obtain ⟨instruments, metrics, journal, rfl⟩ := alike.exists_eq
  unfold readFlag
  dsimp only
  split <;> exact ⟨rfl, rfl, rfl⟩

end World

theorem MicroOp.blind_perform {host : Host σ} (blind : host.Blind) (op : MicroOp) :
    World.Blind (op.perform host) := by
  intro v w alike
  cases op with
  | fetch addr => exact World.agree_readAs blind alike .executeUndefined .executeUninitialized addr
  | load addr => exact World.agree_readAs blind alike .readUndefined .readUninitialized addr
  | store addr value => exact ⟨rfl, World.alike_write blind alike addr value⟩
  | flag which => exact World.agree_readFlag alike which
  | isBlank | register | setRegister | pc | setPc | setFlag | forget | status | setStatus | here
    | raise | charge | observe =>
    obtain ⟨instruments, metrics, journal, rfl⟩ := alike.exists_eq
    exact ⟨rfl, rfl, rfl⟩

/-- What micro-operations do not look at, microcode does not look at. -/
theorem Micro.blind_run {host : Host σ} (blind : host.Blind) (program : Micro α) :
    World.Blind (program.run host) := by
  induction program with
  | done result =>
    intro v w alike
    exact ⟨rfl, alike⟩
  | step op next inductionHypothesis =>
    exact World.Blind.bind (op.blind_perform blind) inductionHypothesis

namespace World

variable {host : Host σ} {v w : World σ}

theorem agree_fetched (blind : host.Blind) (alike : v.Alike w) (pc : UInt16) :
    Agree (v.fetched host pc) (w.fetched host pc) :=
  (Micro.fetchInstruction pc).blind_run blind (alike.traceInstruction pc)

theorem alike_worked (blind : host.Blind) (alike : v.Alike w) (pc : UInt16) :
    (v.worked host pc).Alike (w.worked host pc) := by
  obtain ⟨⟨instruction, value⟩, x, y, described, describedToo, fetched⟩ :=
    (agree_fetched blind alike pc).exists_eq
  unfold worked work poised nextAddress World.instruction
  rw [described, describedToo]
  have poised := fetched.update (·.startAt (pc + UInt16.ofNat instruction.length))
  have cleared :
      (x.mapRegs fun regs => { regs with pc := pc + UInt16.ofNat instruction.length }).clearSample.Alike
        (y.mapRegs fun regs =>
          { regs with pc := pc + UInt16.ofNat instruction.length }).clearSample :=
    ⟨poised.machine, poised.host⟩
  exact (Micro.blind_run blind (.ofInstruction instruction value) cleared).world

theorem Alike.profileSample (alike : v.Alike w) (pc : UInt16) (sample other : Sample) :
    (v.profileSample pc sample).Alike (w.profileSample pc other) :=
  ⟨alike.machine, alike.host⟩

theorem alike_runInstruction (blind : host.Blind) (alike : v.Alike w) (pc : UInt16) :
    (v.runInstruction host pc).Alike (w.runInstruction host pc) := by
  rw [runInstruction_eq, runInstruction_eq]
  apply Alike.profileSample
  apply Alike.meter
  exact alike_worked blind alike pc

theorem alike_runHook (blind : host.Blind) (alike : v.Alike w) (hook : Nat) (pc : UInt16) :
    (v.runHook host hook pc).Alike (w.runHook host hook pc) := by
  obtain ⟨answer, x, y, answered, answeredToo, left⟩ :=
    (agree_answer blind alike hook pc .exec).exists_eq
  have settled := (agree_settled blind alike hook pc .exec).world
  -- What remains to be done behind a hook depends on its answer and the machine it leaves.
  have continuations : (v.invocation hook pc .exec).continuation host =
      (w.invocation hook pc .exec).continuation host := by
    unfold Invocation.continuation
    rw [answered, answeredToo]
    cases answer with
    | ok value =>
      dsimp only
      rw [left.machine]
      rfl
    | error kind => rfl
  rw [runHook_eq, runHook_eq, continuations]
  exact (Micro.blind_run blind _ settled).world

theorem alike_window (blind : host.Blind) (alike : v.Alike w) :
    (v.window host).Alike (w.window host) := by
  have machine := alike.machine
  have entered : (v.enter w.machine.regs.pc).Alike (w.enter w.machine.regs.pc) :=
    alike.update (·.enter w.machine.regs.pc)
  -- Both worlds take the same way through the window, since it is the machine that decides on it.
  by_cases ended : (w.machine.limitReached || w.machine.atSentinel) = true
  · have endedToo : (v.machine.limitReached || v.machine.atSentinel) = true := machine ▸ ended
    rw [window_of_ended ended, window_of_ended endedToo, machine]
    exact entered.update (·.raise _ _)
  · have goingToo : ¬(v.machine.limitReached || v.machine.atSentinel) = true := machine ▸ ended
    cases bound : w.machine.mem.hook? .exec w.machine.regs.pc with
    | some hook =>
      have boundToo : v.machine.mem.hook? .exec v.machine.regs.pc = some hook := machine ▸ bound
      rw [window_of_hook ended bound, window_of_hook goingToo boundToo, machine]
      exact alike_runHook blind entered hook w.machine.regs.pc
    | none =>
      have unboundToo : v.machine.mem.hook? .exec v.machine.regs.pc = none := machine ▸ bound
      rw [window_of_no_hook ended bound, window_of_no_hook goingToo unboundToo, machine]
      exact alike_runInstruction blind entered w.machine.regs.pc

theorem blind_settle : Blind (settle (σ := σ)) := by
  intro v w alike
  have emptied := alike.update fun m => { m with slot := {} }
  unfold settle
  rw [alike.machine]
  cases held : w.machine.slot.fault with
  | none => exact ⟨rfl, alike⟩
  | some fault =>
    have counted := emptied.meter
      (·.countFault fault.kind.name (w.machine.level.isFatal fault.kind))
      (·.countFault fault.kind.name (w.machine.level.isFatal fault.kind))
    dsimp only
    rw [alike.machine] at counted
    split
    · exact ⟨rfl, counted⟩
    · exact ⟨rfl, counted.machine, counted.host⟩

theorem blind_step (blind : host.Blind) : Blind (step host) := by
  intro v w alike
  exact blind_settle (alike_window blind alike)

theorem blind_steps (blind : host.Blind) (bound : Nat) : Blind (steps host bound) := by
  induction bound with
  | zero =>
    intro v w alike
    exact ⟨rfl, alike⟩
  | succ bound inductionHypothesis =>
    intro v w alike
    obtain ⟨outcome, x, y, left, right, stepped⟩ := (blind_step blind alike).exists_eq
    unfold steps
    rw [left, right]
    cases outcome with
    | none => exact inductionHypothesis stepped
    | some fault => exact ⟨rfl, stepped⟩

theorem Alike.finishRun (alike : v.Alike w) (start other : UInt64) (fault : Fault) :
    (v.finishRun start fault).Alike (w.finishRun other fault) := by
  have counted := alike.meter (·.countCycles (v.machine.cycles - start))
    (·.countCycles (w.machine.cycles - other))
  exact ⟨counted.machine, counted.host⟩

/-- The cycles from which a run counts are of interest to the counters only. -/
theorem blind_runSince (blind : host.Blind) (start other : UInt64) (bound : Nat) (alike : v.Alike w) :
    Agree (v.runSince start host bound) (w.runSince other host bound) := by
  obtain ⟨outcome, x, y, left, right, stepped⟩ := (blind_steps blind bound alike).exists_eq
  unfold runSince
  rw [left, right]
  cases outcome with
  | none => exact ⟨rfl, stepped⟩
  | some fault => exact ⟨rfl, stepped.finishRun start other fault⟩

theorem blind_run (blind : host.Blind) (bound : Nat) (addr : UInt16) :
    Blind (run host bound addr) := by
  intro v w alike
  have placed := alike.update (·.startAt addr)
  have started : ((v.startAt addr).log (.runStarted addr)).Alike
      ((w.startAt addr).log (.runStarted addr)) := ⟨placed.machine, placed.host⟩
  exact blind_runSince blind v.machine.cycles w.machine.cycles bound started

theorem call_eq (host : Host σ) (bound : Nat) (addr : UInt16) (w : World σ) :
    w.call host bound addr =
      (((w.beginCall host).run host bound addr).1,
        { ((w.beginCall host).run host bound addr).2 with
          machine :=
            ((w.beginCall host).run host bound addr).2.machine.resume w.machine.frame }) := rfl

theorem blind_call (blind : host.Blind) (bound : Nat) (addr : UInt16) :
    Blind (call host bound addr) := by
  intro v w alike
  have armed : v.armed.Alike w.armed :=
    alike.update fun m => { m with inCall := true, slot := {} }
  have begun : (v.beginCall host).Alike (w.beginCall host) :=
    (Micro.blind_run blind (Micro.pushWord (callSentinel - 1)) armed).world
  obtain ⟨outcomes, ran⟩ := blind_run blind bound addr begun
  rw [call_eq, call_eq, alike.machine]
  exact ⟨outcomes, ran.update (·.resume w.machine.frame)⟩

/-- What hooks do not look at, no operation looks at. -/
theorem blind_operate (blind : host.Blind) (operation : Operation) :
    Blind (operate host operation) := by
  intro v w alike
  cases operation with
  | step => exact (blind_step blind alike).map Reply.stepped
  | run bound addr => exact (blind_run blind bound addr alike).map Reply.ended
  | call bound addr => exact (blind_call blind bound addr alike).map Reply.ended
  | read addr => exact (Micro.blind_run blind (Micro.load addr) alike).map Reply.byte
  | write addr value => exact ⟨rfl, alike_write blind alike addr value⟩
  | push value => exact (Micro.blind_run blind (Micro.push value) alike).map fun _ => Reply.done
  | pull => exact (Micro.blind_run blind Micro.pull alike).map Reply.byte

theorem blind_operateAll (blind : host.Blind) (operations : List Operation) :
    Blind (operateAll host operations) := by
  induction operations with
  | nil =>
    intro v w alike
    exact ⟨rfl, alike⟩
  | cons operation rest inductionHypothesis =>
    intro v w alike
    obtain ⟨reply, x, y, left, right, operated⟩ := (blind_operate blind operation alike).exists_eq
    obtain ⟨replies, after⟩ := inductionHypothesis operated
    rw [operateAll_cons, operateAll_cons, left, right]
    exact ⟨congrArg (reply :: ·) replies, after⟩

/-- What the hooks of a program do: they change the machine and their own state by what they see of these, leave notes
elsewhere, and operate the machine, with hooks that do such things in turn. -/
inductive Deed : {α : Type} → (World σ → α × World σ) → Prop where
  | change {α : Type} (f : Machine → σ → α × Machine × σ) :
      Deed fun w =>
        ((f w.machine w.host).1,
          { w with machine := (f w.machine w.host).2.1, host := (f w.machine w.host).2.2 })
  | aside {note : World σ → World σ} :
      (∀ w, (note w).machine = w.machine) → (∀ w, (note w).host = w.host) →
        Deed fun w => ((), note w)
  | operate {inner : Host σ} (operation : Operation) :
      (∀ hook addr access, Deed (inner.respond hook addr access)) → Deed (operate inner operation)
  | bind {α β : Type} {act : World σ → α × World σ} {next : α → World σ → β × World σ} :
      Deed act → (∀ answer, Deed (next answer)) → Deed fun w => next (act w).1 (act w).2

theorem Deed.answer (answer : α) : Deed fun w : World σ => (answer, w) :=
  .change fun m state => (answer, m, state)

/-- Deeds do not look at instruments, counters and journal. -/
theorem Deed.blind {act : World σ → α × World σ} (deed : Deed act) : Blind act := by
  induction deed with
  | change f =>
    intro v w alike
    dsimp only
    rw [alike.machine, alike.host]
    exact ⟨rfl, rfl, rfl⟩
  | aside machine host =>
    intro v w alike
    refine ⟨rfl, ?_, ?_⟩
    · exact ((machine v).trans alike.machine).trans (machine w).symm
    · exact ((host v).trans alike.host).trans (host w).symm
  | operate operation _ inductionHypothesis => exact blind_operate inductionHypothesis operation
  | bind _ _ first second => exact Blind.bind first second

end World

/-- The hooks of a host do nothing but deeds. -/
def Host.Secluded (host : Host σ) : Prop :=
  ∀ hook addr access, World.Deed (host.respond hook addr access)

namespace World

/-- Observers do not disturb execution. Two worlds with the same machine and the same state of the host, and whatever
labels, trace, profile and counters, give the same replies to the same operations and keep the same machine. -/
theorem observers_do_not_disturb {host : Host σ} (secluded : host.Secluded) {v w : World σ}
    (machine : v.machine = w.machine) (states : v.host = w.host) (operations : List Operation) :
    (v.operateAll host operations).1 = (w.operateAll host operations).1 ∧
      (v.operateAll host operations).2.machine = (w.operateAll host operations).2.machine ∧
      (v.operateAll host operations).2.host = (w.operateAll host operations).2.host := by
  have blind : host.Blind := fun hook addr access => (secluded hook addr access).blind
  obtain ⟨replies, after⟩ := blind_operateAll blind operations ⟨machine, states⟩
  exact ⟨replies, after.machine, after.host⟩

theorem caller_secluded : caller.Secluded := by
  intro hook addr access
  have idle : hooklessWatch.host.Secluded := fun _ _ _ => Deed.answer (Except.ok 0)
  have called := Deed.operate (.call 2 0x0020) idle
  exact @Deed.bind Unit Reply (Except FaultKind UInt8) _ (fun _ w => (Except.ok 1, w)) called
    fun _ => Deed.answer (Except.ok 1)

namespace Alike

theorem of_enableProfile (w : World σ) : w.enableProfile.Alike w := by
  unfold enableProfile
  split <;> exact ⟨rfl, rfl⟩

theorem of_logTimes (entry : LogEntry) (count : Nat) (w : World σ) :
    (w.logTimes entry count).Alike w := by
  induction count generalizing w with
  | zero => exact .refl w
  | succ count inductionHypothesis =>
    have later := inductionHypothesis (w.log entry)
    exact ⟨later.machine, later.host⟩

theorem of_enableMetrics (w : World σ) : w.enableMetrics.Alike w := by
  have refused := of_logTimes .registrationRefused w.metrics.install.2
    { w with
      metrics := w.metrics.install.1
      instruments := { w.instruments with metered := true } }
  exact ⟨refused.machine, refused.host⟩

end Alike

/-- With a trace that fails at its second line, a name for the subroutine, a profile, and counters. -/
def watched (w : World σ) : World σ :=
  (((w.setSink (some ⟨some 1⟩)).setLabel 0x0020 "sub").enableProfile).enableMetrics

theorem alike_watched (w : World σ) : w.watched.Alike w := by
  have profiled := Alike.of_enableProfile ((w.setSink (some ⟨some 1⟩)).setLabel 0x0020 "sub")
  exact (Alike.of_enableMetrics _).trans ⟨profiled.machine, profiled.host⟩

theorem loadedCall_undisturbed :
    (loadedCall.watched.operateAll caller [.push 1, .run 3 0, .pull]).1 =
      (loadedCall.operateAll caller [.push 1, .run 3 0, .pull]).1 := by
  have alike := loadedCall.alike_watched
  have undisturbed := observers_do_not_disturb caller_secluded alike.machine alike.host
    [.push 1, .run 3 0, .pull]
  exact undisturbed.1

end World

end Mos6502
