import Mathlib.Data.UInt
import Mos6502.Proofs.CycleCounter

/-!
# Counts of instructions

Three observers count instructions: the trace has a line for each, and the profile and the counters have numbers. The
line is written before an instruction is fetched, the other two when its work is over. In between come the hooks of its
accesses, and these may execute instructions in turn. But then each of them has its line and its numbers as well by the
time the hook is left, so the three agree whenever a window is over.
-/

namespace Mos6502

variable {σ α : Type}

/-- The sum of the counts, whatever their labels. -/
def LabelledCounts.total (counts : LabelledCounts) : UInt64 :=
  (counts.map Prod.snd).sum

theorem LabelledCounts.total_increment (labels : List String) (counts : LabelledCounts) :
    (counts.increment labels).total = counts.total + 1 := by
  induction counts with
  | nil => rfl
  | cons entry rest inductionHypothesis =>
    obtain ⟨found, count⟩ := entry
    have split (first : UInt64) (others : LabelledCounts) :
        total ((found, first) :: others) = first + others.total := rfl
    unfold increment
    by_cases here : found = labels
    · rw [if_pos here, split, split]
      ac_rfl
    · rw [if_neg here, split, split, inductionHypothesis, UInt64.add_assoc]

namespace TraceSink

/-- The sink accepts so many lines. -/
def Holds (lines : Nat) (sink : TraceSink) : Prop :=
  ∀ room, sink.room = some room → lines ≤ room

/-- The sink behind so many lines. -/
def after (lines : Nat) (sink : TraceSink) : TraceSink where
  room := sink.room.map (· - lines)

variable {first second : Nat} {sink : TraceSink}

theorem after_zero (sink : TraceSink) : sink.after 0 = sink := by
  unfold after
  simp only [Nat.sub_zero, Option.map_id']

theorem after_after (sink : TraceSink) :
    (sink.after first).after second = sink.after (first + second) := by
  unfold after
  simp only [Option.map_map, Function.comp_def, Nat.sub_sub]

theorem Holds.left (holds : sink.Holds (first + second)) : sink.Holds first := by
  intro room bounded
  exact Nat.le_trans (Nat.le_add_right first second) (holds room bounded)

theorem Holds.right (holds : sink.Holds (first + second)) : (sink.after first).Holds second := by
  intro room rest
  obtain ⟨whole, bounded, rfl⟩ := Option.map_eq_some_iff.mp rest
  exact Nat.le_sub_of_add_le' (holds whole bounded)

end TraceSink

/-- The trace, the profile and the counters, as far as they are about the number of instructions. -/
structure Recorders where
  sink : Option TraceSink
  lines : Nat
  profiled : Option UInt64
  metered : Bool
  counted : UInt64
deriving DecidableEq, Repr

def World.recorders (w : World σ) : Recorders where
  sink := w.instruments.sink
  lines := w.journal.trace.size
  profiled := w.instruments.profile.map (·.totals.instructions)
  metered := w.instruments.metered
  counted := w.metrics.instructions.total

namespace Recorders

/-- No recorder is taken away, and those that are on grow by so many lines or instructions. -/
structure Grow (lines profiled counted : Nat) (before after : Recorders) : Prop where
  lines : ∀ sink, before.sink = some sink → sink.Holds lines →
    after.sink = some (sink.after lines) ∧ after.lines = before.lines + lines
  profiled : after.profiled = before.profiled.map (· + UInt64.ofNat profiled)
  metered : after.metered = before.metered
  counted : before.metered = true → after.counted = before.counted + UInt64.ofNat counted

namespace Grow

variable {lines profiled counted lines' profiled' counted' : Nat} {r s t : Recorders}

theorem refl (r : Recorders) : Grow 0 0 0 r r where
  lines sink on _ := by
    rw [sink.after_zero]
    exact ⟨on, rfl⟩
  profiled := by
    change r.profiled = r.profiled.map fun total => total + 0
    simp only [UInt64.add_zero, Option.map_id']
  metered := rfl
  counted _ := (UInt64.add_zero _).symm

theorem trans (left : Grow lines profiled counted r s) (right : Grow lines' profiled' counted' s t) :
    Grow (lines + lines') (profiled + profiled') (counted + counted') r t where
  lines sink on holds := by
    obtain ⟨stillOn, grown⟩ := left.lines sink on holds.left
    obtain ⟨stillOn, grownAgain⟩ := right.lines _ stillOn holds.right
    rw [TraceSink.after_after] at stillOn
    rw [grown, Nat.add_assoc] at grownAgain
    exact ⟨stillOn, grownAgain⟩
  profiled := by
    rw [right.profiled, left.profiled, Option.map_map, UInt64.ofNat_add]
    simp only [Function.comp_def, UInt64.add_assoc]
  metered := right.metered.trans left.metered
  counted on := by
    have grown := left.counted on
    have grownAgain := right.counted (left.metered.trans on)
    rw [grownAgain, grown, UInt64.add_assoc, ← UInt64.ofNat_add]

end Grow

/-- The recorders grow by one number. -/
def Agree (count : Nat) (before after : Recorders) : Prop :=
  Grow count count count before after

theorem Agree.refl (r : Recorders) : Agree 0 r r :=
  Grow.refl r

theorem Agree.trans {r s t : Recorders} {first second : Nat} (left : Agree first r s)
    (right : Agree second s t) : Agree (first + second) r t :=
  Grow.trans left right

end Recorders

namespace World

theorem recorders_meter (change : Metrics → Metrics)
    (keeps : ∀ metrics, (change metrics).instructions = metrics.instructions) (w : World σ) :
    (w.meter change).recorders = w.recorders := by
  rw [meter_eq]
  unfold recorders
  split
  · rw [keeps]
  · rfl

theorem recorders_settle (w : World σ) : w.settle.2.recorders = w.recorders := by
  obtain ⟨_, _, settled⟩ := w.exists_settle_eq
  rw [settled]
  rfl

theorem recorders_finishRun (start : UInt64) (fault : Fault) (w : World σ) :
    (w.finishRun start fault).recorders = w.recorders :=
  recorders_meter (·.countCycles (w.machine.cycles - start)) (fun _ => rfl) w

theorem recorders_poised (host : Host σ) (pc : UInt16) (w : World σ) :
    (w.poised host pc).recorders = (w.fetched host pc).2.recorders := by
  obtain ⟨_, poised⟩ := w.exists_poised_eq host pc
  rw [poised]
  generalize (w.fetched host pc).2 = v
  rfl

theorem trace_grow (line : String) (w : World σ) :
    w.recorders.Grow 1 0 0 (w.trace line).recorders := by
  have others := Recorders.Grow.refl w.recorders
  unfold trace
  split
  next off =>
    refine { others with lines := ?_ }
    intro sink on
    cases off.symm.trans on
  next unbounded =>
    refine { others with lines := ?_ }
    intro sink on _
    cases unbounded.symm.trans on
    exact ⟨unbounded, Array.size_push line⟩
  next full =>
    refine { others with lines := ?_ }
    intro sink on holds
    cases full.symm.trans on
    cases holds 0 rfl
  next room bounded =>
    refine { others with lines := ?_ }
    intro sink on _
    cases bounded.symm.trans on
    exact ⟨rfl, Array.size_push line⟩

theorem traceInstruction_grow (pc : UInt16) (w : World σ) :
    w.recorders.Grow 1 0 0 (w.traceInstruction pc).recorders := by
  unfold traceInstruction
  split
  next on => exact trace_grow _ w
  next off =>
    have none : w.instruments.sink = none := Option.not_isSome_iff_eq_none.mp off
    refine { Recorders.Grow.refl w.recorders with lines := ?_ }
    intro sink on
    cases none.symm.trans on

/-- The end of an instruction: it is counted, and its sample is recorded. -/
theorem retire_grow (pc : UInt16) (name : String) (sample : Sample) (w : World σ) :
    w.recorders.Grow 0 1 1
      ((w.meter (·.countInstruction name)).profileSample pc sample).recorders := by
  have recorded (profile : Option Profile) :
      (profile.map (·.record pc sample)).map (·.totals.instructions) =
        (profile.map (·.totals.instructions)).map (· + UInt64.ofNat 1) := by
    cases profile <;> rfl
  have others := Recorders.Grow.refl w.recorders
  unfold meter
  split
  next on =>
    exact {
      lines := others.lines
      profiled := recorded w.instruments.profile
      metered := rfl
      counted := fun _ => LabelledCounts.total_increment [name] w.metrics.instructions }
  next off =>
    exact {
      lines := others.lines
      profiled := recorded w.instruments.profile
      metered := rfl
      counted := fun on => absurd on off }

end World

/-- The recorders agree on the number that is claimed of each answer. -/
def Tally.Agrees (tally : Tally σ) : Prop :=
  ∀ hook addr access (w : World σ),
    w.recorders.Agree (tally.counted hook addr access w)
      (tally.host.respond hook addr access w).2.recorders

section

variable {tally : Tally σ}

theorem World.invocation_agree (agrees : tally.Agrees) (hook : Nat) (addr : UInt16) (access : Access)
    (w : World σ) :
    w.recorders.Agree (tally.sum [w.invocation hook addr access])
      ((w.invocation hook addr access).settled tally.host).recorders := by
  have given : (w.invocation hook addr access).given.recorders = w.recorders :=
    recorders_meter (·.countCallback access.kind.name) (fun _ => rfl) w
  obtain ⟨_, settled⟩ := (w.invocation hook addr access).exists_settled_eq tally.host
  have answered := agrees hook addr access (w.invocation hook addr access).given
  rw [given] at answered
  rw [settled]
  exact answered

theorem MicroOp.agree (agrees : tally.Agrees) (op : MicroOp) (w : World σ) :
    w.recorders.Agree (tally.sum (op.invocation? w).toList)
      (op.perform tally.host w).2.recorders := by
  cases invoked : op.invocation? w with
  | none =>
    obtain ⟨_, _, noted⟩ := op.exists_note_eq w
    rw [op.perform_of_silent tally.host invoked, noted]
    exact .refl w.recorders
  | some asked =>
    rw [op.perform_of_invocation tally.host invoked]
    obtain ⟨hook, addr, access, v, -, same, -, rfl⟩ := exists_of_invocation? invoked
    have answered := v.invocation_agree agrees hook addr access
    rcases same with rfl | rfl
    · exact answered
    · exact answered

theorem Micro.agree (agrees : tally.Agrees) (program : Micro α) (w : World σ) :
    w.recorders.Agree (tally.sum (program.invocations tally.host w))
      (program.run tally.host w).2.recorders := by
  induction program generalizing w with
  | done result => exact .refl w.recorders
  | step op next inductionHypothesis =>
    have here := op.agree agrees w
    have later := inductionHypothesis (op.perform tally.host w).1 (op.perform tally.host w).2
    rw [invocations_step, Tally.sum_append]
    exact here.trans later

namespace World

/-- The instruction that a window fetches and decodes. There is none at the cycle limit, at the end of a call and where
an exec hook is bound. -/
def decoded (host : Host σ) (w : World σ) : List Instruction :=
  if w.machine.limitReached || w.machine.atSentinel then []
  else
    let pc := w.machine.regs.pc
    match w.machine.mem.hook? .exec pc with
    | some _ => []
    | none => [(w.enter pc).instruction host pc]

/-- The number of instructions that are decoded in a window, by itself and by its hooks. -/
def windowCount (tally : Tally σ) (w : World σ) : Nat :=
  (w.decoded tally.host).length + tally.sum (w.windowInvocations tally.host)

theorem runInstruction_agree (agrees : tally.Agrees) (pc : UInt16) (w : World σ) :
    w.recorders.Agree
      (1 + tally.sum (w.fetchInvocations tally.host pc ++ w.workInvocations tally.host pc))
      (w.runInstruction tally.host pc).recorders := by
  have traced := w.traceInstruction_grow pc
  have fetched : (w.traceInstruction pc).recorders.Agree
      (tally.sum (w.fetchInvocations tally.host pc)) (w.fetched tally.host pc).2.recorders :=
    (Micro.fetchInstruction pc).agree agrees (w.traceInstruction pc)
  have worked : (w.poised tally.host pc).recorders.Agree
      (tally.sum (w.workInvocations tally.host pc)) (w.worked tally.host pc).recorders :=
    (w.work tally.host pc).agree agrees (w.poised tally.host pc)
  have retired := (w.worked tally.host pc).retire_grow pc
    (w.instruction tally.host pc).mnemonic.name (w.retiredSample tally.host pc)
  rw [recorders_poised] at worked
  rw [← runInstruction_eq] at retired
  -- The line comes first and the other two last, so the recorders differ in between.
  have together := traced.trans (Recorders.Grow.trans (fetched.trans worked) retired)
  have late (count : Nat) : 0 + (count + 1) = 1 + count := by omega
  rw [late, Nat.add_zero] at together
  rw [Tally.sum_append]
  exact together

theorem runHook_agree (agrees : tally.Agrees) (hook : Nat) (pc : UInt16) (w : World σ) :
    w.recorders.Agree (tally.sum (w.hookInvocations tally.host hook pc))
      (w.runHook tally.host hook pc).recorders := by
  have answered := w.invocation_agree agrees hook pc .exec
  have continued := ((w.invocation hook pc .exec).continuation tally.host).agree agrees
    ((w.invocation hook pc .exec).settled tally.host)
  rw [runHook_eq]
  exact tally.sum_append [w.invocation hook pc .exec] _ ▸ answered.trans continued

theorem window_agree (agrees : tally.Agrees) (w : World σ) :
    w.recorders.Agree (w.windowCount tally) (w.window tally.host).recorders := by
  unfold windowCount decoded windowInvocations
  dsimp only
  by_cases ended : (w.machine.limitReached || w.machine.atSentinel) = true
  · rw [if_pos ended, if_pos ended, window_of_ended ended]
    exact .refl w.recorders
  · rw [if_neg ended, if_neg ended]
    cases bound : w.machine.mem.hook? .exec w.machine.regs.pc with
    | some hook =>
      rw [window_of_hook ended bound, List.length_nil, Nat.zero_add]
      exact runHook_agree agrees hook _ (w.enter w.machine.regs.pc)
    | none =>
      rw [window_of_no_hook ended bound]
      exact runInstruction_agree agrees _ (w.enter w.machine.regs.pc)

theorem step_agree (agrees : tally.Agrees) (w : World σ) :
    w.recorders.Agree (w.windowCount tally) (w.step tally.host).2.recorders := by
  unfold step
  rw [recorders_settle]
  exact window_agree agrees w

theorem steps_agree (agrees : tally.Agrees) (bound : Nat) (w : World σ) :
    w.recorders.Agree
      ((w.along tally.host (decoded tally.host) bound).length +
        tally.sum (w.along tally.host (windowInvocations tally.host) bound))
      (w.steps tally.host bound).2.recorders := by
  induction bound generalizing w with
  | zero => exact .refl w.recorders
  | succ bound inductionHypothesis =>
    have stepped := step_agree agrees w
    unfold windowCount at stepped
    unfold steps along
    rw [List.length_append, Tally.sum_append, Nat.add_add_add_comm]
    generalize w.step tally.host = result at stepped ⊢
    rcases result with ⟨_ | fault, v⟩
    · exact stepped.trans (inductionHypothesis v)
    · exact stepped

theorem run_agree (agrees : tally.Agrees) (bound : Nat) (addr : UInt16) (w : World σ) :
    w.recorders.Agree
      ((w.alongRun tally.host (decoded tally.host) bound addr).length +
        tally.sum (w.alongRun tally.host (windowInvocations tally.host) bound addr))
      (w.run tally.host bound addr).2.recorders := by
  have stepped := steps_agree agrees bound ((w.startAt addr).log (.runStarted addr))
  rcases reached : ((w.startAt addr).log (.runStarted addr)).steps tally.host bound with
    ⟨_ | fault, v⟩
  · rw [reached] at stepped
    rw [run_of_running tally.host reached]
    exact stepped
  · rw [reached] at stepped
    rw [run_of_stopped tally.host reached, recorders_finishRun]
    exact stepped

/-- The instructions that the windows of an operation fetch and decode. -/
def operationDecoded (host : Host σ) (operation : Operation) (w : World σ) : List Instruction :=
  w.alongOperation host (fun _ _ => []) (decoded host) operation

/-- The number of instructions that are decoded in an operation, by its own windows and by what its hooks do. -/
def instructionCount (tally : Tally σ) (operation : Operation) (w : World σ) : Nat :=
  (w.operationDecoded tally.host operation).length +
    tally.sum (w.operationInvocations tally.host operation)

theorem call_agree (agrees : tally.Agrees) (bound : Nat) (addr : UInt16) (w : World σ) :
    w.recorders.Agree (w.instructionCount tally (.call bound addr))
      (w.call tally.host bound addr).2.recorders := by
  have begun := (Micro.pushWord (callSentinel - 1)).agree agrees w.armed
  have ran := run_agree agrees bound addr (w.beginCall tally.host)
  have invoked : w.operationInvocations tally.host (.call bound addr) =
      (Micro.pushWord (callSentinel - 1)).invocations tally.host w.armed ++
        (w.beginCall tally.host).alongRun tally.host (windowInvocations tally.host) bound addr := rfl
  unfold instructionCount
  rw [invoked, Tally.sum_append, Nat.add_left_comm]
  exact begun.trans ran

/-- In every operation the recorders agree on the number of instructions that are decoded. -/
theorem operate_agree (agrees : tally.Agrees) (operation : Operation) (w : World σ) :
    w.recorders.Agree (w.instructionCount tally operation)
      (w.operate tally.host operation).2.recorders := by
  -- Outside of windows nothing is decoded, but what the hooks do counts all the same.
  have alone {α : Type} (program : Micro α) : w.recorders.Agree
      (([] : List Instruction).length + tally.sum (program.invocations tally.host w))
      (program.run tally.host w).2.recorders := by
    rw [List.length_nil, Nat.zero_add]
    exact program.agree agrees w
  cases operation with
  | step => exact step_agree agrees w
  | run bound addr => exact run_agree agrees bound addr w
  | call bound addr => exact call_agree agrees bound addr w
  | read addr => exact alone (Micro.load addr)
  | write addr value => exact alone (Micro.store addr value)
  | push value => exact alone (Micro.push value)
  | pull => exact alone Micro.pull

end World

end

namespace World

/-- `Executes n v w`: the world `w` comes from `v` by operations, in which `n` instructions are decoded, and by changes
that leave the recorders alone. The hooks that an operation comes to do such things in turn. -/
inductive Executes : Nat → World σ → World σ → Prop where
  | refl (w : World σ) : Executes 0 w w
  | aside {count : Nat} {u v w : World σ} : Executes count u v → w.recorders = v.recorders →
      Executes count u w
  | operate {count : Nat} {u v : World σ} {inner : Tally σ} (operation : Operation) :
      (∀ hook addr access w,
        Executes (inner.counted hook addr access w) w (inner.host.respond hook addr access w).2) →
        Executes count u v →
          Executes (count + v.instructionCount inner operation) u (v.operate inner.host operation).2

theorem Executes.agree {count : Nat} {v w : World σ} (executes : Executes count v w) :
    v.recorders.Agree count w.recorders := by
  -- The hypothesis for the hooks of an operation is that the recorders agree on what is claimed of them.
  induction executes with
  | refl w => exact .refl w.recorders
  | aside _ same inductionHypothesis =>
    rw [same]
    exact inductionHypothesis
  | operate operation _ _ answers inductionHypothesis =>
    exact inductionHypothesis.trans (operate_agree answers operation _)

end World

/-- Hooks leave the recorders alone but for what they execute, and they execute as many instructions as is claimed. -/
def Tally.Executes (tally : Tally σ) : Prop :=
  ∀ hook addr access (w : World σ),
    World.Executes (tally.counted hook addr access w) w (tally.host.respond hook addr access w).2

namespace World

/-- With a trace whose sink does not fail, a profile and counters, and with hooks that leave these in place, any
operation writes as many lines, and makes the profile and the counters grow by as many instructions, as are decoded
in its windows and in those of its hooks. -/
theorem recorders_agree {tally : Tally σ} (executes : tally.Executes) {operation : Operation}
    {w : World σ} {sink : TraceSink} (traced : w.instruments.sink = some sink)
    (holds : sink.Holds (w.instructionCount tally operation)) {profile : Profile}
    (profiled : w.instruments.profile = some profile) (metered : w.instruments.metered = true) :
    (w.operate tally.host operation).2.journal.trace.size =
        w.journal.trace.size + w.instructionCount tally operation ∧
      (∃ later, (w.operate tally.host operation).2.instruments.profile = some later ∧
        later.totals.instructions =
          profile.totals.instructions + UInt64.ofNat (w.instructionCount tally operation)) ∧
      (w.operate tally.host operation).2.metrics.instructions.total =
        w.metrics.instructions.total + UInt64.ofNat (w.instructionCount tally operation) := by
  have agrees : tally.Agrees := fun hook addr access v => (executes hook addr access v).agree
  have grown := operate_agree agrees operation w
  refine ⟨(grown.lines sink traced holds).2, ?_, grown.counted metered⟩
  have start : w.recorders.profiled = some profile.totals.instructions :=
    congrArg (Option.map fun profile : Profile => profile.totals.instructions) profiled
  have total := grown.profiled
  rw [start] at total
  exact Option.map_eq_some_iff.mp total

/-- Nothing is executed behind the answers of a host without hooks. -/
def hooklessCount : Tally Unit where
  host := hooklessWatch.host
  counted _ _ _ _ := 0

/-- Behind each answer of `caller` stand the instructions of its call. -/
def callerCount : Tally Unit where
  host := caller
  counted _ _ _ w := w.instructionCount hooklessCount (.call 2 0x0020)

theorem callerCount_executes : callerCount.Executes := by
  have idle (hook : Nat) (addr : UInt16) (access : Access) (v : World Unit) :
      Executes (hooklessCount.counted hook addr access v) v
        (hooklessCount.host.respond hook addr access v).2 := .refl v
  intro hook addr access w
  have called := Executes.operate (.call 2 0x0020) idle (.refl w)
  rw [Nat.zero_add] at called
  dsimp only [callerCount, caller]
  exact called

/-- LDA $10, BRK, with all recorders on. -/
def recordedCall : World Unit :=
  meteredCall.setSink (some {})

theorem recordedCall_run :
    recordedCall.instruments.metered = true ∧
      recordedCall.instruments.profile.map (·.totals.instructions) = some 0 ∧
      recordedCall.journal.trace.size = 0 ∧
      recordedCall.metrics.instructions.total = 0 ∧
      recordedCall.instructionCount callerCount (.run 3 0) = 3 ∧
      (recordedCall.operate caller (.run 3 0)).1 = .ended (.stopped ⟨.brk, 2⟩) := by
  decide +kernel

/-- The RTS in the hook is the third instruction besides the LDA and the BRK. -/
theorem recordedCall_agrees :
    (recordedCall.operate callerCount.host (.run 3 0)).2.journal.trace.size = 0 + 3 ∧
      (∃ later, (recordedCall.operate callerCount.host (.run 3 0)).2.instruments.profile = some later ∧
        later.totals.instructions = 0 + UInt64.ofNat 3) ∧
      (recordedCall.operate callerCount.host (.run 3 0)).2.metrics.instructions.total =
        0 + UInt64.ofNat 3 := by
  obtain ⟨metered, profiled, lines, total, count, -⟩ := recordedCall_run
  obtain ⟨profile, profiled, start⟩ := Option.map_eq_some_iff.mp profiled
  have directed : recordedCall.instruments.sink = some {} := rfl
  have unbounded : ({} : TraceSink).Holds (recordedCall.instructionCount callerCount (.run 3 0)) := by
    intro room bounded
    cases bounded
  have agree := recorders_agree callerCount_executes directed unbounded profiled metered
  rw [count, lines, total, start] at agree
  exact agree

end World

end Mos6502
